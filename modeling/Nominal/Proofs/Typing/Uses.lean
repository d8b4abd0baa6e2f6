import Nominal.Proofs.Typing.WellTyped

/-!
# The numbers that stand in a typed tree

A typed tree names declarations by their numbers, at the places where they are made and at those where
they are referred to. `TypedStmt.uses` lists all of them, each with the name that the node has for it,
if it has one. In a well-typed tree every number is that of a registered declaration of that name
(`TypedStmt.resolves_uses`).
-/

namespace Nominal

/-- A number that stands in a tree, with the name that the node has for it. -/
structure Use where
  id : DeclId
  name? : Option String

/-- The number is that of a committed declaration, which has the name that the node has for it. -/
def Registry.Resolves (r : Registry) (u : Use) : Prop :=
  ∃ d, r.resolve u.id = .ok (some d) ∧ ∀ name, u.name? = some name → d.name = name

namespace Use

/-- Numbers without names. -/
def unnamed (ids : List DeclId) : List Use :=
  ids.map fun id => ⟨id, none⟩

/-- A number that may be missing, for `name`. -/
def named (name : String) (id? : Option DeclId) : List Use :=
  id?.toList.map fun id => ⟨id, some name⟩

end Use

mutual

/-- The numbers that stand in an expression. -/
def TypedExpr.uses : TypedExpr → List Use
  | ⟨form, _, _⟩ => form.uses

def TypedExprForm.uses : TypedExprForm → List Use
  | .int _ => []
  | .bool _ => []
  | .text _ => []
  | .reference name decl => Use.named name (some decl)
  | .member owner name decl? => Use.named name decl? ++ owner.uses
  | .assign target value => target.uses ++ value.uses
  | .binary left operator right method? =>
    Use.named ("operator" ++ operator) method? ++ (left.uses ++ right.uses)
  | .unary operator operand method? => Use.named ("operator" ++ operator) method? ++ operand.uses
  | .call callee arguments => callee.uses ++ TypedExpr.allUses arguments
  | .new _ arguments => TypedExpr.allUses arguments
  | .lambda _ parameters body => Use.unnamed parameters ++ TypedStmt.allUses body

def Callee.uses : Callee → List Use
  | .function decl => Use.unnamed [decl]
  | .method receiver name decl? => Use.named name decl? ++ receiver.uses
  | .value value => value.uses

def Target.uses : Target → List Use
  | .binding decl => Use.unnamed [decl]
  | .member owner name decl => Use.named name (some decl) ++ owner.uses

def TypedExpr.allUses : List TypedExpr → List Use
  | [] => []
  | e :: rest => e.uses ++ TypedExpr.allUses rest

/-- The numbers that stand in a statement. -/
def TypedStmt.uses : TypedStmt → List Use
  | ⟨form, _⟩ => form.uses

def TypedStmtForm.uses : TypedStmtForm → List Use
  | .expression e => e.uses
  | .varDecl decl (some initializer) => Use.unnamed [decl] ++ initializer.uses
  | .varDecl decl none => Use.unnamed [decl]
  | .classDecl _ parameters members => Use.unnamed parameters ++ TypedStmt.allUses members
  | .fnDecl decl _ parameters body => Use.unnamed (decl :: parameters) ++ TypedStmt.allUses body
  | .ret (some value) => value.uses
  | .ret none => []
  | .block body => TypedStmt.allUses body
  | .branch condition thenBody (some elseBody) =>
    condition.uses ++ (thenBody.uses ++ elseBody.uses)
  | .branch condition thenBody none => condition.uses ++ thenBody.uses
  | .loop condition body => condition.uses ++ body.uses
  | .print value => value.uses

def TypedStmt.allUses : List TypedStmt → List Use
  | [] => []
  | s :: rest => s.uses ++ TypedStmt.allUses rest

end

variable {w : Setting}

/-! ## What is registered -/

theorem Setting.Registers.resolves {id : DeclId} {name : String} {type : Slot Ty}
    (h : w.Registers id name type) : ∀ u ∈ Use.unnamed [id], w.registry.Resolves u := by
  intro u hu
  rw [Use.unnamed, List.map_singleton, List.mem_singleton] at hu
  rw [hu]
  exact ⟨_, h, fun _ hname => nomatch hname⟩

theorem Setting.Registers.resolves_named {id : DeclId} {name : String} {type : Slot Ty}
    (h : w.Registers id name type) :
    ∀ u ∈ Use.named name (some id), w.registry.Resolves u := by
  intro u hu
  rw [Use.named, Option.toList_some, List.map_singleton, List.mem_singleton] at hu
  rw [hu]
  exact ⟨_, h, fun _ hname => Option.some.inj hname⟩

theorem Setting.RegistersAll.resolves {ids : List DeclId} {slots : List (Slot Ty)}
    (h : w.RegistersAll ids slots) : ∀ u ∈ Use.unnamed ids, w.registry.Resolves u := by
  induction h with
  | nil => exact fun u hu => nomatch hu
  | cons hfirst _ ih =>
    obtain ⟨name, hid⟩ := hfirst
    rw [Use.unnamed, List.map_cons, List.forall_mem_cons]
    exact ⟨hid.resolves _ List.mem_cons_self, ih⟩

theorem Setting.Method.resolves {type : Ty} {name : String} {o : Overload}
    (h : w.Method type name o) : ∀ u ∈ Use.named name o.id?, w.registry.Resolves u := by
  intro u hu
  cases hid : o.id? with
  | none =>
    rw [hid] at hu
    cases hu
  | some id =>
    rw [hid] at hu
    exact (h.2 id hid).resolves_named u hu

/-! ## Along the tree -/

mutual

theorem TypedExpr.resolves_uses : ∀ e : TypedExpr, e.WellTyped w →
    ∀ u ∈ e.uses, w.registry.Resolves u
  | ⟨form, type, _⟩, h => form.resolves_uses type h

theorem TypedExprForm.resolves_uses : ∀ (form : TypedExprForm) (type : Slot Ty),
    form.WellTyped w type → ∀ u ∈ form.uses, w.registry.Resolves u
  | .int _, _, _ => fun _ hu => nomatch hu
  | .bool _, _, _ => fun _ hu => nomatch hu
  | .text _, _, _ => fun _ hu => nomatch hu
  | .reference _ _, _, h => Setting.Registers.resolves_named h
  | .member owner name decl?, _, ⟨howner, hmember⟩ => by
    refine List.forall_mem_append.2 ⟨?_, owner.resolves_uses howner⟩
    obtain ⟨m, hm, rfl, -⟩ | ⟨o, ho, rfl, -⟩ := hmember
    · exact hm.2.resolves_named
    · exact ho.resolves
  | .assign target value, type, ⟨htarget, hvalue, _⟩ =>
    List.forall_mem_append.2 ⟨target.resolves_uses type htarget, value.resolves_uses hvalue⟩
  | .binary left operator right method?, _, ⟨hleft, hright, o, ho, hmethod, _⟩ => by
    rw [hmethod]
    exact List.forall_mem_append.2 ⟨ho.resolves,
      List.forall_mem_append.2 ⟨left.resolves_uses hleft, right.resolves_uses hright⟩⟩
  | .unary operator operand method?, _, ⟨hoperand, o, ho, hmethod, _⟩ => by
    rw [hmethod]
    exact List.forall_mem_append.2 ⟨ho.resolves, operand.resolves_uses hoperand⟩
  | .call callee arguments, type, ⟨hcallee, harguments⟩ =>
    List.forall_mem_append.2 ⟨callee.resolves_uses _ type hcallee,
      TypedExpr.resolves_allUses arguments harguments⟩
  | .new _ arguments, _, ⟨_, _, harguments⟩ => TypedExpr.resolves_allUses arguments harguments
  | .lambda function _ body, _, ⟨_, hparameters, hbody⟩ =>
    List.forall_mem_append.2 ⟨hparameters.resolves,
      TypedStmt.resolves_allUses body (some function) hbody⟩

theorem Callee.resolves_uses : ∀ (callee : Callee) (arguments : List (Slot Ty)) (type : Slot Ty),
    callee.WellTyped w arguments type → ∀ u ∈ callee.uses, w.registry.Resolves u
  | .function _, _, _, ⟨_, _, hdecl, _⟩ => hdecl.resolves
  | .method receiver _ _, _, _, ⟨hreceiver, o, ho, hdecl, _⟩ => by
    rw [hdecl]
    exact List.forall_mem_append.2 ⟨ho.resolves, receiver.resolves_uses hreceiver⟩
  | .value value, _, _, ⟨hvalue, _⟩ => value.resolves_uses hvalue

theorem Target.resolves_uses : ∀ (target : Target) (type : Slot Ty), target.WellTyped w type →
    ∀ u ∈ target.uses, w.registry.Resolves u
  | .binding _, _, ⟨_, _, hdecl⟩ => hdecl.resolves
  | .member owner _ _, _, ⟨_, howner, hfield⟩ =>
    List.forall_mem_append.2 ⟨hfield.2.resolves_named, owner.resolves_uses howner⟩

theorem TypedExpr.resolves_allUses : ∀ es : List TypedExpr, TypedExpr.AllWellTyped w es →
    ∀ u ∈ TypedExpr.allUses es, w.registry.Resolves u
  | [], _ => fun _ hu => nomatch hu
  | e :: rest, ⟨he, hrest⟩ =>
    List.forall_mem_append.2 ⟨e.resolves_uses he, TypedExpr.resolves_allUses rest hrest⟩

/-- Every number in a well-typed tree is that of a committed declaration, which has the name that the
node has for it. -/
theorem TypedStmt.resolves_uses : ∀ (s : TypedStmt) (function? : Option FnType),
    s.WellTyped w function? → ∀ u ∈ s.uses, w.registry.Resolves u
  | ⟨form, _⟩, function?, h => form.resolves_uses function? h

theorem TypedStmtForm.resolves_uses : ∀ (form : TypedStmtForm) (function? : Option FnType),
    form.WellTyped w function? → ∀ u ∈ form.uses, w.registry.Resolves u
  | .expression e, _, h => e.resolves_uses h
  | .varDecl _ (some initializer), _, ⟨hinitializer, _, _, hdecl, _⟩ =>
    List.forall_mem_append.2 ⟨hdecl.resolves, initializer.resolves_uses hinitializer⟩
  | .varDecl _ none, _, ⟨_, _, hdecl⟩ => hdecl.resolves
  | .classDecl _ _ members, _, ⟨hparameters, hmembers⟩ =>
    List.forall_mem_append.2 ⟨hparameters.resolves,
      TypedStmt.resolves_allUses members none hmembers⟩
  | .fnDecl _ function _ body, _, ⟨⟨_, hdecl⟩, hparameters, hbody⟩ =>
    List.forall_mem_append.2 ⟨List.forall_mem_cons.2
        ⟨hdecl.resolves _ List.mem_cons_self, hparameters.resolves⟩,
      TypedStmt.resolves_allUses body (some function) hbody⟩
  | .ret (some value), some _, ⟨hvalue, _⟩ => value.resolves_uses hvalue
  | .ret none, _, _ => fun _ hu => nomatch hu
  | .block body, function?, h => TypedStmt.resolves_allUses body function? h
  | .branch condition thenBody (some elseBody), function?, ⟨hcondition, hthen, helse⟩ =>
    List.forall_mem_append.2 ⟨condition.resolves_uses hcondition, List.forall_mem_append.2
      ⟨thenBody.resolves_uses function? hthen, elseBody.resolves_uses function? helse⟩⟩
  | .branch condition thenBody none, function?, ⟨hcondition, hthen⟩ =>
    List.forall_mem_append.2 ⟨condition.resolves_uses hcondition,
      thenBody.resolves_uses function? hthen⟩
  | .loop condition body, function?, ⟨hcondition, hbody⟩ =>
    List.forall_mem_append.2 ⟨condition.resolves_uses hcondition,
      body.resolves_uses function? hbody⟩
  | .print value, _, h => value.resolves_uses h

theorem TypedStmt.resolves_allUses : ∀ (stmts : List TypedStmt) (function? : Option FnType),
    TypedStmt.AllWellTyped w stmts function? → ∀ u ∈ TypedStmt.allUses stmts, w.registry.Resolves u
  | [], _, _ => fun _ hu => nomatch hu
  | s :: rest, function?, ⟨hs, hrest⟩ =>
    List.forall_mem_append.2 ⟨s.resolves_uses function? hs,
      TypedStmt.resolves_allUses rest function? hrest⟩

end

end Nominal
