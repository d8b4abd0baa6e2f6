import Nominal.Proofs.Typing.Declared
import Nominal.Proofs.Typing.WellTyped

/-!
# Well-typed trees refer to declarations

Every number that a well-typed tree refers to is that of a registered declaration.
-/

namespace Nominal

/-- The number `id` is that of some declaration. -/
def Setting.Knows (w : Setting) (id : DeclId) : Prop :=
  ∃ d, w.registry.resolve id = .ok (some d)

variable {w : Setting} {id : DeclId}

theorem Setting.Registers.knows {name : String} {type : Slot Ty} (h : w.Registers id name type) :
    w.Knows id :=
  ⟨_, h⟩

theorem Setting.Method.knows {type : Ty} {name : String} {o : Overload} (h : w.Method type name o)
    (hid : id ∈ o.id?.toList) : w.Knows id :=
  (h.2 id (Option.mem_toList.1 hid)).knows

mutual

theorem TypedExpr.knows_mentioned : ∀ e : TypedExpr, e.WellTyped w → ∀ id ∈ e.mentioned, w.Knows id
  | ⟨form, type, _⟩, h => form.knows_mentioned type h

theorem TypedExprForm.knows_mentioned : ∀ (form : TypedExprForm) (type : Slot Ty),
    form.WellTyped w type → ∀ id ∈ form.mentioned, w.Knows id
  | .int _, _, _, _, hid => nomatch hid
  | .bool _, _, _, _, hid => nomatch hid
  | .text _, _, _, _, hid => nomatch hid
  | .reference _ _, _, h, id, hid => by
    rw [List.mem_singleton.1 hid]
    exact h.knows
  | .member owner name decl?, _, ⟨howner, hmember⟩, id, hid => by
    rcases List.mem_append.1 hid with hdecl | hid
    · obtain ⟨m, hm, rfl, -⟩ | ⟨o, ho, rfl, -⟩ := hmember
      · cases List.mem_singleton.1 hdecl
        exact hm.2.knows
      · exact ho.knows hdecl
    · exact owner.knows_mentioned howner id hid
  | .assign target value, type, ⟨htarget, hvalue, _⟩, id, hid => by
    rcases List.mem_append.1 hid with hid | hid
    · exact target.knows_mentioned type htarget id hid
    · exact value.knows_mentioned hvalue id hid
  | .binary left operator right method?, _, ⟨hleft, hright, o, ho, hmethod, _⟩, id, hid => by
    rcases List.mem_append.1 hid with hid | hid
    · exact ho.knows (hmethod ▸ hid)
    · rcases List.mem_append.1 hid with hid | hid
      · exact left.knows_mentioned hleft id hid
      · exact right.knows_mentioned hright id hid
  | .unary operator operand method?, _, ⟨hoperand, o, ho, hmethod, _⟩, id, hid => by
    rcases List.mem_append.1 hid with hid | hid
    · exact ho.knows (hmethod ▸ hid)
    · exact operand.knows_mentioned hoperand id hid
  | .call callee arguments, type, ⟨hcallee, harguments⟩, id, hid => by
    rcases List.mem_append.1 hid with hid | hid
    · exact callee.knows_mentioned _ type hcallee id hid
    · exact TypedExpr.knows_allMentioned arguments harguments id hid
  | .new _ arguments, _, ⟨_, _, harguments⟩, id, hid =>
    TypedExpr.knows_allMentioned arguments harguments id hid
  | .lambda function _ body, _, ⟨_, _, hbody⟩, id, hid =>
    TypedStmt.knows_allMentioned body (some function) hbody id hid

theorem Callee.knows_mentioned : ∀ (callee : Callee) (arguments : List (Slot Ty)) (type : Slot Ty),
    callee.WellTyped w arguments type → ∀ id ∈ callee.mentioned, w.Knows id
  | .function _, _, _, ⟨_, _, hdecl, _⟩, id, hid => by
    rw [List.mem_singleton.1 hid]
    exact hdecl.knows
  | .method receiver _ _, _, _, ⟨hreceiver, o, ho, hdecl, _⟩, id, hid => by
    rcases List.mem_append.1 hid with hid | hid
    · exact ho.knows (hdecl ▸ hid)
    · exact receiver.knows_mentioned hreceiver id hid
  | .value value, _, _, ⟨hvalue, _⟩, id, hid => value.knows_mentioned hvalue id hid

theorem Target.knows_mentioned : ∀ (target : Target) (type : Slot Ty), target.WellTyped w type →
    ∀ id ∈ target.mentioned, w.Knows id
  | .binding _, _, ⟨_, _, hdecl⟩, id, hid => by
    rw [List.mem_singleton.1 hid]
    exact hdecl.knows
  | .member owner _ _, _, ⟨_, howner, hfield⟩, id, hid => by
    rcases List.mem_cons.1 hid with rfl | hid
    · exact hfield.2.knows
    · exact owner.knows_mentioned howner id hid

theorem TypedExpr.knows_allMentioned : ∀ es : List TypedExpr, TypedExpr.AllWellTyped w es →
    ∀ id ∈ TypedExpr.allMentioned es, w.Knows id
  | [], _, _, hid => nomatch hid
  | e :: rest, ⟨he, hrest⟩, id, hid => by
    rcases List.mem_append.1 hid with hid | hid
    · exact e.knows_mentioned he id hid
    · exact TypedExpr.knows_allMentioned rest hrest id hid

theorem TypedStmt.knows_mentioned : ∀ (s : TypedStmt) (function? : Option FnType),
    s.WellTyped w function? → ∀ id ∈ s.mentioned, w.Knows id
  | ⟨form, _⟩, function?, h => form.knows_mentioned function? h

theorem TypedStmtForm.knows_mentioned : ∀ (form : TypedStmtForm) (function? : Option FnType),
    form.WellTyped w function? → ∀ id ∈ form.mentioned, w.Knows id
  | .expression e, _, h, id, hid => e.knows_mentioned h id hid
  | .varDecl _ (some initializer), _, ⟨hinitializer, _⟩, id, hid =>
    initializer.knows_mentioned hinitializer id hid
  | .varDecl _ none, _, _, _, hid => nomatch hid
  | .classDecl _ _ members, _, ⟨_, hmembers⟩, id, hid =>
    TypedStmt.knows_allMentioned members none hmembers id hid
  | .fnDecl _ function _ body, _, ⟨_, _, hbody⟩, id, hid =>
    TypedStmt.knows_allMentioned body (some function) hbody id hid
  | .ret (some value), some _, ⟨hvalue, _⟩, id, hid => value.knows_mentioned hvalue id hid
  | .ret none, _, _, _, hid => nomatch hid
  | .block body, function?, h, id, hid => TypedStmt.knows_allMentioned body function? h id hid
  | .branch condition thenBody (some elseBody), function?, ⟨hcondition, hthen, helse⟩, id, hid => by
    rcases List.mem_append.1 hid with hid | hid
    · exact condition.knows_mentioned hcondition id hid
    · rcases List.mem_append.1 hid with hid | hid
      · exact thenBody.knows_mentioned function? hthen id hid
      · exact elseBody.knows_mentioned function? helse id hid
  | .branch condition thenBody none, function?, ⟨hcondition, hthen⟩, id, hid => by
    rcases List.mem_append.1 hid with hid | hid
    · exact condition.knows_mentioned hcondition id hid
    · exact thenBody.knows_mentioned function? hthen id hid
  | .loop condition body, function?, ⟨hcondition, hbody⟩, id, hid => by
    rcases List.mem_append.1 hid with hid | hid
    · exact condition.knows_mentioned hcondition id hid
    · exact body.knows_mentioned function? hbody id hid
  | .print value, _, h, id, hid => value.knows_mentioned h id hid

theorem TypedStmt.knows_allMentioned : ∀ (stmts : List TypedStmt) (function? : Option FnType),
    TypedStmt.AllWellTyped w stmts function? → ∀ id ∈ TypedStmt.allMentioned stmts, w.Knows id
  | [], _, _, _, hid => nomatch hid
  | s :: rest, function?, ⟨hs, hrest⟩, id, hid => by
    rcases List.mem_append.1 hid with hid | hid
    · exact s.knows_mentioned function? hs id hid
    · exact TypedStmt.knows_allMentioned rest function? hrest id hid

end

end Nominal
