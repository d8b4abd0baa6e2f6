import Nominal.Proofs.Scope.Contained
import Nominal.Proofs.Typing.Ends
import Nominal.Typing.Types

/-!
# Returns and the bodies they stand in

A typed tree has bodies inside of it: those of functions and lambdas, and those of classes
(`TypedStmt.bodies`). A return belongs to the innermost body around it, so the returns of some
statements are those that stand in none of the bodies inside of them (`TypedStmt.returns`).
`Body.Proper` says what a body owes to its function.

That a function without a value returns the type `Nothing`, and not just some type of that name,
rests on scopes where only this type has the name (`Scope.Honest`). `Check.Honestly` says of a check
that it keeps such a scope, together with what holds of its value.
-/

namespace Nominal

/-! ## Bodies -/

/-- The statements of a function or a lambda, or the members of a class, which are those of no
function. -/
structure Body where
  function? : Option FnType
  stmts : List TypedStmt

mutual

/-- What the statement returns: the values of the returns in it that stand in no body inside of it. -/
def TypedStmt.returns : TypedStmt → List (Option TypedExpr)
  | ⟨form, _⟩ => form.returns

def TypedStmtForm.returns : TypedStmtForm → List (Option TypedExpr)
  | .expression _ => []
  | .varDecl _ _ => []
  | .classDecl _ _ _ => []
  | .fnDecl _ _ _ _ => []
  | .ret value? => [value?]
  | .block body => TypedStmt.allReturns body
  | .branch _ thenBody (some elseBody) => thenBody.returns ++ elseBody.returns
  | .branch _ thenBody none => thenBody.returns
  | .loop _ body => body.returns
  | .print _ => []

def TypedStmt.allReturns : List TypedStmt → List (Option TypedExpr)
  | [] => []
  | s :: rest => s.returns ++ TypedStmt.allReturns rest

end

mutual

/-- The bodies that stand in an expression, at any depth. -/
def TypedExpr.bodies : TypedExpr → List Body
  | ⟨form, _, _⟩ => form.bodies

def TypedExprForm.bodies : TypedExprForm → List Body
  | .int _ => []
  | .bool _ => []
  | .text _ => []
  | .reference _ _ => []
  | .member owner _ _ => owner.bodies
  | .assign target value => target.bodies ++ value.bodies
  | .binary left _ right _ => left.bodies ++ right.bodies
  | .unary _ operand _ => operand.bodies
  | .call callee arguments => callee.bodies ++ TypedExpr.allBodies arguments
  | .new _ arguments => TypedExpr.allBodies arguments
  | .lambda function _ body => ⟨some function, body⟩ :: TypedStmt.allBodies body

def Callee.bodies : Callee → List Body
  | .function _ => []
  | .method receiver _ _ => receiver.bodies
  | .value value => value.bodies

def Target.bodies : Target → List Body
  | .binding _ => []
  | .member owner _ _ => owner.bodies

def TypedExpr.allBodies : List TypedExpr → List Body
  | [] => []
  | e :: rest => e.bodies ++ TypedExpr.allBodies rest

/-- The bodies that stand in a statement, at any depth. -/
def TypedStmt.bodies : TypedStmt → List Body
  | ⟨form, _⟩ => form.bodies

def TypedStmtForm.bodies : TypedStmtForm → List Body
  | .expression e => e.bodies
  | .varDecl _ (some initializer) => initializer.bodies
  | .varDecl _ none => []
  | .classDecl _ _ members => ⟨none, members⟩ :: TypedStmt.allBodies members
  | .fnDecl _ function _ body => ⟨some function, body⟩ :: TypedStmt.allBodies body
  | .ret (some value) => value.bodies
  | .ret none => []
  | .block body => TypedStmt.allBodies body
  | .branch condition thenBody (some elseBody) =>
    condition.bodies ++ (thenBody.bodies ++ elseBody.bodies)
  | .branch condition thenBody none => condition.bodies ++ thenBody.bodies
  | .loop condition body => condition.bodies ++ body.bodies
  | .print value => value.bodies

def TypedStmt.allBodies : List TypedStmt → List Body
  | [] => []
  | s :: rest => s.bodies ++ TypedStmt.allBodies rest

end

/-- What may be returned from a function: a value of the type of its result, or no value when the
result is nothing. Outside of functions nothing may be returned. -/
def Returnable : Option FnType → Option TypedExpr → Prop
  | some f, some value => value.type.type.name = f.result.name
  | some f, none => f.result = .nothing
  | none, _ => False

/-- What is returned may be returned, and a function that has to return a value returns
somewhere. -/
structure Body.Proper (b : Body) : Prop where
  returnable : ∀ value? ∈ TypedStmt.allReturns b.stmts, Returnable b.function? value?
  returns : ∀ f, b.function? = some f → f.result ≠ .nothing →
    TypedStmt.allReturns b.stmts ≠ []

/-- All bodies in the expression are proper. -/
def TypedExpr.Proper (e : TypedExpr) : Prop :=
  ∀ b ∈ e.bodies, b.Proper

/-- All bodies in the statement are proper, and what it returns may be returned from the function
around, if there is one. -/
def TypedStmt.Proper (function? : Option FnType) (s : TypedStmt) : Prop :=
  (∀ b ∈ s.bodies, b.Proper) ∧ ∀ value? ∈ s.returns, Returnable function? value?

/-- The same for statements one after the other. -/
def TypedStmt.AllProper (function? : Option FnType) (stmts : List TypedStmt) : Prop :=
  (∀ b ∈ allBodies stmts, b.Proper) ∧ ∀ value? ∈ allReturns stmts, Returnable function? value?

theorem TypedStmt.AllProper.cons {function? : Option FnType} {s : TypedStmt}
    {rest : List TypedStmt} (hs : s.Proper function?) (hrest : AllProper function? rest) :
    AllProper function? (s :: rest) :=
  ⟨List.forall_mem_append.2 ⟨hs.1, hrest.1⟩, List.forall_mem_append.2 ⟨hs.2, hrest.2⟩⟩

/-! ## Scopes where a name is not borrowed -/

/-- The type is called `Nothing` only if it is that type. -/
def Ty.Honest (type : Ty) : Prop :=
  type.name = Ty.nothing.name → type = .nothing

/-- A function type has a longer name. -/
theorem Ty.honest_function (parameters : List (Slot Ty)) (result : Ty) :
    (Ty.function parameters result).Honest := by
  intro h
  have hname := congrArg String.toList h
  rw [Ty.toList_name_function] at hname
  cases hname

/-- `Nothing` is known, and every type that is found is honest. -/
structure Scope.Honest (scope : Scope) : Prop where
  nothing : scope.findType? Ty.nothing.name = some .nothing
  types : ∀ name type, scope.findType? name = some type → type.Honest

namespace Scope.Honest

variable {f g : Frame} {outer scope : Scope} {name : String}

/-- Only the types of a frame count. -/
theorem of_types_eq (h : Scope.Honest (f :: outer)) (htypes : g.types = f.types) :
    Scope.Honest (g :: outer) := by
  have hfind := Scope.findType?_of_types_eq htypes outer
  exact ⟨by rw [hfind, h.nothing], fun name type htype => h.types name type (hfind name ▸ htype)⟩

/-- Inside of a frame that declares no types. -/
theorem untyped (h : scope.Honest) (htypes : f.types = ∅) : Scope.Honest (f :: scope) := by
  have hfind := Scope.findType?_of_untyped htypes scope
  exact ⟨by rw [hfind, h.nothing], fun name type htype => h.types name type (hfind name ▸ htype)⟩

/-- With a class whose name is not known yet. So it is not `Nothing`. -/
theorem declareType (h : Scope.Honest (f :: outer)) {c : ClassRef} (hc : c.name = name)
    (hunknown : Scope.findType? (f :: outer) name = none)
    (hdeclare : f.declareType name (.cls c) = some g) : Scope.Honest (g :: outer) := by
  obtain ⟨-, rfl⟩ := Frame.declareType_eq_some hdeclare
  have hne : name ≠ Ty.nothing.name := by
    rintro rfl
    rw [h.nothing] at hunknown
    cases hunknown
  have hfind (other : String) : Scope.findType?
      ({ f with types := f.types.insert name (.cls c) } :: outer) other =
        if other = name then some (.cls c) else Scope.findType? (f :: outer) other := by
    rw [Scope.findType?_cons, Scope.findType?_cons, Table.find?_insert]
    by_cases hother : other = name
    · rw [if_pos hother, if_pos hother]
    · rw [if_neg hother, if_neg hother]
  constructor
  · rw [hfind, if_neg hne.symm, h.nothing]
  · intro other type htype
    rw [hfind] at htype
    split at htype
    · cases htype
      intro hname
      exact absurd (hc.symm.trans hname) hne
    · exact h.types other type htype

/-- A written type denotes an honest type. -/
theorem resolve (h : scope.Honest) {t : TypeExpr} {type : Ty} (ht : scope.resolve t = .ok type) :
    type.Honest := by
  cases t with
  | named name span =>
    rw [Scope.resolve] at ht
    split at ht
    · next found hfound =>
      cases ht
      exact h.types name type hfound
    · cases ht
  | function parameters result span =>
    rw [Scope.resolve] at ht
    cases hparameters : scope.resolveParameters parameters with
    | error d =>
      rw [hparameters] at ht
      cases ht
    | ok slots =>
      rw [hparameters] at ht
      cases hresult : scope.resolve result with
      | error d =>
        simp only [hresult, bind, Except.bind] at ht
        cases ht
      | ok r =>
        simp only [hresult, bind, Except.bind, pure, Except.pure] at ht
        cases ht
        exact Ty.honest_function slots r

end Scope.Honest

/-! ## Checks that keep the scope honest -/

namespace Check

variable {α β : Type} {c : Check α} {s : CheckState} {outer : Scope} {ok : α → Prop}

/-- Where the scope is honest, it is so after the check, whether that succeeds or fails, and the
value has the property `ok`. -/
def Honestly (c : Check α) (outer : Scope) (ok : α → Prop) : Prop :=
  ∀ s, Scope.Honest (s.frame :: outer) →
    c.Ends s (fun a t => Scope.Honest (t.frame :: outer) ∧ ok a)
      (fun _ t => Scope.Honest (t.frame :: outer))

namespace Honestly

theorem mono {ok' : α → Prop} (h : c.Honestly outer ok) (hok : ∀ a, ok a → ok' a) :
    c.Honestly outer ok' :=
  fun s hs => (h s hs).mono (fun a _ ht => ⟨ht.1, hok a ht.2⟩) fun _ _ ht => ht

theorem pure {a : α} (h : ok a) : (Pure.pure a : Check α).Honestly outer ok :=
  fun _ hs => ⟨hs, h⟩

theorem throw (d : Diagnostic) : (MonadExcept.throw d : Check α).Honestly outer ok :=
  fun _ hs => hs

theorem fail (cause : Cause) (span : Span) : (Check.fail cause span : Check α).Honestly outer ok :=
  throw _

theorem bind {f : α → Check β} {ok' : β → Prop} (hc : c.Honestly outer ok)
    (hf : ∀ a, ok a → (f a).Honestly outer ok') : (c >>= f).Honestly outer ok' := by
  intro s hs
  rw [ends_bind]
  exact (hc s hs).mono (fun a t ht => hf a ht.2 t ht.1) fun _ _ ht => ht

theorem map {g : α → β} {ok' : β → Prop} (hc : c.Honestly outer ok) (hg : ∀ a, ok a → ok' (g a)) :
    (g <$> c).Honestly outer ok' := by
  intro s hs
  rw [ends_map]
  exact (hc s hs).mono (fun a t ht => ⟨ht.1, hg a ht.2⟩) fun _ _ ht => ht

theorem get_bind {f : CheckState → Check β} {ok' : β → Prop}
    (hf : ∀ s, Scope.Honest (s.frame :: outer) → (f s).Honestly outer ok') :
    (get >>= f).Honestly outer ok' :=
  fun s hs => hf s hs s hs

theorem scope_bind {ctx : Context} {f : Scope → Check β} {ok' : β → Prop}
    (hf : ∀ scope : Scope, scope.Honest → (f scope).Honestly ctx.outer ok') :
    (ctx.scope >>= f).Honestly ctx.outer ok' :=
  fun s hs => hf (s.frame :: ctx.outer) hs s hs

theorem ofExcept_bind {e : Except Diagnostic α} {f : α → Check β} {ok' : β → Prop}
    (hf : ∀ a, e = .ok a → (f a).Honestly outer ok') :
    (Check.ofExcept e >>= f).Honestly outer ok' := by
  cases e with
  | ok a => exact hf a rfl
  | error d => exact throw d

theorem expect_bind {value : TypedExpr} {slot : Slot Ty} {span : Span} {f : Unit → Check β}
    {ok' : β → Prop} (hf : (f ()).Honestly outer ok') :
    (expectAssignable value slot span >>= f).Honestly outer ok' := by
  unfold expectAssignable
  split
  · exact hf
  · exact throw _

theorem insert_bind {name : String} {type : Slot Ty} {f : DeclId → Check β} {ok' : β → Prop}
    (hf : ∀ id, (f id).Honestly outer ok') :
    (insertDeclaration name type >>= f).Honestly outer ok' := by
  intro s hs
  rw [ends_bind, ends_insertDeclaration]
  exact hf _ _ hs

theorem updateClass (c : ClassRef) (change : ClassInfo → ClassInfo) :
    (Check.updateClass c change).Honestly outer fun _ => True :=
  fun _ hs => ⟨hs, trivial⟩

theorem mapM {f : α → Check β} {ok' : β → Prop} (hf : ∀ a, (f a).Honestly outer ok')
    (as : List α) : (as.mapM f).Honestly outer fun bs => ∀ b ∈ bs, ok' b := by
  induction as with
  | nil => exact pure fun b hb => nomatch hb
  | cons a rest ih =>
    rw [List.mapM_cons]
    exact (hf a).bind fun b hb => ih.bind fun bs hbs => pure (List.forall_mem_cons.2 ⟨hb, hbs⟩)

theorem transaction (h : c.Honestly outer ok) : c.transaction.Honestly outer ok := by
  intro s hs
  rw [ends_transaction]
  exact h _ hs

/-- What is undone are no types. -/
theorem undoing {undo : Frame → Frame} (h : c.Honestly outer ok)
    (hundo : ∀ f, (undo f).types = f.types) : (c.undoing undo).Honestly outer ok := by
  intro s hs
  rw [ends_undoing]
  exact (h s hs).mono (fun _ _ ht => ht) fun _ _ ht => ht.of_types_eq (hundo _)

theorem apart (h : c.Honestly outer ok) : c.apart.Honestly outer fun a => ok a.1 := by
  intro s hs
  rw [ends_apart]
  exact h _ hs

/-- Inside of a new frame, which has no types yet. -/
theorem inNewFrame {ctx : Context} {body : Context → Check α}
    (h : ∀ ctx', ctx'.function? = ctx.function? → (body ctx').Honestly ctx'.outer ok) :
    (ctx.inNewFrame body).Honestly ctx.outer ok := by
  intro s hs
  unfold Context.inNewFrame
  rw [Context.ends_inFrame]
  refine (h { ctx with outer := s.frame :: ctx.outer } rfl _ (hs.untyped rfl)).mono ?_ ?_
  · exact fun a t ht => ⟨hs, ht.2⟩
  · exact fun d t ht => hs

theorem nested {ctx : Context} {span : Span} {body : Context → Check α}
    (h : ∀ ctx', ctx'.function? = ctx.function? → (body ctx').Honestly ctx'.outer ok) :
    (ctx.nested span body).Honestly ctx.outer ok := by
  unfold Context.nested
  split
  · exact h { ctx with depth := ctx.depth + 1 } rfl
  · exact fail _ _

/-- One level further in, in a new frame. -/
theorem inNewFrame_nested {ctx : Context} {span : Span} {body : Context → Check α}
    (h : ∀ ctx', ctx'.function? = ctx.function? → (body ctx').Honestly ctx'.outer ok) :
    (ctx.inNewFrame fun ctx => ctx.nested span body).Honestly ctx.outer ok :=
  inNewFrame fun _ hin => nested fun _ hnested => h _ (hnested.trans hin)

end Honestly

end Check

end Nominal
