import Nominal.Proofs.Typing.Ends
import Nominal.Typing.Check

/-!
# What expressions are put together from

An expression other than a lambda reads the state, fails, or goes on from one part to the next; only
what stands in the body of a lambda declares anything. So a property of checks that these steps
respect (`Check.Closed`) and that lambdas have is a property of every check of an expression
(`Expr.check_closed`).
-/

namespace Nominal

/-- The property `P` of checks is respected by reading, by failing and by going on. Of the state, only
the frame and the classes are read. -/
structure Check.Closed (P : (α : Type) → Check α → Prop) : Prop where
  pure : ∀ {α : Type} (a : α), P α (pure a)
  throw : ∀ {α : Type} (d : Diagnostic), P α (throw d)
  get_bind : ∀ {β : Type} {f : CheckState → Check β},
    (∀ s t : CheckState, s.frame = t.frame → s.classes = t.classes → f s = f t) →
      (∀ s, P β (f s)) → P β (get >>= f)
  bind : ∀ {α β : Type} {c : Check α} {f : α → Check β}, P α c → (∀ a, P β (f a)) → P β (c >>= f)

variable {P : (α : Type) → Check α → Prop}

namespace Check.Closed

variable (hP : Closed P) {α β : Type}
include hP

theorem fail (cause : Cause) (span : Span) : P α (Check.fail cause span) :=
  hP.throw _

theorem scope_bind {ctx : Context} {f : Scope → Check β} (hf : ∀ s, P β (f s)) :
    P β (ctx.scope >>= f) :=
  hP.get_bind (f := fun s => f (s.frame :: ctx.outer)) (fun _ _ hframe _ => by rw [hframe])
    fun _ => hf _

theorem nested {ctx : Context} {span : Span} {body : Context → Check α}
    (h : ∀ ctx, P α (body ctx)) :
    P α (ctx.nested span body) := by
  unfold Context.nested
  split
  · exact h _
  · exact hP.fail _ _

end Check.Closed

/-- When the expression is a member of an owner, `Q` holds of the owner. Targets and callees that
are members are checked by their owner. -/
def ExprForm.OwnerHas (Q : Expr → Prop) : ExprForm → Prop
  | .member owner _ _ => Q owner
  | _ => True

/-- Arguments with a property in both ways of checking them. -/
structure Arguments.Have (P : (α : Type) → Check α → Prop) (arguments : Arguments) : Prop where
  each : P _ arguments.each
  into : ∀ slots, P _ (arguments.into slots)

section

variable (hP : Check.Closed P)
include hP

theorem expectAssignable_closed (value : TypedExpr) (target : Slot Ty) (span : Span) :
    P _ (expectAssignable value target span) := by
  unfold expectAssignable
  split
  · exact hP.pure ()
  · exact hP.fail _ _

namespace Context

variable {ctx : Context} {span : Span} {owner left right : Check TypedExpr} {arguments : Arguments}

theorem symbol_closed (name : String) : P _ (ctx.symbol name span) := by
  unfold symbol
  refine hP.scope_bind fun scope => ?_
  split
  · exact hP.pure _
  · split
    · exact hP.pure _
    · exact hP.fail _ _

theorem member_closed (name : String) (nameSpan : Span) (howner : P _ owner) :
    P _ (member owner name nameSpan span) := by
  unfold member
  refine hP.bind howner fun o => ?_
  refine hP.get_bind (fun s t _ hclasses => by simp only [hclasses]) fun s => ?_
  dsimp only
  split
  · exact hP.pure _
  · split
    · exact hP.pure _
    · exact hP.fail _ _

theorem variableTarget_closed (name : String) : P _ (ctx.variableTarget name span) := by
  unfold variableTarget
  refine hP.scope_bind fun scope => ?_
  split
  · split
    · exact hP.pure _
    · exact hP.fail _ _
  · split
    · exact hP.fail _ _
    · exact hP.fail _ _

theorem memberTarget_closed (name : String) (nameSpan : Span) (howner : P _ owner) :
    P _ (memberTarget owner name nameSpan) := by
  unfold memberTarget
  refine hP.bind howner fun o => ?_
  refine hP.get_bind (fun s t _ hclasses => by simp only [hclasses]) fun s => ?_
  dsimp only
  split
  · split
    · exact hP.pure _
    · exact hP.fail _ _
  · split
    · exact hP.fail _ _
    · exact hP.fail _ _

theorem assign_closed {target : Check (Target × Slot Ty)} {value : Check TypedExpr}
    (valueSpan : Span) (htarget : P _ target) (hvalue : P _ value) :
    P _ (assign target value valueSpan span) := by
  unfold assign
  refine hP.bind htarget fun (target, slot) => hP.bind hvalue fun value => ?_
  exact hP.bind (expectAssignable_closed hP _ _ _) fun _ => hP.pure _

theorem operatorFunction_closed (operator : Token) (methods : List Overload)
    (operands : List TypedExpr) (owner : TypedExpr) :
    P _ (ctx.operatorFunction operator methods operands owner span) := by
  unfold operatorFunction
  refine hP.scope_bind fun scope => ?_
  dsimp only
  split
  · exact hP.pure _
  · split
    · exact hP.fail _ _
    · exact hP.fail _ _

theorem binary_closed (operator : Token) (hleft : P _ left) (hright : P _ right) :
    P _ (ctx.binary operator left right span) := by
  unfold binary
  refine hP.bind hleft fun left => hP.bind hright fun right => ?_
  refine hP.get_bind (fun s t _ hclasses => by simp only [hclasses]) fun s => ?_
  dsimp only
  split
  · exact hP.pure _
  · exact operatorFunction_closed hP _ _ _ _

theorem unary_closed (operator : Token) (hright : P _ right) :
    P _ (ctx.unary operator right span) := by
  unfold unary
  refine hP.bind hright fun operand => ?_
  refine hP.get_bind (fun s t _ hclasses => by simp only [hclasses]) fun s => ?_
  dsimp only
  split
  · exact hP.pure _
  · exact operatorFunction_closed hP _ _ _ _

theorem callValue_closed (callee : TypedExpr) (name : String) (harguments : arguments.Have P) :
    P _ (callValue callee name arguments span) := by
  unfold callValue
  split
  · exact hP.fail _ _
  · split
    · exact hP.bind (harguments.into _) fun typed => hP.pure _
    · exact hP.fail _ _

theorem callOverload_closed (overloads : List Overload) (name : String) (nameSpan : Span)
    (harguments : arguments.Have P) :
    P _ (ctx.callOverload overloads name nameSpan arguments span) := by
  unfold callOverload
  split
  · exact hP.fail _ _
  · refine hP.bind harguments.each fun typed => ?_
    split
    · exact hP.pure _
    · exact hP.throw _

theorem callSymbol_closed (name : String) (nameSpan : Span) (harguments : arguments.Have P) :
    P _ (ctx.callSymbol name nameSpan arguments span) := by
  unfold callSymbol
  refine hP.scope_bind fun scope => ?_
  split
  · exact callValue_closed hP _ name harguments
  · exact callOverload_closed hP _ name nameSpan harguments

theorem callMember_closed (name : String) (nameSpan calleeSpan : Span) (howner : P _ owner)
    (harguments : arguments.Have P) :
    P _ (callMember owner name nameSpan calleeSpan arguments span) := by
  unfold callMember
  refine hP.bind howner fun receiver => ?_
  refine hP.get_bind (fun s t _ hclasses => by simp only [hclasses]) fun s => ?_
  dsimp only
  split
  · exact callValue_closed hP _ name harguments
  · split
    · exact hP.fail _ _
    · refine hP.bind harguments.each fun typed => ?_
      split
      · exact hP.pure _
      · exact hP.throw _

theorem instantiate_closed (name : String) (harguments : arguments.Have P) :
    P _ (ctx.instantiate name arguments span) := by
  unfold instantiate
  refine hP.scope_bind fun scope => ?_
  split
  · exact hP.fail _ _
  · split
    · exact hP.fail _ _
    · refine hP.get_bind (fun s t _ hclasses => by simp only [hclasses]) fun s => ?_
      dsimp only
      split
      · exact hP.bind (harguments.into _) fun typed => hP.pure _
      · exact hP.fail _ _

end Context

/-! ## Along the tree -/

open Context

section

variable {e : Expr} (howner : e.form.OwnerHas fun owner => ∀ ctx, P _ (owner.check ctx))
include howner

theorem checkTarget_closed {ctx : Context} : P _ (e.checkTarget ctx) := by
  obtain ⟨form, span⟩ := e
  cases form with
  | symbol name => exact variableTarget_closed hP name
  | member owner name nameSpan => exact memberTarget_closed hP name nameSpan (howner ctx)
  | _ => exact hP.fail _ _

theorem checkCall_closed (he : ∀ ctx, P _ (e.check ctx)) {arguments : Arguments}
    (harguments : arguments.Have P) {span : Span} {ctx : Context} :
    P _ (e.checkCall arguments span ctx) := by
  obtain ⟨form, calleeSpan⟩ := e
  cases form with
  | symbol name => exact callSymbol_closed hP name calleeSpan harguments
  | member owner name nameSpan =>
    exact callMember_closed hP name nameSpan calleeSpan (howner ctx) harguments
  | _ => exact hP.bind (he ctx) fun callee => callValue_closed hP callee _ harguments

end

end

/-- The steps respect the property `P`, and lambdas have it. -/
structure Check.ClosedWithLambda (P : (α : Type) → Check α → Prop) : Prop extends Closed P where
  lambda : ∀ (signature : Signature) (span : Span) (ctx : Context),
    P _ ((ExprForm.lambda signature).check span ctx)

open Context

mutual

/-- What the steps respect and lambdas have, all checks of expressions have. -/
theorem Expr.check_closed (hP : Check.ClosedWithLambda P) : ∀ (e : Expr) (ctx : Context),
    P _ (e.check ctx)
  | ⟨form, span⟩, ctx => form.check_closed hP span ctx

theorem ExprForm.check_closed (hP : Check.ClosedWithLambda P) : ∀ (form : ExprForm) (span : Span)
    (ctx : Context), P _ (form.check span ctx)
  | .number _, _, _ => hP.pure _
  | .text _, _, _ => hP.pure _
  | .bool _, _, _ => hP.pure _
  | .symbol name, _, _ => symbol_closed hP.toClosed name
  | .member owner name nameSpan, _, ctx =>
    member_closed hP.toClosed name nameSpan (owner.check_closed hP ctx)
  | .assign target value, _, _ =>
    assign_closed hP.toClosed _ (checkTarget_closed hP.toClosed (target.owner_closed hP))
      (hP.nested (value.check_closed hP))
  | .binary left operator right, _, ctx =>
    binary_closed hP.toClosed operator (left.check_closed hP ctx)
      (hP.nested (right.check_closed hP))
  | .unary operator operand, _, _ =>
    unary_closed hP.toClosed operator (hP.nested (operand.check_closed hP))
  | .call callee arguments, _, ctx =>
    checkCall_closed hP.toClosed (callee.owner_closed hP) (callee.check_closed hP)
      ⟨Expr.checkEach_closed hP arguments ctx, Expr.checkInto_closed hP arguments ctx⟩
  | .new className arguments, _, ctx =>
    instantiate_closed hP.toClosed className
      ⟨Expr.checkEach_closed hP arguments ctx, Expr.checkInto_closed hP arguments ctx⟩
  | .lambda signature, span, ctx => hP.lambda signature span ctx
  | .group inner, _, _ => hP.nested (inner.check_closed hP)

theorem Expr.owner_closed (hP : Check.ClosedWithLambda P) : ∀ e : Expr,
    e.form.OwnerHas fun owner => ∀ ctx, P _ (owner.check ctx)
  | ⟨.member owner _ _, _⟩ => owner.check_closed hP
  | ⟨.number _, _⟩ | ⟨.text _, _⟩ | ⟨.bool _, _⟩ | ⟨.symbol _, _⟩ | ⟨.assign _ _, _⟩
  | ⟨.binary _ _ _, _⟩ | ⟨.unary _ _, _⟩ | ⟨.call _ _, _⟩ | ⟨.new _ _, _⟩ | ⟨.lambda _, _⟩
  | ⟨.group _, _⟩ => trivial

theorem Expr.checkEach_closed (hP : Check.ClosedWithLambda P) : ∀ (es : List Expr) (ctx : Context),
    P _ (Expr.checkEach es ctx)
  | [], _ => hP.pure _
  | e :: rest, ctx => hP.bind (hP.nested (e.check_closed hP)) fun _ =>
      hP.bind (Expr.checkEach_closed hP rest ctx) fun _ => hP.pure _

theorem Expr.checkInto_closed (hP : Check.ClosedWithLambda P) : ∀ (es : List Expr) (ctx : Context)
    (slots : List (Slot Ty)), P _ (Expr.checkInto es ctx slots)
  | [], _, _ => hP.pure _
  | _ :: _, _, [] => hP.pure _
  | e :: rest, ctx, _ :: slots => hP.bind (hP.nested (e.check_closed hP)) fun _ =>
      hP.bind (expectAssignable_closed hP.toClosed _ _ _) fun _ =>
        hP.bind (Expr.checkInto_closed hP rest ctx slots) fun _ => hP.pure _

end

end Nominal
