import Nominal.Proofs.Typing.Closed
import Nominal.Proofs.Typing.Values.Expressions
import Nominal.Proofs.Typing.Values.Statements

/-!
# Checking trees keeps states valued

The rules put together along the tree: an expression has a type that the checker may come by
(`Expr.check_values`), and a statement leaves a valued state, whether it succeeds or fails
(`Stmt.check_values`).
-/

namespace Nominal

open Check Context

variable {outer : Scope}

theorem literal_values {e : TypedExpr} {p : Primitive} (htype : e.type.type = .primitive p)
    (hp : p ∈ Primitive.builtins) : (pure e : Check TypedExpr).ProperExpr outer := by
  refine .pure fun known => ?_
  rw [htype]
  exact .primitive hp

section

variable {e : Expr}
  (howner : e.form.OwnerHas fun owner => ∀ ctx, (owner.check ctx).ProperExpr ctx.outer)
include howner

theorem checkTarget_values {ctx : Context} : (e.checkTarget ctx).ProperTarget ctx.outer := by
  obtain ⟨form, span⟩ := e
  cases form with
  | symbol name => exact variableTarget_values name
  | member owner name nameSpan => exact memberTarget_values name nameSpan (howner ctx).forget
  | _ => exact .fail rfl

theorem checkCall_values (he : ∀ ctx, (e.check ctx).ProperExpr ctx.outer) {ctx : Context}
    {arguments : Arguments} (harguments : arguments.KeepValues ctx.outer) {span : Span} :
    (e.checkCall arguments span ctx).ProperExpr ctx.outer := by
  obtain ⟨form, calleeSpan⟩ := e
  cases form with
  | symbol name => exact callSymbol_values name calleeSpan harguments
  | member owner name nameSpan =>
    exact callMember_values name nameSpan calleeSpan (howner ctx).forget harguments
  | _ => exact fun s hs => (he ctx s hs).bind fun callee t _ ht hcallee =>
      callValue_values _ ht hcallee harguments

end

mutual

/-- The type of an expression that is checked is one that the checker may come by. -/
theorem Expr.check_values : ∀ (e : Expr) (ctx : Context), (e.check ctx).ProperExpr ctx.outer
  | ⟨form, span⟩, ctx => form.check_values span ctx

theorem ExprForm.check_values : ∀ (form : ExprForm) (span : Span) (ctx : Context),
    (form.check span ctx).ProperExpr ctx.outer
  | .number _, _, _ => literal_values rfl (by decide)
  | .text _, _, _ => literal_values rfl (by decide)
  | .bool _, _, _ => literal_values rfl (by decide)
  | .symbol name, _, _ => symbol_values name
  | .member owner name nameSpan, _, ctx => member_values name nameSpan (owner.check_values ctx).forget
  | .assign target value, _, _ =>
    assign_values _ (checkTarget_values target.owner_values) (.nested (value.check_values _).forget)
  | .binary left operator right, _, ctx =>
    binary_values operator (left.check_values ctx).forget (.nested (right.check_values _).forget)
  | .unary operator operand, _, _ =>
    unary_values operator (.nested (operand.check_values _).forget)
  | .call callee arguments, _, ctx =>
    checkCall_values callee.owner_values callee.check_values
      ⟨Expr.checkEach_values arguments ctx, Expr.checkInto_values arguments ctx⟩
  | .new className arguments, _, ctx =>
    instantiate_values className
      ⟨Expr.checkEach_values arguments ctx, Expr.checkInto_values arguments ctx⟩
  | .lambda ⟨parameters, result?, ⟨body, _⟩⟩, _, _ =>
    lambda_values parameters result? (Stmt.checkAll_values body)
  | .group inner, _, _ => .nested (inner.check_values _)

theorem Expr.owner_values : ∀ e : Expr,
    e.form.OwnerHas fun owner => ∀ ctx, (owner.check ctx).ProperExpr ctx.outer
  | ⟨.member owner _ _, _⟩ => owner.check_values
  | ⟨.number _, _⟩ | ⟨.text _, _⟩ | ⟨.bool _, _⟩ | ⟨.symbol _, _⟩ | ⟨.assign _ _, _⟩
  | ⟨.binary _ _ _, _⟩ | ⟨.unary _ _, _⟩ | ⟨.call _ _, _⟩ | ⟨.new _ _, _⟩ | ⟨.lambda _, _⟩
  | ⟨.group _, _⟩ => trivial

theorem Expr.checkEach_values : ∀ (es : List Expr) (ctx : Context),
    (Expr.checkEach es ctx).KeepsValues ctx.outer
  | [], _ => .pure fun _ => trivial
  | e :: rest, ctx => (Values.nested (e.check_values _)).bind fun _ =>
      (Expr.checkEach_values rest ctx).bind fun _ => .pure fun _ => trivial

theorem Expr.checkInto_values : ∀ (es : List Expr) (ctx : Context) (slots : List (Slot Ty)),
    (Expr.checkInto es ctx slots).KeepsValues ctx.outer
  | [], _, _ => .pure fun _ => trivial
  | _ :: _, _, [] => .pure fun _ => trivial
  | e :: rest, ctx, _ :: slots => (Values.nested (e.check_values _)).bind fun _ =>
      .expect_bind <| (Expr.checkInto_values rest ctx slots).bind fun _ => .pure fun _ => trivial

/-- A statement leaves a valued state, whether it succeeds or fails. -/
theorem Stmt.check_values : ∀ (s : Stmt) (ctx : Context), (s.check ctx).KeepsValues ctx.outer
  | ⟨form, span⟩, ctx => form.check_values span ctx

theorem StmtForm.check_values : ∀ (form : StmtForm) (span : Span) (ctx : Context),
    (form.check span ctx).KeepsValues ctx.outer
  | .expression e, _, ctx => (e.nested_values ctx).bind fun _ => .pure fun _ => trivial
  | .varDecl _ _ _ type? (some value), _, ctx =>
    varDecl_values type? fun _ hvalue => Option.mem_some.1 hvalue ▸ value.nested_values ctx
  | .varDecl _ _ _ type? none, _, _ => varDecl_values type? fun _ hvalue => nomatch hvalue
  | .classDecl _ _ parameters members, _, _ =>
    classDecl_values parameters (Stmt.check_values_of_mem members)
  | .fnDecl _ _ ⟨parameters, result?, ⟨body, _⟩⟩, _, _ =>
    fnDecl_values parameters result? (Stmt.checkAll_values body)
  | .ret (some value), _, ctx =>
    ret_values ctx (some _) fun _ hvalue => Option.mem_some.1 hvalue ▸ (value.nested_values ctx).forget
  | .ret none, _, ctx => ret_values ctx none fun _ hvalue => nomatch hvalue
  | .block ⟨body, _⟩, _, _ =>
    (Values.inNewFrame (Stmt.checkAll_values body)).bind fun _ => .pure fun _ => trivial
  | .branch condition thenBody (some elseBody), _, ctx =>
    (condition.nested_values ctx).bind fun _ =>
      (Values.inNewFrame fun _ => .nested (thenBody.check_values _)).bind fun _ =>
        (Values.inNewFrame fun _ => .nested (elseBody.check_values _)).bind fun _ =>
          .pure fun _ => trivial
  | .branch condition thenBody none, _, ctx =>
    (condition.nested_values ctx).bind fun _ =>
      (Values.inNewFrame fun _ => .nested (thenBody.check_values _)).bind fun _ =>
        .pure fun _ => trivial
  | .loop condition body, _, ctx =>
    (condition.nested_values ctx).bind fun _ =>
      (Values.inNewFrame fun _ => .nested (body.check_values _)).bind fun _ =>
        .pure fun _ => trivial
  | .print value, _, ctx => (value.nested_values ctx).bind fun _ => .pure fun _ => trivial

theorem Expr.nested_values : ∀ (e : Expr) (ctx : Context),
    (ctx.nested e.span e.check).ProperExpr ctx.outer
  | ⟨form, span⟩, _ => .nested (form.check_values span _)

theorem Stmt.checkAll_values : ∀ (stmts : List Stmt) (ctx : Context),
    (Stmt.checkAll stmts ctx).KeepsValues ctx.outer
  | [], _ => .pure fun _ => trivial
  | s :: rest, ctx => (Values.nested (s.check_values _)).bind fun _ =>
      (Stmt.checkAll_values rest ctx).bind fun _ => .pure fun _ => trivial

theorem Stmt.check_values_of_mem : ∀ stmts : List Stmt, ∀ s ∈ stmts, ∀ ctx : Context,
    (s.check ctx).KeepsValues ctx.outer
  | [] => fun _ hs => nomatch hs
  | s :: rest => List.forall_mem_cons.2 ⟨s.check_values, Stmt.check_values_of_mem rest⟩

end

theorem Stmt.nested_values (stmt : Stmt) (ctx : Context) :
    (ctx.nested stmt.span stmt.check).KeepsValues ctx.outer :=
  .nested (stmt.check_values _)

end Nominal
