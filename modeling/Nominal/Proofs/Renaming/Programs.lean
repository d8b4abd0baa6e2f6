import Nominal.Proofs.Renaming.Expressions
import Nominal.Proofs.Renaming.Statements
import Nominal.Proofs.Typing.Closed

/-!
# Trees in two runs

The check of a tree follows itself: from states in step it ends alike, with the same typed tree up
to the renaming or with the same diagnostic, and in states in step again (`Stmt.check_follows`).
-/

namespace Nominal

open Check Context

variable {ρ : Renaming} {z : CheckState}

section

variable {e : Expr}
  (howner : e.form.OwnerHas fun owner => ∀ ctx : Context,
    Follows ρ z (TypedExpr.rename ρ) (owner.check ctx) (owner.check (ctx.rename ρ)))
include howner

theorem checkTarget_follows (ctx : Context) :
    Follows ρ z (Prod.map (Target.rename ρ) (Slot.rename ρ)) (e.checkTarget ctx)
      (e.checkTarget (ctx.rename ρ)) := by
  obtain ⟨form, span⟩ := e
  cases form with
  | symbol name => exact variableTarget_follows name
  | member owner name nameSpan => exact memberTarget_follows name nameSpan (howner ctx)
  | _ => exact .fail rfl span

theorem checkCall_follows
    (he : ∀ ctx : Context,
      Follows ρ z (TypedExpr.rename ρ) (e.check ctx) (e.check (ctx.rename ρ)))
    {arguments arguments' : Arguments} (harguments : arguments.Follow ρ z arguments')
    (span : Span) (ctx : Context) :
    Follows ρ z (TypedExpr.rename ρ) (e.checkCall arguments span ctx)
      (e.checkCall arguments' span (ctx.rename ρ)) := by
  obtain ⟨form, calleeSpan⟩ := e
  cases form with
  | symbol name => exact callSymbol_follows name calleeSpan harguments
  | member owner name nameSpan =>
    exact callMember_follows name nameSpan calleeSpan (howner ctx) harguments
  | _ =>
    -- any other callee is a value, which is named by its type
    refine (he ctx).bind fun callee => ?_
    rw [TypedExpr.type_rename, Slot.name_rename]
    exact callValue_follows callee callee.type.name span harguments

end

/-- The arguments of a call, when each way of checking them follows itself. -/
theorem arguments_follow {es : List Expr} {ctx : Context}
    (heach : Follows ρ z (List.map (TypedExpr.rename ρ)) (Expr.checkEach es ctx)
      (Expr.checkEach es (ctx.rename ρ)))
    (hinto : ∀ slots, Follows ρ z (List.map (TypedExpr.rename ρ)) (Expr.checkInto es ctx slots)
      (Expr.checkInto es (ctx.rename ρ) (slots.map (Slot.rename ρ)))) :
    Arguments.Follow ρ z ⟨es.length, Expr.checkEach es ctx, Expr.checkInto es ctx⟩
      ⟨es.length, Expr.checkEach es (ctx.rename ρ), Expr.checkInto es (ctx.rename ρ)⟩ :=
  ⟨rfl, heach, hinto⟩

mutual

/-- The check of an expression ends alike in states in step. -/
theorem Expr.check_follows : ∀ (e : Expr) (ctx : Context),
    Follows ρ z (TypedExpr.rename ρ) (e.check ctx) (e.check (ctx.rename ρ))
  | ⟨form, span⟩, ctx => form.check_follows span ctx

theorem ExprForm.check_follows : ∀ (form : ExprForm) (span : Span) (ctx : Context),
    Follows ρ z (TypedExpr.rename ρ) (form.check span ctx) (form.check span (ctx.rename ρ))
  | .number _, _, _ => .pure (by simp [Ty.int])
  | .text _, _, _ => .pure (by simp [Ty.string])
  | .bool _, _, _ => .pure (by simp [Ty.bool])
  | .symbol name, _, _ => symbol_follows name
  | .member owner name nameSpan, _, ctx => member_follows name nameSpan (owner.check_follows ctx)
  | .assign target value, _, ctx =>
    assign_follows value.span (checkTarget_follows target.owner_follows ctx)
      (.nested value.check_follows)
  | .binary left operator right, _, ctx =>
    binary_follows operator (left.check_follows ctx) (.nested right.check_follows)
  | .unary operator operand, _, _ => unary_follows operator (.nested operand.check_follows)
  | .call callee arguments, span, ctx =>
    checkCall_follows callee.owner_follows callee.check_follows
      (arguments_follow (Expr.checkEach_follows arguments ctx)
        (Expr.checkInto_follows arguments ctx)) span ctx
  | .new className arguments, _, ctx =>
    instantiate_follows className
      (arguments_follow (Expr.checkEach_follows arguments ctx)
        (Expr.checkInto_follows arguments ctx))
  | .lambda ⟨parameters, result?, ⟨body, _⟩⟩, _, _ =>
    lambda_follows parameters result? (Stmt.checkAll_follows body)
  | .group inner, _, _ => .nested inner.check_follows

theorem Expr.owner_follows : ∀ e : Expr, e.form.OwnerHas fun owner => ∀ ctx : Context,
    Follows ρ z (TypedExpr.rename ρ) (owner.check ctx) (owner.check (ctx.rename ρ))
  | ⟨.member owner _ _, _⟩ => owner.check_follows
  | ⟨.number _, _⟩ | ⟨.text _, _⟩ | ⟨.bool _, _⟩ | ⟨.symbol _, _⟩ | ⟨.assign _ _, _⟩
  | ⟨.binary _ _ _, _⟩ | ⟨.unary _ _, _⟩ | ⟨.call _ _, _⟩ | ⟨.new _ _, _⟩ | ⟨.lambda _, _⟩
  | ⟨.group _, _⟩ => trivial

theorem Expr.checkEach_follows : ∀ (es : List Expr) (ctx : Context),
    Follows ρ z (List.map (TypedExpr.rename ρ)) (Expr.checkEach es ctx)
      (Expr.checkEach es (ctx.rename ρ))
  | [], _ => .pure rfl
  | e :: rest, ctx =>
    (Follows.nested e.check_follows).bind fun _ =>
      (Expr.checkEach_follows rest ctx).bind fun _ => .pure rfl

theorem Expr.checkInto_follows : ∀ (es : List Expr) (ctx : Context) (slots : List (Slot Ty)),
    Follows ρ z (List.map (TypedExpr.rename ρ)) (Expr.checkInto es ctx slots)
      (Expr.checkInto es (ctx.rename ρ) (slots.map (Slot.rename ρ)))
  | [], _, _ => .pure rfl
  | _ :: _, _, [] => .pure rfl
  | e :: rest, ctx, _ :: slots =>
    (Follows.nested e.check_follows).bind fun _ => .expect_bind <|
      (Expr.checkInto_follows rest ctx slots).bind fun _ => .pure rfl

/-- The check of a statement ends alike in states in step. -/
theorem Stmt.check_follows : ∀ (s : Stmt) (ctx : Context),
    Follows ρ z (TypedStmt.rename ρ) (s.check ctx) (s.check (ctx.rename ρ))
  | ⟨form, span⟩, ctx => form.check_follows span ctx

theorem StmtForm.check_follows : ∀ (form : StmtForm) (span : Span) (ctx : Context),
    Follows ρ z (TypedStmt.rename ρ) (form.check span ctx) (form.check span (ctx.rename ρ))
  | .expression e, _, _ => (Follows.nested e.check_follows).bind fun _ => .pure (by simp)
  | .varDecl _ _ mode type? (some value), _, _ =>
    varDecl_follows mode type? (.some ⟨rfl, .nested value.check_follows⟩)
  | .varDecl _ _ mode type? none, _, _ => varDecl_follows mode type? .none
  | .classDecl _ _ parameters members, _, _ =>
    classDecl_follows parameters (Stmt.checkMembers_follows members parameters)
  | .fnDecl _ _ ⟨parameters, result?, ⟨body, _⟩⟩, _, _ =>
    fnDecl_follows parameters result? (Stmt.checkAll_follows body)
  | .ret (some value), _, _ => ret_follows (.some (.nested value.check_follows))
  | .ret none, _, _ => ret_follows .none
  | .block ⟨body, _⟩, _, _ =>
    (Follows.inNewFrame (Stmt.checkAll_follows body)).bind fun _ => .pure (by simp)
  | .branch condition thenBody (some elseBody), _, _ =>
    (Follows.nested condition.check_follows).bind fun _ =>
      (Follows.inNewFrame fun _ => .nested thenBody.check_follows).bind fun _ =>
        (Follows.inNewFrame fun _ => .nested elseBody.check_follows).bind fun _ =>
          .pure (by simp)
  | .branch condition thenBody none, _, _ =>
    (Follows.nested condition.check_follows).bind fun _ =>
      (Follows.inNewFrame fun _ => .nested thenBody.check_follows).bind fun _ => .pure (by simp)
  | .loop condition body, _, _ =>
    (Follows.nested condition.check_follows).bind fun _ =>
      (Follows.inNewFrame fun _ => .nested body.check_follows).bind fun _ => .pure (by simp)
  | .print value, _, _ => (Follows.nested value.check_follows).bind fun _ => .pure (by simp)

theorem Stmt.checkAll_follows : ∀ (stmts : List Stmt) (ctx : Context),
    Follows ρ z (List.map (TypedStmt.rename ρ)) (Stmt.checkAll stmts ctx)
      (Stmt.checkAll stmts (ctx.rename ρ))
  | [], _ => .pure rfl
  | s :: rest, ctx =>
    (Follows.nested s.check_follows).bind fun _ =>
      (Stmt.checkAll_follows rest ctx).bind fun _ => .pure rfl

theorem Stmt.checkMembers_follows : ∀ (members : List Stmt) (parameters : List Parameter)
    (c : ClassRef) (ctx : Context), Follows ρ z (List.map (TypedStmt.rename ρ))
      (Stmt.checkMembers members parameters c ctx)
      (Stmt.checkMembers members parameters (c.rename ρ) (ctx.rename ρ))
  | [], _, _, _ => .pure rfl
  | s :: rest, parameters, c, ctx =>
    (expectNoParameter_follows parameters s).bind fun _ =>
      (Follows.nested s.check_follows).bind fun typed =>
        (enterMember_follows c s typed).bind fun _ =>
          (Stmt.checkMembers_follows rest parameters c ctx).bind fun _ => .pure rfl

end

end Nominal
