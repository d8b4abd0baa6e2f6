import Nominal.Proofs.Typing.Closed
import Nominal.Proofs.Typing.Soundness.Classes

/-!
# Checked trees are well typed

The rules put together along the tree: what checking gives for an expression or a statement is well
typed in every setting that the last state is a part of (`Expr.check_typed`, `Stmt.check_typed`).
-/

namespace Nominal

open Check Context

section

variable {e : Expr}
  (howner : e.form.OwnerHas fun owner => ∀ ctx, (owner.check ctx).ChecksExpr ctx.outer)
include howner

theorem checkTarget_typed {ctx : Context} : (e.checkTarget ctx).ChecksTarget ctx.outer := by
  obtain ⟨form, span⟩ := e
  cases form with
  | symbol name => exact variableTarget_typed name
  | member owner name nameSpan => exact memberTarget_typed name nameSpan (howner ctx)
  | _ => exact .fail _ _

theorem checkCall_typed (he : ∀ ctx, (e.check ctx).ChecksExpr ctx.outer) {ctx : Context}
    {arguments : Arguments} (harguments : arguments.Checked ctx.outer) {span : Span} :
    (e.checkCall arguments span ctx).ChecksExpr ctx.outer := by
  obtain ⟨form, calleeSpan⟩ := e
  cases form with
  | symbol name => exact callSymbol_typed name calleeSpan harguments
  | member owner name nameSpan =>
    exact callMember_typed name nameSpan calleeSpan (howner ctx) harguments
  | _ => exact (he ctx).bind fun callee => callValue_typed callee _ harguments

end

mutual

/-- What checking an expression gives is well typed. -/
theorem Expr.check_typed : ∀ (e : Expr) (ctx : Context), (e.check ctx).ChecksExpr ctx.outer
  | ⟨form, span⟩, ctx => form.check_typed span ctx

theorem ExprForm.check_typed : ∀ (form : ExprForm) (span : Span) (ctx : Context),
    (form.check span ctx).ChecksExpr ctx.outer
  | .number _, _, _ => .pure fun _ => rfl
  | .text _, _, _ => .pure fun _ => rfl
  | .bool _, _, _ => .pure fun _ => rfl
  | .symbol name, _, _ => symbol_typed name
  | .member owner name nameSpan, _, ctx => member_typed name nameSpan (owner.check_typed ctx)
  | .assign target value, _, _ =>
    assign_typed _ (checkTarget_typed target.owner_typed)
      (.nested fun ctx _ => value.check_typed ctx)
  | .binary left operator right, _, ctx =>
    binary_typed operator (left.check_typed ctx) (.nested fun ctx _ => right.check_typed ctx)
  | .unary operator operand, _, _ =>
    unary_typed operator (.nested fun ctx _ => operand.check_typed ctx)
  | .call callee arguments, _, ctx =>
    checkCall_typed callee.owner_typed callee.check_typed
      ⟨Expr.checkEach_typed arguments ctx, Expr.checkInto_typed arguments ctx⟩
  | .new className arguments, _, ctx =>
    instantiate_typed className
      ⟨Expr.checkEach_typed arguments ctx, Expr.checkInto_typed arguments ctx⟩
  | .lambda ⟨parameters, result?, ⟨body, _⟩⟩, _, _ =>
    lambda_typed parameters result? (Stmt.checkAll_typed body)
  | .group inner, _, _ => .nested fun ctx _ => inner.check_typed ctx

theorem Expr.owner_typed : ∀ e : Expr,
    e.form.OwnerHas fun owner => ∀ ctx, (owner.check ctx).ChecksExpr ctx.outer
  | ⟨.member owner _ _, _⟩ => owner.check_typed
  | ⟨.number _, _⟩ | ⟨.text _, _⟩ | ⟨.bool _, _⟩ | ⟨.symbol _, _⟩ | ⟨.assign _ _, _⟩
  | ⟨.binary _ _ _, _⟩ | ⟨.unary _ _, _⟩ | ⟨.call _ _, _⟩ | ⟨.new _ _, _⟩ | ⟨.lambda _, _⟩
  | ⟨.group _, _⟩ => trivial

theorem Expr.checkEach_typed : ∀ (es : List Expr) (ctx : Context),
    (Expr.checkEach es ctx).ChecksExprs ctx.outer
  | [], _ => .pure fun _ => trivial
  | e :: rest, ctx =>
    (Typed.nested fun ctx _ => e.check_typed ctx).bind fun _ =>
      (Expr.checkEach_typed rest ctx).bind fun _ => .pure fun _ hrest hfirst => ⟨hfirst, hrest⟩

theorem Expr.checkInto_typed : ∀ (es : List Expr) (ctx : Context) (slots : List (Slot Ty)),
    slots.length = es.length → (Expr.checkInto es ctx slots).Typed ctx.outer fun typed w =>
      TypedExpr.AllWellTyped w typed ∧ Fit (typed.map fun e => e.type) slots
  | [], _, [], _ => .pure fun _ => ⟨trivial, .nil⟩
  | e :: rest, ctx, _ :: slots, hlength =>
    (Typed.nested fun ctx _ => e.check_typed ctx).bind fun _ => .expect_bind fun hfits =>
      (Expr.checkInto_typed rest ctx slots (Nat.succ.inj hlength)).bind fun _ =>
        .pure fun _ hrest hfirst => ⟨⟨hfirst, hrest.1⟩, .cons hfits hrest.2⟩

/-- What checking a statement gives is well typed. -/
theorem Stmt.check_typed : ∀ (s : Stmt) (ctx : Context),
    (s.check ctx).ChecksStmt ctx.outer ctx.function?
  | ⟨form, span⟩, ctx => form.check_typed span ctx

theorem StmtForm.check_typed : ∀ (form : StmtForm) (span : Span) (ctx : Context),
    (form.check span ctx).ChecksStmt ctx.outer ctx.function?
  | .expression e, _, _ =>
    (Typed.nested fun ctx _ => e.check_typed ctx).bind fun _ => .pure fun _ he => he
  | .varDecl _ _ _ type? (some value), _, _ =>
    varDecl_typed type? fun _ hvalue => Option.mem_some.1 hvalue ▸
      Typed.nested fun ctx _ => value.check_typed ctx
  | .varDecl _ _ _ type? none, _, _ => varDecl_typed type? fun _ hvalue => nomatch hvalue
  | .classDecl _ _ parameters members, _, _ =>
    classDecl_typed parameters (Stmt.checkMembers_typed members parameters)
  | .fnDecl _ _ ⟨parameters, result?, ⟨body, _⟩⟩, _, _ =>
    fnDecl_typed parameters result? (Stmt.checkAll_typed body)
  | .ret (some value), _, _ => ret_some_typed (.nested fun ctx _ => value.check_typed ctx)
  | .ret none, _, _ => ret_none_typed
  | .block ⟨body, _⟩, _, _ =>
    (newFrame_typed (Stmt.checkAll_typed body)).bind fun _ => .pure fun _ hbody => hbody
  | .branch condition thenBody (some elseBody), _, _ =>
    (Typed.nested fun ctx _ => condition.check_typed ctx).bind fun _ =>
      (newFrame_nested_typed thenBody.check_typed).bind fun _ =>
        (newFrame_nested_typed elseBody.check_typed).bind fun _ =>
          .pure fun _ helse hthen hcondition => ⟨hcondition, hthen, helse⟩
  | .branch condition thenBody none, _, _ =>
    (Typed.nested fun ctx _ => condition.check_typed ctx).bind fun _ =>
      (newFrame_nested_typed thenBody.check_typed).bind fun _ =>
        .pure fun _ hthen hcondition => ⟨hcondition, hthen⟩
  | .loop condition body, _, _ =>
    (Typed.nested fun ctx _ => condition.check_typed ctx).bind fun _ =>
      (newFrame_nested_typed body.check_typed).bind fun _ =>
        .pure fun _ hbody hcondition => ⟨hcondition, hbody⟩
  | .print value, _, _ =>
    (Typed.nested fun ctx _ => value.check_typed ctx).bind fun _ => .pure fun _ hvalue => hvalue

theorem Stmt.checkAll_typed : ∀ (stmts : List Stmt) (ctx : Context),
    (Stmt.checkAll stmts ctx).ChecksStmts ctx.outer ctx.function?
  | [], _ => .pure fun _ => trivial
  | s :: rest, ctx =>
    (nested_typed s.check_typed).bind fun _ =>
      (Stmt.checkAll_typed rest ctx).bind fun _ => .pure fun _ hrest hfirst => ⟨hfirst, hrest⟩

theorem Stmt.checkMembers_typed : ∀ (members : List Stmt) (parameters : List Parameter)
    (c : ClassRef), ChecksMembers (Stmt.checkMembers members parameters c) c parameters
  | [], parameters, c => checkMembers_nil c parameters
  | s :: rest, parameters, c =>
    checkMembers_cons s.check_typed (Stmt.checkMembers_typed rest parameters c)

end

end Nominal
