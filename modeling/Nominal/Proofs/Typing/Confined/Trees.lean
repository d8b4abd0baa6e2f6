import Nominal.Proofs.Syntax.Tidy
import Nominal.Proofs.Typing.Closed
import Nominal.Proofs.Typing.Confined.Classes

/-!
# Checking tidy trees keeps types in scope

The rules put together along the tree: an expression that is tidy has a type in scope
(`Expr.check_scoped`), and a statement that is tidy leaves all types in scope, whether it succeeds
or fails (`Stmt.check_confined`).
-/

namespace Nominal

open Check Context

variable {frame : Frame} {outer : Scope}

theorem literal_scoped {e : TypedExpr} {p : Primitive} (htype : e.type.type = .primitive p)
    (hp : p ∈ Primitive.builtins) : (pure e : Check TypedExpr).ScopedExpr frame outer := by
  rintro s hs rfl
  refine ⟨⟨hs, rfl⟩, ?_⟩
  show e.type.type.InScope (s.frame :: outer)
  rw [htype]
  exact hs.builtin hp

section

variable {e : Expr} (howner : e.form.OwnerHas fun owner =>
  ∀ ctx frame, (owner.check ctx).ScopedExpr frame ctx.outer)
include howner

theorem checkTarget_scoped {ctx : Context} : (e.checkTarget ctx).ScopedTarget frame ctx.outer := by
  obtain ⟨form, span⟩ := e
  cases form with
  | symbol name => exact variableTarget_scoped name
  | member owner name nameSpan => exact memberTarget_scoped name nameSpan (howner ctx frame)
  | _ => exact .fail _ _

theorem checkCall_scoped (he : ∀ ctx frame, (e.check ctx).ScopedExpr frame ctx.outer)
    {ctx : Context} {arguments : Arguments} (harguments : arguments.Scoped frame ctx.outer)
    {span : Span} : (e.checkCall arguments span ctx).ScopedExpr frame ctx.outer := by
  obtain ⟨form, calleeSpan⟩ := e
  cases form with
  | symbol name => exact callSymbol_scoped name calleeSpan harguments
  | member owner name nameSpan =>
    exact callMember_scoped name nameSpan calleeSpan (howner ctx frame) harguments
  | _ => exact (he ctx frame).bind fun callee hcallee =>
      callValue_scoped callee _ hcallee harguments

end

mutual

/-- The type of an expression that is checked is in scope. -/
theorem Expr.check_scoped : ∀ e : Expr, e.Tidy → ∀ (ctx : Context) (frame : Frame),
    (e.check ctx).ScopedExpr frame ctx.outer
  | ⟨form, span⟩, h, ctx, frame => form.check_scoped h span ctx frame

theorem ExprForm.check_scoped : ∀ form : ExprForm, form.Tidy → ∀ (span : Span) (ctx : Context)
    (frame : Frame), (form.check span ctx).ScopedExpr frame ctx.outer
  | .number _, _, _, _, _ => literal_scoped rfl (by decide)
  | .text _, _, _, _, _ => literal_scoped rfl (by decide)
  | .bool _, _, _, _, _ => literal_scoped rfl (by decide)
  | .symbol name, _, _, _, _ => symbol_scoped name
  | .member owner name nameSpan, h, _, ctx, frame =>
    member_scoped name nameSpan (owner.check_scoped h ctx frame)
  | .assign target value, h, _, _, frame =>
    assign_scoped _ (checkTarget_scoped (target.owner_scoped h.1))
      (.nested (value.check_scoped h.2 _ frame))
  | .binary left operator right, h, _, ctx, frame =>
    binary_scoped operator (left.check_scoped h.1 ctx frame)
      (.nested (right.check_scoped h.2 _ frame))
  | .unary operator operand, h, _, _, frame =>
    unary_scoped operator (.nested (operand.check_scoped h _ frame))
  | .call callee arguments, h, _, ctx, frame =>
    checkCall_scoped (callee.owner_scoped h.1) (callee.check_scoped h.1)
      ⟨Expr.checkEach_scoped arguments h.2 ctx frame, Expr.checkInto_scoped arguments h.2 ctx frame⟩
  | .new className arguments, h, _, ctx, frame =>
    instantiate_scoped className
      ⟨Expr.checkEach_scoped arguments h ctx frame, Expr.checkInto_scoped arguments h ctx frame⟩
  | .lambda ⟨parameters, result?, ⟨body, _⟩⟩, h, _, _, _ =>
    lambda_scoped parameters result? (Stmt.checkAll_confined body h)
  | .group inner, h, _, _, frame => .nested (inner.check_scoped h _ frame)

theorem Expr.owner_scoped : ∀ e : Expr, e.Tidy →
    e.form.OwnerHas fun owner => ∀ ctx frame, (owner.check ctx).ScopedExpr frame ctx.outer
  | ⟨.member owner _ _, _⟩, h => owner.check_scoped h
  | ⟨.number _, _⟩, _ | ⟨.text _, _⟩, _ | ⟨.bool _, _⟩, _ | ⟨.symbol _, _⟩, _
  | ⟨.assign _ _, _⟩, _ | ⟨.binary _ _ _, _⟩, _ | ⟨.unary _ _, _⟩, _ | ⟨.call _ _, _⟩, _
  | ⟨.new _ _, _⟩, _ | ⟨.lambda _, _⟩, _ | ⟨.group _, _⟩, _ => trivial

theorem Expr.checkEach_scoped : ∀ es : List Expr, Expr.AllTidy es → ∀ (ctx : Context)
    (frame : Frame), (Expr.checkEach es ctx).ScopedExprs frame ctx.outer
  | [], _, _, _ => .pure fun _ he => nomatch he
  | e :: rest, h, ctx, frame =>
    (Inside.nested (e.check_scoped h.1 _ frame)).bind fun _ hfirst =>
      (Expr.checkEach_scoped rest h.2 ctx frame).bind fun _ hrest =>
        .pure (List.forall_mem_cons.2 ⟨hfirst, hrest⟩)

theorem Expr.checkInto_scoped : ∀ es : List Expr, Expr.AllTidy es → ∀ (ctx : Context)
    (frame : Frame) (slots : List (Slot Ty)),
      (Expr.checkInto es ctx slots).ScopedExprs frame ctx.outer
  | [], _, _, _, _ => .pure fun _ he => nomatch he
  | _ :: _, _, _, _, [] => .pure fun _ he => nomatch he
  | e :: rest, h, ctx, frame, _ :: slots =>
    (Inside.nested (e.check_scoped h.1 _ frame)).bind fun _ hfirst => .expect_bind <|
      (Expr.checkInto_scoped rest h.2 ctx frame slots).bind fun _ hrest =>
        .pure (List.forall_mem_cons.2 ⟨hfirst, hrest⟩)

/-- The types of a state are in scope after a statement when they were so before. -/
theorem Stmt.check_confined : ∀ s : Stmt, s.Tidy → ∀ ctx : Context,
    (s.check ctx).Confined ctx.outer
  | ⟨form, span⟩, h, ctx => form.check_confined h span ctx

theorem StmtForm.check_confined : ∀ form : StmtForm, form.Tidy → ∀ (span : Span) (ctx : Context),
    (form.check span ctx).Confined ctx.outer
  | .expression e, h, _, ctx => (e.nested_confined h ctx).bind fun _ => .pure _
  | .varDecl _ _ _ type? (some value), h, _, _ =>
    varDecl_confined type? fun _ hvalue frame => Option.mem_some.1 hvalue ▸
      Inside.nested (value.check_scoped h _ frame)
  | .varDecl _ _ _ type? none, _, _, _ => varDecl_confined type? fun _ hvalue => nomatch hvalue
  | .classDecl _ _ parameters members, h, _, _ =>
    classDecl_confined parameters h.1 fun member hmember =>
      ⟨h.2.2 member hmember, Stmt.check_confined_of_mem members h.2.1 member hmember⟩
  | .fnDecl _ _ ⟨parameters, result?, ⟨body, _⟩⟩, h, _, _ =>
    fnDecl_confined parameters result? (Stmt.checkAll_confined body h)
  | .ret (some value), h, _, ctx =>
    ret_confined ctx (some _) fun _ hvalue frame => Option.mem_some.1 hvalue ▸
      Inside.nested (value.check_scoped h _ frame)
  | .ret none, _, _, ctx => ret_confined ctx none fun _ hvalue => nomatch hvalue
  | .block ⟨body, _⟩, h, _, _ =>
    (Confined.inNewFrame (Stmt.checkAll_confined body h)).bind fun _ => .pure _
  | .branch condition thenBody (some elseBody), h, _, ctx =>
    (condition.nested_confined h.1 ctx).bind fun _ =>
      (Confined.inNewFrame fun _ => .nested (thenBody.check_confined h.2.1)).bind fun _ =>
        (Confined.inNewFrame fun _ => .nested (elseBody.check_confined h.2.2)).bind fun _ =>
          .pure _
  | .branch condition thenBody none, h, _, ctx =>
    (condition.nested_confined h.1 ctx).bind fun _ =>
      (Confined.inNewFrame fun _ => .nested (thenBody.check_confined h.2)).bind fun _ => .pure _
  | .loop condition body, h, _, ctx =>
    (condition.nested_confined h.1 ctx).bind fun _ =>
      (Confined.inNewFrame fun _ => .nested (body.check_confined h.2)).bind fun _ => .pure _
  | .print value, h, _, ctx => (value.nested_confined h ctx).bind fun _ => .pure _

theorem Expr.nested_confined : ∀ e : Expr, e.Tidy → ∀ ctx : Context,
    (ctx.nested e.span e.check).Confined ctx.outer
  | ⟨form, span⟩, h, _ => Inside.confined fun frame =>
    (Inside.nested (form.check_scoped h span _ frame)).mono fun _ _ => trivial

theorem Stmt.checkAll_confined : ∀ stmts : List Stmt, Stmt.AllTidy stmts → ∀ ctx : Context,
    (Stmt.checkAll stmts ctx).Confined ctx.outer
  | [], _, _ => .pure _
  | s :: rest, h, ctx =>
    (Confined.nested (s.check_confined h.1)).bind fun _ =>
      (Stmt.checkAll_confined rest h.2 ctx).bind fun _ => .pure _

theorem Stmt.check_confined_of_mem : ∀ stmts : List Stmt, Stmt.AllTidy stmts → ∀ s ∈ stmts,
    ∀ ctx : Context, (s.check ctx).Confined ctx.outer
  | [], _ => fun _ hs => nomatch hs
  | s :: rest, h =>
    List.forall_mem_cons.2 ⟨s.check_confined h.1, Stmt.check_confined_of_mem rest h.2⟩

end

end Nominal
