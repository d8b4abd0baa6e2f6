import Nominal.Typing.Expressions
import Nominal.Typing.Statements

/-!
# Checking trees

The rules, applied along a syntax tree. Statements, arguments, right operands and the like are one
level further in than what they are part of. The left side of an operator, the owner of a member and
the callee of a call are not, since long chains of these do not nest in the source.
-/

namespace Nominal

open Context

mutual

/-- Checks an expression on the current level. -/
def Expr.check : Expr → Context → Check TypedExpr
  | ⟨form, span⟩, ctx => form.check span ctx

/-- Checks an expression of a given form on the current level. -/
def ExprForm.check : ExprForm → Span → Context → Check TypedExpr
  | .number value, span, _ => return ⟨.int value, ⟨.var, .int⟩, span⟩
  | .text value, span, _ => return ⟨.text value, ⟨.var, .string⟩, span⟩
  | .bool value, span, _ => return ⟨.bool value, ⟨.var, .bool⟩, span⟩
  | .symbol name, span, ctx => ctx.symbol name span
  | .member owner name nameSpan, span, ctx => member (owner.check ctx) name nameSpan span
  | .assign target value, span, ctx =>
    assign (target.checkTarget ctx) (ctx.nested value.span value.check) value.span span
  | .binary left operator right, span, ctx =>
    ctx.binary operator (left.check ctx) (ctx.nested right.span right.check) span
  | .unary operator operand, span, ctx =>
    ctx.unary operator (ctx.nested operand.span operand.check) span
  | .call callee arguments, span, ctx =>
    callee.checkCall
      ⟨arguments.length, Expr.checkEach arguments ctx, Expr.checkInto arguments ctx⟩ span ctx
  | .new className arguments, span, ctx =>
    ctx.instantiate className
      ⟨arguments.length, Expr.checkEach arguments ctx, Expr.checkInto arguments ctx⟩ span
  | .lambda ⟨parameters, result?, ⟨body, bodySpan⟩⟩, span, ctx =>
    ctx.lambda parameters result? bodySpan (Stmt.checkAll body) span
  | .group inner, _, ctx => ctx.nested inner.span inner.check

/-- Checks an expression as what a call calls. -/
def Expr.checkCall : Expr → Arguments → Span → Context → Check TypedExpr
  | ⟨.symbol name, nameSpan⟩, arguments, span, ctx => ctx.callSymbol name nameSpan arguments span
  | ⟨.member owner name nameSpan, calleeSpan⟩, arguments, span, ctx =>
    callMember (owner.check ctx) name nameSpan calleeSpan arguments span
  | ⟨form, calleeSpan⟩, arguments, span, ctx => do
    let callee ← form.check calleeSpan ctx
    callValue callee callee.type.name arguments span

/-- Checks an expression as the place of an assignment. -/
def Expr.checkTarget : Expr → Context → Check (Target × Slot Ty)
  | ⟨.symbol name, span⟩, ctx => ctx.variableTarget name span
  | ⟨.member owner name nameSpan, _⟩, ctx => memberTarget (owner.check ctx) name nameSpan
  | ⟨_, span⟩, _ => .fail (.typing .notAssignable) span

/-- Checks expressions one after the other. -/
def Expr.checkEach : List Expr → Context → Check (List TypedExpr)
  | [], _ => return []
  | e :: es, ctx => return (← ctx.nested e.span e.check) :: (← Expr.checkEach es ctx)

/-- Checks expressions one after the other, each against the slot it flows into. -/
def Expr.checkInto : List Expr → Context → List (Slot Ty) → Check (List TypedExpr)
  | e :: es, ctx, slot :: slots => do
    let typed ← ctx.nested e.span e.check
    expectAssignable typed slot e.span
    return typed :: (← Expr.checkInto es ctx slots)
  | _, _, _ => return []

/-- Checks a statement on the current level. -/
def Stmt.check : Stmt → Context → Check TypedStmt
  | ⟨form, span⟩, ctx => form.check span ctx

/-- Checks a statement of a given form on the current level. -/
def StmtForm.check : StmtForm → Span → Context → Check TypedStmt
  | .expression e, span, ctx => return ⟨.expression (← ctx.nested e.span e.check), span⟩
  | .varDecl name nameSpan mode type? (some value), span, ctx =>
    ctx.varDecl name nameSpan mode type?
      (some (value.span, ctx.nested value.span value.check)) span
  | .varDecl name nameSpan mode type? none, span, ctx =>
    ctx.varDecl name nameSpan mode type? none span
  | .classDecl name nameSpan parameters members, span, ctx =>
    ctx.classDecl name nameSpan parameters (Stmt.checkMembers members parameters) span
  | .fnDecl name nameSpan ⟨parameters, result?, ⟨body, bodySpan⟩⟩, span, ctx =>
    ctx.fnDecl name nameSpan parameters result? bodySpan (Stmt.checkAll body) span
  | .ret (some value), span, ctx => ctx.ret (some (ctx.nested value.span value.check)) span
  | .ret none, span, ctx => ctx.ret none span
  | .block ⟨body, _⟩, span, ctx => return ⟨.block (← ctx.inNewFrame (Stmt.checkAll body)), span⟩
  | .branch condition thenBody (some elseBody), span, ctx => do
    let condition ← ctx.nested condition.span condition.check
    let first ← ctx.inNewFrame fun ctx => ctx.nested thenBody.span thenBody.check
    let second ← ctx.inNewFrame fun ctx => ctx.nested elseBody.span elseBody.check
    return ⟨.branch condition first (some second), span⟩
  | .branch condition thenBody none, span, ctx => do
    let condition ← ctx.nested condition.span condition.check
    let first ← ctx.inNewFrame fun ctx => ctx.nested thenBody.span thenBody.check
    return ⟨.branch condition first none, span⟩
  | .loop condition body, span, ctx => do
    let condition ← ctx.nested condition.span condition.check
    let body ← ctx.inNewFrame fun ctx => ctx.nested body.span body.check
    return ⟨.loop condition body, span⟩
  | .print value, span, ctx => return ⟨.print (← ctx.nested value.span value.check), span⟩

/-- Checks statements one after the other in the current frame. -/
def Stmt.checkAll : List Stmt → Context → Check (List TypedStmt)
  | [], _ => return []
  | s :: rest, ctx => return (← ctx.nested s.span s.check) :: (← Stmt.checkAll rest ctx)

/-- Checks the members of the class `c` one after the other, and enters each into the class. -/
def Stmt.checkMembers : List Stmt → List Parameter → ClassRef → Context → Check (List TypedStmt)
  | [], _, _, _ => return []
  | s :: rest, parameters, c, ctx => do
    ctx.expectNoParameter parameters s
    let typed ← ctx.nested s.span s.check
    ctx.enterMember c s typed
    return typed :: (← Stmt.checkMembers rest parameters c ctx)

end

end Nominal
