import Nominal.Syntax.Grammar
import Nominal.Syntax.Parse
import Nominal.Syntax.Tree

/-!
# The rules of the grammar

How each rule reads its part of a program. A rule reads nested statements, expressions and types
through an `Inner`, the readers for one level further in, and does not know how deep it is.
-/

namespace Nominal

/-- The readers of nested statements, expressions and types. -/
structure Inner where
  stmt : Parse Stmt
  expr : BindingPower → Parse Expr
  type : Parse TypeExpr

namespace Inner

open Parse

/-! ## Types -/

/-- The word that begins a function type. -/
def functionTypeName : String :=
  "Function"

/-- `Function(A, B) -> R`. -/
def functionType (inner : Inner) : Parse TypeExpr := do
  let start := (← advance).span.start
  let parameters ← parenthesised inner.type
  let _ ← expectDetailed .arrow "function types need a `->` return type"
  let result ← inner.type
  return .function parameters result (← spanFrom start)

/-- The name of a type. `Function` before a parenthesis begins a function type instead. -/
def namedType (inner : Inner) : Parse TypeExpr := do
  let stream ← get
  if stream.current.value = functionTypeName ∧ stream.peek 1 = .openParen then
    inner.functionType
  else
    let token ← expect .identifier
    return .named token.value token.span

/-- Reads a type by `rule`. -/
def typeBy (inner : Inner) : TypeRule → Parse TypeExpr
  | .named => inner.namedType
  | .function => inner.functionType

/-- Reads a type by the rule for the current token. -/
def typeAt (inner : Inner) (g : Grammar) : Parse TypeExpr := do
  match g.type (← kind) with
  | some rule => inner.typeBy rule
  | none => unexpected

/-! ## Functions and blocks -/

/-- `{ statements }`. -/
def block (inner : Inner) : Parse Block := do
  let start := (← expect .openCurly).span.start
  let body ← repeatUntil (· == .closeCurly) do
    if (← kind) = .eof then unexpectedDetailed "expected `\x7d` to close the block"
    else inner.stmt
  let _ ← expect .closeCurly
  return ⟨body, ← spanFrom start⟩

/-- `val` or `var` before a name. Without either the mode is `val`. -/
def parameterMode : Parse Mode := do
  match ← kind with
  | .kwVar =>
    let _ ← advance
    return .var
  | .kwVal =>
    let _ ← advance
    return .val
  | _ => return .val

/-- `name: Type`, perhaps with `val` or `var` before it. -/
def parameter (inner : Inner) : Parse Parameter := do
  let start ← position
  let mode ← parameterMode
  let name ← expectDetailed .identifier "expected parameter name"
  let _ ← expectDetailed .colon "parameters need an explicit type"
  let type ← inner.type
  return ⟨name.value, mode, type, ← spanFrom start⟩

/-- `(parameters)`. -/
def parameters (inner : Inner) : Parse (List Parameter) :=
  parenthesised inner.parameter

/-- `: Type` or `-> Type`, if it is there. -/
def resultType? (inner : Inner) : Parse (Option TypeExpr) := do
  let k ← kind
  if k = .colon ∨ k = .arrow then
    let _ ← advance
    return some (← inner.type)
  else return none

/-- `(parameters): Type { statements }`. The type can be left out. -/
def signature (inner : Inner) : Parse Signature := do
  let parameters ← inner.parameters
  let result? ← inner.resultType?
  let body ← inner.block
  return ⟨parameters, result?, body⟩

/-! ## Expressions -/

/-- The form of an expression that is a single token. -/
def primaryForm (token : Token) : Except Cause ExprForm :=
  match token.kind with
  | .number =>
    match token.integer? with
    | some value => .ok (.number value)
    | none => .error (.invalidNumber token.value)
  | .identifier => .ok (.symbol token.value)
  | .string => .ok (.text token.value)
  | .kwTrue => .ok (.bool true)
  | .kwFalse => .ok (.bool false)
  | _ => .error (.unexpectedToken token.value)

/-- A number, a string, a truth value or a name. -/
def primary : Parse Expr := do
  let token ← current
  match primaryForm token with
  | .ok form =>
    let _ ← advance
    return ⟨form, token.span⟩
  | .error cause => failWith fun _ => cause

/-- `op e`, which binds more tightly than any operator between two expressions. -/
def unary (inner : Inner) : Parse Expr := do
  let operator ← advance
  let operand ← inner.expr .unary
  return ⟨.unary operator operand, operator.span.to operand.span⟩

/-- `(e)`. -/
def group (inner : Inner) : Parse Expr := do
  let start := (← advance).span.start
  let expr ← inner.expr .default
  let _ ← expect .closeParen
  return ⟨.group expr, ← spanFrom start⟩

/-- `(arguments)`. -/
def arguments (inner : Inner) : Parse (List Expr) :=
  parenthesised (inner.expr .default)

/-- `new Name(arguments)`. -/
def new (inner : Inner) : Parse Expr := do
  let start := (← advance).span.start
  let name ← expectDetailed .identifier "expected class name after `new`"
  let arguments ← inner.arguments
  return ⟨.new name.value arguments, ← spanFrom start⟩

/-- `fun (parameters): Type { statements }`. -/
def lambda (inner : Inner) : Parse Expr := do
  let start := (← advance).span.start
  let signature ← inner.signature
  return ⟨.lambda signature, ← spanFrom start⟩

/-- Begins an expression by `rule`. -/
def nudBy (inner : Inner) : NudRule → Parse Expr
  | .primary => primary
  | .unary => inner.unary
  | .group => inner.group
  | .new => inner.new
  | .lambda => inner.lambda

/-- `left = e`. The right side may be an assignment again. -/
def assignment (inner : Inner) (left : Expr) : Parse Expr := do
  if left.isAssignable then
    let _ ← advance
    let value ← inner.expr .comma
    return ⟨.assign left value, left.span.to value.span⟩
  else unexpectedDetailed "invalid assignment target"

/-- `left op e`, where operators of the same power associate to the left. -/
def binary (inner : Inner) (left : Expr) (power : BindingPower) : Parse Expr := do
  let operator ← advance
  let right ← inner.expr power
  return ⟨.binary left operator right, left.span.to right.span⟩

/-- `left(arguments)`. -/
def call (inner : Inner) (left : Expr) : Parse Expr := do
  let arguments ← inner.arguments
  return ⟨.call left arguments, ← spanFrom left.span.start⟩

/-- `left.name`. -/
def member (left : Expr) : Parse Expr := do
  let _ ← advance
  let name ← expectDetailed .identifier "expected member name after `.`"
  return ⟨.member left name.value name.span, left.span.to name.span⟩

/-- Continues the expression `left` by `rule`. -/
def ledBy (inner : Inner) (left : Expr) (power : BindingPower) : LedRule → Parse Expr
  | .assignment => inner.assignment left
  | .binary => inner.binary left power
  | .call => inner.call left
  | .member => member left

/-- Continues the expression `left` as long as the current token binds it more tightly than
`power`. -/
def continueExpr (inner : Inner) (g : Grammar) (power : BindingPower) (left : Expr) :
    Parse Expr := fun s =>
  match g.led s.kind with
  | none => .ok left s
  | some (next, rule) =>
    if power < next then
      match inner.ledBy left next rule s with
      | .error d t => .error d t
      | .ok longer t =>
        if t.size < s.size then inner.continueExpr g power longer t else .ok longer t
    else .ok left s
termination_by s => s.size

/-- An expression whose operators bind more tightly than `power`. -/
def exprAt (inner : Inner) (g : Grammar) (power : BindingPower) : Parse Expr := do
  match g.nud (← kind) with
  | some rule =>
    let left ← inner.nudBy rule
    inner.continueExpr g power left
  | none => unexpected

/-! ## Statements -/

/-- `e;`. -/
def expressionStmt (inner : Inner) : Parse Stmt := do
  let expr ← inner.expr .default
  let _ ← expect .semicolon
  return ⟨.expression expr, ← spanFrom expr.span.start⟩

/-- What `read` reads after a token of the given kind, if there is such a token. -/
def after? {α : Type} (mark : Kind) (read : Parse α) : Parse (Option α) := do
  if (← kind) = mark then
    let _ ← advance
    return some (← read)
  else return none

/-- `val name: Type = e;` or the same with `var`. Type and value can be left out. -/
def varDecl (inner : Inner) : Parse Stmt := do
  let first ← advance
  let mode : Mode := if first.kind = .kwVar then .var else .val
  let name ← expectDetailed .identifier "expected identifier during variable declaration"
  let type? ← after? .colon inner.type
  let value? ← after? .assignment (inner.expr .default)
  let _ ← expect .semicolon
  return ⟨.varDecl name.value name.span mode type? value?, ← spanFrom first.span.start⟩

/-- `fun name(parameters): Type { statements }`. Without a name it is an expression. -/
def fnDecl (inner : Inner) : Parse Stmt := do
  if (← get).peek 1 = .identifier then
    let start := (← advance).span.start
    let name ← advance
    let signature ← inner.signature
    return ⟨.fnDecl name.value name.span signature, ← spanFrom start⟩
  else inner.expressionStmt

/-- A declaration inside a class. -/
def classMember (inner : Inner) : Parse Stmt := do
  let stream ← get
  match stream.kind with
  | .kwVal => inner.varDecl
  | .kwVar => inner.varDecl
  | .kwFun =>
    if stream.peek 1 = .identifier then inner.fnDecl
    else unexpectedDetailed "expected member declaration in class body"
  | _ => unexpectedDetailed "expected member declaration in class body"

/-- `class Name(parameters) { members }`. The parameter list can be left out. -/
def classDecl (inner : Inner) : Parse Stmt := do
  let start := (← advance).span.start
  let name ← expectDetailed .identifier "expected class name"
  let parameters ← if (← kind) = .openParen then inner.parameters else pure []
  let _ ← expect .openCurly
  let members ← repeatUntil (· == .closeCurly) inner.classMember
  let _ ← expect .closeCurly
  return ⟨.classDecl name.value name.span parameters members, ← spanFrom start⟩

/-- `return e;` or `return;`. -/
def ret (inner : Inner) : Parse Stmt := do
  let start := (← advance).span.start
  let value? ← if (← kind) = .semicolon then pure none else some <$> inner.expr .default
  let _ ← expect .semicolon
  return ⟨.ret value?, ← spanFrom start⟩

/-- `if e s else s`. The other branch can be left out, and belongs to the nearest `if`. -/
def branch (inner : Inner) : Parse Stmt := do
  let start := (← advance).span.start
  let condition ← inner.expr .default
  let thenBody ← inner.stmt
  let elseBody? ← after? .kwElse inner.stmt
  return ⟨.branch condition thenBody elseBody?, ← spanFrom start⟩

/-- `while e s`. -/
def loop (inner : Inner) : Parse Stmt := do
  let start := (← advance).span.start
  let condition ← inner.expr .default
  let body ← inner.stmt
  return ⟨.loop condition body, ← spanFrom start⟩

/-- `print e;`. -/
def print (inner : Inner) : Parse Stmt := do
  let start := (← advance).span.start
  let value ← inner.expr .default
  let _ ← expect .semicolon
  return ⟨.print value, ← spanFrom start⟩

/-- A block as a statement. -/
def blockStmt (inner : Inner) : Parse Stmt := do
  let block ← inner.block
  return ⟨.block block, block.span⟩

/-- Reads a statement by `rule`. -/
def stmtBy (inner : Inner) : StmtRule → Parse Stmt
  | .varDecl => inner.varDecl
  | .classDecl => inner.classDecl
  | .fnDecl => inner.fnDecl
  | .ret => inner.ret
  | .branch => inner.branch
  | .loop => inner.loop
  | .print => inner.print
  | .block => inner.blockStmt

/-- Reads a statement by the rule for the current token, or as an expression when it has none. -/
def stmtAt (inner : Inner) (g : Grammar) : Parse Stmt := do
  match g.stmt (← kind) with
  | some rule => inner.stmtBy rule
  | none => inner.expressionStmt

end Inner

end Nominal
