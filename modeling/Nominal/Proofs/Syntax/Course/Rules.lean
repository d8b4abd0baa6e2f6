import Nominal.Syntax.Reader

/-!
# Reading with one level for all

A `Reader` keeps its level in one place. Before a statement, an expression or a type is read the
level is counted up, and behind it down again; what is read in between finds the level as the
readings before have left it. Repetitions go on until they meet what they stop at, and do not look
at how many tokens are left; any reading may start others. Nothing here says that a reading comes to
an end or that it leaves the level as it was: a `Course` is what becomes of a reader, or nothing
when it takes more rounds, or more readings inside one another, than it is given. The rules are
those of `Inner`, read in this way.
-/

namespace Nominal

/-- What becomes of a reader: a value or a diagnostic, and the reader as it is left. A reading that
never ends has no outcome. -/
abbrev Course := ExceptT Diagnostic (StateT Reader Option)

namespace Course

open Parse

variable {α : Type}

/-- Reads from the stream alone. -/
def ofParse (read : Parse α) : Course α := fun r =>
  some (r.run read)

instance : MonadLift Parse Course := ⟨ofParse⟩

/-- The grammar of the reader. -/
def grammar : Course Grammar := fun r =>
  some (.ok r.grammar, r)

/-- One level further in, unless the limit is reached. -/
def enter : Course Unit := fun r =>
  some r.enter

/-- One level further out behind `read`, whatever came of it. -/
def leaving (read : Course α) : Course α := fun r =>
  (read r).map fun (outcome, after) => (outcome, after.leave)

/-- `read` one level further in. -/
def nested (read : Course α) : Course α := do
  enter
  leaving read

/-- A reading that never ends. -/
def endless : Course α := fun _ =>
  none

/-- Items up to a token at which `stop` holds. A repetition that is not over after `rounds` goes on
for good. -/
def repeatUntil (stop : Kind → Bool) (item : Course α) : (rounds : Nat) → Course (List α)
  | 0 => endless
  | rounds + 1 => do
    if stop (← kind) then return []
    else
      let first ← item
      return first :: (← repeatUntil stop item rounds)

/-- One or more items with commas between them, as long as there are commas. -/
def commaSeparated (item : Course α) : (rounds : Nat) → Course (List α)
  | 0 => endless
  | rounds + 1 => do
    let first ← item
    if (← kind) = .comma then
      let _ ← advance
      return first :: (← commaSeparated item rounds)
    else return [first]

/-- Any number of items between parentheses, with commas between them. -/
def parenthesised (item : Course α) (rounds : Nat) : Course (List α) := do
  let _ ← expect .openParen
  let items ← if (← kind) = .closeParen then pure [] else commaSeparated item rounds
  let _ ← expect .closeParen
  return items

/-- What `read` reads after a token of the given kind, if there is such a token. -/
def after? (mark : Kind) (read : Course α) : Course (Option α) := do
  if (← kind) = mark then
    let _ ← advance
    return some (← read)
  else return none

/-- The readers of nested statements, expressions and types, and the rounds that a repetition can
take. -/
structure Parts where
  rounds : Nat
  stmt : Course Stmt
  expr : BindingPower → Course Expr
  type : Course TypeExpr

namespace Parts

/-! ## Types -/

def functionType (parts : Parts) : Course TypeExpr := do
  let start := (← advance).span.start
  let parameters ← parenthesised parts.type parts.rounds
  let _ ← expectDetailed .arrow "function types need a `->` return type"
  let result ← parts.type
  return .function parameters result (← spanFrom start)

def namedType (parts : Parts) : Course TypeExpr := do
  let stream ← (get : Parse TokenStream)
  if stream.current.value = Inner.functionTypeName ∧ stream.peek 1 = .openParen then
    parts.functionType
  else
    let token ← expect .identifier
    return .named token.value token.span

def typeBy (parts : Parts) : TypeRule → Course TypeExpr
  | .named => parts.namedType
  | .function => parts.functionType

def typeAt (parts : Parts) : Course TypeExpr := do
  match (← grammar).type (← kind) with
  | some rule => parts.typeBy rule
  | none => unexpected (α := TypeExpr)

/-! ## Functions and blocks -/

def blockItem (parts : Parts) : Course Stmt := do
  if (← kind) = .eof then unexpectedDetailed (α := Stmt) "expected `\x7d` to close the block"
  else parts.stmt

def block (parts : Parts) : Course Block := do
  let start := (← expect .openCurly).span.start
  let body ← repeatUntil (· == .closeCurly) parts.blockItem parts.rounds
  let _ ← expect .closeCurly
  return ⟨body, ← spanFrom start⟩

def parameterMode : Course Mode := do
  match ← kind with
  | .kwVar =>
    let _ ← advance
    return .var
  | .kwVal =>
    let _ ← advance
    return .val
  | _ => return .val

def parameter (parts : Parts) : Course Parameter := do
  let start ← position
  let mode ← parameterMode
  let name ← expectDetailed .identifier "expected parameter name"
  let _ ← expectDetailed .colon "parameters need an explicit type"
  let type ← parts.type
  return ⟨name.value, mode, type, ← spanFrom start⟩

def parameters (parts : Parts) : Course (List Parameter) :=
  parenthesised parts.parameter parts.rounds

def resultType? (parts : Parts) : Course (Option TypeExpr) := do
  let k ← kind
  if k = .colon ∨ k = .arrow then
    let _ ← advance
    return some (← parts.type)
  else return none

def signature (parts : Parts) : Course Signature := do
  let parameters ← parts.parameters
  let result? ← parts.resultType?
  let body ← parts.block
  return ⟨parameters, result?, body⟩

/-! ## Expressions -/

def primary : Course Expr := do
  let token ← current
  match Inner.primaryForm token with
  | .ok form =>
    let _ ← advance
    return ⟨form, token.span⟩
  | .error cause => failWith (α := Expr) fun _ => cause

def unary (parts : Parts) : Course Expr := do
  let operator ← advance
  let operand ← parts.expr .unary
  return ⟨.unary operator operand, operator.span.to operand.span⟩

def group (parts : Parts) : Course Expr := do
  let start := (← advance).span.start
  let expr ← parts.expr .default
  let _ ← expect .closeParen
  return ⟨.group expr, ← spanFrom start⟩

def arguments (parts : Parts) : Course (List Expr) :=
  parenthesised (parts.expr .default) parts.rounds

def new (parts : Parts) : Course Expr := do
  let start := (← advance).span.start
  let name ← expectDetailed .identifier "expected class name after `new`"
  let arguments ← parts.arguments
  return ⟨.new name.value arguments, ← spanFrom start⟩

def lambda (parts : Parts) : Course Expr := do
  let start := (← advance).span.start
  let signature ← parts.signature
  return ⟨.lambda signature, ← spanFrom start⟩

def nudBy (parts : Parts) : NudRule → Course Expr
  | .primary => primary
  | .unary => parts.unary
  | .group => parts.group
  | .new => parts.new
  | .lambda => parts.lambda

def assignment (parts : Parts) (left : Expr) : Course Expr := do
  if left.isAssignable then
    let _ ← advance
    let value ← parts.expr .comma
    return ⟨.assign left value, left.span.to value.span⟩
  else unexpectedDetailed (α := Expr) "invalid assignment target"

def binary (parts : Parts) (left : Expr) (power : BindingPower) : Course Expr := do
  let operator ← advance
  let right ← parts.expr power
  return ⟨.binary left operator right, left.span.to right.span⟩

def call (parts : Parts) (left : Expr) : Course Expr := do
  let arguments ← parts.arguments
  return ⟨.call left arguments, ← spanFrom left.span.start⟩

def member (left : Expr) : Course Expr := do
  let _ ← advance
  let name ← expectDetailed .identifier "expected member name after `.`"
  return ⟨.member left name.value name.span, left.span.to name.span⟩

def ledBy (parts : Parts) (left : Expr) (power : BindingPower) : LedRule → Course Expr
  | .assignment => parts.assignment left
  | .binary => parts.binary left power
  | .call => parts.call left
  | .member => member left

/-- Continues the expression `left` as long as the current token binds it more tightly than
`power`. -/
def continueExpr (parts : Parts) (power : BindingPower) : (rounds : Nat) → Expr → Course Expr
  | 0, _ => endless
  | rounds + 1, left => do
    match (← grammar).led (← kind) with
    | none => return left
    | some (next, rule) =>
      if power < next then
        let longer ← parts.ledBy left next rule
        parts.continueExpr power rounds longer
      else return left

def exprAt (parts : Parts) (power : BindingPower) : Course Expr := do
  match (← grammar).nud (← kind) with
  | some rule =>
    let left ← parts.nudBy rule
    parts.continueExpr power parts.rounds left
  | none => unexpected (α := Expr)

/-! ## Statements -/

def expressionStmt (parts : Parts) : Course Stmt := do
  let expr ← parts.expr .default
  let _ ← expect .semicolon
  return ⟨.expression expr, ← spanFrom expr.span.start⟩

def varDecl (parts : Parts) : Course Stmt := do
  let first ← advance
  let mode : Mode := if first.kind = .kwVar then .var else .val
  let name ← expectDetailed .identifier "expected identifier during variable declaration"
  let type? ← after? .colon parts.type
  let value? ← after? .assignment (parts.expr .default)
  let _ ← expect .semicolon
  return ⟨.varDecl name.value name.span mode type? value?, ← spanFrom first.span.start⟩

def fnDecl (parts : Parts) : Course Stmt := do
  if (← (get : Parse TokenStream)).peek 1 = .identifier then
    let start := (← advance).span.start
    let name ← advance
    let signature ← parts.signature
    return ⟨.fnDecl name.value name.span signature, ← spanFrom start⟩
  else parts.expressionStmt

def classMember (parts : Parts) : Course Stmt := do
  let stream ← (get : Parse TokenStream)
  match stream.kind with
  | .kwVal => parts.varDecl
  | .kwVar => parts.varDecl
  | .kwFun =>
    if stream.peek 1 = .identifier then parts.fnDecl
    else unexpectedDetailed (α := Stmt) "expected member declaration in class body"
  | _ => unexpectedDetailed (α := Stmt) "expected member declaration in class body"

def classDecl (parts : Parts) : Course Stmt := do
  let start := (← advance).span.start
  let name ← expectDetailed .identifier "expected class name"
  let parameters ← if (← kind) = .openParen then parts.parameters else pure []
  let _ ← expect .openCurly
  let members ← repeatUntil (· == .closeCurly) parts.classMember parts.rounds
  let _ ← expect .closeCurly
  return ⟨.classDecl name.value name.span parameters members, ← spanFrom start⟩

def ret (parts : Parts) : Course Stmt := do
  let start := (← advance).span.start
  let value? ← if (← kind) = .semicolon then pure none else some <$> parts.expr .default
  let _ ← expect .semicolon
  return ⟨.ret value?, ← spanFrom start⟩

def branch (parts : Parts) : Course Stmt := do
  let start := (← advance).span.start
  let condition ← parts.expr .default
  let thenBody ← parts.stmt
  let elseBody? ← after? .kwElse parts.stmt
  return ⟨.branch condition thenBody elseBody?, ← spanFrom start⟩

def loop (parts : Parts) : Course Stmt := do
  let start := (← advance).span.start
  let condition ← parts.expr .default
  let body ← parts.stmt
  return ⟨.loop condition body, ← spanFrom start⟩

def print (parts : Parts) : Course Stmt := do
  let start := (← advance).span.start
  let value ← parts.expr .default
  let _ ← expect .semicolon
  return ⟨.print value, ← spanFrom start⟩

def blockStmt (parts : Parts) : Course Stmt := do
  let block ← parts.block
  return ⟨.block block, block.span⟩

def stmtBy (parts : Parts) : StmtRule → Course Stmt
  | .varDecl => parts.varDecl
  | .classDecl => parts.classDecl
  | .fnDecl => parts.fnDecl
  | .ret => parts.ret
  | .branch => parts.branch
  | .loop => parts.loop
  | .print => parts.print
  | .block => parts.blockStmt

def stmtAt (parts : Parts) : Course Stmt := do
  match (← grammar).stmt (← kind) with
  | some rule => parts.stmtBy rule
  | none => parts.expressionStmt

end Parts

mutual

/-- A statement, where at most `calls` readings of parts can be under way inside one another. -/
def stmt (rounds : Nat) : (calls : Nat) → Course Stmt
  | 0 => endless
  | calls + 1 => nested fun r =>
    Parts.stmtAt ⟨rounds, stmt rounds calls, expr rounds calls, type rounds calls⟩ r

/-- An expression whose operators bind more tightly than the given power. -/
def expr (rounds : Nat) : (calls : Nat) → BindingPower → Course Expr
  | 0, _ => endless
  | calls + 1, power => nested fun r =>
    Parts.exprAt ⟨rounds, stmt rounds calls, expr rounds calls, type rounds calls⟩ power r

/-- A type. -/
def type (rounds : Nat) : (calls : Nat) → Course TypeExpr
  | 0 => endless
  | calls + 1 => nested fun r =>
    Parts.typeAt ⟨rounds, stmt rounds calls, expr rounds calls, type rounds calls⟩ r

end

/-- The readers of parts where at most `calls` can be under way inside one another. -/
def parts (rounds calls : Nat) : Parts :=
  ⟨rounds, stmt rounds calls, expr rounds calls, type rounds calls⟩

/-- A whole program. -/
def program (rounds calls : Nat) : Course Block := do
  let start ← position
  let body ← repeatUntil (· == .eof) (stmt rounds calls) rounds
  return ⟨body, ⟨start, ← position⟩⟩

end Course

end Nominal
