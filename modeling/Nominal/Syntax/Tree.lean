import Nominal.Mode
import Nominal.Token.Basic

/-!
# Syntax trees

Programs as they are written, before names are resolved. Every node has the span it was read from.
Expressions and statements are pairs of a form and a span, so that a rule can look at the form and
keep the span.
-/

namespace Nominal

/-- A type as it is written. -/
inductive TypeExpr where
  | named (name : String) (span : Span)
  | function (parameters : List TypeExpr) (result : TypeExpr) (span : Span)

namespace TypeExpr

/-- Where the type stands. -/
def span : TypeExpr → Span
  | named _ span => span
  | function _ _ span => span

mutual

/-- The type in its usual spelling. -/
def text : TypeExpr → String
  | named name _ => name
  | function parameters result _ =>
    let types := ", ".intercalate (texts parameters)
    s!"Function({types}) -> {result.text}"

/-- The types of a list in their usual spelling. -/
def texts : List TypeExpr → List String
  | [] => []
  | a :: as => a.text :: texts as

end

end TypeExpr

/-- A parameter of a function or of a class. -/
structure Parameter where
  name : String
  mode : Mode
  type : TypeExpr
  span : Span

mutual

/-- An expression. -/
structure Expr where
  form : ExprForm
  span : Span

/-- The forms of expressions. -/
inductive ExprForm where
  | number (value : Int)
  | text (value : String)
  | bool (value : Bool)
  | symbol (name : String)
  | member (owner : Expr) (name : String) (nameSpan : Span)
  | assign (target value : Expr)
  | binary (left : Expr) (operator : Token) (right : Expr)
  | unary (operator : Token) (operand : Expr)
  | call (callee : Expr) (arguments : List Expr)
  | new (className : String) (arguments : List Expr)
  | lambda (signature : Signature)
  | group (inner : Expr)

/-- Parameters, result and body of a function. -/
structure Signature where
  parameters : List Parameter
  result? : Option TypeExpr
  body : Block

/-- Statements between braces, or a whole program. -/
structure Block where
  body : List Stmt
  span : Span

/-- A statement. -/
structure Stmt where
  form : StmtForm
  span : Span

/-- The forms of statements. -/
inductive StmtForm where
  | expression (expr : Expr)
  | varDecl (name : String) (nameSpan : Span) (mode : Mode) (type? : Option TypeExpr)
      (value? : Option Expr)
  | classDecl (name : String) (nameSpan : Span) (parameters : List Parameter)
      (members : List Stmt)
  | fnDecl (name : String) (nameSpan : Span) (signature : Signature)
  | ret (value? : Option Expr)
  | block (block : Block)
  | branch (condition : Expr) (thenBody : Stmt) (elseBody? : Option Stmt)
  | loop (condition : Expr) (body : Stmt)
  | print (value : Expr)

end

/-- Whether the expression names a place that a value can be assigned to. -/
def Expr.isAssignable (e : Expr) : Bool :=
  match e.form with
  | .symbol _ => true
  | .member _ _ _ => true
  | _ => false

/-- The name that a variable or function declaration declares, and where the name stands. -/
def Stmt.memberName? (s : Stmt) : Option (String × Span) :=
  match s.form with
  | .varDecl name nameSpan _ _ _ => some (name, nameSpan)
  | .fnDecl name nameSpan _ => some (name, nameSpan)
  | _ => none

end Nominal
