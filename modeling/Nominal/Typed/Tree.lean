import Nominal.Source.Position
import Nominal.Ty.Signature

/-!
# Typed trees

Programs after checking. Every expression has its type and mode. Names, calls and operators carry the
declaration that they were resolved to, and declarations carry the number they were given.
-/

namespace Nominal

mutual

/-- An expression with its type. -/
structure TypedExpr where
  form : TypedExprForm
  type : Slot Ty
  span : Span

/-- The forms of typed expressions. -/
inductive TypedExprForm where
  | int (value : Int)
  | bool (value : Bool)
  | text (value : String)
  /-- A variable, or a function named without a call. -/
  | reference (name : String) (decl : DeclId)
  | member (owner : TypedExpr) (name : String) (decl? : Option DeclId)
  | assign (target : Target) (value : TypedExpr)
  /-- An operator that is a method of its left operand. Built-in methods have no declaration. -/
  | binary (left : TypedExpr) (operator : String) (right : TypedExpr) (method? : Option DeclId)
  /-- An operator that is a method of its operand. -/
  | unary (operator : String) (operand : TypedExpr) (method? : Option DeclId)
  | call (callee : Callee) (arguments : List TypedExpr)
  | new (cls : ClassRef) (arguments : List TypedExpr)
  | lambda (function : FnType) (parameters : List DeclId) (body : List TypedStmt)

/-- What a call calls. -/
inductive Callee where
  /-- A function that is declared under a name. -/
  | function (decl : DeclId)
  /-- A method of the receiver. -/
  | method (receiver : TypedExpr) (name : String) (decl? : Option DeclId)
  /-- Any other value of a function type. -/
  | value (value : TypedExpr)

/-- What an assignment writes to. -/
inductive Target where
  | binding (decl : DeclId)
  | member (owner : TypedExpr) (name : String) (decl : DeclId)

/-- A checked statement. -/
structure TypedStmt where
  form : TypedStmtForm
  span : Span

/-- The forms of checked statements. -/
inductive TypedStmtForm where
  | expression (expr : TypedExpr)
  | varDecl (decl : DeclId) (initializer? : Option TypedExpr)
  | classDecl (cls : ClassRef) (parameters : List DeclId) (members : List TypedStmt)
  | fnDecl (decl : DeclId) (function : FnType) (parameters : List DeclId) (body : List TypedStmt)
  | ret (value? : Option TypedExpr)
  | block (body : List TypedStmt)
  | branch (condition : TypedExpr) (thenBody : TypedStmt) (elseBody? : Option TypedStmt)
  | loop (condition : TypedExpr) (body : TypedStmt)
  | print (value : TypedExpr)

end

end Nominal
