import Mathlib.Data.List.Forall2
import Nominal.Syntax.Tree
import Nominal.Typed.Tree
import Nominal.Typing.Expressions

/-!
# Typed trees as mirrors of trees

A typed tree mirrors the tree that was written when it has the same nodes with the same spans, and
their parts in the same order. Three things differ by intent. Parentheses are gone, an operator that
is a function has become a call of it, and the callee of a call says what is called: a function, a
method of the mirrored owner, or the value of the mirrored callee.

Where the typed tree has a number instead of a name, the number is `known` to be that of the name.
-/

namespace Nominal

/-- What is known of numbers and names: which number is that of a declaration of which name. -/
abbrev Naming := DeclId → String → Prop

mutual

/-- The typed expression mirrors the written one. -/
inductive Expr.Mirrors (known : Naming) : Expr → TypedExpr → Prop
  | group {inner : Expr} {span : Span} {typed : TypedExpr} (h : Expr.Mirrors known inner typed) :
    Expr.Mirrors known ⟨.group inner, span⟩ typed
  | form {form : ExprForm} {typedForm : TypedExprForm} {type : Slot Ty} {span : Span}
    (h : ExprForm.Mirrors known form typedForm) :
    Expr.Mirrors known ⟨form, span⟩ ⟨typedForm, type, span⟩

inductive ExprForm.Mirrors (known : Naming) : ExprForm → TypedExprForm → Prop
  | number (value : Int) : ExprForm.Mirrors known (.number value) (.int value)
  | text (value : String) : ExprForm.Mirrors known (.text value) (.text value)
  | bool (value : Bool) : ExprForm.Mirrors known (.bool value) (.bool value)
  | symbol {name : String} {decl : DeclId} (hname : known decl name) :
    ExprForm.Mirrors known (.symbol name) (.reference name decl)
  | member {owner : Expr} {name : String} {nameSpan : Span} {typedOwner : TypedExpr}
    {decl? : Option DeclId} (howner : Expr.Mirrors known owner typedOwner) :
    ExprForm.Mirrors known (.member owner name nameSpan) (.member typedOwner name decl?)
  | assign {target value : Expr} {typedTarget : Target} {typedValue : TypedExpr}
    (htarget : Expr.MirrorsTarget known target typedTarget)
    (hvalue : Expr.Mirrors known value typedValue) :
    ExprForm.Mirrors known (.assign target value) (.assign typedTarget typedValue)
  | binary {left right : Expr} {operator : Token} {typedLeft typedRight : TypedExpr}
    {method? : Option DeclId} (hleft : Expr.Mirrors known left typedLeft)
    (hright : Expr.Mirrors known right typedRight) :
    ExprForm.Mirrors known (.binary left operator right)
      (.binary typedLeft operator.value typedRight method?)
  | binaryCall {left right : Expr} {operator : Token} {typedLeft typedRight : TypedExpr}
    {decl : DeclId} (hname : known decl (operatorName operator))
    (hleft : Expr.Mirrors known left typedLeft) (hright : Expr.Mirrors known right typedRight) :
    ExprForm.Mirrors known (.binary left operator right)
      (.call (.function decl) [typedLeft, typedRight])
  | unary {operand : Expr} {operator : Token} {typedOperand : TypedExpr} {method? : Option DeclId}
    (hoperand : Expr.Mirrors known operand typedOperand) :
    ExprForm.Mirrors known (.unary operator operand)
      (.unary operator.value typedOperand method?)
  | unaryCall {operand : Expr} {operator : Token} {typedOperand : TypedExpr} {decl : DeclId}
    (hname : known decl (operatorName operator))
    (hoperand : Expr.Mirrors known operand typedOperand) :
    ExprForm.Mirrors known (.unary operator operand) (.call (.function decl) [typedOperand])
  | call {callee : Expr} {arguments : List Expr} {typedCallee : Callee}
    {typedArguments : List TypedExpr} (hcallee : Expr.MirrorsCallee known callee typedCallee)
    (harguments : List.Forall₂ (Expr.Mirrors known) arguments typedArguments) :
    ExprForm.Mirrors known (.call callee arguments) (.call typedCallee typedArguments)
  | new {c : ClassRef} {arguments : List Expr} {typedArguments : List TypedExpr}
    (harguments : List.Forall₂ (Expr.Mirrors known) arguments typedArguments) :
    ExprForm.Mirrors known (.new c.name arguments) (.new c typedArguments)
  | lambda {parameters : List Parameter} {result? : Option TypeExpr} {body : List Stmt}
    {bodySpan : Span} {function : FnType} {ids : List DeclId} {typedBody : List TypedStmt}
    (hparameters : List.Forall₂ (fun p id => known id p.name) parameters ids)
    (hbody : List.Forall₂ (Stmt.Mirrors known) body typedBody) :
    ExprForm.Mirrors known (.lambda ⟨parameters, result?, ⟨body, bodySpan⟩⟩)
      (.lambda function ids typedBody)

/-- The target mirrors the expression that is assigned to. -/
inductive Expr.MirrorsTarget (known : Naming) : Expr → Target → Prop
  | binding {name : String} {span : Span} {decl : DeclId} (hname : known decl name) :
    Expr.MirrorsTarget known ⟨.symbol name, span⟩ (.binding decl)
  | member {owner : Expr} {name : String} {nameSpan span : Span} {typedOwner : TypedExpr}
    {decl : DeclId} (howner : Expr.Mirrors known owner typedOwner) :
    Expr.MirrorsTarget known ⟨.member owner name nameSpan, span⟩ (.member typedOwner name decl)

/-- The callee mirrors the expression that is called. -/
inductive Expr.MirrorsCallee (known : Naming) : Expr → Callee → Prop
  | function {name : String} {span : Span} {decl : DeclId} (hname : known decl name) :
    Expr.MirrorsCallee known ⟨.symbol name, span⟩ (.function decl)
  | method {owner : Expr} {name : String} {nameSpan span : Span} {receiver : TypedExpr}
    {decl? : Option DeclId} (howner : Expr.Mirrors known owner receiver) :
    Expr.MirrorsCallee known ⟨.member owner name nameSpan, span⟩ (.method receiver name decl?)
  | value {callee : Expr} {value : TypedExpr} (hcallee : Expr.Mirrors known callee value) :
    Expr.MirrorsCallee known callee (.value value)

/-- The typed statement mirrors the written one. -/
inductive Stmt.Mirrors (known : Naming) : Stmt → TypedStmt → Prop
  | form {form : StmtForm} {typedForm : TypedStmtForm} {span : Span}
    (h : StmtForm.Mirrors known form typedForm) :
    Stmt.Mirrors known ⟨form, span⟩ ⟨typedForm, span⟩

inductive StmtForm.Mirrors (known : Naming) : StmtForm → TypedStmtForm → Prop
  | expression {e : Expr} {typed : TypedExpr} (he : Expr.Mirrors known e typed) :
    StmtForm.Mirrors known (.expression e) (.expression typed)
  | varDecl {name : String} {nameSpan : Span} {mode : Mode} {type? : Option TypeExpr}
    {value? : Option Expr} {decl : DeclId} {initializer? : Option TypedExpr}
    (hname : known decl name) (hvalue : Option.Rel (Expr.Mirrors known) value? initializer?) :
    StmtForm.Mirrors known (.varDecl name nameSpan mode type? value?) (.varDecl decl initializer?)
  | classDecl {c : ClassRef} {nameSpan : Span} {parameters : List Parameter} {members : List Stmt}
    {ids : List DeclId} {typedMembers : List TypedStmt}
    (hparameters : List.Forall₂ (fun p id => known id p.name) parameters ids)
    (hmembers : List.Forall₂ (Stmt.Mirrors known) members typedMembers) :
    StmtForm.Mirrors known (.classDecl c.name nameSpan parameters members)
      (.classDecl c ids typedMembers)
  | fnDecl {name : String} {nameSpan : Span} {parameters : List Parameter}
    {result? : Option TypeExpr} {body : List Stmt} {bodySpan : Span} {decl : DeclId}
    {function : FnType} {ids : List DeclId} {typedBody : List TypedStmt} (hname : known decl name)
    (hparameters : List.Forall₂ (fun p id => known id p.name) parameters ids)
    (hbody : List.Forall₂ (Stmt.Mirrors known) body typedBody) :
    StmtForm.Mirrors known (.fnDecl name nameSpan ⟨parameters, result?, ⟨body, bodySpan⟩⟩)
      (.fnDecl decl function ids typedBody)
  | ret {value? : Option Expr} {typed? : Option TypedExpr}
    (hvalue : Option.Rel (Expr.Mirrors known) value? typed?) :
    StmtForm.Mirrors known (.ret value?) (.ret typed?)
  | block {body : List Stmt} {bodySpan : Span} {typedBody : List TypedStmt}
    (hbody : List.Forall₂ (Stmt.Mirrors known) body typedBody) :
    StmtForm.Mirrors known (.block ⟨body, bodySpan⟩) (.block typedBody)
  | branch {condition : Expr} {thenBody : Stmt} {elseBody? : Option Stmt}
    {typedCondition : TypedExpr} {typedThen : TypedStmt} {typedElse? : Option TypedStmt}
    (hcondition : Expr.Mirrors known condition typedCondition)
    (hthen : Stmt.Mirrors known thenBody typedThen)
    (helse : Option.Rel (Stmt.Mirrors known) elseBody? typedElse?) :
    StmtForm.Mirrors known (.branch condition thenBody elseBody?)
      (.branch typedCondition typedThen typedElse?)
  | loop {condition : Expr} {body : Stmt} {typedCondition : TypedExpr} {typedBody : TypedStmt}
    (hcondition : Expr.Mirrors known condition typedCondition)
    (hbody : Stmt.Mirrors known body typedBody) :
    StmtForm.Mirrors known (.loop condition body) (.loop typedCondition typedBody)
  | print {value : Expr} {typed : TypedExpr} (hvalue : Expr.Mirrors known value typed) :
    StmtForm.Mirrors known (.print value) (.print typed)

end

/-- A typed statement has the span of the statement that it mirrors. -/
theorem Stmt.Mirrors.span {known : Naming} {s : Stmt} {typed : TypedStmt}
    (h : s.Mirrors known typed) : typed.span = s.span := by
  cases h
  rfl

end Nominal
