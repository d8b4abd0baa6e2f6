import Nominal.Diagnostic.Basic
import Nominal.Syntax.Tree

/-!
# How deep a tree is nested

`Block.nesting` counts the levels of a tree. A statement, an expression and a type are each one
level further in than what they are written in. Two things are not: the left part of an expression,
such as a left operand or the function of a call, is on the level of the whole expression, and a
member is on the level of its class. `Block.classDepth` counts what the second exception leaves out:
the classes around a member. `Diagnostic.IsNesting` singles out the diagnostics that say that a
level was too deep.
-/

namespace Nominal

/-- Whether reading stopped because no levels were left. -/
def Diagnostic.IsNesting (d : Diagnostic) : Prop :=
  ∃ limit, d.cause = .nestingTooDeep limit

/-- Whether the cause is that a level was too deep. -/
def Cause.isNesting : Cause → Bool
  | .nestingTooDeep _ => true
  | _ => false

theorem Diagnostic.isNesting_iff {d : Diagnostic} : d.IsNesting ↔ d.cause.isNesting = true := by
  obtain ⟨cause, span⟩ := d
  cases cause <;> simp [IsNesting, Cause.isNesting]

instance (d : Diagnostic) : Decidable d.IsNesting :=
  decidable_of_iff _ Diagnostic.isNesting_iff.symm

mutual

/-- How many levels a type has, its own among them. -/
def TypeExpr.nesting : TypeExpr → Nat
  | .named _ _ => 1
  | .function parameters result _ => max (TypeExpr.eachNesting parameters) result.nesting + 1

/-- The most levels that one of the types has. -/
def TypeExpr.eachNesting : List TypeExpr → Nat
  | [] => 0
  | a :: as => max a.nesting (TypeExpr.eachNesting as)

end

/-- The most levels that a type of a parameter or of the result has. -/
def Signature.headNesting (parameters : List Parameter) (result? : Option TypeExpr) : Nat :=
  TypeExpr.eachNesting (parameters.map Parameter.type ++ result?.toList)

mutual

/-- How many levels an expression has, its own among them. -/
def Expr.nesting : Expr → Nat
  | ⟨form, _⟩ => form.nesting

def ExprForm.nesting : ExprForm → Nat
  | .number _ => 1
  | .text _ => 1
  | .bool _ => 1
  | .symbol _ => 1
  | .member owner _ _ => owner.nesting
  | .assign target value => max target.nesting (value.nesting + 1)
  | .binary left _ right => max left.nesting (right.nesting + 1)
  | .unary _ operand => operand.nesting + 1
  | .call callee arguments => max callee.nesting (Expr.eachNesting arguments + 1)
  | .new _ arguments => Expr.eachNesting arguments + 1
  | .lambda ⟨parameters, result?, ⟨body, _⟩⟩ =>
    max (Signature.headNesting parameters result?) (Stmt.eachNesting body) + 1
  | .group inner => inner.nesting + 1

/-- The most levels that one of the expressions has. -/
def Expr.eachNesting : List Expr → Nat
  | [] => 0
  | e :: es => max e.nesting (Expr.eachNesting es)

/-- How many levels a statement has, its own among them. -/
def Stmt.nesting : Stmt → Nat
  | ⟨form, _⟩ => form.nesting

def StmtForm.nesting : StmtForm → Nat
  | .expression e => e.nesting + 1
  | .varDecl _ _ _ type? (some value) =>
    max (TypeExpr.eachNesting type?.toList) value.nesting + 1
  | .varDecl _ _ _ type? none => TypeExpr.eachNesting type?.toList + 1
  | .classDecl _ _ parameters members =>
    max (Signature.headNesting parameters none + 1) (Stmt.eachNesting members)
  | .fnDecl _ _ ⟨parameters, result?, ⟨body, _⟩⟩ =>
    max (Signature.headNesting parameters result?) (Stmt.eachNesting body) + 1
  | .ret (some value) => value.nesting + 1
  | .ret none => 1
  | .block ⟨body, _⟩ => Stmt.eachNesting body + 1
  | .branch condition thenBody (some elseBody) =>
    max condition.nesting (max thenBody.nesting elseBody.nesting) + 1
  | .branch condition thenBody none => max condition.nesting thenBody.nesting + 1
  | .loop condition body => max condition.nesting body.nesting + 1
  | .print value => value.nesting + 1

/-- The most levels that one of the statements has. -/
def Stmt.eachNesting : List Stmt → Nat
  | [] => 0
  | s :: rest => max s.nesting (Stmt.eachNesting rest)

end

/-- How many levels a program has. -/
def Block.nesting (b : Block) : Nat :=
  Stmt.eachNesting b.body

mutual

/-- How many classes are around a member in the expression, at most. -/
def Expr.classDepth : Expr → Nat
  | ⟨form, _⟩ => form.classDepth

def ExprForm.classDepth : ExprForm → Nat
  | .number _ => 0
  | .text _ => 0
  | .bool _ => 0
  | .symbol _ => 0
  | .member owner _ _ => owner.classDepth
  | .assign target value => max target.classDepth value.classDepth
  | .binary left _ right => max left.classDepth right.classDepth
  | .unary _ operand => operand.classDepth
  | .call callee arguments => max callee.classDepth (Expr.eachClassDepth arguments)
  | .new _ arguments => Expr.eachClassDepth arguments
  | .lambda ⟨_, _, ⟨body, _⟩⟩ => Stmt.eachClassDepth body
  | .group inner => inner.classDepth

/-- The most classes around a member in one of the expressions. -/
def Expr.eachClassDepth : List Expr → Nat
  | [] => 0
  | e :: es => max e.classDepth (Expr.eachClassDepth es)

/-- How many classes are around a member in the statement, at most. -/
def Stmt.classDepth : Stmt → Nat
  | ⟨form, _⟩ => form.classDepth

def StmtForm.classDepth : StmtForm → Nat
  | .expression e => e.classDepth
  | .varDecl _ _ _ _ (some value) => value.classDepth
  | .varDecl _ _ _ _ none => 0
  | .classDecl _ _ _ members => Stmt.membersClassDepth members
  | .fnDecl _ _ ⟨_, _, ⟨body, _⟩⟩ => Stmt.eachClassDepth body
  | .ret (some value) => value.classDepth
  | .ret none => 0
  | .block ⟨body, _⟩ => Stmt.eachClassDepth body
  | .branch condition thenBody (some elseBody) =>
    max condition.classDepth (max thenBody.classDepth elseBody.classDepth)
  | .branch condition thenBody none => max condition.classDepth thenBody.classDepth
  | .loop condition body => max condition.classDepth body.classDepth
  | .print value => value.classDepth

/-- The most classes around a member in one of the statements. -/
def Stmt.eachClassDepth : List Stmt → Nat
  | [] => 0
  | s :: rest => max s.classDepth (Stmt.eachClassDepth rest)

/-- The most classes around a member when the statements are members of a class themselves. -/
def Stmt.membersClassDepth : List Stmt → Nat
  | [] => 0
  | s :: rest => max (s.classDepth + 1) (Stmt.membersClassDepth rest)

end

/-- How many classes are around a member of the program, at most. It is 0 when no class has
members. -/
def Block.classDepth (b : Block) : Nat :=
  Stmt.eachClassDepth b.body

variable {n : Nat}

@[simp] theorem TypeExpr.eachNesting_le {as : List TypeExpr} :
    TypeExpr.eachNesting as ≤ n ↔ ∀ a ∈ as, a.nesting ≤ n := by
  induction as with
  | nil => simp [eachNesting]
  | cons a as ih => simp [eachNesting, Nat.max_le, ih]

@[simp] theorem Expr.eachNesting_le {es : List Expr} :
    Expr.eachNesting es ≤ n ↔ ∀ e ∈ es, e.nesting ≤ n := by
  induction es with
  | nil => simp [eachNesting]
  | cons e es ih => simp [eachNesting, Nat.max_le, ih]

@[simp] theorem Stmt.eachNesting_le {stmts : List Stmt} :
    Stmt.eachNesting stmts ≤ n ↔ ∀ s ∈ stmts, s.nesting ≤ n := by
  induction stmts with
  | nil => simp [eachNesting]
  | cons s rest ih => simp [eachNesting, Nat.max_le, ih]

@[simp] theorem Signature.headNesting_le {parameters : List Parameter} {result? : Option TypeExpr} :
    headNesting parameters result? ≤ n ↔
      (∀ p ∈ parameters, p.type.nesting ≤ n) ∧ ∀ result ∈ result?, result.nesting ≤ n := by
  simp [headNesting, or_imp, forall_and]

theorem TypeExpr.nesting_pos (a : TypeExpr) : 0 < a.nesting := by
  cases a <;> simp [nesting]

theorem Expr.nesting_pos : (e : Expr) → 0 < e.nesting
  | ⟨.member owner _ _, _⟩ => owner.nesting_pos
  | ⟨.assign target _, _⟩ => Nat.lt_of_lt_of_le target.nesting_pos (Nat.le_max_left _ _)
  | ⟨.binary left _ _, _⟩ => Nat.lt_of_lt_of_le left.nesting_pos (Nat.le_max_left _ _)
  | ⟨.call callee _, _⟩ => Nat.lt_of_lt_of_le callee.nesting_pos (Nat.le_max_left _ _)
  | ⟨.number _, _⟩ => Nat.one_pos
  | ⟨.text _, _⟩ => Nat.one_pos
  | ⟨.bool _, _⟩ => Nat.one_pos
  | ⟨.symbol _, _⟩ => Nat.one_pos
  | ⟨.unary _ _, _⟩ => Nat.succ_pos _
  | ⟨.new _ _, _⟩ => Nat.succ_pos _
  | ⟨.lambda ⟨_, _, ⟨_, _⟩⟩, _⟩ => Nat.succ_pos _
  | ⟨.group _, _⟩ => Nat.succ_pos _

theorem Stmt.nesting_pos (s : Stmt) : 0 < s.nesting := by
  obtain ⟨form, span⟩ := s
  cases form with
  | classDecl =>
    simp only [nesting, StmtForm.nesting]
    omega
  | varDecl name nameSpan mode type? value? => cases value? <;> exact Nat.succ_pos _
  | ret value? => cases value? <;> exact Nat.succ_pos _
  | branch condition thenBody elseBody? => cases elseBody? <;> exact Nat.succ_pos _
  | fnDecl name nameSpan signature =>
    obtain ⟨parameters, result?, ⟨body, bodySpan⟩⟩ := signature
    exact Nat.succ_pos _
  | block b =>
    obtain ⟨body, bodySpan⟩ := b
    exact Nat.succ_pos _
  | _ => exact Nat.succ_pos _

namespace StmtForm

/-- The levels of a variable declaration, with or without a value. -/
@[simp] theorem nesting_varDecl_le {name : String} {nameSpan : Span} {mode : Mode}
    {type? : Option TypeExpr} {value? : Option Expr} :
    (varDecl name nameSpan mode type? value?).nesting ≤ n + 1 ↔
      (∀ type ∈ type?, type.nesting ≤ n) ∧ ∀ value ∈ value?, value.nesting ≤ n := by
  cases value? <;> simp [nesting, Nat.max_le]

@[simp] theorem nesting_ret_le {value? : Option Expr} :
    (ret value?).nesting ≤ n + 1 ↔ ∀ value ∈ value?, value.nesting ≤ n := by
  cases value? <;> simp [nesting]

/-- The levels of a branch, with or without an `else`. -/
@[simp] theorem nesting_branch_le {condition : Expr} {thenBody : Stmt} {elseBody? : Option Stmt} :
    (branch condition thenBody elseBody?).nesting ≤ n + 1 ↔
      condition.nesting ≤ n ∧ thenBody.nesting ≤ n ∧
        ∀ elseBody ∈ elseBody?, elseBody.nesting ≤ n := by
  cases elseBody? <;> simp [nesting, Nat.max_le]

end StmtForm

end Nominal
