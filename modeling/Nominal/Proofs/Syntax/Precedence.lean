import Nominal.Syntax.Grammar
import Nominal.Syntax.Tree

/-!
# Trees that respect the precedence table

`Stmt.Regular` says that every node of a tree nests as the powers in the table of the grammar ask,
so that the tree needs no parentheses beyond the ones it has. It also says what the table does not:
assignments have a place on their left, and classes hold declarations.
-/

namespace Nominal

namespace BindingPower

theorem lt_iff {a b : BindingPower} : a < b ↔ a.rank < b.rank :=
  Iff.rfl

end BindingPower

namespace Expr

/-- The power of the operator at the root of an expression, if there is one between two
expressions. Parentheses make a root of their own. -/
def power? (e : Expr) : Option BindingPower :=
  match e.form with
  | .assign _ _ => some .assignment
  | .binary _ operator _ => some (Grammar.standard.power operator.kind)
  | _ => none

/-- Whether the root of the expression is an operator before its operand. -/
def isUnary (e : Expr) : Bool :=
  match e.form with
  | .unary _ _ => true
  | _ => false

/-- Whether the root of the expression is no operator at all. -/
def IsTight (e : Expr) : Prop :=
  e.power? = none ∧ e.isUnary = false

end Expr

mutual

/-- Whether every node of an expression nests as it should. -/
def Expr.Regular : Expr → Prop
  | ⟨form, _⟩ => form.Regular

def ExprForm.Regular : ExprForm → Prop
  | .number _ => True
  | .text _ => True
  | .bool _ => True
  | .symbol _ => True
  | .member owner _ _ => owner.Regular ∧ owner.IsTight
  | .assign target value => target.Regular ∧ value.Regular ∧ target.isAssignable
  | .binary left operator right =>
    left.Regular ∧ right.Regular ∧
      ∃ p, Grammar.standard.led operator.kind = some (p, .binary) ∧
        (∀ q ∈ left.power?, ¬ q < p) ∧ ∀ q ∈ right.power?, p < q
  | .unary operator operand =>
    operand.Regular ∧ Grammar.standard.nud operator.kind = some .unary ∧ operand.power? = none
  | .call callee arguments => callee.Regular ∧ callee.IsTight ∧ Expr.AllRegular arguments
  | .new _ arguments => Expr.AllRegular arguments
  | .lambda ⟨_, _, ⟨body, _⟩⟩ => Stmt.AllRegular body
  | .group inner => inner.Regular

def Expr.AllRegular : List Expr → Prop
  | [] => True
  | e :: es => e.Regular ∧ Expr.AllRegular es

/-- Whether every node of a statement nests as it should. -/
def Stmt.Regular : Stmt → Prop
  | ⟨form, _⟩ => form.Regular

def StmtForm.Regular : StmtForm → Prop
  | .expression e => e.Regular
  | .varDecl _ _ _ _ (some value) => value.Regular
  | .varDecl _ _ _ _ none => True
  | .classDecl _ _ _ members =>
    Stmt.AllRegular members ∧ ∀ m ∈ members, m.memberName?.isSome
  | .fnDecl _ _ ⟨_, _, ⟨body, _⟩⟩ => Stmt.AllRegular body
  | .ret (some value) => value.Regular
  | .ret none => True
  | .block ⟨body, _⟩ => Stmt.AllRegular body
  | .branch condition thenBody (some elseBody) =>
    condition.Regular ∧ thenBody.Regular ∧ elseBody.Regular
  | .branch condition thenBody none => condition.Regular ∧ thenBody.Regular
  | .loop condition body => condition.Regular ∧ body.Regular
  | .print value => value.Regular

def Stmt.AllRegular : List Stmt → Prop
  | [] => True
  | s :: rest => s.Regular ∧ Stmt.AllRegular rest

end

/-- Whether every node of a program nests as it should. -/
def Block.Regular (b : Block) : Prop :=
  Stmt.AllRegular b.body

@[simp] theorem Expr.allRegular_iff {es : List Expr} :
    Expr.AllRegular es ↔ ∀ e ∈ es, e.Regular := by
  induction es with
  | nil => simp [AllRegular]
  | cons e es ih => simp [AllRegular, ih]

@[simp] theorem Stmt.allRegular_iff {stmts : List Stmt} :
    Stmt.AllRegular stmts ↔ ∀ s ∈ stmts, s.Regular := by
  induction stmts with
  | nil => simp [AllRegular]
  | cons s rest ih => simp [AllRegular, ih]

namespace Grammar

/-- An operator between two expressions binds less tightly than one before an operand. -/
theorem standard_binary_lt_unary {kind : Kind} {p : BindingPower}
    (h : standard.led kind = some (p, .binary)) : p < .unary := by
  cases kind <;> simp_all [standard] <;> subst_vars <;> decide

end Grammar

end Nominal
