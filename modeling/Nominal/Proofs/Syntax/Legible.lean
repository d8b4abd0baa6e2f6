import Nominal.Proofs.Syntax.Precedence
import Nominal.Proofs.Syntax.Spelling

/-!
# Programs that can be read back

A printed program can say something else than its tree. An `else` belongs to the nearest `if`, so no
body before an `else` may end in an `if` without one. A condition goes on as long as it can, so no
body after it may start with a mark that continues an expression. And the value of a number literal
is a 31-bit word. `Block.Legible` says that none of this happens.
-/

namespace Nominal

open Piece

/-- The kind of the token that the piece is written with, if it leaves no choice. -/
def Piece.kind? : Piece → Option Kind
  | mark kind => some kind
  | token kind _ => some kind
  | number _ => some .number
  | resultMark => none
  | optionalVal => none
  | optionalParens => none

/-- Whether the statement starts with `(` or `-`, which continue an expression before it. -/
def Stmt.continuesExpr (s : Stmt) : Bool :=
  [some .openParen, some .dash].contains (s.pieces.head?.bind Piece.kind?)

mutual

/-- Whether the statement ends in an `if` that an `else` after it would belong to. -/
def Stmt.endsOpen : Stmt → Bool
  | ⟨form, _⟩ => form.endsOpen

def StmtForm.endsOpen : StmtForm → Bool
  | .branch _ _ none => true
  | .branch _ _ (some elseBody) => elseBody.endsOpen
  | .loop _ body => body.endsOpen
  | _ => false

end

mutual

/-- Whether every node of an expression can be read back. -/
def Expr.Legible : Expr → Prop
  | ⟨form, _⟩ => form.Legible

def ExprForm.Legible : ExprForm → Prop
  | .number value => 0 ≤ value ∧ value ≤ maxNumber
  | .text _ => True
  | .bool _ => True
  | .symbol _ => True
  | .member owner _ _ => owner.Legible
  | .assign target value => target.Legible ∧ value.Legible
  | .binary left _ right => left.Legible ∧ right.Legible
  | .unary _ operand => operand.Legible
  | .call callee arguments => callee.Legible ∧ Expr.AllLegible arguments
  | .new _ arguments => Expr.AllLegible arguments
  | .lambda ⟨_, _, ⟨body, _⟩⟩ => Stmt.AllLegible body
  | .group inner => inner.Legible

def Expr.AllLegible : List Expr → Prop
  | [] => True
  | e :: es => e.Legible ∧ Expr.AllLegible es

/-- Whether every node of a statement can be read back. -/
def Stmt.Legible : Stmt → Prop
  | ⟨form, _⟩ => form.Legible

def StmtForm.Legible : StmtForm → Prop
  | .expression e => e.Legible
  | .varDecl _ _ _ _ (some value) => value.Legible
  | .varDecl _ _ _ _ none => True
  | .classDecl _ _ _ members => Stmt.AllLegible members
  | .fnDecl _ _ ⟨_, _, ⟨body, _⟩⟩ => Stmt.AllLegible body
  | .ret (some value) => value.Legible
  | .ret none => True
  | .block ⟨body, _⟩ => Stmt.AllLegible body
  | .branch condition thenBody (some elseBody) =>
    condition.Legible ∧ thenBody.Legible ∧ elseBody.Legible ∧
      thenBody.continuesExpr = false ∧ thenBody.endsOpen = false
  | .branch condition thenBody none =>
    condition.Legible ∧ thenBody.Legible ∧ thenBody.continuesExpr = false
  | .loop condition body => condition.Legible ∧ body.Legible ∧ body.continuesExpr = false
  | .print value => value.Legible

def Stmt.AllLegible : List Stmt → Prop
  | [] => True
  | s :: rest => s.Legible ∧ Stmt.AllLegible rest

end

/-- Whether every node of a program can be read back. -/
def Block.Legible (b : Block) : Prop :=
  Stmt.AllLegible b.body

@[simp] theorem Expr.allLegible_iff {es : List Expr} :
    Expr.AllLegible es ↔ ∀ e ∈ es, e.Legible := by
  induction es with
  | nil => simp [AllLegible]
  | cons e es ih => simp [AllLegible, ih]

@[simp] theorem Stmt.allLegible_iff {stmts : List Stmt} :
    Stmt.AllLegible stmts ↔ ∀ s ∈ stmts, s.Legible := by
  induction stmts with
  | nil => simp [AllLegible]
  | cons s rest ih => simp [AllLegible, ih]

/-! ## Parts that can be left out -/

namespace StmtForm

theorem regular_varDecl {name : String} {nameSpan : Span} {mode : Mode} {type? : Option TypeExpr}
    {value? : Option Expr} : (varDecl name nameSpan mode type? value?).Regular ↔
      ∀ value ∈ value?, value.Regular := by
  cases value? <;> simp [Regular]

theorem legible_varDecl {name : String} {nameSpan : Span} {mode : Mode} {type? : Option TypeExpr}
    {value? : Option Expr} : (varDecl name nameSpan mode type? value?).Legible ↔
      ∀ value ∈ value?, value.Legible := by
  cases value? <;> simp [Legible]

theorem regular_ret {value? : Option Expr} :
    (ret value?).Regular ↔ ∀ value ∈ value?, value.Regular := by
  cases value? <;> simp [Regular]

theorem legible_ret {value? : Option Expr} :
    (ret value?).Legible ↔ ∀ value ∈ value?, value.Legible := by
  cases value? <;> simp [Legible]

theorem regular_branch {condition : Expr} {thenBody : Stmt} {elseBody? : Option Stmt} :
    (branch condition thenBody elseBody?).Regular ↔
      condition.Regular ∧ thenBody.Regular ∧ ∀ elseBody ∈ elseBody?, elseBody.Regular := by
  cases elseBody? <;> simp [Regular]

theorem legible_branch {condition : Expr} {thenBody : Stmt} {elseBody? : Option Stmt} :
    (branch condition thenBody elseBody?).Legible ↔
      condition.Legible ∧ thenBody.Legible ∧ thenBody.continuesExpr = false ∧
        ∀ elseBody ∈ elseBody?, elseBody.Legible ∧ thenBody.endsOpen = false := by
  cases elseBody? <;> simp [Legible, and_left_comm]

end StmtForm

/-! ## What trees begin with -/

namespace Piece

/-- The pieces begin as an expression does, and `fun` only as a lambda does. -/
def OpensExpr (ps : List Piece) : Prop :=
  ∃ first more kind, ps = first :: more ∧ first.kind? = some kind ∧
    (Grammar.standard.nud kind).isSome ∧
    (kind = .kwFun → ∃ others, more = mark .openParen :: others)

/-- The pieces begin as a statement does. -/
def OpensStmt (ps : List Piece) : Prop :=
  ∃ first more kind, ps = first :: more ∧ first.kind? = some kind ∧
    ((Grammar.standard.nud kind).isSome ∨ (Grammar.standard.stmt kind).isSome)

variable {ps : List Piece}

theorem OpensExpr.append (h : OpensExpr ps) (qs : List Piece) : OpensExpr (ps ++ qs) := by
  obtain ⟨first, more, kind, rfl, hkind, hnud, hfun⟩ := h
  refine ⟨first, more ++ qs, kind, rfl, hkind, hnud, fun hk => ?_⟩
  obtain ⟨others, rfl⟩ := hfun hk
  exact ⟨others ++ qs, rfl⟩

theorem OpensExpr.opensStmt (h : OpensExpr ps) : OpensStmt ps := by
  obtain ⟨first, more, kind, rfl, hkind, hnud, -⟩ := h
  exact ⟨first, more, kind, rfl, hkind, .inl hnud⟩

end Piece

/-- An expression begins with what begins its leftmost part. -/
theorem Expr.opens : (e : Expr) → e.Regular → OpensExpr e.pieces
  | ⟨.number _, _⟩, _ => ⟨_, _, _, rfl, rfl, rfl, nofun⟩
  | ⟨.text _, _⟩, _ => ⟨_, _, _, rfl, rfl, rfl, nofun⟩
  | ⟨.bool true, _⟩, _ => ⟨_, _, _, rfl, rfl, rfl, nofun⟩
  | ⟨.bool false, _⟩, _ => ⟨_, _, _, rfl, rfl, rfl, nofun⟩
  | ⟨.symbol _, _⟩, _ => ⟨_, _, _, rfl, rfl, rfl, nofun⟩
  | ⟨.member owner _ _, _⟩, h => (owner.opens h.1).append _
  | ⟨.assign target _, _⟩, h => (target.opens h.1).append _
  | ⟨.binary left _ _, _⟩, h => (left.opens h.1).append _
  | ⟨.unary operator _, _⟩, h => by
    refine ⟨_, _, _, rfl, rfl, by rw [h.2.1]; rfl, fun hk => ?_⟩
    have hnud := h.2.1
    rw [hk] at hnud
    cases hnud
  | ⟨.call callee _, _⟩, h => (callee.opens h.1).append _
  | ⟨.new _ _, _⟩, _ => ⟨_, _, _, rfl, rfl, rfl, nofun⟩
  | ⟨.lambda ⟨_, _, ⟨_, _⟩⟩, _⟩, _ => ⟨_, _, _, rfl, rfl, rfl, fun _ => ⟨_, rfl⟩⟩
  | ⟨.group _, _⟩, _ => ⟨_, _, _, rfl, rfl, rfl, nofun⟩

theorem Stmt.opens (s : Stmt) (h : s.Regular) : OpensStmt s.pieces := by
  obtain ⟨form, span⟩ := s
  cases form with
  | expression e => exact ((e.opens h).append _).opensStmt
  | varDecl name nameSpan mode type? value? =>
    rw [Stmt.pieces, StmtForm.pieces_varDecl]
    cases mode with
    | val => exact ⟨_, _, _, rfl, rfl, .inr rfl⟩
    | var => exact ⟨_, _, _, rfl, rfl, .inr rfl⟩
  | classDecl => exact ⟨_, _, _, rfl, rfl, .inr rfl⟩
  | fnDecl name nameSpan signature =>
    obtain ⟨parameters, result?, ⟨body, bodySpan⟩⟩ := signature
    exact ⟨_, _, _, rfl, rfl, .inr rfl⟩
  | ret value? =>
    cases value? with
    | none => exact ⟨_, _, _, rfl, rfl, .inr rfl⟩
    | some value => exact ⟨_, _, _, rfl, rfl, .inr rfl⟩
  | block b =>
    obtain ⟨body, bodySpan⟩ := b
    exact ⟨_, _, _, rfl, rfl, .inr rfl⟩
  | branch condition thenBody elseBody? =>
    rw [Stmt.pieces, StmtForm.pieces_branch]
    exact ⟨_, _, _, rfl, rfl, .inr rfl⟩
  | loop => exact ⟨_, _, _, rfl, rfl, .inr rfl⟩
  | print => exact ⟨_, _, _, rfl, rfl, .inr rfl⟩

end Nominal
