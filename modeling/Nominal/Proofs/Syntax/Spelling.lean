import Nominal.Syntax.Tree

/-!
# Trees as tokens

`Block.pieces` prints a tree: it lists, from left to right, what the tree asks of the tokens it is
written with. Most pieces ask for one certain token. Where a program can be written in two ways that
give the same tree, the piece leaves the choice open: `val` before a parameter, `:` or `->` before a
result type, `()` after the name of a class, and leading zeros of a number. `Piece.Spelling` says
which tokens are a choice for a list of pieces.
-/

namespace Nominal

/-- What a printed tree asks of the tokens at one place. -/
inductive Piece where
  /-- A mark or a reserved word. -/
  | mark (kind : Kind)
  /-- A token of a certain kind and value. -/
  | token (kind : Kind) (value : String)
  /-- A number literal of a certain value. -/
  | number (value : Int)
  /-- The colon or the arrow before a result type. -/
  | resultMark
  /-- The word `val` before a parameter, or nothing. -/
  | optionalVal
  /-- An empty pair of parentheses, or nothing. -/
  | optionalParens

namespace Piece

/-- The largest value of a number literal, the largest word of 32 bits. -/
def maxNumber : Nat :=
  2147483647

/-- The tokens that one piece can be written with. -/
inductive Spells : Piece → List Token → Prop
  | mark {t : Token} {kind : Kind} (hkind : t.kind = kind)
    (hvalue : (t.value, kind) ∈ Kind.marks ++ Kind.reserved) : Spells (.mark kind) [t]
  | token {t : Token} {kind : Kind} {value : String} (hkind : t.kind = kind)
    (hvalue : t.value = value) : Spells (.token kind value) [t]
  | number {t : Token} {n : Nat} (hkind : t.kind = .number)
    (hvalue : Nat.ofDigitChars 10 t.value.toList 0 = n)
    (hzeros : ∃ zeros, t.value.toList = List.replicate zeros '0' ++ Nat.toDigits 10 n)
    (hmax : n ≤ maxNumber) : Spells (.number n) [t]
  | colon {t : Token} (ht : Spells (.mark .colon) [t]) : Spells .resultMark [t]
  | arrow {t : Token} (ht : Spells (.mark .arrow) [t]) : Spells .resultMark [t]
  | noVal : Spells .optionalVal []
  | val {t : Token} (ht : Spells (.mark .kwVal) [t]) : Spells .optionalVal [t]
  | noParens : Spells .optionalParens []
  | parens {t u : Token} (ht : Spells (.mark .openParen) [t])
    (hu : Spells (.mark .closeParen) [u]) : Spells .optionalParens [t, u]

/-- The tokens that pieces can be written with, one piece after the other. -/
inductive Spelling : List Piece → List Token → Prop
  | nil : Spelling [] []
  | cons {p : Piece} {ps : List Piece} {ts us : List Token} (hp : p.Spells ts)
    (hps : Spelling ps us) : Spelling (p :: ps) (ts ++ us)

/-- Whether a piece can not be left out. -/
def isRequired : Piece → Bool
  | optionalVal => false
  | optionalParens => false
  | _ => true

variable {p : Piece} {ps qs : List Piece} {ts us : List Token}

theorem Spelling.single (h : p.Spells ts) : Spelling [p] ts := by
  simpa using Spelling.cons h .nil

theorem Spelling.append (h : Spelling ps ts) (h' : Spelling qs us) :
    Spelling (ps ++ qs) (ts ++ us) := by
  induction h with
  | nil => exact h'
  | cons hp _ ih =>
    rw [List.append_assoc]
    exact .cons hp ih

theorem Spells.eq_singleton {kind : Kind} (h : (Piece.mark kind).Spells ts) : ∃ t, ts = [t] := by
  cases h
  exact ⟨_, rfl⟩

theorem Spells.ne_nil (h : p.Spells ts) (hp : p.isRequired) : ts ≠ [] := by
  cases h with
  | noVal => cases hp
  | noParens => cases hp
  | _ => simp

/-- Pieces of which one is required are written with at least one token. -/
theorem Spelling.ne_nil (h : Spelling ps ts) (hps : ps.any isRequired) : ts ≠ [] := by
  induction h with
  | nil => cases hps
  | cons hp _ ih =>
    rw [List.any_cons, Bool.or_eq_true] at hps
    obtain hreq | hreq := hps
    · simp [hp.ne_nil hreq]
    · simp [ih hreq]

end Piece

/-! ## Printing -/

namespace Piece

/-- Items between parentheses with commas between them. -/
def parenthesised (items : List (List Piece)) : List Piece :=
  mark .openParen :: List.intercalate [mark .comma] items ++ [mark .closeParen]

/-- Statements between braces. -/
def braced (statements : List (List Piece)) : List Piece :=
  mark .openCurly :: statements.flatten ++ [mark .closeCurly]

/-- A piece and what follows it, if there is something to follow. -/
def after (kind : Kind) : Option (List Piece) → List Piece
  | some ps => mark kind :: ps
  | none => []

end Piece

open Piece

/-- The word that declares in the given mode. -/
def Mode.keyword : Mode → Kind
  | .val => .kwVal
  | .var => .kwVar

mutual

/-- A type, printed. -/
def TypeExpr.pieces : TypeExpr → List Piece
  | .named name _ => [.token .identifier name]
  | .function parameters result _ =>
    .token .identifier "Function" :: parenthesised (TypeExpr.eachPieces parameters) ++
      mark .arrow :: result.pieces

def TypeExpr.eachPieces : List TypeExpr → List (List Piece)
  | [] => []
  | a :: as => a.pieces :: TypeExpr.eachPieces as

end

/-- A parameter, printed. -/
def Parameter.pieces (p : Parameter) : List Piece :=
  (if p.mode = .var then mark .kwVar else optionalVal) ::
    .token .identifier p.name :: mark .colon :: p.type.pieces

/-- The parameters of a class, printed. Without any, the parentheses can be left out. -/
def Parameter.classPieces : List Parameter → List Piece
  | [] => [optionalParens]
  | p :: ps => parenthesised ((p :: ps).map Parameter.pieces)

/-- What follows `fun` and a name, given the printed statements of the body. -/
def Signature.piecesWith (parameters : List Parameter) (result? : Option TypeExpr)
    (body : List (List Piece)) : List Piece :=
  parenthesised (parameters.map Parameter.pieces) ++
    (result?.elim [] fun result => resultMark :: result.pieces) ++ braced body

mutual

/-- An expression, printed. -/
def Expr.pieces : Expr → List Piece
  | ⟨form, _⟩ => form.pieces

def ExprForm.pieces : ExprForm → List Piece
  | .number value => [.number value]
  | .text value => [.token .string value]
  | .bool value => [mark (if value then .kwTrue else .kwFalse)]
  | .symbol name => [.token .identifier name]
  | .member owner name _ => owner.pieces ++ [mark .dot, .token .identifier name]
  | .assign target value => target.pieces ++ mark .assignment :: value.pieces
  | .binary left operator right =>
    left.pieces ++ .token operator.kind operator.value :: right.pieces
  | .unary operator operand => .token operator.kind operator.value :: operand.pieces
  | .call callee arguments => callee.pieces ++ parenthesised (Expr.eachPieces arguments)
  | .new className arguments =>
    mark .kwNew :: .token .identifier className :: parenthesised (Expr.eachPieces arguments)
  | .lambda ⟨parameters, result?, ⟨body, _⟩⟩ =>
    mark .kwFun :: Signature.piecesWith parameters result? (Stmt.eachPieces body)
  | .group inner => mark .openParen :: inner.pieces ++ [mark .closeParen]

def Expr.eachPieces : List Expr → List (List Piece)
  | [] => []
  | e :: es => e.pieces :: Expr.eachPieces es

/-- A statement, printed. -/
def Stmt.pieces : Stmt → List Piece
  | ⟨form, _⟩ => form.pieces

def StmtForm.pieces : StmtForm → List Piece
  | .expression e => e.pieces ++ [mark .semicolon]
  | .varDecl name _ mode type? (some value) =>
    mark mode.keyword :: .token .identifier name ::
      (after .colon (type?.map TypeExpr.pieces) ++ mark .assignment :: value.pieces ++
        [mark .semicolon])
  | .varDecl name _ mode type? none =>
    mark mode.keyword :: .token .identifier name ::
      (after .colon (type?.map TypeExpr.pieces) ++ [mark .semicolon])
  | .classDecl name _ parameters members =>
    mark .kwClass :: .token .identifier name ::
      (Parameter.classPieces parameters ++ braced (Stmt.eachPieces members))
  | .fnDecl name _ ⟨parameters, result?, ⟨body, _⟩⟩ =>
    mark .kwFun :: .token .identifier name ::
      Signature.piecesWith parameters result? (Stmt.eachPieces body)
  | .ret (some value) => mark .kwReturn :: value.pieces ++ [mark .semicolon]
  | .ret none => [mark .kwReturn, mark .semicolon]
  | .block ⟨body, _⟩ => braced (Stmt.eachPieces body)
  | .branch condition thenBody (some elseBody) =>
    mark .kwIf :: condition.pieces ++ thenBody.pieces ++ mark .kwElse :: elseBody.pieces
  | .branch condition thenBody none => mark .kwIf :: condition.pieces ++ thenBody.pieces
  | .loop condition body => mark .kwWhile :: condition.pieces ++ body.pieces
  | .print value => mark .kwPrint :: value.pieces ++ [mark .semicolon]

def Stmt.eachPieces : List Stmt → List (List Piece)
  | [] => []
  | s :: rest => s.pieces :: Stmt.eachPieces rest

end

/-- A program, printed. -/
def Block.pieces (b : Block) : List Piece :=
  (Stmt.eachPieces b.body).flatten

@[simp] theorem TypeExpr.eachPieces_eq (as : List TypeExpr) :
    TypeExpr.eachPieces as = as.map TypeExpr.pieces := by
  induction as with
  | nil => rfl
  | cons a as ih => simp [eachPieces, ih]

@[simp] theorem Expr.eachPieces_eq (es : List Expr) : Expr.eachPieces es = es.map Expr.pieces := by
  induction es with
  | nil => rfl
  | cons e es ih => simp [eachPieces, ih]

@[simp] theorem Stmt.eachPieces_eq (stmts : List Stmt) :
    Stmt.eachPieces stmts = stmts.map Stmt.pieces := by
  induction stmts with
  | nil => rfl
  | cons s rest ih => simp [eachPieces, ih]

/-! ## Parts that can be left out -/

namespace StmtForm

/-- The parts of a variable declaration in one line, with or without a value. -/
theorem pieces_varDecl (name : String) (nameSpan : Span) (mode : Mode) (type? : Option TypeExpr)
    (value? : Option Expr) :
    (varDecl name nameSpan mode type? value?).pieces =
      [mark mode.keyword, .token .identifier name] ++ after .colon (type?.map TypeExpr.pieces) ++
        after .assignment (value?.map Expr.pieces) ++ [mark .semicolon] := by
  cases value? <;> simp [pieces, after]

/-- The parts of a branch in one line, with or without an `else`. -/
theorem pieces_branch (condition : Expr) (thenBody : Stmt) (elseBody? : Option Stmt) :
    (branch condition thenBody elseBody?).pieces =
      [mark .kwIf] ++ condition.pieces ++ thenBody.pieces ++
        after .kwElse (elseBody?.map Stmt.pieces) := by
  cases elseBody? <;> simp [pieces, after]

end StmtForm

/-- The parentheses around no parameters are ones that could be left out. -/
theorem Parameter.spelling_classPieces {parameters : List Parameter} {ts : List Token}
    (h : Spelling (parenthesised (parameters.map Parameter.pieces)) ts) :
    Spelling (Parameter.classPieces parameters) ts := by
  cases parameters with
  | nil =>
    have hpair : Spelling [mark .openParen, mark .closeParen] ts := h
    cases hpair with
    | cons hopen hrest =>
      cases hrest with
      | cons hclose hnil =>
        cases hnil
        obtain ⟨t, rfl⟩ := hopen.eq_singleton
        obtain ⟨u, rfl⟩ := hclose.eq_singleton
        exact .single (.parens hopen hclose)
  | cons p ps => exact h

/-- A statement is written with at least one token. -/
theorem Stmt.pieces_required (s : Stmt) : s.pieces.any isRequired := by
  obtain ⟨form, span⟩ := s
  cases form with
  | varDecl => simp [Stmt.pieces, StmtForm.pieces_varDecl, isRequired]
  | branch => simp [Stmt.pieces, StmtForm.pieces_branch, isRequired]
  | ret value? => cases value? <;> simp [Stmt.pieces, StmtForm.pieces, isRequired]
  | fnDecl name nameSpan signature =>
    obtain ⟨parameters, result?, ⟨body, bodySpan⟩⟩ := signature
    simp [Stmt.pieces, StmtForm.pieces, isRequired]
  | block body =>
    obtain ⟨body, span⟩ := body
    simp [Stmt.pieces, StmtForm.pieces, braced, isRequired]
  | _ => simp [Stmt.pieces, StmtForm.pieces, braced, isRequired]

end Nominal
