import Nominal.Proofs.Syntax.Complete.Statements
import Nominal.Proofs.Syntax.Parsed
import Nominal.Proofs.Syntax.Printed

/-!
# Printed programs are read back

A program that respects the precedence table and can be read back is parsed from any of its
spellings, under any limit that has room for it, and nothing but places gets lost
(`parse_complete`). Together with `parse_spelling` this makes printing and parsing inverse to each
other.
-/

namespace Nominal

open Parse Piece

/-- The rule for programs reads a program up to the end token. -/
theorem Grammar.program_complete {program : Block} {limit : Nat} {s : TokenStream} {last : Token}
    (hregular : program.Regular) (hlegible : program.Legible) (hnesting : program.nesting ≤ limit)
    (hlast : last.kind = .eof) (hall : Through program.pieces s.remaining [last]) :
    (standard.program limit).Succeeds s fun parsed _ => parsed.bare = program.bare := by
  have hregular := Stmt.allRegular_iff.1 hregular
  have hitem : ∀ stmt ∈ program.body, (standard.stmtIn limit limit).Recovers stmt.pieces
      (· ≠ .kwElse) fun b => b.bare = stmt.bare := by
    intro stmt hmem s rest hall hfollow
    exact (inner_complete limit limit).stmt stmt (hregular stmt hmem)
      (Stmt.allLegible_iff.1 hlegible stmt hmem) (Stmt.eachNesting_le.1 hnesting stmt hmem) s rest
      hall fun _ => hfollow
  have hopen : ∀ stmt ∈ program.body, ∀ all rest, Through stmt.pieces all rest →
      (Token.firstKind all == .eof) = false ∧ Token.firstKind all ≠ .kwElse := by
    intro stmt hmem all rest hall
    have hkind := Inner.firstKind_stmt (hregular stmt hmem) hall
    simp only [List.mem_cons, List.not_mem_nil, or_false, not_or] at hkind
    simp [hkind]
  have hend : Token.firstKind [last] = .eof := hlast
  rw [Block.pieces, Stmt.eachPieces_eq] at hall
  simp only [Grammar.program, succeeds_bind, succeeds_position, succeeds_pure]
  refine (succeeds_repeatUntil hitem hopen Stmt.pieces_required hall (by simp [hend])
    (by simp [hend])).mono ?_
  rintro body t ⟨-, hbody⟩
  simp [Block.bare, hbody]

/-- A program that respects the precedence table and is legible can be written, and from whatever
tokens it is written with it is parsed back, up to places, under any limit that has room for it. -/
theorem parse_complete {program : Block} {limit : Nat} (hregular : program.Regular)
    (hlegible : program.Legible) (hnesting : program.nesting ≤ limit) :
    Piece.Spelling program.pieces program.printed ∧
    ∀ (tokens : List Token) (last : Token) (file : String),
      Piece.Spelling program.pieces tokens → last.kind = .eof →
      ∃ parsed, parse (tokens ++ [last]) file limit = .ok parsed ∧ parsed.bare = program.bare := by
  refine ⟨program.spelling_printed hlegible, fun tokens last file hspelling hlast => ?_⟩
  have hall : Through program.pieces
      (TokenStream.ofTokens file (tokens ++ [last])).remaining [last] :=
    ⟨by simp, tokens, hspelling, TokenStream.remaining_ofTokens_append file tokens hlast⟩
  obtain ⟨parsed, t, hrun, hbare⟩ :=
    (Grammar.program_complete hregular hlegible hnesting hlast hall).exists_ok
  exact ⟨parsed, by rw [parse, hrun], hbare⟩

/-- `if a { x = -2 * f(1); } else while b fun () { }();`, with the word `else` after a block and a
lambda that is called at once. -/
def tangledProgram : Block :=
  let operator kind value : Token := ⟨kind, value, .nowhere⟩
  let expr form : Expr := ⟨form, .nowhere⟩
  let stmt form : Stmt := ⟨form, .nowhere⟩
  let symbol name := expr (.symbol name)
  let product := expr (.binary (expr (.unary (operator .dash "-") (expr (.number 2))))
    (operator .star "*") (expr (.call (symbol "f") [expr (.number 1)])))
  let assignment := stmt (.expression (expr (.assign (symbol "x") product)))
  let thenBody := stmt (.block ⟨[assignment], .nowhere⟩)
  let lambda := expr (.lambda ⟨[], none, ⟨[], .nowhere⟩⟩)
  let elseBody := stmt (.loop (symbol "b") (stmt (.expression (expr (.call lambda [])))))
  ⟨[stmt (.branch (symbol "a") thenBody (some elseBody))], .nowhere⟩

theorem parse_complete_tangledProgram :
    tangledProgram.Regular ∧ tangledProgram.Legible ∧ tangledProgram.nesting ≤ 7 ∧
    Piece.Spelling tangledProgram.pieces tangledProgram.printed ∧
    ∀ (tokens : List Token) (last : Token) (file : String),
      Piece.Spelling tangledProgram.pieces tokens → last.kind = .eof →
      ∃ parsed, parse (tokens ++ [last]) file 7 = .ok parsed ∧
        parsed.bare = tangledProgram.bare := by
  have hregular : tangledProgram.Regular := by
    simp [tangledProgram, Block.Regular, Stmt.Regular, StmtForm.Regular, Expr.Regular,
      ExprForm.Regular, Expr.IsTight, Expr.isUnary, Expr.power?, Expr.isAssignable,
      Grammar.standard]
  have hlegible : tangledProgram.Legible := by
    simp [tangledProgram, Block.Legible, Stmt.Legible, StmtForm.Legible, Expr.Legible,
      ExprForm.Legible, Stmt.endsOpen, StmtForm.endsOpen, Stmt.continuesExpr, Stmt.pieces,
      StmtForm.pieces, Expr.pieces, ExprForm.pieces, braced, Piece.kind?, maxNumber]
  have hnesting : tangledProgram.nesting ≤ 7 := by decide
  exact ⟨hregular, hlegible, hnesting, parse_complete hregular hlegible hnesting⟩

end Nominal
