import Nominal.Proofs.Syntax.Parsed
import Nominal.Proofs.Ty.Reading

/-!
# Classes in parsed programs

In a program that was parsed, the name of a class is a word of its source, so it holds none of the
marks that the names of function types are spelled with, and the members of a class are variables
and functions (`Block.IsParsed.tidy`). Nothing keeps these promises for trees that were made in
another way.
-/

namespace Nominal

/-! ## Tidy trees -/

mutual

/-- Classes that are declared in the expression have plain names, and their members are variables
and functions. -/
def Expr.Tidy : Expr → Prop
  | ⟨form, _⟩ => form.Tidy

def ExprForm.Tidy : ExprForm → Prop
  | .number _ => True
  | .text _ => True
  | .bool _ => True
  | .symbol _ => True
  | .member owner _ _ => owner.Tidy
  | .assign target value => target.Tidy ∧ value.Tidy
  | .binary left _ right => left.Tidy ∧ right.Tidy
  | .unary _ operand => operand.Tidy
  | .call callee arguments => callee.Tidy ∧ Expr.AllTidy arguments
  | .new _ arguments => Expr.AllTidy arguments
  | .lambda ⟨_, _, ⟨body, _⟩⟩ => Stmt.AllTidy body
  | .group inner => inner.Tidy

def Expr.AllTidy : List Expr → Prop
  | [] => True
  | e :: es => e.Tidy ∧ Expr.AllTidy es

/-- Classes that are declared in the statement have plain names, and their members are variables and
functions. -/
def Stmt.Tidy : Stmt → Prop
  | ⟨form, _⟩ => form.Tidy

def StmtForm.Tidy : StmtForm → Prop
  | .expression e => e.Tidy
  | .varDecl _ _ _ _ (some value) => value.Tidy
  | .varDecl _ _ _ _ none => True
  | .classDecl name _ _ members =>
    Ty.IsPlain name ∧ Stmt.AllTidy members ∧ ∀ m ∈ members, m.memberName?.isSome
  | .fnDecl _ _ ⟨_, _, ⟨body, _⟩⟩ => Stmt.AllTidy body
  | .ret (some value) => value.Tidy
  | .ret none => True
  | .block ⟨body, _⟩ => Stmt.AllTidy body
  | .branch condition thenBody (some elseBody) =>
    condition.Tidy ∧ thenBody.Tidy ∧ elseBody.Tidy
  | .branch condition thenBody none => condition.Tidy ∧ thenBody.Tidy
  | .loop condition body => condition.Tidy ∧ body.Tidy
  | .print value => value.Tidy

def Stmt.AllTidy : List Stmt → Prop
  | [] => True
  | s :: rest => s.Tidy ∧ Stmt.AllTidy rest

end

/-- Whether every statement of the program is tidy. -/
def Block.Tidy (b : Block) : Prop :=
  Stmt.AllTidy b.body

/-! ## Names in the text -/

/-- When the piece is a name, the name is plain. -/
def Piece.IsPlain : Piece → Prop
  | token .identifier name => Ty.IsPlain name
  | _ => True

/-- What can stand in a name is no mark. -/
theorem Lexeme.isMark_of_isNamePart {c : Char} (h : isNamePart c) : Ty.isMark c = false := by
  cases hc : Ty.isMark c with
  | false => rfl
  | true =>
    have hmark : c = '(' ∨ c = ')' ∨ c = ',' := by simpa [Ty.isMark, or_assoc] using hc
    rcases hmark with rfl | rfl | rfl
    all_goals exact absurd h (by decide)

theorem Token.Lexed.isPlain {t : Token} (h : t.Lexed) (hkind : t.kind = .identifier) :
    Ty.IsPlain t.value := by
  obtain ⟨hne, hpart⟩ := h.name_of_kind hkind
  exact ⟨hne, fun c hc => Lexeme.isMark_of_isNamePart (hpart c hc)⟩

/-- What is written with lexed tokens has plain names. -/
theorem Piece.Spelling.isPlain {ps : List Piece} {ts : List Token} (h : Spelling ps ts)
    (hts : ∀ t ∈ ts, t.Lexed) : ∀ p ∈ ps, p.IsPlain := by
  induction h with
  | nil => exact fun p hp => nomatch hp
  | @cons p ps ts us hp _ ih =>
    rw [List.forall_mem_append] at hts
    rw [List.forall_mem_cons]
    refine ⟨?_, ih hts.2⟩
    cases hp with
    | @token t kind value hkind hvalue =>
      have ht := hts.1 t (List.mem_singleton.2 rfl)
      cases kind with
      | identifier => exact hvalue ▸ ht.isPlain hkind
      | _ => trivial
    | _ => trivial

namespace Piece

variable {items : List (List Piece)}

theorem mem_intercalate {separator item : List Piece} {p : Piece} (hitem : item ∈ items)
    (hp : p ∈ item) : p ∈ List.intercalate separator items := by
  induction items with
  | nil => cases hitem
  | cons first rest ih =>
    cases rest with
    | nil =>
      rw [List.mem_singleton.1 hitem] at hp
      simpa using hp
    | cons second rest =>
      rw [List.intercalate_cons_cons]
      rcases List.mem_cons.1 hitem with rfl | hrest
      · exact List.mem_append_left _ (List.mem_append_left _ hp)
      · exact List.mem_append_right _ (ih hrest)

/-- Items between parentheses have plain names when the whole has. -/
theorem isPlain_of_parenthesised (h : ∀ p ∈ parenthesised items, p.IsPlain) :
    ∀ item ∈ items, ∀ p ∈ item, p.IsPlain := by
  intro item hitem p hp
  refine h p (List.mem_append_left _ (List.mem_cons_of_mem _ ?_))
  exact mem_intercalate hitem hp

/-- Statements between braces have plain names when the whole has. -/
theorem isPlain_of_braced (h : ∀ p ∈ braced items, p.IsPlain) :
    ∀ item ∈ items, ∀ p ∈ item, p.IsPlain := by
  intro item hitem p hp
  refine h p (List.mem_append_left _ (List.mem_cons_of_mem _ ?_))
  exact List.mem_flatten.2 ⟨item, hitem, hp⟩

/-- What follows the name of a function ends with the body. -/
theorem isPlain_of_signature {parameters : List Parameter} {result? : Option TypeExpr}
    (h : ∀ p ∈ Signature.piecesWith parameters result? items, p.IsPlain) :
    ∀ item ∈ items, ∀ p ∈ item, p.IsPlain :=
  isPlain_of_braced fun p hp => h p (List.mem_append_right _ hp)

end Piece

/-! ## Regular trees with plain names -/

open Piece

mutual

theorem Expr.tidy_of_regular : ∀ e : Expr, e.Regular → (∀ p ∈ e.pieces, p.IsPlain) → e.Tidy
  | ⟨form, _⟩, hregular, hplain => form.tidy_of_regular hregular hplain

theorem ExprForm.tidy_of_regular : ∀ form : ExprForm, form.Regular →
    (∀ p ∈ form.pieces, p.IsPlain) → form.Tidy
  | .number _, _, _ => trivial
  | .text _, _, _ => trivial
  | .bool _, _, _ => trivial
  | .symbol _, _, _ => trivial
  | .member owner name span, hregular, hplain => by
    rw [ExprForm.pieces, List.forall_mem_append] at hplain
    exact owner.tidy_of_regular hregular.1 hplain.1
  | .assign target value, hregular, hplain => by
    rw [ExprForm.pieces, List.forall_mem_append, List.forall_mem_cons] at hplain
    exact ⟨target.tidy_of_regular hregular.1 hplain.1,
      value.tidy_of_regular hregular.2.1 hplain.2.2⟩
  | .binary left operator right, hregular, hplain => by
    rw [ExprForm.pieces, List.forall_mem_append, List.forall_mem_cons] at hplain
    exact ⟨left.tidy_of_regular hregular.1 hplain.1,
      right.tidy_of_regular hregular.2.1 hplain.2.2⟩
  | .unary operator operand, hregular, hplain => by
    rw [ExprForm.pieces, List.forall_mem_cons] at hplain
    exact operand.tidy_of_regular hregular.1 hplain.2
  | .call callee arguments, hregular, hplain => by
    rw [ExprForm.pieces, List.forall_mem_append] at hplain
    have harguments := isPlain_of_parenthesised hplain.2
    exact ⟨callee.tidy_of_regular hregular.1 hplain.1,
      Expr.allTidy_of_regular arguments hregular.2.2 harguments⟩
  | .new className arguments, hregular, hplain => by
    have harguments := isPlain_of_parenthesised fun p hp =>
      hplain p (List.mem_cons_of_mem _ (List.mem_cons_of_mem _ hp))
    exact Expr.allTidy_of_regular arguments hregular harguments
  | .lambda ⟨parameters, result?, ⟨body, bodySpan⟩⟩, hregular, hplain => by
    have hbody := isPlain_of_signature fun p hp => hplain p (List.mem_cons_of_mem _ hp)
    exact Stmt.allTidy_of_regular body hregular hbody
  | .group inner, hregular, hplain =>
    inner.tidy_of_regular hregular fun p hp =>
      hplain p (List.mem_append_left _ (List.mem_cons_of_mem _ hp))

theorem Expr.allTidy_of_regular : ∀ es : List Expr, Expr.AllRegular es →
    (∀ item ∈ Expr.eachPieces es, ∀ p ∈ item, p.IsPlain) → Expr.AllTidy es
  | [], _, _ => trivial
  | e :: rest, hregular, hplain => by
    rw [Expr.eachPieces, List.forall_mem_cons] at hplain
    exact ⟨e.tidy_of_regular hregular.1 hplain.1,
      Expr.allTidy_of_regular rest hregular.2 hplain.2⟩

theorem Stmt.tidy_of_regular : ∀ s : Stmt, s.Regular → (∀ p ∈ s.pieces, p.IsPlain) → s.Tidy
  | ⟨form, _⟩, hregular, hplain => form.tidy_of_regular hregular hplain

theorem StmtForm.tidy_of_regular : ∀ form : StmtForm, form.Regular →
    (∀ p ∈ form.pieces, p.IsPlain) → form.Tidy
  | .expression e, hregular, hplain => by
    rw [StmtForm.pieces, List.forall_mem_append] at hplain
    exact e.tidy_of_regular hregular hplain.1
  | .varDecl name nameSpan mode type? (some value), hregular, hplain => by
    rw [StmtForm.pieces_varDecl] at hplain
    refine value.tidy_of_regular hregular fun p hp => hplain p (List.mem_append_left _ ?_)
    exact List.mem_append_right _ (List.mem_cons_of_mem _ hp)
  | .varDecl _ _ _ _ none, _, _ => trivial
  | .classDecl name nameSpan parameters members, hregular, hplain => by
    rw [StmtForm.pieces, List.forall_mem_cons, List.forall_mem_cons, List.forall_mem_append]
      at hplain
    obtain ⟨-, hname, -, hmembers⟩ := hplain
    exact ⟨hname, Stmt.allTidy_of_regular members hregular.1 (isPlain_of_braced hmembers),
      hregular.2⟩
  | .fnDecl name nameSpan ⟨parameters, result?, ⟨body, bodySpan⟩⟩, hregular, hplain => by
    have hbody := isPlain_of_signature fun p hp =>
      hplain p (List.mem_cons_of_mem _ (List.mem_cons_of_mem _ hp))
    exact Stmt.allTidy_of_regular body hregular hbody
  | .ret (some value), hregular, hplain =>
    value.tidy_of_regular hregular fun p hp =>
      hplain p (List.mem_append_left _ (List.mem_cons_of_mem _ hp))
  | .ret none, _, _ => trivial
  | .block ⟨body, _⟩, hregular, hplain =>
    Stmt.allTidy_of_regular body hregular (isPlain_of_braced hplain)
  | .branch condition thenBody (some elseBody), hregular, hplain => by
    rw [StmtForm.pieces_branch] at hplain
    simp only [List.forall_mem_append] at hplain
    obtain ⟨⟨⟨-, hcondition⟩, hthen⟩, helse⟩ := hplain
    exact ⟨condition.tidy_of_regular hregular.1 hcondition,
      thenBody.tidy_of_regular hregular.2.1 hthen,
      elseBody.tidy_of_regular hregular.2.2 fun p hp => helse p (List.mem_cons_of_mem _ hp)⟩
  | .branch condition thenBody none, hregular, hplain => by
    rw [StmtForm.pieces_branch] at hplain
    simp only [List.forall_mem_append] at hplain
    obtain ⟨⟨⟨-, hcondition⟩, hthen⟩, -⟩ := hplain
    exact ⟨condition.tidy_of_regular hregular.1 hcondition,
      thenBody.tidy_of_regular hregular.2 hthen⟩
  | .loop condition body, hregular, hplain => by
    rw [StmtForm.pieces, List.forall_mem_append, List.forall_mem_cons] at hplain
    exact ⟨condition.tidy_of_regular hregular.1 hplain.1.2,
      body.tidy_of_regular hregular.2 hplain.2⟩
  | .print value, hregular, hplain =>
    value.tidy_of_regular hregular fun p hp =>
      hplain p (List.mem_append_left _ (List.mem_cons_of_mem _ hp))

theorem Stmt.allTidy_of_regular : ∀ stmts : List Stmt, Stmt.AllRegular stmts →
    (∀ item ∈ Stmt.eachPieces stmts, ∀ p ∈ item, p.IsPlain) → Stmt.AllTidy stmts
  | [], _, _ => trivial
  | s :: rest, hregular, hplain => by
    rw [Stmt.eachPieces, List.forall_mem_cons] at hplain
    exact ⟨s.tidy_of_regular hregular.1 hplain.1,
      Stmt.allTidy_of_regular rest hregular.2 hplain.2⟩

end

/-- The program was parsed from the tokens of some source. -/
def Block.IsParsed (program : Block) : Prop :=
  ∃ source file limit tokens,
    tokenize source file = .ok tokens ∧ parse tokens file limit = .ok program

theorem Block.IsParsed.tidy {program : Block} (h : program.IsParsed) : program.Tidy := by
  obtain ⟨source, file, limit, tokens, htokens, hparse⟩ := h
  have hended := tokenize_ended htokens
  obtain ⟨⟨body, last, hsplit, -, hspelling⟩, hregular⟩ := parse_sound hended hparse
  obtain ⟨body', last', hsplit', -, hlexed⟩ := hended.split
  have hbody : body = body' := (List.append_inj' (hsplit.symm.trans hsplit') rfl).1
  have hplain := hspelling.isPlain (hbody ▸ hlexed)
  refine Stmt.allTidy_of_regular program.body hregular fun item hitem p hp => ?_
  exact hplain p (List.mem_flatten.2 ⟨item, hitem, hp⟩)

end Nominal
