import Nominal.Proofs.Syntax.Legible

/-!
# The tokens of a printed program

`Block.printed` is one choice of tokens for a tree: what can be left out is left out, a result type
comes after a colon, and numbers have no zeros before them. For a legible tree it is a spelling of
the tree (`Block.spelling_printed`), so such a tree can be written at all.
-/

namespace Nominal

open Piece

/-- How a mark or a reserved word is written. -/
def Kind.text (kind : Kind) : String :=
  (((marks ++ reserved).find? fun m => m.2 == kind).map Prod.fst).getD ""

namespace Piece

/-- A token, of no text, for a piece. -/
def write : Piece → List Token
  | mark kind => [⟨kind, kind.text, .nowhere⟩]
  | token kind value => [⟨kind, value, .nowhere⟩]
  | number value => [⟨.number, String.ofList (Nat.toDigits 10 value.toNat), .nowhere⟩]
  | resultMark => [⟨.colon, Kind.colon.text, .nowhere⟩]
  | optionalVal => []
  | optionalParens => []

/-- Whether the piece can be written: a mark is one in the tables, and a number is in range. -/
def IsWritable : Piece → Prop
  | mark kind => (kind.text, kind) ∈ Kind.marks ++ Kind.reserved
  | number value => 0 ≤ value ∧ value ≤ maxNumber
  | _ => True

variable {p : Piece} {ps : List Piece}

theorem spells_write (h : p.IsWritable) : p.Spells p.write := by
  cases p with
  | mark kind => exact .mark rfl h
  | token kind value => exact .token rfl rfl
  | number value =>
    obtain ⟨hnonneg, hmax⟩ := h
    obtain ⟨n, rfl⟩ := Int.eq_ofNat_of_zero_le hnonneg
    have hdigits : (String.ofList (Nat.toDigits 10 n)).toList = Nat.toDigits 10 n := by simp
    refine .number rfl ?_ ⟨0, hdigits⟩ (by simpa using hmax)
    rw [Int.toNat_natCast, hdigits, Nat.ofDigitChars_toDigits (by decide) (by decide)]
  | resultMark => exact .colon (.mark rfl (by decide))
  | optionalVal => exact .noVal
  | optionalParens => exact .noParens

theorem spelling_write (h : ∀ p ∈ ps, p.IsWritable) : Spelling ps (ps.flatMap write) := by
  induction ps with
  | nil => exact .nil
  | cons p ps ih =>
    obtain ⟨hp, hps⟩ := List.forall_mem_cons.1 h
    exact .cons (spells_write hp) (ih hps)

/-- Marks are writable, but for the kinds of names, literals and the end. -/
theorem isWritable_mark {kind : Kind} (hkind : kind ∉ [.eof, .identifier, .number, .string]) :
    (mark kind).IsWritable := by
  show (kind.text, kind) ∈ Kind.marks ++ Kind.reserved
  revert hkind
  cases kind
  all_goals decide

theorem isWritable_parenthesised {items : List (List Piece)}
    (h : ∀ item ∈ items, ∀ p ∈ item, p.IsWritable) : ∀ p ∈ parenthesised items, p.IsWritable := by
  have hitems : ∀ p ∈ List.intercalate [mark .comma] items, p.IsWritable := by
    induction items with
    | nil => exact fun p hp => nomatch hp
    | cons item items ih =>
      obtain ⟨hitem, hrest⟩ := List.forall_mem_cons.1 h
      cases items with
      | nil => simpa using hitem
      | cons second items =>
        rw [List.intercalate_cons_cons, List.forall_mem_append, List.forall_mem_append]
        exact ⟨⟨hitem, List.forall_mem_singleton.2 (isWritable_mark (by decide))⟩, ih hrest⟩
  rw [parenthesised, List.cons_append, List.forall_mem_cons, List.forall_mem_append]
  exact ⟨isWritable_mark (by decide), hitems,
    List.forall_mem_singleton.2 (isWritable_mark (by decide))⟩

theorem isWritable_braced {statements : List (List Piece)}
    (h : ∀ ps ∈ statements, ∀ p ∈ ps, p.IsWritable) : ∀ p ∈ braced statements, p.IsWritable := by
  rw [braced, List.cons_append, List.forall_mem_cons, List.forall_mem_append]
  refine ⟨isWritable_mark (by decide), ?_,
    List.forall_mem_singleton.2 (isWritable_mark (by decide))⟩
  intro p hp
  obtain ⟨ps, hps, hp⟩ := List.mem_flatten.1 hp
  exact h ps hps p hp

theorem isWritable_after {kind : Kind} {ps? : Option (List Piece)} (hkind : (mark kind).IsWritable)
    (h : ∀ ps ∈ ps?, ∀ p ∈ ps, p.IsWritable) : ∀ p ∈ after kind ps?, p.IsWritable := by
  cases ps? with
  | none => exact fun p hp => nomatch hp
  | some ps => exact List.forall_mem_cons.2 ⟨hkind, h ps rfl⟩

end Piece

/-! ## Trees -/

mutual

theorem TypeExpr.writable : (a : TypeExpr) → ∀ p ∈ a.pieces, p.IsWritable
  | .named name span => by simp [pieces, IsWritable]
  | .function parameters result span => by
    have hparameters := isWritable_parenthesised (TypeExpr.each_writable parameters)
    have hresult := result.writable
    have harrow : (mark .arrow).IsWritable := isWritable_mark (by decide)
    simp only [pieces, List.cons_append, List.forall_mem_cons, List.forall_mem_append]
    exact ⟨trivial, hparameters, harrow, hresult⟩

theorem TypeExpr.each_writable :
    (as : List TypeExpr) → ∀ ps ∈ TypeExpr.eachPieces as, ∀ p ∈ ps, p.IsWritable
  | [] => fun _ hps => nomatch hps
  | a :: as => List.forall_mem_cons.2 ⟨a.writable, TypeExpr.each_writable as⟩

end

theorem Parameter.writable (a : Parameter) : ∀ p ∈ a.pieces, p.IsWritable := by
  simp only [pieces, List.forall_mem_cons]
  refine ⟨?_, trivial, isWritable_mark (by decide), a.type.writable⟩
  split
  · exact isWritable_mark (by decide)
  · trivial

theorem Parameter.all_writable (parameters : List Parameter) :
    ∀ ps ∈ parameters.map Parameter.pieces, ∀ p ∈ ps, p.IsWritable := by
  intro ps hps
  obtain ⟨a, -, rfl⟩ := List.mem_map.1 hps
  exact a.writable

theorem Signature.writable {parameters : List Parameter} {result? : Option TypeExpr}
    {body : List (List Piece)} (hbody : ∀ ps ∈ body, ∀ p ∈ ps, p.IsWritable) :
    ∀ p ∈ piecesWith parameters result? body, p.IsWritable := by
  simp only [piecesWith, List.forall_mem_append]
  refine ⟨⟨isWritable_parenthesised (Parameter.all_writable parameters), ?_⟩,
    isWritable_braced hbody⟩
  cases result? with
  | none => exact fun p hp => nomatch hp
  | some result => exact List.forall_mem_cons.2 ⟨trivial, result.writable⟩

theorem Parameter.class_writable (parameters : List Parameter) :
    ∀ p ∈ Parameter.classPieces parameters, p.IsWritable := by
  cases parameters with
  | nil => exact List.forall_mem_singleton.2 trivial
  | cons a parameters => exact isWritable_parenthesised (Parameter.all_writable (a :: parameters))

/-- The pieces of a variable declaration, with those of the value if there is one. -/
theorem isWritable_varDecl {name : String} {mode : Mode} {type? : Option TypeExpr}
    {value? : Option (List Piece)} (hvalue : ∀ ps ∈ value?, ∀ p ∈ ps, p.IsWritable) :
    ∀ p ∈ [mark mode.keyword, .token .identifier name] ++
      after .colon (type?.map TypeExpr.pieces) ++ after .assignment value? ++ [mark .semicolon],
      p.IsWritable := by
  have hmode : (mark mode.keyword).IsWritable := by
    cases mode
    all_goals exact isWritable_mark (by decide)
  have htype : ∀ ps ∈ type?.map TypeExpr.pieces, ∀ p ∈ ps, p.IsWritable := by
    intro ps hps
    obtain ⟨type, -, rfl⟩ := Option.map_eq_some_iff.1 hps
    exact type.writable
  simp only [List.forall_mem_append, List.forall_mem_cons]
  exact ⟨⟨⟨⟨hmode, trivial, List.forall_mem_nil _⟩,
    isWritable_after (isWritable_mark (by decide)) htype⟩,
    isWritable_after (isWritable_mark (by decide)) hvalue⟩,
    isWritable_mark (by decide), List.forall_mem_nil _⟩

mutual

/-- Every piece of a legible expression can be written. -/
theorem Expr.writable : (e : Expr) → e.Legible → ∀ p ∈ e.pieces, p.IsWritable
  | ⟨form, _⟩, h => form.writable h

theorem ExprForm.writable : (form : ExprForm) → form.Legible → ∀ p ∈ form.pieces, p.IsWritable
  | .number value, h => List.forall_mem_singleton.2 h
  | .text value, _ => List.forall_mem_singleton.2 trivial
  | .bool true, _ => List.forall_mem_singleton.2 (isWritable_mark (by decide))
  | .bool false, _ => List.forall_mem_singleton.2 (isWritable_mark (by decide))
  | .symbol name, _ => List.forall_mem_singleton.2 trivial
  | .member owner name nameSpan, h => by
    simp only [ExprForm.pieces, List.forall_mem_append, List.forall_mem_cons]
    exact ⟨owner.writable h, isWritable_mark (by decide), trivial, List.forall_mem_nil _⟩
  | .assign target value, ⟨htarget, hvalue⟩ => by
    simp only [ExprForm.pieces, List.forall_mem_append, List.forall_mem_cons]
    exact ⟨target.writable htarget, isWritable_mark (by decide), value.writable hvalue⟩
  | .binary left operator right, ⟨hleft, hright⟩ => by
    simp only [ExprForm.pieces, List.forall_mem_append, List.forall_mem_cons]
    exact ⟨left.writable hleft, trivial, right.writable hright⟩
  | .unary operator operand, h => List.forall_mem_cons.2 ⟨trivial, operand.writable h⟩
  | .call callee arguments, ⟨hcallee, harguments⟩ => by
    simp only [ExprForm.pieces, List.forall_mem_append]
    exact ⟨callee.writable hcallee,
      isWritable_parenthesised (Expr.each_writable arguments harguments)⟩
  | .new className arguments, h => by
    simp only [ExprForm.pieces, List.forall_mem_cons]
    exact ⟨isWritable_mark (by decide), trivial,
      isWritable_parenthesised (Expr.each_writable arguments h)⟩
  | .lambda ⟨parameters, result?, ⟨body, _⟩⟩, h => by
    simp only [ExprForm.pieces, List.forall_mem_cons]
    exact ⟨isWritable_mark (by decide), Signature.writable (Stmt.each_writable body h)⟩
  | .group inner, h => by
    simp only [ExprForm.pieces, List.cons_append, List.forall_mem_append, List.forall_mem_cons]
    exact ⟨isWritable_mark (by decide), inner.writable h, isWritable_mark (by decide),
      List.forall_mem_nil _⟩

theorem Expr.each_writable : (es : List Expr) → Expr.AllLegible es →
    ∀ ps ∈ Expr.eachPieces es, ∀ p ∈ ps, p.IsWritable
  | [], _ => fun _ hps => nomatch hps
  | e :: es, h => List.forall_mem_cons.2 ⟨e.writable h.1, Expr.each_writable es h.2⟩

/-- Every piece of a legible statement can be written. -/
theorem Stmt.writable : (s : Stmt) → s.Legible → ∀ p ∈ s.pieces, p.IsWritable
  | ⟨form, _⟩, h => form.writable h

theorem StmtForm.writable : (form : StmtForm) → form.Legible → ∀ p ∈ form.pieces, p.IsWritable
  | .expression e, h => by
    simp only [StmtForm.pieces, List.forall_mem_append]
    exact ⟨e.writable h, List.forall_mem_singleton.2 (isWritable_mark (by decide))⟩
  | .varDecl name _ mode type? (some value), h => by
    have hvalue := value.writable h
    rw [StmtForm.pieces_varDecl]
    exact isWritable_varDecl (by simpa using hvalue)
  | .varDecl name _ mode type? none, _ => by
    rw [StmtForm.pieces_varDecl]
    exact isWritable_varDecl (by simp)
  | .classDecl name _ parameters members, h => by
    simp only [StmtForm.pieces, List.forall_mem_cons, List.forall_mem_append]
    exact ⟨isWritable_mark (by decide), trivial, Parameter.class_writable parameters,
      isWritable_braced (Stmt.each_writable members h)⟩
  | .fnDecl name _ ⟨parameters, result?, ⟨body, _⟩⟩, h => by
    simp only [StmtForm.pieces, List.forall_mem_cons]
    exact ⟨isWritable_mark (by decide), trivial, Signature.writable (Stmt.each_writable body h)⟩
  | .ret (some value), h => by
    simp only [StmtForm.pieces, List.cons_append, List.forall_mem_cons, List.forall_mem_append]
    exact ⟨isWritable_mark (by decide), value.writable h, isWritable_mark (by decide),
      List.forall_mem_nil _⟩
  | .ret none, _ => by
    simp only [StmtForm.pieces, List.forall_mem_cons]
    exact ⟨isWritable_mark (by decide), isWritable_mark (by decide), List.forall_mem_nil _⟩
  | .block ⟨body, _⟩, h => isWritable_braced (Stmt.each_writable body h)
  | .branch condition thenBody (some elseBody), ⟨hcondition, hthen, helse, _⟩ => by
    simp only [StmtForm.pieces, List.cons_append, List.forall_mem_cons, List.forall_mem_append]
    exact ⟨isWritable_mark (by decide), ⟨condition.writable hcondition, thenBody.writable hthen⟩,
      isWritable_mark (by decide), elseBody.writable helse⟩
  | .branch condition thenBody none, ⟨hcondition, hthen, _⟩ => by
    simp only [StmtForm.pieces, List.cons_append, List.forall_mem_cons, List.forall_mem_append]
    exact ⟨isWritable_mark (by decide), condition.writable hcondition, thenBody.writable hthen⟩
  | .loop condition body, ⟨hcondition, hbody, _⟩ => by
    simp only [StmtForm.pieces, List.cons_append, List.forall_mem_cons, List.forall_mem_append]
    exact ⟨isWritable_mark (by decide), condition.writable hcondition, body.writable hbody⟩
  | .print value, h => by
    simp only [StmtForm.pieces, List.cons_append, List.forall_mem_cons, List.forall_mem_append]
    exact ⟨isWritable_mark (by decide), value.writable h, isWritable_mark (by decide),
      List.forall_mem_nil _⟩

theorem Stmt.each_writable : (stmts : List Stmt) → Stmt.AllLegible stmts →
    ∀ ps ∈ Stmt.eachPieces stmts, ∀ p ∈ ps, p.IsWritable
  | [], _ => fun _ hps => nomatch hps
  | s :: rest, h => List.forall_mem_cons.2 ⟨s.writable h.1, Stmt.each_writable rest h.2⟩

end

/-- A program as tokens of no text. -/
def Block.printed (b : Block) : List Token :=
  b.pieces.flatMap Piece.write

/-- A legible program can be written. -/
theorem Block.spelling_printed {b : Block} (h : b.Legible) : Spelling b.pieces b.printed := by
  refine spelling_write fun p hp => ?_
  obtain ⟨ps, hps, hp⟩ := List.mem_flatten.1 hp
  exact Stmt.each_writable b.body h ps hps p hp

end Nominal
