import Nominal.Proofs.Syntax.Parsed
import Nominal.Proofs.Syntax.Succeeds

/-!
# Parsed programs can be read back

Whatever the rules read is legible (`parse_legible`), so the tokens of a parsed program say nothing
but its tree. Two facts about where a part ends carry this: a condition ends before a token that
does not continue an expression, so no body begins with one, and a statement that ends in an `if`
without an `else` ends before a token other than `else`.
-/

namespace Nominal

open Parse

/-! ## Where a part ends -/

/-- A body that begins where no expression goes on does not begin as the rest of one. -/
theorem Stmt.continuesExpr_eq_false {stmt : Stmt} {all rest : List Token} (hregular : stmt.Regular)
    (hall : Piece.Through stmt.pieces all rest)
    (hpower : Grammar.standard.power (Token.firstKind all) = .default) :
    stmt.continuesExpr = false := by
  obtain ⟨first, more, kind, hpieces, hkind, -⟩ := stmt.opens hregular
  rw [hpieces] at hall
  rw [hall.firstKind hkind] at hpower
  simp only [continuesExpr, hpieces, List.head?_cons, Option.bind_some, hkind]
  revert hpower
  cases kind
  all_goals decide

/-- What was passed is a spelling, and there are more tokens behind it. -/
theorem TokenStream.Writes.through {s t : TokenStream} {ps : List Piece} (h : s.Writes ps t) :
    Piece.Through ps s.remaining t.remaining := by
  obtain ⟨-, ts, hts, hall⟩ := h
  exact ⟨by simp [remaining], ts, hts, hall⟩

/-- An expression that ends before a token of the given kind is not continued by it. -/
theorem Expr.Fits.power_eq_default {e : Expr} {next : Kind} (h : e.Fits .default next) :
    Grammar.standard.power next = .default := by
  have hstops := h.stops
  revert hstops
  cases next
  all_goals decide

namespace Inner

/-- What the readers of nested parts promise, legibility included. -/
structure ReadsBack (inner : Inner) : Prop extends inner.Sound where
  stmtLegible : ∀ s, s.Good → inner.stmt.Gives s fun stmt t =>
    stmt.Legible ∧ (stmt.endsOpen → t.kind ≠ .kwElse)
  exprLegible : ∀ power s, s.Good → (inner.expr power).Gives s fun e _ => e.Legible

variable {inner : Inner} {s : TokenStream}

theorem ReadsBack.stmtReads (hi : inner.ReadsBack) :
    inner.stmt.Reads Stmt.pieces fun stmt => stmt.Regular ∧ stmt.Legible := by
  intro s hs
  refine ((hi.stmt s hs).and (hi.stmtLegible s hs)).mono ?_
  rintro stmt t ⟨⟨hwrites, hregular⟩, hlegible, -⟩
  exact ⟨hwrites, hregular, hlegible⟩

theorem ReadsBack.exprReads (hi : inner.ReadsBack) (power : BindingPower) :
    (inner.expr power).Reads Expr.pieces fun e => e.Regular ∧ e.Legible := by
  intro s hs
  refine ((hi.expr power s hs).and (hi.exprLegible power s hs)).mono ?_
  rintro e t ⟨⟨hwrites, hregular, -⟩, hlegible⟩
  exact ⟨hwrites, hregular, hlegible⟩

/-! ## Functions and blocks -/

theorem block_legible (hi : inner.ReadsBack) (hs : s.Good) :
    inner.block.Gives s fun b _ => ∀ stmt ∈ b.body, stmt.Legible := by
  simp only [block, gives_bind, gives_expect, gives_spanFrom, gives_pure]
  intro hopen
  have hstart := hs.writes_mark hopen (by decide)
  refine (gives_repeatUntil (fun stmt => stmt.Regular ∧ stmt.Legible) ?_ Stmt.pieces_required
    hstart.good).mono ?_
  · intro u hu _
    simp only [gives_bind, gives_kind]
    split
    · exact gives_unexpectedDetailed _
    · exact hi.stmtReads u hu
  · rintro body t ⟨-, hbody, -⟩ -
    exact fun stmt hmem => (hbody stmt hmem).2

theorem signature_legible (hi : inner.ReadsBack) (hs : s.Good) :
    inner.signature.Gives s fun sig _ => ∀ stmt ∈ sig.body.body, stmt.Legible := by
  simp only [signature, parameters, gives_bind, gives_pure]
  refine ((parameter_sound hi.toSound).parenthesised s hs).mono ?_
  rintro parameters t ⟨hparameters, -⟩
  refine (resultType?_sound hi.toSound t hparameters.good).mono ?_
  rintro result? u ⟨hresult, -⟩
  exact block_legible hi hresult.good

/-! ## Expressions -/

/-- A number token that was read is a word of 31 bits. -/
theorem legible_primaryForm {t : Token} {form : ExprForm} (ht : t.Lexed)
    (hform : primaryForm t = .ok form) : form.Legible := by
  obtain ⟨p, hpieces, hspells⟩ := spells_primaryForm ht hform
  unfold primaryForm at hform
  split at hform
  · split at hform
    · obtain rfl := Except.ok.inj hform
      obtain rfl := List.head_eq_of_cons_eq hpieces
      cases hspells with
      | number _ _ _ hmax => exact ⟨Int.natCast_nonneg _, Int.ofNat_le.2 hmax⟩
    · cases hform
  all_goals cases hform
  all_goals trivial

theorem arguments_legible (hi : inner.ReadsBack) (hs : s.Good) :
    inner.arguments.Gives s fun es _ => ∀ e ∈ es, e.Legible :=
  ((hi.exprReads .default).parenthesised s hs).mono fun _ _ hes e hmem => (hes.2 e hmem).2

theorem nudBy_legible (hi : inner.ReadsBack) (hs : s.Good) {rule : NudRule}
    (hrule : Grammar.standard.nud s.kind = some rule) :
    (inner.nudBy rule).Gives s fun e _ => e.Legible := by
  have hk := Grammar.standard_nud hrule
  have hnext : s.next.Good := (hs.next fun heof => by simp [heof, Grammar.standard] at hrule).2
  cases rule with
  | primary =>
    simp only [nudBy, primary, gives_bind, gives_current]
    split
    · next form hform => exact legible_primaryForm (hs.lexed hk) hform
    · exact gives_failWith _
  | unary =>
    simp only [nudBy, unary, gives_bind, gives_advance, gives_pure]
    exact hi.exprLegible .unary _ hnext
  | group =>
    simp only [nudBy, group, gives_bind, gives_advance, gives_expect, gives_spanFrom, gives_pure]
    exact (hi.exprLegible .default _ hnext).mono fun _ _ he _ => he
  | new =>
    simp only [nudBy, new, gives_bind, gives_advance, gives_expectDetailed, gives_spanFrom,
      gives_pure]
    intro hname
    have hclass := hnext.writes_token hname (by decide)
    exact (arguments_legible hi hclass.good).mono fun _ _ hes => Expr.allLegible_iff.2 hes
  | lambda =>
    simp only [nudBy, lambda, gives_bind, gives_advance, gives_spanFrom, gives_pure]
    refine (signature_legible hi hnext).mono ?_
    rintro ⟨parameters, result?, ⟨body, bodySpan⟩⟩ t hbody
    exact Stmt.allLegible_iff.2 hbody

section

variable {left : Expr} {power next : BindingPower}

theorem ledBy_legible (hi : inner.ReadsBack) (hs : s.Good) {rule : LedRule}
    (hled : Grammar.standard.led s.kind = some (next, rule)) (hleft : left.Legible) :
    (inner.ledBy left next rule).Gives s fun e _ => e.Legible := by
  have hnext : s.next.Good := (hs.next fun heof => by simp [heof, Grammar.standard] at hled).2
  cases rule with
  | assignment =>
    simp only [ledBy, assignment]
    split
    · simp only [gives_bind, gives_advance, gives_pure]
      exact (hi.exprLegible .comma _ hnext).mono fun _ _ he => ⟨hleft, he⟩
    · exact gives_unexpectedDetailed _
  | binary =>
    simp only [ledBy, binary, gives_bind, gives_advance, gives_pure]
    exact (hi.exprLegible next _ hnext).mono fun _ _ he => ⟨hleft, he⟩
  | call =>
    simp only [ledBy, call, gives_bind, gives_spanFrom, gives_pure]
    exact (arguments_legible hi hs).mono fun _ _ hes => ⟨hleft, Expr.allLegible_iff.2 hes⟩
  | member =>
    simp only [ledBy, member, gives_bind, gives_advance, gives_expectDetailed, gives_pure]
    exact fun _ => hleft

/-- The loop that continues an expression keeps it legible. That it stays among good tokens is
known from soundness, whose invariant goes along. -/
theorem continueExpr_legible (hi : inner.ReadsBack) (hs : s.Good) (hregular : left.Regular)
    (hadmits : left.Admits s.kind) (hleft : left.Legible) :
    (inner.continueExpr .standard power left).Gives s fun e _ => e.Legible := by
  unfold Gives
  fun_induction continueExpr inner .standard power left s with
  | case1 => exact hleft
  | case2 => trivial
  | case3 left s next rule hled hpower longer t hlonger _ ih =>
    obtain ⟨⟨ps, -, hwrites, -⟩, hregular', -, hadmits'⟩ :=
      (ledBy_sound hi.toSound hs hled hregular hadmits hpower).of_ok hlonger
    exact ih hwrites.good hregular' hadmits' ((ledBy_legible hi hs hled hleft).of_ok hlonger)
  | case4 left s next rule hled hpower longer t hlonger =>
    exact (ledBy_legible hi hs hled hleft).of_ok hlonger
  | case5 => exact hleft

end

theorem exprAt_legible (hi : inner.ReadsBack) (power : BindingPower) (hs : s.Good) :
    (inner.exprAt .standard power).Gives s fun e _ => e.Legible := by
  simp only [exprAt, gives_bind, gives_kind]
  split
  · next rule hrule =>
    simp only [gives_bind]
    refine ((nudBy_sound hi.toSound hs hrule).and (nudBy_legible hi hs hrule)).mono ?_
    rintro left t ⟨⟨hleft, hregular, -, hadmits⟩, hlegible⟩
    exact continueExpr_legible hi hleft.good hregular hadmits hlegible
  · exact gives_unexpected

/-! ## Statements -/

theorem expressionStmt_legible (hi : inner.ReadsBack) (hs : s.Good) :
    inner.expressionStmt.Gives s fun stmt _ => stmt.Legible ∧ stmt.endsOpen = false := by
  simp only [expressionStmt, gives_bind, gives_expect, gives_spanFrom, gives_pure]
  exact (hi.exprLegible .default s hs).mono fun _ _ he _ => ⟨he, rfl⟩

theorem varDecl_legible (hi : inner.ReadsBack) (hs : s.Good) (hk : s.kind ≠ .eof) :
    inner.varDecl.Gives s fun stmt _ => stmt.Legible ∧ stmt.endsOpen = false := by
  simp only [varDecl, gives_bind, gives_advance, gives_expectDetailed, gives_expect,
    gives_spanFrom, gives_pure]
  intro hname
  have hid := (hs.next hk).2.writes_token hname (by decide)
  refine (after?_sound hi.type (by decide) _ hid.good).mono ?_
  rintro type? t ⟨htype, -⟩
  refine (after?_sound (hi.exprReads .default) (by decide) _ htype.good).mono ?_
  rintro value? u ⟨-, hvalue⟩ -
  exact ⟨StmtForm.legible_varDecl.2 fun value hmem => (hvalue value hmem).2, rfl⟩

theorem fnDecl_legible (hi : inner.ReadsBack) (hs : s.Good) (hk : s.kind = .kwFun) :
    inner.fnDecl.Gives s fun stmt _ => stmt.Legible ∧ stmt.endsOpen = false := by
  simp only [fnDecl, gives_bind, gives_get]
  split
  · next hpeek =>
    simp only [gives_bind, gives_advance, gives_spanFrom, gives_pure]
    have hfun := hs.writes_mark hk (by decide)
    have hname : s.next.kind = .identifier := hs.kind_next (by simp [hk]) ▸ hpeek
    have hid := hfun.good.writes_token hname (by decide)
    refine (signature_legible hi hid.good).mono ?_
    rintro ⟨parameters, result?, ⟨body, bodySpan⟩⟩ t hbody
    exact ⟨Stmt.allLegible_iff.2 hbody, rfl⟩
  · exact expressionStmt_legible hi hs

theorem classMember_legible (hi : inner.ReadsBack) (hs : s.Good) :
    inner.classMember.Gives s fun stmt _ => stmt.Legible ∧ stmt.endsOpen = false := by
  simp only [classMember, gives_bind, gives_get]
  split
  · next hk => exact varDecl_legible hi hs (by simp [hk])
  · next hk => exact varDecl_legible hi hs (by simp [hk])
  · next hk =>
    split
    · exact fnDecl_legible hi hs hk
    · exact gives_unexpectedDetailed _
  · exact gives_unexpectedDetailed _

theorem members_legible (hi : inner.ReadsBack) (hs : s.Good) :
    (repeatUntil (· == .closeCurly) inner.classMember).Gives s fun members _ =>
      ∀ m ∈ members, m.Legible := by
  have hitem : ∀ u : TokenStream, u.Good → (u.kind == .closeCurly) = false →
      inner.classMember.Gives u fun m t => u.Writes m.pieces t ∧ m.Legible := by
    intro u hu _
    refine ((classMember_sound hi.toSound u hu).and (classMember_legible hi hu)).mono ?_
    rintro m t ⟨⟨hwrites, -⟩, hlegible, -⟩
    exact ⟨hwrites, hlegible⟩
  exact (gives_repeatUntil Stmt.Legible hitem Stmt.pieces_required hs).mono
    fun _ _ hmembers => hmembers.2.1

theorem classDecl_legible (hi : inner.ReadsBack) (hs : s.Good) (hk : s.kind = .kwClass) :
    inner.classDecl.Gives s fun stmt _ => stmt.Legible ∧ stmt.endsOpen = false := by
  simp only [classDecl, gives_bind, gives_advance, gives_expectDetailed, gives_kind]
  intro hname
  have hclass := hs.writes_mark hk (by decide)
  have hid := hclass.good.writes_token hname (by decide)
  split
  · simp only [gives_bind, gives_expect, gives_spanFrom, gives_pure]
    refine ((parameter_sound hi.toSound).parenthesised _ hid.good).mono ?_
    rintro parameters t ⟨hparameters, -⟩ hopen
    have hstart := hparameters.good.writes_mark hopen (by decide)
    exact (members_legible hi hstart.good).mono
      fun _ _ hmembers _ => ⟨Stmt.allLegible_iff.2 hmembers, rfl⟩
  · simp only [gives_bind, gives_expect, gives_spanFrom, gives_pure]
    intro hopen
    have hstart := hid.good.writes_mark hopen (by decide)
    exact (members_legible hi hstart.good).mono
      fun _ _ hmembers _ => ⟨Stmt.allLegible_iff.2 hmembers, rfl⟩

theorem ret_legible (hi : inner.ReadsBack) (hs : s.Good) (hk : s.kind = .kwReturn) :
    inner.ret.Gives s fun stmt _ => stmt.Legible ∧ stmt.endsOpen = false := by
  simp only [ret, gives_bind, gives_advance, gives_kind]
  have hret := hs.writes_mark hk (by decide)
  split
  · simp only [gives_bind, gives_pure, gives_expect, gives_spanFrom]
    exact fun _ => ⟨trivial, rfl⟩
  · simp only [gives_bind, gives_map, gives_pure, gives_expect, gives_spanFrom]
    exact (hi.exprLegible .default _ hret.good).mono fun _ _ he _ => ⟨he, rfl⟩

/-- An `else` behind the body of an `if` belongs to this `if`, so the body does not ask for it, and
an `if` that is read without one is not before one. -/
theorem branch_legible (hi : inner.ReadsBack) (hs : s.Good) (hk : s.kind = .kwIf) :
    inner.branch.Gives s fun stmt t => stmt.Legible ∧ (stmt.endsOpen → t.kind ≠ .kwElse) := by
  simp only [branch, gives_bind, gives_advance, gives_spanFrom, gives_pure]
  have hif := hs.writes_mark hk (by decide)
  refine ((hi.expr .default _ hif.good).and (hi.exprLegible .default _ hif.good)).mono ?_
  rintro condition t ⟨⟨hcondition, -, hfits⟩, hlegible⟩
  refine ((hi.stmt t hcondition.good).and (hi.stmtLegible t hcondition.good)).mono ?_
  rintro thenBody u ⟨⟨hthen, hregular⟩, hlegible', hopen⟩
  have hapart := Stmt.continuesExpr_eq_false hregular hthen.through hfits.power_eq_default
  simp only [after?, gives_bind, gives_kind]
  split
  · next helse =>
    -- an `if` at the end of the body would have taken the `else`
    have hclosed : thenBody.endsOpen = false := Bool.eq_false_iff.2 fun hends => hopen hends helse
    simp only [gives_bind, gives_advance, gives_pure]
    have hmark := hthen.good.writes_mark helse (by decide)
    refine (hi.stmtLegible _ hmark.good).mono ?_
    rintro elseBody v ⟨hlegible'', hopen'⟩
    exact ⟨⟨hlegible, hlegible', hlegible'', hapart, hclosed⟩, hopen'⟩
  · next helse => exact ⟨⟨hlegible, hlegible', hapart⟩, fun _ => helse⟩

theorem loop_legible (hi : inner.ReadsBack) (hs : s.Good) (hk : s.kind = .kwWhile) :
    inner.loop.Gives s fun stmt t => stmt.Legible ∧ (stmt.endsOpen → t.kind ≠ .kwElse) := by
  simp only [loop, gives_bind, gives_advance, gives_spanFrom, gives_pure]
  have hwhile := hs.writes_mark hk (by decide)
  refine ((hi.expr .default _ hwhile.good).and (hi.exprLegible .default _ hwhile.good)).mono ?_
  rintro condition t ⟨⟨hcondition, -, hfits⟩, hlegible⟩
  refine ((hi.stmt t hcondition.good).and (hi.stmtLegible t hcondition.good)).mono ?_
  rintro body u ⟨⟨hbody, hregular⟩, hlegible', hopen⟩
  have hapart := Stmt.continuesExpr_eq_false hregular hbody.through hfits.power_eq_default
  exact ⟨⟨hlegible, hlegible', hapart⟩, hopen⟩

theorem print_legible (hi : inner.ReadsBack) (hs : s.Good) (hk : s.kind = .kwPrint) :
    inner.print.Gives s fun stmt _ => stmt.Legible ∧ stmt.endsOpen = false := by
  simp only [print, gives_bind, gives_advance, gives_expect, gives_spanFrom, gives_pure]
  have hprint := hs.writes_mark hk (by decide)
  exact (hi.exprLegible .default _ hprint.good).mono fun _ _ he _ => ⟨he, rfl⟩

theorem blockStmt_legible (hi : inner.ReadsBack) (hs : s.Good) :
    inner.blockStmt.Gives s fun stmt _ => stmt.Legible ∧ stmt.endsOpen = false := by
  simp only [blockStmt, gives_bind, gives_pure]
  refine (block_legible hi hs).mono ?_
  rintro ⟨body, span⟩ t hbody
  exact ⟨Stmt.allLegible_iff.2 hbody, rfl⟩

theorem stmtAt_legible (hi : inner.ReadsBack) (hs : s.Good) :
    (inner.stmtAt .standard).Gives s fun stmt t =>
      stmt.Legible ∧ (stmt.endsOpen → t.kind ≠ .kwElse) := by
  have hclosed : ∀ {read : Parse Stmt},
      (read.Gives s fun stmt _ => stmt.Legible ∧ stmt.endsOpen = false) →
        read.Gives s fun stmt t => stmt.Legible ∧ (stmt.endsOpen → t.kind ≠ .kwElse) :=
    fun h => h.mono fun _ _ hstmt => ⟨hstmt.1, by simp [hstmt.2]⟩
  simp only [stmtAt, gives_bind, gives_kind]
  split
  · next rule hrule =>
    have hk := Grammar.standard_stmt hrule
    cases rule with
    | varDecl => exact hclosed (varDecl_legible hi hs (by obtain h | h := hk <;> simp [h]))
    | classDecl => exact hclosed (classDecl_legible hi hs hk)
    | fnDecl => exact hclosed (fnDecl_legible hi hs hk)
    | ret => exact hclosed (ret_legible hi hs hk)
    | branch => exact branch_legible hi hs hk
    | loop => exact loop_legible hi hs hk
    | print => exact hclosed (print_legible hi hs hk)
    | block => exact hclosed (blockStmt_legible hi hs)
  · exact hclosed (expressionStmt_legible hi hs)

end Inner

/-! ## All levels -/

namespace Grammar

/-- With any number of levels left the readers give what can be read back. -/
theorem inner_readsBack (limit room : Nat) : (standard.inner limit room).ReadsBack := by
  induction room with
  | zero => exact ⟨inner_sound limit 0, fun _ _ => trivial, fun _ _ _ => trivial⟩
  | succ room ih =>
    exact ⟨inner_sound limit (room + 1), fun s hs => Inner.stmtAt_legible ih hs,
      fun power s hs => Inner.exprAt_legible ih power hs⟩

/-- The rule for programs gives what can be read back. -/
theorem program_legible (limit : Nat) {s : TokenStream} (hs : s.Good) :
    (standard.program limit).Gives s fun program _ => program.Legible := by
  simp only [program, gives_bind, gives_position, gives_pure]
  have hbody : (repeatUntil (· == .eof) (standard.stmtIn limit limit)).Gives s _ :=
    gives_repeatUntil (fun stmt : Stmt => stmt.Regular ∧ stmt.Legible)
      (fun u hu _ => (inner_readsBack limit limit).stmtReads u hu) Stmt.pieces_required hs
  exact hbody.mono fun _ _ hread =>
    Stmt.allLegible_iff.2 fun stmt hmem => (hread.2.1 stmt hmem).2

end Grammar

/-- A program that was parsed from lexed tokens can be read back. -/
theorem parse_legible {parsedFile : String} {limit : Nat} {tokens : List Token} {program : Block}
    (hended : Token.Ended tokens) (hparse : parse tokens parsedFile limit = .ok program) :
    program.Legible := by
  obtain ⟨t, hrun⟩ := exists_run_of_parse hparse
  exact (Grammar.program_legible limit (TokenStream.good_ofTokens hended parsedFile)).of_ok hrun

end Nominal
