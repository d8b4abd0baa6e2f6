import Nominal.Proofs.Syntax.Prefix.Expressions
import Nominal.Proofs.Syntax.Prefix.Reread

/-!
# Statements that get stuck

Whatever rule gets stuck in a statement, what it has passed can be completed
(`Grammar.program_fails`). Two places need care. A body that is completed must not begin as the rest
of the condition before it, and does not, since reading has passed its first token or is free to
choose it. And a class that misses a member at a `fun` is completed from behind this token: what is
missing there is a name.
-/

namespace Nominal

open Parse Piece

namespace Inner

variable {inner : Inner} {s : TokenStream}

/-! ## Bodies -/

/-- A body behind a condition is completed to one that does not go on with the condition. -/
theorem body_fails (hi : inner.Completes) (hs : s.Good)
    (hpower : Grammar.standard.power s.kind = .default) :
    inner.stmt.Fails s
      (Stuck Stmt.pieces (fun stmt => stmt.Sits ∧ stmt.continuesExpr = false) s) := by
  refine (hi.stmtFails s hs).mono fun d t h => ?_
  obtain hnesting | ⟨hspan, stmt, ts, more, hsits, hall, hspelling⟩ := h
  · exact .inl hnesting
  refine .inr ⟨hspan, ?_⟩
  cases hpassed : ts ++ t.remaining.take (d.lookahead t.remaining) with
  | nil =>
    -- nothing was passed, so the body is free to choose
    refine ⟨.least, ts, Stmt.least.pieces.flatMap write, ⟨Stmt.sits_least, by decide⟩, hall, ?_⟩
    rw [hpassed]
    exact spelling_write Stmt.least_writable
  | cons u us =>
    -- the first of these tokens is the current one, passed or not
    have hfirst : u = s.current := by
      have hprefix : ts ++ t.remaining.take (d.lookahead t.remaining) <+: s.remaining := by
        rw [hall]
        exact (List.prefix_append_right_inj ts).2 (List.take_prefix _ _)
      rw [hpassed] at hprefix
      exact (List.cons_prefix_cons.1 hprefix).1
    have hthrough : Through stmt.pieces ((u :: us ++ more) ++ [t.current]) [t.current] :=
      ⟨by simp, _, hpassed ▸ hspelling, rfl⟩
    refine ⟨stmt, ts, more, ⟨hsits, ?_⟩, hall, hspelling⟩
    refine Stmt.continuesExpr_eq_false hsits.1 hthrough ?_
    rw [hfirst]
    exact hpower

/-! ## Declarations -/

/-- Whether a statement may stand in a class and can be printed and read back. -/
def Belongs (m : Stmt) : Prop :=
  m.Sits ∧ m.memberName?.isSome

theorem expressionStmt_fails (hi : inner.Completes) (hs : s.Good) :
    inner.expressionStmt.Fails s (Stuck Stmt.pieces Stmt.Sits s) := by
  refine .bind ((hi.exprFails .default s hs).mono fun d t h => ?_)
    ((hi.exprReads .default s hs).mono ?_)
  · refine h.within [.mark .semicolon] hs.writes_nil (fun e he => ?_) (by simp [isWritable_mark])
    exact ⟨⟨.expression e, .nowhere⟩, ⟨he.1, he.2.1⟩, rfl⟩
  · rintro e t ⟨he, hregular, hlegible⟩
    refine .last (fails_expect fun d hd => ?_) fun _ _ => trivial
    exact .here ⟨.expression e, .nowhere⟩ [.mark .semicolon] he hd ⟨hregular, hlegible⟩ rfl
      (by simp [isWritable_mark])

theorem after?_fails {α : Type} {mark : Kind} {read : Parse α} {pieces : α → List Piece}
    {good : α → Prop} (hread : ∀ u : TokenStream, u.Good → read.Fails u (Stuck pieces good u))
    (hmark : mark ∉ [.eof, .identifier, .number, .string]) (hs : s.Good) :
    (after? mark read).Fails s
      (Stuck (fun a? : Option α => Piece.after mark (a?.map pieces)) (fun a? => ∀ a ∈ a?, good a)
        s) := by
  refine fails_kind ?_
  split
  · next hk =>
    have hstart := hs.writes_mark hk hmark
    refine fails_advance (.last ((hread _ hstart.good).mono fun d t h => ?_) fun _ _ => trivial)
    exact h.behind hstart fun a ha => ⟨some a, by simpa using ha, by simp [Piece.after]⟩
  · trivial

theorem varDecl_fails (hi : inner.Completes) (hs : s.Good)
    (hk : s.kind = .kwVal ∨ s.kind = .kwVar) :
    inner.varDecl.Fails s
      (Stuck Stmt.pieces Belongs s) := by
  have hword : ∃ mode : Mode, s.Writes [.mark mode.keyword] s.next := by
    obtain hk | hk := hk
    · exact ⟨.val, hs.writes_mark hk (by decide)⟩
    · exact ⟨.var, hs.writes_mark hk (by decide)⟩
  obtain ⟨mode, hword⟩ := hword
  have hgood : ∀ {name type? value?}, (∀ value ∈ value?, value.Regular ∧ value.Legible) →
      let stmt : Stmt := ⟨.varDecl name .nowhere mode type? value?, .nowhere⟩
      Belongs stmt := fun hvalue =>
    ⟨⟨StmtForm.regular_varDecl.2 fun value hmem => (hvalue value hmem).1,
      StmtForm.legible_varDecl.2 fun value hmem => (hvalue value hmem).2⟩, rfl⟩
  refine fails_advance (.bind (fails_expectDetailed (by decide) fun d hd => ?_)
    ((gives_expectDetailed _ _).2 fun hname => ?_))
  · exact .here ⟨.varDecl "x" .nowhere mode none none, .nowhere⟩
      [.token .identifier "x", .mark .semicolon] hword hd (hgood (by simp)) rfl
      (by simp [isWritable_mark])
  have hid := hword.append (hword.good.writes_token hname (by decide))
  refine .bind ((after?_fails hi.typeFails (by decide) hid.good).mono fun d t h => ?_)
    ((after?_sound hi.type (by decide) _ hid.good).mono ?_)
  · refine h.within [.mark .semicolon] hid (fun type? _ => ?_) (by simp [isWritable_mark])
    exact ⟨⟨.varDecl s.next.current.value .nowhere mode type? none, .nowhere⟩, hgood (by simp),
      by simp [Stmt.pieces, StmtForm.pieces_varDecl, Piece.after]⟩
  rintro type? t ⟨htype, -⟩
  have hhead := hid.append htype
  have hvalue : ∀ u : TokenStream, u.Good → (inner.expr .default).Fails u
      (Stuck Expr.pieces (fun e => e.Regular ∧ e.Legible) u) := fun u hu =>
    (hi.exprFails .default u hu).mono fun d v h =>
      h.imp fun e he => ⟨e, ⟨he.1, he.2.1⟩, fun _ => id⟩
  refine .bind ((after?_fails hvalue (by decide) hhead.good).mono fun d u h => ?_)
    ((after?_sound (hi.exprReads .default) (by decide) _ hhead.good).mono ?_)
  · refine h.within [.mark .semicolon] hhead (fun value? hvalue? => ?_) (by simp [isWritable_mark])
    exact ⟨⟨.varDecl s.next.current.value .nowhere mode type? value?, .nowhere⟩, hgood hvalue?,
      by simp [Stmt.pieces, StmtForm.pieces_varDecl]⟩
  · rintro value? u ⟨hwrites, hvalue?⟩
    refine .last (fails_expect fun d hd => ?_) fun _ _ => trivial
    exact .here ⟨.varDecl s.next.current.value .nowhere mode type? value?, .nowhere⟩
      [.mark .semicolon] (hhead.append hwrites) hd (hgood hvalue?)
      (by simp [Stmt.pieces, StmtForm.pieces_varDecl]) (by simp [isWritable_mark])

theorem fnDecl_fails (hi : inner.Completes) (hs : s.Good) (hk : s.kind = .kwFun) :
    inner.fnDecl.Fails s (Stuck Stmt.pieces
      (fun stmt => stmt.Sits ∧ (s.peek 1 = .identifier → stmt.memberName?.isSome)) s) := by
  refine fails_get ?_
  split
  · next hpeek =>
    have hfun := hs.writes_mark hk (by decide)
    have hname : s.next.kind = .identifier := hs.kind_next (by simp [hk]) ▸ hpeek
    have hid := hfun.append (hfun.good.writes_token hname (by decide))
    refine fails_advance (fails_advance (.last ((signature_fails hi hid.good).mono fun d t h => ?_)
      fun _ _ => trivial))
    refine h.behind hid fun sig hsig => ?_
    obtain ⟨parameters, result?, ⟨body, span⟩⟩ := sig
    exact ⟨⟨.fnDecl s.next.current.value .nowhere ⟨parameters, result?, ⟨body, span⟩⟩, .nowhere⟩,
      ⟨Stmt.all_of_sits hsig, fun _ => rfl⟩, by simp [Stmt.pieces, StmtForm.pieces]⟩
  · next hpeek =>
    refine (expressionStmt_fails hi hs).mono fun d t h => h.imp fun stmt hstmt => ?_
    exact ⟨stmt, ⟨hstmt, fun h => absurd h hpeek⟩, fun _ => id⟩

/-! ## Classes -/

/-- A class that misses a member at a `fun` is completed from behind this token. -/
theorem nameless_fails (hs : s.Good) (hk : s.kind = .kwFun) (hname : s.peek 1 ≠ .identifier) :
    (unexpectedDetailed "expected member declaration in class body" : Parse Stmt).Fails s
      (Stuck Stmt.pieces Belongs s) := by
  let m : Stmt := ⟨.fnDecl "x" .nowhere ⟨[], none, ⟨[], .nowhere⟩⟩, .nowhere⟩
  have hm : Belongs m := ⟨⟨trivial, trivial⟩, rfl⟩
  have hrest : ∀ p ∈ m.pieces.tail, p.IsWritable := fun p hp =>
    m.writable hm.1.2 p (List.mem_of_mem_tail hp)
  refine .inr ⟨rfl, m, [], m.pieces.tail.flatMap write, hm, rfl, ?_⟩
  rw [Diagnostic.lookahead_eq_one hs hk hname (by simp [Cause.isMissingMember])]
  exact .cons (hs.spells_mark hk (by decide)) (spelling_write hrest)

theorem classMember_fails (hi : inner.Completes) (hs : s.Good) :
    inner.classMember.Fails s (Stuck Stmt.pieces Belongs s) := by
  have hmissing : s.kind ≠ .kwFun →
      (unexpectedDetailed "expected member declaration in class body" : Parse Stmt).Fails s
        (Stuck Stmt.pieces Belongs s) := by
    intro hk
    have hd : Diagnostic.At ⟨.unexpectedTokenDetailed s.current.value
        "expected member declaration in class body", s.current.span⟩ s :=
      ⟨rfl, if_neg fun hnameless => hk hnameless.2.1⟩
    exact .here ⟨.varDecl "x" .nowhere .val none none, .nowhere⟩
      [.mark .kwVal, .token .identifier "x", .mark .semicolon] hs.writes_nil hd
      ⟨⟨trivial, trivial⟩, rfl⟩ rfl (by simp [isWritable_mark])
  rw [classMember_eq]
  refine fails_kind ?_
  split
  · next hk => exact varDecl_fails hi hs hk
  · split
    · next hk =>
      refine fails_get ?_
      split
      · next hpeek =>
        refine (fnDecl_fails hi hs hk).mono fun d t h => h.imp fun m hm => ?_
        exact ⟨m, ⟨hm.1, hm.2 hpeek⟩, fun _ => id⟩
      · next hname => exact nameless_fails hs hk hname
    · next hk => exact hmissing hk

/-- The body of a class gets stuck, or one of its members does. -/
theorem classBody_fails (hi : inner.Completes) {t : TokenStream} {name : String}
    {parameters : List Parameter} (make : List Stmt → Span → Stmt) (start : Position)
    (hhead : s.Writes ([.mark .kwClass, .token .identifier name] ++
      Parameter.classPieces parameters) t) :
    (do
      let _ ← expect .openCurly
      let members ← repeatUntil (· == .closeCurly) inner.classMember
      let _ ← expect .closeCurly
      return make members (← spanFrom start) : Parse Stmt).Fails t
      (Stuck Stmt.pieces Stmt.Sits s) := by
  have hsits : ∀ members, (∀ m ∈ members, Belongs m) →
      Stmt.Sits ⟨.classDecl name .nowhere parameters members, .nowhere⟩ := by
    intro members hmembers
    obtain ⟨hregular, hlegible⟩ := Stmt.all_of_sits fun m hm => (hmembers m hm).1
    exact ⟨⟨hregular, fun m hm => (hmembers m hm).2⟩, hlegible⟩
  refine .bind (fails_expect fun d hd => ?_) ((gives_expect _).2 fun hopen => ?_)
  · exact .here ⟨.classDecl name .nowhere parameters [], .nowhere⟩ (Piece.braced []) hhead hd
      (hsits [] (by simp)) (by simp [Stmt.pieces, StmtForm.pieces]) (isWritable_braced (by simp))
  have hstart := hhead.append (hhead.good.writes_mark hopen (by decide))
  have hread : ∀ u : TokenStream, u.Good → (u.kind == .closeCurly) = false →
      inner.classMember.Gives u fun m v => u.Writes m.pieces v ∧ Belongs m := by
    intro u hu _
    refine ((classMember_sound hi.toSound u hu).and (classMember_legible hi.toReadsBack hu)).mono ?_
    rintro m v ⟨⟨hwrites, hregular, hmember⟩, hlegible, -⟩
    exact ⟨hwrites, ⟨hregular, hlegible⟩, hmember⟩
  refine .bind ((repeatUntil_fails hread (fun u hu => classMember_fails hi hu) hstart.good).mono
    fun d u h => ?_) ((gives_repeatUntil Belongs hread Stmt.pieces_required hstart.good).mono ?_)
  · refine h.within [.mark .closeCurly] hstart (fun members hmembers => ?_)
      (by simp [isWritable_mark])
    exact ⟨⟨.classDecl name .nowhere parameters members, .nowhere⟩, hsits members hmembers,
      by simp [Stmt.pieces, StmtForm.pieces, Piece.braced]⟩
  · rintro members u ⟨hwrites, hmembers, -⟩
    refine .last (fails_expect fun d hd => ?_) fun _ _ => trivial
    exact .here ⟨.classDecl name .nowhere parameters members, .nowhere⟩ [.mark .closeCurly]
      (hstart.append hwrites) hd (hsits members hmembers)
      (by simp [Stmt.pieces, StmtForm.pieces, Piece.braced]) (by simp [isWritable_mark])

theorem classDecl_fails (hi : inner.Completes) (hs : s.Good) (hk : s.kind = .kwClass) :
    inner.classDecl.Fails s (Stuck Stmt.pieces Stmt.Sits s) := by
  have hclass := hs.writes_mark hk (by decide)
  have hsits : ∀ name parameters,
      Stmt.Sits ⟨.classDecl name .nowhere parameters [], .nowhere⟩ := fun name parameters =>
    ⟨⟨trivial, by simp⟩, trivial⟩
  have hbraces : ∀ p ∈ Piece.braced [], p.IsWritable := isWritable_braced (by simp)
  refine fails_advance (.bind (fails_expectDetailed (by decide) fun d hd => ?_)
    ((gives_expectDetailed _ _).2 fun hname => ?_))
  · exact .here ⟨.classDecl "x" .nowhere [] [], .nowhere⟩
      ([.token .identifier "x", .optionalParens] ++ Piece.braced []) hclass hd (hsits _ _) rfl
      (by simpa using hbraces)
  have hid := hclass.append (hclass.good.writes_token hname (by decide))
  refine fails_kind ?_
  split
  · refine .bind ((parameters_fails hi hid.good).mono fun d t h => ?_)
      (((parameter_sound hi.toSound).parenthesised _ hid.good).mono ?_)
    · have hclassPieces : Stuck Parameter.classPieces (fun _ => True) _ d t := h.imp
        fun parameters _ => ⟨parameters, trivial, fun _ => Parameter.spelling_classPieces⟩
      refine hclassPieces.within (Piece.braced []) hid (fun parameters _ => ?_) hbraces
      exact ⟨⟨.classDecl s.next.current.value .nowhere parameters [], .nowhere⟩, hsits _ _,
        by simp [Stmt.pieces, StmtForm.pieces]⟩
    · rintro parameters t ⟨hparameters, -⟩
      exact classBody_fails hi _ _
        (hid.append (hparameters.imp fun _ => Parameter.spelling_classPieces))
  · have hnone : s.next.next.Writes (Parameter.classPieces []) s.next.next :=
      ⟨hid.good, [], .single .noParens, rfl⟩
    exact classBody_fails hi _ _ (hid.append hnone)

/-! ## Control -/

theorem ret_fails (hi : inner.Completes) (hs : s.Good) (hk : s.kind = .kwReturn) :
    inner.ret.Fails s (Stuck Stmt.pieces Stmt.Sits s) := by
  have hret := hs.writes_mark hk (by decide)
  have hend : ∀ (value? : Option Expr) (t : TokenStream),
      s.Writes (.mark .kwReturn :: (value?.map Expr.pieces).getD []) t →
      (∀ value ∈ value?, value.Regular ∧ value.Legible) →
      (expect .semicolon).Fails t (Stuck Stmt.pieces Stmt.Sits s) := by
    intro value? t hwrites hvalue
    refine fails_expect fun d hd => ?_
    refine .here ⟨.ret value?, .nowhere⟩ [.mark .semicolon] hwrites hd
      ⟨StmtForm.regular_ret.2 fun value hmem => (hvalue value hmem).1,
        StmtForm.legible_ret.2 fun value hmem => (hvalue value hmem).2⟩ ?_
      (by simp [isWritable_mark])
    cases value? <;> simp [Stmt.pieces, StmtForm.pieces]
  refine fails_advance (fails_kind ?_)
  split
  · exact .bind trivial (.last (hend none _ hret (by simp)) fun _ _ => trivial)
  · refine .bind (.map ((hi.exprFails .default _ hret.good).mono fun d t h => ?_))
      ((gives_map _ _).2 ((hi.exprReads .default _ hret.good).mono ?_))
    · refine h.within [.mark .semicolon] hret (fun e he => ?_) (by simp [isWritable_mark])
      exact ⟨⟨.ret (some e), .nowhere⟩, ⟨he.1, he.2.1⟩, rfl⟩
    · rintro e t ⟨he, hgood⟩
      exact .last (hend (some e) t (hret.append he) (by simpa using hgood)) fun _ _ => trivial

/-- An `if` that gets stuck before its body is completed with the smallest one, and one that gets
stuck behind its body has an `else`. -/
theorem branch_fails (hi : inner.Completes) (hs : s.Good) (hk : s.kind = .kwIf) :
    inner.branch.Fails s (Stuck Stmt.pieces Stmt.Sits s) := by
  have hif := hs.writes_mark hk (by decide)
  refine fails_advance (.bind ((hi.exprFails .default _ hif.good).mono fun d t h => ?_)
    (((hi.expr .default _ hif.good).and (hi.exprLegible .default _ hif.good)).mono ?_))
  · refine h.within Stmt.least.pieces hif (fun condition hcondition => ?_)
      Stmt.least_writable
    obtain ⟨hregular, hlegible, -⟩ := hcondition
    exact ⟨⟨.branch condition .least none, .nowhere⟩,
      ⟨⟨hregular, trivial⟩, hlegible, trivial, by decide⟩, rfl⟩
  rintro condition t ⟨⟨hcondition, hregular, hfits⟩, hlegible⟩
  have hhead := hif.append hcondition
  have hpower := hfits.power_eq_default
  refine .bind ((body_fails hi hcondition.good hpower).mono fun d u h => ?_)
    (((hi.stmt t hcondition.good).and (hi.stmtLegible t hcondition.good)).mono ?_)
  · refine h.behind hhead fun body hbody => ?_
    obtain ⟨⟨hregular', hlegible'⟩, hapart⟩ := hbody
    exact ⟨⟨.branch condition body none, .nowhere⟩,
      ⟨⟨hregular, hregular'⟩, hlegible, hlegible', hapart⟩, by simp [Stmt.pieces, StmtForm.pieces]⟩
  rintro thenBody u ⟨⟨hthen, hregular'⟩, hlegible', hopen⟩
  have hapart := Stmt.continuesExpr_eq_false hregular' hthen.through hpower
  refine .last (fails_kind ?_) fun _ _ => trivial
  split
  · next helse =>
    -- an `if` at the end of the body would have taken the `else`
    have hclosed : thenBody.endsOpen = false := Bool.eq_false_iff.2 fun hends => hopen hends helse
    have hmark := (hhead.append hthen).append (hthen.good.writes_mark helse (by decide))
    refine fails_advance (.last ((hi.stmtFails _ hmark.good).mono fun d v h => ?_)
      fun _ _ => trivial)
    refine h.behind hmark fun elseBody helseBody => ?_
    exact ⟨⟨.branch condition thenBody (some elseBody), .nowhere⟩,
      ⟨⟨hregular, hregular', helseBody.1⟩, hlegible, hlegible', helseBody.2, hapart, hclosed⟩,
      by simp [Stmt.pieces, StmtForm.pieces]⟩
  · trivial

theorem loop_fails (hi : inner.Completes) (hs : s.Good) (hk : s.kind = .kwWhile) :
    inner.loop.Fails s (Stuck Stmt.pieces Stmt.Sits s) := by
  have hwhile := hs.writes_mark hk (by decide)
  refine fails_advance (.bind ((hi.exprFails .default _ hwhile.good).mono fun d t h => ?_)
    ((hi.exprReads .default _ hwhile.good).and (hi.expr .default _ hwhile.good) |>.mono ?_))
  · refine h.within Stmt.least.pieces hwhile (fun condition hcondition => ?_)
      Stmt.least_writable
    obtain ⟨hregular, hlegible, -⟩ := hcondition
    exact ⟨⟨.loop condition .least, .nowhere⟩,
      ⟨⟨hregular, trivial⟩, hlegible, trivial, by decide⟩, rfl⟩
  rintro condition t ⟨⟨hcondition, hregular, hlegible⟩, -, -, hfits⟩
  refine .last ((body_fails hi hcondition.good hfits.power_eq_default).mono fun d u h => ?_)
    fun _ _ => trivial
  refine h.behind (hwhile.append hcondition) fun body hbody => ?_
  obtain ⟨⟨hregular', hlegible'⟩, hapart⟩ := hbody
  exact ⟨⟨.loop condition body, .nowhere⟩, ⟨⟨hregular, hregular'⟩, hlegible, hlegible', hapart⟩,
    by simp [Stmt.pieces, StmtForm.pieces]⟩

theorem print_fails (hi : inner.Completes) (hs : s.Good) (hk : s.kind = .kwPrint) :
    inner.print.Fails s (Stuck Stmt.pieces Stmt.Sits s) := by
  have hprint := hs.writes_mark hk (by decide)
  refine fails_advance (.bind ((hi.exprFails .default _ hprint.good).mono fun d t h => ?_)
    ((hi.exprReads .default _ hprint.good).mono ?_))
  · refine h.within [.mark .semicolon] hprint (fun e he => ?_) (by simp [isWritable_mark])
    exact ⟨⟨.print e, .nowhere⟩, ⟨he.1, he.2.1⟩, rfl⟩
  · rintro e t ⟨he, hregular, hlegible⟩
    refine .last (fails_expect fun d hd => ?_) fun _ _ => trivial
    exact .here ⟨.print e, .nowhere⟩ [.mark .semicolon] (hprint.append he) hd
      ⟨hregular, hlegible⟩ rfl (by simp [isWritable_mark])

theorem blockStmt_fails (hi : inner.Completes) (hs : s.Good) :
    inner.blockStmt.Fails s (Stuck Stmt.pieces Stmt.Sits s) := by
  refine .last ((block_fails hi hs).mono fun d t h => ?_) fun _ _ => trivial
  refine h.behind hs.writes_nil fun b hb => ⟨⟨.block b, .nowhere⟩, ?_⟩
  obtain ⟨body, span⟩ := b
  exact ⟨Stmt.all_of_sits hb, by simp [Stmt.pieces, StmtForm.pieces]⟩

theorem stmtAt_fails (hi : inner.Completes) (hs : s.Good) :
    (inner.stmtAt .standard).Fails s (Stuck Stmt.pieces Stmt.Sits s) := by
  have hforget : ∀ {good : Stmt → Prop} {d : Diagnostic} {t : TokenStream},
      Stuck Stmt.pieces (fun stmt => stmt.Sits ∧ good stmt) s d t →
        Stuck Stmt.pieces Stmt.Sits s d t :=
    fun h => h.imp fun stmt hstmt => ⟨stmt, hstmt.1, fun _ => id⟩
  refine fails_kind ?_
  split
  · next rule hrule =>
    have hk := Grammar.standard_stmt hrule
    cases rule with
    | varDecl => exact (varDecl_fails hi hs hk).mono fun _ _ => hforget
    | classDecl => exact classDecl_fails hi hs hk
    | fnDecl => exact (fnDecl_fails hi hs hk).mono fun _ _ => hforget
    | ret => exact ret_fails hi hs hk
    | branch => exact branch_fails hi hs hk
    | loop => exact loop_fails hi hs hk
    | print => exact print_fails hi hs hk
    | block => exact blockStmt_fails hi hs
  · exact expressionStmt_fails hi hs

end Inner

/-! ## All levels -/

namespace Grammar

/-- With any number of levels left, what the readers have passed can be completed. -/
theorem inner_completes (limit room : Nat) : (standard.inner limit room).Completes := by
  induction room with
  | zero =>
    exact ⟨inner_readsBack limit 0, fun _ _ => .inl ⟨limit, rfl⟩, fun _ _ _ => .inl ⟨limit, rfl⟩,
      fun _ _ => .inl ⟨limit, rfl⟩⟩
  | succ room ih =>
    exact ⟨inner_readsBack limit (room + 1), fun s hs => Inner.stmtAt_fails ih hs,
      fun power s hs => Inner.exprAt_fails ih power hs, fun s hs => Inner.typeAt_fails ih hs⟩

/-- What the rule for programs has passed when it stops can be completed to a program. -/
theorem program_fails (limit : Nat) {s : TokenStream} (hs : s.Good) :
    (standard.program limit).Fails s
      (Stuck Block.pieces (fun b => b.Regular ∧ b.Legible) s) := by
  have hi := inner_completes limit limit
  refine fails_position (.last ?_ fun _ _ => trivial)
  refine (repeatUntil_fails (fun u hu _ => hi.stmtReads u hu) hi.stmtFails hs).mono fun d t h => ?_
  refine h.behind hs.writes_nil fun body hbody => ⟨⟨body, .nowhere⟩, ?_⟩
  exact ⟨Stmt.all_of_sits hbody, by simp [Block.pieces]⟩

end Grammar

end Nominal
