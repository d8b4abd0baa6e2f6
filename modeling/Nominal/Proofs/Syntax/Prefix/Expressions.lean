import Nominal.Proofs.Syntax.Prefix.Stuck
import Nominal.Proofs.Syntax.ReadBack

/-!
# Types, functions and expressions that get stuck

Whatever rule gets stuck in a type, a function or an expression, what it has passed can be
completed. Each rule is proved from `Inner.Completes`, the same promise for the readers one level
further in. A completed expression still fits its surroundings: its own operator binds more tightly
than the power it is read at, so it may become the right side of the operator before it.
-/

namespace Nominal

open Parse Piece

/-! ## The smallest parts -/

/-- A type of one word. -/
def TypeExpr.least : TypeExpr :=
  .named "T" .nowhere

/-- An expression of one word. -/
def Expr.least : Expr :=
  ⟨.symbol "x", .nowhere⟩

/-- A statement of two marks. -/
def Stmt.least : Stmt :=
  ⟨.block ⟨[], .nowhere⟩, .nowhere⟩

/-- Whether an expression can be printed and read back at `power`. -/
def Expr.Sits (power : BindingPower) (e : Expr) : Prop :=
  e.Regular ∧ e.Legible ∧ ∀ q ∈ e.power?, power < q

/-- Whether a statement can be printed and read back. -/
def Stmt.Sits (stmt : Stmt) : Prop :=
  stmt.Regular ∧ stmt.Legible

theorem Expr.sits_of_power?_eq_none {power : BindingPower} {e : Expr} (hregular : e.Regular)
    (hlegible : e.Legible) (hpower : e.power? = none) : e.Sits power :=
  ⟨hregular, hlegible, by simp [hpower]⟩

theorem Expr.sits_least (power : BindingPower) : Expr.least.Sits power :=
  Expr.sits_of_power?_eq_none trivial trivial rfl

theorem Stmt.sits_least : Stmt.least.Sits :=
  ⟨trivial, trivial⟩

theorem Stmt.least_writable : ∀ p ∈ Stmt.least.pieces, p.IsWritable :=
  Stmt.least.writable Stmt.sits_least.2

theorem Stmt.all_of_sits {body : List Stmt} (h : ∀ stmt ∈ body, stmt.Sits) :
    Stmt.AllRegular body ∧ Stmt.AllLegible body :=
  ⟨Stmt.allRegular_iff.2 fun stmt hmem => (h stmt hmem).1,
    Stmt.allLegible_iff.2 fun stmt hmem => (h stmt hmem).2⟩

theorem Expr.all_of_forall {es : List Expr} (h : ∀ e ∈ es, e.Regular ∧ e.Legible) :
    Expr.AllRegular es ∧ Expr.AllLegible es :=
  ⟨Expr.allRegular_iff.2 fun e he => (h e he).1, Expr.allLegible_iff.2 fun e he => (h e he).2⟩

namespace Inner

/-- What the readers of nested parts promise, completions included. -/
structure Completes (inner : Inner) : Prop extends inner.ReadsBack where
  stmtFails : ∀ s, s.Good → inner.stmt.Fails s (Stuck Stmt.pieces Stmt.Sits s)
  exprFails : ∀ power s, s.Good →
    (inner.expr power).Fails s (Stuck Expr.pieces (Expr.Sits power) s)
  typeFails : ∀ s, s.Good → inner.type.Fails s (Stuck TypeExpr.pieces (fun _ => True) s)

variable {inner : Inner} {s : TokenStream}

/-! ## Types -/

theorem functionType_fails (hi : inner.Completes) (hs : s.Good) (hk : s.kind = .identifier)
    (hvalue : s.current.value = functionTypeName) :
    inner.functionType.Fails s (Stuck TypeExpr.pieces (fun _ => True) s) := by
  have hword := hs.writes_token hk (by decide)
  rw [hvalue] at hword
  refine fails_advance ?_
  refine .bind ((parenthesised_fails hi.type hi.typeFails hword.good).mono fun d t h => ?_)
    ((hi.type.parenthesised _ hword.good).mono ?_)
  · refine h.within (.mark .arrow :: TypeExpr.least.pieces) hword (fun as _ => ?_)
      (by simp [isWritable_mark, TypeExpr.least, TypeExpr.pieces])
    exact ⟨.function as .least .nowhere, trivial, by simp [TypeExpr.pieces, functionTypeName]⟩
  rintro parameters t ⟨hparameters, -⟩
  have hhead := hword.append hparameters
  refine .bind (fails_expectDetailed (by decide) fun d hd => ?_)
    ((gives_expectDetailed _ _).2 fun harrow => ?_)
  · exact .here (.function parameters .least .nowhere) (.mark .arrow :: TypeExpr.least.pieces)
      hhead hd trivial (by simp [TypeExpr.pieces, functionTypeName])
      (by simp [isWritable_mark, TypeExpr.least, TypeExpr.pieces])
  have hmark := hhead.append (hparameters.good.writes_mark harrow (by decide))
  refine .last ((hi.typeFails _ hmark.good).mono fun d u h => ?_) fun _ _ => trivial
  refine h.behind hmark fun result _ => ?_
  exact ⟨.function parameters result .nowhere, trivial, by simp [TypeExpr.pieces, functionTypeName]⟩

theorem typeAt_fails (hi : inner.Completes) (hs : s.Good) :
    (inner.typeAt .standard).Fails s (Stuck TypeExpr.pieces (fun _ => True) s) := by
  have hleast : ∀ d : Diagnostic, d.At s → Stuck TypeExpr.pieces (fun _ => True) s d s :=
    fun d hd => .here .least _ hs.writes_nil hd trivial rfl TypeExpr.least.writable
  refine fails_kind ?_
  split
  · next rule hrule =>
    obtain ⟨hk, rfl⟩ := Grammar.standard_type hrule
    refine fails_get ?_
    split
    · next h => exact functionType_fails hi hs hk h.1
    · exact .last (fails_expect hleast) fun _ _ => trivial
  · exact fails_failWith rfl hleast

/-! ## Functions and blocks -/

theorem block_fails (hi : inner.Completes) (hs : s.Good) :
    inner.block.Fails s (Stuck (fun b : Block => Piece.braced (b.body.map Stmt.pieces))
      (fun b => ∀ stmt ∈ b.body, stmt.Sits) s) := by
  refine .bind (fails_expect fun d hd => ?_) ((gives_expect _).2 fun hopen => ?_)
  · exact .here ⟨[], .nowhere⟩ (Piece.braced []) hs.writes_nil hd (by simp) rfl
      (isWritable_braced (by simp))
  have hstart := hs.writes_mark hopen (by decide)
  have hread : ∀ u : TokenStream, u.Good → (u.kind == .closeCurly) = false →
      (kind >>= fun k => if k = .eof then unexpectedDetailed "expected `\x7d` to close the block"
        else inner.stmt).Gives u fun stmt t => u.Writes stmt.pieces t ∧ stmt.Sits := by
    intro u hu _
    simp only [gives_bind, gives_kind]
    split
    · exact gives_unexpectedDetailed _
    · exact hi.stmtReads u hu
  refine .bind ((repeatUntil_fails hread (fun u hu => fails_kind ?_) hstart.good).mono
    fun d t h => ?_) ((gives_repeatUntil Stmt.Sits hread Stmt.pieces_required hstart.good).mono ?_)
  · split
    · exact fails_unexpectedDetailed (by decide) fun d hd =>
        .here .least _ hu.writes_nil hd Stmt.sits_least rfl Stmt.least_writable
    · exact hi.stmtFails u hu
  · refine h.within [.mark .closeCurly] hstart (fun body hbody => ?_) (by simp [isWritable_mark])
    exact ⟨⟨body, .nowhere⟩, hbody, rfl⟩
  · rintro body t ⟨hwrites, hbody, -⟩
    refine .last (fails_expect fun d hd => ?_) fun _ _ => trivial
    exact .here ⟨body, .nowhere⟩ [.mark .closeCurly] (hstart.append hwrites) hd hbody rfl
      (by simp [isWritable_mark])

theorem parameter_fails (hi : inner.Completes) (hs : s.Good) :
    inner.parameter.Fails s (Stuck Parameter.pieces (fun _ => True) s) := by
  refine fails_position ?_
  refine .bind ?_ ((parameterMode_sound s hs).mono ?_)
  · refine fails_kind ?_
    split <;> trivial
  rintro mode t ⟨hmode, -⟩
  refine .bind (fails_expectDetailed (by decide) fun d hd => ?_)
    ((gives_expectDetailed _ _).2 fun hname => ?_)
  · exact .here ⟨"x", mode, .least, .nowhere⟩ _ hmode hd trivial rfl
      (by simp [isWritable_mark, TypeExpr.least, TypeExpr.pieces])
  have hword := hmode.append (hmode.good.writes_token hname (by decide))
  refine .bind (fails_expectDetailed (by decide) fun d hd => ?_)
    ((gives_expectDetailed _ _).2 fun hcolon => ?_)
  · exact .here ⟨t.current.value, mode, .least, .nowhere⟩ _ hword hd trivial rfl
      (by simp [isWritable_mark, TypeExpr.least, TypeExpr.pieces])
  have hmark := hword.append (hword.good.writes_mark hcolon (by decide))
  refine .last ((hi.typeFails _ hmark.good).mono fun d u h => ?_) fun _ _ => trivial
  exact h.behind hmark fun type _ => ⟨⟨t.current.value, mode, type, .nowhere⟩, trivial,
    by simp [Parameter.pieces]⟩

theorem parameters_fails (hi : inner.Completes) (hs : s.Good) :
    inner.parameters.Fails s (Stuck
      (fun parameters : List Parameter => Piece.parenthesised (parameters.map Parameter.pieces))
      (fun _ => True) s) :=
  (parenthesised_fails (parameter_sound hi.toSound) (fun _ hu => parameter_fails hi hu) hs).mono
    fun _ _ h => h.imp fun parameters _ => ⟨parameters, trivial, fun _ => id⟩

theorem resultType?_fails (hi : inner.Completes) (hs : s.Good) :
    inner.resultType?.Fails s (Stuck
      (fun result? : Option TypeExpr => result?.elim [] fun result => .resultMark :: result.pieces)
      (fun _ => True) s) := by
  refine fails_kind ?_
  split
  · next hk =>
    have hmark : s.Writes [.resultMark] s.next := by
      obtain hk | hk := hk
      · exact hs.writes_one (by simp [hk]) (.colon (hs.spells_mark hk (by decide)))
      · exact hs.writes_one (by simp [hk]) (.arrow (hs.spells_mark hk (by decide)))
    refine fails_advance (.last ((hi.typeFails _ hmark.good).mono fun d t h => ?_)
      fun _ _ => trivial)
    exact h.behind hmark fun result _ => ⟨some result, trivial, by simp⟩
  · trivial

theorem signature_fails (hi : inner.Completes) (hs : s.Good) :
    inner.signature.Fails s (Stuck
      (fun sig : Signature =>
        Signature.piecesWith sig.parameters sig.result? (sig.body.body.map Stmt.pieces))
      (fun sig => ∀ stmt ∈ sig.body.body, stmt.Sits) s) := by
  have hbraces : ∀ p ∈ Piece.braced [], p.IsWritable := isWritable_braced (by simp)
  refine .bind ((parameters_fails hi hs).mono fun d t h => ?_)
    (((parameter_sound hi.toSound).parenthesised s hs).mono ?_)
  · refine h.within (Piece.braced []) hs.writes_nil (fun parameters _ => ?_) hbraces
    exact ⟨⟨parameters, none, ⟨[], .nowhere⟩⟩, by simp, by simp [Signature.piecesWith]⟩
  rintro parameters t ⟨hparameters, -⟩
  refine .bind ((resultType?_fails hi hparameters.good).mono fun d u h => ?_)
    ((resultType?_sound hi.toSound t hparameters.good).mono ?_)
  · refine h.within (Piece.braced []) hparameters (fun result? _ => ?_) hbraces
    exact ⟨⟨parameters, result?, ⟨[], .nowhere⟩⟩, by simp, by simp [Signature.piecesWith]⟩
  rintro result? u ⟨hresult, -⟩
  have hhead := hparameters.append hresult
  refine .last ((block_fails hi hresult.good).mono fun d v h => ?_) fun _ _ => trivial
  exact h.behind hhead fun b hb => ⟨⟨parameters, result?, b⟩, hb,
    by simp [Signature.piecesWith]⟩

/-! ## Beginning an expression -/

theorem arguments_fails (hi : inner.Completes) (hs : s.Good) :
    inner.arguments.Fails s (Stuck (fun es : List Expr => Piece.parenthesised (es.map Expr.pieces))
      (fun es => ∀ e ∈ es, e.Regular ∧ e.Legible) s) := by
  refine parenthesised_fails (hi.exprReads .default) (fun u hu => ?_) hs
  exact (hi.exprFails .default u hu).mono fun d t h =>
    h.imp fun e he => ⟨e, ⟨he.1, he.2.1⟩, fun _ => id⟩

/-- A token that is no expression by itself is a number that is too large, or does not begin one. -/
theorem isMissingMember_of_primaryForm {token : Token} {cause : Cause}
    (h : primaryForm token = .error cause) : cause.isMissingMember = false := by
  unfold primaryForm at h
  split at h
  · split at h
    · cases h
    · cases h
      rfl
  all_goals cases h
  rfl

section

variable {power next : BindingPower}

theorem least_stuck (hs : s.Good) (d : Diagnostic) (hd : d.At s) :
    Stuck Expr.pieces (Expr.Sits power) s d s :=
  .here .least _ hs.writes_nil hd (Expr.sits_least power) rfl
    (Expr.least.writable (Expr.sits_least power).2.1)

theorem primary_fails (hs : s.Good) :
    primary.Fails s (Stuck Expr.pieces (Expr.Sits power) s) := by
  refine fails_current ?_
  split
  · trivial
  · next cause hcause =>
    exact fails_failWith (isMissingMember_of_primaryForm hcause) (least_stuck hs)

theorem unary_fails (hi : inner.Completes) (hs : s.Good) (hk : s.kind = .dash ∨ s.kind = .not) :
    inner.unary.Fails s (Stuck Expr.pieces (Expr.Sits power) s) := by
  have hne : s.kind ≠ .eof := by obtain h | h := hk <;> simp [h]
  have hnud : Grammar.standard.nud s.kind = some .unary := by
    obtain h | h := hk <;> simp [h, Grammar.standard]
  have hoperator := hs.writes_one hne (.token rfl rfl)
  refine fails_advance (.last ((hi.exprFails .unary _ hoperator.good).mono fun d t h => ?_)
    fun _ _ => trivial)
  refine h.behind hoperator fun operand hoperand => ?_
  obtain ⟨hregular, hlegible, habove⟩ := hoperand
  -- no operator binds more tightly than a prefix, so the operand has none at its root
  have hpower := hregular.power?_eq_none habove
  refine ⟨⟨.unary s.current operand, .nowhere⟩, ?_, by simp [Expr.pieces, ExprForm.pieces]⟩
  exact Expr.sits_of_power?_eq_none ⟨hregular, hnud, hpower⟩ hlegible rfl

theorem group_fails (hi : inner.Completes) (hs : s.Good) (hk : s.kind = .openParen) :
    inner.group.Fails s (Stuck Expr.pieces (Expr.Sits power) s) := by
  have hopen := hs.writes_mark hk (by decide)
  refine fails_advance (.bind ((hi.exprFails .default _ hopen.good).mono fun d t h => ?_)
    ((hi.exprReads .default _ hopen.good).mono ?_))
  · refine h.within [.mark .closeParen] hopen (fun e he => ?_) (by simp [isWritable_mark])
    exact ⟨⟨.group e, .nowhere⟩, Expr.sits_of_power?_eq_none he.1 he.2.1 rfl, rfl⟩
  · rintro e t ⟨he, hregular, hlegible⟩
    refine .last (fails_expect fun d hd => ?_) fun _ _ => trivial
    exact .here ⟨.group e, .nowhere⟩ [.mark .closeParen] (hopen.append he) hd
      (Expr.sits_of_power?_eq_none hregular hlegible rfl) rfl (by simp [isWritable_mark])

theorem new_fails (hi : inner.Completes) (hs : s.Good) (hk : s.kind = .kwNew) :
    inner.new.Fails s (Stuck Expr.pieces (Expr.Sits power) s) := by
  have hnew := hs.writes_mark hk (by decide)
  refine fails_advance (.bind (fails_expectDetailed (by decide) fun d hd => ?_)
    ((gives_expectDetailed _ _).2 fun hname => ?_))
  · refine .here ⟨.new "x" [], .nowhere⟩ _ hnew hd ?_ rfl ?_
    · exact Expr.sits_of_power?_eq_none trivial trivial rfl
    · have hparens : ∀ p ∈ Piece.parenthesised [], p.IsWritable :=
        isWritable_parenthesised (by simp)
      simpa using hparens
  · have hclass := hnew.append (hnew.good.writes_token hname (by decide))
    refine .last ((arguments_fails hi hclass.good).mono fun d t h => ?_) fun _ _ => trivial
    refine h.behind hclass fun es hes => ?_
    obtain ⟨hregular, hlegible⟩ := Expr.all_of_forall hes
    exact ⟨⟨.new s.next.current.value es, .nowhere⟩,
      Expr.sits_of_power?_eq_none hregular hlegible rfl, by simp [Expr.pieces, ExprForm.pieces]⟩

theorem lambda_fails (hi : inner.Completes) (hs : s.Good) (hk : s.kind = .kwFun) :
    inner.lambda.Fails s (Stuck Expr.pieces (Expr.Sits power) s) := by
  have hfun := hs.writes_mark hk (by decide)
  refine fails_advance (.last ((signature_fails hi hfun.good).mono fun d t h => ?_)
    fun _ _ => trivial)
  refine h.behind hfun fun sig hsig => ⟨⟨.lambda sig, .nowhere⟩, ?_⟩
  obtain ⟨parameters, result?, ⟨body, bodySpan⟩⟩ := sig
  obtain ⟨hregular, hlegible⟩ := Stmt.all_of_sits hsig
  exact ⟨Expr.sits_of_power?_eq_none hregular hlegible rfl, by simp [Expr.pieces, ExprForm.pieces]⟩

theorem nudBy_fails (hi : inner.Completes) (hs : s.Good) {rule : NudRule}
    (hrule : Grammar.standard.nud s.kind = some rule) :
    (inner.nudBy rule).Fails s (Stuck Expr.pieces (Expr.Sits power) s) := by
  have hk := Grammar.standard_nud hrule
  cases rule with
  | primary => exact primary_fails hs
  | unary => exact unary_fails hi hs hk
  | group => exact group_fails hi hs hk
  | new => exact new_fails hi hs hk
  | lambda => exact lambda_fails hi hs hk

end

/-! ## Continuing an expression -/

/-- The pieces `ps` continue `left` to an expression that can be printed and read back. -/
def Extends (left : Expr) (power : BindingPower) (ps : List Piece) : Prop :=
  ∃ longer : Expr, longer.pieces = left.pieces ++ ps ∧ longer.Sits power

section

variable {left : Expr} {power next : BindingPower}

theorem assignment_fails (hi : inner.Completes) (hs : s.Good) (hk : s.kind = .assignment)
    (hleft : left.Sits power) (hpower : power < .assignment) :
    (inner.assignment left).Fails s (Stuck id (Extends left power) s) := by
  simp only [assignment]
  split
  · next hassignable =>
    obtain ⟨hregular, hlegible, -⟩ := hleft
    have hmark := hs.writes_mark hk (by decide)
    refine fails_advance (.last ((hi.exprFails .comma _ hmark.good).mono fun d t h => ?_)
      fun _ _ => trivial)
    refine h.behind hmark fun value hvalue => ⟨_, ?_, rfl⟩
    obtain ⟨hregular', hlegible', -⟩ := hvalue
    refine ⟨⟨.assign left value, .nowhere⟩, by simp [Expr.pieces, ExprForm.pieces],
      ⟨hregular, hregular', hassignable⟩, ⟨hlegible, hlegible'⟩, ?_⟩
    simpa [Expr.power?] using hpower
  · -- the expression read so far is complete, and nothing is behind it yet
    refine fails_unexpectedDetailed (by decide) fun d hd => ?_
    exact .here (α := List Piece) [] [] hs.writes_nil hd ⟨left, by simp, hleft⟩ rfl (by simp)

theorem binary_fails (hi : inner.Completes) (hs : s.Good)
    (hled : Grammar.standard.led s.kind = some (next, .binary)) (hadmits : left.Admits s.kind)
    (hleft : left.Sits power) (hpower : power < next) :
    (inner.binary left next).Fails s (Stuck id (Extends left power) s) := by
  obtain ⟨hregular, hlegible, -⟩ := hleft
  have hoperator := hs.writes_one (Grammar.standard_led hled) (.token rfl rfl)
  refine fails_advance (.last ((hi.exprFails next _ hoperator.good).mono fun d t h => ?_)
    fun _ _ => trivial)
  refine h.behind hoperator fun right hright => ⟨_, ?_, rfl⟩
  obtain ⟨hregular', hlegible', habove⟩ := hright
  have hnext : Grammar.standard.power s.current.kind = next := Grammar.power_of_led hled
  have hbelow := hadmits.operator
  rw [show Grammar.standard.power s.kind = next from hnext] at hbelow
  refine ⟨⟨.binary left s.current right, .nowhere⟩, by simp [Expr.pieces, ExprForm.pieces],
    ⟨hregular, hregular', next, hled, hbelow, habove⟩, ⟨hlegible, hlegible'⟩, ?_⟩
  simpa [Expr.power?, hnext] using hpower

theorem call_fails (hi : inner.Completes) (hs : s.Good) (hleft : left.Sits power)
    (htight : left.IsTight) : (inner.call left).Fails s (Stuck id (Extends left power) s) := by
  obtain ⟨hregular, hlegible, -⟩ := hleft
  refine .last ((arguments_fails hi hs).mono fun d t h => ?_) fun _ _ => trivial
  refine h.behind hs.writes_nil fun es hes => ⟨_, ?_, rfl⟩
  obtain ⟨hregular', hlegible'⟩ := Expr.all_of_forall hes
  exact ⟨⟨.call left es, .nowhere⟩, by simp [Expr.pieces, ExprForm.pieces],
    Expr.sits_of_power?_eq_none ⟨hregular, htight, hregular'⟩ ⟨hlegible, hlegible'⟩ rfl⟩

theorem member_fails (hs : s.Good) (hk : s.kind = .dot) (hleft : left.Sits power)
    (htight : left.IsTight) : (member left).Fails s (Stuck id (Extends left power) s) := by
  have hdot := hs.writes_mark hk (by decide)
  refine fails_advance (.last (fails_expectDetailed (by decide) fun d hd => ?_) fun _ _ => trivial)
  refine .here _ [.token .identifier "x"] hdot hd ?_ rfl (by simp)
  exact ⟨⟨.member left "x" .nowhere, .nowhere⟩, rfl,
    Expr.sits_of_power?_eq_none ⟨hleft.1, htight⟩ hleft.2.1 rfl⟩

theorem ledBy_fails (hi : inner.Completes) (hs : s.Good) {rule : LedRule}
    (hled : Grammar.standard.led s.kind = some (next, rule)) (hadmits : left.Admits s.kind)
    (hleft : left.Sits power) (hpower : power < next) :
    (inner.ledBy left next rule).Fails s (Stuck id (Extends left power) s) := by
  have hk := Grammar.standard_led hled
  have hnext := Grammar.power_of_led hled
  cases rule with
  | assignment =>
    obtain ⟨hk, rfl⟩ := hk
    exact assignment_fails hi hs hk hleft hpower
  | binary => exact binary_fails hi hs hled hadmits hleft hpower
  | call =>
    obtain ⟨-, rfl⟩ := hk
    exact call_fails hi hs hleft (hadmits.isTight hleft.1 (by rw [hnext]; decide))
  | member =>
    obtain ⟨hk, rfl⟩ := hk
    exact member_fails hs hk hleft (hadmits.isTight hleft.1 (by rw [hnext]; decide))

/-- The loop that continues an expression gets stuck in one of its steps. What the steps before
have read is then the left part of the completed expression. -/
theorem continueExpr_fails (hi : inner.Completes) (hs : s.Good) (hadmits : left.Admits s.kind)
    (hleft : left.Sits power) :
    (inner.continueExpr .standard power left).Fails s (Stuck id (Extends left power) s) := by
  unfold Fails
  fun_induction continueExpr inner .standard power left s with
  | case1 => trivial
  | case2 left s next rule hled hpower d t herror =>
    exact (ledBy_fails hi hs hled hadmits hleft hpower).of_error herror
  | case3 left s next rule hled hpower longer t hlonger _ ih =>
    obtain ⟨⟨ps, hpieces, hwrites, -⟩, hregular', habove', hadmits'⟩ :=
      (ledBy_sound hi.toSound hs hled hleft.1 hadmits hpower).of_ok hlonger
    have hlegible' := (ledBy_legible hi.toReadsBack hs hled hleft.2.1).of_ok hlonger
    have hrest : (inner.continueExpr .standard power longer).Fails t _ :=
      ih hwrites.good hadmits' ⟨hregular', hlegible', habove'⟩
    refine hrest.mono fun d u h => ?_
    refine h.behind hwrites fun qs hqs => ⟨ps ++ qs, ?_, by simp⟩
    obtain ⟨e, he, hsits⟩ := hqs
    exact ⟨e, by rw [he, hpieces, List.append_assoc], hsits⟩
  | case4 => trivial
  | case5 => trivial

end

theorem exprAt_fails (hi : inner.Completes) (power : BindingPower) (hs : s.Good) :
    (inner.exprAt .standard power).Fails s (Stuck Expr.pieces (Expr.Sits power) s) := by
  refine fails_kind ?_
  split
  · next rule hrule =>
    refine .bind (nudBy_fails hi hs hrule)
      (((nudBy_sound hi.toSound hs hrule).and (nudBy_legible hi.toReadsBack hs hrule)).mono ?_)
    rintro left t ⟨⟨hwrites, hregular, hpower, hadmits⟩, hlegible⟩
    have hleft : left.Sits power := Expr.sits_of_power?_eq_none hregular hlegible hpower
    refine (continueExpr_fails hi hwrites.good hadmits hleft).mono fun d u h => ?_
    refine h.behind hwrites fun ps hps => ?_
    obtain ⟨e, he, hsits⟩ := hps
    exact ⟨e, hsits, by simp [he]⟩
  · exact fails_failWith rfl (least_stuck hs)

end Inner

end Nominal
