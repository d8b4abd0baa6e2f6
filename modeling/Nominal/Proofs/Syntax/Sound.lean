import Nominal.Proofs.Syntax.Gives
import Nominal.Proofs.Syntax.Precedence
import Nominal.Proofs.Text.Decimal
import Nominal.Syntax.Program

/-!
# The rules of the grammar are sound

Whatever rule reads a part of a program, the tree it gives is printed as the tokens it passed, and
it is regular. Each rule is proved from `Inner.Sound`, the same promise for the readers one level
further in, so that the promise for all levels follows by induction on the levels that are left
(`Grammar.inner_sound`).

The rules that continue an expression carry one more fact: `Expr.Admits` says that the token after
the expression does not bind it more tightly than its own operator did. This is what makes the left
side of an operator regular.
-/

namespace Nominal

namespace Grammar

/-! ## Which tokens begin which rule -/

variable {kind : Kind} {p : BindingPower}

theorem standard_stmt {rule : StmtRule} (h : standard.stmt kind = some rule) :
    match rule with
    | .varDecl => kind = .kwVal ∨ kind = .kwVar
    | .classDecl => kind = .kwClass
    | .fnDecl => kind = .kwFun
    | .ret => kind = .kwReturn
    | .branch => kind = .kwIf
    | .loop => kind = .kwWhile
    | .print => kind = .kwPrint
    | .block => kind = .openCurly := by
  cases kind <;> cases h <;> simp

theorem standard_nud {rule : NudRule} (h : standard.nud kind = some rule) :
    match rule with
    | .primary => kind ≠ .eof
    | .unary => kind = .dash ∨ kind = .not
    | .group => kind = .openParen
    | .new => kind = .kwNew
    | .lambda => kind = .kwFun := by
  cases kind <;> cases h <;> simp

theorem standard_led {rule : LedRule} (h : standard.led kind = some (p, rule)) :
    match rule with
    | .assignment => kind = .assignment ∧ p = .assignment
    | .binary => kind ≠ .eof
    | .call => kind = .openParen ∧ p = .call
    | .member => kind = .dot ∧ p = .member := by
  cases kind <;> cases h <;> simp

theorem standard_type {rule : TypeRule} (h : standard.type kind = some rule) :
    kind = .identifier ∧ rule = .named := by
  cases kind <;> cases h
  exact ⟨rfl, rfl⟩

theorem power_of_led {g : Grammar} {rule : LedRule} (h : g.led kind = some (p, rule)) :
    g.power kind = p := by
  simp [power, h]

theorem not_lt_power_of_led_eq_none {g : Grammar} (h : g.led kind = none) :
    ¬ p < g.power kind := by
  simp [power, h, BindingPower.lt_iff, BindingPower.rank]

end Grammar

/-! ## How an expression fits its surroundings -/

namespace Expr

/-- The expression is read at `power` before a token of the given kind: its own operator binds more
tightly than `power`, and the token does not. -/
structure Fits (e : Expr) (power : BindingPower) (next : Kind) : Prop where
  above : ∀ q ∈ e.power?, power < q
  stops : ¬ power < Grammar.standard.power next

/-- A token of the given kind does not bind the expression more tightly than its own operator. -/
structure Admits (e : Expr) (next : Kind) : Prop where
  operator : ∀ q ∈ e.power?, ¬ q < Grammar.standard.power next
  unary : e.isUnary → ¬ BindingPower.unary < Grammar.standard.power next

variable {e : Expr} {next : Kind}

theorem IsTight.admits (h : e.IsTight) : e.Admits next where
  operator := by simp [h.1]
  unary := by simp [h.2]

/-- The power of an operator between two expressions is below that of an operator before one. -/
theorem Regular.power?_lt_unary (h : e.Regular) : ∀ q ∈ e.power?, q < .unary := by
  obtain ⟨form, span⟩ := e
  cases form with
  | assign target value =>
    rintro q ⟨⟩
    decide
  | binary left operator right =>
    obtain ⟨-, -, p, hled, -, -⟩ := h
    rintro q hq
    obtain rfl : Grammar.standard.power operator.kind = q := by simpa [power?] using hq
    rw [Grammar.power_of_led hled]
    exact Grammar.standard_binary_lt_unary hled
  | _ => simp [power?]

/-- What binds more tightly than an operator before it has no operator between two expressions at
its root. -/
theorem Regular.power?_eq_none (h : e.Regular)
    (habove : ∀ q ∈ e.power?, BindingPower.unary < q) : e.power? = none := by
  cases hpower : e.power? with
  | none => rfl
  | some q =>
    have hlt := h.power?_lt_unary q hpower
    have hgt := habove q hpower
    simp only [BindingPower.lt_iff] at hlt hgt
    omega

/-- What is called or has a member is no operator, since the token after it binds too tightly. -/
theorem Admits.isTight (h : e.Admits next) (hreg : e.Regular)
    (hnext : .unary < Grammar.standard.power next) : e.IsTight := by
  constructor
  · cases hpower : e.power? with
    | none => rfl
    | some q =>
      have hlt := hreg.power?_lt_unary q hpower
      have hle := h.operator q hpower
      simp only [BindingPower.lt_iff] at *
      omega
  · cases hunary : e.isUnary with
    | false => rfl
    | true => exact absurd hnext (h.unary hunary)

end Expr

/-! ## The readers one level further in -/

namespace Inner

open Parse

/-- What the readers of nested parts promise. -/
structure Sound (inner : Inner) : Prop where
  stmt : inner.stmt.Reads Stmt.pieces Stmt.Regular
  expr : ∀ power s, s.Good → (inner.expr power).Gives s fun e t =>
    s.Writes e.pieces t ∧ e.Regular ∧ e.Fits power t.kind
  type : inner.type.Reads TypeExpr.pieces fun _ => True

variable {inner : Inner} {s : TokenStream}

theorem Sound.exprReads (hi : inner.Sound) (power : BindingPower) :
    (inner.expr power).Reads Expr.pieces Expr.Regular := fun s hs =>
  (hi.expr power s hs).mono fun _ _ ⟨hwrites, hregular, _⟩ => ⟨hwrites, hregular⟩

/-! ## Types -/

theorem functionType_sound (hi : inner.Sound) (hs : s.Good) (hk : s.kind = .identifier)
    (hvalue : s.current.value = functionTypeName) :
    inner.functionType.Gives s fun a t => s.Writes a.pieces t := by
  simp only [functionType, gives_bind, gives_advance, gives_expectDetailed, gives_spanFrom,
    gives_pure]
  have hword := hs.writes_token hk (by decide)
  rw [hvalue] at hword
  refine (hi.type.parenthesised _ hword.good).mono ?_
  rintro parameters t ⟨hparameters, -⟩ harrow
  have hmark := hparameters.good.writes_mark harrow (by decide)
  refine (hi.type _ hmark.good).mono ?_
  rintro result u ⟨hresult, -⟩
  simpa [TypeExpr.pieces, functionTypeName] using
    ((hword.append hparameters).append hmark).append hresult

theorem typeAt_sound (hi : inner.Sound) :
    (inner.typeAt .standard).Reads TypeExpr.pieces fun _ => True := by
  intro s hs
  simp only [typeAt, gives_bind, gives_kind, and_true]
  split
  · next rule hrule =>
    obtain ⟨hk, rfl⟩ := Grammar.standard_type hrule
    simp only [typeBy, namedType, gives_bind, gives_get]
    split
    · next h => exact functionType_sound hi hs hk h.1
    · simp only [gives_bind, gives_expect, gives_pure]
      exact fun _ => hs.writes_token hk (by decide)
  · simp

/-! ## Functions and blocks -/

theorem block_sound (hi : inner.Sound) :
    inner.block.Reads (fun b => Piece.braced (b.body.map Stmt.pieces))
      fun b => ∀ stmt ∈ b.body, stmt.Regular := by
  intro s hs
  simp only [block, gives_bind, gives_expect, gives_spanFrom, gives_pure]
  intro hopen
  have hstart := hs.writes_mark hopen (by decide)
  refine (gives_repeatUntil Stmt.Regular ?_ Stmt.pieces_required hstart.good).mono ?_
  · intro u hu _
    simp only [gives_bind, gives_kind]
    split
    · exact gives_unexpectedDetailed _
    · exact hi.stmt u hu
  · rintro body t ⟨hbody, hregular, -⟩ hclose
    exact ⟨(hstart.append hbody).append (hbody.good.writes_mark hclose (by decide)), hregular⟩

theorem parameterMode_sound :
    parameterMode.Reads (fun mode => [if mode = .var then .mark .kwVar else .optionalVal])
      fun _ => True := by
  intro s hs
  simp only [parameterMode, gives_bind, gives_kind]
  split
  · next hk => exact ⟨hs.writes_mark hk (by decide), trivial⟩
  · next hk => exact ⟨hs.writes_one (by simp [hk]) (.val (hs.spells_mark hk (by decide))), trivial⟩
  · exact ⟨⟨hs, [], .single .noVal, rfl⟩, trivial⟩

theorem parameter_sound (hi : inner.Sound) :
    inner.parameter.Reads Parameter.pieces fun _ => True := by
  intro s hs
  simp only [parameter, gives_bind, gives_position, gives_expectDetailed, gives_spanFrom,
    gives_pure]
  refine (parameterMode_sound s hs).mono ?_
  rintro mode t ⟨hmode, -⟩ hname hcolon
  have hword := hmode.good.writes_token hname (by decide)
  have hmark := hword.good.writes_mark hcolon (by decide)
  refine (hi.type _ hmark.good).mono ?_
  rintro type u ⟨htype, -⟩
  exact ⟨((hmode.append hword).append hmark).append htype, trivial⟩

theorem resultType?_sound (hi : inner.Sound) :
    inner.resultType?.Reads
      (fun result? => result?.elim [] fun result => .resultMark :: result.pieces)
      fun _ => True := by
  intro s hs
  simp only [resultType?, gives_bind, gives_kind]
  split
  · next hk =>
    simp only [gives_bind, gives_advance, gives_pure]
    have hmark : s.Writes [.resultMark] s.next := by
      obtain hk | hk := hk
      · exact hs.writes_one (by simp [hk]) (.colon (hs.spells_mark hk (by decide)))
      · exact hs.writes_one (by simp [hk]) (.arrow (hs.spells_mark hk (by decide)))
    refine (hi.type _ hmark.good).mono ?_
    rintro result t ⟨hresult, -⟩
    exact ⟨hmark.append hresult, trivial⟩
  · exact ⟨hs.writes_nil, trivial⟩

/-- The pieces of a signature. -/
theorem signature_sound (hi : inner.Sound) :
    inner.signature.Reads
      (fun sig => Signature.piecesWith sig.parameters sig.result? (sig.body.body.map Stmt.pieces))
      fun sig => ∀ stmt ∈ sig.body.body, stmt.Regular := by
  intro s hs
  simp only [signature, parameters, gives_bind, gives_pure]
  refine ((parameter_sound hi).parenthesised s hs).mono ?_
  rintro parameters t ⟨hparameters, -⟩
  refine (resultType?_sound hi t hparameters.good).mono ?_
  rintro result? u ⟨hresult, -⟩
  refine (block_sound hi u hresult.good).mono ?_
  rintro body v ⟨hbody, hregular⟩
  exact ⟨(hparameters.append hresult).append hbody, hregular⟩

/-! ## Expressions -/

/-- A form that is a single token is printed as that token. -/
theorem spells_primaryForm {t : Token} {form : ExprForm} (ht : t.Lexed)
    (hform : primaryForm t = .ok form) : ∃ p, form.pieces = [p] ∧ p.Spells [t] := by
  unfold primaryForm at hform
  split at hform
  · next hk =>
    split at hform
    · next value hvalue =>
      obtain rfl := Except.ok.inj hform
      simp only [Token.integer?, hk, if_true] at hvalue
      obtain ⟨hne, hdigit⟩ := ht.digits_of_kind hk
      obtain ⟨rfl, hmax⟩ := integer?_of_isDigit hne hdigit hvalue
      exact ⟨_, rfl, .number hk rfl (exists_zeros_append_toDigits hne hdigit) hmax⟩
    · cases hform
  · next hk =>
    obtain rfl := Except.ok.inj hform
    exact ⟨_, rfl, .token hk rfl⟩
  · next hk =>
    obtain rfl := Except.ok.inj hform
    exact ⟨_, rfl, .token hk rfl⟩
  · next hk =>
    obtain rfl := Except.ok.inj hform
    exact ⟨_, rfl, ht.spells_mark hk (by decide)⟩
  · next hk =>
    obtain rfl := Except.ok.inj hform
    exact ⟨_, rfl, ht.spells_mark hk (by decide)⟩
  · cases hform

theorem regular_primaryForm {t : Token} {form : ExprForm} (span : Span)
    (hform : primaryForm t = .ok form) :
    (Expr.mk form span).Regular ∧ (Expr.mk form span).IsTight := by
  unfold primaryForm at hform
  split at hform
  · split at hform
    · obtain rfl := Except.ok.inj hform
      exact ⟨trivial, rfl, rfl⟩
    · cases hform
  all_goals cases hform
  all_goals exact ⟨trivial, rfl, rfl⟩

/-- A single token that is an expression. -/
theorem primary_sound (hs : s.Good) (hk : s.kind ≠ .eof) :
    primary.Gives s fun e t => s.Writes e.pieces t ∧ e.Regular ∧ e.IsTight := by
  simp only [primary, gives_bind, gives_current]
  split
  · next form hform =>
    simp only [gives_bind, gives_advance, gives_pure]
    obtain ⟨p, hpieces, hspells⟩ := spells_primaryForm (hs.lexed hk) hform
    have hleaf := regular_primaryForm s.current.span hform
    refine ⟨?_, hleaf⟩
    rw [Expr.pieces, hpieces]
    exact hs.writes_one hk hspells
  · exact gives_failWith _

theorem unary_sound (hi : inner.Sound) (hs : s.Good) (hk : s.kind = .dash ∨ s.kind = .not) :
    inner.unary.Gives s fun e t =>
      s.Writes e.pieces t ∧ e.Regular ∧ e.power? = none ∧ e.Admits t.kind := by
  simp only [unary, gives_bind, gives_advance, gives_pure]
  have hne : s.kind ≠ .eof := by
    obtain h | h := hk <;> simp [h]
  have hnud : Grammar.standard.nud s.kind = some .unary := by
    obtain h | h := hk <;> simp [h, Grammar.standard]
  have hoperator := hs.writes_one hne (.token rfl rfl)
  refine (hi.expr .unary _ hoperator.good).mono ?_
  rintro operand t ⟨hoperand, hregular, hfits⟩
  have hpower := hregular.power?_eq_none hfits.above
  exact ⟨hoperator.append hoperand, ⟨hregular, hnud, hpower⟩, rfl,
    ⟨by simp [Expr.power?], fun _ => hfits.stops⟩⟩

theorem arguments_sound (hi : inner.Sound) :
    inner.arguments.Reads (fun es => Piece.parenthesised (es.map Expr.pieces))
      fun es => ∀ e ∈ es, e.Regular :=
  (hi.exprReads .default).parenthesised

theorem group_sound (hi : inner.Sound) (hs : s.Good) (hk : s.kind = .openParen) :
    inner.group.Gives s fun e t => s.Writes e.pieces t ∧ e.Regular ∧ e.IsTight := by
  simp only [group, gives_bind, gives_advance, gives_expect, gives_spanFrom, gives_pure]
  have hopen := hs.writes_mark hk (by decide)
  refine (hi.exprReads .default _ hopen.good).mono ?_
  rintro e t ⟨he, hregular⟩ hclose
  exact ⟨(hopen.append he).append (he.good.writes_mark hclose (by decide)), hregular, rfl, rfl⟩

theorem new_sound (hi : inner.Sound) (hs : s.Good) (hk : s.kind = .kwNew) :
    inner.new.Gives s fun e t => s.Writes e.pieces t ∧ e.Regular ∧ e.IsTight := by
  simp only [new, gives_bind, gives_advance, gives_expectDetailed, gives_spanFrom, gives_pure]
  intro hname
  have hnew := hs.writes_mark hk (by decide)
  have hclass := hnew.good.writes_token hname (by decide)
  refine (arguments_sound hi _ hclass.good).mono ?_
  rintro es t ⟨hes, hregular⟩
  refine ⟨?_, Expr.allRegular_iff.2 hregular, rfl, rfl⟩
  simpa [Expr.pieces, ExprForm.pieces] using (hnew.append hclass).append hes

theorem lambda_sound (hi : inner.Sound) (hs : s.Good) (hk : s.kind = .kwFun) :
    inner.lambda.Gives s fun e t => s.Writes e.pieces t ∧ e.Regular ∧ e.IsTight := by
  simp only [lambda, gives_bind, gives_advance, gives_spanFrom, gives_pure]
  have hfun := hs.writes_mark hk (by decide)
  refine (signature_sound hi _ hfun.good).mono ?_
  rintro ⟨parameters, result?, ⟨body, bodySpan⟩⟩ t ⟨hsignature, hregular⟩
  refine ⟨?_, Stmt.allRegular_iff.2 hregular, rfl, rfl⟩
  simpa [Expr.pieces, ExprForm.pieces] using hfun.append hsignature

/-- What begins an expression admits the token after it, and is no operator between two
expressions. -/
theorem nudBy_sound (hi : inner.Sound) (hs : s.Good) {rule : NudRule}
    (hrule : Grammar.standard.nud s.kind = some rule) :
    (inner.nudBy rule).Gives s fun e t =>
      s.Writes e.pieces t ∧ e.Regular ∧ e.power? = none ∧ e.Admits t.kind := by
  have hk := Grammar.standard_nud hrule
  have htight : ∀ {read : Parse Expr},
      (read.Gives s fun e t => s.Writes e.pieces t ∧ e.Regular ∧ e.IsTight) →
        read.Gives s fun e t =>
          s.Writes e.pieces t ∧ e.Regular ∧ e.power? = none ∧ e.Admits t.kind :=
    fun h => h.mono fun _ _ ⟨hwrites, hregular, htight⟩ =>
      ⟨hwrites, hregular, htight.1, htight.admits⟩
  cases rule with
  | primary => exact htight (primary_sound hs hk)
  | unary => exact unary_sound hi hs hk
  | group => exact htight (group_sound hi hs hk)
  | new => exact htight (new_sound hi hs hk)
  | lambda => exact htight (lambda_sound hi hs hk)

/-! ## Continuing an expression -/

/-- A rule continues `left` to a longer expression: what it passes is written after `left`, the
longer expression is regular, binds more tightly than `power`, and admits the token after it. -/
def Continues (left : Expr) (power : BindingPower) (s : TokenStream) (longer : Expr)
    (t : TokenStream) : Prop :=
  (∃ ps, longer.pieces = left.pieces ++ ps ∧ s.Writes ps t ∧ t.size < s.size) ∧
    longer.Regular ∧ (∀ q ∈ longer.power?, power < q) ∧ longer.Admits t.kind

section

variable {left : Expr} {power next : BindingPower}

theorem assignment_sound (hi : inner.Sound) (hs : s.Good) (hk : s.kind = .assignment)
    (hregular : left.Regular) (hpower : power < .assignment) :
    (inner.assignment left).Gives s (Continues left power s) := by
  simp only [assignment]
  split
  · next hassignable =>
    simp only [gives_bind, gives_advance, gives_pure]
    have hmark := hs.writes_mark hk (by decide)
    refine (hi.expr .comma _ hmark.good).mono ?_
    rintro value t ⟨hvalue, hregular', hfits⟩
    have hwrites := hmark.append hvalue
    refine ⟨⟨_, rfl, hwrites, hwrites.size_lt rfl⟩, ⟨hregular, hregular', hassignable⟩, ?_, ?_, ?_⟩
    · simpa [Expr.power?] using hpower
    · have hstops := hfits.stops
      simp only [BindingPower.lt_iff, BindingPower.rank] at hstops
      simp only [Expr.power?, Option.mem_def, Option.some.injEq, forall_eq', BindingPower.lt_iff,
        BindingPower.rank]
      omega
    · simp [Expr.isUnary]
  · exact gives_unexpectedDetailed _

theorem binary_sound (hi : inner.Sound) (hs : s.Good)
    (hled : Grammar.standard.led s.kind = some (next, .binary)) (hregular : left.Regular)
    (hadmits : left.Admits s.kind) (hpower : power < next) :
    (inner.binary left next).Gives s (Continues left power s) := by
  simp only [binary, gives_bind, gives_advance, gives_pure]
  have hnext : Grammar.standard.power s.kind = next := Grammar.power_of_led hled
  have hoperator := hs.writes_one (Grammar.standard_led hled) (.token rfl rfl)
  refine (hi.expr next _ hoperator.good).mono ?_
  rintro right t ⟨hright, hregular', hfits⟩
  have hwrites := hoperator.append hright
  have hleft := hadmits.operator
  rw [hnext] at hleft
  have hroot : ∀ q ∈ (Expr.mk (.binary left s.current right) (left.span.to right.span)).power?,
      next = q := by
    simp only [Expr.power?, Option.mem_def, Option.some.injEq]
    rintro q rfl
    exact hnext.symm
  refine ⟨⟨_, rfl, hwrites, hwrites.size_lt rfl⟩,
    ⟨hregular, hregular', next, hled, hleft, hfits.above⟩, ?_, ?_, ?_⟩
  · intro q hq
    exact hroot q hq ▸ hpower
  · intro q hq
    exact hroot q hq ▸ hfits.stops
  · simp [Expr.isUnary]

theorem call_sound (hi : inner.Sound) (hs : s.Good) (hregular : left.Regular)
    (htight : left.IsTight) :
    (inner.call left).Gives s (Continues left power s) := by
  simp only [call, gives_bind, gives_spanFrom, gives_pure]
  refine (arguments_sound hi s hs).mono ?_
  rintro es t ⟨hes, hregular'⟩
  have htight' : (Expr.mk (.call left es) (t.spanFrom left.span.start)).IsTight := ⟨rfl, rfl⟩
  refine ⟨⟨Piece.parenthesised (es.map Expr.pieces), ?_, hes, hes.size_lt rfl⟩,
    ⟨hregular, htight, Expr.allRegular_iff.2 hregular'⟩, by simp [htight'.1], htight'.admits⟩
  simp [Expr.pieces, ExprForm.pieces]

theorem member_sound (hs : s.Good) (hk : s.kind = .dot) (hregular : left.Regular)
    (htight : left.IsTight) : (member left).Gives s (Continues left power s) := by
  simp only [member, gives_bind, gives_advance, gives_expectDetailed, gives_pure]
  intro hname
  have hdot := hs.writes_mark hk (by decide)
  have hwrites := hdot.append (hdot.good.writes_token hname (by decide))
  have htight' : (Expr.mk (.member left s.next.current.value s.next.current.span)
      (left.span.to s.next.current.span)).IsTight := ⟨rfl, rfl⟩
  exact ⟨⟨_, rfl, hwrites, hwrites.size_lt rfl⟩, ⟨hregular, htight⟩, by simp [htight'.1],
    htight'.admits⟩

theorem ledBy_sound (hi : inner.Sound) (hs : s.Good) {rule : LedRule}
    (hled : Grammar.standard.led s.kind = some (next, rule)) (hregular : left.Regular)
    (hadmits : left.Admits s.kind) (hpower : power < next) :
    (inner.ledBy left next rule).Gives s (Continues left power s) := by
  have hk := Grammar.standard_led hled
  have hnext := Grammar.power_of_led hled
  cases rule with
  | assignment =>
    obtain ⟨hk, rfl⟩ := hk
    exact assignment_sound hi hs hk hregular hpower
  | binary => exact binary_sound hi hs hled hregular hadmits hpower
  | call =>
    obtain ⟨-, rfl⟩ := hk
    exact call_sound hi hs hregular (hadmits.isTight hregular (by rw [hnext]; decide))
  | member =>
    obtain ⟨hk, rfl⟩ := hk
    exact member_sound hs hk hregular (hadmits.isTight hregular (by rw [hnext]; decide))

/-- One step of the loop that continues an expression. -/
theorem continueExpr_eq_bind {g : Grammar} {next : BindingPower} {rule : LedRule}
    (hled : g.led s.kind = some (next, rule))
    (hlt : power < next) :
    inner.continueExpr g power left s = (inner.ledBy left next rule >>= fun longer t =>
      (if t.size < s.size then inner.continueExpr g power longer
        else pure longer) t) s := by
  rw [continueExpr]
  simp only [hled, hlt, if_true]
  show _ = EStateM.bind (inner.ledBy left next rule) _ s
  unfold EStateM.bind
  cases inner.ledBy left next rule s with
  | error d t => rfl
  | ok longer t =>
    by_cases hsize : t.size < s.size
    · simp only [hsize, if_true]
    · simp only [hsize, if_false]
      rfl

/-- The loop that continues an expression. Its invariant is that the expression read so far is
regular, binds more tightly than `power` and admits the current token. -/
theorem continueExpr_sound (hi : inner.Sound) (hs : s.Good) (hregular : left.Regular)
    (habove : ∀ q ∈ left.power?, power < q) (hadmits : left.Admits s.kind) :
    (inner.continueExpr .standard power left).Gives s fun e t =>
      (∃ ps, e.pieces = left.pieces ++ ps ∧ s.Writes ps t) ∧ e.Regular ∧ e.Fits power t.kind := by
  unfold Gives
  fun_induction continueExpr inner .standard power left s with
  | case1 left s hnone =>
    exact ⟨⟨[], by simp, hs.writes_nil⟩, hregular, habove,
      Grammar.not_lt_power_of_led_eq_none hnone⟩
  | case2 => trivial
  | case3 left s next rule hled hpower longer t hlonger _ ih =>
    obtain ⟨⟨ps, hpieces, hwrites, -⟩, hregular', habove', hadmits'⟩ :=
      (ledBy_sound hi hs hled hregular hadmits hpower).of_ok hlonger
    have hrest : (inner.continueExpr .standard power longer).Gives t _ :=
      ih hwrites.good hregular' habove' hadmits'
    refine hrest.mono ?_
    rintro e u ⟨⟨qs, hqs, hwrites'⟩, hregular'', hfits⟩
    exact ⟨⟨ps ++ qs, by rw [hqs, hpieces, List.append_assoc], hwrites.append hwrites'⟩,
      hregular'', hfits⟩
  | case4 left s next rule hled hpower longer t hlonger hsize =>
    obtain ⟨⟨ps, -, -, hlt⟩, -⟩ :=
      (ledBy_sound hi hs hled hregular hadmits hpower).of_ok hlonger
    exact absurd hlt hsize
  | case5 left s next rule hled hpower =>
    exact ⟨⟨[], by simp, hs.writes_nil⟩, hregular, habove, by rwa [Grammar.power_of_led hled]⟩

end

theorem exprAt_sound (hi : inner.Sound) (power : BindingPower) (hs : s.Good) :
    (inner.exprAt .standard power).Gives s fun e t =>
      s.Writes e.pieces t ∧ e.Regular ∧ e.Fits power t.kind := by
  simp only [exprAt, gives_bind, gives_kind]
  split
  · next rule hrule =>
    simp only [gives_bind]
    refine (nudBy_sound hi hs hrule).mono ?_
    rintro left t ⟨hleft, hregular, hpower, hadmits⟩
    refine (continueExpr_sound hi hleft.good hregular (by simp [hpower]) hadmits).mono ?_
    rintro e u ⟨⟨ps, hpieces, hwrites⟩, hregular', hfits⟩
    exact ⟨hpieces ▸ hleft.append hwrites, hregular', hfits⟩
  · exact gives_unexpected

/-! ## Statements -/

/-- What is read after a mark, if the mark is there. -/
theorem after?_sound {α : Type} {mark : Kind} {read : Parse α} {pieces : α → List Piece}
    {good : α → Prop} (hread : read.Reads pieces good)
    (hmark : mark ∉ [.eof, .identifier, .number, .string]) :
    (Inner.after? mark read).Reads (fun a? => Piece.after mark (a?.map pieces))
      fun a? => ∀ a ∈ a?, good a := by
  intro s hs
  simp only [Inner.after?, gives_bind, gives_kind]
  split
  · next hk =>
    simp only [gives_bind, gives_advance, gives_pure]
    have hstart := hs.writes_mark hk hmark
    refine (hread _ hstart.good).mono ?_
    rintro a t ⟨ha, hgood⟩
    exact ⟨hstart.append ha, by simpa using hgood⟩
  · exact ⟨hs.writes_nil, by simp⟩

theorem expressionStmt_sound (hi : inner.Sound) :
    inner.expressionStmt.Reads Stmt.pieces Stmt.Regular := by
  intro s hs
  simp only [expressionStmt, gives_bind, gives_expect, gives_spanFrom, gives_pure]
  refine (hi.exprReads .default s hs).mono ?_
  rintro e t ⟨he, hregular⟩ hend
  exact ⟨he.append (he.good.writes_mark hend (by decide)), hregular⟩

theorem varDecl_sound (hi : inner.Sound) (hs : s.Good) (hk : s.kind = .kwVal ∨ s.kind = .kwVar) :
    inner.varDecl.Gives s fun stmt t =>
      s.Writes stmt.pieces t ∧ stmt.Regular ∧ stmt.memberName?.isSome := by
  simp only [varDecl, gives_bind, gives_advance, gives_expectDetailed, gives_expect,
    gives_spanFrom, gives_pure]
  intro hname
  have hword : s.Writes
      [.mark (if s.current.kind = .kwVar then Mode.var else Mode.val).keyword] s.next := by
    obtain hk | hk := hk
    · have hmode : s.current.kind ≠ .kwVar := by simp [show s.current.kind = .kwVal from hk]
      rw [if_neg hmode]
      exact hs.writes_mark hk (by decide)
    · rw [if_pos (show s.current.kind = .kwVar from hk)]
      exact hs.writes_mark hk (by decide)
  have hid := hword.good.writes_token hname (by decide)
  refine (after?_sound hi.type (by decide) _ hid.good).mono ?_
  rintro type? t ⟨htype, -⟩
  refine (after?_sound (hi.exprReads .default) (by decide) _ htype.good).mono ?_
  rintro value? u ⟨hvalue, hregular⟩ hend
  refine ⟨?_, ?_, rfl⟩
  · rw [Stmt.pieces, StmtForm.pieces_varDecl]
    have hsemicolon := hvalue.good.writes_mark hend (by decide)
    exact (((hword.append hid).append htype).append hvalue).append hsemicolon
  · cases value? with
    | none => trivial
    | some value => exact hregular value rfl

theorem fnDecl_sound (hi : inner.Sound) (hs : s.Good) (hk : s.kind = .kwFun) :
    inner.fnDecl.Gives s fun stmt t => s.Writes stmt.pieces t ∧ stmt.Regular ∧
      (s.peek 1 = .identifier → stmt.memberName?.isSome) := by
  simp only [fnDecl, gives_bind, gives_get]
  split
  · next hpeek =>
    simp only [gives_bind, gives_advance, gives_spanFrom, gives_pure]
    have hfun := hs.writes_mark hk (by decide)
    have hname : s.next.kind = .identifier := hs.kind_next (by simp [hk]) ▸ hpeek
    have hid := hfun.good.writes_token hname (by decide)
    refine (signature_sound hi _ hid.good).mono ?_
    rintro ⟨parameters, result?, ⟨body, bodySpan⟩⟩ t ⟨hsignature, hregular⟩
    refine ⟨?_, Stmt.allRegular_iff.2 hregular, fun _ => rfl⟩
    simpa [Stmt.pieces, StmtForm.pieces] using (hfun.append hid).append hsignature
  · next hpeek =>
    refine (expressionStmt_sound hi s hs).mono ?_
    rintro stmt t ⟨hwrites, hregular⟩
    exact ⟨hwrites, hregular, fun h => absurd h hpeek⟩

theorem classMember_sound (hi : inner.Sound) :
    inner.classMember.Reads Stmt.pieces fun stmt => stmt.Regular ∧ stmt.memberName?.isSome := by
  intro s hs
  simp only [classMember, gives_bind, gives_get]
  split
  · next hk => exact varDecl_sound hi hs (.inl hk)
  · next hk => exact varDecl_sound hi hs (.inr hk)
  · next hk =>
    split
    · next hpeek =>
      refine (fnDecl_sound hi hs hk).mono ?_
      rintro stmt t ⟨hwrites, hregular, hmember⟩
      exact ⟨hwrites, hregular, hmember hpeek⟩
    · exact gives_unexpectedDetailed _
  · exact gives_unexpectedDetailed _

theorem classDecl_sound (hi : inner.Sound) (hs : s.Good) (hk : s.kind = .kwClass) :
    inner.classDecl.Gives s fun stmt t => s.Writes stmt.pieces t ∧ stmt.Regular := by
  simp only [classDecl, gives_bind, gives_advance, gives_expectDetailed, gives_kind]
  intro hname
  have hclass := hs.writes_mark hk (by decide)
  have hid := hclass.good.writes_token hname (by decide)
  have hmembers : ∀ (parameters : List Parameter) (t : TokenStream),
      s.next.next.Writes (Parameter.classPieces parameters) t → t.kind = .openCurly →
        (repeatUntil (· == .closeCurly) inner.classMember).Gives t.next fun members u =>
          u.kind = .closeCurly → ∀ span,
            let stmt : Stmt :=
              ⟨.classDecl s.next.current.value s.next.current.span parameters members, span⟩
            s.Writes stmt.pieces u.next ∧ stmt.Regular := by
    intro parameters t hparameters hopen
    have hstart := hparameters.good.writes_mark hopen (by decide)
    refine (gives_repeatUntil (fun stmt => stmt.Regular ∧ stmt.memberName?.isSome)
      (fun u hu _ => classMember_sound hi u hu) Stmt.pieces_required hstart.good).mono ?_
    rintro members u ⟨hbody, hregular, -⟩ hclose span
    have hbraced := (hstart.append hbody).append (hbody.good.writes_mark hclose (by decide))
    refine ⟨?_, Stmt.allRegular_iff.2 fun m hm => (hregular m hm).1, fun m hm => (hregular m hm).2⟩
    simpa [Stmt.pieces, StmtForm.pieces, Piece.braced] using
      ((hclass.append hid).append hparameters).append hbraced
  split
  · simp only [gives_bind, gives_expect, gives_spanFrom, gives_pure]
    refine ((parameter_sound hi).parenthesised _ hid.good).mono ?_
    rintro parameters t ⟨hparameters, -⟩ hopen
    have hclassPieces := hparameters.imp fun _ => Parameter.spelling_classPieces
    refine (hmembers parameters t hclassPieces hopen).mono ?_
    exact fun members u h hclose => h hclose _
  · simp only [gives_bind, gives_expect, gives_spanFrom, gives_pure]
    intro hopen
    refine (hmembers [] _ ⟨hid.good, [], .single .noParens, rfl⟩ hopen).mono ?_
    exact fun members u h hclose => h hclose _

theorem ret_sound (hi : inner.Sound) (hs : s.Good) (hk : s.kind = .kwReturn) :
    inner.ret.Gives s fun stmt t => s.Writes stmt.pieces t ∧ stmt.Regular := by
  simp only [ret, gives_bind, gives_advance, gives_kind]
  have hret := hs.writes_mark hk (by decide)
  split
  · simp only [gives_bind, gives_pure, gives_expect, gives_spanFrom]
    exact fun hend => ⟨hret.append (hret.good.writes_mark hend (by decide)), trivial⟩
  · simp only [gives_bind, gives_map, gives_pure, gives_expect, gives_spanFrom]
    refine (hi.exprReads .default _ hret.good).mono ?_
    rintro e t ⟨he, hregular⟩ hend
    exact ⟨(hret.append he).append (he.good.writes_mark hend (by decide)), hregular⟩

theorem branch_sound (hi : inner.Sound) (hs : s.Good) (hk : s.kind = .kwIf) :
    inner.branch.Gives s fun stmt t => s.Writes stmt.pieces t ∧ stmt.Regular := by
  simp only [branch, gives_bind, gives_advance, gives_spanFrom, gives_pure]
  have hif := hs.writes_mark hk (by decide)
  refine (hi.exprReads .default _ hif.good).mono ?_
  rintro condition t ⟨hcondition, hregular⟩
  refine (hi.stmt t hcondition.good).mono ?_
  rintro thenBody u ⟨hthen, hregular'⟩
  refine (after?_sound hi.stmt (by decide) u hthen.good).mono ?_
  rintro elseBody? v ⟨helse, hregular''⟩
  refine ⟨?_, ?_⟩
  · rw [Stmt.pieces, StmtForm.pieces_branch]
    exact ((hif.append hcondition).append hthen).append helse
  · cases elseBody? with
    | none => exact ⟨hregular, hregular'⟩
    | some elseBody => exact ⟨hregular, hregular', hregular'' elseBody rfl⟩

theorem loop_sound (hi : inner.Sound) (hs : s.Good) (hk : s.kind = .kwWhile) :
    inner.loop.Gives s fun stmt t => s.Writes stmt.pieces t ∧ stmt.Regular := by
  simp only [loop, gives_bind, gives_advance, gives_spanFrom, gives_pure]
  have hwhile := hs.writes_mark hk (by decide)
  refine (hi.exprReads .default _ hwhile.good).mono ?_
  rintro condition t ⟨hcondition, hregular⟩
  refine (hi.stmt t hcondition.good).mono ?_
  rintro body u ⟨hbody, hregular'⟩
  exact ⟨(hwhile.append hcondition).append hbody, hregular, hregular'⟩

theorem print_sound (hi : inner.Sound) (hs : s.Good) (hk : s.kind = .kwPrint) :
    inner.print.Gives s fun stmt t => s.Writes stmt.pieces t ∧ stmt.Regular := by
  simp only [print, gives_bind, gives_advance, gives_expect, gives_spanFrom, gives_pure]
  have hprint := hs.writes_mark hk (by decide)
  refine (hi.exprReads .default _ hprint.good).mono ?_
  rintro e t ⟨he, hregular⟩ hend
  exact ⟨(hprint.append he).append (he.good.writes_mark hend (by decide)), hregular⟩

theorem blockStmt_sound (hi : inner.Sound) : inner.blockStmt.Reads Stmt.pieces Stmt.Regular := by
  intro s hs
  simp only [blockStmt, gives_bind, gives_pure]
  refine (block_sound hi s hs).mono ?_
  rintro ⟨body, span⟩ t ⟨hwrites, hregular⟩
  exact ⟨by simpa [Stmt.pieces, StmtForm.pieces] using hwrites, Stmt.allRegular_iff.2 hregular⟩

theorem stmtAt_sound (hi : inner.Sound) :
    (inner.stmtAt .standard).Reads Stmt.pieces Stmt.Regular := by
  intro s hs
  simp only [stmtAt, gives_bind, gives_kind]
  split
  · next rule hrule =>
    have hk := Grammar.standard_stmt hrule
    cases rule with
    | varDecl =>
      refine (varDecl_sound hi hs hk).mono ?_
      rintro stmt t ⟨hwrites, hregular, -⟩
      exact ⟨hwrites, hregular⟩
    | classDecl => exact classDecl_sound hi hs hk
    | fnDecl =>
      refine (fnDecl_sound hi hs hk).mono ?_
      rintro stmt t ⟨hwrites, hregular, -⟩
      exact ⟨hwrites, hregular⟩
    | ret => exact ret_sound hi hs hk
    | branch => exact branch_sound hi hs hk
    | loop => exact loop_sound hi hs hk
    | print => exact print_sound hi hs hk
    | block => exact blockStmt_sound hi s hs
  · exact expressionStmt_sound hi s hs

end Inner

/-! ## All levels -/

namespace Grammar

/-- With any number of levels left the readers keep their promise. -/
theorem inner_sound (limit room : Nat) : (standard.inner limit room).Sound := by
  induction room with
  | zero => exact ⟨fun _ _ => trivial, fun _ _ _ => trivial, fun _ _ => trivial⟩
  | succ room ih =>
    exact ⟨Inner.stmtAt_sound ih, fun power s hs => Inner.exprAt_sound ih power hs,
      Inner.typeAt_sound ih⟩

end Grammar

end Nominal
