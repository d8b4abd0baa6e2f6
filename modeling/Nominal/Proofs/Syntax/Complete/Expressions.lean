import Nominal.Proofs.Syntax.Bare
import Nominal.Proofs.Syntax.Nesting
import Nominal.Proofs.Syntax.Sound
import Nominal.Proofs.Syntax.Succeeds

/-!
# The rules for types, functions and expressions are complete

Each rule reads back what it is for: at a spelling of a regular and legible tree that is nested no
deeper than there are levels left, it gives this tree up to places and stops behind it. What may
follow is stated for each kind of tree. After a type there is no parenthesis, after a statement that
ends in an open `if` there is no `else`, and after an expression there is nothing that binds it more
tightly than it is read.

An expression is read from its leftmost token on, so the rules that continue one are taken together:
reading the tokens of `e` at some power comes to the same as continuing `e`
(`Inner.exprAt_continues`). This follows the left parts of `e` down to the token it begins with.
-/

namespace Nominal

namespace Grammar

/-! ## Which tokens can follow -/

variable {kind : Kind}

/-- Nothing that begins a statement ends a block, a program or the first part of a branch. -/
theorem standard_opens (h : (standard.nud kind).isSome ∨ (standard.stmt kind).isSome) :
    kind ∉ [.eof, .closeCurly, .kwElse] := by
  revert h
  cases kind <;> decide

/-- Nothing that begins an expression ends a list of arguments or a statement. -/
theorem standard_nud_opens (h : (standard.nud kind).isSome) :
    kind ∉ [.closeParen, .semicolon] := by
  revert h
  cases kind <;> decide

/-- Of all that begins a statement only `(` and `-` continue an expression. -/
theorem power_of_opens (h : (standard.nud kind).isSome ∨ (standard.stmt kind).isSome)
    (hkind : kind ∉ [.openParen, .dash]) : standard.power kind = .default := by
  revert h hkind
  cases kind <;> decide

/-- An operator between two expressions binds more tightly than an assignment. -/
theorem standard_assignment_lt_binary {p : BindingPower}
    (h : standard.led kind = some (p, .binary)) : .assignment < p := by
  cases kind <;> simp_all [standard] <;> subst_vars <;> decide

end Grammar

namespace Expr

/-- The power at which the right part of an expression is read, if it ends in one. -/
def rightPower? (e : Expr) : Option BindingPower :=
  match e.form with
  | .assign _ _ => some .comma
  | .binary _ operator _ => some (Grammar.standard.power operator.kind)
  | .unary _ _ => some .unary
  | _ => none

/-- A token of the given kind does not belong to the right part of the expression. -/
def Closes (e : Expr) (next : Kind) : Prop :=
  ∀ q ∈ e.rightPower?, ¬ q < Grammar.standard.power next

variable {e : Expr} {power : BindingPower} {next : Kind}

theorem IsTight.closes (h : e.IsTight) : e.Closes next := by
  obtain ⟨form, span⟩ := e
  obtain ⟨hpower, hunary⟩ := h
  cases form with
  | assign => cases hpower
  | binary => cases hpower
  | unary => cases hunary
  | _ => simp [Closes, rightPower?]

/-- An expression that fits where it is read is not continued in its right part. -/
theorem Fits.closes (h : e.Fits power next) (hpower : power < .call) : e.Closes next := by
  obtain ⟨form, span⟩ := e
  have hcall : power.rank < 8 := hpower
  have hstops : ¬ power.rank < (Grammar.standard.power next).rank := h.stops
  cases form with
  | assign =>
    have habove : power.rank < 2 := h.above .assignment rfl
    rintro q ⟨⟩ hlt
    have hcomma : 1 < (Grammar.standard.power next).rank := hlt
    omega
  | binary left operator right =>
    have habove : power.rank < (Grammar.standard.power operator.kind).rank := h.above _ rfl
    rintro q ⟨⟩ hlt
    rw [BindingPower.lt_iff] at hlt
    omega
  | unary =>
    rintro q ⟨⟩ hlt
    have hunary : 7 < (Grammar.standard.power next).rank := hlt
    omega
  | _ => simp [Closes, rightPower?]

/-- Every operator between two expressions binds more tightly than a comma. -/
theorem Regular.comma_lt_power? (h : e.Regular) : ∀ q ∈ e.power?, .comma < q := by
  obtain ⟨form, span⟩ := e
  cases form with
  | assign target value =>
    rintro q ⟨⟩
    decide
  | binary left operator right =>
    obtain ⟨-, -, p, hled, -, -⟩ := h
    rintro q ⟨⟩
    rw [Grammar.power_of_led hled]
    exact Nat.lt_trans (by decide) (Grammar.standard_assignment_lt_binary hled)
  | _ => simp [power?]

/-- The left side of an operator is not continued by it. -/
theorem closes_of_binary {p : BindingPower} (hled : Grammar.standard.led next = some (p, .binary))
    (h : ∀ q ∈ e.power?, ¬ q < p) : e.Closes next := by
  have hnext : Grammar.standard.power next = p := Grammar.power_of_led hled
  obtain ⟨form, span⟩ := e
  cases form with
  | assign => exact absurd (Grammar.standard_assignment_lt_binary hled) (h .assignment rfl)
  | binary left operator right =>
    rintro q ⟨⟩
    rw [hnext]
    exact h _ rfl
  | unary =>
    rintro q ⟨⟩
    rw [hnext]
    exact Nat.lt_asymm (Grammar.standard_binary_lt_unary hled)
  | _ => simp [Closes, rightPower?]

/-- What can be assigned to is no operator. -/
theorem isTight_of_isAssignable (h : e.isAssignable) : e.IsTight := by
  obtain ⟨form, span⟩ := e
  cases form with
  | symbol => exact ⟨rfl, rfl⟩
  | member => exact ⟨rfl, rfl⟩
  | _ => cases h

/-- Where no operator can follow, any expression fits. -/
theorem Regular.fits_default (h : e.Regular) (hnext : Grammar.standard.power next = .default) :
    e.Fits .default next where
  above := fun q hq => Nat.lt_trans (by decide) (h.comma_lt_power? q hq)
  stops := by
    rw [hnext]
    decide

end Expr

namespace Inner

open Parse Piece Token TokenStream

/-- What the readers of nested parts promise for trees with at most `room` levels. -/
structure Complete (inner : Inner) (room : Nat) : Prop where
  stmt : ∀ stmt : Stmt, stmt.Regular → stmt.Legible → stmt.nesting ≤ room →
    inner.stmt.Recovers stmt.pieces (fun k => stmt.endsOpen → k ≠ .kwElse)
      fun b => b.bare = stmt.bare
  expr : ∀ (e : Expr) power, e.Regular → e.Legible → e.nesting ≤ room → power < .call →
    (inner.expr power).Recovers e.pieces (e.Fits power) fun b => b.bare = e.bare
  type : ∀ a : TypeExpr, a.nesting ≤ room →
    inner.type.Recovers a.pieces (· ≠ .openParen) fun b => b.bare = a.bare

variable {inner : Inner} {room : Nat}

/-! ## Types -/

/-- A type begins with a name. -/
theorem firstKind_type {a : TypeExpr} {all rest : List Token} (h : Through a.pieces all rest) :
    firstKind all = .identifier := by
  cases a with
  | named name span => exact h.firstKind rfl
  | function parameters result span => exact h.firstKind rfl

theorem functionType_complete (hi : inner.Complete room) {parameters : List TypeExpr}
    {result : TypeExpr} (span : Span)
    (hparameters : ∀ a ∈ parameters, a.nesting ≤ room) (hresult : result.nesting ≤ room) :
    inner.functionType.Recovers (TypeExpr.function parameters result span).pieces
      (· ≠ .openParen) fun b => b.bare = (TypeExpr.function parameters result span).bare := by
  intro s rest hall hfollow
  rw [TypeExpr.pieces, TypeExpr.eachPieces_eq, List.cons_append] at hall
  simp only [functionType, succeeds_bind, succeeds_advance, succeeds_expectDetailed,
    succeeds_spanFrom, succeeds_pure]
  obtain ⟨-, -, hall⟩ := through_token hall
  have hread := recovers_parenthesised (fun a ha => hi.type a (hparameters a ha))
    (fun a _ _ _ h => by simp [firstKind_type h]) (by decide) (by decide)
  refine hread.before hall (fun _ _ => trivial) fun as t hall has => ?_
  obtain ⟨harrow, hall⟩ := through_mark hall
  refine ⟨harrow, (hi.type result hresult _ _ hall hfollow).mono ?_⟩
  rintro b u ⟨rfl, hb⟩
  exact ⟨rfl, by simp [TypeExpr.bare, has, hb]⟩

theorem typeAt_complete (hi : inner.Complete room) (a : TypeExpr)
    (hnesting : a.nesting ≤ room + 1) :
    (inner.typeAt .standard).Recovers a.pieces (· ≠ .openParen) fun b => b.bare = a.bare := by
  intro s rest hall hfollow
  have hk : s.kind = .identifier := firstKind_type hall
  simp only [typeAt, succeeds_bind, succeeds_kind, hk]
  show (inner.namedType).Succeeds s _
  simp only [namedType, succeeds_bind, succeeds_get]
  cases a with
  | named name span =>
    have hpeek := peek_one_eq hall rfl
    obtain ⟨-, rfl, hrest⟩ := through_token hall
    obtain ⟨-, rfl⟩ := through_nil.1 hrest
    rw [if_neg fun h => hfollow (hpeek.symm.trans h.2)]
    simp only [succeeds_bind, succeeds_expect, succeeds_pure]
    exact ⟨hk, trivial, rfl⟩
  | function parameters result span =>
    obtain ⟨hparameters, hresult⟩ :
        (∀ a ∈ parameters, a.nesting ≤ room) ∧ result.nesting ≤ room := by
      simpa [TypeExpr.nesting, Nat.max_le] using hnesting
    have hpeek := peek_one_eq hall rfl
    obtain ⟨-, hvalue, hrest⟩ := through_token hall
    obtain ⟨hopen, -⟩ := through_mark hrest
    rw [if_pos ⟨hvalue, hpeek.trans hopen⟩]
    exact functionType_complete hi span hparameters hresult s rest hall hfollow

/-! ## Functions and blocks -/

/-- A statement starts with a token that begins one. -/
theorem firstKind_stmt {stmt : Stmt} (h : stmt.Regular) {all rest : List Token}
    (hall : Through stmt.pieces all rest) : firstKind all ∉ [.eof, .closeCurly, .kwElse] :=
  Grammar.standard_opens ((stmt.opens h).firstKind hall)

theorem block_complete (hi : inner.Complete room) (b : Block)
    (hregular : ∀ stmt ∈ b.body, stmt.Regular) (hlegible : ∀ stmt ∈ b.body, stmt.Legible)
    (hnesting : ∀ stmt ∈ b.body, stmt.nesting ≤ room) :
    inner.block.Recovers (braced (b.body.map Stmt.pieces)) (fun _ => True)
      fun c => c.bare = b.bare := by
  intro s rest hall _
  rw [braced, List.cons_append] at hall
  simp only [block, succeeds_bind, succeeds_expect, succeeds_spanFrom, succeeds_pure]
  obtain ⟨hopen, hall⟩ := through_mark hall
  obtain ⟨mid, hbody, hlast⟩ := through_append.1 hall
  have hmid : firstKind mid = .closeCurly := hlast.firstKind rfl
  have hitem : ∀ stmt ∈ b.body, Recovers (do
      if (← kind) = .eof then unexpectedDetailed "expected `\x7d` to close the block"
      else inner.stmt) stmt.pieces (· ≠ .kwElse) fun c => c.bare = stmt.bare := by
    intro stmt hmem u rest hstmt hfollow
    have hkind : u.kind ≠ .eof := fun h =>
      firstKind_stmt (hregular stmt hmem) hstmt (by simp [← h, kind_eq])
    simp only [succeeds_bind, succeeds_kind, if_neg hkind]
    exact hi.stmt stmt (hregular stmt hmem) (hlegible stmt hmem) (hnesting stmt hmem) u rest hstmt
      fun _ => hfollow
  refine ⟨hopen, (succeeds_repeatUntil hitem ?_ Stmt.pieces_required hbody (by simp [hmid])
    (by simp [hmid])).mono ?_⟩
  · intro stmt hmem all mid hstmt
    have hkind := firstKind_stmt (hregular stmt hmem) hstmt
    simp only [List.mem_cons, List.not_mem_nil, or_false, not_or] at hkind
    simp [hkind]
  · rintro body t ⟨rfl, hbare⟩
    obtain ⟨hclose, rfl⟩ := through_lastMark hlast
    exact ⟨hclose, rfl, by simp [Block.bare, hbare]⟩

theorem parameterMode_complete (mode : Mode) :
    parameterMode.Recovers [if mode = .var then .mark .kwVar else .optionalVal] (· = .identifier)
      (· = mode) := by
  intro s rest hall hfollow
  simp only [parameterMode, succeeds_bind, succeeds_kind]
  cases mode with
  | var =>
    obtain ⟨hk, rfl⟩ := through_lastMark hall
    simp [hk]
  | val =>
    obtain ⟨hne, ts, hts, hsplit⟩ := hall
    cases hts with
    | cons hp hnil =>
      cases hnil
      cases hp with
      | noVal =>
        have hremaining : s.remaining = rest := hsplit
        have hk : s.kind = .identifier := by rw [kind_eq, hremaining, hfollow]
        simp [hk, hremaining]
      | val ht =>
        have hmark : Through [.mark .kwVal] s.remaining rest := ⟨hne, _, .single ht, hsplit⟩
        obtain ⟨hk, rfl⟩ := through_lastMark hmark
        simp [hk]

theorem parameter_complete (hi : inner.Complete room) (p : Parameter)
    (hnesting : p.type.nesting ≤ room) :
    inner.parameter.Recovers p.pieces (· ≠ .openParen) fun q => q.bare = p.bare := by
  intro s rest hall hfollow
  simp only [parameter, succeeds_bind, succeeds_position, succeeds_expectDetailed,
    succeeds_spanFrom, succeeds_pure]
  rw [Parameter.pieces, ← List.singleton_append] at hall
  refine (parameterMode_complete p.mode).before hall (fun _ h => h.firstKind rfl) ?_
  rintro mode t hall rfl
  obtain ⟨hname, hvalue, hall⟩ := through_token hall
  obtain ⟨hcolon, hall⟩ := through_mark hall
  refine ⟨hname, hcolon, (hi.type p.type hnesting _ _ hall hfollow).mono ?_⟩
  rintro type u ⟨rfl, htype⟩
  exact ⟨rfl, by simp [Parameter.bare, hvalue, htype]⟩

/-- A parameter starts with `val`, `var` or a name. -/
theorem firstKind_parameter {p : Parameter} {all rest : List Token}
    (hall : Through p.pieces all rest) : firstKind all ∈ [.kwVal, .kwVar, .identifier] := by
  obtain ⟨mid, ⟨hne, ts, hts, rfl⟩, hrest⟩ := through_cons.1 hall
  have hmid : firstKind mid = .identifier := hrest.firstKind rfl
  cases hts with
  | cons hp hnil =>
    cases hnil
    split at hp
    · cases hp with
      | mark hk => simp [firstKind, hk]
    · cases hp with
      | noVal => simp [hmid]
      | val ht =>
        cases ht with
        | mark hk => simp [firstKind, hk]

theorem parameters_complete (hi : inner.Complete room) (parameters : List Parameter)
    (hnesting : ∀ p ∈ parameters, p.type.nesting ≤ room) :
    inner.parameters.Recovers (parenthesised (parameters.map Parameter.pieces)) (fun _ => True)
      fun qs => qs.map Parameter.bare = parameters.map Parameter.bare := by
  refine recovers_parenthesised (fun p hp => parameter_complete hi p (hnesting p hp))
    (fun p _ _ _ h hclose => ?_) (by decide) (by decide)
  have hkind := firstKind_parameter h
  rw [hclose] at hkind
  revert hkind
  decide

theorem resultType?_complete (hi : inner.Complete room) (result? : Option TypeExpr)
    (hnesting : ∀ result ∈ result?, result.nesting ≤ room) :
    inner.resultType?.Recovers (result?.elim [] fun result => .resultMark :: result.pieces)
      (· = .openCurly) fun r => r.map TypeExpr.bare = result?.map TypeExpr.bare := by
  intro s rest hall hfollow
  simp only [resultType?, succeeds_bind, succeeds_kind]
  cases result? with
  | none =>
    obtain ⟨-, rfl⟩ := through_nil.1 hall
    have hk : s.kind = .openCurly := hfollow
    simp [hk]
  | some result =>
    obtain ⟨mid, ⟨hne, ts, hts, hsplit⟩, hrest⟩ := through_cons.1 hall
    have hmark : (s.kind = .colon ∨ s.kind = .arrow) ∧
        Through result.pieces s.next.remaining rest := by
      cases hts with
      | cons hp hnil =>
        cases hnil
        cases hp with
        | colon ht =>
          have hone : Through [.mark .colon] s.remaining mid := ⟨hne, _, .single ht, hsplit⟩
          obtain ⟨hk, rfl⟩ := through_lastMark hone
          exact ⟨.inl hk, hrest⟩
        | arrow ht =>
          have hone : Through [.mark .arrow] s.remaining mid := ⟨hne, _, .single ht, hsplit⟩
          obtain ⟨hk, rfl⟩ := through_lastMark hone
          exact ⟨.inr hk, hrest⟩
    obtain ⟨hk, hall⟩ := hmark
    rw [if_pos hk]
    simp only [succeeds_bind, succeeds_advance, succeeds_pure]
    refine (hi.type result (hnesting result rfl) _ _ hall (by simp [hfollow])).mono ?_
    rintro b t ⟨rfl, hb⟩
    exact ⟨rfl, by simp [hb]⟩

theorem signature_complete (hi : inner.Complete room) (sig : Signature)
    (hregular : ∀ stmt ∈ sig.body.body, stmt.Regular)
    (hlegible : ∀ stmt ∈ sig.body.body, stmt.Legible)
    (hhead : Signature.headNesting sig.parameters sig.result? ≤ room)
    (hbody : ∀ stmt ∈ sig.body.body, stmt.nesting ≤ room) :
    inner.signature.Recovers
      (Signature.piecesWith sig.parameters sig.result? (sig.body.body.map Stmt.pieces))
      (fun _ => True) fun b => b.bare = sig.bare := by
  intro s rest hall _
  obtain ⟨hparameters, hresult⟩ := Signature.headNesting_le.1 hhead
  simp only [signature, succeeds_bind, succeeds_pure]
  rw [Signature.piecesWith, List.append_assoc] at hall
  refine (parameters_complete hi sig.parameters hparameters).before hall (fun _ _ => trivial)
    fun parameters t hall hps => ?_
  refine (resultType?_complete hi sig.result? hresult).before hall (fun _ h => h.firstKind rfl)
    fun result? u hall hres => ?_
  refine (block_complete hi sig.body hregular hlegible hbody u rest hall trivial).mono ?_
  rintro body v ⟨rfl, hb⟩
  exact ⟨rfl, by simp [Signature.bare, hps, hres, hb]⟩

/-! ## How an expression begins -/

/-- Where the pieces of `e` are spelled, some rule begins an expression, and it gives `e`. -/
def Begins (inner : Inner) (e : Expr) (follow : Kind → Prop) : Prop :=
  ∀ (s : TokenStream) (rest : List Token), Through e.pieces s.remaining rest →
    follow (firstKind rest) → ∃ rule, Grammar.standard.nud s.kind = some rule ∧
      (inner.nudBy rule).Succeeds s fun b t => t.remaining = rest ∧ b.bare = e.bare

/-- A form that is a single token is read from a token that spells it. -/
theorem primary_begins {form : ExprForm} {p : Piece} {k : Kind} (span : Span)
    (hpieces : form.pieces = [p]) (hk : p.kind? = some k)
    (hnud : Grammar.standard.nud k = some .primary)
    (hread : ∀ t : Token, p.Spells [t] → t.kind = k ∧ primaryForm t = .ok form)
    (hbare : form.bare = form) : inner.Begins ⟨form, span⟩ fun _ => True := by
  intro s rest hall _
  rw [Expr.pieces, hpieces] at hall
  obtain ⟨hspells, -, hrest⟩ := through_next hall hk
  obtain ⟨-, rfl⟩ := through_nil.1 hrest
  obtain ⟨hkind, hform⟩ := hread _ hspells
  refine ⟨.primary, by rw [TokenStream.kind, hkind, hnud], ?_⟩
  simp only [nudBy, primary, succeeds_bind, succeeds_current, hform, succeeds_advance,
    succeeds_pure]
  exact ⟨trivial, by simp [Expr.bare, hbare]⟩

theorem number_begins (value : Int) (span : Span) :
    inner.Begins ⟨.number value, span⟩ fun _ => True := by
  refine primary_begins span rfl rfl rfl (fun t ht => ?_) rfl
  cases ht with
  | @number t n hkind hvalue hzeros hmax =>
    obtain ⟨zeros, hzeros⟩ := hzeros
    have hinteger : t.integer? = some (n : Int) := by
      rw [Token.integer?, if_pos hkind, hzeros]
      exact integer?_of_toDigits zeros hmax
    exact ⟨hkind, by simp [primaryForm, hkind, hinteger]⟩

theorem text_begins (value : String) (span : Span) :
    inner.Begins ⟨.text value, span⟩ fun _ => True := by
  refine primary_begins span rfl rfl rfl (fun t ht => ?_) rfl
  cases ht with
  | token hkind hvalue => exact ⟨hkind, by simp [primaryForm, hkind, hvalue]⟩

theorem symbol_begins (name : String) (span : Span) :
    inner.Begins ⟨.symbol name, span⟩ fun _ => True := by
  refine primary_begins span rfl rfl rfl (fun t ht => ?_) rfl
  cases ht with
  | token hkind hvalue => exact ⟨hkind, by simp [primaryForm, hkind, hvalue]⟩

theorem bool_begins (value : Bool) (span : Span) :
    inner.Begins ⟨.bool value, span⟩ fun _ => True := by
  cases value with
  | true =>
    refine primary_begins span rfl rfl rfl (fun t ht => ?_) rfl
    cases ht with
    | mark hkind => exact ⟨hkind, by simp [primaryForm, hkind]⟩
  | false =>
    refine primary_begins span rfl rfl rfl (fun t ht => ?_) rfl
    cases ht with
    | mark hkind => exact ⟨hkind, by simp [primaryForm, hkind]⟩

theorem unary_begins (hi : inner.Complete room) {operator : Token} {operand : Expr} (span : Span)
    (hregular : (Expr.mk (.unary operator operand) span).Regular) (hlegible : operand.Legible)
    (hnesting : operand.nesting ≤ room) :
    inner.Begins ⟨.unary operator operand, span⟩
      (Expr.mk (.unary operator operand) span).Closes := by
  intro s rest hall hfollow
  obtain ⟨hoperand, hnud, hpower⟩ := hregular
  obtain ⟨hkind, hvalue, hall⟩ := through_token hall
  refine ⟨.unary, by rw [hkind, hnud], ?_⟩
  simp only [nudBy, unary, succeeds_bind, succeeds_advance, succeeds_pure]
  have hfits : operand.Fits .unary (firstKind rest) :=
    ⟨by simp [hpower], hfollow .unary rfl⟩
  refine (hi.expr operand .unary hoperand hlegible hnesting (by decide) _ _ hall hfits).mono ?_
  rintro b t ⟨rfl, hb⟩
  have htoken : s.current.bare = operator.bare := by
    simp [Token.bare, hvalue, show s.current.kind = operator.kind from hkind]
  exact ⟨rfl, by simp [Expr.bare, ExprForm.bare, hb, htoken]⟩

/-- An expression starts with no closing parenthesis. -/
theorem firstKind_expr {e : Expr} (h : e.Regular) {all rest : List Token}
    (hall : Through e.pieces all rest) : firstKind all ∉ [.closeParen, .semicolon] :=
  Grammar.standard_nud_opens ((e.opens h).firstKind hall)

theorem arguments_complete (hi : inner.Complete room) (es : List Expr)
    (hregular : ∀ e ∈ es, e.Regular) (hlegible : ∀ e ∈ es, e.Legible)
    (hnesting : ∀ e ∈ es, e.nesting ≤ room) :
    inner.arguments.Recovers (parenthesised (es.map Expr.pieces)) (fun _ => True)
      fun bs => bs.map Expr.bare = es.map Expr.bare := by
  have hitem : ∀ e ∈ es, (inner.expr .default).Recovers e.pieces
      (Grammar.standard.power · = .default) fun b => b.bare = e.bare := by
    intro e he s rest hall hfollow
    exact hi.expr e .default (hregular e he) (hlegible e he) (hnesting e he) (by decide) s rest hall
      ((hregular e he).fits_default hfollow)
  refine recovers_parenthesised hitem (fun e he _ _ hall hclose => ?_) (by decide) (by decide)
  exact firstKind_expr (hregular e he) hall (by simp [hclose])

theorem group_begins (hi : inner.Complete room) {e : Expr} (span : Span)
    (hregular : e.Regular) (hlegible : e.Legible) (hnesting : e.nesting ≤ room) :
    inner.Begins ⟨.group e, span⟩ fun _ => True := by
  intro s rest hall _
  rw [Expr.pieces, ExprForm.pieces, List.cons_append] at hall
  obtain ⟨hkind, hall⟩ := through_mark hall
  refine ⟨.group, by rw [hkind]; rfl, ?_⟩
  simp only [nudBy, group, succeeds_bind, succeeds_advance, succeeds_expect, succeeds_spanFrom,
    succeeds_pure]
  have hread := hi.expr e .default hregular hlegible hnesting (by decide)
  refine hread.before hall (fun mid h => ?_) fun b t hall hb => ?_
  · rw [h.firstKind rfl]
    exact hregular.fits_default rfl
  · obtain ⟨hclose, rfl⟩ := through_lastMark hall
    exact ⟨hclose, rfl, by simp [Expr.bare, ExprForm.bare, hb]⟩

theorem new_begins (hi : inner.Complete room) {className : String} {es : List Expr} (span : Span)
    (hregular : ∀ e ∈ es, e.Regular) (hlegible : ∀ e ∈ es, e.Legible)
    (hnesting : ∀ e ∈ es, e.nesting ≤ room) :
    inner.Begins ⟨.new className es, span⟩ fun _ => True := by
  intro s rest hall _
  rw [Expr.pieces, ExprForm.pieces, Expr.eachPieces_eq] at hall
  obtain ⟨hkind, hall⟩ := through_mark hall
  obtain ⟨hname, hvalue, hall⟩ := through_token hall
  refine ⟨.new, by rw [hkind]; rfl, ?_⟩
  simp only [nudBy, new, succeeds_bind, succeeds_advance, succeeds_expectDetailed,
    succeeds_spanFrom, succeeds_pure]
  refine ⟨hname, (arguments_complete hi es hregular hlegible hnesting _ _ hall trivial).mono ?_⟩
  rintro bs t ⟨rfl, hbs⟩
  exact ⟨rfl, by simp [Expr.bare, ExprForm.bare, hvalue, hbs]⟩

theorem lambda_begins (hi : inner.Complete room) {sig : Signature} (span : Span)
    (hregular : ∀ stmt ∈ sig.body.body, stmt.Regular)
    (hlegible : ∀ stmt ∈ sig.body.body, stmt.Legible)
    (hhead : Signature.headNesting sig.parameters sig.result? ≤ room)
    (hbody : ∀ stmt ∈ sig.body.body, stmt.nesting ≤ room) :
    inner.Begins ⟨.lambda sig, span⟩ fun _ => True := by
  intro s rest hall _
  obtain ⟨parameters, result?, ⟨body, bodySpan⟩⟩ := sig
  rw [Expr.pieces, ExprForm.pieces, Stmt.eachPieces_eq] at hall
  obtain ⟨hkind, hall⟩ := through_mark hall
  refine ⟨.lambda, by rw [hkind]; rfl, ?_⟩
  simp only [nudBy, lambda, succeeds_bind, succeeds_advance, succeeds_spanFrom, succeeds_pure]
  refine (signature_complete hi _ hregular hlegible hhead hbody _ _ hall trivial).mono ?_
  rintro b t ⟨rfl, hb⟩
  exact ⟨rfl, by simp [Expr.bare, hb]⟩

/-! ## How an expression goes on -/

variable {s : TokenStream} {power : BindingPower} {post : Expr → TokenStream → Prop}

theorem continueExpr_step {left : Expr} {next : BindingPower} {rule : LedRule}
    (hled : Grammar.standard.led s.kind = some (next, rule)) (hlt : power < next)
    (h : (inner.ledBy left next rule).Succeeds s fun longer t => t.size < s.size ∧
      (inner.continueExpr .standard power longer).Succeeds t post) :
    (inner.continueExpr .standard power left).Succeeds s post := by
  obtain ⟨longer, t, hread, hsize, hmore⟩ := h.exists_ok
  obtain ⟨e, u, hcontinue, hpost⟩ := hmore.exists_ok
  unfold Succeeds
  rw [continueExpr]
  simp [hled, hlt, hread, hsize, hcontinue, hpost]

theorem continueExpr_stop {left : Expr} (h : ¬ power < Grammar.standard.power s.kind)
    (hpost : post left s) : (inner.continueExpr .standard power left).Succeeds s post := by
  unfold Succeeds
  rw [continueExpr]
  cases hled : Grammar.standard.led s.kind with
  | none => exact hpost
  | some led =>
    obtain ⟨next, rule⟩ := led
    rw [Grammar.power_of_led hled] at h
    simp [h, hpost]

/-- Whatever was read for `e` before the tokens `rest`, it is continued as `post` says. -/
def GoesOn (inner : Inner) (power : BindingPower) (e : Expr) (rest : List Token)
    (post : Expr → TokenStream → Prop) : Prop :=
  ∀ (b : Expr) (t : TokenStream), b.bare = e.bare → t.remaining = rest →
    (inner.continueExpr .standard power b).Succeeds t post

variable {mid rest : List Token} {span : Span}

theorem member_goesOn {owner : Expr} {name : String} {nameSpan : Span} (hpower : power < .call)
    (hright : Through [mark .dot, .token .identifier name] mid rest)
    (h : inner.GoesOn power ⟨.member owner name nameSpan, span⟩ rest post) :
    inner.GoesOn power owner mid post := by
  rintro b t hb rfl
  obtain ⟨hdot, hname⟩ := through_mark hright
  obtain ⟨hidentifier, hvalue, hend⟩ := through_token hname
  obtain ⟨-, rfl⟩ := through_nil.1 hend
  have hled : Grammar.standard.led t.kind = some (.member, .member) := by rw [hdot]; rfl
  have hmember : power < .member := Nat.lt_trans hpower (by decide)
  refine continueExpr_step hled hmember ?_
  simp only [ledBy, member, succeeds_bind, succeeds_advance, succeeds_expectDetailed, succeeds_pure]
  refine ⟨hidentifier, size_lt_of_through hright rfl, h _ _ ?_ rfl⟩
  simp [Expr.bare, ExprForm.bare, hb, hvalue]

theorem call_goesOn (hi : inner.Complete room) {callee : Expr} {es : List Expr}
    (hpower : power < .call) (hregular : ∀ e ∈ es, e.Regular) (hlegible : ∀ e ∈ es, e.Legible)
    (hnesting : ∀ e ∈ es, e.nesting ≤ room)
    (hright : Through (parenthesised (es.map Expr.pieces)) mid rest)
    (h : inner.GoesOn power ⟨.call callee es, span⟩ rest post) :
    inner.GoesOn power callee mid post := by
  rintro b t hb rfl
  have hopen : t.kind = .openParen := hright.firstKind rfl
  have hled : Grammar.standard.led t.kind = some (.call, .call) := by rw [hopen]; rfl
  refine continueExpr_step hled hpower ?_
  simp only [ledBy, call, succeeds_bind, succeeds_spanFrom, succeeds_pure]
  have hread := arguments_complete hi es hregular hlegible hnesting
  refine (hread.spanned hright trivial).mono ?_
  rintro bs u ⟨hspanned, hu, hbs⟩
  refine ⟨size_lt_of_through hspanned rfl, h _ _ ?_ hu⟩
  simp [Expr.bare, ExprForm.bare, hb, hbs]

theorem assign_goesOn (hi : inner.Complete room) {target value : Expr}
    (hpower : power < .assignment) (hassignable : target.isAssignable) (hregular : value.Regular)
    (hlegible : value.Legible) (hnesting : value.nesting ≤ room)
    (hcloses : ¬ BindingPower.comma < Grammar.standard.power (firstKind rest))
    (hright : Through (mark .assignment :: value.pieces) mid rest)
    (h : inner.GoesOn power ⟨.assign target value, span⟩ rest post) :
    inner.GoesOn power target mid post := by
  rintro b t hb rfl
  obtain ⟨hmark, hread⟩ := through_mark hright
  have hled : Grammar.standard.led t.kind = some (.assignment, .assignment) := by rw [hmark]; rfl
  have hplace : b.isAssignable := by
    rw [← Expr.isAssignable_bare, hb, Expr.isAssignable_bare, hassignable]
  refine continueExpr_step hled hpower ?_
  simp only [ledBy, assignment, hplace, if_true, succeeds_bind, succeeds_advance, succeeds_pure]
  have hfits : value.Fits .comma (firstKind rest) := ⟨hregular.comma_lt_power?, hcloses⟩
  have hinner := hi.expr value .comma hregular hlegible hnesting (by decide)
  refine (hinner _ _ hread hfits).mono ?_
  rintro c u ⟨rfl, hc⟩
  refine ⟨size_lt_of_through hright rfl, h _ _ ?_ rfl⟩
  simp [Expr.bare, ExprForm.bare, hb, hc]

theorem binary_goesOn (hi : inner.Complete room) {left right : Expr} {operator : Token}
    {p : BindingPower} (hled : Grammar.standard.led operator.kind = some (p, .binary))
    (hpower : power < p) (hregular : right.Regular) (hlegible : right.Legible)
    (hnesting : right.nesting ≤ room) (hfits : right.Fits p (firstKind rest))
    (hright : Through (.token operator.kind operator.value :: right.pieces) mid rest)
    (h : inner.GoesOn power ⟨.binary left operator right, span⟩ rest post) :
    inner.GoesOn power left mid post := by
  rintro b t hb rfl
  obtain ⟨hkind, hvalue, hread⟩ := through_token hright
  refine continueExpr_step (hkind ▸ hled) hpower ?_
  simp only [ledBy, binary, succeeds_bind, succeeds_advance, succeeds_pure]
  have hcall : p < .call := Nat.lt_trans (Grammar.standard_binary_lt_unary hled) (by decide)
  have hinner := hi.expr right p hregular hlegible hnesting hcall
  refine (hinner _ _ hread hfits).mono ?_
  rintro c u ⟨rfl, hc⟩
  have htoken : t.current.bare = operator.bare := by
    simp [Token.bare, hvalue, show t.current.kind = operator.kind from hkind]
  refine ⟨size_lt_of_through hright rfl, h _ _ ?_ rfl⟩
  simp [Expr.bare, ExprForm.bare, hb, hc, htoken]

/-- What begins as `e` is continued as `e`. -/
theorem Begins.continues {e : Expr} {follow : Kind → Prop} (h : inner.Begins e follow)
    (hall : Through e.pieces s.remaining rest) (hfollow : follow (firstKind rest))
    (hpost : inner.GoesOn power e rest post) : (inner.exprAt .standard power).Succeeds s post := by
  obtain ⟨rule, hrule, hread⟩ := h s rest hall hfollow
  simp only [exprAt, succeeds_bind, succeeds_kind, hrule]
  refine hread.mono ?_
  rintro b t ⟨ht, hb⟩
  exact hpost b t hb ht

/-- Reading `e` at a power below that of its own operator comes to the same as continuing `e`. -/
theorem exprAt_continues (hi : inner.Complete room) (hpower : power < .call) :
    (e : Expr) → e.Regular → e.Legible → e.nesting ≤ room + 1 → (∀ q ∈ e.power?, power < q) →
    ∀ {s : TokenStream} {rest : List Token}, Through e.pieces s.remaining rest →
    e.Closes (firstKind rest) → ∀ {post : Expr → TokenStream → Prop},
    inner.GoesOn power e rest post → (inner.exprAt .standard power).Succeeds s post
  | ⟨.number value, _⟩, _, _, _, _, _, _, hall, _, _, hpost =>
    (number_begins value _).continues hall trivial hpost
  | ⟨.text value, _⟩, _, _, _, _, _, _, hall, _, _, hpost =>
    (text_begins value _).continues hall trivial hpost
  | ⟨.bool value, _⟩, _, _, _, _, _, _, hall, _, _, hpost =>
    (bool_begins value _).continues hall trivial hpost
  | ⟨.symbol name, _⟩, _, _, _, _, _, _, hall, _, _, hpost =>
    (symbol_begins name _).continues hall trivial hpost
  | ⟨.unary operator operand, _⟩, hregular, hlegible, hnesting, _, _, _, hall, hcloses, _, hpost =>
    (unary_begins hi _ hregular hlegible (Nat.le_of_succ_le_succ hnesting)).continues hall hcloses
      hpost
  | ⟨.group e, _⟩, hregular, hlegible, hnesting, _, _, _, hall, _, _, hpost => by
    have hregular : e.Regular := hregular
    have hlegible : e.Legible := hlegible
    exact (group_begins hi _ hregular hlegible (Nat.le_of_succ_le_succ hnesting)).continues hall
      trivial hpost
  | ⟨.new className es, _⟩, hregular, hlegible, hnesting, _, _, _, hall, _, _, hpost =>
    (new_begins hi _ (Expr.allRegular_iff.1 hregular) (Expr.allLegible_iff.1 hlegible)
      (Expr.eachNesting_le.1 (Nat.le_of_succ_le_succ hnesting))).continues hall trivial hpost
  | ⟨.lambda ⟨parameters, result?, ⟨body, bodySpan⟩⟩, _⟩, hregular, hlegible, hnesting, _, _, _,
      hall, _, _, hpost => by
    obtain ⟨hhead, hbody⟩ := Nat.max_le.1 (Nat.le_of_succ_le_succ hnesting)
    have hregulars : ∀ stmt ∈ body, stmt.Regular := Stmt.allRegular_iff.1 hregular
    have hlegibles : ∀ stmt ∈ body, stmt.Legible := Stmt.allLegible_iff.1 hlegible
    exact (lambda_begins hi _ hregulars hlegibles hhead (Stmt.eachNesting_le.1 hbody)).continues
      hall trivial hpost
  -- the rest begin with their left part, which is read at the same power and on the same level
  | ⟨.member owner name _, _⟩, ⟨howner, htight⟩, hlegible, hnesting, _, _, _, hall, _, _,
      hpost => by
    rw [Expr.pieces, ExprForm.pieces] at hall
    obtain ⟨mid, hleft, hright⟩ := through_append.1 hall
    exact exprAt_continues hi hpower owner howner hlegible hnesting (by simp [htight.1]) hleft
      htight.closes (member_goesOn hpower hright hpost)
  | ⟨.call callee es, _⟩, ⟨hcallee, htight, hes⟩, ⟨hlegible, hlegibles⟩, hnesting, _, _, _, hall, _,
      _, hpost => by
    obtain ⟨hnesting, hnestings⟩ := Nat.max_le.1 hnesting
    rw [Expr.pieces, ExprForm.pieces, Expr.eachPieces_eq] at hall
    obtain ⟨mid, hleft, hright⟩ := through_append.1 hall
    have hgoesOn := call_goesOn hi hpower (Expr.allRegular_iff.1 hes)
      (Expr.allLegible_iff.1 hlegibles) (Expr.eachNesting_le.1 (Nat.le_of_succ_le_succ hnestings))
      hright hpost
    exact exprAt_continues hi hpower callee hcallee hlegible hnesting (by simp [htight.1]) hleft
      htight.closes hgoesOn
  | ⟨.assign target value, _⟩, ⟨htarget, hvalue, hassignable⟩, ⟨hlegible, hlegible'⟩, hnesting,
      habove, _, _, hall, hcloses, _, hpost => by
    obtain ⟨hnesting, hnesting'⟩ := Nat.max_le.1 hnesting
    have htight := Expr.isTight_of_isAssignable hassignable
    rw [Expr.pieces, ExprForm.pieces] at hall
    obtain ⟨mid, hleft, hright⟩ := through_append.1 hall
    have hgoesOn := assign_goesOn hi (habove .assignment rfl) hassignable hvalue hlegible'
      (Nat.le_of_succ_le_succ hnesting') (hcloses .comma rfl) hright hpost
    exact exprAt_continues hi hpower target htarget hlegible hnesting (by simp [htight.1]) hleft
      htight.closes hgoesOn
  | ⟨.binary left operator right, _⟩, ⟨hleft, hright, p, hled, hleast, hmost⟩,
      ⟨hlegible, hlegible'⟩, hnesting, habove, _, _, hall, hcloses, _, hpost => by
    obtain ⟨hnesting, hnesting'⟩ := Nat.max_le.1 hnesting
    have hoperator := Grammar.power_of_led hled
    have hlt : power < p := hoperator ▸ habove _ rfl
    have habove' : ∀ q ∈ left.power?, power < q := by
      intro q hq
      have hle := hleast q hq
      simp only [BindingPower.lt_iff] at hlt hle ⊢
      omega
    rw [Expr.pieces, ExprForm.pieces] at hall
    obtain ⟨mid, hfirst, hsecond⟩ := through_append.1 hall
    have hmid : firstKind mid = operator.kind := hsecond.firstKind rfl
    have hfits : right.Fits p _ := ⟨hmost, hcloses p (congrArg some hoperator)⟩
    have hgoesOn := binary_goesOn hi hled hlt hright hlegible' (Nat.le_of_succ_le_succ hnesting')
      hfits hsecond hpost
    exact exprAt_continues hi hpower left hleft hlegible hnesting habove' hfirst
      (hmid ▸ Expr.closes_of_binary hled hleast) hgoesOn

/-- Expressions are read back at any power that they fit. -/
theorem exprAt_complete (hi : inner.Complete room) (e : Expr) (hpower : power < .call)
    (hregular : e.Regular) (hlegible : e.Legible) (hnesting : e.nesting ≤ room + 1) :
    (inner.exprAt .standard power).Recovers e.pieces (e.Fits power) fun b => b.bare = e.bare := by
  intro s rest hall hfits
  refine exprAt_continues hi hpower e hregular hlegible hnesting hfits.above hall
    (hfits.closes hpower) fun b t hb ht => ?_
  refine continueExpr_stop ?_ ⟨ht, hb⟩
  rw [kind_eq, ht]
  exact hfits.stops

end Inner

end Nominal
