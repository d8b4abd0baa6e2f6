import Nominal.Proofs.Syntax.Layout
import Nominal.Proofs.Syntax.Parsed
import Nominal.Proofs.Token.Lossless

/-!
# Spans are exact

Whatever rule reads a part of a program, the layout of the tree it gives stands on the tokens it
passed: every node has the span from its first token to its last one, and every name and operator
the span of its own token. A rule comes to a span in one of several ways, from the token it begins
with, from the token passed last or from the spans of two parts, so for each rule it has to be shown
that its way leads to the span from where it began to the end of the token passed last
(`TokenStream.Lays.node`).

As with spelling, each rule is proved from the same promise for the readers one level further in,
and `parse_spans` is the result for whole programs.
-/

namespace Nominal

open Parse Token

/-! ## Streams -/

namespace TokenStream

variable {s t u : TokenStream} {l : Layout} {ls ms : List Layout} {k : Kind} {span : Span}

/-- Between `s` and `t` there are tokens that the layouts stand on, and the last of them is the one
passed last. -/
def Lays (s : TokenStream) (ls : List Layout) (t : TokenStream) : Prop :=
  t.Good ∧ ∃ ts, Layout.AllOn ls ts ∧ s.remaining = ts ++ t.remaining ∧
    t.previous? = ts.getLast?.or s.previous?

theorem Lays.good (h : s.Lays ls t) : t.Good :=
  h.1

theorem Good.lays_nil (hs : s.Good) : s.Lays [] s :=
  ⟨hs, [], .nil, rfl, rfl⟩

/-- A layout that may stand on no token at all. -/
theorem Good.lays_nothing (hs : s.Good) (hl : l.On []) : s.Lays [l] s :=
  ⟨hs, [], .single hl, rfl, rfl⟩

/-- Passing a token lays any layout that stands on it. -/
theorem Good.lays_one (hs : s.Good) (hk : s.kind ≠ .eof) (hl : l.On [s.current]) :
    s.Lays [l] s.next := by
  obtain ⟨hremaining, hgood⟩ := hs.next hk
  have hprevious := previous?_next hremaining (by simp [remaining])
  exact ⟨hgood, [s.current], .single hl, hremaining, hprevious⟩

theorem Good.lays_mark (hs : s.Good) (hk : s.kind = k)
    (hne : k ∉ [.eof, .identifier, .number, .string]) : s.Lays [.piece (.mark k)] s.next :=
  hs.lays_one (fun h => hne (by simp [← hk, h])) (.piece (hs.spells_mark hk hne))

theorem Good.lays_token (hs : s.Good) (hk : s.kind = k) (hne : k ≠ .eof) :
    s.Lays [.piece (.token k s.current.value)] s.next :=
  hs.lays_one (hk ▸ hne) (.piece (.token hk rfl))

/-- A token whose span the tree keeps. -/
theorem Good.lays_word (hs : s.Good) (hk : s.kind = k) (hne : k ≠ .eof) :
    s.Lays [.word (.token k s.current.value) s.current.span] s.next :=
  hs.lays_one (hk ▸ hne) (.word (.token hk rfl))

theorem Lays.append (h : s.Lays ls t) (h' : t.Lays ms u) : s.Lays (ls ++ ms) u := by
  obtain ⟨-, ts, hts, hs, hprevious⟩ := h
  obtain ⟨hu, us, hus, ht, hprevious'⟩ := h'
  refine ⟨hu, ts ++ us, hts.append hus, by rw [hs, ht, List.append_assoc], ?_⟩
  rw [hprevious', hprevious, List.getLast?_append, Option.or_assoc]

theorem Lays.size_le (h : s.Lays ls t) : t.size ≤ s.size := by
  obtain ⟨-, ts, -, hs, -⟩ := h
  have hlength := congrArg List.length hs
  rw [List.length_append, length_remaining, length_remaining] at hlength
  omega

/-- From where the layouts begin to the end of the token passed last is a node around them. -/
theorem Lays.node (h : s.Lays ls t) (hls : ls.any Layout.isRequired)
    (hspan : span = t.spanFrom s.position) : s.Lays [.node span ls] t := by
  obtain ⟨ht, ts, hts, hs, hprevious⟩ := h
  -- a required layout takes a token, so the first token is the one at `s`
  obtain ⟨first, rest, rfl⟩ := List.exists_cons_of_ne_nil (hts.ne_nil hls)
  obtain ⟨rfl, -⟩ := List.cons.inj hs
  have hlast := List.getLast?_eq_some_getLast (List.cons_ne_nil s.current rest)
  rw [hlast, Option.some_or] at hprevious
  refine ⟨ht, s.current :: rest, .single ?_, hs, by rw [hlast, hprevious, Option.some_or]⟩
  rw [hspan, spanFrom, previousEnd, hprevious]
  exact .node hts rfl hlast

/-- A node reaches from where it begins to the end of the token passed last. -/
theorem Lays.span_eq (h : s.Lays [.node span ls] t) : span = t.spanFrom s.position := by
  obtain ⟨-, ts, hts, hs, hprevious⟩ := h
  cases hts with
  | cons hnode hnil =>
    cases hnil
    rw [List.append_nil] at hs hprevious
    cases hnode with
    | @node _ _ first last _ hfirst hlast =>
      obtain ⟨rest, rfl⟩ := List.head?_eq_some_iff.1 hfirst
      obtain ⟨rfl, -⟩ := List.cons.inj hs
      rw [hlast, Option.some_or] at hprevious
      rw [spanFrom, previousEnd, hprevious]
      rfl

/-- The same layouts may stand on tokens in another way. -/
theorem Lays.imp (h : s.Lays ls t) (hls : ∀ ts, Layout.AllOn ls ts → Layout.AllOn ms ts) :
    s.Lays ms t := by
  obtain ⟨ht, ts, hts, hs⟩ := h
  exact ⟨ht, ts, hls ts hts, hs⟩

theorem Lays.span_expr {e : Expr} (h : s.Lays [e.layout] t) : e.span = t.spanFrom s.position := by
  obtain ⟨form, span⟩ := e
  exact h.span_eq

/-- Behind a token that was passed is the end of that token. -/
theorem Good.previousEnd_next (hs : s.Good) (hk : s.kind ≠ .eof) :
    s.next.previousEnd = s.current.span.stop := by
  rw [previousEnd, previous?_next (hs.next hk).1 (by simp [remaining])]

end TokenStream

namespace Parse

variable {α : Type} {s : TokenStream} {item : Parse α} {layout : α → Layout}

/-- Wherever the reader starts, the layouts of what it gives stand on the tokens it passes. -/
def Places (p : Parse α) (layouts : α → List Layout) : Prop :=
  ∀ s : TokenStream, s.Good → p.Gives s fun a t => s.Lays (layouts a) t

theorem Places.repeatUntil (stop : Kind → Bool) (hitem : item.Places fun a => [layout a]) :
    (repeatUntil stop item).Places fun as => as.map layout := by
  intro s hs
  unfold Gives
  fun_induction Parse.repeatUntil stop item s with
  | case1 s => exact hs.lays_nil
  | case2 => trivial
  | case3 => trivial
  | case4 s _ a t ha _ as u has ih =>
    have hfirst := (hitem s hs).of_ok ha
    rw [has] at ih
    exact hfirst.append (ih hfirst.good)
  | case5 s _ a t ha => exact (hitem s hs).of_ok ha

theorem Places.commaSeparated (hitem : item.Places fun a => [layout a]) :
    ∀ s : TokenStream, s.Good → (commaSeparated item).Gives s fun as t => as ≠ [] ∧
      s.Lays ((as.map layout).intersperse (.piece (.mark .comma))) t := by
  intro s hs
  unfold Gives
  fun_induction Parse.commaSeparated item s with
  | case1 => trivial
  | case2 => trivial
  | case3 s a t ha hcomma _ as u has ih =>
    have hfirst := (hitem s hs).of_ok ha
    have hmark := hfirst.good.lays_mark hcomma (by decide)
    rw [has] at ih
    obtain ⟨hne, hrest⟩ := ih hmark.good
    obtain ⟨b, bs, rfl⟩ := List.exists_cons_of_ne_nil hne
    exact ⟨by simp, (hfirst.append hmark).append hrest⟩
  | case4 s a t ha hcomma hsize =>
    have hfirst := (hitem s hs).of_ok ha
    have hle := hfirst.size_le
    have hlt := (hfirst.good.writes_mark hcomma (by decide)).size_lt rfl
    omega
  | case5 s a t ha => exact ⟨by simp, (hitem s hs).of_ok ha⟩

theorem Places.parenthesised (hitem : item.Places fun a => [layout a]) :
    (Parse.parenthesised item).Places fun as => Layout.parenthesised (as.map layout) := by
  intro s hs
  simp only [Parse.parenthesised, gives_bind, gives_expect, gives_kind]
  intro hopen
  have hstart := hs.lays_mark hopen (by decide)
  split
  · simp only [gives_bind, gives_pure, gives_expect]
    exact fun hclose => hstart.append (hstart.good.lays_mark hclose (by decide))
  · simp only [gives_bind, gives_expect]
    refine (hitem.commaSeparated _ hstart.good).mono ?_
    rintro items t ⟨-, hitems⟩ hclose
    exact (hstart.append hitems).append (hitems.good.lays_mark hclose (by decide))

end Parse

namespace Inner

/-- The layouts of what the readers of nested parts give stand on what they pass. -/
structure Places (inner : Inner) : Prop where
  stmt : inner.stmt.Places fun s => [s.layout]
  expr : ∀ power, (inner.expr power).Places fun e => [e.layout]
  type : inner.type.Places fun a => [a.layout]

variable {inner : Inner} {s : TokenStream}

/-! ## Types -/

theorem functionType_places (hi : inner.Places) (hs : s.Good) (hk : s.kind = .identifier)
    (hvalue : s.current.value = functionTypeName) :
    inner.functionType.Gives s fun a t => s.Lays [a.layout] t := by
  simp only [functionType, gives_bind, gives_advance, gives_expectDetailed, gives_spanFrom,
    gives_pure]
  have hword := hs.lays_token hk (by decide)
  rw [hvalue] at hword
  refine (hi.type.parenthesised _ hword.good).mono fun parameters t hparameters harrow => ?_
  have hmark := hparameters.good.lays_mark harrow (by decide)
  refine (hi.type _ hmark.good).mono fun result u hresult => ?_
  rw [TypeExpr.layout]
  refine TokenStream.Lays.node ?_ rfl rfl
  simpa [functionTypeName] using ((hword.append hparameters).append hmark).append hresult

theorem typeAt_places (hi : inner.Places) :
    (inner.typeAt .standard).Places fun a => [a.layout] := by
  intro s hs
  simp only [typeAt, gives_bind, gives_kind]
  split
  · next rule hrule =>
    obtain ⟨hk, rfl⟩ := Grammar.standard_type hrule
    simp only [typeBy, namedType, gives_bind, gives_get]
    split
    · next h => exact functionType_places hi hs hk h.1
    · simp only [gives_bind, gives_expect, gives_pure]
      refine fun _ => hs.lays_one (by simp [hk]) ?_
      exact .node (.single (.piece (.token hk rfl))) rfl rfl
  · simp

/-! ## Functions and blocks -/

theorem block_places (hi : inner.Places) :
    inner.block.Places fun b => [.node b.span (Layout.braced (b.body.map Stmt.layout))] := by
  intro s hs
  simp only [block, gives_bind, gives_expect, gives_spanFrom, gives_pure]
  intro hopen
  have hstart := hs.lays_mark hopen (by decide)
  have hitem : (kind >>= fun k => if k = .eof
      then unexpectedDetailed "expected `\x7d` to close the block" else inner.stmt).Places
      fun s => [s.layout] := by
    intro u hu
    simp only [gives_bind, gives_kind]
    split
    · exact gives_unexpectedDetailed _
    · exact hi.stmt u hu
  refine (hitem.repeatUntil _ _ hstart.good).mono fun body t hbody hclose => ?_
  exact ((hstart.append hbody).append (hbody.good.lays_mark hclose (by decide))).node rfl rfl

theorem parameterMode_places : parameterMode.Places fun mode =>
    [.piece (if mode = .var then .mark .kwVar else .optionalVal)] := by
  intro s hs
  simp only [parameterMode, gives_bind, gives_kind]
  split
  · next hk => exact hs.lays_mark hk (by decide)
  · next hk => exact hs.lays_one (by simp [hk]) (.piece (.val (hs.spells_mark hk (by decide))))
  · exact hs.lays_nothing (.piece .noVal)

theorem parameter_places (hi : inner.Places) : inner.parameter.Places fun p => [p.layout] := by
  intro s hs
  simp only [parameter, gives_bind, gives_position, gives_expectDetailed, gives_spanFrom,
    gives_pure]
  refine (parameterMode_places s hs).mono fun mode t hmode hname hcolon => ?_
  have hword := hmode.good.lays_token hname (by decide)
  have hmark := hword.good.lays_mark hcolon (by decide)
  refine (hi.type _ hmark.good).mono fun type u htype => ?_
  refine (((hmode.append hword).append hmark).append htype).node ?_ rfl
  simp [Layout.isRequired, Piece.isRequired]

theorem resultType?_places (hi : inner.Places) : inner.resultType?.Places fun result? =>
    result?.elim [] fun result => [.piece .resultMark, result.layout] := by
  intro s hs
  simp only [resultType?, gives_bind, gives_kind]
  split
  · next hk =>
    simp only [gives_bind, gives_advance, gives_pure]
    have hmark : s.Lays [.piece .resultMark] s.next := by
      obtain hk | hk := hk
      · exact hs.lays_one (by simp [hk]) (.piece (.colon (hs.spells_mark hk (by decide))))
      · exact hs.lays_one (by simp [hk]) (.piece (.arrow (hs.spells_mark hk (by decide))))
    exact (hi.type _ hmark.good).mono fun result t hresult => hmark.append hresult
  · exact hs.lays_nil

theorem signature_places (hi : inner.Places) : inner.signature.Places fun sig =>
    Signature.layoutsWith sig.parameters sig.result?
      (.node sig.body.span (Layout.braced (sig.body.body.map Stmt.layout))) := by
  intro s hs
  simp only [signature, parameters, gives_bind, gives_pure]
  refine ((parameter_places hi).parenthesised s hs).mono fun parameters t hparameters => ?_
  refine (resultType?_places hi t hparameters.good).mono fun result? u hresult => ?_
  exact (block_places hi u hresult.good).mono fun body v hbody =>
    (hparameters.append hresult).append hbody

/-! ## Expressions -/

/-- A form that is a single token has no parts with spans. -/
theorem layouts_primaryForm {token : Token} {form : ExprForm}
    (hform : primaryForm token = .ok form) : form.layouts = form.pieces.map .piece := by
  unfold primaryForm at hform
  split at hform
  · split at hform
    · obtain rfl := Except.ok.inj hform
      rfl
    · cases hform
  all_goals cases hform
  all_goals rfl

theorem primary_places (hs : s.Good) (hk : s.kind ≠ .eof) :
    primary.Gives s fun e t => s.Lays [e.layout] t := by
  simp only [primary, gives_bind, gives_current]
  split
  · next form hform =>
    simp only [gives_bind, gives_advance, gives_pure]
    obtain ⟨p, hpieces, hspells⟩ := spells_primaryForm (hs.lexed hk) hform
    refine hs.lays_one hk ?_
    rw [Expr.layout, layouts_primaryForm hform, hpieces]
    exact .node (.single (.piece hspells)) rfl rfl
  · exact gives_failWith _

theorem unary_places (hi : inner.Places) (hs : s.Good) (hk : s.kind ≠ .eof) :
    inner.unary.Gives s fun e t => s.Lays [e.layout] t := by
  simp only [unary, gives_bind, gives_advance, gives_pure]
  have hoperator := hs.lays_one hk (.word (.token rfl rfl))
  refine (hi.expr .unary _ hoperator.good).mono fun operand t hoperand => ?_
  refine (hoperator.append hoperand).node rfl ?_
  rw [hoperand.span_expr]
  rfl

theorem arguments_places (hi : inner.Places) :
    inner.arguments.Places fun es => Layout.parenthesised (es.map Expr.layout) :=
  (hi.expr .default).parenthesised

theorem group_places (hi : inner.Places) (hs : s.Good) (hk : s.kind = .openParen) :
    inner.group.Gives s fun e t => s.Lays [e.layout] t := by
  simp only [group, gives_bind, gives_advance, gives_expect, gives_spanFrom, gives_pure]
  have hopen := hs.lays_mark hk (by decide)
  refine (hi.expr .default _ hopen.good).mono fun e t he hclose => ?_
  exact ((hopen.append he).append (he.good.lays_mark hclose (by decide))).node rfl rfl

theorem new_places (hi : inner.Places) (hs : s.Good) (hk : s.kind = .kwNew) :
    inner.new.Gives s fun e t => s.Lays [e.layout] t := by
  simp only [new, gives_bind, gives_advance, gives_expectDetailed, gives_spanFrom, gives_pure]
  intro hname
  have hnew := hs.lays_mark hk (by decide)
  have hclass := hnew.good.lays_token hname (by decide)
  refine (arguments_places hi _ hclass.good).mono fun es t hes => ?_
  rw [Expr.layout, ExprForm.layouts, Expr.eachLayout_eq]
  exact ((hnew.append hclass).append hes).node rfl rfl

theorem lambda_places (hi : inner.Places) (hs : s.Good) (hk : s.kind = .kwFun) :
    inner.lambda.Gives s fun e t => s.Lays [e.layout] t := by
  simp only [lambda, gives_bind, gives_advance, gives_spanFrom, gives_pure]
  have hfun := hs.lays_mark hk (by decide)
  refine (signature_places hi _ hfun.good).mono ?_
  rintro ⟨parameters, result?, ⟨body, bodySpan⟩⟩ t hsignature
  rw [Expr.layout, ExprForm.layouts, Stmt.eachLayout_eq]
  exact (hfun.append hsignature).node rfl rfl

theorem nudBy_places (hi : inner.Places) (hs : s.Good) {rule : NudRule}
    (hrule : Grammar.standard.nud s.kind = some rule) :
    (inner.nudBy rule).Gives s fun e t => s.Lays [e.layout] t := by
  have hk := Grammar.standard_nud hrule
  cases rule with
  | primary => exact primary_places hs hk
  | unary => exact unary_places hi hs (by obtain h | h := hk <;> simp [h])
  | group => exact group_places hi hs hk
  | new => exact new_places hi hs hk
  | lambda => exact lambda_places hi hs hk

/-! ## Continuing an expression

What continues `left` starts where `left` does, so these rules are about the stream `s₀` that `left`
was read from as well as about the one behind it. -/

section

variable {s₀ : TokenStream} {left : Expr}

theorem assignment_places (hi : inner.Places) (hleft : s₀.Lays [left.layout] s)
    (hk : s.kind = .assignment) :
    (inner.assignment left).Gives s fun e t => s₀.Lays [e.layout] t := by
  simp only [assignment]
  split
  · simp only [gives_bind, gives_advance, gives_pure]
    have hmark := hleft.good.lays_mark hk (by decide)
    refine (hi.expr .comma _ hmark.good).mono fun value t hvalue => ?_
    refine ((hleft.append hmark).append hvalue).node (by simp) ?_
    rw [hleft.span_expr, hvalue.span_expr]
    rfl
  · exact gives_unexpectedDetailed _

theorem binary_places (hi : inner.Places) (hleft : s₀.Lays [left.layout] s) (hk : s.kind ≠ .eof)
    (power : BindingPower) :
    (inner.binary left power).Gives s fun e t => s₀.Lays [e.layout] t := by
  simp only [binary, gives_bind, gives_advance, gives_pure]
  have hoperator := hleft.good.lays_one hk (.word (.token rfl rfl))
  refine (hi.expr power _ hoperator.good).mono fun right t hright => ?_
  refine ((hleft.append hoperator).append hright).node (by simp) ?_
  rw [hleft.span_expr, hright.span_expr]
  rfl

theorem call_places (hi : inner.Places) (hleft : s₀.Lays [left.layout] s) :
    (inner.call left).Gives s fun e t => s₀.Lays [e.layout] t := by
  simp only [call, gives_bind, gives_spanFrom, gives_pure]
  refine (arguments_places hi s hleft.good).mono fun es t hes => ?_
  rw [Expr.layout, ExprForm.layouts, Expr.eachLayout_eq]
  refine (hleft.append hes).node (by simp) ?_
  -- the rule takes the start from the span of `left`, which is where `left` was read
  rw [hleft.span_expr]
  rfl

theorem member_places (hleft : s₀.Lays [left.layout] s) (hk : s.kind = .dot) :
    (member left).Gives s fun e t => s₀.Lays [e.layout] t := by
  simp only [member, gives_bind, gives_advance, gives_expectDetailed, gives_pure]
  intro hname
  have hdot := hleft.good.lays_mark hk (by decide)
  have hword := hdot.good.lays_word hname (by decide)
  refine ((hleft.append hdot).append hword).node (by simp) ?_
  -- the rule takes the end from the token of the name, which is the one passed last
  simp only [hleft.span_expr, TokenStream.spanFrom, Span.to,
    hdot.good.previousEnd_next (show s.next.kind ≠ .eof by simp [hname])]

theorem ledBy_places (hi : inner.Places) (hleft : s₀.Lays [left.layout] s) {rule : LedRule}
    {next : BindingPower} (hled : Grammar.standard.led s.kind = some (next, rule)) :
    (inner.ledBy left next rule).Gives s fun e t => s₀.Lays [e.layout] t := by
  have hk := Grammar.standard_led hled
  cases rule with
  | assignment => exact assignment_places hi hleft hk.1
  | binary => exact binary_places hi hleft hk next
  | call => exact call_places hi hleft
  | member => exact member_places hleft hk.1

/-- The loop that continues an expression. Its invariant is that the expression read so far stands
on the tokens passed so far. -/
theorem continueExpr_places (hi : inner.Places) (power : BindingPower)
    (hleft : s₀.Lays [left.layout] s) :
    (inner.continueExpr .standard power left).Gives s fun e t => s₀.Lays [e.layout] t := by
  unfold Gives
  fun_induction continueExpr inner .standard power left s with
  | case1 => exact hleft
  | case2 => trivial
  | case3 left s next rule hled _ longer t hlonger _ ih =>
    exact ih ((ledBy_places hi hleft hled).of_ok hlonger)
  | case4 left s next rule hled _ longer t hlonger =>
    exact (ledBy_places hi hleft hled).of_ok hlonger
  | case5 => exact hleft

end

theorem exprAt_places (hi : inner.Places) (power : BindingPower) :
    (inner.exprAt .standard power).Places fun e => [e.layout] := by
  intro s hs
  simp only [exprAt, gives_bind, gives_kind]
  split
  · next rule hrule =>
    simp only [gives_bind]
    exact (nudBy_places hi hs hrule).mono fun left t hleft => continueExpr_places hi power hleft
  · exact gives_unexpected

/-! ## Statements -/

/-- What is read after a mark, if the mark is there. -/
theorem after?_places {α : Type} {mark : Kind} {read : Parse α} {layout : α → Layout}
    (hread : read.Places fun a => [layout a])
    (hmark : mark ∉ [.eof, .identifier, .number, .string]) :
    (Inner.after? mark read).Places fun a? => Layout.after mark (a?.map layout) := by
  intro s hs
  simp only [Inner.after?, gives_bind, gives_kind]
  split
  · next hk =>
    simp only [gives_bind, gives_advance, gives_pure]
    have hstart := hs.lays_mark hk hmark
    exact (hread _ hstart.good).mono fun a t ha => hstart.append ha
  · exact hs.lays_nil

/-- The span of an expression statement starts where the span of its expression does. -/
theorem expressionStmt_places (hi : inner.Places) :
    inner.expressionStmt.Places fun stmt => [stmt.layout] := by
  intro s hs
  simp only [expressionStmt, gives_bind, gives_expect, gives_spanFrom, gives_pure]
  refine (hi.expr .default s hs).mono fun e t he hend => ?_
  refine (he.append (he.good.lays_mark hend (by decide))).node (by simp) ?_
  rw [he.span_expr]
  rfl

theorem varDecl_places (hi : inner.Places) (hs : s.Good) (hk : s.kind = .kwVal ∨ s.kind = .kwVar) :
    inner.varDecl.Gives s fun stmt t => s.Lays [stmt.layout] t := by
  simp only [varDecl, gives_bind, gives_advance, gives_expectDetailed, gives_expect,
    gives_spanFrom, gives_pure]
  intro hname
  have hword : s.Lays
      [.piece (.mark (if s.current.kind = .kwVar then Mode.var else Mode.val).keyword)] s.next := by
    obtain hk | hk := hk
    · have hmode : s.current.kind ≠ .kwVar := by simp [show s.current.kind = .kwVal from hk]
      rw [if_neg hmode]
      exact hs.lays_mark hk (by decide)
    · rw [if_pos (show s.current.kind = .kwVar from hk)]
      exact hs.lays_mark hk (by decide)
  have hid := hword.good.lays_word hname (by decide)
  refine (after?_places hi.type (by decide) _ hid.good).mono fun type? t htype => ?_
  refine (after?_places (hi.expr .default) (by decide) _ htype.good).mono fun value? u hvalue => ?_
  intro hend
  have hsemicolon := hvalue.good.lays_mark hend (by decide)
  rw [Stmt.layout, StmtForm.layouts_varDecl]
  exact ((((hword.append hid).append htype).append hvalue).append hsemicolon).node rfl rfl

theorem fnDecl_places (hi : inner.Places) (hs : s.Good) (hk : s.kind = .kwFun) :
    inner.fnDecl.Gives s fun stmt t => s.Lays [stmt.layout] t := by
  simp only [fnDecl, gives_bind, gives_get]
  split
  · next hpeek =>
    simp only [gives_bind, gives_advance, gives_spanFrom, gives_pure]
    have hfun := hs.lays_mark hk (by decide)
    have hname : s.next.kind = .identifier := hs.kind_next (by simp [hk]) ▸ hpeek
    have hid := hfun.good.lays_word hname (by decide)
    refine (signature_places hi _ hid.good).mono ?_
    rintro ⟨parameters, result?, ⟨body, bodySpan⟩⟩ t hsignature
    rw [Stmt.layout, StmtForm.layouts, Stmt.eachLayout_eq]
    exact ((hfun.append hid).append hsignature).node rfl rfl
  · exact expressionStmt_places hi s hs

theorem classMember_places (hi : inner.Places) :
    inner.classMember.Places fun stmt => [stmt.layout] := by
  intro s hs
  simp only [classMember, gives_bind, gives_get]
  split
  · next hk => exact varDecl_places hi hs (.inl hk)
  · next hk => exact varDecl_places hi hs (.inr hk)
  · next hk =>
    split
    · exact fnDecl_places hi hs hk
    · exact gives_unexpectedDetailed _
  · exact gives_unexpectedDetailed _

theorem classDecl_places (hi : inner.Places) (hs : s.Good) (hk : s.kind = .kwClass) :
    inner.classDecl.Gives s fun stmt t => s.Lays [stmt.layout] t := by
  simp only [classDecl, gives_bind, gives_advance, gives_expectDetailed, gives_kind]
  intro hname
  have hclass := hs.lays_mark hk (by decide)
  have hid := hclass.good.lays_word hname (by decide)
  have hmembers : ∀ (parameters : List Parameter) (t : TokenStream),
      s.next.next.Lays (Parameter.classLayouts parameters) t → t.kind = .openCurly →
        (repeatUntil (· == .closeCurly) inner.classMember).Gives t.next fun members u =>
          u.kind = .closeCurly →
            let stmt : Stmt :=
              ⟨.classDecl s.next.current.value s.next.current.span parameters members,
                u.next.spanFrom s.position⟩
            s.Lays [stmt.layout] u.next := by
    intro parameters t hparameters hopen
    have hstart := hparameters.good.lays_mark hopen (by decide)
    refine ((classMember_places hi).repeatUntil _ _ hstart.good).mono ?_
    intro members u hbody hclose
    have hbraced := (hstart.append hbody).append (hbody.good.lays_mark hclose (by decide))
    simp only [Stmt.layout, StmtForm.layouts, Stmt.eachLayout_eq]
    exact (((hclass.append hid).append hparameters).append hbraced).node rfl rfl
  split
  · simp only [gives_bind, gives_expect, gives_spanFrom, gives_pure]
    refine ((parameter_places hi).parenthesised _ hid.good).mono fun parameters t hparameters => ?_
    exact hmembers parameters t (hparameters.imp fun _ => Parameter.on_classLayouts)
  · simp only [gives_bind, gives_expect, gives_spanFrom, gives_pure]
    exact hmembers [] _ (hid.good.lays_nothing (.piece .noParens))

theorem ret_places (hi : inner.Places) (hs : s.Good) (hk : s.kind = .kwReturn) :
    inner.ret.Gives s fun stmt t => s.Lays [stmt.layout] t := by
  simp only [ret, gives_bind, gives_advance, gives_kind]
  have hret := hs.lays_mark hk (by decide)
  split
  · simp only [gives_bind, gives_pure, gives_expect, gives_spanFrom]
    exact fun hend => (hret.append (hret.good.lays_mark hend (by decide))).node rfl rfl
  · simp only [gives_bind, gives_map, gives_pure, gives_expect, gives_spanFrom]
    refine (hi.expr .default _ hret.good).mono fun e t he hend => ?_
    exact ((hret.append he).append (he.good.lays_mark hend (by decide))).node rfl rfl

theorem branch_places (hi : inner.Places) (hs : s.Good) (hk : s.kind = .kwIf) :
    inner.branch.Gives s fun stmt t => s.Lays [stmt.layout] t := by
  simp only [branch, gives_bind, gives_advance, gives_spanFrom, gives_pure]
  have hif := hs.lays_mark hk (by decide)
  refine (hi.expr .default _ hif.good).mono fun condition t hcondition => ?_
  refine (hi.stmt t hcondition.good).mono fun thenBody u hthen => ?_
  refine (after?_places hi.stmt (by decide) u hthen.good).mono fun elseBody? v helse => ?_
  rw [Stmt.layout, StmtForm.layouts_branch]
  exact (((hif.append hcondition).append hthen).append helse).node rfl rfl

theorem loop_places (hi : inner.Places) (hs : s.Good) (hk : s.kind = .kwWhile) :
    inner.loop.Gives s fun stmt t => s.Lays [stmt.layout] t := by
  simp only [loop, gives_bind, gives_advance, gives_spanFrom, gives_pure]
  have hwhile := hs.lays_mark hk (by decide)
  refine (hi.expr .default _ hwhile.good).mono fun condition t hcondition => ?_
  refine (hi.stmt t hcondition.good).mono fun body u hbody => ?_
  exact ((hwhile.append hcondition).append hbody).node rfl rfl

theorem print_places (hi : inner.Places) (hs : s.Good) (hk : s.kind = .kwPrint) :
    inner.print.Gives s fun stmt t => s.Lays [stmt.layout] t := by
  simp only [print, gives_bind, gives_advance, gives_expect, gives_spanFrom, gives_pure]
  have hprint := hs.lays_mark hk (by decide)
  refine (hi.expr .default _ hprint.good).mono fun e t he hend => ?_
  exact ((hprint.append he).append (he.good.lays_mark hend (by decide))).node rfl rfl

/-- A block that is a statement has the span of the statement. -/
theorem blockStmt_places (hi : inner.Places) :
    inner.blockStmt.Places fun stmt => [stmt.layout] := by
  intro s hs
  simp only [blockStmt, gives_bind, gives_pure]
  refine (block_places hi s hs).mono ?_
  rintro ⟨body, span⟩ t hbody
  rw [Stmt.layout, StmtForm.layouts, Stmt.eachLayout_eq]
  exact hbody.node rfl hbody.span_eq

theorem stmtAt_places (hi : inner.Places) :
    (inner.stmtAt .standard).Places fun stmt => [stmt.layout] := by
  intro s hs
  simp only [stmtAt, gives_bind, gives_kind]
  split
  · next rule hrule =>
    have hk := Grammar.standard_stmt hrule
    cases rule with
    | varDecl => exact varDecl_places hi hs hk
    | classDecl => exact classDecl_places hi hs hk
    | fnDecl => exact fnDecl_places hi hs hk
    | ret => exact ret_places hi hs hk
    | branch => exact branch_places hi hs hk
    | loop => exact loop_places hi hs hk
    | print => exact print_places hi hs hk
    | block => exact blockStmt_places hi s hs
  · exact expressionStmt_places hi s hs

end Inner

/-! ## Programs -/

namespace Grammar

/-- With any number of levels left the readers keep their promise. -/
theorem inner_places (limit room : Nat) : (standard.inner limit room).Places := by
  induction room with
  | zero => exact ⟨fun _ _ => trivial, fun _ _ _ => trivial, fun _ _ => trivial⟩
  | succ room ih =>
    exact ⟨Inner.stmtAt_places ih, Inner.exprAt_places ih, Inner.typeAt_places ih⟩

theorem program_places (limit : Nat) {s : TokenStream} (hs : s.Good) :
    (standard.program limit).Gives s fun program t =>
      s.Lays (program.body.map Stmt.layout) t ∧ program.span = ⟨s.position, t.position⟩ := by
  simp only [program, gives_bind, gives_position, gives_pure, and_true]
  exact (inner_places limit limit).stmt.repeatUntil _ s hs

end Grammar

/-- The tokens of a source come one after the other. -/
theorem tokenize_inOrder {source file : String} {tokens : List Token}
    (hsize : source.utf8ByteSize < UInt32.size) (h : tokenize source file = .ok tokens) :
    InOrder tokens := by
  obtain ⟨hforward, hordered⟩ := (tokenize_tiles hsize h).ordered
  exact ⟨fun t ht => (hforward t ht).2, hordered⟩

/-- A program that was parsed from the tokens of a source stands on these tokens with every node of
it, and with every name and operator of which it keeps the span. So the spans of the parts of a node
are inside its own span and one after the other. As numbers they are if the source takes less than
4 GiB, since the offsets of a longer one are no words of 32 bits. -/
theorem parse_spans {source file parsedFile : String} {limit : Nat} {tokens : List Token}
    {program : Block} (htokens : tokenize source file = .ok tokens)
    (hparse : parse tokens parsedFile limit = .ok program) :
    (∃ body last, tokens = body ++ [last] ∧ last.kind = .eof ∧ program.StandsOn body last) ∧
      (source.utf8ByteSize < UInt32.size → program.layout.Nests) := by
  have hended := tokenize_ended htokens
  have hremaining := TokenStream.remaining_ofTokens hended parsedFile
  have hgood := TokenStream.good_ofTokens hended parsedFile
  obtain ⟨t, hrun⟩ := exists_run_of_parse hparse
  obtain ⟨⟨ht, body, hparts, hsplit, -⟩, hspan⟩ := (Grammar.program_places limit hgood).of_ok hrun
  obtain ⟨-, -, hend⟩ := (Grammar.program_sound limit hgood).of_ok hrun
  rw [ht.remaining_of_eof hend] at hsplit
  have hfirst : (TokenStream.ofTokens parsedFile tokens).current = body.headD t.current := by
    cases body <;> exact (List.cons.inj hsplit).1
  rw [hremaining] at hsplit
  have hstands : program.StandsOn body t.current := by
    refine ⟨hparts, ?_, ?_⟩
    · rw [hspan, ← hfirst]
      rfl
    · rw [hspan]
      rfl
  refine ⟨⟨body, t.current, hsplit, hend, hstands⟩, fun hsize => ?_⟩
  exact hstands.nests (hsplit ▸ tokenize_inOrder hsize htokens)

/-- A class with a member and a function type, a branch, a loop and a lambda, over three lines. -/
def spannedSource : String :=
  "class A(val x: Int) \x7b fun f(g: Function(Int) -> Int) \x7b return -g(x + 1); \x7d \x7d\n" ++
  "if a.b < 2 \x7b val c: A = new A(3); \x7d else\n" ++
  "while (true) d = c.f(fun (var y: Int) -> Int \x7b \x7d);"

theorem parse_spans_spannedSource :
    ∃ tokens program, tokenize spannedSource interactiveFile = .ok tokens ∧
      parse tokens interactiveFile defaultNestingLimit = .ok program ∧
      (∃ body last, tokens = body ++ [last] ∧ last.kind = .eof ∧ program.StandsOn body last) ∧
      program.layout.Nests := by
  have hsize : spannedSource.utf8ByteSize < UInt32.size := by decide +kernel
  obtain ⟨tokens, program, htokens, hparse, -⟩ :=
    exists_program spannedSource defaultNestingLimit (P := fun _ => True) (by decide +kernel)
  obtain ⟨hstands, hnests⟩ := parse_spans htokens hparse
  exact ⟨tokens, program, htokens, hparse, hstands, hnests hsize⟩

end Nominal
