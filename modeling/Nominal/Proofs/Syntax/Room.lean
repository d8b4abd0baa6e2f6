import Nominal.Proofs.Syntax.Nesting
import Nominal.Proofs.Syntax.Sound

/-!
# Reading with more levels left

The nesting limit has no say in what is read, except that reading stops where no levels are left.
`Parse.Widens` compares two readers of the same thing, the second with more levels than the first:
the second does at every stream what the first does there, unless the first stops for want of
levels. No rule looks at a diagnostic of its parts, so a rule is widened when its readers of nested
parts are, and with the rules the readers with some room are widened by those with more
(`Grammar.inner_widens`). The main result is `parse_eq_of_le`.
-/

namespace Nominal

open Parse Token

namespace Parse

variable {α β : Type} {p p' : Parse α} {f f' : α → Parse β}

/-- At the stream `s`, `p'` does what `p` does, unless `p` stops because no levels are left. -/
def WidensAt (p p' : Parse α) (s : TokenStream) : Prop :=
  (∃ d t, p s = .error d t ∧ d.IsNesting) ∨ p' s = p s

/-- `p'` does everywhere what `p` does, unless `p` stops because no levels are left. -/
def Widens (p p' : Parse α) : Prop :=
  ∀ s, p.WidensAt p' s

/-! ## Putting readers together -/

theorem WidensAt.refl (p : Parse α) (s : TokenStream) : p.WidensAt p s :=
  .inr rfl

theorem Widens.refl (p : Parse α) : p.Widens p :=
  fun s => .refl p s

/-- A reader without any levels left is widened by every other one. -/
theorem failWith_widens (limit : Nat) (p : Parse α) :
    (failWith fun _ => .nestingTooDeep limit).Widens p :=
  fun _ => .inl ⟨_, _, rfl, limit, rfl⟩

theorem Widens.bindAt {s : TokenStream} (h : p.Widens p')
    (hf : ∀ a t, (f a).WidensAt (f' a) t) : (p >>= f).WidensAt (p' >>= f') s := by
  show (∃ d t, EStateM.bind p f s = .error d t ∧ d.IsNesting) ∨
    EStateM.bind p' f' s = EStateM.bind p f s
  unfold EStateM.bind
  obtain ⟨d, t, hp, hd⟩ | hp := h s
  · exact .inl ⟨d, t, by rw [hp], hd⟩
  rw [hp]
  cases p s with
  | ok a t => exact hf a t
  | error d t => exact .inr rfl

theorem Widens.bind (h : p.Widens p') (hf : ∀ a, (f a).Widens (f' a)) :
    (p >>= f).Widens (p' >>= f') :=
  fun _ => h.bindAt hf

/-- After a part without nested parts, what matters is how the reading goes on. -/
theorem Widens.after (p : Parse α) (hf : ∀ a, (f a).Widens (f' a)) :
    (p >>= f).Widens (p >>= f') :=
  (Widens.refl p).bind hf

theorem WidensAt.map {s : TokenStream} (h : p.WidensAt p' s) (g : α → β) :
    (g <$> p).WidensAt (g <$> p') s := by
  show (∃ d t, EStateM.map g p s = .error d t ∧ d.IsNesting) ∨
    EStateM.map g p' s = EStateM.map g p s
  unfold EStateM.map
  obtain ⟨d, t, hp, hd⟩ | hp := h
  · exact .inl ⟨d, t, by rw [hp], hd⟩
  · exact .inr (by rw [hp])

theorem Widens.map (h : p.Widens p') (g : α → β) : (g <$> p).Widens (g <$> p') :=
  fun s => (h s).map g

theorem Widens.ite {c : Prop} [Decidable c] {q q' : Parse α} (h : p.Widens p')
    (hq : q.Widens q') : (if c then p else q).Widens (if c then p' else q') := by
  split
  · exact h
  · exact hq

/-- A repetition is widened item by item. -/
theorem Widens.repeatUntil (stop : Kind → Bool) (h : p.Widens p') :
    (repeatUntil stop p).Widens (repeatUntil stop p') := by
  intro s
  induction hn : s.size using Nat.strongRecOn generalizing s with
  | _ n ih =>
  unfold WidensAt
  by_cases hstop : stop s.kind
  · rw [Parse.repeatUntil, Parse.repeatUntil, if_pos hstop, if_pos hstop]
    exact .inr rfl
  rw [Bool.not_eq_true] at hstop
  rw [repeatUntil_step hstop, repeatUntil_step hstop]
  refine h.bindAt fun a t => ?_
  unfold WidensAt
  by_cases hsize : t.size < s.size
  · simp only [hsize, if_true]
    exact (ih t.size (hn ▸ hsize) t rfl).map _
  · simp only [hsize, if_false]
    exact .inr trivial

theorem Widens.commaSeparated (h : p.Widens p') :
    (commaSeparated p).Widens (commaSeparated p') := by
  intro s
  induction hn : s.size using Nat.strongRecOn generalizing s with
  | _ n ih =>
  unfold WidensAt
  rw [commaSeparated_step, commaSeparated_step]
  refine h.bindAt fun a t => ?_
  unfold WidensAt
  by_cases hcomma : t.kind = .comma
  · by_cases hsize : t.next.size < s.size
    · simp only [hcomma, hsize, if_true]
      exact (ih t.next.size (hn ▸ hsize) t.next rfl).map _
    · simp only [hcomma, hsize, if_true, if_false]
      exact .inr trivial
  · simp only [hcomma, if_false]
    exact .inr trivial

theorem Widens.parenthesised (h : p.Widens p') :
    (parenthesised p).Widens (parenthesised p') :=
  .after _ fun _ => .after _ fun _ => .ite (.refl _) (h.commaSeparated.bind fun _ => .refl _)

end Parse

namespace Inner

/-- The readers of nested parts in `inner'` have more levels left than those in `inner`. -/
structure Widens (inner inner' : Inner) : Prop where
  stmt : inner.stmt.Widens inner'.stmt
  expr : ∀ power, (inner.expr power).Widens (inner'.expr power)
  type : inner.type.Widens inner'.type

variable {inner inner' : Inner} {g : Grammar}

/-! ## Types -/

theorem functionType_widens (h : inner.Widens inner') :
    inner.functionType.Widens inner'.functionType := by
  refine .after _ fun word => h.type.parenthesised.bind fun parameters => ?_
  exact .after _ fun arrow => h.type.bind fun result => .refl _

theorem namedType_widens (h : inner.Widens inner') : inner.namedType.Widens inner'.namedType :=
  .after _ fun _ => .ite (functionType_widens h) (.refl _)

theorem typeBy_widens (h : inner.Widens inner') (rule : TypeRule) :
    (inner.typeBy rule).Widens (inner'.typeBy rule) := by
  cases rule with
  | named => exact namedType_widens h
  | function => exact functionType_widens h

theorem typeAt_widens (h : inner.Widens inner') : (inner.typeAt g).Widens (inner'.typeAt g) := by
  refine .after _ fun k => ?_
  cases g.type k with
  | none => exact .refl _
  | some rule => exact typeBy_widens h rule

/-! ## Functions and blocks -/

theorem block_widens (h : inner.Widens inner') : inner.block.Widens inner'.block := by
  have hitem : (kind >>= fun k =>
      if k = .eof then unexpectedDetailed "expected `\x7d` to close the block"
      else inner.stmt).Widens _ := .after _ fun _ => .ite (.refl _) h.stmt
  exact .after _ fun _ => (hitem.repeatUntil _).bind fun _ => .refl _

theorem parameter_widens (h : inner.Widens inner') : inner.parameter.Widens inner'.parameter := by
  refine .after _ fun start => .after _ fun mode => .after _ fun name => .after _ fun colon => ?_
  exact h.type.bind fun type => .refl _

theorem parameters_widens (h : inner.Widens inner') : inner.parameters.Widens inner'.parameters :=
  (parameter_widens h).parenthesised

theorem resultType?_widens (h : inner.Widens inner') :
    inner.resultType?.Widens inner'.resultType? := by
  refine .after _ fun k => .ite ?_ (.refl _)
  exact .after _ fun mark => h.type.bind fun type => .refl _

theorem signature_widens (h : inner.Widens inner') : inner.signature.Widens inner'.signature := by
  refine (parameters_widens h).bind fun parameters => ?_
  refine (resultType?_widens h).bind fun result? => ?_
  exact (block_widens h).bind fun body => .refl _

/-! ## Expressions -/

theorem arguments_widens (h : inner.Widens inner') : inner.arguments.Widens inner'.arguments :=
  (h.expr _).parenthesised

theorem nudBy_widens (h : inner.Widens inner') (rule : NudRule) :
    (inner.nudBy rule).Widens (inner'.nudBy rule) := by
  cases rule with
  | primary => exact .refl _
  | unary => exact .after _ fun operator => (h.expr _).bind fun operand => .refl _
  | group => exact .after _ fun openParen => (h.expr _).bind fun e => .refl _
  | new =>
    refine .after _ fun word => .after _ fun name => ?_
    exact (arguments_widens h).bind fun es => .refl _
  | lambda => exact .after _ fun word => (signature_widens h).bind fun signature => .refl _

theorem ledBy_widens (h : inner.Widens inner') (left : Expr) (power : BindingPower)
    (rule : LedRule) : (inner.ledBy left power rule).Widens (inner'.ledBy left power rule) := by
  cases rule with
  | assignment =>
    refine .ite ?_ (.refl _)
    exact .after _ fun mark => (h.expr _).bind fun value => .refl _
  | binary => exact .after _ fun operator => (h.expr _).bind fun right => .refl _
  | call => exact (arguments_widens h).bind fun es => .refl _
  | member => exact .refl _

/-- How far an expression goes on does not depend on the levels that are left. -/
theorem continueExpr_widens (h : inner.Widens inner') (power : BindingPower) (left : Expr) :
    (inner.continueExpr g power left).Widens (inner'.continueExpr g power left) := by
  intro s
  induction hn : s.size using Nat.strongRecOn generalizing s left with
  | _ n ih =>
  unfold WidensAt
  cases hled : g.led s.kind with
  | none =>
    rw [continueExpr, continueExpr, hled]
    exact .inr rfl
  | some led =>
    obtain ⟨next, rule⟩ := led
    by_cases hpower : power < next
    · rw [continueExpr_eq_bind hled hpower, continueExpr_eq_bind hled hpower]
      refine (ledBy_widens h left next rule).bindAt fun longer t => ?_
      unfold WidensAt
      by_cases hsize : t.size < s.size
      · simp only [hsize, if_true]
        exact ih t.size (hn ▸ hsize) longer t rfl
      · simp only [hsize, if_false]
        exact .inr trivial
    · rw [continueExpr, continueExpr]
      simp only [hled, hpower, if_false]
      exact .inr trivial

theorem exprAt_widens (h : inner.Widens inner') (power : BindingPower) :
    (inner.exprAt g power).Widens (inner'.exprAt g power) := by
  refine .after _ fun k => ?_
  cases g.nud k with
  | none => exact .refl _
  | some rule => exact (nudBy_widens h rule).bind fun left => continueExpr_widens h power left

/-! ## Statements -/

theorem expressionStmt_widens (h : inner.Widens inner') :
    inner.expressionStmt.Widens inner'.expressionStmt :=
  (h.expr _).bind fun _ => .refl _

theorem after?_widens {α : Type} {p p' : Parse α} (mark : Kind) (h : p.Widens p') :
    (after? mark p).Widens (after? mark p') := by
  refine .after _ fun k => .ite ?_ (.refl _)
  exact .after _ fun mark => h.bind fun a => .refl _

theorem varDecl_widens (h : inner.Widens inner') : inner.varDecl.Widens inner'.varDecl := by
  refine .after _ fun word => .after _ fun name => ?_
  refine (after?_widens _ h.type).bind fun type? => ?_
  exact (after?_widens _ (h.expr _)).bind fun value? => .refl _

theorem fnDecl_widens (h : inner.Widens inner') : inner.fnDecl.Widens inner'.fnDecl := by
  refine .after _ fun stream => .ite ?_ (expressionStmt_widens h)
  refine .after _ fun word => .after _ fun name => ?_
  exact (signature_widens h).bind fun signature => .refl _

theorem classMember_widens (h : inner.Widens inner') :
    inner.classMember.Widens inner'.classMember := by
  refine .after _ fun stream => ?_
  cases stream.kind with
  | kwVal => exact varDecl_widens h
  | kwVar => exact varDecl_widens h
  | kwFun => exact .ite (fnDecl_widens h) (.refl _)
  | _ => exact .refl _

theorem classDecl_widens (h : inner.Widens inner') : inner.classDecl.Widens inner'.classDecl := by
  have hmembers := (classMember_widens h).repeatUntil (· == .closeCurly)
  refine .after _ fun word => .after _ fun name => .after _ fun k => .ite
    ((parameters_widens h).bind fun parameters => ?_) (.after _ fun parameters => ?_)
  -- the body is read alike with and without a list of parameters before it
  all_goals exact .after _ fun openCurly => hmembers.bind fun members => .refl _

theorem ret_widens (h : inner.Widens inner') : inner.ret.Widens inner'.ret := by
  refine .after _ fun word => .after _ fun k => .ite (.refl _) ?_
  exact ((h.expr _).map _).bind fun value? => .refl _

theorem branch_widens (h : inner.Widens inner') : inner.branch.Widens inner'.branch := by
  refine .after _ fun word => (h.expr _).bind fun condition => ?_
  refine h.stmt.bind fun thenBody => ?_
  exact (after?_widens _ h.stmt).bind fun elseBody? => .refl _

theorem loop_widens (h : inner.Widens inner') : inner.loop.Widens inner'.loop := by
  refine .after _ fun word => (h.expr _).bind fun condition => ?_
  exact h.stmt.bind fun body => .refl _

theorem print_widens (h : inner.Widens inner') : inner.print.Widens inner'.print := by
  refine .after _ fun word => ?_
  exact (h.expr _).bind fun e => .refl _

theorem blockStmt_widens (h : inner.Widens inner') : inner.blockStmt.Widens inner'.blockStmt :=
  (block_widens h).bind fun _ => .refl _

theorem stmtBy_widens (h : inner.Widens inner') (rule : StmtRule) :
    (inner.stmtBy rule).Widens (inner'.stmtBy rule) := by
  cases rule with
  | varDecl => exact varDecl_widens h
  | classDecl => exact classDecl_widens h
  | fnDecl => exact fnDecl_widens h
  | ret => exact ret_widens h
  | branch => exact branch_widens h
  | loop => exact loop_widens h
  | print => exact print_widens h
  | block => exact blockStmt_widens h

theorem stmtAt_widens (h : inner.Widens inner') : (inner.stmtAt g).Widens (inner'.stmtAt g) := by
  refine .after _ fun k => ?_
  cases g.stmt k with
  | none => exact expressionStmt_widens h
  | some rule => exact stmtBy_widens h rule

end Inner

namespace Grammar

/-- Readers with more levels left widen those with fewer, whatever limit they report. -/
theorem inner_widens (g : Grammar) {limit limit' room room' : Nat} (hroom : room ≤ room') :
    (g.inner limit room).Widens (g.inner limit' room') := by
  induction room generalizing room' with
  | zero =>
    exact ⟨failWith_widens limit _, fun _ => failWith_widens limit _, failWith_widens limit _⟩
  | succ room ih =>
    obtain ⟨room', rfl⟩ := Nat.exists_eq_add_of_le' hroom
    have hinner := ih (Nat.le_of_add_le_add_right (b := 1) hroom)
    exact ⟨Inner.stmtAt_widens hinner, fun power => Inner.exprAt_widens hinner power,
      Inner.typeAt_widens hinner⟩

theorem program_widens (g : Grammar) {limit limit' : Nat} (hle : limit ≤ limit') :
    (g.program limit).Widens (g.program limit') :=
  .after _ fun _ => ((inner_widens g hle).stmt.repeatUntil _).bind fun _ => .refl _

end Grammar

/-- Under a higher limit the same tokens give the same program, or the same diagnostic at the same
place, unless reading stopped for want of levels. -/
theorem parse_eq_of_le {tokens : List Token} {file : String} {limit limit' : Nat}
    (hle : limit ≤ limit') (hnesting : ∀ d, parse tokens file limit = .error d → ¬ d.IsNesting) :
    parse tokens file limit' = parse tokens file limit := by
  unfold parse at hnesting ⊢
  obtain ⟨d, t, hstops, hd⟩ | hsame :=
    Grammar.program_widens .standard hle (.ofTokens file tokens)
  · rw [hstops] at hnesting
    exact absurd hd (hnesting d rfl)
  · rw [hsame]

/-- Why tokens are not parsed under a limit, if they are not. -/
def refusal? (tokens : List Token) (limit : Nat) : Option Diagnostic :=
  match parse tokens interactiveFile limit with
  | .ok _ => none
  | .error d => some d

theorem parse_of_refusal?_eq_some {tokens : List Token} {limit : Nat} {d : Diagnostic}
    (h : refusal? tokens limit = some d) : parse tokens interactiveFile limit = .error d := by
  unfold refusal? at h
  split at h
  · cases h
  · next hparse =>
    obtain rfl := Option.some.inj h
    exact hparse

theorem parse_of_refusal?_eq_none {tokens : List Token} {limit : Nat}
    (h : refusal? tokens limit = none) :
    ∃ program, parse tokens interactiveFile limit = .ok program := by
  unfold refusal? at h
  split at h
  · next program hparse => exact ⟨program, hparse⟩
  · cases h

/-- `print` before one token in parentheses. -/
def printTokens (argument : Token) : List Token :=
  [⟨.kwPrint, "print", .nowhere⟩, ⟨.openParen, "(", .nowhere⟩, argument,
    ⟨.closeParen, ")", .nowhere⟩, ⟨.semicolon, ";", .nowhere⟩]

/-- A program that needs three levels, and one that stops for another reason on the third. -/
theorem parse_eq_of_le_printTokens :
    (refusal? (printTokens ⟨.number, "1", .nowhere⟩) 2 = some ⟨.nestingTooDeep 2, .nowhere⟩ ∧
      refusal? (printTokens ⟨.number, "1", .nowhere⟩) 3 = none ∧
      parse (printTokens ⟨.number, "1", .nowhere⟩) interactiveFile 7 =
        parse (printTokens ⟨.number, "1", .nowhere⟩) interactiveFile 3) ∧
    (refusal? (printTokens ⟨.assignment, "=", .nowhere⟩) 3 =
        some ⟨.unexpectedToken "=", .nowhere⟩ ∧
      parse (printTokens ⟨.assignment, "=", .nowhere⟩) interactiveFile 7 =
        parse (printTokens ⟨.assignment, "=", .nowhere⟩) interactiveFile 3) := by
  have hdeep : refusal? (printTokens ⟨.number, "1", .nowhere⟩) 2 =
      some ⟨.nestingTooDeep 2, .nowhere⟩ := by decide +kernel
  have hparsed : refusal? (printTokens ⟨.number, "1", .nowhere⟩) 3 = none := by decide +kernel
  have hrefused : refusal? (printTokens ⟨.assignment, "=", .nowhere⟩) 3 =
      some ⟨.unexpectedToken "=", .nowhere⟩ := by decide +kernel
  obtain ⟨program, hprogram⟩ := parse_of_refusal?_eq_none hparsed
  refine ⟨⟨hdeep, hparsed, parse_eq_of_le (by decide) fun d hd => ?_⟩, hrefused,
    parse_eq_of_le (by decide) fun d hd => ?_⟩
  · cases hprogram.symm.trans hd
  · obtain rfl := Except.error.inj ((parse_of_refusal?_eq_some hrefused).symm.trans hd)
    rintro ⟨limit, hlimit⟩
    cases hlimit

end Nominal
