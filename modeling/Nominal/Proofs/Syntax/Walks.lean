import Nominal.Proofs.Syntax.Parsed

/-!
# Reading only goes forward

Wherever a reader starts, what it leaves is the end of what was there, and a diagnostic stands at the
token at which the reader stopped (`Parse.Walks`). This holds of any reader that is put together from
parts of which it holds, whether the tokens are well formed or not. So it holds of the rules when it
does of their readers of nested parts, and then of whole programs (`Grammar.program_walks`): what is
reported of a list of tokens is reported at one of them (`exists_token_of_parse_error`).
-/

namespace Nominal

open Parse Token

namespace TokenStream

theorem next_remaining (s : TokenStream) : s.next.remaining <:+ s.remaining := by
  unfold next
  split
  · exact List.suffix_refl _
  · next t ts hahead => exact ⟨[s.current], by simp [remaining, hahead]⟩

end TokenStream

namespace Parse

variable {α β : Type} {p q : Parse α} {f : α → Parse β} {s : TokenStream}

/-- From `s` the reader goes forward, and stops with diagnostics of the token that it has reached. -/
def WalksAt (p : Parse α) (s : TokenStream) : Prop :=
  match p s with
  | .ok _ t => t.remaining <:+ s.remaining
  | .error d t => t.remaining <:+ s.remaining ∧ d.span = t.span

def Walks (p : Parse α) : Prop :=
  ∀ s, p.WalksAt s

/-! ## Putting readers together -/

/-- A reader that succeeds where it started has not gone back. -/
theorem WalksAt.stay {a : α} (h : p s = .ok a s) : p.WalksAt s := by
  unfold WalksAt
  simp only [h, List.suffix_rfl]

theorem WalksAt.bind (h : p.WalksAt s) (hf : ∀ a t, p s = .ok a t → (f a).WalksAt t) :
    (p >>= f).WalksAt s := by
  show (match EStateM.bind p f s with
    | .ok _ t => t.remaining <:+ s.remaining
    | .error d t => t.remaining <:+ s.remaining ∧ d.span = t.span)
  unfold EStateM.bind
  unfold WalksAt at h
  cases hp : p s with
  | error d t => rwa [hp] at h
  | ok a t =>
    rw [hp] at h
    have hrest := hf a t hp
    unfold WalksAt at hrest
    dsimp only at h ⊢
    cases hq : f a t with
    | ok b u =>
      rw [hq] at hrest
      exact hrest.trans h
    | error d u =>
      rw [hq] at hrest
      exact ⟨hrest.1.trans h, hrest.2⟩

theorem Walks.bind (h : p.Walks) (hf : ∀ a, (f a).Walks) : (p >>= f).Walks :=
  fun s => (h s).bind fun a t _ => hf a t

/-- Looking at the stream is not going anywhere. -/
theorem walks_look (v : TokenStream → α) : Walks fun s => .ok (v s) s :=
  fun _ => .stay rfl

theorem Walks.pure (a : α) : (Pure.pure a : Parse α).Walks :=
  walks_look fun _ => a

theorem Walks.map (h : p.Walks) (g : α → β) : (g <$> p).Walks := by
  rw [map_eq_pure_bind]
  exact h.bind fun _ => .pure _

theorem Walks.ite {c : Prop} [Decidable c] (h : p.Walks) (hq : q.Walks) :
    (if c then p else q).Walks := by
  split
  · exact h
  · exact hq

/-- After a look at the stream, what matters is how the reading goes on. -/
theorem Walks.after (v : TokenStream → α) (hf : ∀ a, (f a).Walks) :
    ((fun s => .ok (v s) s : Parse α) >>= f).Walks :=
  (walks_look v).bind hf

theorem walks_advance : advance.Walks :=
  fun s => s.next_remaining

theorem walks_failWith (cause : Token → Cause) : (failWith cause : Parse α).Walks :=
  fun _ => ⟨List.suffix_refl _, rfl⟩

theorem walks_expectOr (k : Kind) {failure : Parse Token} (h : failure.Walks) :
    (expectOr k failure).Walks :=
  .after TokenStream.kind fun _ => .ite walks_advance h

theorem walks_expect (k : Kind) : (expect k).Walks :=
  walks_expectOr k (walks_failWith _)

theorem walks_expectDetailed (k : Kind) (detail : String) : (expectDetailed k detail).Walks :=
  walks_expectOr k (walks_failWith _)

/-- The span of what was read is the last thing that a rule looks for. -/
theorem walks_spanFrom (start : Position) (make : Span → α) :
    (spanFrom start >>= fun span => Pure.pure (make span)).Walks :=
  .after (·.spanFrom start) fun _ => .pure _

theorem Walks.repeatUntil (stop : Kind → Bool) (h : p.Walks) : (repeatUntil stop p).Walks := by
  intro s
  induction hn : s.size using Nat.strongRecOn generalizing s with
  | _ n ih =>
  by_cases hstop : stop s.kind
  · exact .stay (by rw [Parse.repeatUntil, if_pos hstop])
  rw [Bool.not_eq_true] at hstop
  unfold WalksAt
  rw [repeatUntil_step hstop]
  refine (h s).bind fun a t _ => ?_
  unfold WalksAt
  by_cases hsize : t.size < s.size
  · simp only [hsize, if_true]
    rw [map_eq_pure_bind]
    exact (ih t.size (hn ▸ hsize) t rfl).bind fun as u _ => Walks.pure _ u
  · simp only [hsize, if_false]
    exact List.suffix_refl _

theorem Walks.commaSeparated (h : p.Walks) : (commaSeparated p).Walks := by
  intro s
  induction hn : s.size using Nat.strongRecOn generalizing s with
  | _ n ih =>
  unfold WalksAt
  rw [commaSeparated_step]
  refine (h s).bind fun a t _ => ?_
  unfold WalksAt
  by_cases hcomma : t.kind = .comma
  · by_cases hsize : t.next.size < s.size
    · simp only [hcomma, hsize, if_true]
      refine (walks_advance t).bind fun comma u hu => ?_
      obtain ⟨-, rfl⟩ := EStateM.Result.ok.inj hu
      rw [map_eq_pure_bind]
      exact (ih t.next.size (hn ▸ hsize) t.next rfl).bind fun as u _ => Walks.pure _ u
    · simp only [hcomma, hsize, if_true, if_false]
      exact t.next_remaining
  · simp only [hcomma, if_false]
    exact List.suffix_refl _

theorem Walks.parenthesised (h : p.Walks) : (parenthesised p).Walks := by
  refine (walks_expect _).bind fun openParen => .after TokenStream.kind fun k => .ite ?_ ?_
  · exact (Walks.pure _).bind fun items => (walks_expect _).bind fun closeParen => .pure _
  · exact h.commaSeparated.bind fun items => (walks_expect _).bind fun closeParen => .pure _

end Parse

namespace Inner

/-- The readers of nested parts only go forward. -/
structure Walks (inner : Inner) : Prop where
  stmt : inner.stmt.Walks
  expr : ∀ power, (inner.expr power).Walks
  type : inner.type.Walks

variable {inner : Inner} {g : Grammar}

/-! ## Types -/

theorem functionType_walks (h : inner.Walks) : inner.functionType.Walks := by
  refine walks_advance.bind fun word => h.type.parenthesised.bind fun parameters => ?_
  refine (walks_expectDetailed _ _).bind fun arrow => h.type.bind fun result => ?_
  exact walks_spanFrom _ _

theorem namedType_walks (h : inner.Walks) : inner.namedType.Walks :=
  .after id fun _ => .ite (functionType_walks h) ((walks_expect _).bind fun _ => .pure _)

theorem typeBy_walks (h : inner.Walks) (rule : TypeRule) : (inner.typeBy rule).Walks := by
  cases rule with
  | named => exact namedType_walks h
  | function => exact functionType_walks h

theorem typeAt_walks (h : inner.Walks) : (inner.typeAt g).Walks := by
  refine .after TokenStream.kind fun k => ?_
  cases g.type k with
  | none => exact walks_failWith _
  | some rule => exact typeBy_walks h rule

/-! ## Functions and blocks -/

theorem block_walks (h : inner.Walks) : inner.block.Walks := by
  have hitem : (kind >>= fun k =>
      if k = .eof then unexpectedDetailed "expected `\x7d` to close the block"
      else inner.stmt).Walks := .after TokenStream.kind fun _ => .ite (walks_failWith _) h.stmt
  refine (walks_expect _).bind fun openCurly => (hitem.repeatUntil _).bind fun body => ?_
  exact (walks_expect _).bind fun closeCurly => walks_spanFrom _ _

theorem parameterMode_walks : parameterMode.Walks := by
  refine .after TokenStream.kind fun k => ?_
  cases k with
  | kwVar => exact walks_advance.bind fun _ => .pure _
  | kwVal => exact walks_advance.bind fun _ => .pure _
  | _ => exact .pure _

theorem parameter_walks (h : inner.Walks) : inner.parameter.Walks := by
  refine .after TokenStream.position fun start => parameterMode_walks.bind fun mode => ?_
  refine (walks_expectDetailed _ _).bind fun name => (walks_expectDetailed _ _).bind fun colon => ?_
  exact h.type.bind fun type => walks_spanFrom _ _

theorem parameters_walks (h : inner.Walks) : inner.parameters.Walks :=
  (parameter_walks h).parenthesised

theorem resultType?_walks (h : inner.Walks) : inner.resultType?.Walks := by
  refine .after TokenStream.kind fun k => .ite ?_ (.pure _)
  exact walks_advance.bind fun mark => h.type.bind fun type => .pure _

theorem signature_walks (h : inner.Walks) : inner.signature.Walks := by
  refine (parameters_walks h).bind fun parameters => ?_
  refine (resultType?_walks h).bind fun result? => ?_
  exact (block_walks h).bind fun body => .pure _

/-! ## Expressions -/

theorem arguments_walks (h : inner.Walks) : inner.arguments.Walks :=
  (h.expr _).parenthesised

theorem primary_walks : primary.Walks := by
  refine .after TokenStream.current fun token => ?_
  cases primaryForm token with
  | ok form => exact walks_advance.bind fun _ => .pure _
  | error cause => exact walks_failWith _

theorem nudBy_walks (h : inner.Walks) (rule : NudRule) : (inner.nudBy rule).Walks := by
  cases rule with
  | primary => exact primary_walks
  | unary => exact walks_advance.bind fun operator => (h.expr _).bind fun operand => .pure _
  | group =>
    refine walks_advance.bind fun openParen => (h.expr _).bind fun e => ?_
    exact (walks_expect _).bind fun closeParen => walks_spanFrom _ _
  | new =>
    refine walks_advance.bind fun word => (walks_expectDetailed _ _).bind fun name => ?_
    exact (arguments_walks h).bind fun es => walks_spanFrom _ _
  | lambda => exact walks_advance.bind fun word => (signature_walks h).bind fun _ => walks_spanFrom _ _

theorem ledBy_walks (h : inner.Walks) (left : Expr) (power : BindingPower) (rule : LedRule) :
    (inner.ledBy left power rule).Walks := by
  cases rule with
  | assignment =>
    refine .ite ?_ (walks_failWith _)
    exact walks_advance.bind fun mark => (h.expr _).bind fun value => .pure _
  | binary => exact walks_advance.bind fun operator => (h.expr _).bind fun right => .pure _
  | call => exact (arguments_walks h).bind fun es => walks_spanFrom _ _
  | member =>
    exact walks_advance.bind fun dot => (walks_expectDetailed _ _).bind fun name => .pure _

theorem continueExpr_walks (h : inner.Walks) (power : BindingPower) (left : Expr) :
    (inner.continueExpr g power left).Walks := by
  intro s
  induction hn : s.size using Nat.strongRecOn generalizing s left with
  | _ n ih =>
  unfold WalksAt
  cases hled : g.led s.kind with
  | none => exact WalksAt.stay (by rw [continueExpr, hled])
  | some led =>
    obtain ⟨next, rule⟩ := led
    by_cases hpower : power < next
    · rw [continueExpr_eq_bind hled hpower]
      refine (ledBy_walks h left next rule s).bind fun longer t _ => ?_
      unfold WalksAt
      by_cases hsize : t.size < s.size
      · simp only [hsize, if_true]
        exact ih t.size (hn ▸ hsize) longer t rfl
      · simp only [hsize, if_false]
        exact List.suffix_refl _
    · rw [continueExpr]
      simp only [hled, hpower, if_false]
      exact List.suffix_refl _

theorem exprAt_walks (h : inner.Walks) (power : BindingPower) : (inner.exprAt g power).Walks := by
  refine .after TokenStream.kind fun k => ?_
  cases g.nud k with
  | none => exact walks_failWith _
  | some rule => exact (nudBy_walks h rule).bind fun left => continueExpr_walks h power left

/-! ## Statements -/

theorem expressionStmt_walks (h : inner.Walks) : inner.expressionStmt.Walks :=
  (h.expr _).bind fun _ => (walks_expect _).bind fun _ => walks_spanFrom _ _

theorem after?_walks {α : Type} {p : Parse α} (mark : Kind) (h : p.Walks) :
    (after? mark p).Walks := by
  refine .after TokenStream.kind fun k => .ite ?_ (.pure _)
  exact walks_advance.bind fun mark => h.bind fun a => .pure _

theorem varDecl_walks (h : inner.Walks) : inner.varDecl.Walks := by
  refine walks_advance.bind fun word => (walks_expectDetailed _ _).bind fun name => ?_
  refine (after?_walks _ h.type).bind fun type? => (after?_walks _ (h.expr _)).bind fun value? => ?_
  exact (walks_expect _).bind fun semicolon => walks_spanFrom _ _

theorem fnDecl_walks (h : inner.Walks) : inner.fnDecl.Walks := by
  refine .after id fun stream => .ite ?_ (expressionStmt_walks h)
  refine walks_advance.bind fun word => walks_advance.bind fun name => ?_
  exact (signature_walks h).bind fun signature => walks_spanFrom _ _

theorem classMember_walks (h : inner.Walks) : inner.classMember.Walks := by
  refine .after id fun stream => ?_
  cases stream.kind with
  | kwVal => exact varDecl_walks h
  | kwVar => exact varDecl_walks h
  | kwFun => exact .ite (fnDecl_walks h) (walks_failWith _)
  | _ => exact walks_failWith _

theorem classDecl_walks (h : inner.Walks) : inner.classDecl.Walks := by
  have hmembers := (classMember_walks h).repeatUntil (· == .closeCurly)
  refine walks_advance.bind fun word => (walks_expectDetailed _ _).bind fun name => ?_
  refine .after TokenStream.kind fun k => .ite
    ((parameters_walks h).bind fun parameters => ?_) ((Walks.pure _).bind fun parameters => ?_)
  -- the body is read alike with and without a list of parameters before it
  all_goals
    refine (walks_expect _).bind fun openCurly => hmembers.bind fun members => ?_
    exact (walks_expect _).bind fun closeCurly => walks_spanFrom _ _

theorem ret_walks (h : inner.Walks) : inner.ret.Walks := by
  refine walks_advance.bind fun word => .after TokenStream.kind fun k => .ite
    ((Walks.pure _).bind fun value? => ?_) (((h.expr _).map _).bind fun value? => ?_)
  all_goals exact (walks_expect _).bind fun semicolon => walks_spanFrom _ _

theorem branch_walks (h : inner.Walks) : inner.branch.Walks := by
  refine walks_advance.bind fun word => (h.expr _).bind fun condition => ?_
  refine h.stmt.bind fun thenBody => (after?_walks _ h.stmt).bind fun elseBody? => ?_
  exact walks_spanFrom _ _

theorem loop_walks (h : inner.Walks) : inner.loop.Walks := by
  refine walks_advance.bind fun word => (h.expr _).bind fun condition => ?_
  exact h.stmt.bind fun body => walks_spanFrom _ _

theorem print_walks (h : inner.Walks) : inner.print.Walks := by
  refine walks_advance.bind fun word => (h.expr _).bind fun e => ?_
  exact (walks_expect _).bind fun semicolon => walks_spanFrom _ _

theorem blockStmt_walks (h : inner.Walks) : inner.blockStmt.Walks :=
  (block_walks h).bind fun _ => .pure _

theorem stmtBy_walks (h : inner.Walks) (rule : StmtRule) : (inner.stmtBy rule).Walks := by
  cases rule with
  | varDecl => exact varDecl_walks h
  | classDecl => exact classDecl_walks h
  | fnDecl => exact fnDecl_walks h
  | ret => exact ret_walks h
  | branch => exact branch_walks h
  | loop => exact loop_walks h
  | print => exact print_walks h
  | block => exact blockStmt_walks h

theorem stmtAt_walks (h : inner.Walks) : (inner.stmtAt g).Walks := by
  refine .after TokenStream.kind fun k => ?_
  cases g.stmt k with
  | none => exact expressionStmt_walks h
  | some rule => exact stmtBy_walks h rule

end Inner

namespace Grammar

theorem inner_walks (g : Grammar) (limit room : Nat) : (g.inner limit room).Walks := by
  induction room with
  | zero =>
    have hstops {α : Type} : (failWith fun _ => .nestingTooDeep limit : Parse α).Walks :=
      walks_failWith _
    exact ⟨hstops, fun _ => hstops, hstops⟩
  | succ room ih =>
    exact ⟨Inner.stmtAt_walks ih, Inner.exprAt_walks ih, Inner.typeAt_walks ih⟩

theorem program_walks (g : Grammar) (limit : Nat) : (g.program limit).Walks := by
  refine .after TokenStream.position fun start => ?_
  refine ((g.inner_walks limit limit).stmt.repeatUntil _).bind fun body => ?_
  exact .after TokenStream.position fun stop => .pure _

end Grammar

/-- Before the end token there is nothing to read, and reading it does not stop. -/
theorem Grammar.program_of_eof (g : Grammar) (limit : Nat) {s : TokenStream} (hs : s.kind = .eof) :
    g.program limit s = .ok ⟨[], ⟨s.position, s.position⟩⟩ s := by
  have hbody : repeatUntil (· == .eof) (g.stmtIn limit limit) s = .ok [] s := by
    rw [repeatUntil, if_pos (by simp [hs])]
  show EStateM.bind (repeatUntil (· == .eof) (g.stmtIn limit limit)) _ s = _
  rw [EStateM.bind, hbody]
  rfl

/-- What stops the parsing of the tokens of a source stands at one of them, and they are not the end
token alone. -/
theorem exists_token_of_parse_error {tokens : List Token} {file : String} {limit : Nat}
    {d : Diagnostic} (hended : Ended tokens) (h : parse tokens file limit = .error d) :
    (∃ t ∈ tokens, d.span = t.span) ∧ ∃ t ∈ tokens, t.kind ≠ .eof := by
  have hremaining := TokenStream.remaining_ofTokens hended file
  have hwalks := Grammar.program_walks .standard limit (.ofTokens file tokens)
  obtain ⟨t, hrun⟩ := exists_run_of_parse_error h
  unfold WalksAt at hwalks
  rw [hrun, hremaining] at hwalks
  refine ⟨⟨t.current, hwalks.1.subset List.mem_cons_self, hwalks.2⟩, ?_⟩
  refine ⟨(TokenStream.ofTokens file tokens).current, ?_, fun hk => ?_⟩
  · rw [← hremaining]
    exact List.mem_cons_self
  · rw [Grammar.program_of_eof _ _ hk] at hrun
    cases hrun

end Nominal
