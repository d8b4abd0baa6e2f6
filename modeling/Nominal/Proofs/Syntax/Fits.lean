import Nominal.Proofs.Syntax.Nesting
import Nominal.Proofs.Syntax.Parsed

/-!
# Parsed programs fit the limit

What is read with some room left has no more levels than that. A rule gives a tree that is one level
deeper than what its readers of nested parts give, and the loop that continues an expression keeps
its left part on the level it has. So a program that was parsed has no more levels than the limit
(`nesting_le_of_parse`).
-/

namespace Nominal

open Parse

namespace Parse

variable {α β : Type} {p : Parse α} {f : α → Parse β} {good : α → Prop} {good' : β → Prop}

/-- Whatever the reader gives is good, wherever it starts. -/
def Yields (p : Parse α) (good : α → Prop) : Prop :=
  ∀ s : TokenStream, p.Gives s fun a _ => good a

/-! ## Putting readers together -/

theorem Yields.pure {a : α} (ha : good a) : (pure a : Parse α).Yields good :=
  fun _ => ha

theorem failWith_yields (cause : Token → Cause) : (failWith cause : Parse α).Yields good :=
  fun _ => trivial

theorem Yields.bind (h : p.Yields good) (hf : ∀ a, good a → (f a).Yields good') :
    (p >>= f).Yields good' :=
  fun s => (gives_bind p f).2 ((h s).mono fun a t ha => hf a ha t)

/-- Whatever the first part gives. -/
theorem Yields.after (p : Parse α) (hf : ∀ a, (f a).Yields good') : (p >>= f).Yields good' := by
  have hany : p.Yields fun _ => True := by
    intro s
    unfold Gives
    cases p s <;> trivial
  exact hany.bind fun a _ => hf a

theorem Yields.map {g : α → β} (h : p.Yields good) (hg : ∀ a, good a → good' (g a)) :
    (g <$> p).Yields good' :=
  fun s => (gives_map g p).2 ((h s).mono fun a _ => hg a)

theorem Yields.ite {c : Prop} [Decidable c] {q : Parse α} (h : p.Yields good)
    (hq : q.Yields good) : (if c then p else q).Yields good := by
  split
  · exact h
  · exact hq

theorem Yields.repeatUntil (stop : Kind → Bool) (h : p.Yields good) :
    (repeatUntil stop p).Yields fun as => ∀ a ∈ as, good a := by
  intro s
  unfold Gives
  fun_induction Parse.repeatUntil stop p s with
  | case1 => exact List.forall_mem_nil _
  | case2 => trivial
  | case3 => trivial
  | case4 s _ a t ha _ as u has ih =>
    rw [has] at ih
    exact List.forall_mem_cons.2 ⟨(h s).of_ok ha, ih⟩
  | case5 s _ a t ha => exact List.forall_mem_singleton.2 ((h s).of_ok ha)

theorem Yields.commaSeparated (h : p.Yields good) :
    (commaSeparated p).Yields fun as => ∀ a ∈ as, good a := by
  intro s
  unfold Gives
  fun_induction Parse.commaSeparated p s with
  | case1 => trivial
  | case2 => trivial
  | case3 s a t ha _ _ as u has ih =>
    rw [has] at ih
    exact List.forall_mem_cons.2 ⟨(h s).of_ok ha, ih⟩
  | case4 s a t ha => exact List.forall_mem_singleton.2 ((h s).of_ok ha)
  | case5 s a t ha => exact List.forall_mem_singleton.2 ((h s).of_ok ha)

theorem Yields.parenthesised (h : p.Yields good) :
    (parenthesised p).Yields fun as => ∀ a ∈ as, good a := by
  have hclose : ∀ as : List α, (∀ a ∈ as, good a) →
      (expect .closeParen >>= fun _ => Pure.pure as).Yields fun as => ∀ a ∈ as, good a :=
    fun _ has => .after _ fun _ => .pure has
  have hnone : (Pure.pure [] : Parse (List α)).Yields fun as => ∀ a ∈ as, good a :=
    .pure (List.forall_mem_nil _)
  exact .after _ fun _ => .after _ fun _ => .ite (hnone.bind hclose) (h.commaSeparated.bind hclose)

end Parse

namespace Inner

/-- What the readers of nested parts give has at most `n` levels. -/
structure Fits (inner : Inner) (n : Nat) : Prop where
  stmt : inner.stmt.Yields fun s => s.nesting ≤ n
  expr : ∀ power, (inner.expr power).Yields fun e => e.nesting ≤ n
  type : inner.type.Yields fun a => a.nesting ≤ n

variable {inner : Inner} {n : Nat} {g : Grammar}

/-! ## Types -/

theorem functionType_fits (h : inner.Fits n) :
    inner.functionType.Yields fun a => a.nesting ≤ n + 1 := by
  refine .after _ fun word => ?_
  refine h.type.parenthesised.bind fun parameters hparameters => .after _ fun arrow => ?_
  refine h.type.bind fun result hresult => .after _ fun span => .pure ?_
  exact Nat.succ_le_succ (Nat.max_le.2 ⟨TypeExpr.eachNesting_le.2 hparameters, hresult⟩)

theorem namedType_fits (h : inner.Fits n) : inner.namedType.Yields fun a => a.nesting ≤ n + 1 := by
  refine .after _ fun stream => .ite (functionType_fits h) (.after _ fun name => .pure ?_)
  simp [TypeExpr.nesting]

theorem typeAt_fits (h : inner.Fits n) : (inner.typeAt g).Yields fun a => a.nesting ≤ n + 1 := by
  refine .after _ fun k => ?_
  cases g.type k with
  | none => exact failWith_yields _
  | some rule =>
    cases rule with
    | named => exact namedType_fits h
    | function => exact functionType_fits h

/-! ## Functions and blocks -/

theorem block_fits (h : inner.Fits n) :
    inner.block.Yields fun b => ∀ s ∈ b.body, s.nesting ≤ n := by
  have hstmt := Yields.after kind fun k => Yields.ite (c := k = .eof)
    (failWith_yields fun t => .unexpectedTokenDetailed t.value "expected `\x7d` to close the block")
    h.stmt
  refine .after _ fun openCurly => (hstmt.repeatUntil _).bind fun body hbody => ?_
  exact .after _ fun closeCurly => .after _ fun span => .pure hbody

theorem parameters_fits (h : inner.Fits n) :
    inner.parameters.Yields fun ps => ∀ p ∈ ps, p.type.nesting ≤ n := by
  have hparameter : inner.parameter.Yields fun p => p.type.nesting ≤ n := by
    refine .after _ fun start => .after _ fun mode => .after _ fun name => .after _ fun colon => ?_
    exact h.type.bind fun type htype => .after _ fun span => .pure htype
  exact hparameter.parenthesised

theorem resultType?_fits (h : inner.Fits n) :
    inner.resultType?.Yields fun result? => ∀ result ∈ result?, result.nesting ≤ n := by
  refine .after _ fun k => .ite ?_ (.pure (by simp))
  exact .after _ fun mark => h.type.bind fun type htype => .pure (by simpa using htype)

theorem signature_fits (h : inner.Fits n) : inner.signature.Yields fun signature =>
    Signature.headNesting signature.parameters signature.result? ≤ n ∧
      ∀ s ∈ signature.body.body, s.nesting ≤ n := by
  refine (parameters_fits h).bind fun parameters hparameters => ?_
  refine (resultType?_fits h).bind fun result? hresult => ?_
  refine (block_fits h).bind fun body hbody => .pure ⟨?_, hbody⟩
  exact Signature.headNesting_le.2 ⟨hparameters, hresult⟩

/-! ## Expressions -/

theorem arguments_fits (h : inner.Fits n) :
    inner.arguments.Yields fun es => ∀ e ∈ es, e.nesting ≤ n :=
  (h.expr _).parenthesised

theorem nesting_primaryForm {token : Token} {form : ExprForm} (h : primaryForm token = .ok form) :
    form.nesting = 1 := by
  unfold primaryForm at h
  split at h
  · split at h <;> cases h
    rfl
  all_goals cases h
  all_goals rfl

theorem primary_fits : primary.Yields fun e => e.nesting ≤ n + 1 := by
  refine .after _ fun token => ?_
  cases hform : primaryForm token with
  | error cause => exact failWith_yields _
  | ok form =>
    refine .after _ fun _ => .pure ?_
    show form.nesting ≤ n + 1
    rw [nesting_primaryForm hform]
    exact Nat.le_add_left 1 n

theorem nudBy_fits (h : inner.Fits n) (rule : NudRule) :
    (inner.nudBy rule).Yields fun e => e.nesting ≤ n + 1 := by
  cases rule with
  | primary => exact primary_fits
  | unary =>
    refine .after _ fun operator => (h.expr _).bind fun operand hoperand => .pure ?_
    exact Nat.succ_le_succ hoperand
  | group =>
    refine .after _ fun openParen => (h.expr _).bind fun e he => ?_
    exact .after _ fun closeParen => .after _ fun span => .pure (Nat.succ_le_succ he)
  | new =>
    refine .after _ fun word => .after _ fun name => ?_
    refine (arguments_fits h).bind fun es hes => .after _ fun span => .pure ?_
    exact Nat.succ_le_succ (Expr.eachNesting_le.2 hes)
  | lambda =>
    refine .after _ fun word => (signature_fits h).bind ?_
    rintro ⟨parameters, result?, ⟨body, bodySpan⟩⟩ ⟨hhead, hbody⟩
    refine .after _ fun span => .pure ?_
    exact Nat.succ_le_succ (Nat.max_le.2 ⟨hhead, Stmt.eachNesting_le.2 hbody⟩)

/-- What continues an expression is on the level of the expression. -/
theorem ledBy_fits (h : inner.Fits n) {left : Expr} (hleft : left.nesting ≤ n + 1)
    (power : BindingPower) (rule : LedRule) :
    (inner.ledBy left power rule).Yields fun e => e.nesting ≤ n + 1 := by
  cases rule with
  | assignment =>
    refine .ite (.after _ fun mark => ?_) (failWith_yields _)
    refine (h.expr _).bind fun value hvalue => .pure ?_
    exact Nat.max_le.2 ⟨hleft, Nat.succ_le_succ hvalue⟩
  | binary =>
    refine .after _ fun operator => (h.expr _).bind fun right hright => .pure ?_
    exact Nat.max_le.2 ⟨hleft, Nat.succ_le_succ hright⟩
  | call =>
    refine (arguments_fits h).bind fun es hes => .after _ fun span => .pure ?_
    exact Nat.max_le.2 ⟨hleft, Nat.succ_le_succ (Expr.eachNesting_le.2 hes)⟩
  | member => exact .after _ fun dot => .after _ fun name => .pure hleft

/-- The loop that continues an expression does not go further in. -/
theorem continueExpr_fits (h : inner.Fits n) {left : Expr} (hleft : left.nesting ≤ n + 1)
    (power : BindingPower) :
    (inner.continueExpr g power left).Yields fun e => e.nesting ≤ n + 1 := by
  intro s
  unfold Gives
  fun_induction continueExpr inner g power left s with
  | case1 => exact hleft
  | case2 => trivial
  | case3 left s next rule _ _ longer t hlonger _ ih =>
    exact ih ((ledBy_fits h hleft next rule s).of_ok hlonger)
  | case4 left s next rule _ _ longer t hlonger =>
    exact (ledBy_fits h hleft next rule s).of_ok hlonger
  | case5 => exact hleft

theorem exprAt_fits (h : inner.Fits n) (power : BindingPower) :
    (inner.exprAt g power).Yields fun e => e.nesting ≤ n + 1 := by
  refine .after _ fun k => ?_
  cases g.nud k with
  | none => exact failWith_yields _
  | some rule => exact (nudBy_fits h rule).bind fun _ hleft => continueExpr_fits h hleft power

/-! ## Statements -/

theorem after?_fits {α : Type} {p : Parse α} {good : α → Prop} (mark : Kind) (h : p.Yields good) :
    (after? mark p).Yields fun a? => ∀ a ∈ a?, good a := by
  refine .after _ fun k => .ite ?_ (.pure (by simp))
  exact .after _ fun mark => h.bind fun a ha => .pure (by simpa using ha)

theorem expressionStmt_fits (h : inner.Fits n) :
    inner.expressionStmt.Yields fun s => s.nesting ≤ n + 1 := by
  refine (h.expr _).bind fun e he => .after _ fun semicolon => .after _ fun span => .pure ?_
  exact Nat.succ_le_succ he

theorem varDecl_fits (h : inner.Fits n) : inner.varDecl.Yields fun s => s.nesting ≤ n + 1 := by
  refine .after _ fun word => .after _ fun name => ?_
  refine (after?_fits _ h.type).bind fun type? htype => ?_
  refine (after?_fits _ (h.expr _)).bind fun value? hvalue => ?_
  refine .after _ fun semicolon => .after _ fun span => .pure ?_
  exact StmtForm.nesting_varDecl_le.2 ⟨htype, hvalue⟩

theorem fnDecl_fits (h : inner.Fits n) : inner.fnDecl.Yields fun s => s.nesting ≤ n + 1 := by
  refine .after _ fun stream => .ite ?_ (expressionStmt_fits h)
  refine .after _ fun word => .after _ fun name => (signature_fits h).bind ?_
  rintro ⟨parameters, result?, ⟨body, bodySpan⟩⟩ ⟨hhead, hbody⟩
  refine .after _ fun span => .pure ?_
  exact Nat.succ_le_succ (Nat.max_le.2 ⟨hhead, Stmt.eachNesting_le.2 hbody⟩)

/-- A member is read on the level of its class. -/
theorem classMember_fits (h : inner.Fits n) :
    inner.classMember.Yields fun s => s.nesting ≤ n + 1 := by
  refine .after _ fun stream => ?_
  cases stream.kind with
  | kwVal => exact varDecl_fits h
  | kwVar => exact varDecl_fits h
  | kwFun => exact .ite (fnDecl_fits h) (failWith_yields _)
  | _ => exact failWith_yields _

theorem classDecl_fits (h : inner.Fits n) : inner.classDecl.Yields fun s => s.nesting ≤ n + 1 := by
  have hmembers := (classMember_fits h).repeatUntil (· == .closeCurly)
  have hnone : (Pure.pure [] : Parse (List Parameter)).Yields
      fun ps => ∀ p ∈ ps, p.type.nesting ≤ n :=
    .pure (List.forall_mem_nil _)
  refine .after _ fun word => .after _ fun name => .after _ fun k => .ite
    ((parameters_fits h).bind fun parameters hparameters => ?_)
    (hnone.bind fun parameters hparameters => ?_)
  -- the body is read alike with and without a list of parameters before it
  all_goals
    refine .after _ fun openCurly => hmembers.bind fun members hmembers => ?_
    refine .after _ fun closeCurly => .after _ fun span => .pure ?_
    refine Nat.max_le.2 ⟨Nat.succ_le_succ ?_, Stmt.eachNesting_le.2 hmembers⟩
    exact Signature.headNesting_le.2 ⟨hparameters, by simp⟩

theorem ret_fits (h : inner.Fits n) : inner.ret.Yields fun s => s.nesting ≤ n + 1 := by
  have hsome : (some <$> inner.expr .default).Yields fun value? => ∀ e ∈ value?, e.nesting ≤ n :=
    (h.expr _).map fun e he => by simpa using he
  have hnone : (Pure.pure none : Parse (Option Expr)).Yields
      fun value? => ∀ e ∈ value?, e.nesting ≤ n :=
    .pure (by simp)
  refine .after _ fun word => .after _ fun k => .ite
    (hnone.bind fun value? hvalue => ?_) (hsome.bind fun value? hvalue => ?_)
  all_goals
    refine .after _ fun semicolon => .after _ fun span => .pure ?_
    exact StmtForm.nesting_ret_le.2 hvalue

theorem branch_fits (h : inner.Fits n) : inner.branch.Yields fun s => s.nesting ≤ n + 1 := by
  refine .after _ fun word => (h.expr _).bind fun condition hcondition => ?_
  refine h.stmt.bind fun thenBody hthen => ?_
  refine (after?_fits _ h.stmt).bind fun elseBody? helse => .after _ fun span => .pure ?_
  exact StmtForm.nesting_branch_le.2 ⟨hcondition, hthen, helse⟩

theorem loop_fits (h : inner.Fits n) : inner.loop.Yields fun s => s.nesting ≤ n + 1 := by
  refine .after _ fun word => (h.expr _).bind fun condition hcondition => ?_
  refine h.stmt.bind fun body hbody => .after _ fun span => .pure ?_
  exact Nat.succ_le_succ (Nat.max_le.2 ⟨hcondition, hbody⟩)

theorem print_fits (h : inner.Fits n) : inner.print.Yields fun s => s.nesting ≤ n + 1 := by
  refine .after _ fun word => (h.expr _).bind fun e he => ?_
  exact .after _ fun semicolon => .after _ fun span => .pure (Nat.succ_le_succ he)

theorem blockStmt_fits (h : inner.Fits n) : inner.blockStmt.Yields fun s => s.nesting ≤ n + 1 := by
  refine (block_fits h).bind ?_
  rintro ⟨body, span⟩ hbody
  exact .pure (Nat.succ_le_succ (Stmt.eachNesting_le.2 hbody))

theorem stmtBy_fits (h : inner.Fits n) (rule : StmtRule) :
    (inner.stmtBy rule).Yields fun s => s.nesting ≤ n + 1 := by
  cases rule with
  | varDecl => exact varDecl_fits h
  | classDecl => exact classDecl_fits h
  | fnDecl => exact fnDecl_fits h
  | ret => exact ret_fits h
  | branch => exact branch_fits h
  | loop => exact loop_fits h
  | print => exact print_fits h
  | block => exact blockStmt_fits h

theorem stmtAt_fits (h : inner.Fits n) : (inner.stmtAt g).Yields fun s => s.nesting ≤ n + 1 := by
  refine .after _ fun k => ?_
  cases g.stmt k with
  | none => exact expressionStmt_fits h
  | some rule => exact stmtBy_fits h rule

end Inner

namespace Grammar

/-- What is read with some room left has no more levels than that. -/
theorem inner_fits (g : Grammar) (limit room : Nat) : (g.inner limit room).Fits room := by
  induction room with
  | zero =>
    have hstops {α : Type} (good : α → Prop) :
        (failWith fun _ => .nestingTooDeep limit : Parse α).Yields good := failWith_yields _
    exact ⟨hstops _, fun _ => hstops _, hstops _⟩
  | succ room ih =>
    exact ⟨Inner.stmtAt_fits ih, fun power => Inner.exprAt_fits ih power, Inner.typeAt_fits ih⟩

end Grammar

/-- A program that was parsed has no more levels than the limit. -/
theorem nesting_le_of_parse {tokens : List Token} {file : String} {limit : Nat} {program : Block}
    (hparse : parse tokens file limit = .ok program) : program.nesting ≤ limit := by
  have hstmt := (Grammar.inner_fits Grammar.standard limit limit).stmt
  have hprogram : (Grammar.standard.program limit).Yields
      fun b => ∀ s ∈ b.body, s.nesting ≤ limit := by
    refine .after _ fun start => (hstmt.repeatUntil _).bind fun body hbody => ?_
    exact .after _ fun stop => .pure hbody
  obtain ⟨t, hrun⟩ := exists_run_of_parse hparse
  exact Stmt.eachNesting_le.2 ((hprogram _).of_ok hrun)

end Nominal
