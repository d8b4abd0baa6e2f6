import Nominal.Proofs.Syntax.Prefix.Fork
import Nominal.Proofs.Syntax.Sound

/-!
# The rules read shared tokens alike

Under any two limits, what a rule does before a fork tells what it does on the other side of the
fork. Each rule is proved from `Inner.Foretells`, the same promise for the readers one level further
in. The rules that look at the token behind the current one pass the current one in any case, and so
does an expression that starts with `fun`.
-/

namespace Nominal

open Parse Fork

namespace Inner

/-- What the readers of nested parts tell about other readers of them. -/
structure Foretells (f : Fork) (inner inner' : Inner) : Prop where
  stmt : ∀ s s', f.Foretells 0 inner.stmt inner'.stmt s s'
  expr : ∀ power s s', f.Foretells 0 (inner.expr power) (inner'.expr power) s s'
  lambda : ∀ power s s', s.kind = .kwFun →
    f.Foretells 1 (inner.expr power) (inner'.expr power) s s'
  type : ∀ s s', f.Foretells 0 inner.type inner'.type s s'

variable {f : Fork} {inner inner' : Inner} {s s' : TokenStream}

/-! ## Types -/

theorem functionType_foretells (hi : inner.Foretells f inner') (hk : s.kind ≠ .eof) :
    f.Foretells 1 inner.functionType inner'.functionType s s' := by
  refine .advance_bind hk fun t' => ?_
  refine (Foretells.parenthesised hi.type).bind fun parameters _ _ => ?_
  refine (Foretells.expectDetailed (by decide) _).bind fun _ _ _ => ?_
  exact (hi.type _ _).bind fun result _ _ => .spanFrom (.pure _)

/-- Whether `Function` begins a function type is decided by the token behind it. -/
theorem namedType_foretells (hi : inner.Foretells f inner') (hk : s.kind = .identifier) :
    f.Foretells 1 inner.namedType inner'.namedType s s' := by
  have hne : s.kind ≠ .eof := by simp [hk]
  refine .peek (fun token kind => token.value = functionTypeName ∧ kind = .openParen)
    (fun _ => functionType_foretells hi hne) fun _ => ?_
  refine Foretells.bind ?_ fun token _ _ => .pure _
  refine .kind ?_
  rw [if_pos hk]
  exact .advance hne

theorem typeAt_foretells (hi : inner.Foretells f inner') :
    f.Foretells 0 (inner.typeAt .standard) (inner'.typeAt .standard) s s' := by
  refine .kind ?_
  split
  · next rule hrule =>
    obtain ⟨hk, rfl⟩ := Grammar.standard_type hrule
    exact (namedType_foretells hi hk).weaken
  · exact .failWith _

/-! ## Functions and blocks -/

theorem block_foretells (hi : inner.Foretells f inner') :
    f.Foretells 0 inner.block inner'.block s s' := by
  refine (Foretells.expect (by decide)).bind fun _ _ _ => ?_
  refine (Foretells.repeatUntil fun t t' => .kind ?_).bind fun body _ _ => ?_
  · split
    · exact .failWith _
    · exact hi.stmt t t'
  · exact (Foretells.expect (by decide)).bind fun _ _ _ => .spanFrom (.pure _)

theorem parameterMode_foretells : f.Foretells 0 parameterMode parameterMode s s' := by
  refine .kind ?_
  split
  · next hk => exact (Foretells.advance (by simp [hk])).weaken.bind fun _ _ _ => .pure _
  · next hk => exact (Foretells.advance (by simp [hk])).weaken.bind fun _ _ _ => .pure _
  · exact .pure _

theorem parameter_foretells (hi : inner.Foretells f inner') :
    f.Foretells 0 inner.parameter inner'.parameter s s' := by
  refine .position (parameterMode_foretells.bind fun mode _ _ => ?_)
  refine (Foretells.expectDetailed (by decide) _).bind fun name _ _ => ?_
  refine (Foretells.expectDetailed (by decide) _).bind fun _ _ _ => ?_
  exact (hi.type _ _).bind fun type _ _ => .spanFrom (.pure _)

theorem resultType?_foretells (hi : inner.Foretells f inner') :
    f.Foretells 0 inner.resultType? inner'.resultType? s s' := by
  refine .kind ?_
  split
  · next hk =>
    have hne : s.kind ≠ .eof := by obtain h | h := hk <;> simp [h]
    exact (Foretells.advance hne).weaken.bind fun _ t t' =>
      (hi.type t t').bind fun result _ _ => .pure _
  · exact .pure _

theorem signature_foretells (hi : inner.Foretells f inner') :
    f.Foretells 0 inner.signature inner'.signature s s' := by
  refine (Foretells.parenthesised fun _ _ => parameter_foretells hi).bind fun parameters _ _ => ?_
  refine (resultType?_foretells hi).bind fun result? _ _ => ?_
  exact (block_foretells hi).bind fun body _ _ => .pure _

/-! ## Expressions -/

theorem primary_foretells (hk : s.kind ≠ .eof) : f.Foretells 0 primary primary s s' := by
  refine .current ?_
  split
  · exact (Foretells.advance hk).weaken.bind fun _ _ _ => .pure _
  · exact .failWith _

theorem arguments_foretells (hi : inner.Foretells f inner') :
    f.Foretells 0 inner.arguments inner'.arguments s s' :=
  .parenthesised (hi.expr .default)

theorem lambda_foretells (hi : inner.Foretells f inner') (hk : s.kind ≠ .eof) :
    f.Foretells 1 inner.lambda inner'.lambda s s' := by
  refine .advance_bind hk fun _ => ?_
  exact (signature_foretells hi).bind fun signature _ _ => .spanFrom (.pure _)

theorem nudBy_foretells (hi : inner.Foretells f inner') {rule : NudRule} (hk : s.kind ≠ .eof) :
    f.Foretells 0 (inner.nudBy rule) (inner'.nudBy rule) s s' := by
  cases rule with
  | primary => exact primary_foretells hk
  | unary =>
    refine (Foretells.advance_bind hk fun _ => ?_).weaken
    exact (hi.expr .unary _ _).bind fun operand _ _ => .pure _
  | group =>
    refine (Foretells.advance_bind hk fun _ => ?_).weaken
    refine (hi.expr .default _ _).bind fun expr _ _ => ?_
    exact (Foretells.expect (by decide)).bind fun _ _ _ => .spanFrom (.pure _)
  | new =>
    refine (Foretells.advance_bind hk fun _ => ?_).weaken
    refine (Foretells.expectDetailed (by decide) _).bind fun name _ _ => ?_
    exact (arguments_foretells hi).bind fun arguments _ _ => .spanFrom (.pure _)
  | lambda => exact (lambda_foretells hi hk).weaken

theorem ledBy_foretells (hi : inner.Foretells f inner') {rule : LedRule} (left : Expr)
    (next : BindingPower) (hk : s.kind ≠ .eof) :
    f.Foretells 0 (inner.ledBy left next rule) (inner'.ledBy left next rule) s s' := by
  cases rule with
  | assignment =>
    simp only [ledBy, assignment]
    split
    · refine (Foretells.advance_bind hk fun _ => ?_).weaken
      exact (hi.expr .comma _ _).bind fun value _ _ => .pure _
    · exact .failWith _
  | binary =>
    refine (Foretells.advance_bind hk fun _ => ?_).weaken
    exact (hi.expr next _ _).bind fun right _ _ => .pure _
  | call => exact (arguments_foretells hi).bind fun arguments _ _ => .spanFrom (.pure _)
  | member =>
    refine (Foretells.advance_bind hk fun _ => ?_).weaken
    exact (Foretells.expectDetailed (by decide) _).bind fun name _ _ => .pure _

section

variable {power next : BindingPower} {left : Expr} {rule : LedRule}

/-- The loop that continues an expression ends before a token that binds too loosely. -/
theorem continueExpr_eq_ok (h : ¬ power < Grammar.standard.power s.kind) :
    inner.continueExpr .standard power left s = .ok left s := by
  rw [continueExpr]
  cases hled : Grammar.standard.led s.kind with
  | none => rfl
  | some led =>
    rw [Grammar.power_of_led hled] at h
    simp only [h, if_false]

theorem gives_continueExpr_iff {post : Expr → TokenStream → Prop}
    (hled : Grammar.standard.led s.kind = some (next, rule)) (hlt : power < next) :
    (inner.continueExpr .standard power left).Gives s post ↔
      (inner.ledBy left next rule).Gives s fun longer t =>
        (if t.size < s.size then inner.continueExpr .standard power longer
          else pure longer).Gives t post := by
  rw [Gives, continueExpr_eq_bind hled hlt]
  exact gives_bind _ _

theorem continueExpr_foretells (hi : inner.Foretells f inner') :
    f.Foretells 0 (inner.continueExpr .standard power left)
      (inner'.continueExpr .standard power left) s s' := by
  intro hs
  induction hn : s.size using Nat.strongRecOn generalizing s s' left with
  | _ n ih =>
  by_cases hpower : power < Grammar.standard.power s.kind
  · obtain ⟨⟨next, rule⟩, hled⟩ : ∃ led, Grammar.standard.led s.kind = some led := by
      rw [← Option.isSome_iff_exists, ← Option.ne_none_iff_isSome]
      exact fun hnone => Grammar.not_lt_power_of_led_eq_none hnone hpower
    rw [Grammar.power_of_led hled] at hpower
    have hne : s.kind ≠ .eof := fun heof => by simp [heof, Grammar.standard] at hled
    have hled' : f.Alike s s' → Grammar.standard.led s'.kind = some (next, rule) :=
      fun halike => halike.kind ▸ hled
    rw [continueExpr_eq_bind hled hpower]
    refine .chain (ledBy_foretells hi left next hne hs) (fun halike hfalse => ?_)
      fun longer t hfirst => ?_
    · exact (gives_continueExpr_iff (hled' halike) hpower).2
        (hfalse.mono fun _ _ hfalse => hfalse.elim)
    -- both sides have got on or neither has
    by_cases hlt : t.size < s.size
    · simp only [hlt, if_true]
      refine .after (g := fun longer => inner'.continueExpr .standard power longer) hfirst
        (fun ht t' => ih t.size (hn ▸ hlt) ht rfl) fun post halike _ hpost => ?_
      refine (gives_continueExpr_iff (hled' halike) hpower).2 (hpost.mono ?_)
      rintro e t' ⟨halike', rfl, he⟩
      rwa [if_pos ((halike.size_lt_iff halike').2 hlt)]
    · simp only [hlt, if_false]
      refine .after (g := fun longer => pure longer) hfirst (fun ht t' => Foretells.pure longer ht)
        fun post halike _ hpost => ?_
      refine (gives_continueExpr_iff (hled' halike) hpower).2 (hpost.mono ?_)
      rintro e t' ⟨halike', rfl, he⟩
      rwa [if_neg (mt (halike.size_lt_iff halike').1 hlt)]
  · rw [continueExpr_eq_ok hpower]
    refine ⟨hs, Nat.le_refl _, fun halike _ => ?_⟩
    rw [Gives, continueExpr_eq_ok (halike.kind ▸ hpower)]
    exact ⟨rfl, halike⟩

end

theorem exprAt_foretells (hi : inner.Foretells f inner') (power : BindingPower) :
    f.Foretells 0 (inner.exprAt .standard power) (inner'.exprAt .standard power) s s' := by
  refine .kind ?_
  split
  · next rule hrule =>
    have hne : s.kind ≠ .eof := fun heof => by simp [heof, Grammar.standard] at hrule
    exact (nudBy_foretells hi hne).bind fun left _ _ => continueExpr_foretells hi
  · exact .failWith _

/-- An expression that starts with `fun` passes the word. -/
theorem exprAt_lambda_foretells (hi : inner.Foretells f inner') (power : BindingPower)
    (hk : s.kind = .kwFun) :
    f.Foretells 1 (inner.exprAt .standard power) (inner'.exprAt .standard power) s s' := by
  refine .kind ?_
  have hrule : Grammar.standard.nud s.kind = some .lambda := by rw [hk]; rfl
  simp only [hrule]
  exact (lambda_foretells hi (by simp [hk])).bind fun left _ _ => continueExpr_foretells hi

/-! ## Statements -/

theorem expressionStmt_foretells (hi : inner.Foretells f inner') :
    f.Foretells 0 inner.expressionStmt inner'.expressionStmt s s' := by
  refine (hi.expr .default _ _).bind fun expr _ _ => ?_
  exact (Foretells.expect (by decide)).bind fun _ _ _ => .spanFrom (.pure _)

theorem after?_foretells {α : Type} {mark : Kind} {read read' : Parse α} (hmark : mark ≠ .eof)
    (hread : ∀ t t', f.Foretells 0 read read' t t') :
    f.Foretells 0 (after? mark read) (after? mark read') s s' := by
  refine .kind ?_
  split
  · next hk =>
    exact (Foretells.advance (hk ▸ hmark)).weaken.bind fun _ t t' =>
      (hread t t').bind fun a _ _ => .pure _
  · exact .pure _

theorem varDecl_foretells (hi : inner.Foretells f inner') (hk : s.kind ≠ .eof) :
    f.Foretells 0 inner.varDecl inner'.varDecl s s' := by
  refine (Foretells.advance_bind hk fun _ => ?_).weaken
  refine (Foretells.expectDetailed (by decide) _).bind fun name _ _ => ?_
  refine (after?_foretells (by decide) hi.type).bind fun type? _ _ => ?_
  refine (after?_foretells (by decide) (hi.expr .default)).bind fun value? _ _ => ?_
  exact (Foretells.expect (by decide)).bind fun _ _ _ => .spanFrom (.pure _)

/-- Whether `fun` begins a declaration is decided by the token behind it. -/
theorem fnDecl_foretells (hi : inner.Foretells f inner') (hk : s.kind = .kwFun) :
    f.Foretells 1 inner.fnDecl inner'.fnDecl s s' := by
  intro hs
  have hne : s.kind ≠ .eof := by simp [hk]
  have hread : f.Foretells 1 inner.fnDecl inner'.fnDecl s s' := by
    refine .peek (fun _ kind => kind = .identifier) (fun hname => ?_) fun _ => ?_
    · refine .advance_bind hne fun _ => ?_
      have hnext : s.next.kind ≠ .eof := by simp [← hs.kind_next hne, hname]
      refine (Foretells.advance_bind hnext fun _ => ?_).weaken
      exact (signature_foretells hi).bind fun signature _ _ => .spanFrom (.pure _)
    · refine (hi.lambda .default _ _ hk).bind fun expr _ _ => ?_
      exact (Foretells.expect (by decide)).bind fun _ _ _ => .spanFrom (.pure _)
  exact hread hs

/-- What stands in a class is known by its first token, and after `fun` by the second. -/
theorem classMember_eq (inner : Inner) : inner.classMember = kind >>= fun k =>
    if k = .kwVal ∨ k = .kwVar then inner.varDecl
    else if k = .kwFun then get >>= fun stream =>
      if stream.peek 1 = .identifier then inner.fnDecl
      else unexpectedDetailed "expected member declaration in class body"
    else unexpectedDetailed "expected member declaration in class body" := by
  funext s
  obtain ⟨previous?, ⟨k, value, span⟩, ahead, size, hsize⟩ := s
  cases k <;> rfl

/-- A class misses a member before a `fun` because of the token behind it. -/
theorem nameless_foretells (hk : s.kind = .kwFun) (hname : s.peek 1 ≠ .identifier) :
    f.Foretells 1
      (unexpectedDetailed "expected member declaration in class body" : Parse Stmt)
      (unexpectedDetailed "expected member declaration in class body") s s' := by
  intro hs _
  have hlookahead : Diagnostic.lookahead ⟨.unexpectedTokenDetailed s.current.value
      "expected member declaration in class body", s.current.span⟩ s.remaining = 1 :=
    Diagnostic.lookahead_eq_one hs hk hname (by simp [Cause.isMissingMember])
  refine ⟨Nat.add_le_add_left ?_ _, fun _ _ => gives_unexpectedDetailed _⟩
  exact Nat.le_of_eq hlookahead.symm

theorem classMember_foretells (hi : inner.Foretells f inner') :
    f.Foretells 0 inner.classMember inner'.classMember s s' := by
  rw [classMember_eq, classMember_eq]
  refine .kind ?_
  split
  · next hk => exact varDecl_foretells hi (by obtain h | h := hk <;> simp [h])
  · split
    · next hk =>
      exact (Foretells.peek (fun _ kind => kind = .identifier)
        (fun _ => fnDecl_foretells hi hk) fun hname => nameless_foretells hk hname).weaken
    · exact .failWith _

theorem classBody_foretells (hi : inner.Foretells f inner') (make : List Stmt → Span → Stmt)
    (start : Position) :
    let body (inner : Inner) : Parse Stmt := do
      let _ ← expect .openCurly
      let members ← repeatUntil (· == .closeCurly) inner.classMember
      let _ ← expect .closeCurly
      return make members (← spanFrom start)
    f.Foretells 0 (body inner) (body inner') s s' := by
  refine (Foretells.expect (by decide)).bind fun _ _ _ => ?_
  refine (Foretells.repeatUntil fun _ _ => classMember_foretells hi).bind fun members _ _ => ?_
  exact (Foretells.expect (by decide)).bind fun _ _ _ => .spanFrom (.pure _)

theorem classDecl_foretells (hi : inner.Foretells f inner') (hk : s.kind ≠ .eof) :
    f.Foretells 0 inner.classDecl inner'.classDecl s s' := by
  refine (Foretells.advance_bind hk fun _ => ?_).weaken
  refine (Foretells.expectDetailed (by decide) _).bind fun name _ _ => .kind ?_
  split
  · exact (Foretells.parenthesised fun _ _ => parameter_foretells hi).bind fun parameters _ _ =>
      classBody_foretells hi (fun members span =>
        ⟨.classDecl name.value name.span parameters members, span⟩) _
  · exact (Foretells.pure []).bind fun parameters _ _ =>
      classBody_foretells hi (fun members span =>
        ⟨.classDecl name.value name.span parameters members, span⟩) _

theorem ret_foretells (hi : inner.Foretells f inner') (hk : s.kind ≠ .eof) :
    f.Foretells 0 inner.ret inner'.ret s s' := by
  refine (Foretells.advance_bind hk fun _ => .kind ?_).weaken
  split
  · refine (Foretells.pure none).bind fun value? _ _ => ?_
    exact (Foretells.expect (by decide)).bind fun _ _ _ => .spanFrom (.pure _)
  · refine (hi.expr .default _ _).map.bind fun value? _ _ => ?_
    exact (Foretells.expect (by decide)).bind fun _ _ _ => .spanFrom (.pure _)

theorem branch_foretells (hi : inner.Foretells f inner') (hk : s.kind ≠ .eof) :
    f.Foretells 0 inner.branch inner'.branch s s' := by
  refine (Foretells.advance_bind hk fun _ => ?_).weaken
  refine (hi.expr .default _ _).bind fun condition _ _ => ?_
  refine (hi.stmt _ _).bind fun thenBody _ _ => ?_
  exact (after?_foretells (by decide) hi.stmt).bind fun elseBody? _ _ => .spanFrom (.pure _)

theorem loop_foretells (hi : inner.Foretells f inner') (hk : s.kind ≠ .eof) :
    f.Foretells 0 inner.loop inner'.loop s s' := by
  refine (Foretells.advance_bind hk fun _ => ?_).weaken
  refine (hi.expr .default _ _).bind fun condition _ _ => ?_
  exact (hi.stmt _ _).bind fun body _ _ => .spanFrom (.pure _)

theorem print_foretells (hi : inner.Foretells f inner') (hk : s.kind ≠ .eof) :
    f.Foretells 0 inner.print inner'.print s s' := by
  refine (Foretells.advance_bind hk fun _ => ?_).weaken
  refine (hi.expr .default _ _).bind fun value _ _ => ?_
  exact (Foretells.expect (by decide)).bind fun _ _ _ => .spanFrom (.pure _)

theorem stmtBy_foretells (hi : inner.Foretells f inner') {rule : StmtRule}
    (hrule : Grammar.standard.stmt s.kind = some rule) :
    f.Foretells 0 (inner.stmtBy rule) (inner'.stmtBy rule) s s' := by
  have hk := Grammar.standard_stmt hrule
  have hne : s.kind ≠ .eof := fun heof => by simp [heof, Grammar.standard] at hrule
  cases rule with
  | varDecl => exact varDecl_foretells hi hne
  | classDecl => exact classDecl_foretells hi hne
  | fnDecl => exact (fnDecl_foretells hi hk).weaken
  | ret => exact ret_foretells hi hne
  | branch => exact branch_foretells hi hne
  | loop => exact loop_foretells hi hne
  | print => exact print_foretells hi hne
  | block => exact (block_foretells hi).bind fun block _ _ => .pure _

theorem stmtAt_foretells (hi : inner.Foretells f inner') :
    f.Foretells 0 (inner.stmtAt .standard) (inner'.stmtAt .standard) s s' := by
  refine .kind ?_
  split
  · next rule hrule => exact stmtBy_foretells hi hrule
  · exact expressionStmt_foretells hi

end Inner

/-! ## All levels -/

namespace Grammar

/-- Under any two limits the readers on either side of a fork read alike. With no levels left on
one side, nothing is told about it or by it. -/
theorem inner_foretells (f : Fork) (limit limit' room room' : Nat) :
    (standard.inner limit room).Foretells f (standard.inner limit' room') := by
  induction room generalizing room' with
  | zero =>
    have hsilent : ∀ {α : Type} {n : Nat} {p : Parse α} {s s' : TokenStream},
        f.Foretells n (failWith fun _ => .nestingTooDeep limit) p s s' :=
      fun _ hnesting => absurd ⟨limit, rfl⟩ hnesting
    exact ⟨fun _ _ => hsilent, fun _ _ _ => hsilent, fun _ _ _ _ => hsilent, fun _ _ => hsilent⟩
  | succ room ih =>
    have hstep : ∀ room', (standard.inner limit (room + 1)).Foretells f
        (standard.inner limit' (room' + 1)) := fun room' =>
      ⟨fun _ _ => Inner.stmtAt_foretells (ih room'),
        fun power _ _ => Inner.exprAt_foretells (ih room') power,
        fun power _ _ => Inner.exprAt_lambda_foretells (ih room') power,
        fun _ _ => Inner.typeAt_foretells (ih room')⟩
    cases room' with
    | succ room' => exact hstep room'
    | zero =>
      -- the first side may go on, and the other one stops in any case
      have hstops : ∀ {α : Type} {n : Nat} {p p' : Parse α} {s s' : TokenStream},
          f.Foretells n p p' s s' →
            f.Foretells n p (failWith fun _ => .nestingTooDeep limit') s s' :=
        fun h hs => .transfer (h hs) fun _ _ _ _ => gives_failWith _
      have hi := hstep 0
      exact ⟨fun s s' => hstops (hi.stmt s s'), fun power s s' => hstops (hi.expr power s s'),
        fun power s s' hk => hstops (hi.lambda power s s' hk), fun s s' => hstops (hi.type s s')⟩

/-- Under any two limits a program is read alike before a fork. -/
theorem program_foretells (f : Fork) (limit limit' : Nat) (s s' : TokenStream) :
    f.Foretells 0 (standard.program limit) (standard.program limit') s s' := by
  have hi := inner_foretells f limit limit' limit limit'
  refine .position ((Foretells.repeatUntil hi.stmt).bind fun body _ _ => ?_)
  exact .position (.pure _)

end Grammar

end Nominal
