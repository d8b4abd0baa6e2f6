import Nominal.Proofs.Syntax.Course.Follows
import Nominal.Proofs.Syntax.Sound

/-!
# The rules with one level for all

Each rule read with one level for all follows the same rule read from the stream alone, when their
readers of nested parts do (`Course.Parts.Follow`), whatever the table of rules is. A rule takes a
token if it gives a value: one by itself, or through a nested part, or through a mark that it
expects. At the end token the current token can be passed without being taken, so passing it does
not count.
-/

namespace Nominal

open Parse

namespace Course

variable {α : Type} {q : Course α} {p : Parse α} {f : Grammar → Course α} {r : Reader} {n : Nat}
  {takes : Bool}

theorem Follows.weaken (h : q.Follows n r p true) : q.Follows n r p takes :=
  fun s hs => (h s hs).weaken

theorem Follows.grammar (h : (f r.grammar).Follows n r p takes) :
    (Course.grammar >>= f).Follows n r p takes := fun s hs =>
  ⟨(h s hs).agrees, (h s hs).moves⟩

theorem follows_unexpected :
    Follows (liftM (unexpected : Parse α)) n r unexpected takes :=
  follows_failWith fun t => .unexpectedToken t.value

theorem follows_unexpectedDetailed (detail : String) :
    Follows (liftM (unexpectedDetailed detail : Parse α)) n r (unexpectedDetailed detail) takes :=
  follows_failWith fun t => .unexpectedTokenDetailed t.value detail

namespace Parts

/-- The readers of nested parts do what those of streams do, and each takes a token. -/
structure Follow (parts : Parts) (r : Reader) (inner : Inner) : Prop where
  stmt : parts.stmt.Follows parts.rounds r inner.stmt true
  expr : ∀ power, (parts.expr power).Follows parts.rounds r (inner.expr power) true
  type : parts.type.Follows parts.rounds r inner.type true

variable {parts : Parts} {inner : Inner}

/-! ## Types -/

theorem functionType_follows (h : parts.Follow r inner) :
    parts.functionType.Follows parts.rounds r inner.functionType true := by
  refine follows_advance.bind fun word => h.type.weaken.parenthesised.andThen fun parameters => ?_
  refine (follows_expectDetailed _ (by decide)).andThen fun arrow => h.type.andThen fun result => ?_
  exact follows_spanFrom _ _

theorem namedType_follows (h : parts.Follow r inner) :
    parts.namedType.Follows parts.rounds r inner.namedType true := by
  refine .look id fun stream => .ite (functionType_follows h) ?_
  exact (follows_expect (by decide)).andThen fun token => .pure _

theorem typeBy_follows (h : parts.Follow r inner) (rule : TypeRule) :
    (parts.typeBy rule).Follows parts.rounds r (inner.typeBy rule) true := by
  cases rule with
  | named => exact namedType_follows h
  | function => exact functionType_follows h

theorem typeAt_follows (h : parts.Follow r inner) :
    parts.typeAt.Follows parts.rounds r (inner.typeAt r.grammar) true := by
  refine .grammar (.look TokenStream.kind fun k => ?_)
  cases r.grammar.type k with
  | none => exact follows_unexpected
  | some rule => exact typeBy_follows h rule

/-! ## Functions and blocks -/

theorem blockItem_follows (h : parts.Follow r inner) :
    parts.blockItem.Follows parts.rounds r (kind >>= fun k =>
      if k = .eof then unexpectedDetailed "expected `\x7d` to close the block"
      else inner.stmt) true :=
  .look TokenStream.kind fun _ => .ite (follows_unexpectedDetailed _) h.stmt

theorem block_follows (h : parts.Follow r inner) :
    parts.block.Follows parts.rounds r inner.block true := by
  refine (follows_expect (by decide)).andThen fun openCurly => ?_
  refine ((blockItem_follows h).repeatUntil _).bind fun body => ?_
  exact (follows_expect (by decide)).andThen fun closeCurly => follows_spanFrom _ _

theorem parameterMode_follows : parameterMode.Follows n r Inner.parameterMode false := by
  refine .look TokenStream.kind fun k => ?_
  cases k with
  | kwVar => exact follows_advance.bind fun _ => .pure _
  | kwVal => exact follows_advance.bind fun _ => .pure _
  | _ => exact .pure _

theorem parameter_follows (h : parts.Follow r inner) :
    parts.parameter.Follows parts.rounds r inner.parameter true := by
  refine .look TokenStream.position fun start => parameterMode_follows.bind fun mode => ?_
  refine (follows_expectDetailed _ (by decide)).andThen fun name => ?_
  refine (follows_expectDetailed _ (by decide)).andThen fun colon => h.type.andThen fun type => ?_
  exact follows_spanFrom _ _

theorem parameters_follows (h : parts.Follow r inner) :
    parts.parameters.Follows parts.rounds r inner.parameters true :=
  (parameter_follows h).weaken.parenthesised

theorem resultType?_follows (h : parts.Follow r inner) :
    parts.resultType?.Follows parts.rounds r inner.resultType? false := by
  refine .look TokenStream.kind fun k => .ite ?_ (.pure _)
  exact follows_advance.bind fun mark => h.type.andThen fun type => .pure _

theorem signature_follows (h : parts.Follow r inner) :
    parts.signature.Follows parts.rounds r inner.signature true := by
  refine (parameters_follows h).andThen fun parameters => ?_
  refine (resultType?_follows h).bind fun result? => ?_
  exact (block_follows h).andThen fun _ => .pure _

/-! ## Expressions -/

/-- The end token is no expression. -/
theorem kind_of_primaryForm {token : Token} {form : ExprForm}
    (h : Inner.primaryForm token = .ok form) : token.kind ≠ .eof := by
  intro heof
  unfold Inner.primaryForm at h
  rw [heof] at h
  cases h

theorem primary_follows : primary.Follows n r Inner.primary true := by
  intro s hs
  refine .look (·.current) ?_
  cases hform : Inner.primaryForm s.current with
  | error cause => exact follows_failWith _ s hs
  | ok form => exact .andThen hs (.advance hs (kind_of_primaryForm hform)) fun _ => .pure _

theorem unary_follows (h : parts.Follow r inner) :
    parts.unary.Follows parts.rounds r inner.unary true :=
  follows_advance.bind fun _ => (h.expr _).andThen fun _ => .pure _

theorem group_follows (h : parts.Follow r inner) :
    parts.group.Follows parts.rounds r inner.group true := by
  refine follows_advance.bind fun openParen => (h.expr _).andThen fun expr => ?_
  exact (follows_expect (by decide)).andThen fun closeParen => follows_spanFrom _ _

theorem arguments_follows (h : parts.Follow r inner) :
    parts.arguments.Follows parts.rounds r inner.arguments true :=
  (h.expr _).weaken.parenthesised

theorem new_follows (h : parts.Follow r inner) :
    parts.new.Follows parts.rounds r inner.new true := by
  refine follows_advance.bind fun word => ?_
  refine (follows_expectDetailed _ (by decide)).andThen fun name => ?_
  exact (arguments_follows h).andThen fun arguments => follows_spanFrom _ _

theorem lambda_follows (h : parts.Follow r inner) :
    parts.lambda.Follows parts.rounds r inner.lambda true :=
  follows_advance.bind fun _ => (signature_follows h).andThen fun _ => follows_spanFrom _ _

theorem nudBy_follows (h : parts.Follow r inner) (rule : NudRule) :
    (parts.nudBy rule).Follows parts.rounds r (inner.nudBy rule) true := by
  cases rule with
  | primary => exact primary_follows
  | unary => exact unary_follows h
  | group => exact group_follows h
  | new => exact new_follows h
  | lambda => exact lambda_follows h

theorem assignment_follows (h : parts.Follow r inner) (left : Expr) :
    (parts.assignment left).Follows parts.rounds r (inner.assignment left) true := by
  refine .ite (follows_advance.bind fun operator => ?_) (follows_unexpectedDetailed _)
  exact (h.expr _).andThen fun value => .pure _

theorem binary_follows (h : parts.Follow r inner) (left : Expr) (power : BindingPower) :
    (parts.binary left power).Follows parts.rounds r (inner.binary left power) true :=
  follows_advance.bind fun _ => (h.expr _).andThen fun _ => .pure _

theorem call_follows (h : parts.Follow r inner) (left : Expr) :
    (parts.call left).Follows parts.rounds r (inner.call left) true :=
  (arguments_follows h).andThen fun _ => follows_spanFrom _ _

theorem member_follows (left : Expr) :
    (member left).Follows n r (Inner.member left) true :=
  follows_advance.bind fun _ => (follows_expectDetailed _ (by decide)).andThen fun _ => .pure _

theorem ledBy_follows (h : parts.Follow r inner) (left : Expr) (power : BindingPower)
    (rule : LedRule) :
    (parts.ledBy left power rule).Follows parts.rounds r (inner.ledBy left power rule) true := by
  cases rule with
  | assignment => exact assignment_follows h left
  | binary => exact binary_follows h left power
  | call => exact call_follows h left
  | member => exact member_follows left

theorem continueExpr_of_stop {power : BindingPower} {left : Expr}
    (hled : ∀ next rule, r.grammar.led r.stream.kind = some (next, rule) → ¬ power < next)
    (rounds : Nat) :
    parts.continueExpr power (rounds + 1) left r = (Pure.pure left : Course Expr) r := by
  rw [continueExpr]
  refine (bind_of_ok rfl).trans ((bind_of_ok rfl).trans ?_)
  cases hrule : r.grammar.led r.stream.kind with
  | none => rfl
  | some pair =>
    dsimp only
    rw [if_neg (hled pair.1 pair.2 hrule)]

theorem continueExpr_step {power next : BindingPower} {rule : LedRule} {left : Expr}
    (hled : r.grammar.led r.stream.kind = some (next, rule)) (hlt : power < next) (rounds : Nat) :
    parts.continueExpr power (rounds + 1) left r =
      (parts.ledBy left next rule >>= parts.continueExpr power rounds) r := by
  rw [continueExpr]
  refine (bind_of_ok rfl).trans ((bind_of_ok rfl).trans ?_)
  rw [hled]
  dsimp only
  rw [if_pos hlt]

/-- The induction is on the rounds. Each rule that continues an expression takes a token, so there
are rounds enough. -/
theorem continueExpr_followsAt (h : parts.Follow r inner) (power : BindingPower) {rounds : Nat}
    {s : TokenStream} (left : Expr) (hs : s.Ends parts.rounds) (hrounds : s.size < rounds) :
    (parts.continueExpr power rounds left).FollowsAt r
      (inner.continueExpr r.grammar power left) s false := by
  induction rounds generalizing s left with
  | zero => exact absurd hrounds (Nat.not_lt_zero _)
  | succ rounds ih =>
    by_cases hled : ∃ next rule, r.grammar.led s.kind = some (next, rule) ∧ power < next
    · obtain ⟨next, rule, hrule, hlt⟩ := hled
      have hlonger : (parts.ledBy left next rule >>= parts.continueExpr power rounds).FollowsAt r
          (inner.ledBy left next rule >>= fun longer t =>
            (if t.size < s.size then inner.continueExpr r.grammar power longer
              else pure longer) t) s false := by
        refine .bind true false (fun _ => .inl rfl) (ledBy_follows h left next rule s hs) ?_
        intro longer t hon htaken
        -- so `Inner.continueExpr` goes on as well
        have hsize := htaken rfl
        refine (ih longer (hs.onward hon) (by omega)).congr rfl ?_
        rw [if_pos hsize]
      exact hlonger.congr (continueExpr_step hrule hlt rounds)
        (Inner.continueExpr_eq_bind hrule hlt)
    · have hstop : ∀ next rule, r.grammar.led s.kind = some (next, rule) → ¬ power < next :=
        fun next rule hrule hlt => hled ⟨next, rule, hrule, hlt⟩
      refine (FollowsAt.pure left).congr (continueExpr_of_stop hstop rounds) ?_
      rw [Inner.continueExpr]
      split
      · rfl
      · next next rule hrule =>
        rw [if_neg (hstop next rule hrule)]
        rfl

theorem continueExpr_follows (h : parts.Follow r inner) (power : BindingPower) (left : Expr) :
    (parts.continueExpr power parts.rounds left).Follows parts.rounds r
      (inner.continueExpr r.grammar power left) false :=
  fun _ hs => continueExpr_followsAt h power left hs hs.size_lt

theorem exprAt_follows (h : parts.Follow r inner) (power : BindingPower) :
    (parts.exprAt power).Follows parts.rounds r (inner.exprAt r.grammar power) true := by
  refine .grammar (.look TokenStream.kind fun k => ?_)
  cases r.grammar.nud k with
  | none => exact follows_unexpected
  | some rule => exact (nudBy_follows h rule).andThen (continueExpr_follows h power)

/-! ## Statements -/

theorem expressionStmt_follows (h : parts.Follow r inner) :
    parts.expressionStmt.Follows parts.rounds r inner.expressionStmt true := by
  refine (h.expr _).andThen fun expr => ?_
  exact (follows_expect (by decide)).andThen fun semicolon => follows_spanFrom _ _

theorem varDecl_follows (h : parts.Follow r inner) :
    parts.varDecl.Follows parts.rounds r inner.varDecl true := by
  refine follows_advance.bind fun first => ?_
  refine (follows_expectDetailed _ (by decide)).andThen fun name => ?_
  refine (h.type.weaken.after? .colon).bind fun type? => ?_
  refine ((h.expr _).weaken.after? .assignment).bind fun value? => ?_
  exact (follows_expect (by decide)).andThen fun semicolon => follows_spanFrom _ _

theorem fnDecl_follows (h : parts.Follow r inner) :
    parts.fnDecl.Follows parts.rounds r inner.fnDecl true := by
  refine .look id fun stream => .ite ?_ (expressionStmt_follows h)
  refine follows_advance.bind fun word => follows_advance.bind fun name => ?_
  exact (signature_follows h).andThen fun signature => follows_spanFrom _ _

theorem classMember_follows (h : parts.Follow r inner) :
    parts.classMember.Follows parts.rounds r inner.classMember true := by
  refine .look id fun stream => ?_
  generalize stream.kind = k
  cases k with
  | kwVal => exact varDecl_follows h
  | kwVar => exact varDecl_follows h
  | kwFun => exact .ite (fnDecl_follows h) (follows_unexpectedDetailed _)
  | _ => exact follows_unexpectedDetailed _

theorem classDecl_follows (h : parts.Follow r inner) :
    parts.classDecl.Follows parts.rounds r inner.classDecl true := by
  refine follows_advance.bind fun word => ?_
  refine (follows_expectDetailed _ (by decide)).andThen fun name => ?_
  refine .look TokenStream.kind fun k => .ite
    ((parameters_follows h).weaken.bind fun parameters => ?_)
    ((Follows.pure []).bind fun parameters => ?_)
  all_goals
    refine (follows_expect (by decide)).andThen fun openCurly => ?_
    refine ((classMember_follows h).repeatUntil _).bind fun members => ?_
    exact (follows_expect (by decide)).andThen fun closeCurly => follows_spanFrom _ _

theorem ret_follows (h : parts.Follow r inner) :
    parts.ret.Follows parts.rounds r inner.ret true := by
  refine follows_advance.bind fun word => .look TokenStream.kind fun k => .ite
    ((Follows.pure none).bind fun value? => ?_) (((h.expr _).weaken.map some).bind fun value? => ?_)
  all_goals exact (follows_expect (by decide)).andThen fun semicolon => follows_spanFrom _ _

theorem branch_follows (h : parts.Follow r inner) :
    parts.branch.Follows parts.rounds r inner.branch true := by
  refine follows_advance.bind fun word => (h.expr _).andThen fun condition => ?_
  refine h.stmt.andThen fun thenBody => (h.stmt.weaken.after? .kwElse).bind fun elseBody? => ?_
  exact follows_spanFrom _ _

theorem loop_follows (h : parts.Follow r inner) :
    parts.loop.Follows parts.rounds r inner.loop true := by
  refine follows_advance.bind fun word => (h.expr _).andThen fun condition => ?_
  exact h.stmt.andThen fun _ => follows_spanFrom _ _

theorem print_follows (h : parts.Follow r inner) :
    parts.print.Follows parts.rounds r inner.print true := by
  refine follows_advance.bind fun word => (h.expr _).andThen fun value => ?_
  exact (follows_expect (by decide)).andThen fun semicolon => follows_spanFrom _ _

theorem blockStmt_follows (h : parts.Follow r inner) :
    parts.blockStmt.Follows parts.rounds r inner.blockStmt true :=
  (block_follows h).andThen fun _ => .pure _

theorem stmtBy_follows (h : parts.Follow r inner) (rule : StmtRule) :
    (parts.stmtBy rule).Follows parts.rounds r (inner.stmtBy rule) true := by
  cases rule with
  | varDecl => exact varDecl_follows h
  | classDecl => exact classDecl_follows h
  | fnDecl => exact fnDecl_follows h
  | ret => exact ret_follows h
  | branch => exact branch_follows h
  | loop => exact loop_follows h
  | print => exact print_follows h
  | block => exact blockStmt_follows h

theorem stmtAt_follows (h : parts.Follow r inner) :
    parts.stmtAt.Follows parts.rounds r (inner.stmtAt r.grammar) true := by
  refine .grammar (.look TokenStream.kind fun k => ?_)
  cases r.grammar.stmt k with
  | none => exact expressionStmt_follows h
  | some rule => exact stmtBy_follows h rule

end Parts

end Course

end Nominal
