import Nominal.Proofs.Typing.Closed
import Nominal.Proofs.Typing.Levels.Statements

/-!
# Trees under a higher limit

What a tree needs is counted by its levels and by the classes around its members: a check goes one
level further in with each part that is one level further in, and also with each member, which the
parser reads on the level of its class. A check of a tree is widened by a higher limit
(`Stmt.check_widens`), and levels are only scarce where the current limit leaves fewer than that.
-/

namespace Nominal

open Check Context

variable {scarce : Prop} {l n : Nat}

namespace Context.Allows

variable {ctx : Context} {span : Span}

/-- A part of a tree one level further in. -/
theorem expr (h : ctx.Allows scarce l n) (e : Expr) (hn : e.nesting + e.classDepth ≤ n)
    (he : ∀ {ctx : Context} {n : Nat}, ctx.Allows scarce l n → e.nesting + e.classDepth ≤ n + 1 →
      Widens scarce (e.check ctx) (e.check (ctx.allowing l))) :
    Widens scarce (ctx.nested e.span e.check) ((ctx.allowing l).nested e.span e.check) := by
  have hpos := e.nesting_pos
  exact .nested e.span h (by omega) fun ctx hctx => he hctx (by omega)

theorem stmt (h : ctx.Allows scarce l n) (s : Stmt) (hn : s.nesting + s.classDepth ≤ n)
    (hs : ∀ {ctx : Context} {n : Nat}, ctx.Allows scarce l n → s.nesting + s.classDepth ≤ n + 1 →
      Widens scarce (s.check ctx) (s.check (ctx.allowing l))) :
    Widens scarce (ctx.nested s.span s.check) ((ctx.allowing l).nested s.span s.check) := by
  have hpos := s.nesting_pos
  exact .nested s.span h (by omega) fun ctx hctx => hs hctx (by omega)

end Context.Allows

section

variable {e : Expr} {ctx : Context} (howner : e.form.OwnerHas fun owner =>
  Widens scarce (owner.check ctx) (owner.check (ctx.allowing l)))
include howner

theorem checkTarget_widens :
    Widens scarce (e.checkTarget ctx) (e.checkTarget (ctx.allowing l)) := by
  obtain ⟨form, span⟩ := e
  cases form with
  | symbol name => exact variableTarget_widens name
  | member owner name nameSpan => exact memberTarget_widens name nameSpan howner
  | _ => exact .fail rfl span

theorem checkCall_widens (he : Widens scarce (e.check ctx) (e.check (ctx.allowing l)))
    {arguments arguments' : Arguments} (harguments : arguments.Widens scarce arguments')
    (span : Span) :
    Widens scarce (e.checkCall arguments span ctx)
      (e.checkCall arguments' span (ctx.allowing l)) := by
  obtain ⟨form, calleeSpan⟩ := e
  cases form with
  | symbol name => exact callSymbol_widens name calleeSpan harguments
  | member owner name nameSpan =>
    exact callMember_widens name nameSpan calleeSpan howner harguments
  | _ => exact he.bind fun callee => callValue_widens callee callee.type.name span harguments

end

/-- The arguments of a call, when each way of checking them is widened. -/
theorem arguments_widens {es : List Expr} {ctx : Context}
    (heach : Widens scarce (Expr.checkEach es ctx) (Expr.checkEach es (ctx.allowing l)))
    (hinto : ∀ slots, Widens scarce (Expr.checkInto es ctx slots)
      (Expr.checkInto es (ctx.allowing l) slots)) :
    Arguments.Widens scarce ⟨es.length, Expr.checkEach es ctx, Expr.checkInto es ctx⟩
      ⟨es.length, Expr.checkEach es (ctx.allowing l), Expr.checkInto es (ctx.allowing l)⟩ :=
  ⟨rfl, heach, hinto⟩

mutual

/-- An expression on the current level, with levels left for its parts. -/
theorem Expr.check_widens : ∀ (e : Expr) {ctx : Context} {n : Nat}, ctx.Allows scarce l n →
    e.nesting + e.classDepth ≤ n + 1 → Widens scarce (e.check ctx) (e.check (ctx.allowing l))
  | ⟨form, span⟩, _, _, h, hn => form.check_widens span h hn

theorem ExprForm.check_widens : ∀ (form : ExprForm) (span : Span) {ctx : Context} {n : Nat},
    ctx.Allows scarce l n → form.nesting + form.classDepth ≤ n + 1 →
      Widens scarce (form.check span ctx) (form.check span (ctx.allowing l))
  | .number _, _, _, _, _, _ => .pure _
  | .text _, _, _, _, _, _ => .pure _
  | .bool _, _, _, _, _, _ => .pure _
  | .symbol name, _, _, _, _, _ => symbol_widens name
  | .member owner name nameSpan, _, _, _, h, hn =>
    member_widens name nameSpan (owner.check_widens h hn)
  | .assign target value, _, _, _, h, hn => by
    simp only [ExprForm.nesting, ExprForm.classDepth] at hn
    exact assign_widens value.span (checkTarget_widens (target.owner_widens h (by omega)))
      (h.expr value (by omega) value.check_widens)
  | .binary left operator right, _, _, _, h, hn => by
    simp only [ExprForm.nesting, ExprForm.classDepth] at hn
    exact binary_widens operator (left.check_widens h (by omega))
      (h.expr right (by omega) right.check_widens)
  | .unary operator operand, _, _, _, h, hn => by
    simp only [ExprForm.nesting, ExprForm.classDepth] at hn
    exact unary_widens operator (h.expr operand (by omega) operand.check_widens)
  | .call callee arguments, span, _, _, h, hn => by
    simp only [ExprForm.nesting, ExprForm.classDepth] at hn
    -- the callee is on the level of the call, so it may need one level more than the arguments
    exact checkCall_widens (callee.owner_widens h (by omega)) (callee.check_widens h (by omega))
      (arguments_widens (Expr.checkEach_widens arguments h (by omega))
        fun slots => Expr.checkInto_widens arguments slots h (by omega)) span
  | .new className arguments, _, _, _, h, hn => by
    simp only [ExprForm.nesting, ExprForm.classDepth] at hn
    exact instantiate_widens className
      (arguments_widens (Expr.checkEach_widens arguments h (by omega))
        fun slots => Expr.checkInto_widens arguments slots h (by omega))
  | .lambda ⟨parameters, result?, ⟨body, bodySpan⟩⟩, _, _, _, h, hn => by
    simp only [ExprForm.nesting, ExprForm.classDepth] at hn
    exact lambda_widens parameters result? fun outer function? className? =>
      Stmt.checkAll_widens body (h.elsewhere outer function? className?) (by omega)
  | .group inner, _, _, _, h, hn => by
    simp only [ExprForm.nesting, ExprForm.classDepth] at hn
    exact h.expr inner (by omega) inner.check_widens

theorem Expr.owner_widens : ∀ (e : Expr) {ctx : Context} {n : Nat}, ctx.Allows scarce l n →
    e.nesting + e.classDepth ≤ n + 1 → e.form.OwnerHas fun owner =>
      Widens scarce (owner.check ctx) (owner.check (ctx.allowing l))
  | ⟨.member owner _ _, _⟩, _, _, h, hn => owner.check_widens h hn
  | ⟨.number _, _⟩, _, _, _, _ | ⟨.text _, _⟩, _, _, _, _ | ⟨.bool _, _⟩, _, _, _, _
  | ⟨.symbol _, _⟩, _, _, _, _ | ⟨.assign _ _, _⟩, _, _, _, _ | ⟨.binary _ _ _, _⟩, _, _, _, _
  | ⟨.unary _ _, _⟩, _, _, _, _ | ⟨.call _ _, _⟩, _, _, _, _ | ⟨.new _ _, _⟩, _, _, _, _
  | ⟨.lambda _, _⟩, _, _, _, _ | ⟨.group _, _⟩, _, _, _, _ => trivial

theorem Expr.checkEach_widens : ∀ (es : List Expr) {ctx : Context} {n : Nat},
    ctx.Allows scarce l n → Expr.eachNesting es + Expr.eachClassDepth es ≤ n →
      Widens scarce (Expr.checkEach es ctx) (Expr.checkEach es (ctx.allowing l))
  | [], _, _, _, _ => .pure _
  | e :: es, _, _, h, hn => by
    simp only [Expr.eachNesting, Expr.eachClassDepth] at hn
    refine .bind (h.expr e (by omega) e.check_widens) fun typed => ?_
    exact .bind (Expr.checkEach_widens es h (by omega)) fun rest => .pure _

theorem Expr.checkInto_widens : ∀ (es : List Expr) (slots : List (Slot Ty)) {ctx : Context}
    {n : Nat}, ctx.Allows scarce l n → Expr.eachNesting es + Expr.eachClassDepth es ≤ n →
      Widens scarce (Expr.checkInto es ctx slots) (Expr.checkInto es (ctx.allowing l) slots)
  | [], _, _, _, _, _ => .pure _
  | e :: es, [], _, _, _, _ => .pure _
  | e :: es, slot :: slots, _, _, h, hn => by
    simp only [Expr.eachNesting, Expr.eachClassDepth] at hn
    refine .bind (h.expr e (by omega) e.check_widens) fun typed => .expect_bind ?_
    exact .bind (Expr.checkInto_widens es slots h (by omega)) fun rest => .pure _

/-- A statement on the current level, with levels left for its parts. -/
theorem Stmt.check_widens : ∀ (s : Stmt) {ctx : Context} {n : Nat}, ctx.Allows scarce l n →
    s.nesting + s.classDepth ≤ n + 1 → Widens scarce (s.check ctx) (s.check (ctx.allowing l))
  | ⟨form, span⟩, _, _, h, hn => form.check_widens span h hn

theorem StmtForm.check_widens : ∀ (form : StmtForm) (span : Span) {ctx : Context} {n : Nat},
    ctx.Allows scarce l n → form.nesting + form.classDepth ≤ n + 1 →
      Widens scarce (form.check span ctx) (form.check span (ctx.allowing l))
  | .expression e, _, _, _, h, hn => by
    simp only [StmtForm.nesting, StmtForm.classDepth] at hn
    exact .bind (h.expr e (by omega) e.check_widens) fun typed => .pure _
  | .varDecl _ _ mode type? (some value), _, _, _, h, hn => by
    simp only [StmtForm.nesting, StmtForm.classDepth] at hn
    exact varDecl_some_widens mode type? (h.expr value (by omega) value.check_widens)
  | .varDecl _ _ mode type? none, _, _, _, _, _ => varDecl_none_widens mode type?
  | .classDecl _ _ parameters members, _, _, _, h, hn => by
    simp only [StmtForm.nesting, StmtForm.classDepth] at hn
    exact classDecl_widens parameters fun c outer function? className? =>
      Stmt.checkMembers_widens members parameters c (h.elsewhere outer function? className?)
        (by omega)
  | .fnDecl _ _ ⟨parameters, result?, ⟨body, _⟩⟩, _, _, _, h, hn => by
    simp only [StmtForm.nesting, StmtForm.classDepth] at hn
    exact fnDecl_widens parameters result? fun outer function? className? =>
      Stmt.checkAll_widens body (h.elsewhere outer function? className?) (by omega)
  | .ret (some value), _, _, _, h, hn => by
    simp only [StmtForm.nesting, StmtForm.classDepth] at hn
    exact ret_some_widens (h.expr value (by omega) value.check_widens)
  | .ret none, _, _, _, _, _ => ret_none_widens
  | .block ⟨body, _⟩, _, _, _, h, hn => by
    simp only [StmtForm.nesting, StmtForm.classDepth] at hn
    exact .bind (.inNewFrame fun outer function? className? =>
      Stmt.checkAll_widens body (h.elsewhere outer function? className?) (by omega))
      fun typed => .pure _
  | .branch condition thenBody (some elseBody), _, _, _, h, hn => by
    simp only [StmtForm.nesting, StmtForm.classDepth] at hn
    refine .bind (h.expr condition (by omega) condition.check_widens) fun condition => ?_
    refine .bind (.inNewFrame fun outer function? className? =>
      (h.elsewhere outer function? className?).stmt thenBody (by omega) thenBody.check_widens)
      fun first => ?_
    exact .bind (.inNewFrame fun outer function? className? =>
      (h.elsewhere outer function? className?).stmt elseBody (by omega) elseBody.check_widens)
      fun second => .pure _
  | .branch condition thenBody none, _, _, _, h, hn => by
    simp only [StmtForm.nesting, StmtForm.classDepth] at hn
    refine .bind (h.expr condition (by omega) condition.check_widens) fun condition => ?_
    exact .bind (.inNewFrame fun outer function? className? =>
      (h.elsewhere outer function? className?).stmt thenBody (by omega) thenBody.check_widens)
      fun first => .pure _
  | .loop condition body, _, _, _, h, hn => by
    simp only [StmtForm.nesting, StmtForm.classDepth] at hn
    refine .bind (h.expr condition (by omega) condition.check_widens) fun condition => ?_
    exact .bind (.inNewFrame fun outer function? className? =>
      (h.elsewhere outer function? className?).stmt body (by omega) body.check_widens)
      fun body => .pure _
  | .print value, _, _, _, h, hn => by
    simp only [StmtForm.nesting, StmtForm.classDepth] at hn
    exact .bind (h.expr value (by omega) value.check_widens) fun typed => .pure _

theorem Stmt.checkAll_widens : ∀ (stmts : List Stmt) {ctx : Context} {n : Nat},
    ctx.Allows scarce l n → Stmt.eachNesting stmts + Stmt.eachClassDepth stmts ≤ n →
      Widens scarce (Stmt.checkAll stmts ctx) (Stmt.checkAll stmts (ctx.allowing l))
  | [], _, _, _, _ => .pure _
  | s :: rest, _, _, h, hn => by
    simp only [Stmt.eachNesting, Stmt.eachClassDepth] at hn
    refine .bind (h.stmt s (by omega) s.check_widens) fun typed => ?_
    exact .bind (Stmt.checkAll_widens rest h (by omega)) fun rest => .pure _

/-- The members of a class. Each is one level further in than the class, where the parser reads it
on the level of the class: this is the level that the class around it counts for. -/
theorem Stmt.checkMembers_widens : ∀ (members : List Stmt) (parameters : List Parameter)
    (c : ClassRef) {ctx : Context} {n : Nat}, ctx.Allows scarce l n →
      Stmt.eachNesting members + Stmt.membersClassDepth members ≤ n + 1 →
        Widens scarce (Stmt.checkMembers members parameters c ctx)
          (Stmt.checkMembers members parameters c (ctx.allowing l))
  | [], _, _, _, _, _, _ => .pure _
  | s :: rest, parameters, c, _, _, h, hn => by
    simp only [Stmt.eachNesting, Stmt.membersClassDepth] at hn
    refine .bind (expectNoParameter_widens parameters s) fun _ => ?_
    refine .bind (h.stmt s (by omega) s.check_widens) fun typed => ?_
    refine .bind (enterMember_widens c s typed) fun _ => ?_
    exact .bind (Stmt.checkMembers_widens rest parameters c h (by omega)) fun rest => .pure _

end

end Nominal
