import Nominal.Proofs.Typing.Closed
import Nominal.Proofs.Typing.Mirrors.Statements

/-!
# Checked trees mirror what was written

The rules put together along the tree: what checking gives for an expression or a statement mirrors
it, and when it fails, the diagnostic stands at a span that the tree keeps (`Expr.check_renders`,
`Stmt.check_renders`). To say so for every part, the spans of a tree are only asked to be places of
some kind, and this is handed down to the parts.
-/

namespace Nominal

open Check Context

variable {place : Span → Prop}

theorem Expr.place_span {e : Expr} (h : e.layout.All place) : place e.span := by
  obtain ⟨form, span⟩ := e
  exact h.1

theorem Stmt.place_span {s : Stmt} (h : s.layout.All place) : place s.span := by
  obtain ⟨form, span⟩ := s
  exact h.1

/-! ## Parts one level further in -/

theorem nestedExpr_renders (ctx : Context) {e : Expr} (hplace : e.layout.All place)
    (he : ∀ ctx, (e.check ctx).RendersExpr ctx.outer e place) :
    (ctx.nested e.span e.check).RendersExpr ctx.outer e place :=
  .nested (e.place_span hplace) he

section

variable (ctx : Context) {s : Stmt} (hplace : s.layout.All place)
  (hs : ∀ ctx, (s.check ctx).RendersStmt ctx.outer s place)
include hplace hs

theorem nestedStmt_renders : (ctx.nested s.span s.check).RendersStmt ctx.outer s place :=
  .nested (s.place_span hplace) hs

theorem newFrame_renders :
    (ctx.inNewFrame fun ctx => ctx.nested s.span s.check).RendersStmt ctx.outer s place :=
  .inNewFrame fun _ => nestedStmt_renders _ hplace hs

end

/-! ## Expressions as targets and callees -/

section

variable {e : Expr} (hplace : e.layout.All place)
  (howner : e.form.OwnerHas fun owner => ∀ ctx, (owner.check ctx).RendersExpr ctx.outer owner place)
include hplace howner

theorem checkTarget_renders {ctx : Context} :
    (e.checkTarget ctx).RendersTarget ctx.outer e place := by
  obtain ⟨form, span⟩ := e
  have hspan := hplace.1
  cases form with
  | symbol name => exact variableTarget_renders name hspan
  | member owner name nameSpan =>
    exact memberTarget_renders name (howner ctx) hplace.2.2.2.1
  | _ => exact .fail _ hspan

theorem checkCall_renders (he : ∀ ctx, (e.check ctx).RendersExpr ctx.outer e place) {ctx : Context}
    {arguments : Arguments} {written : List Expr} {span : Span}
    (harguments : arguments.Rendered ctx.outer written place) (hspan : place span) :
    (e.checkCall arguments span ctx).RendersExpr ctx.outer ⟨.call e written, span⟩ place := by
  obtain ⟨form, calleeSpan⟩ := e
  have hcalleeSpan := hplace.1
  -- a callee of any other form than a name or a member is a value
  have hvalue : (form.check calleeSpan ctx >>= fun callee =>
      callValue callee callee.type.name arguments span).RendersExpr ctx.outer
        ⟨.call ⟨form, calleeSpan⟩ written, span⟩ place := by
    refine Renders.bind (he ctx) fun callee hcallee => ?_
    refine (callValue_renders ⟨form, calleeSpan⟩ callee _ harguments hcallee.2 hspan).mono ?_
    intro typed known h hmirrors
    exact h hmirrors.1
  cases form with
  | symbol name => exact callSymbol_renders name harguments hcalleeSpan hspan
  | member owner name nameSpan =>
    exact callMember_renders name (howner ctx) harguments hplace.2.2.2.1 hcalleeSpan hspan
  | _ => exact hvalue

end

/-! ## All trees -/

mutual

/-- What checking an expression gives mirrors it, and a failure stands at one of its spans. -/
theorem Expr.check_renders : ∀ (e : Expr) (ctx : Context), e.layout.All place →
    (e.check ctx).RendersExpr ctx.outer e place
  | ⟨form, span⟩, ctx, h => form.check_renders span ctx h

theorem ExprForm.check_renders : ∀ (form : ExprForm) (span : Span) (ctx : Context),
    (Expr.layout ⟨form, span⟩).All place → (form.check span ctx).RendersExpr ctx.outer ⟨form, span⟩
      place
  | .number value, _, _, h => .pure fun _ => ⟨.form (.number value), h.1⟩
  | .text value, _, _, h => .pure fun _ => ⟨.form (.text value), h.1⟩
  | .bool value, _, _, h => .pure fun _ => ⟨.form (.bool value), h.1⟩
  | .symbol name, _, _, h => symbol_renders name h.1
  | .member owner name nameSpan, span, ctx, h => by
    obtain ⟨hspan, howner, hnameSpan⟩ :
        place span ∧ owner.layout.All place ∧ place nameSpan := by
      simpa [Expr.layout, ExprForm.layouts] using h
    exact member_renders name (owner.check_renders ctx howner) hnameSpan hspan
  | .assign target value, span, ctx, h => by
    obtain ⟨hspan, htarget, hvalue⟩ :
        place span ∧ target.layout.All place ∧ value.layout.All place := by
      simpa [Expr.layout, ExprForm.layouts] using h
    exact assign_renders (checkTarget_renders htarget (target.owner_renders htarget))
      (nestedExpr_renders ctx hvalue fun ctx => value.check_renders ctx hvalue)
      (value.place_span hvalue) hspan
  | .binary left operator right, span, ctx, h => by
    obtain ⟨hspan, hleft, hoperator, hright⟩ : place span ∧ left.layout.All place ∧
        place operator.span ∧ right.layout.All place := by
      simpa [Expr.layout, ExprForm.layouts] using h
    exact binary_renders operator (left.check_renders ctx hleft)
      (nestedExpr_renders ctx hright fun ctx => right.check_renders ctx hright) hoperator hspan
  | .unary operator operand, span, ctx, h => by
    obtain ⟨hspan, hoperator, hoperand⟩ :
        place span ∧ place operator.span ∧ operand.layout.All place := by
      simpa [Expr.layout, ExprForm.layouts] using h
    exact unary_renders operator
      (nestedExpr_renders ctx hoperand fun ctx => operand.check_renders ctx hoperand)
      hoperator hspan
  | .call callee arguments, span, ctx, h => by
    obtain ⟨hspan, hcallee, harguments⟩ : place span ∧ callee.layout.All place ∧
        ∀ a ∈ arguments, a.layout.All place := by
      simpa [Expr.layout, ExprForm.layouts] using h
    exact checkCall_renders hcallee (callee.owner_renders hcallee)
      (fun ctx => callee.check_renders ctx hcallee)
      ⟨Expr.checkEach_renders arguments ctx harguments,
        Expr.checkInto_renders arguments ctx harguments⟩ hspan
  | .new className arguments, span, ctx, h => by
    obtain ⟨hspan, harguments⟩ : place span ∧ ∀ a ∈ arguments, a.layout.All place := by
      simpa [Expr.layout, ExprForm.layouts] using h
    exact instantiate_renders className
      ⟨Expr.checkEach_renders arguments ctx harguments,
        Expr.checkInto_renders arguments ctx harguments⟩ hspan
  | .lambda ⟨parameters, result?, ⟨body, bodySpan⟩⟩, span, ctx, h => by
    obtain ⟨hspan, hparameters, hresult, hbodySpan, hbody⟩ : place span ∧
        (∀ p ∈ parameters, p.layout.All place) ∧ (∀ t ∈ result?, t.layout.All place) ∧
        place bodySpan ∧ ∀ s ∈ body, s.layout.All place := by
      simpa [Expr.layout, ExprForm.layouts] using h
    exact lambda_renders hparameters hresult
      (fun ctx => Stmt.checkAll_renders body ctx hbody) hbodySpan hspan
  | .group inner, span, ctx, h => by
    obtain ⟨-, hinner⟩ : place span ∧ inner.layout.All place := by
      simpa [Expr.layout, ExprForm.layouts] using h
    have hbody := nestedExpr_renders ctx hinner fun ctx => inner.check_renders ctx hinner
    exact hbody.mono fun typed known hmirrors => ⟨.group hmirrors.1, hmirrors.2⟩

theorem Expr.owner_renders : ∀ e : Expr, e.layout.All place →
    e.form.OwnerHas fun owner => ∀ ctx, (owner.check ctx).RendersExpr ctx.outer owner place
  | ⟨.member owner _ _, _⟩, h => fun ctx => owner.check_renders ctx h.2.1
  | ⟨.number _, _⟩, _ | ⟨.text _, _⟩, _ | ⟨.bool _, _⟩, _ | ⟨.symbol _, _⟩, _
  | ⟨.assign _ _, _⟩, _ | ⟨.binary _ _ _, _⟩, _ | ⟨.unary _ _, _⟩, _ | ⟨.call _ _, _⟩, _
  | ⟨.new _ _, _⟩, _ | ⟨.lambda _, _⟩, _ | ⟨.group _, _⟩, _ => trivial

theorem Expr.checkEach_renders : ∀ (es : List Expr) (ctx : Context),
    (∀ e ∈ es, e.layout.All place) → (Expr.checkEach es ctx).RendersExprs ctx.outer es place
  | [], _, _ => .pure fun _ => ⟨.nil, fun _ h => nomatch h⟩
  | e :: rest, ctx, h => by
    obtain ⟨he, hrest⟩ := List.forall_mem_cons.1 h
    have hfirst := nestedExpr_renders ctx he fun ctx => e.check_renders ctx he
    rw [Expr.checkEach]
    have hothers := Expr.checkEach_renders rest ctx hrest
    refine hfirst.bind fun typed _ => hothers.bind fun others _ => ?_
    exact .pure fun known hothers hmirrors =>
      ⟨.cons hmirrors.1 hothers.1, List.forall_mem_cons.2 ⟨hmirrors.2, hothers.2⟩⟩

/-- With a slot for each expression, none is left out. -/
theorem Expr.checkInto_renders : ∀ (es : List Expr) (ctx : Context),
    (∀ e ∈ es, e.layout.All place) → ∀ slots : List (Slot Ty), slots.length = es.length →
      (Expr.checkInto es ctx slots).RendersExprs ctx.outer es place
  | [], _, _, [], _ => .pure fun _ => ⟨.nil, fun _ h => nomatch h⟩
  | e :: rest, ctx, h, slot :: slots, hlength => by
    obtain ⟨he, hrest⟩ := List.forall_mem_cons.1 h
    have hfirst := nestedExpr_renders ctx he fun ctx => e.check_renders ctx he
    have hothers := Expr.checkInto_renders rest ctx hrest slots (Nat.succ.inj hlength)
    rw [Expr.checkInto]
    refine hfirst.bind fun typed _ => .expect_bind (e.place_span he) ?_
    refine hothers.bind fun others _ => .pure fun known hothers hmirrors => ?_
    exact ⟨.cons hmirrors.1 hothers.1, List.forall_mem_cons.2 ⟨hmirrors.2, hothers.2⟩⟩

/-- What checking a statement gives mirrors it, and a failure stands at one of its spans. -/
theorem Stmt.check_renders : ∀ (s : Stmt) (ctx : Context), s.layout.All place →
    (s.check ctx).RendersStmt ctx.outer s place
  | ⟨form, span⟩, ctx, h => form.check_renders span ctx h

theorem StmtForm.check_renders : ∀ (form : StmtForm) (span : Span) (ctx : Context),
    (Stmt.layout ⟨form, span⟩).All place → (form.check span ctx).RendersStmt ctx.outer ⟨form, span⟩
      place
  | .expression e, span, ctx, h => by
    have he : e.layout.All place := h.2.1
    have hbody := nestedExpr_renders ctx he fun ctx => e.check_renders ctx he
    rw [StmtForm.check]
    exact hbody.bind fun typed _ => .pure fun known hmirrors => .form (.expression hmirrors.1)
  | .varDecl name nameSpan mode type? (some value), span, ctx, h => by
    obtain ⟨-, hnameSpan, htype, hvalue⟩ : place span ∧ place nameSpan ∧
        (∀ t ∈ type?, t.layout.All place) ∧ value.layout.All place := by
      simpa [Stmt.layout, StmtForm.layouts] using h
    refine varDecl_renders (.some ⟨?_, value.place_span hvalue⟩) htype hnameSpan
    exact nestedExpr_renders ctx hvalue fun ctx => value.check_renders ctx hvalue
  | .varDecl name nameSpan mode type? none, span, ctx, h => by
    obtain ⟨-, hnameSpan, htype⟩ : place span ∧ place nameSpan ∧
        ∀ t ∈ type?, t.layout.All place := by
      simpa [Stmt.layout, StmtForm.layouts] using h
    exact varDecl_renders .none htype hnameSpan
  | .classDecl name nameSpan parameters members, span, ctx, h => by
    obtain ⟨-, hnameSpan, hparameters, hmembers⟩ : place span ∧ place nameSpan ∧
        (∀ p ∈ parameters, p.layout.All place) ∧ ∀ s ∈ members, s.layout.All place := by
      simpa [Stmt.layout, StmtForm.layouts] using h
    exact classDecl_renders hparameters
      (fun c ctx => Stmt.checkMembers_renders members parameters c ctx hmembers) hnameSpan
  | .fnDecl name nameSpan ⟨parameters, result?, ⟨body, bodySpan⟩⟩, span, ctx, h => by
    obtain ⟨-, hnameSpan, hparameters, hresult, hbodySpan, hbody⟩ : place span ∧ place nameSpan ∧
        (∀ p ∈ parameters, p.layout.All place) ∧ (∀ t ∈ result?, t.layout.All place) ∧
        place bodySpan ∧ ∀ s ∈ body, s.layout.All place := by
      simpa [Stmt.layout, StmtForm.layouts] using h
    exact fnDecl_renders hparameters hresult
      (fun ctx => Stmt.checkAll_renders body ctx hbody) hbodySpan hnameSpan
  | .ret (some value), span, ctx, h => by
    have hvalue : value.layout.All place := h.2.2.1
    exact ret_some_renders
      (nestedExpr_renders ctx hvalue fun ctx => value.check_renders ctx hvalue) h.1
  | .ret none, _, _, h => ret_none_renders h.1
  | .block ⟨body, bodySpan⟩, span, ctx, h => by
    obtain ⟨-, -, hbody⟩ : place span ∧ place bodySpan ∧ ∀ s ∈ body, s.layout.All place := by
      simpa [Stmt.layout, StmtForm.layouts] using h
    have hstmts : (ctx.inNewFrame (Stmt.checkAll body)).RendersStmts ctx.outer body place :=
      .inNewFrame fun ctx => Stmt.checkAll_renders body ctx hbody
    rw [StmtForm.check]
    exact hstmts.bind fun stmts _ => .pure fun known hmirrors => .form (.block hmirrors)
  | .branch condition thenBody (some elseBody), span, ctx, h => by
    obtain ⟨-, hcondition, hthen, helse⟩ : place span ∧ condition.layout.All place ∧
        thenBody.layout.All place ∧ elseBody.layout.All place := by
      simpa [Stmt.layout, StmtForm.layouts] using h
    have htest := nestedExpr_renders ctx hcondition fun ctx =>
      condition.check_renders ctx hcondition
    have hfirst := newFrame_renders ctx hthen fun ctx =>
      thenBody.check_renders ctx hthen
    have hsecond := newFrame_renders ctx helse fun ctx =>
      elseBody.check_renders ctx helse
    rw [StmtForm.check]
    refine htest.bind fun test _ => hfirst.bind fun first _ => hsecond.bind fun second _ => ?_
    exact .pure fun known helse hthen hcondition =>
      .form (.branch hcondition.1 hthen (.some helse))
  | .branch condition thenBody none, span, ctx, h => by
    obtain ⟨-, hcondition, hthen⟩ : place span ∧ condition.layout.All place ∧
        thenBody.layout.All place := by
      simpa [Stmt.layout, StmtForm.layouts] using h
    have htest := nestedExpr_renders ctx hcondition fun ctx =>
      condition.check_renders ctx hcondition
    have hfirst := newFrame_renders ctx hthen fun ctx =>
      thenBody.check_renders ctx hthen
    rw [StmtForm.check]
    refine htest.bind fun test _ => hfirst.bind fun first _ => ?_
    exact .pure fun known hthen hcondition => .form (.branch hcondition.1 hthen .none)
  | .loop condition body, span, ctx, h => by
    obtain ⟨-, hcondition, hbody⟩ : place span ∧ condition.layout.All place ∧
        body.layout.All place := by
      simpa [Stmt.layout, StmtForm.layouts] using h
    have htest := nestedExpr_renders ctx hcondition fun ctx =>
      condition.check_renders ctx hcondition
    have hrepeated := newFrame_renders ctx hbody fun ctx =>
      body.check_renders ctx hbody
    rw [StmtForm.check]
    refine htest.bind fun test _ => hrepeated.bind fun repeated _ => ?_
    exact .pure fun known hbody hcondition => .form (.loop hcondition.1 hbody)
  | .print value, span, ctx, h => by
    have hvalue : value.layout.All place := h.2.2.1
    have hbody := nestedExpr_renders ctx hvalue fun ctx => value.check_renders ctx hvalue
    rw [StmtForm.check]
    exact hbody.bind fun typed _ => .pure fun known hmirrors => .form (.print hmirrors.1)

theorem Stmt.checkAll_renders : ∀ (stmts : List Stmt) (ctx : Context),
    (∀ s ∈ stmts, s.layout.All place) → (Stmt.checkAll stmts ctx).RendersStmts ctx.outer stmts place
  | [], _, _ => .pure fun _ => .nil
  | s :: rest, ctx, h => by
    obtain ⟨hs, hrest⟩ := List.forall_mem_cons.1 h
    have hfirst := nestedStmt_renders ctx hs fun ctx => s.check_renders ctx hs
    rw [Stmt.checkAll]
    refine hfirst.bind fun typed _ => (Stmt.checkAll_renders rest ctx hrest).bind fun others _ => ?_
    exact .pure fun known hothers hmirrors => .cons hmirrors hothers

theorem Stmt.checkMembers_renders : ∀ (members : List Stmt) (parameters : List Parameter)
    (c : ClassRef) (ctx : Context), (∀ s ∈ members, s.layout.All place) →
      (Stmt.checkMembers members parameters c ctx).RendersStmts ctx.outer members place
  | [], _, _, _, _ => .pure fun _ => .nil
  | s :: rest, parameters, c, ctx, h => by
    obtain ⟨hs, hrest⟩ := List.forall_mem_cons.1 h
    have hfirst := nestedStmt_renders ctx hs fun ctx => s.check_renders ctx hs
    have hothers := Stmt.checkMembers_renders rest parameters c ctx hrest
    rw [Stmt.checkMembers]
    refine (expectNoParameter_renders hs).bind fun _ _ => hfirst.bind fun typed _ => ?_
    refine enterMember_renders.bind fun _ _ => hothers.bind fun others _ => ?_
    exact .pure fun known hothers _ hmirrors _ => .cons hmirrors hothers

end

end Nominal
