import Nominal.Proofs.Typing.Closed
import Nominal.Proofs.Typing.Returns.Statements

/-!
# Returns along the tree

The rules put together. A statement that is checked makes the note that the function around has
returned exactly when it has returns of its own (`Stmt.check_notes`), and then all bodies in it are
proper, and what it returns may be returned (`Stmt.check_proper`).
-/

namespace Nominal

open Check Context

/-! ## Notes -/

/-- A declaration returns nothing. -/
theorem Stmt.Declares.returns_nil {name : String} {nameSpan span : Span} {typed : TypedStmt}
    {f g : Frame} :
    (∀ mode type? value?, Stmt.Declares ⟨.varDecl name nameSpan mode type? value?, span⟩ typed f g →
      typed.returns = []) ∧
    (∀ signature, Stmt.Declares ⟨.fnDecl name nameSpan signature, span⟩ typed f g →
      typed.returns = []) ∧
    ∀ parameters members, Stmt.Declares ⟨.classDecl name nameSpan parameters members, span⟩ typed f g →
      typed.returns = [] := by
  obtain ⟨form, typedSpan⟩ := typed
  refine ⟨?_, ?_, ?_⟩
  · rintro mode type? value? ⟨decl, initializer?, type, hform, -⟩
    obtain rfl : form = _ := hform
    rfl
  · rintro signature ⟨decl, function, parameters, body, hform, -⟩
    obtain rfl : form = _ := hform
    rfl
  · rintro parameters members ⟨c, ids, stmts, hform, -⟩
    obtain rfl : form = _ := hform
    rfl

/-- A statement that keeps the note and returns nothing. -/
theorem Check.Notes.of_silent {c : Check TypedStmt} (before : List (Option TypedExpr))
    (hkeeps : c.Keeps CheckState.returned)
    (hsilent : ∀ s, c.Ends s (fun typed _ => typed.returns = []) fun _ _ => True) :
    c.Notes before fun typed => before ++ typed.returns := by
  intro s first hs
  refine ((hkeeps s).and (hsilent s)).mono ?_ fun _ _ _ => trivial
  rintro typed t ⟨hreturned, hreturns⟩
  show t.returned = (first || !(before ++ typed.returns).isEmpty)
  rw [hreturns, List.append_nil, hreturned, hs]

theorem Expr.nested_keeps_returned (e : Expr) (ctx : Context) :
    (ctx.nested e.span e.check).Keeps CheckState.returned :=
  (e.nested_keeps ctx).returned_of_localState

mutual

/-- Checking a statement, the note is made for what the statement itself returns. -/
theorem Stmt.check_notes : ∀ (stmt : Stmt) (ctx : Context) (before : List (Option TypedExpr)),
    (stmt.check ctx).Notes before fun typed => before ++ typed.returns
  | ⟨form, span⟩, ctx, before => form.check_notes span ctx before

theorem StmtForm.check_notes : ∀ (form : StmtForm) (span : Span) (ctx : Context)
    (before : List (Option TypedExpr)),
    (form.check span ctx).Notes before fun typed => before ++ typed.returns
  | .expression e, _, ctx, before =>
    (Notes.of_keeps (e.nested_keeps_returned ctx)).bind fun _ => .pure (List.append_nil before)
  | .varDecl name nameSpan mode type? (some value), span, ctx, before => by
    refine .of_silent before (varDecl_keeps_returned mode type? ?_) fun s => ?_
    · rintro _ ⟨⟩
      exact value.nested_keeps_returned ctx
    · exact (Stmt.check_frame ⟨.varDecl name nameSpan mode type? (some value), span⟩ ctx s).mono
        (fun typed t ht => Stmt.Declares.returns_nil.1 _ _ _ ht) fun _ _ _ => trivial
  | .varDecl name nameSpan mode type? none, span, ctx, before => by
    refine .of_silent before (varDecl_keeps_returned mode type? ?_) fun s => ?_
    · rintro _ ⟨⟩
    · exact (Stmt.check_frame ⟨.varDecl name nameSpan mode type? none, span⟩ ctx s).mono
        (fun typed t ht => Stmt.Declares.returns_nil.1 _ _ _ ht) fun _ _ _ => trivial
  | .classDecl name nameSpan parameters members, span, ctx, before =>
    .of_silent before (classDecl_keeps_returned parameters _) fun s =>
      (Stmt.check_frame ⟨.classDecl name nameSpan parameters members, span⟩ ctx s).mono
        (fun _ _ ht => Stmt.Declares.returns_nil.2.2 _ _ ht) fun _ _ _ => trivial
  | .fnDecl name nameSpan ⟨parameters, result?, ⟨body, bodySpan⟩⟩, span, ctx, before =>
    .of_silent before (fnDecl_keeps_returned parameters result? bodySpan _) fun s =>
      (Stmt.check_frame ⟨.fnDecl name nameSpan ⟨parameters, result?, ⟨body, bodySpan⟩⟩, span⟩ ctx
        s).mono (fun _ _ ht => Stmt.Declares.returns_nil.2.1 _ ht) fun _ _ _ => trivial
  | .ret (some value), _, ctx, before => by
    refine ret_notes ctx (some _) ?_ before
    rintro _ ⟨⟩
    exact value.nested_keeps_returned ctx
  | .ret none, _, ctx, before => ret_notes ctx none (fun _ hvalue => nomatch hvalue) before
  | .block ⟨body, _⟩, _, _, before =>
    (Notes.inNewFrame fun ctx => Stmt.checkAll_notes body ctx before).bind fun _ => .pure rfl
  | .branch condition thenBody (some elseBody), _, ctx, before =>
    (Notes.of_keeps (condition.nested_keeps_returned ctx)).bind fun _ =>
      (Notes.inNewFrame fun _ => .nested fun ctx => thenBody.check_notes ctx before).bind
        fun first => (Notes.inNewFrame fun _ => .nested fun ctx =>
          elseBody.check_notes ctx (before ++ first.returns)).bind fun _ =>
            .pure (List.append_assoc _ _ _).symm
  | .branch condition thenBody none, _, ctx, before =>
    (Notes.of_keeps (condition.nested_keeps_returned ctx)).bind fun _ =>
      (Notes.inNewFrame fun _ => .nested fun ctx => thenBody.check_notes ctx before).bind fun _ =>
        .pure rfl
  | .loop condition body, _, ctx, before =>
    (Notes.of_keeps (condition.nested_keeps_returned ctx)).bind fun _ =>
      (Notes.inNewFrame fun _ => .nested fun ctx => body.check_notes ctx before).bind fun _ =>
        .pure rfl
  | .print value, _, ctx, before =>
    (Notes.of_keeps (value.nested_keeps_returned ctx)).bind fun _ => .pure (List.append_nil before)

theorem Stmt.checkAll_notes : ∀ (stmts : List Stmt) (ctx : Context)
    (before : List (Option TypedExpr)),
    (Stmt.checkAll stmts ctx).Notes before fun typed => before ++ TypedStmt.allReturns typed
  | [], _, before => .pure (List.append_nil before)
  | stmt :: rest, ctx, before =>
    (Notes.nested fun ctx => stmt.check_notes ctx before).bind fun first =>
      (Stmt.checkAll_notes rest ctx (before ++ first.returns)).bind fun _ =>
        .pure (List.append_assoc _ _ _).symm

end

/-! ## Bodies -/

section

variable {e : Expr} (howner : e.form.OwnerHas fun owner =>
  ∀ ctx, (owner.check ctx).Honestly ctx.outer TypedExpr.Proper)
include howner

theorem checkTarget_proper {ctx : Context} :
    (e.checkTarget ctx).Honestly ctx.outer fun target => target.1.Proper := by
  obtain ⟨form, span⟩ := e
  cases form with
  | symbol name => exact variableTarget_proper name
  | member owner name nameSpan => exact memberTarget_proper name nameSpan (howner ctx)
  | _ => exact .fail _ _

theorem checkCall_proper (he : ∀ ctx, (e.check ctx).Honestly ctx.outer TypedExpr.Proper)
    {ctx : Context} {arguments : Arguments} (harguments : arguments.Proper ctx.outer)
    {span : Span} : (e.checkCall arguments span ctx).Honestly ctx.outer TypedExpr.Proper := by
  obtain ⟨form, calleeSpan⟩ := e
  cases form with
  | symbol name => exact callSymbol_proper name calleeSpan harguments
  | member owner name nameSpan =>
    exact callMember_proper name nameSpan calleeSpan (howner ctx) harguments
  | _ => exact (he ctx).bind fun callee hcallee => callValue_proper _ hcallee harguments

end

mutual

/-- All bodies in an expression that is checked are proper. -/
theorem Expr.check_proper : ∀ (e : Expr) (ctx : Context),
    (e.check ctx).Honestly ctx.outer TypedExpr.Proper
  | ⟨form, span⟩, ctx => form.check_proper span ctx

theorem ExprForm.check_proper : ∀ (form : ExprForm) (span : Span) (ctx : Context),
    (form.check span ctx).Honestly ctx.outer TypedExpr.Proper
  | .number _, _, _ => .pure fun _ hb => nomatch hb
  | .text _, _, _ => .pure fun _ hb => nomatch hb
  | .bool _, _, _ => .pure fun _ hb => nomatch hb
  | .symbol name, _, _ => symbol_proper name
  | .member owner name nameSpan, _, ctx => member_proper name nameSpan (owner.check_proper ctx)
  | .assign target value, _, _ =>
    assign_proper _ (checkTarget_proper target.owner_proper) (.nested fun ctx _ => value.check_proper ctx)
  | .binary left operator right, _, ctx =>
    binary_proper operator (left.check_proper ctx) (.nested fun ctx _ => right.check_proper ctx)
  | .unary operator operand, _, _ => unary_proper operator (.nested fun ctx _ => operand.check_proper ctx)
  | .call callee arguments, _, ctx =>
    checkCall_proper callee.owner_proper callee.check_proper
      ⟨Expr.checkEach_proper arguments ctx, Expr.checkInto_proper arguments ctx⟩
  | .new className arguments, _, ctx =>
    instantiate_proper className
      ⟨Expr.checkEach_proper arguments ctx, Expr.checkInto_proper arguments ctx⟩
  | .lambda ⟨parameters, result?, ⟨body, _⟩⟩, _, _ =>
    lambda_proper parameters result? (Stmt.checkAll_proper body) fun ctx =>
      Stmt.checkAll_notes body ctx []
  | .group inner, _, _ => .nested fun ctx _ => inner.check_proper ctx

theorem Expr.owner_proper : ∀ e : Expr, e.form.OwnerHas fun owner =>
    ∀ ctx, (owner.check ctx).Honestly ctx.outer TypedExpr.Proper
  | ⟨.member owner _ _, _⟩ => owner.check_proper
  | ⟨.number _, _⟩ | ⟨.text _, _⟩ | ⟨.bool _, _⟩ | ⟨.symbol _, _⟩ | ⟨.assign _ _, _⟩
  | ⟨.binary _ _ _, _⟩ | ⟨.unary _ _, _⟩ | ⟨.call _ _, _⟩ | ⟨.new _ _, _⟩ | ⟨.lambda _, _⟩
  | ⟨.group _, _⟩ => trivial

theorem Expr.checkEach_proper : ∀ (es : List Expr) (ctx : Context),
    (Expr.checkEach es ctx).Honestly ctx.outer fun es => ∀ b ∈ TypedExpr.allBodies es, b.Proper
  | [], _ => .pure fun _ hb => nomatch hb
  | e :: rest, ctx =>
    (Honestly.nested fun ctx _ => e.check_proper ctx).bind fun _ hfirst =>
      (Expr.checkEach_proper rest ctx).bind fun _ hrest =>
        .pure (List.forall_mem_append.2 ⟨hfirst, hrest⟩)

theorem Expr.checkInto_proper : ∀ (es : List Expr) (ctx : Context) (slots : List (Slot Ty)),
    (Expr.checkInto es ctx slots).Honestly ctx.outer fun es =>
      ∀ b ∈ TypedExpr.allBodies es, b.Proper
  | [], _, _ => .pure fun _ hb => nomatch hb
  | _ :: _, _, [] => .pure fun _ hb => nomatch hb
  | e :: rest, ctx, _ :: slots =>
    (Honestly.nested fun ctx _ => e.check_proper ctx).bind fun _ hfirst => .expect_bind <|
      (Expr.checkInto_proper rest ctx slots).bind fun _ hrest =>
        .pure (List.forall_mem_append.2 ⟨hfirst, hrest⟩)

/-- All bodies in a statement that is checked are proper, and what it returns may be returned from
the function around. -/
theorem Stmt.check_proper : ∀ (stmt : Stmt) (function? : Option FnType),
    (∀ f ∈ function?, f.result.Honest) → ∀ ctx : Context, ctx.function? = function? →
      (stmt.check ctx).Honestly ctx.outer (TypedStmt.Proper function?)
  | ⟨form, span⟩, function?, h, ctx, hctx => form.check_proper span function? h ctx hctx

theorem StmtForm.check_proper : ∀ (form : StmtForm) (span : Span) (function? : Option FnType),
    (∀ f ∈ function?, f.result.Honest) → ∀ ctx : Context, ctx.function? = function? →
      (form.check span ctx).Honestly ctx.outer (TypedStmt.Proper function?)
  | .expression e, _, _, _, _, _ =>
    (Honestly.nested fun ctx _ => e.check_proper ctx).bind fun _ he =>
      .pure ⟨he, fun _ hv => nomatch hv⟩
  | .varDecl _ _ _ type? (some value), _, _, _, _, _ =>
    varDecl_proper type? fun _ hvalue => Option.mem_some.1 hvalue ▸
      .nested fun ctx _ => value.check_proper ctx
  | .varDecl _ _ _ type? none, _, _, _, _, _ =>
    varDecl_proper type? fun _ hvalue => nomatch hvalue
  | .classDecl _ _ parameters members, _, _, _, _, _ =>
    classDecl_proper parameters (Stmt.checkMembers_proper members parameters)
  | .fnDecl _ _ ⟨parameters, result?, ⟨body, _⟩⟩, _, _, _, _, _ =>
    fnDecl_proper parameters result? (Stmt.checkAll_proper body) fun ctx =>
      Stmt.checkAll_notes body ctx []
  | .ret (some value), _, _, h, ctx, hctx =>
    ret_proper ctx (some _) (fun _ hvalue => Option.mem_some.1 hvalue ▸
      .nested fun ctx _ => value.check_proper ctx) h hctx
  | .ret none, _, _, h, ctx, hctx => ret_proper ctx none (fun _ hvalue => nomatch hvalue) h hctx
  | .block ⟨body, _⟩, _, function?, h, _, hctx =>
    (Honestly.inNewFrame fun ctx' h' =>
      Stmt.checkAll_proper body function? h ctx' (h'.trans hctx)).bind fun _ hbody => .pure hbody
  | .branch condition thenBody (some elseBody), _, function?, h, _, hctx =>
    (Honestly.nested fun ctx _ => condition.check_proper ctx).bind fun _ hcondition =>
      (Honestly.inNewFrame_nested fun ctx' h' =>
        thenBody.check_proper function? h ctx' (h'.trans hctx)).bind fun _ hthen =>
        (Honestly.inNewFrame_nested fun ctx' h' =>
          elseBody.check_proper function? h ctx' (h'.trans hctx)).bind fun _ helse =>
          .pure ⟨List.forall_mem_append.2 ⟨hcondition, List.forall_mem_append.2 ⟨hthen.1, helse.1⟩⟩,
            List.forall_mem_append.2 ⟨hthen.2, helse.2⟩⟩
  | .branch condition thenBody none, _, function?, h, _, hctx =>
    (Honestly.nested fun ctx _ => condition.check_proper ctx).bind fun _ hcondition =>
      (Honestly.inNewFrame_nested fun ctx' h' =>
        thenBody.check_proper function? h ctx' (h'.trans hctx)).bind fun _ hthen =>
        .pure ⟨List.forall_mem_append.2 ⟨hcondition, hthen.1⟩, hthen.2⟩
  | .loop condition body, _, function?, h, _, hctx =>
    (Honestly.nested fun ctx _ => condition.check_proper ctx).bind fun _ hcondition =>
      (Honestly.inNewFrame_nested fun ctx' h' =>
        body.check_proper function? h ctx' (h'.trans hctx)).bind fun _ hbody =>
        .pure ⟨List.forall_mem_append.2 ⟨hcondition, hbody.1⟩, hbody.2⟩
  | .print value, _, _, _, _, _ =>
    (Honestly.nested fun ctx _ => value.check_proper ctx).bind fun _ hvalue =>
      .pure ⟨hvalue, fun _ hv => nomatch hv⟩

theorem Stmt.checkAll_proper : ∀ (stmts : List Stmt) (function? : Option FnType),
    (∀ f ∈ function?, f.result.Honest) → ∀ ctx : Context, ctx.function? = function? →
      (Stmt.checkAll stmts ctx).Honestly ctx.outer (TypedStmt.AllProper function?)
  | [], _, _, _, _ => .pure ⟨fun _ hb => (nomatch hb), fun _ hv => nomatch hv⟩
  | stmt :: rest, function?, h, ctx, hctx =>
    (Honestly.nested fun ctx' h' => stmt.check_proper function? h ctx' (h'.trans hctx)).bind
      fun _ hfirst => (Stmt.checkAll_proper rest function? h ctx hctx).bind fun _ hrest =>
        .pure (TypedStmt.AllProper.cons hfirst hrest)

theorem Stmt.checkMembers_proper : ∀ (members : List Stmt) (parameters : List Parameter)
    (c : ClassRef) (ctx : Context), ctx.function? = none →
      (Stmt.checkMembers members parameters c ctx).Honestly ctx.outer (TypedStmt.AllProper none)
  | [], _, _, _, _ => .pure ⟨fun _ hb => (nomatch hb), fun _ hv => nomatch hv⟩
  | member :: rest, parameters, c, ctx, hctx =>
    (expectNoParameter_honestly parameters member).bind fun _ _ =>
      (Honestly.nested fun ctx' h' =>
        member.check_proper none (fun _ hf => nomatch hf) ctx' (h'.trans hctx)).bind
        fun typed htyped => (enterMember_honestly c member typed).bind fun _ _ =>
          (Stmt.checkMembers_proper rest parameters c ctx hctx).bind fun _ hrest =>
            .pure (TypedStmt.AllProper.cons htyped hrest)

end

end Nominal
