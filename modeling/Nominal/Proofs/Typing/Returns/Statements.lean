import Nominal.Proofs.Typing.FrameEffect
import Nominal.Proofs.Typing.Returns.Expressions

/-!
# Returns in statements

One lemma for each rule that has a body or that returns. A return is compared with the function
around it (`Context.ret_proper`), and a body that is left is proper when the note that it has
returned was made for a return of its own (`Context.functionBody_proper`). That the note is made for
these and for no others is `Check.Notes`.
-/

namespace Nominal

/-! ## The note that the function around has returned -/

namespace Check

variable {α β : Type} {c : Check α} {before : List (Option TypedExpr)}
  {after : α → List (Option TypedExpr)}

/-- If the note was made for what had been returned `before`, it is made for what has been returned
`after`, whatever it said at first. -/
def Notes (c : Check α) (before : List (Option TypedExpr)) (after : α → List (Option TypedExpr)) :
    Prop :=
  ∀ (s : CheckState) (first : Bool), s.returned = (first || !before.isEmpty) →
    c.Ends s (fun a t => t.returned = (first || !(after a).isEmpty)) fun _ _ => True

namespace Notes

theorem pure {a : α} (h : after a = before) : (Pure.pure a : Check α).Notes before after := by
  intro s first hs
  show s.returned = _
  rw [h, hs]

theorem bind {f : α → Check β} {later : β → List (Option TypedExpr)} (hc : c.Notes before after)
    (hf : ∀ a, (f a).Notes (after a) later) : (c >>= f).Notes before later := by
  intro s first hs
  rw [ends_bind]
  exact (hc s first hs).mono (fun a t ht => hf a t first ht) fun _ _ ht => ht

/-- Nothing is returned, and the note stays. -/
theorem of_keeps (h : c.Keeps CheckState.returned) : c.Notes before fun _ => before := by
  intro s first hs
  exact (h s).mono (fun a t ht => ht.trans hs) fun _ _ _ => trivial

theorem inNewFrame {ctx : Context} {body : Context → Check α}
    (h : ∀ ctx, (body ctx).Notes before after) : (ctx.inNewFrame body).Notes before after := by
  intro s first hs
  unfold Context.inNewFrame
  rw [Context.ends_inFrame]
  exact h _ _ first hs

theorem nested {ctx : Context} {span : Span} {body : Context → Check α}
    (h : ∀ ctx, (body ctx).Notes before after) : (ctx.nested span body).Notes before after := by
  unfold Context.nested
  split
  · exact h _
  · exact fun s first hs => trivial

end Notes

end Check

namespace Context

open Check

variable {ctx : Context} {name : String} {nameSpan valueSpan bodySpan span : Span} {type : Slot Ty}
  {mode : Mode} {outer : Scope} {function? : Option FnType} {value : Check TypedExpr}
  {body : Context → Check (List TypedStmt)}

theorem finishReturn_notes (f : FnType) (value? : Option TypedExpr)
    (before : List (Option TypedExpr)) :
    (finishReturn f span value?).Notes before fun typed => before ++ typed.returns := by
  unfold finishReturn
  dsimp only
  intro s first hs
  split
  · show true = (first || !(before ++ [value?]).isEmpty)
    simp
  · exact trivial

theorem ret_notes (ctx : Context) (value? : Option (Check TypedExpr))
    (hvalue : ∀ value ∈ value?, value.Keeps CheckState.returned)
    (before : List (Option TypedExpr)) :
    (ctx.ret value? span).Notes before fun typed => before ++ typed.returns := by
  rw [ret_eq]
  split
  · exact fun s first hs => trivial
  · next f value _ =>
    exact (Notes.of_keeps (.map some (hvalue value rfl))).bind fun v? =>
      finishReturn_notes f v? before
  · next f _ => exact finishReturn_notes f none before

/-! ## Declarations in the current frame -/

theorem bind_keeps_types (refused : Cause) :
    (bind name type refused span).Keeps fun s => s.frame.types := by
  intro s
  refine (bind_frame refused s).mono ?_ ?_
  · exact fun id t ht => Frame.types_of_declareVariable ht
  · exact fun d t ht => congrArg Frame.types ht

theorem bind_honestly (refused : Cause) :
    (bind name type refused span).Honestly outer fun _ => True := by
  intro s hs
  refine (bind_keeps_types refused s).mono ?_ ?_
  · exact fun id t ht => ⟨hs.of_types_eq ht, trivial⟩
  · exact fun d t ht => hs.of_types_eq ht

theorem declareParameter_keeps_types (ctx : Context) (p : Parameter) :
    (ctx.declareParameter p).Keeps fun s => s.frame.types := by
  unfold declareParameter
  have hclosed := Keeps.closed fun s : CheckState => s.frame.types
  refine hclosed.scope_bind fun scope => .ofExcept_bind fun type => ?_
  exact (bind_keeps_types _).bind fun id => hclosed.pure _

theorem declareParameter_honestly (p : Parameter) :
    (ctx.declareParameter p).Honestly ctx.outer fun _ => True := by
  unfold declareParameter
  refine .scope_bind fun scope _ => .ofExcept_bind fun type _ => ?_
  exact (bind_honestly _).bind fun id _ => .pure trivial

/-! ## Functions -/

/-- The frame of the parameters has no types, and the result is honest. -/
theorem functionHead_honestly (parameters : List Parameter) (result? : Option TypeExpr) :
    (ctx.functionHead parameters result?).Honestly ctx.outer fun head =>
      head.frame.types = ∅ ∧ head.function.result.Honest := by
  have hparameters (result : Ty) (hresult : result.Honest) :
      (ctx.parameterHead parameters result).Honestly ctx.outer fun head =>
        head.frame.types = ∅ ∧ head.function.result.Honest := by
    intro s hs
    unfold parameterHead inNewFrame
    rw [ends_inFrame, ends_bind]
    refine (Keeps.mapM (declareParameter_keeps_types _) parameters _).mono ?_ fun _ _ _ => hs
    exact fun declared t ht => ⟨hs, ht, hresult⟩
  rw [functionHead_eq]
  cases result? with
  | none => exact hparameters .nothing fun _ => rfl
  | some t =>
    exact .scope_bind fun scope hscope => .ofExcept_bind fun result hresult =>
      hparameters result (hscope.resolve hresult)

/-- A body that is left is proper when it makes its notes for its own returns only. -/
theorem functionBody_proper {head : FunctionHead} (name? : Option String)
    (hframe : head.frame.types = ∅) (hresult : head.function.result.Honest)
    (hbody : ∀ function?, (∀ f ∈ function?, f.result.Honest) → ∀ ctx : Context,
      ctx.function? = function? → (body ctx).Honestly ctx.outer (TypedStmt.AllProper function?))
    (hnotes : ∀ ctx, (body ctx).Notes [] TypedStmt.allReturns) :
    (ctx.functionBody head name? bodySpan body).Honestly ctx.outer fun stmts =>
      Body.Proper ⟨some head.function, stmts⟩ ∧ ∀ b ∈ TypedStmt.allBodies stmts, b.Proper := by
  intro s hs
  unfold functionBody
  rw [ends_bind, ends_apart, ends_inFrame]
  have hresults : ∀ f ∈ some head.function, f.result.Honest := by
    rintro _ ⟨⟩
    exact hresult
  have hinside := hbody _ hresults
    { ctx with function? := some head.function, outer := s.frame :: ctx.outer } rfl
    { s with returned := false, frame := head.frame } (hs.untyped hframe)
  have hnoted := hnotes { ctx with function? := some head.function, outer := s.frame :: ctx.outer }
    { s with returned := false, frame := head.frame } false rfl
  refine (hinside.and hnoted).mono ?_ fun d t _ => hs
  rintro stmts t ⟨⟨-, hbodies, hreturns⟩, hreturned⟩
  dsimp only
  split
  · next hleft =>
    refine ⟨hs, ⟨hreturns, ?_⟩, hbodies⟩
    rintro _ ⟨⟩ hvalued hnone
    -- nothing was returned, so the body was left because of its result
    have hassignable : head.function.result.assignableTo .nothing = true := by
      simpa [hreturned, hnone] using hleft
    exact hvalued (hresult (beq_iff_eq.1 hassignable))
  · exact hs

theorem lambda_proper (parameters : List Parameter) (result? : Option TypeExpr)
    (hbody : ∀ function?, (∀ f ∈ function?, f.result.Honest) → ∀ ctx : Context,
      ctx.function? = function? → (body ctx).Honestly ctx.outer (TypedStmt.AllProper function?))
    (hnotes : ∀ ctx, (body ctx).Notes [] TypedStmt.allReturns) :
    (ctx.lambda parameters result? bodySpan body span).Honestly ctx.outer TypedExpr.Proper := by
  unfold lambda
  refine .transaction ((functionHead_honestly parameters result?).bind fun head hhead => ?_)
  refine (functionBody_proper none hhead.1 hhead.2 hbody hnotes).bind fun stmts hstmts => .pure ?_
  exact List.forall_mem_cons.2 hstmts

theorem fnDecl_proper (parameters : List Parameter) (result? : Option TypeExpr)
    (hbody : ∀ function?, (∀ f ∈ function?, f.result.Honest) → ∀ ctx : Context,
      ctx.function? = function? → (body ctx).Honestly ctx.outer (TypedStmt.AllProper function?))
    (hnotes : ∀ ctx, (body ctx).Notes [] TypedStmt.allReturns) :
    (ctx.fnDecl name nameSpan parameters result? bodySpan body span).Honestly ctx.outer
      (TypedStmt.Proper function?) := by
  unfold fnDecl
  refine .transaction ((functionHead_honestly parameters result?).bind fun head hhead => ?_)
  refine .insert_bind fun id s hs => ?_
  rw [ends_bind, ends_get]
  split
  · exact hs
  · next frame hdeclare =>
    rw [ends_bind, ends_setFrame]
    have hframe : Scope.Honest (frame :: ctx.outer) :=
      hs.of_types_eq (Frame.types_of_declareFunction hdeclare)
    refine Honestly.bind (.undoing (functionBody_proper (some name) hhead.1 hhead.2 hbody hnotes)
      ?_) (fun stmts hstmts => .pure ?_) _ hframe
    · exact fun f => Frame.types_removeFunction f name id
    · exact ⟨List.forall_mem_cons.2 hstmts, fun _ hv => nomatch hv⟩

/-- Only what may be returned from the function around is. -/
theorem ret_proper (ctx : Context) (value? : Option (Check TypedExpr))
    (hvalue : ∀ value ∈ value?, value.Honestly ctx.outer TypedExpr.Proper)
    (hresult : ∀ f ∈ function?, f.result.Honest) (hctx : ctx.function? = function?) :
    (ctx.ret value? span).Honestly ctx.outer (TypedStmt.Proper function?) := by
  have hfinish (f : FnType) (hf : ctx.function? = some f) (v? : Option TypedExpr)
      (hv : ∀ v ∈ v?, v.Proper) :
      (finishReturn f span v?).Honestly ctx.outer (TypedStmt.Proper function?) := by
    unfold finishReturn
    dsimp only
    split
    · next hassignable =>
      replace hassignable := beq_iff_eq.1 hassignable
      intro s hs
      refine ⟨hs, ?_, List.forall_mem_singleton.2 ?_⟩
      · cases v? with
        | none => exact fun b hb => nomatch hb
        | some v => exact hv v rfl
      · rw [← hctx, hf]
        cases v? with
        | none => exact hresult f (hctx ▸ hf) hassignable.symm
        | some v => exact hassignable
    · exact .fail _ _
  rw [ret_eq]
  split
  · exact .fail _ _
  · next f value hf =>
    have hsome : (some <$> value).Honestly ctx.outer fun v? => ∀ v ∈ v?, v.Proper := by
      refine (hvalue value rfl).map ?_
      rintro v hv _ ⟨⟩
      exact hv
    exact hsome.bind fun v? hv => hfinish f hf v? hv
  · next f hf => exact hfinish f hf none fun v hv => nomatch hv

/-! ## Variables -/

theorem valueInto_proper (hvalue : value.Honestly outer TypedExpr.Proper) :
    (valueInto value type valueSpan).Honestly outer TypedExpr.Proper := by
  unfold valueInto
  exact hvalue.bind fun v hv => .expect_bind (.pure hv)

/-- A variable with a value returns nothing, and the bodies in it are those of the value. -/
theorem varDecl_stmt_proper {decl : DeclId} {v : TypedExpr} (hv : v.Proper) :
    TypedStmt.Proper function? ⟨.varDecl decl (some v), span⟩ :=
  ⟨hv, fun _ hv => nomatch hv⟩

theorem varDecl_proper (type? : Option TypeExpr) {value? : Option (Span × Check TypedExpr)}
    (hvalue : ∀ value ∈ value?, value.2.Honestly ctx.outer TypedExpr.Proper) :
    (ctx.varDecl name nameSpan mode type? value? span).Honestly ctx.outer
      (TypedStmt.Proper function?) := by
  have hdeclare (type : Slot Ty) (span : Span) :
      (ctx.declareVariable name type span).Honestly ctx.outer fun _ => True := bind_honestly _
  unfold varDecl
  split
  · exact .fail _ _
  · split
    · refine .scope_bind fun scope _ => .ofExcept_bind fun declared _ => .transaction ?_
      split
      · exact (hdeclare _ _).bind fun id _ =>
          .pure ⟨fun b hb => (nomatch hb), fun _ hv => nomatch hv⟩
      · next valueSpan value =>
        have hv := hvalue _ rfl
        split
        · rw [recursiveVariable_eq]
          refine (hdeclare _ _).bind fun id _ => ?_
          refine Honestly.bind (.undoing (valueInto_proper hv) ?_) fun v hv =>
            .pure (varDecl_stmt_proper hv)
          exact fun f => rfl
        · exact hv.bind fun v hv => .expect_bind <| (hdeclare _ _).bind fun id _ =>
            .pure (varDecl_stmt_proper hv)
    · refine .transaction ?_
      split
      · exact .fail _ _
      · next valueSpan value =>
        refine (hvalue _ rfl).bind fun v hv => ?_
        split
        · exact .expect_bind <| (hdeclare _ _).bind fun id _ => .pure (varDecl_stmt_proper hv)
        · exact .fail _ _

/-! ## Classes -/

theorem classParameter_honestly (c : ClassRef) (p : Parameter) :
    (ctx.classParameter c p).Honestly ctx.outer fun _ => True := by
  unfold classParameter
  exact (declareParameter_honestly p).bind fun declared _ =>
    (Honestly.updateClass c _).bind fun _ _ => .pure trivial

theorem expectNoParameter_honestly (parameters : List Parameter) (member : Stmt) :
    (ctx.expectNoParameter parameters member).Honestly outer fun _ => True := by
  unfold expectNoParameter
  split
  · split
    · exact .fail _ _
    · exact .pure trivial
  · exact .pure trivial

theorem enterMember_honestly (c : ClassRef) (member : Stmt) (typed : TypedStmt) :
    (ctx.enterMember c member typed).Honestly ctx.outer fun _ => True := by
  unfold enterMember
  split
  · refine .scope_bind fun scope _ => ?_
    split
    · exact .updateClass c _
    · exact .pure trivial
  · exact .updateClass c _
  · exact .pure trivial

/-- The members of a class are those of no function. -/
theorem classDecl_proper (parameters : List Parameter)
    {members : ClassRef → Context → Check (List TypedStmt)}
    (hmembers : ∀ (c : ClassRef) (ctx : Context), ctx.function? = none →
      (members c ctx).Honestly ctx.outer (TypedStmt.AllProper none)) :
    (ctx.classDecl name nameSpan parameters members span).Honestly ctx.outer
      (TypedStmt.Proper function?) := by
  intro s hs
  rw [classDecl_eq, ends_bind, ends_scope]
  split
  · exact hs
  · next hunknown =>
    rw [Option.not_isSome_iff_eq_none] at hunknown
    rw [ends_bind]
    unfold declareClass
    rw [ends_modifyGet]
    have hframe : Scope.Honest
        ((s.frame.declareType name (.cls (s.classes.declare name).1)).getD s.frame ::
          ctx.outer) := by
      cases hdeclare : s.frame.declareType name (.cls (s.classes.declare name).1) with
      | none => exact hs
      | some frame =>
        have hname : (s.classes.declare name).1.name = name := rfl
        exact hs.declareType hname hunknown hdeclare
    have hbody (ctx : Context) (hctx : ctx.function? = none) :
        (ctx.classBody (s.classes.declare name).1 parameters
          (members (s.classes.declare name).1)).Honestly ctx.outer fun body =>
            TypedStmt.AllProper none body.2 := by
      unfold classBody
      refine .inNewFrame fun ctx' hctx' => ?_
      refine (Honestly.mapM (classParameter_honestly _) parameters).bind fun ids _ => ?_
      have hin : (ctx'.inNewFrame (members (s.classes.declare name).1)).Honestly ctx'.outer
          (TypedStmt.AllProper none) :=
        .inNewFrame fun ctx'' hctx'' => hmembers _ ctx'' ((hctx''.trans hctx').trans hctx)
      exact hin.bind fun stmts hstmts => .pure hstmts
    refine ((Honestly.apart (.transaction (hbody
      { ctx with function? := none, className? := some name } rfl))).bind ?_) _ hframe
    rintro ⟨⟨ids, stmts⟩, returned⟩ hstmts
    refine .pure ⟨List.forall_mem_cons.2 ⟨⟨hstmts.2, ?_⟩, hstmts.1⟩, fun _ hv => nomatch hv⟩
    rintro _ ⟨⟩

end Context

end Nominal
