import Nominal.Proofs.Typing.Closed
import Nominal.Proofs.Typing.Parts

/-!
# What checks leave as it was

`Check.Keeps view` says that a check leaves a view of the state as it found it, whether it succeeds
or fails. Frames, functions and classes are entered and left around the checks inside them, so an
expression keeps its `LocalState`: the current frame and the note whether the function around has
returned (`Expr.check_keeps`). A statement outside of functions keeps at least that note
(`Stmt.check_keeps_returned`).
-/

namespace Nominal

/-- The parts of the state that belong to the scope and the function around a check. -/
structure LocalState where
  frame : Frame
  returned : Bool

/-- The local part of a state. -/
def CheckState.localState (s : CheckState) : LocalState :=
  ⟨s.frame, s.returned⟩

namespace Check

variable {α β γ : Type}

/-- Whichever way `c` ends, `view` shows what it showed before. -/
def Keeps (view : CheckState → γ) (c : Check α) : Prop :=
  ∀ s, c.Ends s (fun _ t => view t = view s) (fun _ t => view t = view s)

namespace Keeps

variable {view : CheckState → γ} {c : Check α} {f : α → Check β}

theorem bind (hc : c.Keeps view) (hf : ∀ a, (f a).Keeps view) : (c >>= f).Keeps view := by
  intro s
  rw [ends_bind]
  refine (hc s).mono ?_ fun _ _ ht => ht
  intro a t ht
  refine (hf a t).mono ?_ ?_
  · intro b u hu
    rw [hu, ht]
  · intro d u hu
    rw [hu, ht]

theorem get_bind {f : CheckState → Check β} (hf : ∀ s, (f s).Keeps view) :
    (get >>= f).Keeps view :=
  bind (fun _ => rfl) hf

theorem closed (view : CheckState → γ) : Closed fun _ c => c.Keeps view where
  pure _ := fun _ => rfl
  throw _ := fun _ => rfl
  get_bind _ := get_bind
  bind := bind

theorem map (g : α → β) (hc : c.Keeps view) : (g <$> c).Keeps view := by
  intro s
  rw [ends_map]
  exact hc s

theorem ofExcept_bind {e : Except Diagnostic α} (hf : ∀ a, (f a).Keeps view) :
    (Check.ofExcept e >>= f).Keeps view := by
  cases e with
  | ok a => exact hf a
  | error d => exact (closed view).throw d

theorem mapM {f : α → Check β} (h : ∀ a, (f a).Keeps view) (as : List α) :
    (as.mapM f).Keeps view := by
  induction as with
  | nil => exact (closed view).pure []
  | cons a rest ih =>
    rw [List.mapM_cons]
    exact (h a).bind fun b => ih.bind fun bs => (closed view).pure (b :: bs)

/-- The local state is no part of the registry. -/
theorem transaction (view : LocalState → γ) (h : c.Keeps fun s => view s.localState) :
    c.transaction.Keeps fun s => view s.localState := by
  intro s
  rw [ends_transaction]
  exact h { s with registry := s.registry.begin }

theorem comp {δ : Type} (g : γ → δ) (h : c.Keeps view) : c.Keeps fun s => g (view s) := by
  intro s
  refine (h s).mono ?_ ?_
  · intro _ t ht
    exact congrArg g ht
  · intro _ t ht
    exact congrArg g ht

theorem returned_of_localState (h : c.Keeps CheckState.localState) :
    c.Keeps CheckState.returned :=
  h.comp LocalState.returned

theorem frame_of_localState (h : c.Keeps CheckState.localState) : c.Keeps CheckState.frame :=
  h.comp LocalState.frame

theorem undoing {undo : Frame → Frame} (h : c.Keeps CheckState.returned) :
    (c.undoing undo).Keeps CheckState.returned := by
  intro s
  rw [ends_undoing]
  exact h s

theorem nested {ctx : Context} {span : Span} {body : Context → Check α}
    (h : ∀ ctx', ctx'.function? = ctx.function? → (body ctx').Keeps view) :
    (ctx.nested span body).Keeps view := by
  unfold Context.nested
  split
  · exact h { ctx with depth := ctx.depth + 1 } rfl
  · exact (closed view).fail _ _

/-- The note whether the function around has returned is put back. -/
theorem apart (c : Check α) : c.apart.Keeps CheckState.returned := by
  intro s
  rw [ends_apart]
  unfold Ends
  split
  · rfl
  · rfl

/-- The current frame is put back. -/
theorem inFrame {ctx : Context} {frame : Frame} {body : Context → Check α}
    (h : ∀ ctx', ctx'.function? = ctx.function? → (body ctx').Keeps CheckState.returned) :
    (ctx.inFrame frame body).Keeps CheckState.localState := by
  intro s
  rw [Context.ends_inFrame]
  -- the body is free to change its own frame, which is dropped
  refine (h { ctx with outer := s.frame :: ctx.outer } rfl { s with frame }).mono ?_ ?_
  · intro _ t ht
    exact congrArg (LocalState.mk s.frame) ht
  · intro _ t ht
    exact congrArg (LocalState.mk s.frame) ht

theorem apart_frame (h : c.Keeps CheckState.frame) : c.apart.Keeps CheckState.frame := by
  intro s
  rw [ends_apart]
  exact h { s with returned := false }

theorem frame_inFrame (ctx : Context) (frame : Frame) (body : Context → Check α) :
    (ctx.inFrame frame body).Keeps CheckState.frame := by
  intro s
  rw [Context.ends_inFrame]
  unfold Ends
  split
  · rfl
  · rfl

/-- The same for a body one level further in. -/
theorem inFrame_nested {ctx : Context} {frame : Frame} {span : Span} {body : Context → Check α}
    (h : ∀ ctx', ctx'.function? = ctx.function? → (body ctx').Keeps CheckState.returned) :
    (ctx.inFrame frame fun ctx => ctx.nested span body).Keeps CheckState.returned :=
  returned_of_localState <| inFrame fun _ hin => nested fun _ hnested => h _ (hnested.trans hin)

/-- The current frame is put back, and so is the note whether the function around has returned. -/
theorem apart_inFrame (ctx : Context) (frame : Frame) (body : Context → Check α) :
    (ctx.inFrame frame body).apart.Keeps CheckState.localState := by
  intro s
  rw [ends_apart, Context.ends_inFrame]
  unfold Ends
  split
  · rfl
  · rfl

end Keeps

end Check

namespace Context

open Check

/-- A declaration changes the registry and the current frame, and nothing else. -/
theorem bind_keeps {γ : Type} {view : CheckState → γ}
    (hview : ∀ s registry frame, view { s with registry, frame } = view s) (name : String)
    (type : Slot Ty) (refused : Cause) (span : Span) :
    (bind name type refused span).Keeps view := by
  intro s
  unfold bind
  simp only [ends_bind, ends_insertDeclaration, ends_get]
  split
  · exact hview s _ _
  · exact hview s _ s.frame

theorem declareParameter_keeps {γ : Type} {view : CheckState → γ} (ctx : Context)
    (hview : ∀ s registry frame, view { s with registry, frame } = view s) (p : Parameter) :
    (ctx.declareParameter p).Keeps view := by
  unfold declareParameter
  refine (Keeps.closed _).scope_bind fun scope => .ofExcept_bind fun type => ?_
  exact (bind_keeps hview _ _ _ _).bind fun id => (Keeps.closed _).pure _

theorem parameterHead_keeps (ctx : Context) (parameters : List Parameter) (result : Ty) :
    (ctx.parameterHead parameters result).Keeps CheckState.localState := by
  unfold parameterHead
  refine .inFrame fun ctx _ => ?_
  have hdeclared : (parameters.mapM ctx.declareParameter).Keeps CheckState.returned :=
    .mapM (ctx.declareParameter_keeps fun _ _ _ => rfl) parameters
  exact hdeclared.bind fun declared => .get_bind fun s => (Keeps.closed _).pure _

theorem functionHead_keeps (ctx : Context) (parameters : List Parameter)
    (result? : Option TypeExpr) :
    (ctx.functionHead parameters result?).Keeps CheckState.localState := by
  rw [functionHead_eq]
  cases result? with
  | none => exact ctx.parameterHead_keeps parameters .nothing
  | some t =>
    exact (Keeps.closed _).scope_bind fun scope =>
      .ofExcept_bind (ctx.parameterHead_keeps parameters)

theorem valueInto_keeps {γ : Type} {view : CheckState → γ} {value : Check TypedExpr}
    (hvalue : value.Keeps view) (type : Slot Ty) (span : Span) :
    (valueInto value type span).Keeps view := by
  unfold valueInto
  refine hvalue.bind fun v => .bind ?_ fun _ => (Keeps.closed view).pure v
  exact expectAssignable_closed (Keeps.closed view) _ _ _

theorem functionBody_keeps (ctx : Context) (head : FunctionHead) (name? : Option String)
    (bodySpan : Span) (body : Context → Check (List TypedStmt)) :
    (ctx.functionBody head name? bodySpan body).Keeps CheckState.localState := by
  unfold functionBody
  refine (Keeps.apart_inFrame _ _ _).bind fun (stmts, returned) => ?_
  dsimp only
  split
  · exact (Keeps.closed _).pure stmts
  · exact (Keeps.closed _).fail _ _

theorem lambda_keeps (ctx : Context) (parameters : List Parameter) (result? : Option TypeExpr)
    (bodySpan : Span) (body : Context → Check (List TypedStmt)) (span : Span) :
    (ctx.lambda parameters result? bodySpan body span).Keeps CheckState.localState := by
  unfold lambda
  refine Keeps.transaction id ?_
  refine (ctx.functionHead_keeps parameters result?).bind fun head => ?_
  exact (ctx.functionBody_keeps _ _ _ _).bind fun stmts => (Keeps.closed _).pure _

end Context

/-- An expression leaves the local state as it was. -/
theorem Expr.check_keeps (e : Expr) (ctx : Context) :
    (e.check ctx).Keeps CheckState.localState := by
  refine Expr.check_closed { Check.Keeps.closed CheckState.localState with lambda := ?_ } e ctx
  rintro ⟨parameters, result?, ⟨body, bodySpan⟩⟩ span ctx
  exact ctx.lambda_keeps parameters result? bodySpan (Stmt.checkAll body) span

/-- An expression one level further in. -/
theorem Expr.nested_keeps (e : Expr) (ctx : Context) :
    (ctx.nested e.span e.check).Keeps CheckState.localState :=
  .nested fun ctx _ => e.check_keeps ctx

/-! ## Statements outside of functions -/

namespace Context

open Check

variable {ctx : Context} {name : String} {nameSpan valueSpan span : Span} {value : Check TypedExpr}

theorem varDecl_keeps_returned (mode : Mode) (type? : Option TypeExpr)
    {value? : Option (Span × Check TypedExpr)}
    (hvalue : ∀ value ∈ value?, value.2.Keeps CheckState.returned) :
    (ctx.varDecl name nameSpan mode type? value? span).Keeps CheckState.returned := by
  have hclosed := Keeps.closed CheckState.returned
  have hdeclare (type : Slot Ty) (span : Span) :
      (ctx.declareVariable name type span).Keeps CheckState.returned :=
    bind_keeps (fun _ _ _ => rfl) _ _ _ _
  have hexpect (value : TypedExpr) (type : Slot Ty) (span : Span) :
      (expectAssignable value type span).Keeps CheckState.returned :=
    expectAssignable_closed hclosed _ _ _
  unfold varDecl
  split
  · exact hclosed.fail _ _
  · split
    · refine hclosed.scope_bind fun scope => .ofExcept_bind fun declared => ?_
      dsimp only
      refine Keeps.transaction LocalState.returned ?_
      split
      · exact (hdeclare _ _).bind fun id => hclosed.pure _
      · next valueSpan value =>
        have hv := hvalue _ rfl
        split
        · rw [recursiveVariable_eq]
          refine (hdeclare _ _).bind fun id => .bind (.undoing ?_) fun v => hclosed.pure _
          exact valueInto_keeps hv _ _
        · exact hv.bind fun v => (hexpect _ _ _).bind fun _ => (hdeclare _ _).bind fun id =>
            hclosed.pure _
    · refine Keeps.transaction LocalState.returned ?_
      split
      · exact hclosed.fail _ _
      · next valueSpan value =>
        refine (hvalue _ rfl).bind fun v => ?_
        split
        · exact (hexpect _ _ _).bind fun _ => (hdeclare _ _).bind fun id => hclosed.pure _
        · exact hclosed.fail _ _

theorem fnDecl_keeps_returned (parameters : List Parameter) (result? : Option TypeExpr)
    (bodySpan : Span) (body : Context → Check (List TypedStmt)) :
    (ctx.fnDecl name nameSpan parameters result? bodySpan body span).Keeps CheckState.returned := by
  have hclosed := Keeps.closed CheckState.returned
  unfold fnDecl
  refine Keeps.transaction LocalState.returned ?_
  refine (ctx.functionHead_keeps parameters result?).returned_of_localState.bind fun head => ?_
  refine .bind (fun _ => rfl) fun id => .get_bind fun s => ?_
  split
  · exact hclosed.fail _ _
  · refine .bind (fun _ => rfl) fun _ => .bind (.undoing ?_) fun stmts => hclosed.pure _
    exact (ctx.functionBody_keeps _ _ _ _).returned_of_localState

theorem classDecl_keeps_returned (parameters : List Parameter)
    (members : ClassRef → Context → Check (List TypedStmt)) :
    (ctx.classDecl name nameSpan parameters members span).Keeps CheckState.returned := by
  have hclosed := Keeps.closed CheckState.returned
  unfold classDecl
  refine hclosed.scope_bind fun scope => ?_
  split
  · exact hclosed.fail _ _
  · refine .bind (fun _ => rfl) fun c => ?_
    exact (Keeps.apart _).bind fun ((ids, members), _) => hclosed.pure _

end Context

open Check

mutual

/-- A statement outside of functions can not return. -/
theorem Stmt.check_keeps_returned : ∀ (s : Stmt) (ctx : Context), ctx.function? = none →
    (s.check ctx).Keeps CheckState.returned
  | ⟨form, span⟩, ctx, h => form.check_keeps_returned span ctx h

theorem StmtForm.check_keeps_returned : ∀ (form : StmtForm) (span : Span) (ctx : Context),
    ctx.function? = none → (form.check span ctx).Keeps CheckState.returned
  | .expression e, _, ctx, _ =>
    (e.nested_keeps ctx).returned_of_localState.bind fun _ => (Keeps.closed _).pure _
  | .varDecl _ _ mode type? (some value), _, ctx, _ =>
    Context.varDecl_keeps_returned mode type? fun _ hvalue =>
      Option.mem_some.1 hvalue ▸ (value.nested_keeps ctx).returned_of_localState
  | .varDecl _ _ mode type? none, _, _, _ =>
    Context.varDecl_keeps_returned mode type? fun _ hvalue => nomatch hvalue
  | .classDecl _ _ parameters _, _, _, _ => Context.classDecl_keeps_returned parameters _
  | .fnDecl _ _ ⟨parameters, result?, ⟨_, bodySpan⟩⟩, _, _, _ =>
    Context.fnDecl_keeps_returned parameters result? bodySpan _
  | .ret (some _), _, ⟨_, _, _, _, _⟩, rfl => (Keeps.closed _).fail _ _
  | .ret none, _, ⟨_, _, _, _, _⟩, rfl => (Keeps.closed _).fail _ _
  | .block ⟨body, _⟩, _, _, h =>
    (Keeps.inFrame fun ctx' h' => Stmt.checkAll_keeps_returned body ctx' (h'.trans h))
      |>.returned_of_localState.bind fun _ => (Keeps.closed _).pure _
  | .branch condition thenBody (some elseBody), _, ctx, h =>
    (condition.nested_keeps ctx).returned_of_localState.bind fun _ =>
      (Keeps.inFrame_nested fun ctx' h' =>
        thenBody.check_keeps_returned ctx' (h'.trans h)).bind fun _ =>
        (Keeps.inFrame_nested fun ctx' h' =>
          elseBody.check_keeps_returned ctx' (h'.trans h)).bind fun _ => (Keeps.closed _).pure _
  | .branch condition thenBody none, _, ctx, h =>
    (condition.nested_keeps ctx).returned_of_localState.bind fun _ =>
      (Keeps.inFrame_nested fun ctx' h' =>
        thenBody.check_keeps_returned ctx' (h'.trans h)).bind fun _ => (Keeps.closed _).pure _
  | .loop condition body, _, ctx, h =>
    (condition.nested_keeps ctx).returned_of_localState.bind fun _ =>
      (Keeps.inFrame_nested fun ctx' h' =>
        body.check_keeps_returned ctx' (h'.trans h)).bind fun _ => (Keeps.closed _).pure _
  | .print value, _, ctx, _ =>
    (value.nested_keeps ctx).returned_of_localState.bind fun _ => (Keeps.closed _).pure _

theorem Stmt.checkAll_keeps_returned : ∀ (stmts : List Stmt) (ctx : Context),
    ctx.function? = none → (Stmt.checkAll stmts ctx).Keeps CheckState.returned
  | [], _, _ => (Keeps.closed _).pure []
  | s :: rest, ctx, h =>
    (Keeps.nested fun ctx' h' => s.check_keeps_returned ctx' (h'.trans h)).bind fun _ =>
      (Stmt.checkAll_keeps_returned rest ctx h).bind fun _ => (Keeps.closed _).pure _

end

end Nominal
