import Nominal.Proofs.Typing.Uniform

/-!
# Checks do not look up declarations

The registry is written to and never read while a tree is checked. So a check goes the same way when
more declarations were committed before (`Stmt.check_blind`), and what is shown of its run then is
shown of its run as it is.
-/

namespace Nominal

/-- With `more` declarations, committed before all others. -/
def Registry.recalling (r : Registry) (more : List Declaration) : Registry :=
  { r with committed := more ++ r.committed }

/-- With `more` declarations, committed before all others. -/
def CheckState.recalling (s : CheckState) (more : List Declaration) : CheckState :=
  { s with registry := s.registry.recalling more }

namespace Registry

variable (r : Registry) (more : List Declaration)

theorem insert_recalling (name : String) (type : Slot Ty) :
    (r.recalling more).insert name type =
      ((r.insert name type).1, (r.insert name type).2.recalling more) := by
  unfold insert recalling
  cases r.layers with
  | nil => simp
  | cons layer outer => rfl

theorem commit_recalling : (r.recalling more).commit = r.commit.recalling more := by
  obtain ⟨last, committed, layers⟩ := r
  unfold commit recalling
  match layers with
  | [] => rfl
  | [layer] => simp
  | layer :: outer :: rest => rfl

end Registry

namespace Check

variable {α β : Type}

/-- The same result, in a state with `more` declarations. -/
def recalling (more : List Declaration) :
    EStateM.Result Diagnostic CheckState α → EStateM.Result Diagnostic CheckState α
  | .ok a t => .ok a (t.recalling more)
  | .error d t => .error d (t.recalling more)

/-- Declarations that were committed before make no difference to the check. -/
def Blind (c : Check α) : Prop :=
  ∀ s more, c (s.recalling more) = recalling more (c s)

namespace Blind

variable {c : Check α}

theorem bind {f : α → Check β} (hc : c.Blind) (hf : ∀ a, (f a).Blind) : (c >>= f).Blind := by
  intro s more
  show EStateM.bind c f (s.recalling more) = recalling more (EStateM.bind c f s)
  unfold EStateM.bind
  rw [hc s more]
  cases c s with
  | ok a t => exact hf a t more
  | error d t => rfl

/-- The frame and the classes are the same with more declarations. -/
theorem get_bind {f : CheckState → Check β}
    (hread : ∀ s t : CheckState, s.frame = t.frame → s.classes = t.classes → f s = f t)
    (hf : ∀ s, (f s).Blind) : (get >>= f).Blind := by
  intro s more
  show f (s.recalling more) (s.recalling more) = recalling more (f s s)
  rw [hread (s.recalling more) s rfl rfl]
  exact hf s s more

theorem insertDeclaration (name : String) (type : Slot Ty) :
    (Check.insertDeclaration name type).Blind := by
  intro s more
  have hinsert := s.registry.insert_recalling more name type
  show EStateM.Result.ok ((s.registry.recalling more).insert name type).1
    ({ s with registry := ((s.registry.recalling more).insert name type).2 }) = _
  rw [hinsert]
  rfl

theorem transaction (h : c.Blind) : c.transaction.Blind := by
  intro s more
  have hbody := h { s with registry := s.registry.begin } more
  -- a transaction that is opened with more declarations has them when it is closed, too
  unfold Check.transaction
  show (match c (({ s with registry := s.registry.begin } : CheckState).recalling more) with
    | .ok a t => EStateM.Result.ok a { t with registry := t.registry.commit }
    | .error d t => .error d { t with registry := t.registry.abort }) = _
  rw [hbody]
  cases c { s with registry := s.registry.begin } with
  | ok a t =>
    have hcommit := t.registry.commit_recalling more
    show EStateM.Result.ok a { t with registry := (t.registry.recalling more).commit } = _
    rw [hcommit]
    rfl
  | error d t => rfl

theorem undoing (undo : Frame → Frame) (h : c.Blind) : (c.undoing undo).Blind := by
  intro s more
  unfold Check.undoing
  rw [h s more]
  cases c s <;> rfl

theorem apart (h : c.Blind) : c.apart.Blind := by
  intro s more
  have hbody := h { s with returned := false } more
  unfold Check.apart
  show (match c (({ s with returned := false } : CheckState).recalling more) with
    | .ok a t => EStateM.Result.ok (a, t.returned) { t with returned := s.returned }
    | .error d t => .error d { t with returned := s.returned }) = _
  rw [hbody]
  cases c { s with returned := false } <;> rfl

theorem inFrame {ctx : Context} {body : Context → Check α} (frame : Frame)
    (h : ∀ ctx, (body ctx).Blind) : (ctx.inFrame frame body).Blind := by
  intro s more
  have hbody := h { ctx with outer := s.frame :: ctx.outer } { s with frame } more
  unfold Context.inFrame
  show (match body { ctx with outer := s.frame :: ctx.outer }
      (({ s with frame } : CheckState).recalling more) with
    | .ok a t => EStateM.Result.ok a { t with frame := s.frame }
    | .error d t => .error d { t with frame := s.frame }) = _
  rw [hbody]
  cases body { ctx with outer := s.frame :: ctx.outer } { s with frame } <;> rfl

/-- What is shown of the run with more declarations is shown of the run without them. -/
theorem ends {s : CheckState} {more : List Declaration} {ok : α → CheckState → Prop}
    {failed : Diagnostic → CheckState → Prop} (hc : c.Blind)
    (h : c.Ends (s.recalling more) ok failed) :
    c.Ends s (fun a t => ok a (t.recalling more)) (fun d t => failed d (t.recalling more)) := by
  unfold Ends at h ⊢
  rw [hc s more] at h
  cases hrun : c s with
  | ok a t =>
    rw [hrun] at h
    exact h
  | error d t =>
    rw [hrun] at h
    exact h

theorem stepwise : Stepwise fun _ c => c.Blind where
  pure _ := fun _ _ => rfl
  throw _ := fun _ _ => rfl
  get_bind := get_bind
  bind := bind
  insertDeclaration := insertDeclaration
  setFrame _ := fun _ _ => rfl
  setReturned := fun _ _ => rfl
  transaction := transaction
  undoing := undoing
  apart := apart
  inFrame := inFrame

end Blind

end Check

/-- A class is entered and changed without a look at the registry. -/
theorem Context.classDecl_blind {ctx : Context} {members : List Stmt} (name : String)
    (nameSpan : Span) (parameters : List Parameter) (span : Span)
    (hmembers : ∀ member ∈ members, ∀ ctx, (member.check ctx).Blind) :
    (ctx.classDecl name nameSpan parameters (Stmt.checkMembers members parameters) span).Blind := by
  have hP := Check.Blind.stepwise
  rw [classDecl_eq]
  refine hP.scope_bind fun scope => ?_
  split
  · exact hP.fail _ _
  · have hdeclare : (declareClass name).Blind := fun _ _ => rfl
    exact hdeclare.bind fun c => hP.classRest (fun _ _ _ => rfl) parameters hmembers

/-- A statement is checked the same way when more declarations were committed before. -/
theorem Stmt.check_blind (s : Stmt) (ctx : Context) : (s.check ctx).Blind :=
  s.check_uniform (Check.Blind.stepwise.uniform Context.classDecl_blind) ctx

end Nominal
