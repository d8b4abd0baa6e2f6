import Nominal.Proofs.Registry
import Nominal.Proofs.Renaming.Scopes
import Nominal.Proofs.Renaming.Trees
import Nominal.Proofs.Typing.Runs
import Nominal.Proofs.Typing.Sound
import Nominal.Typing.Statements

/-!
# Two runs of a check

Two states are in step (`CheckState.Renamed`) when the second is the first with its declarations and
classes renamed and the renaming goes on with the next numbers and keys of both. A check follows
another (`Check.Follows`) when both end alike from states in step: both succeed, with a value and
its renaming, or both fail with the same diagnostic, and in states in step again.

A renaming is only known to fit the numbers and keys up to some later state. So the two runs are
compared as long as the first stays before that state, and a check is also shown to give no number
and no class back, so that a run which stays before the state has been there all the time.
-/

namespace Nominal

/-- The state `t` is later than `s`: at least as many numbers were handed out, and there are at
least as many classes. -/
structure CheckState.Before (s t : CheckState) : Prop where
  numbers : s.registry.lastNumber ≤ t.registry.lastNumber
  classes : s.classes.classes.length ≤ t.classes.classes.length

namespace CheckState.Before

variable {s t u : CheckState}

theorem refl (s : CheckState) : s.Before s :=
  ⟨Nat.le_refl _, Nat.le_refl _⟩

theorem trans (h : s.Before t) (h' : t.Before u) : s.Before u :=
  ⟨Nat.le_trans h.numbers h'.numbers, Nat.le_trans h.classes h'.classes⟩

end CheckState.Before

/-- The state `s'` is the renamed state `s`. What is declared next in the one, up to the state `z`,
has the new number or key in the other. -/
structure CheckState.Renamed (ρ : Renaming) (s s' z : CheckState) : Prop where
  ids : ∀ n, s.registry.lastNumber + n < z.registry.lastNumber →
    ρ.id (s.registry.lastNumber + n + 1) = s'.registry.lastNumber + n + 1
  keys : ∀ n, s.classes.classes.length + n < z.classes.classes.length →
    ρ.key (s.classes.classes.length + n) = s'.classes.classes.length + n
  classes : s.classes.Renamed ρ s'.classes
  frame : s'.frame = s.frame.rename ρ
  returned : s'.returned = s.returned

/-- The surroundings with all declarations renamed. -/
def Context.rename (ρ : Renaming) (ctx : Context) : Context :=
  { ctx with outer := ctx.outer.rename ρ, function? := ctx.function?.map (FnType.rename ρ) }

/-- The checks end alike from states in step, as long as the first run stays before `z`. -/
structure Check.Follows {α β : Type} (ρ : Renaming) (z : CheckState) (g : α → β) (c : Check α)
    (c' : Check β) : Prop where
  grows : ∀ s, c.Ends s (fun _ t => s.Before t) (fun _ t => s.Before t)
  alike : ∀ s s', s.Renamed ρ s' z →
    c.Ends s (fun a t => t.Before z → ∃ t', c' s' = .ok (g a) t' ∧ t.Renamed ρ t' z)
      (fun d t => t.Before z → ∃ t', c' s' = .error d t' ∧ t.Renamed ρ t' z)

/-! ## States in step -/

namespace CheckState.Renamed

variable {ρ : Renaming} {z s s' : CheckState}

/-- A registry in which as many numbers were handed out is as good. -/
theorem setRegistry (h : s.Renamed ρ s' z) {r r' : Registry}
    (hr : r.lastNumber = s.registry.lastNumber) (hr' : r'.lastNumber = s'.registry.lastNumber) :
    { s with registry := r }.Renamed ρ { s' with registry := r' } z where
  ids n hn := by
    simp only [hr, hr'] at hn ⊢
    exact h.ids n hn
  keys := h.keys
  classes := h.classes
  frame := h.frame
  returned := h.returned

theorem setFrame (h : s.Renamed ρ s' z) (frame : Frame) :
    { s with frame }.Renamed ρ { s' with frame := frame.rename ρ } z :=
  ⟨h.ids, h.keys, h.classes, rfl, h.returned⟩

theorem setReturned (h : s.Renamed ρ s' z) (returned : Bool) :
    { s with returned }.Renamed ρ { s' with returned } z :=
  ⟨h.ids, h.keys, h.classes, h.frame, rfl⟩

theorem setClasses (h : s.Renamed ρ s' z) {classes classes' : ClassTable}
    (hlength : classes.classes.length = s.classes.classes.length)
    (hlength' : classes'.classes.length = s'.classes.classes.length)
    (hclasses : classes.Renamed ρ classes') :
    { s with classes }.Renamed ρ { s' with classes := classes' } z where
  ids := h.ids
  keys n hn := by
    simp only [hlength, hlength'] at hn ⊢
    exact h.keys n hn
  classes := hclasses
  frame := h.frame
  returned := h.returned

/-- One more number was handed out in both. -/
theorem insert (h : s.Renamed ρ s' z) (name : String) (type type' : Slot Ty) :
    { s with registry := (s.registry.insert name type).2 }.Renamed ρ
      { s' with registry := (s'.registry.insert name type').2 } z where
  ids n hn := by
    simp only [Registry.lastNumber_insert] at hn ⊢
    have hnext := h.ids (n + 1) (by omega)
    have hnumber : s.registry.lastNumber + 1 + n + 1 = s.registry.lastNumber + (n + 1) + 1 := by
      omega
    rw [hnumber, hnext]
    omega
  keys := h.keys
  classes := h.classes
  frame := h.frame
  returned := h.returned

/-- The number that is handed out next is the renamed one. -/
theorem next_id (h : s.Renamed ρ s' z) (hz : s.registry.lastNumber < z.registry.lastNumber)
    (name : String) (type type' : Slot Ty) :
    (s'.registry.insert name type').1 = (s.registry.insert name type).1.rename ρ := by
  have hnumber : (s'.registry.insert name type').1.number =
      ρ.id (s.registry.insert name type).1.number := by
    rw [Registry.number_insert, Registry.number_insert]
    exact (h.ids 0 hz).symm
  exact congrArg DeclId.mk hnumber

end CheckState.Renamed

/-! ## Putting checks together -/

namespace Check

variable {α β γ δ : Type} {ρ : Renaming} {z : CheckState} {g : α → β} {h : γ → δ}

namespace Follows

theorem pure {a : α} {b : β} (hb : b = g a) : Follows ρ z g (Pure.pure a) (Pure.pure b) where
  grows s := .refl s
  alike s s' hs := fun _ => ⟨s', by rw [hb]; rfl, hs⟩

theorem throw {d d' : Diagnostic} (hd : d' = d) :
    Follows ρ z g (MonadExcept.throw d) (MonadExcept.throw d') where
  grows s := .refl s
  alike s s' hs := fun _ => ⟨s', by rw [hd]; rfl, hs⟩

theorem fail {cause cause' : Cause} (hcause : cause' = cause) (span : Span) :
    Follows ρ z g (Check.fail cause span) (Check.fail cause' span) :=
  throw (by rw [hcause])

theorem bind {c : Check α} {c' : Check β} {f : α → Check γ} {f' : β → Check δ}
    (hc : Follows ρ z g c c') (hf : ∀ a, Follows ρ z h (f a) (f' (g a))) :
    Follows ρ z h (c >>= f) (c' >>= f') where
  grows s := by
    rw [ends_bind]
    refine (hc.grows s).mono (fun a t ht => ?_) fun _ _ ht => ht
    exact ((hf a).grows t).mono (fun _ _ hu => ht.trans hu) fun _ _ hu => ht.trans hu
  alike s s' hs := by
    rw [ends_bind]
    refine (hc.alike s s' hs).mono (fun a t ht => ?_) fun d t ht hz => ?_
    · by_cases hz : t.Before z
      · obtain ⟨t', hrun, hrenamed⟩ := ht hz
        rw [run_bind_of_ok hrun]
        exact (hf a).alike t t' hrenamed
      · -- the rest of the run does not come back before `z`
        exact ((hf a).grows t).mono (fun _ _ hu hzu => absurd (hu.trans hzu) hz)
          fun _ _ hu hzu => absurd (hu.trans hzu) hz
    · obtain ⟨t', hrun, hrenamed⟩ := ht hz
      exact ⟨t', run_bind_of_error hrun, hrenamed⟩

/-- Going on after reading the frame and the classes. -/
theorem get_bind {f : CheckState → Check γ} {f' : CheckState → Check δ}
    (hf : ∀ s s' : CheckState, s'.frame = s.frame.rename ρ → s.classes.Renamed ρ s'.classes →
      Follows ρ z h (f s) (f' s')) : Follows ρ z h (get >>= f) (get >>= f') where
  grows s := by
    obtain ⟨classes, -, hclasses⟩ := s.classes.exists_renamed ρ
    exact (hf s { s with classes, frame := s.frame.rename ρ } rfl hclasses).grows s
  alike s s' hs := (hf s s' hs.frame hs.classes).alike s s' hs

theorem scope_bind {ctx : Context} {f : Scope → Check γ} {f' : Scope → Check δ}
    (hf : ∀ scope, Follows ρ z h (f scope) (f' (scope.rename ρ))) :
    Follows ρ z h (ctx.scope >>= f) ((ctx.rename ρ).scope >>= f') := by
  have hget : Follows ρ z h (get >>= fun s : CheckState => f (s.frame :: ctx.outer))
      (get >>= fun s : CheckState => f' (s.frame :: (ctx.rename ρ).outer)) := by
    refine get_bind fun s s' hframe _ => ?_
    rw [hframe]
    exact hf (s.frame :: ctx.outer)
  exact hget

theorem ofExcept_bind {e : Except Diagnostic α} {e' : Except Diagnostic β} {f : α → Check γ}
    {f' : β → Check δ} (he : e' = e.map g) (hf : ∀ a, Follows ρ z h (f a) (f' (g a))) :
    Follows ρ z h (Check.ofExcept e >>= f) (Check.ofExcept e' >>= f') := by
  rw [he]
  cases e with
  | ok a => exact hf a
  | error d => exact throw rfl

theorem map {c : Check α} {c' : Check β} {f : α → γ} {f' : β → δ} (hc : Follows ρ z g c c')
    (hf : ∀ a, f' (g a) = h (f a)) : Follows ρ z h (f <$> c) (f' <$> c') := by
  rw [map_eq_pure_bind, map_eq_pure_bind]
  exact hc.bind fun a => pure (hf a)

theorem mapM {f : α → Check γ} {f' : α → Check δ} (hf : ∀ a, Follows ρ z h (f a) (f' a))
    (as : List α) : Follows ρ z (List.map h) (as.mapM f) (as.mapM f') := by
  induction as with
  | nil => exact pure rfl
  | cons a rest ih =>
    rw [List.mapM_cons, List.mapM_cons]
    exact (hf a).bind fun b => ih.bind fun bs => pure rfl

/-! ## Changing the state -/

theorem insertDeclaration (name : String) (type : Slot Ty) :
    Follows ρ z (DeclId.rename ρ) (Check.insertDeclaration name type)
      (Check.insertDeclaration name (type.rename ρ)) where
  grows s := by
    rw [ends_insertDeclaration]
    exact ⟨by rw [Registry.lastNumber_insert]; exact Nat.le_succ _, Nat.le_refl _⟩
  alike s s' hs := by
    rw [ends_insertDeclaration]
    intro hz
    have hlast : s.registry.lastNumber < z.registry.lastNumber := by
      have hnumbers := hz.numbers
      rwa [Registry.lastNumber_insert] at hnumbers
    refine ⟨{ s' with registry := (s'.registry.insert name (type.rename ρ)).2 }, ?_,
      hs.insert name type (type.rename ρ)⟩
    rw [← hs.next_id hlast name type (type.rename ρ)]
    rfl

theorem setFrame (frame : Frame) :
    Follows ρ z id (Check.setFrame frame) (Check.setFrame (frame.rename ρ)) where
  grows _ := ⟨Nat.le_refl _, Nat.le_refl _⟩
  alike _ s' hs := fun _ => ⟨{ s' with frame := frame.rename ρ }, rfl, hs.setFrame frame⟩

theorem setReturned : Follows ρ z id (modify fun s => { s with returned := true } : Check Unit)
    (modify fun s => { s with returned := true }) where
  grows _ := ⟨Nat.le_refl _, Nat.le_refl _⟩
  alike _ s' hs := fun _ => ⟨{ s' with returned := true }, rfl, hs.setReturned true⟩

theorem updateClass (c : ClassRef) {f f' : ClassInfo → ClassInfo}
    (hf : ∀ info, f' (info.rename ρ) = (f info).rename ρ) :
    Follows ρ z id (Check.updateClass c f) (Check.updateClass (c.rename ρ) f') where
  grows s := ⟨Nat.le_refl _, (ClassTable.length_update s.classes c f).symm ▸ Nat.le_refl _⟩
  alike _ s' hs := fun _ => ⟨{ s' with classes := s'.classes.update (c.rename ρ) f' }, rfl,
    hs.setClasses (ClassTable.length_update _ _ _) (ClassTable.length_update _ _ _)
      (hs.classes.update hf c)⟩

theorem declareClass (name : String) :
    Follows ρ z (ClassRef.rename ρ) (Context.declareClass name) (Context.declareClass name) where
  grows s := by
    unfold Context.declareClass
    rw [ends_modifyGet]
    exact ⟨Nat.le_refl _, by simp [ClassTable.declare]⟩
  alike s s' hs := by
    unfold Context.declareClass
    rw [ends_modifyGet]
    intro hz
    have hlength : s.classes.classes.length < z.classes.classes.length := by
      have hclasses := hz.classes
      rwa [ClassTable.declare, List.length_append] at hclasses
    -- the new class has the renamed key in the second run
    have hkey : ρ.key s.classes.classes.length = s'.classes.classes.length := hs.keys 0 hlength
    have hclass : (s'.classes.declare name).1 = (s.classes.declare name).1.rename ρ := by
      show ClassRef.mk s'.classes.classes.length name = ⟨ρ.key s.classes.classes.length, name⟩
      rw [hkey]
    have hframe : ((s'.frame.declareType name (.cls (s'.classes.declare name).1)).getD s'.frame) =
        ((s.frame.declareType name (.cls (s.classes.declare name).1)).getD s.frame).rename ρ := by
      rw [hclass, hs.frame, ← Ty.rename_cls, Frame.declareType_rename]
      cases s.frame.declareType name (.cls (s.classes.declare name).1) <;> rfl
    refine ⟨_, congrArg (EStateM.Result.ok · _) hclass, ?_⟩
    exact {
      ids := hs.ids
      keys := fun n hn => by
        have hnext := hs.keys (n + 1) (by simp [ClassTable.declare] at hn; omega)
        simp only [ClassTable.declare, List.length_append, List.length_singleton]
        rw [Nat.add_assoc, Nat.add_comm 1 n, hnext]
        omega
      classes := hs.classes.append hkey (.new name)
      frame := hframe
      returned := hs.returned }

/-! ## Around a check -/

theorem transaction {c : Check α} {c' : Check β} (hc : Follows ρ z g c c') :
    Follows ρ z g c.transaction c'.transaction where
  grows s := by
    rw [ends_transaction]
    refine (hc.grows _).mono (fun a t ht => ?_) fun d t ht => ⟨ht.numbers, ht.classes⟩
    exact ⟨by rw [Registry.lastNumber_commit]; exact ht.numbers, ht.classes⟩
  alike s s' hs := by
    rw [ends_transaction]
    have hbegin : { s with registry := s.registry.begin }.Renamed ρ
      { s' with registry := s'.registry.begin } z := hs.setRegistry rfl rfl
    refine (hc.alike _ _ hbegin).mono (fun a t ht hz => ?_) fun d t ht hz => ?_
    · obtain ⟨t', hrun, hrenamed⟩ := ht ⟨by simpa using hz.numbers, hz.classes⟩
      exact ⟨_, run_transaction_of_ok hrun,
        hrenamed.setRegistry t.registry.lastNumber_commit t'.registry.lastNumber_commit⟩
    · obtain ⟨t', hrun, hrenamed⟩ := ht ⟨hz.numbers, hz.classes⟩
      exact ⟨_, run_transaction_of_error hrun, hrenamed.setRegistry rfl rfl⟩

theorem undoing {c : Check α} {c' : Check β} {undo undo' : Frame → Frame}
    (hundo : ∀ frame : Frame, undo' (frame.rename ρ) = (undo frame).rename ρ)
    (hc : Follows ρ z g c c') : Follows ρ z g (c.undoing undo) (c'.undoing undo') where
  grows s := by
    rw [ends_undoing]
    exact (hc.grows s).mono (fun _ _ ht => ht) fun _ _ ht => ⟨ht.numbers, ht.classes⟩
  alike s s' hs := by
    rw [ends_undoing]
    refine (hc.alike s s' hs).mono (fun a t ht hz => ?_) fun d t ht hz => ?_
    · obtain ⟨t', hrun, hrenamed⟩ := ht hz
      exact ⟨t', run_undoing_of_ok hrun, hrenamed⟩
    · obtain ⟨t', hrun, hrenamed⟩ := ht ⟨hz.numbers, hz.classes⟩
      refine ⟨_, run_undoing_of_error hrun, ?_⟩
      rw [hrenamed.frame, hundo]
      exact hrenamed.setFrame (undo t.frame)

theorem apart {c : Check α} {c' : Check β} (hc : Follows ρ z g c c') :
    Follows ρ z (Prod.map g id) c.apart c'.apart where
  grows s := by
    rw [ends_apart]
    exact (hc.grows _).mono (fun _ _ ht => ⟨ht.numbers, ht.classes⟩)
      fun _ _ ht => ⟨ht.numbers, ht.classes⟩
  alike s s' hs := by
    rw [ends_apart]
    refine (hc.alike _ _ (hs.setReturned false)).mono (fun a t ht hz => ?_) fun d t ht hz => ?_
    · obtain ⟨t', hrun, hrenamed⟩ := ht ⟨hz.numbers, hz.classes⟩
      refine ⟨{ t' with returned := s'.returned }, ?_, ?_⟩
      · rw [run_apart_of_ok hrun, hrenamed.returned]
        rfl
      · rw [hs.returned]
        exact hrenamed.setReturned s.returned
    · obtain ⟨t', hrun, hrenamed⟩ := ht ⟨hz.numbers, hz.classes⟩
      refine ⟨_, run_apart_of_error hrun, ?_⟩
      rw [hs.returned]
      exact hrenamed.setReturned s.returned

theorem inFrame {ctx : Context} {body : Context → Check α} {body' : Context → Check β}
    (frame : Frame) (hbody : ∀ ctx, Follows ρ z g (body ctx) (body' (ctx.rename ρ))) :
    Follows ρ z g (ctx.inFrame frame body) ((ctx.rename ρ).inFrame (frame.rename ρ) body') where
  grows s := by
    rw [Context.ends_inFrame]
    exact ((hbody _).grows _).mono (fun _ _ ht => ⟨ht.numbers, ht.classes⟩)
      fun _ _ ht => ⟨ht.numbers, ht.classes⟩
  alike s s' hs := by
    rw [Context.ends_inFrame]
    have hinside : ({ ctx with outer := s.frame :: ctx.outer } : Context).rename ρ =
        { ctx.rename ρ with outer := s'.frame :: (ctx.rename ρ).outer } := by
      rw [hs.frame]
      rfl
    have hrun := (hbody { ctx with outer := s.frame :: ctx.outer }).alike _ _ (hs.setFrame frame)
    rw [hinside] at hrun
    refine hrun.mono (fun a t ht hz => ?_) fun d t ht hz => ?_
    · obtain ⟨t', hrun, hrenamed⟩ := ht ⟨hz.numbers, hz.classes⟩
      refine ⟨_, run_inFrame_of_ok hrun, ?_⟩
      rw [hs.frame]
      exact hrenamed.setFrame s.frame
    · obtain ⟨t', hrun, hrenamed⟩ := ht ⟨hz.numbers, hz.classes⟩
      refine ⟨_, run_inFrame_of_error hrun, ?_⟩
      rw [hs.frame]
      exact hrenamed.setFrame s.frame

theorem inNewFrame {ctx : Context} {body : Context → Check α} {body' : Context → Check β}
    (hbody : ∀ ctx, Follows ρ z g (body ctx) (body' (ctx.rename ρ))) :
    Follows ρ z g (ctx.inNewFrame body) ((ctx.rename ρ).inNewFrame body') :=
  inFrame .empty hbody

theorem nested {ctx : Context} {span : Span} {body : Context → Check α} {body' : Context → Check β}
    (hbody : ∀ ctx, Follows ρ z g (body ctx) (body' (ctx.rename ρ))) :
    Follows ρ z g (ctx.nested span body) ((ctx.rename ρ).nested span body') := by
  unfold Context.nested
  by_cases hdepth : ctx.depth < ctx.limit
  · rw [if_pos hdepth, if_pos (by exact hdepth)]
    exact hbody { ctx with depth := ctx.depth + 1 }
  · rw [if_neg hdepth, if_neg (by exact hdepth)]
    exact fail rfl span

/-- Whether a value may flow into a slot is the same after renaming. -/
theorem expect_bind {value : TypedExpr} {target : Slot Ty} {span : Span} {f : Unit → Check γ}
    {f' : Unit → Check δ} (hf : Follows ρ z h (f ()) (f' ())) :
    Follows ρ z h (expectAssignable value target span >>= f)
      (expectAssignable (value.rename ρ) (target.rename ρ) span >>= f') := by
  unfold expectAssignable
  rw [TypedExpr.type_rename, Slot.assignableTo_rename]
  split
  · exact hf
  · exact throw (by rw [wrongType_rename])

end Follows

end Check

end Nominal
