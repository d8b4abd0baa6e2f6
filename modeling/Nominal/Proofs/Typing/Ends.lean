import Nominal.Typing.Context

/-!
# How checks end

`Check.Ends` says what holds when a check that starts in a given state is over, for both of its ways
out: of the value and the state when it succeeds, of the diagnostic and the state when it fails. A
failure keeps the state, so a statement about failures is a statement about that state.

There is one lemma for each way to put checks together (`ends_bind`, `ends_transaction`,
`ends_inFrame`, ...). With these, what a rule does is computed from what its parts do, and no proof
about a rule looks into the monad.
-/

namespace Nominal

namespace Check

variable {α β : Type}

/-- Started in `s`, the check `c` ends with `ok` when it succeeds and with `failed` when it fails.
-/
def Ends (c : Check α) (s : CheckState) (ok : α → CheckState → Prop)
    (failed : Diagnostic → CheckState → Prop) : Prop :=
  match c s with
  | .ok a t => ok a t
  | .error d t => failed d t

section

variable {c : Check α} {s : CheckState} {ok ok' : α → CheckState → Prop}
  {failed failed' : Diagnostic → CheckState → Prop}

theorem Ends.mono (h : c.Ends s ok failed) (hok : ∀ a t, ok a t → ok' a t)
    (hfailed : ∀ d t, failed d t → failed' d t) : c.Ends s ok' failed' := by
  unfold Ends at h ⊢
  cases hc : c s with
  | ok a t =>
    rw [hc] at h
    exact hok a t h
  | error d t =>
    rw [hc] at h
    exact hfailed d t h

theorem Ends.and (h : c.Ends s ok failed) (h' : c.Ends s ok' failed') :
    c.Ends s (fun a t => ok a t ∧ ok' a t) (fun d t => failed d t ∧ failed' d t) := by
  unfold Ends at h h' ⊢
  cases hc : c s with
  | ok a t =>
    rw [hc] at h h'
    exact ⟨h, h'⟩
  | error d t =>
    rw [hc] at h h'
    exact ⟨h, h'⟩

theorem Ends.of_ok {a : α} {t : CheckState} (h : c.Ends s ok failed) (hc : c s = .ok a t) :
    ok a t := by
  unfold Ends at h
  rwa [hc] at h

theorem Ends.of_error {d : Diagnostic} {t : CheckState} (h : c.Ends s ok failed)
    (hc : c s = .error d t) : failed d t := by
  unfold Ends at h
  rwa [hc] at h

end

/-! ## Putting checks together -/

section

variable {s : CheckState} {failed : Diagnostic → CheckState → Prop}

@[simp] theorem ends_pure {ok : α → CheckState → Prop} (a : α) :
    (pure a : Check α).Ends s ok failed ↔ ok a s :=
  Iff.rfl

@[simp] theorem ends_bind {ok : β → CheckState → Prop} (c : Check α) (f : α → Check β) :
    (c >>= f).Ends s ok failed ↔
      c.Ends s (fun a t => (f a).Ends t ok failed) failed := by
  show (match EStateM.bind c f s with
    | .ok a t => ok a t
    | .error d t => failed d t) ↔ _
  unfold Ends EStateM.bind
  cases c s <;> rfl

@[simp] theorem ends_map {ok : β → CheckState → Prop} (f : α → β) (c : Check α) :
    (f <$> c).Ends s ok failed ↔ c.Ends s (fun a t => ok (f a) t) failed := by
  rw [map_eq_pure_bind, ends_bind]
  rfl

@[simp] theorem ends_get {ok : CheckState → CheckState → Prop} :
    (get : Check CheckState).Ends s ok failed ↔ ok s s :=
  Iff.rfl

@[simp] theorem ends_modify {ok : Unit → CheckState → Prop} (f : CheckState → CheckState) :
    (modify f : Check Unit).Ends s ok failed ↔ ok () (f s) :=
  Iff.rfl

@[simp] theorem ends_modifyGet {ok : α → CheckState → Prop} (f : CheckState → α × CheckState) :
    (modifyGet f : Check α).Ends s ok failed ↔ ok (f s).1 (f s).2 :=
  Iff.rfl

@[simp] theorem ends_throw {ok : α → CheckState → Prop} (d : Diagnostic) :
    (throw d : Check α).Ends s ok failed ↔ failed d s :=
  Iff.rfl

@[simp] theorem ends_fail {ok : α → CheckState → Prop} (cause : Cause) (span : Span) :
    (fail cause span : Check α).Ends s ok failed ↔ failed ⟨cause, span⟩ s :=
  Iff.rfl

@[simp] theorem ends_setFrame {ok : Unit → CheckState → Prop} (frame : Frame) :
    (setFrame frame).Ends s ok failed ↔ ok () { s with frame } :=
  Iff.rfl

@[simp] theorem ends_updateClass {ok : Unit → CheckState → Prop} (c : ClassRef)
    (f : ClassInfo → ClassInfo) :
    (updateClass c f).Ends s ok failed ↔ ok () { s with classes := s.classes.update c f } :=
  Iff.rfl

@[simp] theorem ends_insertDeclaration {ok : DeclId → CheckState → Prop} (name : String)
    (type : Slot Ty) :
    (insertDeclaration name type).Ends s ok failed ↔
      ok (s.registry.insert name type).1 { s with registry := (s.registry.insert name type).2 } :=
  Iff.rfl

@[simp] theorem ends_ofExcept {ok : α → CheckState → Prop} (e : Except Diagnostic α) :
    (ofExcept e).Ends s ok failed ↔
      (∀ a, e = .ok a → ok a s) ∧ ∀ d, e = .error d → failed d s := by
  cases e with
  | ok a => simp [ofExcept]
  | error d => simp [ofExcept]

@[simp] theorem ends_transaction {ok : α → CheckState → Prop} (c : Check α) :
    c.transaction.Ends s ok failed ↔
      c.Ends { s with registry := s.registry.begin }
        (fun a t => ok a { t with registry := t.registry.commit })
        (fun d t => failed d { t with registry := t.registry.abort }) := by
  unfold Ends transaction
  cases c { s with registry := s.registry.begin } <;> rfl

@[simp] theorem ends_undoing {ok : α → CheckState → Prop} (undo : Frame → Frame) (c : Check α) :
    (c.undoing undo).Ends s ok failed ↔
      c.Ends s ok (fun d t => failed d { t with frame := undo t.frame }) := by
  unfold Ends undoing
  cases c s <;> rfl

@[simp] theorem ends_apart {ok : α × Bool → CheckState → Prop} (c : Check α) :
    c.apart.Ends s ok failed ↔
      c.Ends { s with returned := false }
        (fun a t => ok (a, t.returned) { t with returned := s.returned })
        (fun d t => failed d { t with returned := s.returned }) := by
  unfold Ends apart
  cases c { s with returned := false } <;> rfl

end

end Check

namespace Context

variable {α : Type} {s : CheckState} {ok : α → CheckState → Prop}
  {failed : Diagnostic → CheckState → Prop}

@[simp] theorem ends_scope {ok : Scope → CheckState → Prop} (ctx : Context) :
    ctx.scope.Ends s ok failed ↔ ok (s.frame :: ctx.outer) s :=
  Iff.rfl

@[simp] theorem ends_inFrame (ctx : Context) (frame : Frame) (body : Context → Check α) :
    (ctx.inFrame frame body).Ends s ok failed ↔
      (body { ctx with outer := s.frame :: ctx.outer }).Ends { s with frame }
        (fun a t => ok a { t with frame := s.frame })
        (fun d t => failed d { t with frame := s.frame }) := by
  unfold Check.Ends inFrame
  cases body { ctx with outer := s.frame :: ctx.outer } { s with frame } <;> rfl

theorem ends_nested (ctx : Context) (span : Span) (body : Context → Check α) :
    (ctx.nested span body).Ends s ok failed ↔
      if ctx.depth < ctx.limit then (body { ctx with depth := ctx.depth + 1 }).Ends s ok failed
      else failed ⟨.nestingTooDeep ctx.limit, span⟩ s := by
  unfold nested
  split <;> rfl

end Context

end Nominal
