import Nominal.Proofs.Typing.Ends
import Nominal.Typing.Check

/-!
# Runs of checks

When a check that is put together from others ends in a given way, its parts ended in some way one
after the other. These equations take such a run apart, and the `run_` equations put it together
from the runs of its parts.
-/

namespace Nominal

namespace Check

variable {α β : Type} {s t u : CheckState} {d : Diagnostic}

theorem bind_apply (c : Check α) (f : α → Check β) (s : CheckState) :
    (c >>= f) s = match c s with
      | .ok a t => f a t
      | .error d t => .error d t := by
  show EStateM.bind c f s = _
  unfold EStateM.bind
  cases c s <;> rfl

theorem bind_eq_ok {c : Check α} {f : α → Check β} {b : β} :
    (c >>= f) s = .ok b u ↔ ∃ a t, c s = .ok a t ∧ f a t = .ok b u := by
  rw [bind_apply]
  cases c s with
  | ok a t =>
    constructor
    · intro h
      exact ⟨a, t, rfl, h⟩
    · rintro ⟨_, _, hrun, h⟩
      cases hrun
      exact h
  | error d t =>
    constructor
    · intro h
      cases h
    · rintro ⟨_, _, hrun, -⟩
      cases hrun

theorem pure_eq_ok {a b : α} : (pure a : Check α) s = .ok b u ↔ a = b ∧ s = u := by
  show EStateM.Result.ok a s = .ok b u ↔ _
  rw [EStateM.Result.ok.injEq]

/-! ## From the runs of the parts -/

theorem run_bind_of_ok {c : Check α} {f : α → Check β} {a : α}
    (hc : c s = .ok a t) : (c >>= f) s = f a t := by
  show EStateM.bind c f s = f a t
  unfold EStateM.bind
  rw [hc]

theorem run_bind_of_error {c : Check α} {f : α → Check β}
    (hc : c s = .error d t) : (c >>= f) s = .error d t := by
  show EStateM.bind c f s = .error d t
  unfold EStateM.bind
  rw [hc]

theorem run_transaction_of_ok {c : Check α} {a : α}
    (hc : c { s with registry := s.registry.begin } = .ok a t) :
    c.transaction s = .ok a { t with registry := t.registry.commit } := by
  unfold transaction
  rw [hc]

theorem run_transaction_of_error {c : Check α}
    (hc : c { s with registry := s.registry.begin } = .error d t) :
    c.transaction s = .error d { t with registry := t.registry.abort } := by
  unfold transaction
  rw [hc]

theorem run_undoing_of_ok {c : Check α} {a : α} {undo : Frame → Frame}
    (hc : c s = .ok a t) : c.undoing undo s = .ok a t := by
  unfold undoing
  rw [hc]

theorem run_undoing_of_error {c : Check α} {undo : Frame → Frame} (hc : c s = .error d t) :
    c.undoing undo s = .error d { t with frame := undo t.frame } := by
  unfold undoing
  rw [hc]

theorem run_apart_of_ok {c : Check α} {a : α}
    (hc : c { s with returned := false } = .ok a t) :
    c.apart s = .ok (a, t.returned) { t with returned := s.returned } := by
  unfold apart
  rw [hc]

theorem run_apart_of_error {c : Check α}
    (hc : c { s with returned := false } = .error d t) :
    c.apart s = .error d { t with returned := s.returned } := by
  unfold apart
  rw [hc]

theorem run_inFrame_of_ok {ctx : Context} {frame : Frame} {body : Context → Check α} {a : α}
    (hbody : body { ctx with outer := s.frame :: ctx.outer } { s with frame } = .ok a t) :
    ctx.inFrame frame body s = .ok a { t with frame := s.frame } := by
  unfold Context.inFrame
  rw [hbody]

theorem run_inFrame_of_error {ctx : Context} {frame : Frame} {body : Context → Check α}
    (hbody : body { ctx with outer := s.frame :: ctx.outer } { s with frame } = .error d t) :
    ctx.inFrame frame body s = .error d { t with frame := s.frame } := by
  unfold Context.inFrame
  rw [hbody]

end Check

/-- A value that may flow into its target is let through, and nothing is changed. -/
theorem expectAssignable_eq_ok {value : TypedExpr} {target : Slot Ty} {span : Span}
    {s u : CheckState} {a : Unit} :
    expectAssignable value target span s = .ok a u ↔
      value.type.assignableTo target = true ∧ s = u := by
  unfold expectAssignable
  cases h : value.type.assignableTo target with
  | true => simp [Check.pure_eq_ok]
  | false =>
    constructor
    · intro hrun
      cases hrun
    · rintro ⟨hassignable, -⟩
      cases hassignable

end Nominal
