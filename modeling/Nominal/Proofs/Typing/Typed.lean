import Nominal.Proofs.Typing.Ends
import Nominal.Proofs.Typing.Sound
import Nominal.Typing.Declarations

/-!
# Checks that give well-typed results

`Check.Typed` says of a check that it goes from sound states to later sound states, and that its
value has some property in every setting that the last state is a part of. Since checking only adds
to a state, such properties need not be carried along: what the parts of a check have in their
settings, the whole has in its own (`Check.Typed.bind`).

What is read from a state on the way holds of the setting as well (`Check.Typed.get_bind`). Facts
about a state that later states may lose are left to the few rules that use them, by
`Check.TypedFrom`.
-/

namespace Nominal

namespace Check

variable {α β : Type}

/-- Started in `s`, the check `c` ends in a later sound state when it succeeds, and its value has
the property `ok` in every setting that has this state as a part. -/
def TypedFrom (c : Check α) (s : CheckState) (outer : Scope) (ok : α → Setting → Prop) : Prop :=
  c.Ends s (fun a t => t.Sound outer ∧ s.Evolves t ∧ ∀ w, t.Within w → ok a w) (fun _ _ => True)

/-- The same for all sound states to start in. -/
def Typed (c : Check α) (outer : Scope) (ok : α → Setting → Prop) : Prop :=
  ∀ s, s.Sound outer → c.TypedFrom s outer ok

variable {c : Check α} {s : CheckState} {outer : Scope} {ok ok' : α → Setting → Prop}

/-! ## From one state -/

namespace TypedFrom

theorem mono (h : c.TypedFrom s outer ok) (hok : ∀ a w, s.Within w → ok a w → ok' a w) :
    c.TypedFrom s outer ok' := by
  refine Ends.mono h ?_ fun _ _ _ => trivial
  rintro a t ⟨ht, hevolves, ha⟩
  refine ⟨ht, hevolves, fun w hw => ?_⟩
  -- what has the later state as a part has `s` as a part
  have hs := hw.of_evolves hevolves
  exact hok a w hs (ha w hw)

theorem pure {a : α} (hs : s.Sound outer) (h : ∀ w, s.Within w → ok a w) :
    (Pure.pure a : Check α).TypedFrom s outer ok :=
  ⟨hs, .refl s, h⟩

theorem fail (cause : Cause) (span : Span) :
    (Check.fail cause span : Check α).TypedFrom s outer ok :=
  trivial

theorem get_bind {f : CheckState → Check β} {ok' : β → Setting → Prop}
    (hf : (f s).TypedFrom s outer ok') : (get >>= f).TypedFrom s outer ok' :=
  hf

theorem scope_bind {ctx : Context} {f : Scope → Check β} {ok' : β → Setting → Prop}
    (hf : (f (s.frame :: ctx.outer)).TypedFrom s outer ok') :
    (ctx.scope >>= f).TypedFrom s outer ok' :=
  hf

/-- Goes on from the state that the first part ends in, of which `Q` is known besides. -/
theorem bind_of_ends {Q : α → CheckState → Prop} {f : α → Check β} {ok' : β → Setting → Prop}
    (hc : c.Ends s (fun a t => t.Sound outer ∧ s.Evolves t ∧ Q a t) (fun _ _ => True))
    (hf : ∀ a t, t.Sound outer → s.Evolves t → Q a t → (f a).TypedFrom t outer ok') :
    (c >>= f).TypedFrom s outer ok' := by
  unfold TypedFrom
  rw [ends_bind]
  refine hc.mono ?_ fun _ _ _ => trivial
  rintro a t ⟨ht, hevolves, hQ⟩
  refine Ends.mono (hf a t ht hevolves hQ) ?_ fun _ _ _ => trivial
  rintro b u ⟨hu, hevolves', hb⟩
  exact ⟨hu, hevolves.trans hevolves', hb⟩

theorem bind {f : α → Check β} {ok' : β → Setting → Prop} (hc : c.TypedFrom s outer ok)
    (hf : ∀ a, (f a).Typed outer fun b w => ok a w → ok' b w) :
    (c >>= f).TypedFrom s outer ok' := by
  refine bind_of_ends hc ?_
  intro a t ht _ ha
  have hb := hf a t ht
  exact hb.mono fun b w hw h => h (ha w hw)

theorem transaction (h : c.TypedFrom { s with registry := s.registry.begin } outer ok) :
    c.transaction.TypedFrom s outer ok := by
  unfold TypedFrom
  rw [ends_transaction]
  refine Ends.mono h ?_ fun _ _ _ => trivial
  rintro a t ⟨ht, hevolves, ha⟩
  -- a transaction has the same entries before and after it is committed
  refine ⟨ht.of_entries_eq rfl rfl (by simp), ⟨?_, hevolves.classes⟩, ?_⟩
  · simpa using hevolves.entries
  · intro w hw
    refine ha w ⟨?_, hw.classes⟩
    simpa using hw.registry

theorem undoing {undo : Frame → Frame} (h : c.TypedFrom s outer ok) :
    (c.undoing undo).TypedFrom s outer ok := by
  unfold TypedFrom
  rw [ends_undoing]
  exact h

theorem apart (h : c.TypedFrom { s with returned := false } outer ok) :
    c.apart.TypedFrom s outer fun p w => ok p.1 w := by
  unfold TypedFrom
  rw [ends_apart]
  refine Ends.mono h ?_ fun _ _ _ => trivial
  rintro a t ⟨ht, hevolves, ha⟩
  exact ⟨ht.setReturned _, ⟨hevolves.entries, hevolves.classes⟩,
    fun w hw => ha w ⟨hw.registry, hw.classes⟩⟩

/-- In a sound frame inside the current one. -/
theorem inFrame {ctx : Context} {frame : Frame} {body : Context → Check α} (hs : s.Sound ctx.outer)
    (hframe : frame.Sound s.registry.entries s.classes.classes.length)
    (hbody : (body { ctx with outer := s.frame :: ctx.outer }).Typed (s.frame :: ctx.outer) ok) :
    (ctx.inFrame frame body).TypedFrom s ctx.outer ok := by
  unfold TypedFrom
  rw [Context.ends_inFrame]
  have hinside := hs.inside hframe
  refine Ends.mono (hbody _ hinside) ?_ fun _ _ _ => trivial
  rintro a t ⟨ht, hevolves, ha⟩
  -- the frame is back, with the registry and the classes that the body left
  exact ⟨ht.outside, ⟨hevolves.entries, hevolves.classes⟩,
    fun w hw => ha w ⟨hw.registry, hw.classes⟩⟩

end TypedFrom

/-! ## From every state -/

namespace Typed

theorem mono (h : c.Typed outer ok) (hok : ∀ a w, ok a w → ok' a w) : c.Typed outer ok' :=
  fun s hs => (h s hs).mono fun a w _ => hok a w

theorem pure {a : α} (h : ∀ w, ok a w) : (Pure.pure a : Check α).Typed outer ok :=
  fun _ hs => .pure hs fun w _ => h w

theorem fail (cause : Cause) (span : Span) : (Check.fail cause span : Check α).Typed outer ok :=
  fun _ _ => trivial

theorem throw (d : Diagnostic) : (MonadExcept.throw d : Check α).Typed outer ok :=
  fun _ _ => trivial

theorem bind {f : α → Check β} {ok' : β → Setting → Prop} (hc : c.Typed outer ok)
    (hf : ∀ a, (f a).Typed outer fun b w => ok a w → ok' b w) : (c >>= f).Typed outer ok' :=
  fun s hs => (hc s hs).bind hf

theorem map {f : α → β} {ok' : β → Setting → Prop} (hc : c.Typed outer ok)
    (hf : ∀ a w, ok a w → ok' (f a) w) : (f <$> c).Typed outer ok' := by
  rw [map_eq_pure_bind]
  exact hc.bind fun a => .pure fun w ha => hf a w ha

/-- What is read from a sound state holds of the setting. -/
theorem get_bind {f : CheckState → Check β} {ok' : β → Setting → Prop}
    (hf : ∀ s, s.Sound outer → (f s).Typed outer fun b w => s.Within w → ok' b w) :
    (get >>= f).Typed outer ok' := by
  intro s hs
  have hb := hf s hs s hs
  exact hb.mono fun b w hw h => h hw

theorem scope_bind {ctx : Context} {f : Scope → Check β} {ok' : β → Setting → Prop}
    (hf : ∀ s : CheckState, s.Sound ctx.outer →
      (f (s.frame :: ctx.outer)).Typed ctx.outer fun b w => s.Within w → ok' b w) :
    (ctx.scope >>= f).Typed ctx.outer ok' := by
  intro s hs
  have hb := hf s hs s hs
  exact hb.mono fun b w hw h => h hw

theorem ofExcept_bind {e : Except Diagnostic α} {f : α → Check β} {ok' : β → Setting → Prop}
    (hf : ∀ a, e = .ok a → (f a).Typed outer ok') : (Check.ofExcept e >>= f).Typed outer ok' := by
  cases e with
  | ok a => exact hf a rfl
  | error d => exact throw d

theorem expect_bind {value : TypedExpr} {slot : Slot Ty} {span : Span} {f : Unit → Check β}
    {ok' : β → Setting → Prop}
    (hf : value.type.assignableTo slot = true → (f ()).Typed outer ok') :
    (expectAssignable value slot span >>= f).Typed outer ok' := by
  unfold expectAssignable
  split
  · next h => exact hf h
  · exact throw _

theorem transaction (h : c.Typed outer ok) : c.transaction.Typed outer ok :=
  fun _ hs => .transaction (h _ hs.begin)

theorem undoing {undo : Frame → Frame} (h : c.Typed outer ok) : (c.undoing undo).Typed outer ok :=
  fun s hs => .undoing (h s hs)

theorem nested {ctx : Context} {span : Span} {body : Context → Check α}
    (h : ∀ ctx', ctx'.function? = ctx.function? → (body ctx').Typed ctx'.outer ok) :
    (ctx.nested span body).Typed ctx.outer ok := by
  unfold Context.nested
  split
  · exact h { ctx with depth := ctx.depth + 1 } rfl
  · exact fail _ _

/-- In a new frame inside the current one. -/
theorem inNewFrame {ctx : Context} {body : Context → Check α}
    (h : ∀ ctx', ctx'.function? = ctx.function? → (body ctx').Typed ctx'.outer ok) :
    (ctx.inNewFrame body).Typed ctx.outer ok :=
  fun s hs => .inFrame hs (Frame.sound_empty _ _) (h { ctx with outer := s.frame :: ctx.outer } rfl)

end Typed

end Check

end Nominal
