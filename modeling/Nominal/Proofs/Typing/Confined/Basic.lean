import Nominal.Proofs.Scope.Contained
import Nominal.Proofs.Typing.Keeps

/-!
# Checks that keep types in scope

`Check.Confined` says of a check that it goes from states whose types are all in scope to such
states, whether it succeeds or fails. Expressions do more: they leave the current frame as it is, so
a type that is in scope while one part is checked is in scope while the next one is. `Check.Inside`
says this of a check, together with what holds of its value, and is what the rules for expressions
hand on.
-/

namespace Nominal

namespace Check

variable {α β : Type}

/-- From `s`, the check ends with all types in scope, and when it succeeds `ok` holds besides. -/
def ConfinedFrom (c : Check α) (s : CheckState) (outer : Scope) (ok : α → CheckState → Prop) :
    Prop :=
  c.Ends s (fun a t => t.Contained outer ∧ ok a t) (fun _ t => t.Contained outer)

/-- When all types are in scope before the check, they are so afterwards. -/
def Confined (c : Check α) (outer : Scope) : Prop :=
  ∀ s, s.Contained outer → c.ConfinedFrom s outer fun _ _ => True

/-- The check runs in `frame` and ends there with all types in scope, and its value has the property
`ok`. -/
def Inside (c : Check α) (frame : Frame) (outer : Scope) (ok : α → Prop) : Prop :=
  ∀ s, s.Contained outer → s.frame = frame →
    c.Ends s (fun a t => (t.Contained outer ∧ t.frame = frame) ∧ ok a)
      (fun _ t => t.Contained outer ∧ t.frame = frame)

variable {c : Check α} {s : CheckState} {frame : Frame} {outer : Scope} {ok : α → Prop}

/-! ## Going on -/

namespace ConfinedFrom

variable {Q : α → CheckState → Prop}

theorem mono {Q' : α → CheckState → Prop} (h : c.ConfinedFrom s outer Q)
    (hQ : ∀ a t, Q a t → Q' a t) : c.ConfinedFrom s outer Q' :=
  Ends.mono h (fun a t ht => ⟨ht.1, hQ a t ht.2⟩) fun _ _ ht => ht

theorem forget (h : c.ConfinedFrom s outer Q) : c.ConfinedFrom s outer fun _ _ => True :=
  h.mono fun _ _ _ => trivial

theorem pure {a : α} (hs : s.Contained outer) (h : Q a s) :
    (Pure.pure a : Check α).ConfinedFrom s outer Q :=
  ⟨hs, h⟩

theorem fail (hs : s.Contained outer) (cause : Cause) (span : Span) :
    (Check.fail cause span : Check α).ConfinedFrom s outer Q :=
  hs

theorem bind {f : α → Check β} {Q' : β → CheckState → Prop} (hc : c.ConfinedFrom s outer Q)
    (hf : ∀ a t, t.Contained outer → Q a t → (f a).ConfinedFrom t outer Q') :
    (c >>= f).ConfinedFrom s outer Q' := by
  unfold ConfinedFrom
  rw [ends_bind]
  exact Ends.mono hc (fun a t ht => hf a t ht.1 ht.2) fun _ _ ht => ht

theorem expect_bind {value : TypedExpr} {slot : Slot Ty} {span : Span} {f : Unit → Check β}
    {Q' : β → CheckState → Prop} (hs : s.Contained outer) (hf : (f ()).ConfinedFrom s outer Q') :
    (expectAssignable value slot span >>= f).ConfinedFrom s outer Q' := by
  unfold expectAssignable
  split
  · exact hf
  · exact hs

theorem transaction
    (h : c.ConfinedFrom { s with registry := s.registry.begin } outer fun _ _ => True) :
    c.transaction.ConfinedFrom s outer fun _ _ => True := by
  unfold ConfinedFrom
  rw [ends_transaction]
  exact Ends.mono h (fun a t ht => ⟨ht.1.of_eq rfl rfl, trivial⟩) fun d t ht => ht.of_eq rfl rfl

/-- A frame inside the current one, which is the current one again afterwards. -/
theorem inFrame {ctx : Context} {inner : Frame} {body : Context → Check α}
    (hs : s.Contained ctx.outer)
    (hbody : (body { ctx with outer := s.frame :: ctx.outer }).ConfinedFrom
      { s with frame := inner } (s.frame :: ctx.outer) Q) :
    (ctx.inFrame inner body).ConfinedFrom s ctx.outer fun _ t => t.frame = s.frame := by
  unfold ConfinedFrom
  rw [Context.ends_inFrame]
  exact Ends.mono hbody (fun a t ht => ⟨hs.outside ht.1, rfl⟩) fun d t ht => hs.outside ht

end ConfinedFrom

/-- What is known of a check that leaves the frame alone. -/
theorem Inside.from (h : c.Inside s.frame outer ok) (hs : s.Contained outer) :
    c.ConfinedFrom s outer fun a t => t.frame = s.frame ∧ ok a :=
  Ends.mono (h s hs rfl) (fun _ _ ht => ⟨ht.1.1, ht.1.2, ht.2⟩) fun _ _ ht => ht.1

theorem Confined.pure (a : α) : (Pure.pure a : Check α).Confined outer :=
  fun _ hs => .pure hs trivial

theorem Confined.bind {f : α → Check β} (hc : c.Confined outer) (hf : ∀ a, (f a).Confined outer) :
    (c >>= f).Confined outer :=
  fun s hs => (hc s hs).bind fun a t ht _ => hf a t ht

theorem Confined.inNewFrame {ctx : Context} {body : Context → Check α}
    (h : ∀ ctx, (body ctx).Confined ctx.outer) : (ctx.inNewFrame body).Confined ctx.outer :=
  fun _ hs => (ConfinedFrom.inFrame hs (h _ _ (hs.inside (Frame.Fits.empty _ _)))).forget

theorem Confined.nested {ctx : Context} {span : Span} {body : Context → Check α}
    (h : ∀ ctx, (body ctx).Confined ctx.outer) : (ctx.nested span body).Confined ctx.outer := by
  unfold Context.nested
  split
  · exact h { ctx with depth := ctx.depth + 1 }
  · exact fun s hs => .fail hs _ _

/-! ## Staying in the frame -/

namespace Inside

theorem mono {ok' : α → Prop} (h : c.Inside frame outer ok) (hok : ∀ a, ok a → ok' a) :
    c.Inside frame outer ok' :=
  fun s hs hframe => Ends.mono (h s hs hframe) (fun a _ ht => ⟨ht.1, hok a ht.2⟩) fun _ _ ht => ht

theorem pure {a : α} (h : ok a) : (Pure.pure a : Check α).Inside frame outer ok :=
  fun _ hs hframe => ⟨⟨hs, hframe⟩, h⟩

theorem throw (d : Diagnostic) : (MonadExcept.throw d : Check α).Inside frame outer ok :=
  fun _ hs hframe => ⟨hs, hframe⟩

theorem fail (cause : Cause) (span : Span) :
    (Check.fail cause span : Check α).Inside frame outer ok :=
  throw _

theorem bind {f : α → Check β} {ok' : β → Prop} (hc : c.Inside frame outer ok)
    (hf : ∀ a, ok a → (f a).Inside frame outer ok') : (c >>= f).Inside frame outer ok' := by
  intro s hs hframe
  rw [ends_bind]
  exact Ends.mono (hc s hs hframe) (fun a t ht => hf a ht.2 t ht.1.1 ht.1.2) fun _ _ ht => ht

theorem get_bind {f : CheckState → Check β} {ok' : β → Prop}
    (hf : ∀ s, s.Contained outer → s.frame = frame → (f s).Inside frame outer ok') :
    (get >>= f).Inside frame outer ok' :=
  fun s hs hframe => hf s hs hframe s hs hframe

theorem scope_bind {ctx : Context} {f : Scope → Check β} {ok' : β → Prop}
    (hf : ∀ classes : ClassTable, Scope.Fits classes (frame :: ctx.outer) →
      (f (frame :: ctx.outer)).Inside frame ctx.outer ok') :
    (ctx.scope >>= f).Inside frame ctx.outer ok' := by
  rintro s hs rfl
  exact hf s.classes hs.frames s hs rfl

theorem expect_bind {value : TypedExpr} {slot : Slot Ty} {span : Span} {f : Unit → Check β}
    {ok' : β → Prop} (hf : (f ()).Inside frame outer ok') :
    (expectAssignable value slot span >>= f).Inside frame outer ok' := by
  unfold expectAssignable
  split
  · exact hf
  · exact throw _

theorem nested {ctx : Context} {span : Span} {body : Context → Check α}
    (h : (body { ctx with depth := ctx.depth + 1 }).Inside frame ctx.outer ok) :
    (ctx.nested span body).Inside frame ctx.outer ok := by
  unfold Context.nested
  split
  · exact h
  · exact fail _ _

theorem confined (h : ∀ frame, c.Inside frame outer fun _ => True) : c.Confined outer :=
  fun s hs => ((h s.frame).from hs).forget

end Inside

/-! ## Expressions -/

/-- A check of an expression whose type is in scope. -/
abbrev ScopedExpr (c : Check TypedExpr) (frame : Frame) (outer : Scope) : Prop :=
  c.Inside frame outer fun e => e.type.type.InScope (frame :: outer)

abbrev ScopedExprs (c : Check (List TypedExpr)) (frame : Frame) (outer : Scope) : Prop :=
  c.Inside frame outer fun es => ∀ e ∈ es, e.type.type.InScope (frame :: outer)

/-- A check of a target whose slot is of a type in scope. -/
abbrev ScopedTarget (c : Check (Target × Slot Ty)) (frame : Frame) (outer : Scope) : Prop :=
  c.Inside frame outer fun target => target.2.type.InScope (frame :: outer)

end Check

/-- Arguments whose types are in scope, in both ways of checking them. -/
structure Arguments.Scoped (arguments : Arguments) (frame : Frame) (outer : Scope) : Prop where
  each : arguments.each.ScopedExprs frame outer
  into : ∀ slots, (arguments.into slots).ScopedExprs frame outer

/-! ## Written types -/

mutual

/-- A written type that can be resolved denotes a type in scope. -/
theorem Scope.inScope_of_resolve {scope : Scope}
    (hfind : ∀ name type, scope.findType? name = some type → type.InScope scope) :
    ∀ (t : TypeExpr) {type : Ty}, scope.resolve t = .ok type → type.InScope scope
  | .named name span, type, h => by
    rw [Scope.resolve] at h
    split at h
    · next found hfound =>
      cases h
      exact hfind name type hfound
    · cases h
  | .function parameters result span, type, h => by
    rw [Scope.resolve] at h
    cases hparameters : scope.resolveParameters parameters with
    | error d =>
      rw [hparameters] at h
      cases h
    | ok slots =>
      rw [hparameters] at h
      cases hresult : scope.resolve result with
      | error d =>
        simp only [hresult, bind, Except.bind] at h
        cases h
      | ok r =>
        simp only [hresult, bind, Except.bind, pure, Except.pure] at h
        cases h
        exact .function (Scope.inScope_of_resolveParameters hfind parameters hparameters)
          (Scope.inScope_of_resolve hfind result hresult)

theorem Scope.inScope_of_resolveParameters {scope : Scope}
    (hfind : ∀ name type, scope.findType? name = some type → type.InScope scope) :
    ∀ (ts : List TypeExpr) {slots : List (Slot Ty)}, scope.resolveParameters ts = .ok slots →
      ∀ p ∈ slots, p.type.InScope scope
  | [], slots, h => by
    cases h
    exact fun p hp => nomatch hp
  | t :: ts, slots, h => by
    rw [Scope.resolveParameters] at h
    cases htype : scope.resolve t with
    | error d =>
      rw [htype] at h
      cases h
    | ok type =>
      have hscope := Scope.inScope_of_resolve hfind t htype
      simp only [htype, bind, Except.bind, TypeExpr.valueType] at h
      split at h
      · cases h
      · next value hvalue =>
        split at hvalue
        · cases hvalue
          cases hrest : scope.resolveParameters ts with
          | error d =>
            rw [hrest] at h
            cases h
          | ok rest =>
            rw [hrest] at h
            cases h
            rw [List.forall_mem_cons]
            exact ⟨hscope, Scope.inScope_of_resolveParameters hfind ts hrest⟩
        · cases hvalue

end

namespace Scope.Fits

variable {classes : ClassTable} {scope : Scope} {t : TypeExpr} {type : Ty}

theorem resolve (h : Scope.Fits classes scope) (ht : scope.resolve t = .ok type) :
    type.InScope scope :=
  inScope_of_resolve (fun _ _ hfound => h.inScope hfound) t ht

theorem resolveValue (h : Scope.Fits classes scope) (ht : scope.resolveValue t = .ok type) :
    type.InScope scope := by
  unfold Scope.resolveValue at ht
  cases hresolve : scope.resolve t with
  | error d =>
    rw [hresolve] at ht
    cases ht
  | ok found =>
    simp only [hresolve, bind, Except.bind, TypeExpr.valueType] at ht
    split at ht
    · cases ht
      exact h.resolve hresolve
    · cases ht

end Scope.Fits

end Nominal
