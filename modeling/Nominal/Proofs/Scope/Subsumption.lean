import Nominal.Proofs.Scope.Frame
import Nominal.Proofs.Ty.Assignable

/-!
# When an overload adds nothing

One signature covers another by a comparison of results and parameters, in one direction and with the
modes. What this comes down to is subsumption: the results have the same name, and whatever the other
can be called with, the first can be called with (`FnType.covers_iff`). A frame refuses a function
for this reason, or because its name is a variable (`Frame.declareFunction_eq_none_iff`).
-/

namespace Nominal

namespace FnType

variable {f g h : FnType}

/-- One signature covers another when the results agree and the parameters of the other fit. -/
theorem covers_iff_fit :
    f.covers g = true ↔ f.result.name = g.result.name ∧ Fit g.parameters f.parameters := by
  have hpairs : List.Forall₂ (fun mine other => other.assignableTo mine = true) f.parameters
      g.parameters ↔ Fit g.parameters f.parameters :=
    ⟨fun h => List.Forall₂.flip h, fun h => List.Forall₂.flip h⟩
  rw [← hpairs, List.forall₂_iff_zip]
  unfold covers
  simp only [Bool.and_eq_true, beq_iff_eq, List.all_eq_true, Ty.assignableTo]
  constructor
  · rintro ⟨⟨⟨hlength, -⟩, hresult⟩, hall⟩
    exact ⟨hresult, hlength, fun {mine other} h => hall (mine, other) h⟩
  · rintro ⟨hresult, hlength, hall⟩
    exact ⟨⟨⟨hlength, hresult.symm⟩, hresult⟩, fun pair hpair => hall hpair⟩

/-- One signature covers another when the results agree and it can be called with all that the other
can be called with. -/
theorem covers_iff :
    f.covers g = true ↔ f.result.name = g.result.name ∧
      ∀ arguments, g.accepts arguments = true → f.accepts arguments = true := by
  rw [covers_iff_fit]
  refine and_congr_right fun _ => ⟨fun hfit arguments haccepts => ?_, fun hall => ?_⟩
  · exact accepts_iff_fit.2 ((accepts_iff_fit.1 haccepts).trans hfit)
  · -- a function can be called with its own parameters, which are the hardest to take
    exact accepts_iff_fit.1 (hall g.parameters (accepts_iff_fit.2 (Fit.refl g.parameters)))

theorem covers_refl (f : FnType) : f.covers f = true :=
  covers_iff.2 ⟨rfl, fun _ h => h⟩

theorem covers_trans (hfg : f.covers g = true) (hgh : g.covers h = true) : f.covers h = true := by
  rw [covers_iff] at hfg hgh ⊢
  exact ⟨hfg.1.trans hgh.1, fun arguments haccepts => hfg.2 arguments (hgh.2 arguments haccepts)⟩

end FnType

/-- A function is refused when its name is a variable, or when an earlier overload with the same
result can be called with all that the new one can be called with. -/
theorem Frame.declareFunction_eq_none_iff {f : Frame} {name : String} {overload : Overload} :
    f.declareFunction name overload = none ↔
      (∃ binding, f.bindings.find? name = some binding) ∨
        ∃ earlier ∈ f.functions.get name,
          earlier.signature.result.name = overload.signature.result.name ∧
            ∀ arguments, overload.signature.accepts arguments = true →
              earlier.signature.accepts arguments = true := by
  have hvariable : f.bindings.contains name = true ↔
      ∃ binding, f.bindings.find? name = some binding := by
    rw [← Option.isSome_iff_exists, ← Bool.not_eq_false, ← Table.find?_eq_none, Option.isSome_iff_ne_none]
  have hcovered : ((f.functions.get name).any fun o => o.signature.covers overload.signature) = true ↔
      ∃ earlier ∈ f.functions.get name,
        earlier.signature.result.name = overload.signature.result.name ∧
          ∀ arguments, overload.signature.accepts arguments = true →
            earlier.signature.accepts arguments = true := by
    simp only [List.any_eq_true, FnType.covers_iff]
  rw [← hvariable, ← hcovered]
  unfold declareFunction
  split
  · next hfound => exact iff_of_true rfl (.inl hfound)
  · next hfree =>
    split
    · next hany => exact iff_of_true rfl (.inr hany)
    · next hnone => exact iff_of_false (fun h => nomatch h) (not_or.2 ⟨hfree, hnone⟩)

/-- Covering is subsumption: of results and of argument lists. So it is reflexive and transitive, and
a frame refuses a function exactly when its name is a variable or when an earlier overload of the name
with the same result already accepts whatever the new one accepts. -/
theorem covers_eq_subsumption :
    (∀ f g : FnType, f.covers g = true ↔ f.result.name = g.result.name ∧
      ∀ arguments, g.accepts arguments = true → f.accepts arguments = true) ∧
    (∀ f : FnType, f.covers f = true) ∧
    (∀ f g h : FnType, f.covers g = true → g.covers h = true → f.covers h = true) ∧
    ∀ (frame : Frame) (name : String) (overload : Overload),
      frame.declareFunction name overload = none ↔
        (∃ binding, frame.bindings.find? name = some binding) ∨
          ∃ earlier ∈ frame.functions.get name,
            earlier.signature.result.name = overload.signature.result.name ∧
              ∀ arguments, overload.signature.accepts arguments = true →
                earlier.signature.accepts arguments = true :=
  ⟨fun _ _ => FnType.covers_iff, FnType.covers_refl, fun _ _ _ => FnType.covers_trans,
    fun _ _ _ => Frame.declareFunction_eq_none_iff⟩

/-- A function for values that can only be read, declared after one for variables, is another
overload; in the other order it is not. -/
example :
    let reads : FnType := ⟨[⟨.val, .int⟩], .int⟩
    let writes : FnType := ⟨[⟨.var, .int⟩], .int⟩
    writes.covers reads = false ∧ reads.covers writes = true := by
  decide

end Nominal
