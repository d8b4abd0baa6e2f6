import Nominal.Proofs.Ty.Reading

/-!
# Types of values

There are no values of the type nothing. It may stand behind the arrow of a function type, where it
says that a call is worth nothing, but what holds a value is never of it: no variable and no field,
and no parameter of a function type, however deep inside of another type that stands
(`Ty.TakesValues`, `Ty.IsValue`). All of this goes by names, as types are compared by them.

A type that is made of built-in types and of declared classes is told to be of values by its bits
(`Ty.Proper.storable`), and its name is told from that of a function type
(`Ty.Proper.function_mem_of_name`).
-/

namespace Nominal

namespace Ty

/-- No parameter of a function type is of the type nothing, neither of the type itself nor of one
that stands in it. -/
inductive TakesValues : Ty → Prop
  | primitive (p : Primitive) : TakesValues (.primitive p)
  | cls (c : ClassRef) : TakesValues (.cls c)
  | function {parameters : List (Slot Ty)} {result : Ty}
    (hvalues : ∀ p ∈ parameters, p.type.name ≠ nothing.name)
    (hparameters : ∀ p ∈ parameters, TakesValues p.type) (hresult : TakesValues result) :
    TakesValues (.function parameters result)

/-- The type is not nothing, and in it nothing is only what functions return. -/
structure IsValue (t : Ty) : Prop where
  name_ne : t.name ≠ nothing.name
  takesValues : t.TakesValues

/-- A built-in type, or a class with one of the names `known`. -/
def IsKnown (known : List String) (t : Ty) : Prop :=
  (∃ p ∈ Primitive.builtins, t = .primitive p) ∨ ∃ c : ClassRef, t = .cls c ∧ c.name ∈ known

/-- A type that the checker may come by when the classes have the names `known`. -/
structure Proper (t : Ty) (known : List String) : Prop where
  takesValues : t.TakesValues
  leaves : t.Over (IsKnown known)

/-- Such a type, if values can be of it. -/
structure Storable (t : Ty) (known : List String) : Prop extends t.Proper known where
  name_ne : t.name ≠ nothing.name

variable {t r : Ty} {parameters : List (Slot Ty)} {known known' : List String}

theorem Storable.isValue (h : t.Storable known) : t.IsValue :=
  ⟨h.name_ne, h.takesValues⟩

/-! ## More classes -/

theorem Proper.mono (h : t.Proper known) (hknown : known ⊆ known') : t.Proper known' where
  takesValues := h.takesValues
  leaves := h.leaves.mono fun _ ht => ht.imp_right fun ⟨c, hc, hmem⟩ => ⟨c, hc, hknown hmem⟩

theorem Storable.mono (h : t.Storable known) (hknown : known ⊆ known') : t.Storable known' :=
  ⟨h.toProper.mono hknown, h.name_ne⟩

/-! ## By the form of the type -/

theorem Proper.primitive {p : Primitive} (hp : p ∈ Primitive.builtins) :
    (Ty.primitive p).Proper known :=
  ⟨.primitive p, .primitive (.inl ⟨p, hp, rfl⟩)⟩

theorem Proper.cls {c : ClassRef} (hc : c.name ∈ known) : (Ty.cls c).Proper known :=
  ⟨.cls c, .cls (.inr ⟨c, rfl, hc⟩)⟩

theorem Proper.function (hparameters : ∀ p ∈ parameters, p.type.Storable known)
    (hresult : r.Proper known) : (Ty.function parameters r).Proper known where
  takesValues := .function (fun p hp => (hparameters p hp).name_ne)
    (fun p hp => (hparameters p hp).takesValues) hresult.takesValues
  leaves := .function (fun p hp => (hparameters p hp).leaves) hresult.leaves

theorem Proper.result (h : (Ty.function parameters r).Proper known) :
    r.Proper known := by
  obtain ⟨htakes, hleaves⟩ := h
  cases htakes with
  | function _ _ hresult => exact ⟨hresult, (over_function.1 hleaves).2⟩

/-- The name of a function type is longer than a word. -/
theorem name_function_ne {name : String} (hname : '(' ∉ name.toList) :
    (Ty.function parameters r).name ≠ name := by
  rintro rfl
  refine hname ?_
  rw [toList_name_function]
  exact List.mem_append_right _ List.mem_cons_self

/-- A type of which there are values goes by another name than nothing, as no class has this
name. -/
theorem Proper.storable (h : t.Proper known) (hnothing : nothing.name ∉ known)
    (hvalues : t.hasValues = true) : t.Storable known := by
  refine ⟨h, ?_⟩
  have hbuiltin : ∀ p ∈ Primitive.builtins, (Ty.primitive p).hasValues = true →
      (Ty.primitive p).name ≠ nothing.name := by decide
  cases h.leaves with
  | primitive hknown =>
    obtain ⟨p, hp, heq⟩ | ⟨c, heq, -⟩ := hknown
    · rw [heq] at hvalues ⊢
      exact hbuiltin p hp hvalues
    · cases heq
  | cls hknown =>
    obtain ⟨p, -, heq⟩ | ⟨c, heq, hmem⟩ := hknown
    · cases heq
    · rw [heq]
      exact fun hname => hnothing (hname ▸ hmem)
  | function _ _ => exact name_function_ne (by decide)

/-- Only a class can have the name that function types are referred to by, if it is not a function
type. -/
theorem Proper.function_mem_of_name (h : t.Proper known) (hfunction : t.function? = none)
    (hname : t.name = "Function") : "Function" ∈ known := by
  have hbuiltin : ∀ p ∈ Primitive.builtins, (Ty.primitive p).name ≠ "Function" := by decide
  cases h.leaves with
  | primitive hknown =>
    obtain ⟨p, hp, heq⟩ | ⟨c, heq, -⟩ := hknown
    · exact absurd (heq ▸ hname) (hbuiltin p hp)
    · cases heq
  | cls hknown =>
    obtain ⟨p, -, heq⟩ | ⟨c, heq, hmem⟩ := hknown
    · cases heq
    · rw [heq] at hname
      rwa [← show c.name = "Function" from hname]
  | function _ _ => cases hfunction

end Ty

end Nominal
