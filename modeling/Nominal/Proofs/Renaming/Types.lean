import Nominal.Ty.Classes

/-!
# Renaming declarations and classes

A `Renaming` gives declarations other numbers and classes other keys, and keeps both in order. Names
stay as they are. Types are compared by name, so no comparison of types, and no choice of an
overload, can tell a type from the renamed one.
-/

namespace Nominal

/-- New numbers for declarations and new keys for classes, in the same order. -/
structure Renaming where
  id : Nat → Nat
  key : Nat → Nat
  id_lt : ∀ {m n : Nat}, m < n → id m < id n
  key_lt : ∀ {m n : Nat}, m < n → key m < key n

namespace Renaming

variable {ρ : Renaming} {m n : Nat}

/-- What keeps the order does not join two numbers. -/
theorem eq_of_order {f : Nat → Nat} (hf : ∀ {m n : Nat}, m < n → f m < f n) (h : f m = f n) :
    m = n := by
  rcases Nat.lt_trichotomy m n with hlt | heq | hgt
  · have := hf hlt
    omega
  · exact heq
  · have := hf hgt
    omega

theorem key_le (h : m ≤ n) : ρ.key m ≤ ρ.key n := by
  rcases Nat.eq_or_lt_of_le h with rfl | hlt
  · exact Nat.le_refl _
  · exact Nat.le_of_lt (ρ.key_lt hlt)

theorem eq_of_id_eq (h : ρ.id m = ρ.id n) : m = n :=
  eq_of_order ρ.id_lt h

theorem eq_of_key_eq (h : ρ.key m = ρ.key n) : m = n :=
  eq_of_order ρ.key_lt h

end Renaming

variable {ρ : Renaming}

/-! ## Types -/

/-- The declaration with its new number. -/
def DeclId.rename (ρ : Renaming) (id : DeclId) : DeclId :=
  ⟨ρ.id id.number⟩

theorem DeclId.rename_inj {a b : DeclId} : a.rename ρ = b.rename ρ ↔ a = b := by
  constructor
  · intro h
    have hnumber := ρ.eq_of_id_eq (DeclId.mk.inj h)
    cases a
    cases b
    exact congrArg DeclId.mk hnumber
  · exact fun h => h ▸ rfl

/-- The class with its new key. -/
def ClassRef.rename (ρ : Renaming) (c : ClassRef) : ClassRef :=
  ⟨ρ.key c.key, c.name⟩

mutual

/-- The type with all classes renamed. -/
def Ty.rename (ρ : Renaming) : Ty → Ty
  | .primitive p => .primitive p
  | .function parameters result => .function (Ty.renameSlots ρ parameters) (result.rename ρ)
  | .cls c => .cls (c.rename ρ)

def Ty.renameSlot (ρ : Renaming) : Slot Ty → Slot Ty
  | ⟨mode, type⟩ => ⟨mode, type.rename ρ⟩

def Ty.renameSlots (ρ : Renaming) : List (Slot Ty) → List (Slot Ty)
  | [] => []
  | s :: rest => Ty.renameSlot ρ s :: Ty.renameSlots ρ rest

end

/-- The slot with the classes of its type renamed. -/
def Slot.rename (ρ : Renaming) (s : Slot Ty) : Slot Ty :=
  ⟨s.mode, s.type.rename ρ⟩

/-- The function type with all classes renamed. -/
def FnType.rename (ρ : Renaming) (f : FnType) : FnType :=
  ⟨f.parameters.map (Slot.rename ρ), f.result.rename ρ⟩

theorem Ty.renameSlots_eq_map (slots : List (Slot Ty)) :
    Ty.renameSlots ρ slots = slots.map (Slot.rename ρ) := by
  induction slots with
  | nil => rfl
  | cons s rest ih => cases s; rw [Ty.renameSlots, ih]; simp [Ty.renameSlot, Slot.rename]

namespace Ty

@[simp] theorem rename_primitive (p : Primitive) : (primitive p).rename ρ = primitive p := by
  rw [Ty.rename]

@[simp] theorem rename_cls (c : ClassRef) : (cls c).rename ρ = cls (c.rename ρ) := by
  rw [Ty.rename]

@[simp] theorem rename_function (parameters : List (Slot Ty)) (result : Ty) :
    (function parameters result).rename ρ =
      function (parameters.map (Slot.rename ρ)) (result.rename ρ) := by
  rw [Ty.rename, renameSlots_eq_map]

mutual

/-- The name of a type is made of names, which stay. -/
theorem name_rename : ∀ type : Ty, (type.rename ρ).name = type.name
  | primitive p => by rw [rename_primitive]
  | cls c => by rw [rename_cls]; rfl
  | function parameters result => by
    rw [Ty.rename, Ty.name, Ty.name, slotNames_renameSlots parameters, result.name_rename]

theorem slotNames_renameSlots : ∀ slots : List (Slot Ty),
    slotNames (Ty.renameSlots ρ slots) = slotNames slots
  | [] => rfl
  | ⟨mode, type⟩ :: rest => by
    rw [Ty.renameSlots, Ty.renameSlot, slotNames, slotNames, slotName, slotName, type.name_rename,
      slotNames_renameSlots rest]

end

attribute [simp] name_rename

@[simp] theorem assignableTo_rename (a b : Ty) :
    (a.rename ρ).assignableTo (b.rename ρ) = a.assignableTo b := by
  unfold assignableTo
  rw [name_rename, name_rename]

@[simp] theorem assignableTo_nothing_rename (a : Ty) :
    (a.rename ρ).assignableTo nothing = a.assignableTo nothing := by
  unfold assignableTo
  rw [name_rename]

@[simp] theorem hasValues_rename (a : Ty) : (a.rename ρ).hasValues = a.hasValues := by
  cases a with
  | primitive p => rw [rename_primitive]
  | cls c => rw [rename_cls]; rfl
  | function parameters result => rw [rename_function]; rfl

@[simp] theorem class?_rename (a : Ty) :
    (a.rename ρ).class? = a.class?.map (ClassRef.rename ρ) := by
  cases a with
  | primitive p => rw [rename_primitive]; rfl
  | cls c => rw [rename_cls]; rfl
  | function parameters result => rw [rename_function]; rfl

@[simp] theorem function?_rename (a : Ty) :
    (a.rename ρ).function? = a.function?.map (FnType.rename ρ) := by
  cases a with
  | primitive p => rw [rename_primitive]; rfl
  | cls c => rw [rename_cls]; rfl
  | function parameters result => rw [rename_function]; rfl

end Ty

namespace Slot

@[simp] theorem rename_mk (mode : Mode) (type : Ty) :
    Slot.rename ρ ⟨mode, type⟩ = ⟨mode, type.rename ρ⟩ := rfl

@[simp] theorem type_rename (s : Slot Ty) : (s.rename ρ).type = s.type.rename ρ := rfl

@[simp] theorem mode_rename (s : Slot Ty) : (s.rename ρ).mode = s.mode := rfl

@[simp] theorem name_rename (s : Slot Ty) : (s.rename ρ).name = s.name :=
  Ty.name_rename s.type

@[simp] theorem qualifiedName_rename (s : Slot Ty) :
    (s.rename ρ).qualifiedName = s.qualifiedName := by
  unfold qualifiedName
  rw [type_rename, mode_rename, Ty.name_rename]

@[simp] theorem assignableTo_rename (a b : Slot Ty) :
    (a.rename ρ).assignableTo (b.rename ρ) = a.assignableTo b := by
  unfold assignableTo
  simp only [type_rename, mode_rename, Ty.assignableTo_rename]

/-- Slots flow into each other pair by pair as before. -/
theorem zip_rename (p : Slot Ty × Slot Ty → Bool)
    (hp : ∀ a b : Slot Ty, p (a.rename ρ, b.rename ρ) = p (a, b)) (as bs : List (Slot Ty)) :
    ((as.map (Slot.rename ρ)).zip (bs.map (Slot.rename ρ))).all p = (as.zip bs).all p := by
  rw [List.zip_map, List.all_map]
  congr 1
  funext ⟨a, b⟩
  exact hp a b

end Slot

/-! ## Functions -/

namespace FnType

@[simp] theorem type_rename (f : FnType) : (f.rename ρ).type = f.type.rename ρ :=
  (Ty.rename_function f.parameters f.result).symm

@[simp] theorem parameters_rename (f : FnType) :
    (f.rename ρ).parameters = f.parameters.map (Slot.rename ρ) := rfl

@[simp] theorem result_rename (f : FnType) : (f.rename ρ).result = f.result.rename ρ := rfl

@[simp] theorem arity_rename (f : FnType) : (f.rename ρ).arity = f.arity :=
  List.length_map _

@[simp] theorem accepts_rename (f : FnType) (arguments : List (Slot Ty)) :
    (f.rename ρ).accepts (arguments.map (Slot.rename ρ)) = f.accepts arguments := by
  unfold accepts
  rw [parameters_rename, List.length_map, List.length_map]
  congr 1
  exact Slot.zip_rename _ (fun a b => Slot.assignableTo_rename a b) _ _

@[simp] theorem covers_rename (f g : FnType) : (f.rename ρ).covers (g.rename ρ) = f.covers g := by
  unfold covers
  rw [parameters_rename, parameters_rename, result_rename, result_rename, List.length_map,
    List.length_map, Ty.assignableTo_rename, Ty.assignableTo_rename]
  congr 1
  exact Slot.zip_rename _ (fun a b => Slot.assignableTo_rename b a) _ _

end FnType

/-- The overload with its new number. -/
def Overload.rename (ρ : Renaming) (o : Overload) : Overload :=
  ⟨o.id?.map (DeclId.rename ρ), o.signature.rename ρ⟩

/-- The overload that is chosen is the renamed one. -/
theorem resolveOverload_rename (overloads : List Overload) (arguments : List (Slot Ty)) :
    resolveOverload (overloads.map (Overload.rename ρ)) (arguments.map (Slot.rename ρ)) =
      (resolveOverload overloads arguments).map (Overload.rename ρ) := by
  unfold resolveOverload
  rw [← List.map_reverse, List.find?_map]
  congr 2
  funext o
  exact FnType.accepts_rename o.signature arguments

/-! ## Primitive types -/

/-- The methods of primitive types have no declarations and no classes. -/
theorem Primitive.map_rename_methods (p : Primitive) (name : String) :
    (p.methods name).map (Overload.rename ρ) = p.methods name := by
  have hbinary (operand result : Primitive) :
      (binaryOperator operand result).rename ρ = binaryOperator operand result := by
    simp [Overload.rename, binaryOperator, FnType.rename, Slot.rename]
  have hunary (result : Primitive) : (unaryOperator result).rename ρ = unaryOperator result := by
    simp [Overload.rename, unaryOperator, FnType.rename]
  unfold Primitive.methods
  split
  all_goals
    simp only [apply_ite (List.map (Overload.rename ρ)), List.map_cons, List.map_nil, hbinary,
      hunary]

end Nominal
