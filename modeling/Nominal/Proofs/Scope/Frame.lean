import Nominal.Proofs.Table
import Nominal.Scope.Frame

/-!
# Declaring in a frame and taking it back

What the declarations of a frame change (`Frame.declareVariable_eq_some`,
`Frame.declareFunction_eq_some`), and that taking a declaration back gives the frame from before
(`Frame.removeVariable_of_declared`, `Frame.removeFunction_of_declared`). A function is found again
by its number, so the latter needs that the numbers in the frame are older (`Methods.UpTo`).
-/

namespace Nominal

/-! ## Overload sets -/

namespace Methods

variable {m : Methods} {name other : String} {overload : Overload} {last last' : Nat}

theorem get_of_find? {overloads : List Overload} (h : m.find? name = some overloads) :
    m.get name = overloads := by
  unfold get
  rw [h]
  rfl

theorem get_of_not_contains (h : m.contains name = false) : m.get name = [] := by
  unfold get
  rw [Table.find?_eq_none.2 h]
  rfl

theorem get_add_self (m : Methods) (name : String) (overload : Overload) :
    (m.add name overload).get name = m.get name ++ [overload] :=
  get_of_find? (Table.find?_insert_self m name _)

theorem names_add (m : Methods) (name : String) (overload : Overload) :
    (m.add name overload).names =
      if m.contains name then m.names else m.names ++ [name] :=
  Table.names_insert m name _

theorem get_add_of_ne (h : other ≠ name) : (m.add name overload).get other = m.get other := by
  unfold add
  show ((m.insert name _).find? other).getD [] = (m.find? other).getD []
  rw [Table.find?_insert_of_ne h]

/-- What holds of all overloads goes on to hold when one more is added, if it holds of that one. -/
theorem forall_add {P : String → Overload → Prop} (h : ∀ other, ∀ o ∈ m.get other, P other o)
    (hnew : P name overload) : ∀ other, ∀ o ∈ (m.add name overload).get other, P other o := by
  intro other o ho
  by_cases hother : other = name
  · subst hother
    rw [get_add_self] at ho
    rcases List.mem_append.1 ho with hold | hadded
    · exact h other o hold
    · rw [List.mem_singleton.1 hadded]
      exact hnew
  · rw [get_add_of_ne hother] at ho
    exact h other o ho

/-- The numbers of the overloads are at most `last`. A name has at least one overload. -/
def UpTo (m : Methods) (last : Nat) : Prop :=
  ∀ name overloads, m.find? name = some overloads →
    overloads ≠ [] ∧ ∀ o ∈ overloads, ∀ id, o.id? = some id → id.number ≤ last

theorem upTo_empty (last : Nat) : UpTo ∅ last := by
  intro name overloads h
  cases h

theorem UpTo.mono (h : m.UpTo last) (hle : last ≤ last') : m.UpTo last' := by
  intro name overloads hfind
  obtain ⟨hne, hids⟩ := h name overloads hfind
  exact ⟨hne, fun o ho id hid => Nat.le_trans (hids o ho id hid) hle⟩

theorem UpTo.le_of_mem_get (h : m.UpTo last) {o : Overload} (ho : o ∈ m.get name) {id : DeclId}
    (hid : o.id? = some id) : id.number ≤ last := by
  cases hfind : m.find? name with
  | none =>
    rw [get_of_not_contains (Table.find?_eq_none.1 hfind)] at ho
    cases ho
  | some overloads =>
    rw [get_of_find? hfind] at ho
    exact (h name overloads hfind).2 o ho id hid

/-- A function that is added keeps the numbers below `last` when its own is. -/
theorem UpTo.of_added {m' : Methods} (h : m.UpTo last) {id : DeclId} (hid : id.number ≤ last)
    {signature : FnType} (hself : m'.get name = m.get name ++ [⟨some id, signature⟩])
    (hothers : ∀ other, other ≠ name → m'.get other = m.get other)
    (hnames : m'.names = if m.contains name then m.names else m.names ++ [name]) :
    m'.UpTo last := by
  intro other overloads hfind
  have hget := get_of_find? hfind
  by_cases hother : other = name
  · subst hother
    rw [← hget, hself]
    refine ⟨by simp, ?_⟩
    intro o ho id' hid'
    rcases List.mem_append.1 ho with hold | hnew
    · exact h.le_of_mem_get hold hid'
    · cases List.mem_singleton.1 hnew
      cases hid'
      exact hid
  · -- the name was there before, since `name` is the only one that can be new
    have hmem : other ∈ m.names := by
      have hmem' : other ∈ m'.names := Table.contains_iff.1 (Table.contains_of_find? hfind)
      rw [hnames] at hmem'
      split at hmem'
      · exact hmem'
      · rcases List.mem_append.1 hmem' with hold | hnew
        · exact hold
        · exact absurd (List.mem_singleton.1 hnew) hother
    rw [hothers other hother] at hget
    cases hbefore : m.find? other with
    | none => exact absurd hmem (Table.contains_eq_false.1 (Table.find?_eq_none.1 hbefore))
    | some kept =>
      rw [get_of_find? hbefore] at hget
      rw [← hget]
      exact h other kept hbefore

end Methods

/-! ## Frames -/

namespace Frame

variable {f g : Frame} {name : String}

theorem declareVariable_eq_some {binding : Binding} (h : f.declareVariable name binding = some g) :
    f.bindings.contains name = false ∧ f.functions.contains name = false ∧
      g = { f with bindings := f.bindings.insert name binding } := by
  unfold declareVariable at h
  split at h
  · cases h
  · next hfree =>
    rw [Bool.or_eq_true, not_or, Bool.not_eq_true, Bool.not_eq_true] at hfree
    cases h
    exact ⟨hfree.1, hfree.2, rfl⟩

theorem removeVariable_of_declared {binding : Binding}
    (h : f.declareVariable name binding = some g) : g.removeVariable name = f := by
  obtain ⟨hfree, -, rfl⟩ := declareVariable_eq_some h
  unfold removeVariable
  rw [Table.erase_insert hfree]

theorem declareFunction_eq_some {overload : Overload}
    (h : f.declareFunction name overload = some g) :
    f.bindings.contains name = false ∧
      g = { f with functions := f.functions.add name overload } := by
  unfold declareFunction at h
  split at h
  · cases h
  · next hfree =>
    rw [Bool.not_eq_true] at hfree
    split at h
    · cases h
    · cases h
      exact ⟨hfree, rfl⟩

/-- A function is declared only when no overload covers it. -/
theorem uncovered_of_declareFunction {overload : Overload}
    (h : f.declareFunction name overload = some g) :
    ∀ o ∈ f.functions.get name, o.signature.covers overload.signature = false := by
  unfold declareFunction at h
  split at h
  · cases h
  · split at h
    · cases h
    · next huncovered =>
      intro o ho
      rw [Bool.not_eq_true, List.any_eq_false] at huncovered
      simpa using huncovered o ho

/-- The overload is the only one of its number, and its name goes only if it was new. -/
theorem removeFunction_of_declared {last : Nat} (hnumbers : f.functions.UpTo last) {id : DeclId}
    (hid : last < id.number) {signature : FnType}
    (h : f.declareFunction name ⟨some id, signature⟩ = some g) : g.removeFunction name id = f := by
  obtain ⟨-, rfl⟩ := declareFunction_eq_some h
  have hkept : (f.functions.get name ++ [(⟨some id, signature⟩ : Overload)]).filter
      (fun o => o.id? != some id) = f.functions.get name := by
    -- the older overloads have smaller numbers
    have hold : (f.functions.get name).filter (fun o => o.id? != some id) =
        f.functions.get name := by
      rw [List.filter_eq_self]
      intro o ho
      have hne : o.id? ≠ some id := by
        intro heq
        have hle := hnumbers.le_of_mem_get ho heq
        omega
      simpa using hne
    rw [List.filter_append, hold]
    simp
  unfold removeFunction Methods.add
  rw [Table.find?_insert_self]
  dsimp only
  rw [hkept]
  cases hfind : f.functions.find? name with
  | none =>
    -- no overload is left, so the name goes too
    have hfree := Table.find?_eq_none.1 hfind
    rw [Methods.get_of_not_contains hfree]
    simp only [List.isEmpty_nil, if_true, Table.erase_insert hfree]
  | some overloads =>
    -- the overloads from before are put back in place
    have hne := (hnumbers name overloads hfind).1
    rw [Methods.get_of_find? hfind, if_neg (by simpa using hne), Table.insert_insert hfind]

theorem declareType_eq_some {type : Ty} (h : f.declareType name type = some g) :
    f.types.contains name = false ∧ g = { f with types := f.types.insert name type } := by
  unfold declareType at h
  split at h
  · cases h
  · next hfree =>
    rw [Bool.not_eq_true] at hfree
    cases h
    exact ⟨hfree, rfl⟩

/-! ## What stays the same -/

theorem types_of_declareVariable {binding : Binding}
    (h : f.declareVariable name binding = some g) : g.types = f.types := by
  obtain ⟨-, -, rfl⟩ := declareVariable_eq_some h
  rfl

theorem types_of_declareFunction {overload : Overload}
    (h : f.declareFunction name overload = some g) : g.types = f.types := by
  obtain ⟨-, rfl⟩ := declareFunction_eq_some h
  rfl

/-- No overload is added when one is taken away. -/
theorem mem_get_of_removeFunction {id : DeclId} {other : String} {o : Overload}
    (h : o ∈ (f.removeFunction name id).functions.get other) : o ∈ f.functions.get other := by
  unfold removeFunction at h
  split at h
  · exact h
  · next overloads hfind =>
    dsimp only at h
    split at h
    · -- the name is gone, and the others have the overloads they had
      unfold Methods.get at h ⊢
      cases hother : (f.functions.erase name).find? other with
      | none =>
        rw [hother] at h
        cases h
      | some kept =>
        rw [hother] at h
        rwa [Table.find?_of_find?_erase hother]
    · unfold Methods.get at h ⊢
      rw [Table.find?_insert] at h
      split at h
      · next hname =>
        rw [hname, hfind]
        exact (List.mem_filter.1 h).1
      · exact h

theorem bindings_removeFunction (f : Frame) (name : String) (id : DeclId) :
    (f.removeFunction name id).bindings = f.bindings := by
  unfold removeFunction
  split
  · rfl
  · dsimp only
    split <;> rfl

theorem types_removeFunction (f : Frame) (name : String) (id : DeclId) :
    (f.removeFunction name id).types = f.types := by
  unfold removeFunction
  split
  · rfl
  · dsimp only
    split <;> rfl

end Frame

end Nominal
