import Nominal.Table

/-!
# Looking up in tables

A name is bound to at most one value, so looking it up finds the value exactly when the entry is in
the table (`Table.find?_eq_some`). From this follow what an insertion does to every name
(`Table.find?_insert`), and that the two ways of taking an insertion back restore the whole table,
with its order (`Table.erase_insert`, `Table.insert_insert`).
-/

namespace Nominal

namespace Table

variable {α : Type} {t u : Table α} {name other : String} {value previous : α}

theorem ext (h : t.entries = u.entries) : t = u := by
  obtain ⟨entries, hnodup⟩ := t
  obtain ⟨entries', hnodup'⟩ := u
  cases h
  rfl

/-! ## Looking up -/

theorem contains_eq_false : t.contains name = false ↔ name ∉ t.names := by
  rw [← contains_iff, Bool.not_eq_true]

theorem mem_names_of_mem (h : (name, value) ∈ t.entries) : name ∈ t.names :=
  List.mem_map.2 ⟨(name, value), h, rfl⟩

/-- In a list without two entries of one name, looking up finds each entry. -/
theorem find?_of_nodup {entries : List (String × α)} (hnodup : (entries.map Prod.fst).Nodup)
    (hmem : (name, value) ∈ entries) :
    entries.find? (fun entry => entry.1 == name) = some (name, value) := by
  induction entries with
  | nil => cases hmem
  | cons entry rest ih =>
    rw [List.map_cons, List.nodup_cons] at hnodup
    rcases List.mem_cons.1 hmem with rfl | hrest
    · rw [List.find?_cons_of_pos (by simp)]
    · -- the name stands in the rest, so the first entry has another one
      have hne : entry.1 ≠ name := by
        intro heq
        exact hnodup.1 (heq ▸ List.mem_map.2 ⟨(name, value), hrest, rfl⟩)
      rw [List.find?_cons_of_neg (by simpa using hne)]
      exact ih hnodup.2 hrest

theorem find?_eq_some : t.find? name = some value ↔ (name, value) ∈ t.entries := by
  constructor
  · intro h
    obtain ⟨entry, hfind, hvalue⟩ := Option.map_eq_some_iff.1 h
    have hname : entry.1 = name := by simpa using List.find?_some hfind
    rw [← hname, ← hvalue]
    exact List.mem_of_find?_eq_some hfind
  · intro h
    unfold find?
    rw [find?_of_nodup t.nodup h]
    rfl

theorem find?_eq_none : t.find? name = none ↔ t.contains name = false := by
  unfold find? contains
  rw [Option.map_eq_none_iff, List.find?_eq_none, List.any_eq_false]

theorem contains_of_find? (h : t.find? name = some value) : t.contains name = true := by
  cases hc : t.contains name with
  | true => rfl
  | false =>
    rw [find?_eq_none.2 hc] at h
    cases h

/-! ## Inserting -/

theorem entries_insert_of_contains (h : t.contains name = true) :
    (t.insert name value).entries = replace name value t.entries := by
  unfold insert
  rw [dif_pos h]

theorem entries_insert_of_not_contains (h : t.contains name = false) :
    (t.insert name value).entries = t.entries ++ [(name, value)] := by
  unfold insert
  rw [dif_neg (by simp [h])]

/-- A table with one more entry had its name free before. -/
theorem not_contains_of_entries_append (h : u.entries = t.entries ++ [(name, value)]) :
    t.contains name = false := by
  have hnodup := u.nodup
  rw [h, List.map_append, List.nodup_append] at hnodup
  rw [contains_eq_false]
  intro hmem
  exact hnodup.2.2 name hmem name (List.mem_singleton.2 rfl) rfl

theorem contains_of_entries_append (h : u.entries = t.entries ++ [(name, value)])
    (hother : t.contains other = true) : u.contains other = true := by
  unfold contains at hother ⊢
  rw [h, List.any_append, hother, Bool.true_or]

theorem find?_of_entries_append (h : u.entries = t.entries ++ [(name, value)]) :
    u.find? name = some value :=
  find?_eq_some.2 (h ▸ List.mem_append_right _ (List.mem_singleton.2 rfl))

theorem names_insert (t : Table α) (name : String) (value : α) :
    (t.insert name value).names = if t.contains name then t.names else t.names ++ [name] := by
  unfold names
  cases h : t.contains name with
  | true =>
    rw [entries_insert_of_contains h, map_fst_replace]
    rfl
  | false =>
    rw [entries_insert_of_not_contains h, List.map_append]
    rfl

theorem mem_replace {entries : List (String × α)} {entry : String × α} :
    entry ∈ replace name value entries ↔
      (entry ∈ entries ∧ entry.1 ≠ name) ∨
        (entry = (name, value) ∧ name ∈ entries.map Prod.fst) := by
  unfold replace
  rw [List.mem_map]
  constructor
  · rintro ⟨entry', hmem, rfl⟩
    by_cases hname : entry'.1 = name
    · rw [if_pos (by simp [hname])]
      exact .inr ⟨by rw [hname], List.mem_map.2 ⟨entry', hmem, hname⟩⟩
    · rw [if_neg (by simp [hname])]
      exact .inl ⟨hmem, hname⟩
  · rintro (⟨hmem, hname⟩ | ⟨rfl, hmem⟩)
    · exact ⟨entry, hmem, by rw [if_neg (by simp [hname])]⟩
    · obtain ⟨entry', hmem', hname⟩ := List.mem_map.1 hmem
      refine ⟨entry', hmem', ?_⟩
      rw [if_pos (by simp [hname]), hname]

theorem mem_entries_insert {entry : String × α} :
    entry ∈ (t.insert name value).entries ↔
      (entry ∈ t.entries ∧ entry.1 ≠ name) ∨ entry = (name, value) := by
  cases h : t.contains name with
  | true =>
    rw [entries_insert_of_contains h, mem_replace]
    simp only [show name ∈ t.entries.map Prod.fst from contains_iff.1 h, and_true]
  | false =>
    rw [entries_insert_of_not_contains h, List.mem_append, List.mem_singleton]
    -- the name is new, so no entry makes way for it
    have hne (hmem : entry ∈ t.entries) : entry.1 ≠ name := by
      intro hname
      exact contains_eq_false.1 h (hname ▸ mem_names_of_mem hmem)
    constructor
    · rintro (hmem | rfl)
      · exact .inl ⟨hmem, hne hmem⟩
      · exact .inr rfl
    · rintro (⟨hmem, -⟩ | rfl)
      · exact .inl hmem
      · exact .inr rfl

theorem find?_insert_self (t : Table α) (name : String) (value : α) :
    (t.insert name value).find? name = some value :=
  find?_eq_some.2 (mem_entries_insert.2 (.inr rfl))

theorem find?_insert_of_ne (h : other ≠ name) :
    (t.insert name value).find? other = t.find? other := by
  apply Option.ext
  intro v
  rw [find?_eq_some, find?_eq_some, mem_entries_insert]
  constructor
  · rintro (⟨hmem, -⟩ | heq)
    · exact hmem
    · cases heq
      exact absurd rfl h
  · intro hmem
    exact .inl ⟨hmem, h⟩

theorem find?_insert (t : Table α) (name other : String) (value : α) :
    (t.insert name value).find? other = if other = name then some value else t.find? other := by
  split
  · next h =>
    rw [h]
    exact find?_insert_self t name value
  · next h => exact find?_insert_of_ne h

/-- What holds of all that is bound goes on to hold when one more name is bound, if it holds of that
name. -/
theorem forall_insert {P : String → α → Prop}
    (h : ∀ other found, t.find? other = some found → P other found) (hnew : P name value) :
    ∀ other found, (t.insert name value).find? other = some found → P other found := by
  intro other found hfound
  rw [find?_insert] at hfound
  split at hfound
  · next hother =>
    obtain rfl := Option.some.inj hfound
    rwa [hother]
  · exact h other found hfound

/-! ## Taking an insertion back -/

/-- Erasing a name that was not bound before it was inserted. -/
theorem erase_insert (h : t.contains name = false) : (t.insert name value).erase name = t := by
  apply ext
  show (t.insert name value).entries.filter _ = t.entries
  rw [entries_insert_of_not_contains h, List.filter_append]
  -- erasing takes the new entry and none of the old ones
  have hkept : t.entries.filter (fun entry => entry.1 != name) = t.entries := by
    rw [List.filter_eq_self]
    intro entry hmem
    have hne : entry.1 ≠ name := by
      intro hname
      exact contains_eq_false.1 h (hname ▸ mem_names_of_mem hmem)
    simpa using hne
  rw [hkept]
  simp

/-- What is bound when a name was erased was bound before. -/
theorem find?_of_find?_erase (h : (t.erase name).find? other = some value) :
    t.find? other = some value := by
  have hmem := find?_eq_some.1 h
  exact find?_eq_some.2 (List.mem_filter.1 hmem).1

/-- Inserting the value again that a name was bound to before. -/
theorem insert_insert (h : t.find? name = some previous) :
    (t.insert name value).insert name previous = t := by
  have hcontains := contains_of_find? h
  have hcontains' := contains_of_find? (find?_insert_self t name value)
  -- both insertions replace in place, so it is enough to compare entry by entry
  apply ext
  rw [entries_insert_of_contains hcontains', entries_insert_of_contains hcontains]
  unfold replace
  rw [List.map_map]
  conv => rhs; rw [← List.map_id t.entries]
  apply List.map_congr_left
  rintro ⟨name', v⟩ hmem
  by_cases hname : name' = name
  · -- the entry of that name is the one that `previous` was found in
    subst hname
    have hv : t.find? name' = some v := find?_eq_some.2 hmem
    rw [h] at hv
    cases hv
    simp
  · simp [hname]

end Table

end Nominal
