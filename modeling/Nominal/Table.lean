/-!
# Tables in order of entry

A `Table` binds names to values and lists them in the order in which they were first bound. No name
is bound twice; binding it again replaces the value where it stands.
-/

namespace Nominal

/-- A finite map from names to values, in order of entry. -/
structure Table (α : Type) where
  entries : List (String × α)
  nodup : (entries.map Prod.fst).Nodup

namespace Table

variable {α : Type}

/-- The table without entries. -/
def empty : Table α :=
  ⟨[], .nil⟩

instance : EmptyCollection (Table α) := ⟨empty⟩

instance : Inhabited (Table α) := ⟨empty⟩

/-- The bound names, in order of entry. -/
def names (t : Table α) : List String :=
  t.entries.map Prod.fst

/-- The value bound to `name`. -/
def find? (t : Table α) (name : String) : Option α :=
  (t.entries.find? fun entry => entry.1 == name).map Prod.snd

/-- Whether `name` is bound. -/
def contains (t : Table α) (name : String) : Bool :=
  t.entries.any fun entry => entry.1 == name

theorem contains_iff {t : Table α} {name : String} : t.contains name = true ↔ name ∈ t.names := by
  simp [contains, names, List.any_eq_true]

/-- Replaces the value of `name` in a list of entries. -/
def replace (name : String) (value : α) (entries : List (String × α)) : List (String × α) :=
  entries.map fun entry => if entry.1 == name then (entry.1, value) else entry

theorem map_fst_replace (name : String) (value : α) (entries : List (String × α)) :
    (replace name value entries).map Prod.fst = entries.map Prod.fst := by
  simp only [replace, List.map_map]
  congr 1
  funext entry
  simp only [Function.comp]
  split <;> rfl

/-- Binds `name` to `value`: in place when it is bound already, else as the last entry. -/
def insert (t : Table α) (name : String) (value : α) : Table α :=
  if h : t.contains name then
    ⟨replace name value t.entries, by rw [map_fst_replace]; exact t.nodup⟩
  else
    ⟨t.entries ++ [(name, value)], by
      have hn : name ∉ t.entries.map Prod.fst := fun hm => h (contains_iff.2 hm)
      rw [List.map_append, List.nodup_append]
      refine ⟨t.nodup, by simp, ?_⟩
      intro a ha b hb hab
      simp only [List.map_cons, List.map_nil, List.mem_singleton] at hb
      exact hn (hb ▸ hab ▸ ha)⟩

/-- Unbinds `name`. The other entries keep their order. -/
def erase (t : Table α) (name : String) : Table α :=
  ⟨t.entries.filter fun entry => entry.1 != name,
   t.nodup.sublist (List.filter_sublist.map Prod.fst)⟩

end Table

end Nominal
