import Nominal.Registry

/-!
# Entering several declarations

What a run of checks does to the registry comes down to two operations: it enters some declarations
one after the other (`enter`), and it wastes some numbers on declarations that were dropped again
(`skip`). A transaction that commits leaves no trace of itself (`commit_enter_begin`), and one that
aborts leaves wasted numbers only (`abort_skip_enter_begin`).
-/

namespace Nominal

/-- The declarations of `items`, numbered upwards from the number after `last`. -/
def Declaration.numbered (last : Nat) : List (String × Slot Ty) → List Declaration
  | [] => []
  | (name, type) :: rest => ⟨⟨last + 1⟩, name, type⟩ :: numbered (last + 1) rest

namespace Declaration

@[simp] theorem length_numbered (last : Nat) (items : List (String × Slot Ty)) :
    (numbered last items).length = items.length := by
  induction items generalizing last with
  | nil => rfl
  | cons item rest ih => simp [numbered, ih]

theorem map_name_numbered (last : Nat) (items : List (String × Slot Ty)) :
    (numbered last items).map Declaration.name = items.map Prod.fst := by
  induction items generalizing last with
  | nil => rfl
  | cons item rest ih => simp [numbered, ih]

theorem map_id_numbered (last : Nat) (items : List (String × Slot Ty)) :
    (numbered last items).map Declaration.id =
      (List.range' (last + 1) items.length).map DeclId.mk := by
  induction items generalizing last with
  | nil => rfl
  | cons item rest ih => simp [numbered, ih, List.range'_succ]

end Declaration

namespace Registry

variable {r : Registry}

/-- All declarations, whether committed or staged, in the order in which they were entered. -/
def entries (r : Registry) : List Declaration :=
  r.committed ++ r.layers.reverse.flatten

/-- Enters `items` one after the other. -/
def enter (r : Registry) (items : List (String × Slot Ty)) : Registry :=
  items.foldl (fun r item => (r.insert item.1 item.2).2) r

/-- Wastes `n` numbers. -/
def skip (r : Registry) (n : Nat) : Registry :=
  { r with lastNumber := r.lastNumber + n }

/-- The next `n` numbers. -/
def upcoming (r : Registry) (n : Nat) : List DeclId :=
  (List.range' (r.lastNumber + 1) n).map DeclId.mk

/-! ## What entering does to the parts of the registry -/

@[simp] theorem enter_nil : r.enter [] = r := rfl

theorem number_insert (r : Registry) (name : String) (type : Slot Ty) :
    (r.insert name type).1.number = r.lastNumber + 1 := by
  unfold insert
  cases r.layers <;> rfl

theorem lastNumber_insert (r : Registry) (name : String) (type : Slot Ty) :
    (r.insert name type).2.lastNumber = r.lastNumber + 1 := by
  unfold insert
  cases r.layers <;> rfl

theorem entries_insert (r : Registry) (name : String) (type : Slot Ty) :
    (r.insert name type).2.entries =
      r.entries ++ [⟨(r.insert name type).1, name, type⟩] := by
  unfold insert
  cases h : r.layers with
  | nil => simp [entries, h]
  | cons layer outer => simp [entries, h]

/-- Nothing that was entered before is lost. -/
theorem entries_subset_enter (r : Registry) (items : List (String × Slot Ty)) :
    r.entries ⊆ (r.enter items).entries := by
  induction items generalizing r with
  | nil => exact List.Subset.refl _
  | cons item rest ih =>
    refine List.Subset.trans ?_ (ih (r.insert item.1 item.2).2)
    rw [entries_insert]
    exact List.subset_append_left _ _

theorem enter_append (r : Registry) (xs ys : List (String × Slot Ty)) :
    r.enter (xs ++ ys) = (r.enter xs).enter ys := by
  simp only [enter, List.foldl_append]

/-- Outside of transactions, what is entered is committed. -/
theorem enter_of_layers_nil (h : r.layers = []) (items : List (String × Slot Ty)) :
    r.enter items =
      ⟨r.lastNumber + items.length,
        r.committed ++ Declaration.numbered r.lastNumber items, []⟩ := by
  induction items generalizing r with
  | nil =>
    obtain ⟨last, committed, layers⟩ := r
    have hlayers : layers = [] := h
    simp [Declaration.numbered, hlayers]
  | cons item rest ih =>
    -- the first declaration is committed at once, and still no transaction is open
    have hinsert : (r.insert item.1 item.2).2 =
        ⟨r.lastNumber + 1, r.committed ++ [⟨⟨r.lastNumber + 1⟩, item.1, item.2⟩], []⟩ := by
      unfold insert
      rw [h]
    show (r.insert item.1 item.2).2.enter rest = _
    rw [hinsert, ih rfl]
    simp only [Declaration.numbered, List.append_assoc, List.cons_append, List.nil_append,
      List.length_cons]
    congr 1
    omega

/-- Inside a transaction, what is entered is staged in its layer. -/
theorem enter_of_layers_cons {layer : List Declaration} {outer : List (List Declaration)}
    (h : r.layers = layer :: outer) (items : List (String × Slot Ty)) :
    r.enter items =
      ⟨r.lastNumber + items.length, r.committed,
        (layer ++ Declaration.numbered r.lastNumber items) :: outer⟩ := by
  induction items generalizing r layer with
  | nil =>
    obtain ⟨last, committed, layers⟩ := r
    have hlayers : layers = layer :: outer := h
    simp [Declaration.numbered, hlayers]
  | cons item rest ih =>
    -- the first declaration goes to the innermost layer, and the outer ones stay
    have hinsert : (r.insert item.1 item.2).2 =
        ⟨r.lastNumber + 1, r.committed,
          (layer ++ [⟨⟨r.lastNumber + 1⟩, item.1, item.2⟩]) :: outer⟩ := by
      unfold insert
      rw [h]
    show (r.insert item.1 item.2).2.enter rest = _
    rw [hinsert, ih rfl]
    simp only [Declaration.numbered, List.append_assoc, List.cons_append, List.nil_append,
      List.length_cons]
    congr 1
    omega

@[simp] theorem lastNumber_enter (r : Registry) (items : List (String × Slot Ty)) :
    (r.enter items).lastNumber = r.lastNumber + items.length := by
  cases h : r.layers with
  | nil => rw [enter_of_layers_nil h]
  | cons layer outer => rw [enter_of_layers_cons h]

theorem layers_enter_of_nil (h : r.layers = []) (items : List (String × Slot Ty)) :
    (r.enter items).layers = [] := by
  rw [enter_of_layers_nil h]

theorem upcoming_append (r : Registry) (xs ys : List (String × Slot Ty)) :
    r.upcoming (xs ++ ys).length = r.upcoming xs.length ++ (r.enter xs).upcoming ys.length := by
  simp only [upcoming, lastNumber_enter, List.length_append, ← List.range'_append_1,
    List.map_append]
  congr 3
  omega

/-! ## Wasted numbers -/

@[simp] theorem committed_skip (n : Nat) : (r.skip n).committed = r.committed := rfl

@[simp] theorem lastNumber_skip (n : Nat) : (r.skip n).lastNumber = r.lastNumber + n := rfl

/-! ## Transactions -/

@[simp] theorem entries_begin (r : Registry) : r.begin.entries = r.entries := by
  simp [begin, entries]

@[simp] theorem entries_commit (r : Registry) : r.commit.entries = r.entries := by
  unfold commit
  split
  · rfl
  · next layer h => simp [entries, h]
  · next layer outer rest h => simp [entries, h]

@[simp] theorem lastNumber_commit (r : Registry) : r.commit.lastNumber = r.lastNumber := by
  unfold commit
  split <;> rfl

theorem entries_abort_sublist (r : Registry) : r.abort.entries.Sublist r.entries := by
  obtain ⟨last, committed, layers⟩ := r
  cases layers with
  | nil => exact List.Sublist.refl _
  | cons layer outer =>
    simp only [abort, entries, List.tail_cons, List.reverse_cons, List.flatten_append,
      ← List.append_assoc]
    exact List.sublist_append_left _ _

theorem commit_enter_begin (r : Registry) (items : List (String × Slot Ty)) :
    (r.begin.enter items).commit = r.enter items := by
  have hbegin : r.begin.layers = [] :: r.layers := rfl
  rw [enter_of_layers_cons hbegin]
  -- the layer is handed to the one around it, or committed when it was the only one
  cases h : r.layers with
  | nil =>
    rw [enter_of_layers_nil h]
    simp [commit, begin]
  | cons layer outer =>
    rw [enter_of_layers_cons h]
    simp [commit, begin]

theorem abort_skip_enter_begin (r : Registry) (items : List (String × Slot Ty)) (n : Nat) :
    ((r.begin.enter items).skip n).abort = r.skip (items.length + n) := by
  have hbegin : r.begin.layers = [] :: r.layers := rfl
  rw [enter_of_layers_cons hbegin]
  simp [abort, skip, begin, Nat.add_assoc]

/-! ## Looking up -/

/-- When no number was handed out twice, every committed declaration is found by its number. -/
theorem resolve_of_mem (hlayers : r.layers = []) (hnodup : (r.committed.map Declaration.id).Nodup)
    {d : Declaration} (hd : d ∈ r.committed) : r.resolve d.id = .ok (some d) := by
  have hfind (committed : List Declaration) (hnodup : (committed.map Declaration.id).Nodup)
      (hd : d ∈ committed) : committed.find? (fun d' => d'.id == d.id) = some d := by
    induction committed with
    | nil => cases hd
    | cons first rest ih =>
      rw [List.map_cons, List.nodup_cons] at hnodup
      rcases List.mem_cons.1 hd with rfl | hrest
      · rw [List.find?_cons_of_pos (by simp)]
      · have hne : first.id ≠ d.id := by
          intro heq
          exact hnodup.1 (heq ▸ List.mem_map_of_mem hrest)
        rw [List.find?_cons_of_neg (by simpa using hne)]
        exact ih hnodup.2 hrest
  unfold resolve inTransaction
  rw [hlayers, hfind r.committed hnodup hd]
  rfl

/-- What is found is committed under the number asked for. -/
theorem mem_of_resolve {id : DeclId} {d : Declaration} (h : r.resolve id = .ok (some d)) :
    d ∈ r.committed ∧ d.id = id := by
  unfold resolve at h
  split at h
  · cases h
  · have hfind := Except.ok.inj h
    exact ⟨List.mem_of_find?_eq_some hfind, by simpa using List.find?_some hfind⟩

end Registry

end Nominal
