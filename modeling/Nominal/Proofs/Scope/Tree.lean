import Nominal.Proofs.Scope.Frame
import Nominal.Scope.Tree

/-!
# Runs on a tree of frames

Whatever is declared, taken back and created, in any order, every frame stays consistent
(`Frame.Consistent`): variables and functions have different names, a name in the table of functions
has overloads, and none of them is covered by an earlier one. Frames do not touch each other, and
what a frame sees of a name is the entry of the nearest frame that has one
(`ScopeTree.performAll_lawful`).
-/

namespace Nominal

/-! ## One frame -/

/-- What the tables of a frame keep. -/
structure Frame.Consistent (f : Frame) : Prop where
  apart : ∀ name, f.bindings.contains name = true → f.functions.contains name = false
  inhabited : ∀ name overloads, f.functions.find? name = some overloads → overloads ≠ []
  uncovered : ∀ name overloads, f.functions.find? name = some overloads →
    overloads.Pairwise fun earlier later => earlier.signature.covers later.signature = false

/-- One declaration is entered in `f`, or one taken back. -/
inductive Frame.Becomes (f : Frame) : Frame → Prop where
  | declareVariable {name binding g} (h : f.declareVariable name binding = some g) : f.Becomes g
  | removeVariable (name) : f.Becomes (f.removeVariable name)
  | declareType {name type g} (h : f.declareType name type = some g) : f.Becomes g
  | declareFunction {name overload g} (h : f.declareFunction name overload = some g) : f.Becomes g
  | removeFunction (name id) : f.Becomes (f.removeFunction name id)

namespace Frame

variable {f g : Frame} {name other : String}

theorem consistent_empty : empty.Consistent where
  apart _ h := nomatch h
  inhabited _ _ h := nomatch h
  uncovered _ _ h := nomatch h

/-- The types do not count. -/
theorem Consistent.of_eq (h : f.Consistent) (hbindings : g.bindings = f.bindings)
    (hfunctions : g.functions = f.functions) : g.Consistent where
  apart := by
    rw [hbindings, hfunctions]
    exact h.apart
  inhabited := by
    rw [hfunctions]
    exact h.inhabited
  uncovered := by
    rw [hfunctions]
    exact h.uncovered

theorem consistent_root : root.Consistent :=
  consistent_empty.of_eq rfl rfl

theorem Consistent.pairwise_get (h : f.Consistent) (name : String) :
    (f.functions.get name).Pairwise fun earlier later =>
      earlier.signature.covers later.signature = false := by
  cases hfind : f.functions.find? name with
  | none =>
    rw [Methods.get_of_not_contains (Table.find?_eq_none.1 hfind)]
    exact .nil
  | some overloads =>
    rw [Methods.get_of_find? hfind]
    exact h.uncovered name overloads hfind

theorem Consistent.declareVariable (h : f.Consistent) {binding : Binding}
    (hdeclare : f.declareVariable name binding = some g) : g.Consistent := by
  obtain ⟨-, hfree, rfl⟩ := declareVariable_eq_some hdeclare
  refine ⟨?_, h.inhabited, h.uncovered⟩
  intro other hother
  rw [Table.contains_iff, Table.names_insert] at hother
  split at hother
  · exact h.apart other (Table.contains_iff.2 hother)
  · rcases List.mem_append.1 hother with hold | hnew
    · exact h.apart other (Table.contains_iff.2 hold)
    · rw [List.mem_singleton.1 hnew]
      exact hfree

theorem Consistent.removeVariable (h : f.Consistent) (name : String) :
    (f.removeVariable name).Consistent := by
  refine ⟨?_, h.inhabited, h.uncovered⟩
  intro other hother
  have hbefore : f.bindings.contains other = true := by
    cases hfind : (f.removeVariable name).bindings.find? other with
    | none =>
      rw [Table.find?_eq_none.1 hfind] at hother
      cases hother
    | some binding => exact Table.contains_of_find? (Table.find?_of_find?_erase hfind)
  exact h.apart other hbefore

theorem Consistent.declareType (h : f.Consistent) {type : Ty}
    (hdeclare : f.declareType name type = some g) : g.Consistent := by
  obtain ⟨-, rfl⟩ := declareType_eq_some hdeclare
  exact h.of_eq rfl rfl

theorem Consistent.declareFunction (h : f.Consistent) {overload : Overload}
    (hdeclare : f.declareFunction name overload = some g) : g.Consistent := by
  have huncovered := uncovered_of_declareFunction hdeclare
  obtain ⟨hfree, rfl⟩ := declareFunction_eq_some hdeclare
  constructor
  case apart =>
    intro other hother
    have hbefore := h.apart other hother
    rw [Table.contains_eq_false] at hbefore ⊢
    rw [Methods.names_add]
    split
    · exact hbefore
    · intro hmem
      rcases List.mem_append.1 hmem with hold | hnew
      · exact hbefore hold
      · -- `name` itself is free of variables
        rw [List.mem_singleton.1 hnew, hfree] at hother
        cases hother
  case inhabited =>
    intro other overloads hfind
    unfold Methods.add at hfind
    rw [Table.find?_insert] at hfind
    split at hfind
    · cases hfind
      simp
    · exact h.inhabited other overloads hfind
  case uncovered =>
    intro other overloads hfind
    unfold Methods.add at hfind
    rw [Table.find?_insert] at hfind
    split at hfind
    · cases hfind
      rw [List.pairwise_append]
      refine ⟨h.pairwise_get name, List.pairwise_singleton _ _, ?_⟩
      intro o ho o' ho'
      rw [List.mem_singleton.1 ho']
      exact huncovered o ho
    · exact h.uncovered other overloads hfind

/-- What is left of a set of overloads was there before, and is not nothing. -/
theorem find?_removeFunction {id : DeclId} {overloads : List Overload}
    (h : (f.removeFunction name id).functions.find? other = some overloads) :
    f.functions.find? other = some overloads ∨
      overloads ≠ [] ∧ ∃ before, f.functions.find? other = some before ∧
        overloads.Sublist before := by
  unfold removeFunction at h
  split at h
  · exact .inl h
  · next before hfind =>
    dsimp only at h
    split at h
    · exact .inl (Table.find?_of_find?_erase h)
    · next hkept =>
      rw [Table.find?_insert] at h
      split at h
      · next hname =>
        cases h
        right
        constructor
        · intro hnil
          rw [hnil] at hkept
          exact hkept rfl
        · rw [hname]
          exact ⟨before, hfind, List.filter_sublist⟩
      · exact .inl h

theorem Consistent.removeFunction (h : f.Consistent) (name : String) (id : DeclId) :
    (f.removeFunction name id).Consistent := by
  constructor
  case apart =>
    intro other hother
    rw [bindings_removeFunction] at hother
    have hbefore := h.apart other hother
    cases hfind : (f.removeFunction name id).functions.find? other with
    | none => exact Table.find?_eq_none.1 hfind
    | some overloads =>
      rcases find?_removeFunction hfind with hsame | ⟨-, before, hfound, -⟩
      · rw [Table.contains_of_find? hsame] at hbefore
        cases hbefore
      · rw [Table.contains_of_find? hfound] at hbefore
        cases hbefore
  case inhabited =>
    intro other overloads hfind
    rcases find?_removeFunction hfind with hsame | ⟨hne, -⟩
    · exact h.inhabited other overloads hsame
    · exact hne
  case uncovered =>
    intro other overloads hfind
    rcases find?_removeFunction hfind with hsame | ⟨-, before, hfound, hsublist⟩
    · exact h.uncovered other overloads hsame
    · exact (h.uncovered other before hfound).sublist hsublist

theorem Becomes.consistent (hstep : f.Becomes g) (h : f.Consistent) : g.Consistent := by
  cases hstep with
  | declareVariable hdeclare => exact h.declareVariable hdeclare
  | removeVariable name => exact h.removeVariable name
  | declareType hdeclare => exact h.declareType hdeclare
  | declareFunction hdeclare => exact h.declareFunction hdeclare
  | removeFunction name id => exact h.removeFunction name id

end Frame

/-! ## A tree of frames -/

/-- What can be done with a tree of frames. -/
inductive ScopeOp where
  | create (parent? : Option Nat)
  | declareVariable (i : Nat) (name : String) (binding : Binding)
  | removeVariable (i : Nat) (name : String)
  | declareType (i : Nat) (name : String) (type : Ty)
  | declareFunction (i : Nat) (name : String) (overload : Overload)
  | removeFunction (i : Nat) (name : String) (id : DeclId)

/-- The frame whose tables the operation is about. -/
def ScopeOp.target? : ScopeOp → Option Nat
  | create _ => none
  | declareVariable i _ _ | removeVariable i _ | declareType i _ _ | declareFunction i _ _
  | removeFunction i _ _ => some i

/-- The frame that the operation mentions. -/
def ScopeOp.mentioned? : ScopeOp → Option Nat
  | create parent? => parent?
  | op => op.target?

namespace ScopeTree

/-- The tree after `op`, and whether `op` was accepted. Only frames that exist can be mentioned. -/
def perform (t : ScopeTree) (op : ScopeOp) : Bool × ScopeTree :=
  if op.mentioned?.all (· < t.nodes.length) then
    match op with
    | .create parent? => (true, (t.add parent?).2)
    | .declareVariable i name binding => t.declare i fun f => f.declareVariable name binding
    | .removeVariable i name => (true, t.update i fun f => f.removeVariable name)
    | .declareType i name type => t.declare i fun f => f.declareType name type
    | .declareFunction i name overload => t.declare i fun f => f.declareFunction name overload
    | .removeFunction i name id => (true, t.update i fun f => f.removeFunction name id)
  else (false, t)

/-- The tree after `ops`, one after the other. -/
def performAll (t : ScopeTree) (ops : List ScopeOp) : ScopeTree :=
  ops.foldl (fun t op => (t.perform op).2) t

/-- From frame `i` along the frames around it, `j` is the first that has what is looked for. -/
inductive Nearest (t : ScopeTree) (has : Frame → Prop) : Nat → Nat → Prop where
  | here {i} (h : has (t.frame i)) : t.Nearest has i i
  | around {i p j} (h : ¬ has (t.frame i)) (hparent : t.parent? i = some p)
      (hnearest : t.Nearest has p j) : t.Nearest has i j

/-- Frame `i` sees `entry` under `name`: the nearest frame that has the name in its table has it with
this entry. -/
def Sees {α : Type} (t : ScopeTree) (table : Frame → Table α) (i : Nat) (name : String)
    (entry : α) : Prop :=
  ∃ j, t.Nearest (fun f => (table f).contains name = true) i j ∧
    (table (t.frame j)).find? name = some entry

variable {t : ScopeTree} {op : ScopeOp} {i j : Nat}

/-! ### What an operation does -/

theorem frame_add (t : ScopeTree) (parent? : Option Nat) (j : Nat) :
    (t.add parent?).2.frame j = t.frame j := by
  unfold frame add
  rcases Nat.lt_trichotomy j t.nodes.length with hlt | rfl | hgt
  · rw [List.getElem?_append_left hlt]
  · -- the new frame is as empty as one that does not exist
    rw [List.getElem?_concat_length, List.getElem?_eq_none (Nat.le_refl _)]
    rfl
  · rw [List.getElem?_eq_none (by simpa using Nat.succ_le_of_lt hgt),
      List.getElem?_eq_none (Nat.le_of_lt hgt)]

theorem frame_update_of_ne (h : i ≠ j) (f : Frame → Frame) :
    (t.update i f).frame j = t.frame j := by
  unfold frame update
  rw [List.getElem?_modify_ne _ _ h]

theorem frame_update_self (h : i < t.nodes.length) (f : Frame → Frame) :
    (t.update i f).frame i = f (t.frame i) := by
  unfold frame update
  rw [List.getElem?_modify_eq, List.getElem?_eq_getElem h]
  rfl

theorem parent?_update (t : ScopeTree) (i : Nat) (f : Frame → Frame) (j : Nat) :
    (t.update i f).parent? j = t.parent? j := by
  unfold parent? update
  rw [List.getElem?_modify]
  cases t.nodes[j]? with
  | none => rfl
  | some node =>
    simp only [Option.map_eq_map, Option.map_some, Option.bind_some]
    split <;> rfl

theorem declare_cases (t : ScopeTree) (i : Nat) (f : Frame → Option Frame) :
    t.declare i f = (false, t) ∨
      ∃ g, f (t.frame i) = some g ∧ t.declare i f = (true, t.update i fun _ => g) := by
  unfold declare
  cases h : f (t.frame i) with
  | none => exact .inl rfl
  | some g => exact .inr ⟨g, rfl, rfl⟩

/-- An operation is refused and changes nothing, or it creates a frame inside an older one, or it
enters or takes back one declaration of one frame. -/
theorem perform_cases (t : ScopeTree) (op : ScopeOp) :
    t.perform op = (false, t) ∨
      (∃ parent?, op.target? = none ∧ (∀ p, parent? = some p → p < t.nodes.length) ∧
        t.perform op = (true, (t.add parent?).2)) ∨
      ∃ i change, op.target? = some i ∧ i < t.nodes.length ∧
        (t.frame i).Becomes (change (t.frame i)) ∧ t.perform op = (true, t.update i change) := by
  unfold perform
  split
  · next hexists =>
    -- a declaration is refused, or the frame becomes the one with the declaration
    have hdeclare {i : Nat} {f : Frame → Option Frame} (hi : op.mentioned? = some i)
        (htarget : op.target? = some i) (hf : ∀ g, f (t.frame i) = some g → (t.frame i).Becomes g) :
        t.declare i f = (false, t) ∨
          (∃ parent?, op.target? = none ∧ (∀ p, parent? = some p → p < t.nodes.length) ∧
            t.declare i f = (true, (t.add parent?).2)) ∨
          ∃ i' change, op.target? = some i' ∧ i' < t.nodes.length ∧
            (t.frame i').Becomes (change (t.frame i')) ∧
              t.declare i f = (true, t.update i' change) := by
      rw [hi] at hexists
      rcases t.declare_cases i f with hrefused | ⟨g, hg, haccepted⟩
      · exact .inl hrefused
      · exact .inr (.inr ⟨i, fun _ => g, htarget, by simpa using hexists, hf g hg, haccepted⟩)
    cases op with
    | create parent? =>
      right
      left
      refine ⟨parent?, rfl, ?_, rfl⟩
      rintro p rfl
      simpa [ScopeOp.mentioned?] using hexists
    | declareVariable i name binding => exact hdeclare rfl rfl fun g => .declareVariable
    | declareType i name type => exact hdeclare rfl rfl fun g => .declareType
    | declareFunction i name overload => exact hdeclare rfl rfl fun g => .declareFunction
    | removeVariable i name =>
      have hi : i < t.nodes.length := by
        simpa [ScopeOp.mentioned?, ScopeOp.target?] using hexists
      exact .inr (.inr ⟨i, _, rfl, hi, .removeVariable name, rfl⟩)
    | removeFunction i name id =>
      have hi : i < t.nodes.length := by
        simpa [ScopeOp.mentioned?, ScopeOp.target?] using hexists
      exact .inr (.inr ⟨i, _, rfl, hi, .removeFunction name id, rfl⟩)
  · exact .inl rfl

theorem perform_refused (h : (t.perform op).1 = false) : (t.perform op).2 = t := by
  rcases t.perform_cases op with hperform | ⟨_, -, -, hperform⟩ | ⟨_, _, -, -, -, hperform⟩
  · rw [hperform]
  · rw [hperform] at h
    cases h
  · rw [hperform] at h
    cases h

theorem frame_perform_of_ne (h : op.target? ≠ some j) :
    (t.perform op).2.frame j = t.frame j := by
  rcases t.perform_cases op with hperform | ⟨_, -, -, hperform⟩ | ⟨i, _, htarget, -, -, hperform⟩
  · rw [hperform]
  · rw [hperform]
    exact t.frame_add _ j
  · rw [hperform]
    apply frame_update_of_ne
    rintro rfl
    exact h htarget

/-! ### What a run keeps -/

/-- Each frame is consistent, and was created after the frame around it. -/
structure Lawful (t : ScopeTree) : Prop where
  consistent : ∀ i, (t.frame i).Consistent
  ordered : ∀ i p, t.parent? i = some p → p < i

theorem lawful_root : root.Lawful where
  consistent i := by
    cases i with
    | zero => exact Frame.consistent_root
    | succ i => exact Frame.consistent_empty
  ordered i p h := by
    cases i with
    | zero => cases h
    | succ i => cases h

theorem Lawful.add (h : t.Lawful) {parent? : Option Nat}
    (hparent : ∀ p, parent? = some p → p < t.nodes.length) : (t.add parent?).2.Lawful where
  consistent i := by
    rw [frame_add]
    exact h.consistent i
  ordered i p hp := by
    unfold ScopeTree.parent? ScopeTree.add at hp
    rcases Nat.lt_trichotomy i t.nodes.length with hlt | rfl | hgt
    · rw [List.getElem?_append_left hlt] at hp
      exact h.ordered i p hp
    · rw [List.getElem?_concat_length] at hp
      exact hparent p hp
    · rw [List.getElem?_eq_none (by simpa using Nat.succ_le_of_lt hgt)] at hp
      cases hp

theorem Lawful.update (h : t.Lawful) (hi : i < t.nodes.length) {change : Frame → Frame}
    (hstep : (t.frame i).Becomes (change (t.frame i))) : (t.update i change).Lawful where
  consistent j := by
    by_cases hj : i = j
    · subst hj
      rw [frame_update_self hi]
      exact hstep.consistent (h.consistent i)
    · rw [frame_update_of_ne hj]
      exact h.consistent j
  ordered j p hp := by
    rw [parent?_update] at hp
    exact h.ordered j p hp

theorem Lawful.perform (h : t.Lawful) (op : ScopeOp) : (t.perform op).2.Lawful := by
  rcases t.perform_cases op with hperform | ⟨_, -, hparent, hperform⟩ |
    ⟨i, _, -, hi, hstep, hperform⟩
  · rw [hperform]
    exact h
  · rw [hperform]
    exact h.add hparent
  · rw [hperform]
    exact h.update hi hstep

theorem Lawful.performAll (h : t.Lawful) (ops : List ScopeOp) : (t.performAll ops).Lawful := by
  induction ops generalizing t with
  | nil => exact h
  | cons op ops ih => exact ih (h.perform op)

/-! ### What a frame sees -/

theorem chain_of_parent?_eq_none (h : t.parent? i = none) : t.chain i = [t.frame i] := by
  rw [chain, h]

theorem Lawful.chain_of_parent? (h : t.Lawful) {p : Nat} (hp : t.parent? i = some p) :
    t.chain i = t.frame i :: t.chain p := by
  rw [chain, hp]
  exact if_pos (h.ordered i p hp)

theorem Lawful.consistent_of_mem_chain (h : t.Lawful) {f : Frame} (hf : f ∈ t.chain i) :
    f.Consistent := by
  induction i using Nat.strongRecOn with
  | ind i ih =>
    cases hp : t.parent? i with
    | none =>
      rw [chain_of_parent?_eq_none hp, List.mem_singleton] at hf
      rw [hf]
      exact h.consistent i
    | some p =>
      rw [h.chain_of_parent? hp] at hf
      rcases List.mem_cons.1 hf with rfl | hrest
      · exact h.consistent i
      · exact ih p (h.ordered i p hp) hrest

theorem sees_of_find? {α : Type} {table : Frame → Table α} {name : String} {entry : α}
    (h : (table (t.frame i)).find? name = some entry) {other : α} :
    t.Sees table i name other ↔ other = entry := by
  have hhas := Table.contains_of_find? h
  constructor
  · rintro ⟨j, hnearest, hfind⟩
    cases hnearest with
    | here =>
      rw [h] at hfind
      cases hfind
      rfl
    | around hhasnt => exact absurd hhas hhasnt
  · rintro rfl
    exact ⟨i, .here hhas, h⟩

theorem sees_of_not_contains {α : Type} {table : Frame → Table α} {name : String} {entry : α}
    (h : (table (t.frame i)).contains name = false) :
    t.Sees table i name entry ↔ ∃ p, t.parent? i = some p ∧ t.Sees table p name entry := by
  have hhasnt : ¬ (table (t.frame i)).contains name = true := by simp [h]
  constructor
  · rintro ⟨j, hnearest, hfind⟩
    cases hnearest with
    | here hhas => exact absurd hhas hhasnt
    | around _ hparent hnearest => exact ⟨_, hparent, j, hnearest, hfind⟩
  · rintro ⟨p, hparent, j, hnearest, hfind⟩
    exact ⟨j, .around hhasnt hparent hnearest, hfind⟩

/-- Going through the chain finds what the frame sees. -/
theorem Lawful.findSome?_chain (h : t.Lawful) {α : Type} (table : Frame → Table α) (i : Nat)
    (name : String) (entry : α) :
    (t.chain i).findSome? (fun f => (table f).find? name) = some entry ↔
      t.Sees table i name entry := by
  induction i using Nat.strongRecOn with
  | ind i ih =>
    cases hfind : (table (t.frame i)).find? name with
    | some own =>
      have hchain : ∃ rest, t.chain i = t.frame i :: rest := by
        cases hp : t.parent? i with
        | none => exact ⟨[], chain_of_parent?_eq_none hp⟩
        | some p => exact ⟨t.chain p, h.chain_of_parent? hp⟩
      obtain ⟨rest, hrest⟩ := hchain
      rw [hrest, List.findSome?_cons_of_isSome (by simp [hfind]), hfind, sees_of_find? hfind,
        Option.some_inj]
      exact eq_comm
    | none =>
      rw [sees_of_not_contains (Table.find?_eq_none.1 hfind)]
      cases hp : t.parent? i with
      | none =>
        rw [chain_of_parent?_eq_none hp, List.findSome?_cons_of_isNone (by simp [hfind])]
        simp
      | some p =>
        rw [h.chain_of_parent? hp, List.findSome?_cons_of_isNone (by simp [hfind]),
          ih p (h.ordered i p hp)]
        simp

/-- Where no set of overloads is empty, the nearest set is found. -/
theorem findFunctions_of_consistent {s : Scope} (h : ∀ f ∈ s, f.Consistent) (name : String) :
    s.findFunctions name = (s.findSome? fun f => f.functions.find? name).getD [] := by
  induction s with
  | nil => rfl
  | cons f rest ih =>
    have hrest := ih fun g hg => h g (List.mem_cons_of_mem f hg)
    unfold Scope.findFunctions at hrest ⊢
    cases hfind : f.functions.find? name with
    | none =>
      have hget := Methods.get_of_not_contains (Table.find?_eq_none.1 hfind)
      rw [List.findSome?_cons_of_isNone (by simp [hget]),
        List.findSome?_cons_of_isNone (by simp [hfind])]
      exact hrest
    | some overloads =>
      have hne := (h f List.mem_cons_self).inhabited name overloads hfind
      have hget := Methods.get_of_find? hfind
      cases overloads with
      | nil => exact absurd rfl hne
      | cons o others => simp [hget, hfind]

theorem Lawful.sees_functions (h : t.Lawful) (i : Nat) (name : String)
    (overloads : List Overload) :
    t.Sees (·.functions) i name overloads ↔
      (t.chain i).findFunctions name = overloads ∧ overloads ≠ [] := by
  have hfound := findFunctions_of_consistent (fun f hf => h.consistent_of_mem_chain hf) name
    (s := t.chain i)
  rw [hfound]
  constructor
  · intro hsees
    have hsome := (h.findSome?_chain (·.functions) i name overloads).2 hsees
    obtain ⟨j, -, hfind⟩ := hsees
    rw [hsome]
    exact ⟨rfl, (h.consistent j).inhabited name overloads hfind⟩
  · rintro ⟨hget, hne⟩
    apply (h.findSome?_chain (·.functions) i name overloads).1
    cases hsome : (t.chain i).findSome? fun f => f.functions.find? name with
    | none =>
      rw [hsome] at hget
      exact absurd hget.symm hne
    | some found =>
      rw [hsome] at hget
      exact congrArg some hget

/-- After any run each frame is consistent. What is refused changes nothing, what is done to one
frame leaves the others alone, and looking a name up gives the whole entry of the nearest frame that
has the name, if there is one. -/
theorem performAll_lawful (ops : List ScopeOp) :
    let t := root.performAll ops
    (∀ i, (t.frame i).Consistent) ∧
      (∀ op, (t.perform op).1 = false → (t.perform op).2 = t) ∧
      (∀ op j, op.target? ≠ some j → (t.perform op).2.frame j = t.frame j) ∧
      ∀ i name,
        (∀ binding, (t.chain i).findVariable? name = some binding ↔
          t.Sees (·.bindings) i name binding) ∧
        (∀ type, (t.chain i).findType? name = some type ↔ t.Sees (·.types) i name type) ∧
        ∀ overloads, (t.chain i).findFunctions name = overloads ∧ overloads ≠ [] ↔
          t.Sees (·.functions) i name overloads := by
  have hlawful := lawful_root.performAll ops
  refine ⟨hlawful.consistent, fun op => perform_refused, fun op j => frame_perform_of_ne, ?_⟩
  intro i name
  refine ⟨?_, ?_, ?_⟩
  · exact hlawful.findSome?_chain (·.bindings) i name
  · exact hlawful.findSome?_chain (·.types) i name
  · intro overloads
    exact (hlawful.sees_functions i name overloads).symm

end ScopeTree

end Nominal
