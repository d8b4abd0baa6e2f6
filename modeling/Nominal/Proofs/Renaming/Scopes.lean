import Nominal.Proofs.Renaming.Types
import Nominal.Proofs.Table
import Nominal.Typing.Types

/-!
# Renaming what is declared

Frames and classes with all their declarations renamed. Names are looked up, declared and taken out
as before, since none of this depends on numbers; only to take a function out of a frame its number
is compared with others, and a renaming joins no two numbers.

The classes of one run are found in the other under their new keys (`ClassTable.Renamed`), possibly
among classes that the first run does not have.
-/

namespace Nominal

variable {ρ : Renaming}

/-! ## Tables -/

namespace Table

variable {α β : Type} (f : α → β)

/-- The table with `f` applied to all values. -/
def map (t : Table α) : Table β :=
  ⟨t.entries.map fun entry => (entry.1, f entry.2), by
    rw [List.map_map]
    exact t.nodup⟩

@[simp] theorem find?_map (t : Table α) (name : String) :
    (t.map f).find? name = (t.find? name).map f := by
  unfold find? map
  rw [List.find?_map, Option.map_map, Option.map_map]
  rfl

@[simp] theorem contains_map (t : Table α) (name : String) :
    (t.map f).contains name = t.contains name := by
  unfold contains map
  rw [List.any_map]
  rfl

theorem map_insert (t : Table α) (name : String) (value : α) :
    (t.insert name value).map f = (t.map f).insert name (f value) := by
  apply ext
  cases h : t.contains name with
  | true =>
    rw [entries_insert_of_contains ((contains_map f t name).trans h)]
    show ((t.insert name value).entries.map fun entry => (entry.1, f entry.2)) =
      replace name (f value) (t.entries.map fun entry => (entry.1, f entry.2))
    rw [entries_insert_of_contains h]
    unfold replace
    rw [List.map_map, List.map_map]
    congr 1
    funext entry
    simp only [Function.comp]
    split <;> rfl
  | false =>
    rw [entries_insert_of_not_contains ((contains_map f t name).trans h)]
    show (t.insert name value).entries.map (fun entry => (entry.1, f entry.2)) =
      t.entries.map (fun entry => (entry.1, f entry.2)) ++ [(name, f value)]
    rw [entries_insert_of_not_contains h, List.map_append]
    rfl

theorem map_erase (t : Table α) (name : String) : (t.erase name).map f = (t.map f).erase name := by
  apply ext
  show (t.entries.filter fun entry => entry.1 != name).map (fun entry => (entry.1, f entry.2)) =
    (t.entries.map fun entry => (entry.1, f entry.2)).filter fun entry => entry.1 != name
  rw [List.filter_map]
  rfl

end Table

namespace Methods

/-- The overloads with their new numbers. -/
def rename (ρ : Renaming) (m : Methods) : Methods :=
  Table.map (List.map (Overload.rename ρ)) m

@[simp] theorem get_rename (m : Methods) (name : String) :
    (m.rename ρ).get name = (m.get name).map (Overload.rename ρ) := by
  unfold get rename
  rw [Table.find?_map]
  cases m.find? name <;> rfl

theorem add_rename (m : Methods) (name : String) (o : Overload) :
    (m.add name o).rename ρ = (m.rename ρ).add name (o.rename ρ) := by
  unfold add
  rw [get_rename]
  exact (Table.map_insert _ m name _).trans (by rw [List.map_append]; rfl)

end Methods

/-! ## Frames -/

/-- The variable with its new number. -/
def Binding.rename (ρ : Renaming) (b : Binding) : Binding :=
  ⟨b.id.rename ρ, b.type.rename ρ⟩

namespace Frame

/-- The frame with all its declarations renamed. -/
def rename (ρ : Renaming) (f : Frame) : Frame :=
  ⟨f.bindings.map (Binding.rename ρ), f.types.map (Ty.rename ρ), f.functions.rename ρ⟩

@[simp] theorem rename_empty : empty.rename ρ = empty := rfl

@[simp] theorem rename_root : root.rename ρ = root := by
  have htypes : root.types.map (Ty.rename ρ) = root.types := by
    have hentries : root.types.entries =
        [("Int", .int), ("Bool", .bool), ("String", .string), ("Nothing", .nothing)] := rfl
    apply Table.ext
    show (root.types.entries.map fun entry => (entry.1, entry.2.rename ρ)) = root.types.entries
    rw [hentries]
    simp [Ty.int, Ty.bool, Ty.string, Ty.nothing]
  unfold rename
  rw [htypes]
  rfl

theorem declareVariable_rename (f : Frame) (name : String) (b : Binding) :
    (f.rename ρ).declareVariable name (b.rename ρ) =
      (f.declareVariable name b).map (Frame.rename ρ) := by
  unfold declareVariable
  have htaken : ((f.rename ρ).bindings.contains name || (f.rename ρ).functions.contains name) =
      (f.bindings.contains name || f.functions.contains name) := by
    simp only [rename, Methods.rename, Table.contains_map]
  rw [htaken]
  split
  · rfl
  · simp only [rename, Option.map_some, Table.map_insert]

theorem removeVariable_rename (f : Frame) (name : String) :
    (f.rename ρ).removeVariable name = (f.removeVariable name).rename ρ := by
  simp only [removeVariable, rename, Table.map_erase]

theorem declareType_rename (f : Frame) (name : String) (type : Ty) :
    (f.rename ρ).declareType name (type.rename ρ) =
      (f.declareType name type).map (Frame.rename ρ) := by
  unfold declareType
  have htaken : (f.rename ρ).types.contains name = f.types.contains name := by
    simp only [rename, Table.contains_map]
  rw [htaken]
  split
  · rfl
  · simp only [rename, Option.map_some, Table.map_insert]

theorem declareFunction_rename (f : Frame) (name : String) (o : Overload) :
    (f.rename ρ).declareFunction name (o.rename ρ) =
      (f.declareFunction name o).map (Frame.rename ρ) := by
  unfold declareFunction
  have htaken : (f.rename ρ).bindings.contains name = f.bindings.contains name := by
    simp only [rename, Table.contains_map]
  have hcovered : (((f.rename ρ).functions.get name).any fun p =>
      p.signature.covers (o.rename ρ).signature) =
        (f.functions.get name).any fun p => p.signature.covers o.signature := by
    simp only [rename, Methods.get_rename, List.any_map]
    congr 1
    funext p
    exact FnType.covers_rename p.signature o.signature
  rw [htaken, hcovered]
  split
  · rfl
  · split
    · rfl
    · simp only [rename, Option.map_some, Methods.add_rename]

theorem removeFunction_rename (f : Frame) (name : String) (id : DeclId) :
    (f.rename ρ).removeFunction name (id.rename ρ) = (f.removeFunction name id).rename ρ := by
  -- the number of an overload is the new number of `id` exactly when it was `id`
  have hkept (overloads : List Overload) :
      ((overloads.map (Overload.rename ρ)).filter fun o => o.id? != some (id.rename ρ)) =
        (overloads.filter fun o => o.id? != some id).map (Overload.rename ρ) := by
    rw [List.filter_map]
    congr 2
    funext o
    obtain ⟨id?, signature⟩ := o
    cases id? with
    | none => rfl
    | some other =>
      have hsame : (other.rename ρ == id.rename ρ) = (other == id) := by
        rw [Bool.eq_iff_iff, beq_iff_eq, beq_iff_eq, DeclId.rename_inj]
      simpa [Overload.rename, bne] using hsame
  unfold removeFunction
  simp only [rename, Methods.rename, Table.find?_map]
  cases f.functions.find? name with
  | none => rfl
  | some overloads =>
    simp only [Option.map_some, hkept, List.isEmpty_map]
    split
    · simp only [Table.map_erase]
    · simp only [Table.map_insert]

end Frame

namespace Scope

/-- The frames with all their declarations renamed. -/
def rename (ρ : Renaming) (scope : Scope) : Scope :=
  scope.map (Frame.rename ρ)

variable (scope : Scope) (name : String)

/-- What is looked up in each frame is found in the same frame. -/
theorem findSome?_rename {α β : Type} {look : Frame → Option α} {look' : Frame → Option β}
    {g : α → β} (h : ∀ f : Frame, look' (f.rename ρ) = (look f).map g) :
    (scope.rename ρ).findSome? look' = (scope.findSome? look).map g := by
  unfold rename
  induction scope with
  | nil => rfl
  | cons f rest ih =>
    rw [List.map_cons, List.findSome?_cons, List.findSome?_cons, h f, ih]
    cases look f <;> rfl

theorem findVariable?_rename :
    (scope.rename ρ).findVariable? name = (scope.findVariable? name).map (Binding.rename ρ) :=
  scope.findSome?_rename fun f => Table.find?_map _ f.bindings name

theorem findType?_rename :
    (scope.rename ρ).findType? name = (scope.findType? name).map (Ty.rename ρ) :=
  scope.findSome?_rename fun f => Table.find?_map _ f.types name

theorem findFunctions_rename :
    (scope.rename ρ).findFunctions name = (scope.findFunctions name).map (Overload.rename ρ) := by
  unfold findFunctions
  rw [scope.findSome?_rename (g := List.map (Overload.rename ρ)) fun f => ?_]
  · cases scope.findSome? _ <;> rfl
  · rw [show (f.rename ρ).functions.get name = _ from Methods.get_rename f.functions name]
    cases f.functions.get name <;> rfl

end Scope

/-! ## Written types -/

theorem TypeExpr.valueType_rename (t : TypeExpr) (type : Ty) :
    t.valueType (type.rename ρ) = (t.valueType type).map (Ty.rename ρ) := by
  unfold valueType
  rw [Ty.hasValues_rename, Ty.name_rename]
  split <;> rfl

namespace Scope

mutual

/-- A written type denotes the renamed type. -/
theorem resolve_rename (scope : Scope) : ∀ t : TypeExpr,
    (scope.rename ρ).resolve t = (scope.resolve t).map (Ty.rename ρ)
  | .named name span => by
    rw [resolve, resolve, findType?_rename]
    cases scope.findType? name <;> rfl
  | .function parameters result span => by
    rw [resolve, resolve, resolveParameters_rename scope parameters, resolve_rename scope result]
    cases scope.resolveParameters parameters with
    | error d => rfl
    | ok slots =>
      cases scope.resolve result with
      | error d => rfl
      | ok type => exact congrArg Except.ok (Ty.rename_function slots type).symm

theorem resolveParameters_rename (scope : Scope) : ∀ ts : List TypeExpr,
    (scope.rename ρ).resolveParameters ts =
      (scope.resolveParameters ts).map (List.map (Slot.rename ρ))
  | [] => rfl
  | t :: rest => by
    rw [resolveParameters, resolveParameters, resolve_rename scope t,
      resolveParameters_rename scope rest]
    cases scope.resolve t with
    | error d => rfl
    | ok type =>
      show ((t.valueType (type.rename ρ)) >>= _) = _
      rw [TypeExpr.valueType_rename]
      show _ = ((t.valueType type) >>= _).map _
      cases t.valueType type with
      | error d => rfl
      | ok type => cases scope.resolveParameters rest <;> rfl

end

theorem resolveValue_rename (scope : Scope) (t : TypeExpr) :
    (scope.rename ρ).resolveValue t = (scope.resolveValue t).map (Ty.rename ρ) := by
  unfold resolveValue
  rw [resolve_rename]
  cases scope.resolve t with
  | error d => rfl
  | ok type => exact TypeExpr.valueType_rename t type

end Scope

/-! ## Classes -/

/-- The field with its new number. -/
def Member.rename (ρ : Renaming) (m : Member) : Member :=
  ⟨m.type.rename ρ, m.id.rename ρ⟩

/-- What is known of a class, with all its declarations renamed. -/
def ClassInfo.rename (ρ : Renaming) (info : ClassInfo) : ClassInfo :=
  ⟨info.name, info.parameters.map (Slot.rename ρ), info.members.map (Member.rename ρ),
    info.methods.rename ρ⟩

theorem ClassInfo.addParameter_rename (info : ClassInfo) (type : Slot Ty) :
    (info.rename ρ).addParameter (type.rename ρ) = (info.addParameter type).rename ρ := by
  simp [addParameter, rename]

theorem ClassInfo.addMember_rename (info : ClassInfo) (name : String) (m : Member) :
    (info.rename ρ).addMember name (m.rename ρ) = (info.addMember name m).rename ρ := by
  simp only [addMember, rename, Table.map_insert]

theorem ClassInfo.addMethod_rename (info : ClassInfo) (name : String) (o : Overload) :
    (info.rename ρ).addMethod name (o.rename ρ) = (info.addMethod name o).rename ρ := by
  simp only [addMethod, rename, Methods.add_rename]

namespace ClassTable

/-- Every class is found under its new key, with its declarations renamed. A key without a class has
none under its new key either. -/
def Renamed (ρ : Renaming) (t t' : ClassTable) : Prop :=
  ∀ k, t'.classes[ρ.key k]? = t.classes[k]?.map (ClassInfo.rename ρ)

variable {t t' : ClassTable}

/-- What is known of a class is known of the renamed class. -/
theorem Renamed.info (h : t.Renamed ρ t') (c : ClassRef) :
    t'.info (c.rename ρ) = (t.info c).rename ρ := by
  unfold ClassTable.info ClassRef.rename
  rw [h c.key]
  cases t.classes[c.key]? <;> rfl

theorem Renamed.member? (h : t.Renamed ρ t') (type : Ty) (name : String) :
    t'.member? (type.rename ρ) name = (t.member? type name).map (Member.rename ρ) := by
  cases type with
  | primitive p => rw [Ty.rename_primitive]; rfl
  | function parameters result => rw [Ty.rename_function]; rfl
  | cls c =>
    rw [Ty.rename_cls]
    show (t'.info (c.rename ρ)).members.find? name = _
    rw [h.info]
    exact Table.find?_map _ _ name

theorem Renamed.methods (h : t.Renamed ρ t') (type : Ty) (name : String) :
    t'.methods (type.rename ρ) name = (t.methods type name).map (Overload.rename ρ) := by
  cases type with
  | primitive p => rw [Ty.rename_primitive]; exact (p.map_rename_methods name).symm
  | function parameters result => rw [Ty.rename_function]; rfl
  | cls c =>
    rw [Ty.rename_cls]
    show (t'.info (c.rename ρ)).methods.get name = _
    rw [h.info]
    exact Methods.get_rename _ name

/-- One more class keeps the classes in step when the next key is the renamed one. -/
theorem Renamed.append (h : t.Renamed ρ t') (hnext : ρ.key t.classes.length = t'.classes.length)
    (info : ClassInfo) : Renamed ρ ⟨t.classes ++ [info]⟩ ⟨t'.classes ++ [info.rename ρ]⟩ := by
  intro k
  show (t'.classes ++ [info.rename ρ])[ρ.key k]? = (t.classes ++ [info])[k]?.map _
  rcases Nat.lt_trichotomy k t.classes.length with hlt | rfl | hgt
  · have hkey : ρ.key k < t'.classes.length := hnext ▸ ρ.key_lt hlt
    rw [List.getElem?_append_left hkey, List.getElem?_append_left hlt, h k]
  · rw [hnext, List.getElem?_concat_length, List.getElem?_concat_length]
    rfl
  · have hkey : t'.classes.length < ρ.key k := hnext ▸ ρ.key_lt hgt
    have hout : (t.classes ++ [info]).length ≤ k := by
      rw [List.length_append]
      exact hgt
    have hout' : (t'.classes ++ [info.rename ρ]).length ≤ ρ.key k := by
      rw [List.length_append]
      exact hkey
    rw [List.getElem?_eq_none hout, List.getElem?_eq_none hout']
    rfl

/-- Other classes may follow, up to the key of the next class. -/
theorem Renamed.pad (h : t.Renamed ρ t') {others : List ClassInfo}
    (hlength : t'.classes.length + others.length ≤ ρ.key t.classes.length) :
    t.Renamed ρ ⟨t'.classes ++ others⟩ := by
  intro k
  show (t'.classes ++ others)[ρ.key k]? = _
  rcases Nat.lt_or_ge k t.classes.length with hlt | hge
  · have hfound := h k
    rw [List.getElem?_eq_getElem hlt] at hfound
    have hkey : ρ.key k < t'.classes.length := (List.getElem?_eq_some_iff.1 hfound).1
    rw [List.getElem?_append_left hkey, h k]
  · have hout : (t'.classes ++ others).length ≤ ρ.key k := by
      rw [List.length_append]
      exact Nat.le_trans hlength (ρ.key_le hge)
    rw [List.getElem?_eq_none hge, List.getElem?_eq_none hout]
    rfl

/-- A class is changed in both tables alike. -/
theorem Renamed.update (h : t.Renamed ρ t') {f f' : ClassInfo → ClassInfo}
    (hf : ∀ info, f' (info.rename ρ) = (f info).rename ρ) (c : ClassRef) :
    (t.update c f).Renamed ρ (t'.update (c.rename ρ) f') := by
  intro k
  show (t'.classes.modify (ρ.key c.key) f')[ρ.key k]? = (t.classes.modify c.key f)[k]?.map _
  rw [List.getElem?_modify, List.getElem?_modify, h k]
  cases t.classes[k]? with
  | none => rfl
  | some info =>
    show some (if ρ.key c.key = ρ.key k then f' (info.rename ρ) else info.rename ρ) =
      some ((if c.key = k then f info else info).rename ρ)
    by_cases hk : c.key = k
    · rw [if_pos hk, if_pos (congrArg ρ.key hk), hf]
    · rw [if_neg hk, if_neg fun hkey => hk (ρ.eq_of_key_eq hkey)]

/-- Every table has a counterpart, which ends where the next class would be at the latest. -/
theorem exists_renamed (ρ : Renaming) (t : ClassTable) : ∃ t' : ClassTable,
    t'.classes.length ≤ ρ.key t.classes.length ∧ t.Renamed ρ t' := by
  obtain ⟨classes⟩ := t
  induction hn : classes.length generalizing classes with
  | zero =>
    rw [List.length_eq_zero_iff.1 hn]
    exact ⟨.empty, Nat.zero_le _, fun _ => rfl⟩
  | succ n ih =>
    obtain rfl | ⟨first, last, rfl⟩ := List.eq_nil_or_concat classes
    · cases hn
    · have hfirst : first.length = n := by simpa using hn
      obtain ⟨t', hlength, hrenamed⟩ := ih first hfirst
      replace hlength : t'.classes.length ≤ ρ.key n := hfirst ▸ hlength
      -- the keys that no class of the first table has are left to classes without entries
      let others := List.replicate (ρ.key n - t'.classes.length) (ClassInfo.new "")
      have hothers : (t'.classes ++ others).length = ρ.key n := by
        simp [others]
        omega
      have hpadded : Renamed ρ ⟨first⟩ ⟨t'.classes ++ others⟩ :=
        hrenamed.pad (Nat.le_of_eq (by rw [← List.length_append, hothers, hfirst]))
      have hnext : ρ.key n < ρ.key (n + 1) := ρ.key_lt (Nat.lt_succ_self n)
      refine ⟨⟨t'.classes ++ others ++ [last.rename ρ]⟩, ?_, ?_⟩
      · rw [List.length_append, hothers]
        exact hnext
      · rw [List.concat_eq_append]
        exact hpadded.append (hfirst ▸ hothers.symm) last

end ClassTable

end Nominal
