import Nominal.Proofs.Registry
import Nominal.Proofs.Scope.Frame
import Nominal.Proofs.Typing.WellTyped
import Nominal.Scope.Chain
import Nominal.Typing.Context

/-!
# Sound states

A state is sound when everything that can be looked up in it was entered into the registry as what
it is looked up as: the variables and functions of the frames, the fields and methods of the classes
(`CheckState.Sound`). Checking only ever adds to a state (`CheckState.Evolves`), so what was looked
up on the way still holds of the setting that the last state is a part of (`CheckState.Within`).

A class that is being checked gains fields and methods, but its parameters are complete before its
first member is looked at. This is what `ClassInfo.Grows` says.
-/

namespace Nominal

/-! ## Growing classes -/

/-- The class `b` is `a` with more fields and methods. -/
structure ClassInfo.Grows (a b : ClassInfo) : Prop where
  parameters : b.parameters = a.parameters
  members : ∀ name m, a.members.find? name = some m → b.members.find? name = some m
  methods : ∀ name, ∀ o ∈ a.methods.get name, o ∈ b.methods.get name

/-- The table `u` is `t` with more classes, fields and methods. -/
def ClassTable.Grows (t u : ClassTable) : Prop :=
  ∀ (key : Nat) (info : ClassInfo), t.classes[key]? = some info →
    ∃ info', u.classes[key]? = some info' ∧ info.Grows info'

theorem ClassInfo.Grows.refl (a : ClassInfo) : a.Grows a :=
  ⟨rfl, fun _ _ h => h, fun _ _ h => h⟩

theorem ClassInfo.Grows.trans {a b c : ClassInfo} (hab : a.Grows b) (hbc : b.Grows c) :
    a.Grows c where
  parameters := hbc.parameters.trans hab.parameters
  members name m h := hbc.members name m (hab.members name m h)
  methods name o h := hbc.methods name o (hab.methods name o h)

namespace ClassTable

variable {t u v : ClassTable} {c : ClassRef} {name : String} {type : Ty}

theorem Grows.trans (htu : t.Grows u) (huv : u.Grows v) : t.Grows v := by
  intro key info h
  obtain ⟨info', h', hgrows⟩ := htu key info h
  obtain ⟨info'', h'', hgrows'⟩ := huv key info' h'
  exact ⟨info'', h'', hgrows.trans hgrows'⟩

/-- Classes that come later leave the earlier ones alone. -/
theorem Grows.of_extends (h : t.classes <+: u.classes) : t.Grows u := by
  intro key info hinfo
  obtain ⟨later, hlater⟩ := h
  refine ⟨info, ?_, .refl info⟩
  have hlt : key < t.classes.length := (List.getElem?_eq_some_iff.1 hinfo).1
  rw [← hlater, List.getElem?_append_left hlt]
  exact hinfo

theorem length_update (t : ClassTable) (c : ClassRef) (f : ClassInfo → ClassInfo) :
    (t.update c f).classes.length = t.classes.length :=
  List.length_modify f t.classes c.key

theorem getElem?_update_self {info : ClassInfo} (h : t.classes[c.key]? = some info)
    (f : ClassInfo → ClassInfo) : (t.update c f).classes[c.key]? = some (f info) := by
  unfold update
  rw [List.getElem?_modify_eq, h]
  rfl

theorem getElem?_update_of_ne {key : Nat} (h : c.key ≠ key) (f : ClassInfo → ClassInfo) :
    (t.update c f).classes[key]? = t.classes[key]? := by
  unfold update
  rw [List.getElem?_modify_ne _ _ h]

theorem Grows.of_update {f : ClassInfo → ClassInfo}
    (h : ∀ info, t.classes[c.key]? = some info → info.Grows (f info)) : t.Grows (t.update c f) := by
  intro key info hinfo
  by_cases hkey : c.key = key
  · subst hkey
    exact ⟨f info, getElem?_update_self hinfo f, h info hinfo⟩
  · exact ⟨info, by rw [getElem?_update_of_ne hkey, hinfo], .refl info⟩

theorem info_of_getElem? {info : ClassInfo} (h : t.classes[c.key]? = some info) :
    t.info c = info := by
  unfold ClassTable.info
  rw [h]
  rfl

/-- Of a class that is not in the table nothing is known. -/
theorem info_of_not_lt (h : t.classes[c.key]? = none) : t.info c = .new c.name := by
  unfold ClassTable.info
  rw [h]
  rfl

theorem Grows.member? (h : t.Grows u) {m : Member} (hm : t.member? type name = some m) :
    u.member? type name = some m := by
  cases type with
  | cls c =>
    replace hm : (t.info c).members.find? name = some m := hm
    show (u.info c).members.find? name = some m
    cases hinfo : t.classes[c.key]? with
    | none =>
      -- a class that is not in the table has no fields
      rw [info_of_not_lt hinfo] at hm
      cases hm
    | some info =>
      obtain ⟨info', hinfo', hgrows⟩ := h c.key info hinfo
      rw [info_of_getElem? hinfo] at hm
      rw [info_of_getElem? hinfo']
      exact hgrows.members name m hm
  | _ => cases hm

theorem Grows.methods (h : t.Grows u) {o : Overload} (ho : o ∈ t.methods type name) :
    o ∈ u.methods type name := by
  cases type with
  | cls c =>
    replace ho : o ∈ (t.info c).methods.get name := ho
    show o ∈ (u.info c).methods.get name
    cases hinfo : t.classes[c.key]? with
    | none =>
      rw [info_of_not_lt hinfo] at ho
      cases ho
    | some info =>
      obtain ⟨info', hinfo', hgrows⟩ := h c.key info hinfo
      rw [info_of_getElem? hinfo] at ho
      rw [info_of_getElem? hinfo']
      exact hgrows.methods name o ho
  | primitive p => exact ho
  | function parameters result => cases ho

theorem Grows.parameters (h : t.Grows u) (hc : c.key < t.classes.length) :
    (u.info c).parameters = (t.info c).parameters := by
  obtain ⟨info', hinfo', hgrows⟩ := h c.key _ (List.getElem?_eq_getElem hc)
  rw [info_of_getElem? hinfo', info_of_getElem? (List.getElem?_eq_getElem hc)]
  exact hgrows.parameters

end ClassTable

/-- The operators of primitive types are not declared. -/
theorem Primitive.id?_of_mem_methods {p : Primitive} {name : String} {o : Overload}
    (h : o ∈ p.methods name) : o.id? = none := by
  unfold Primitive.methods at h
  split at h
  all_goals grind [Primitive.binaryOperator, Primitive.unaryOperator]

/-! ## Sound states -/

/-- The overload is declared among `entries` as a function `name`. -/
def Overload.DeclaredIn (o : Overload) (entries : List Declaration) (name : String) : Prop :=
  ∃ id, o.id? = some id ∧ ⟨id, name, ⟨.val, o.signature.type⟩⟩ ∈ entries

/-- What the frame declares is among `entries`, and its classes are among the first `count`. -/
structure Frame.Sound (f : Frame) (entries : List Declaration) (count : Nat) : Prop where
  bindings : ∀ name b, f.bindings.find? name = some b → ⟨b.id, name, b.type⟩ ∈ entries
  functions : ∀ name, ∀ o ∈ f.functions.get name, o.DeclaredIn entries name
  types : ∀ name c, f.types.find? name = some (.cls c) → c.key < count

/-- What the class declares is among `entries`. -/
structure ClassInfo.Sound (info : ClassInfo) (entries : List Declaration) : Prop where
  members : ∀ name m, info.members.find? name = some m → ⟨m.id, name, m.type⟩ ∈ entries
  methods : ∀ name, ∀ o ∈ info.methods.get name, o.DeclaredIn entries name

/-- What the current frame, the frames around it and the classes declare was entered into the
registry. -/
structure CheckState.Sound (s : CheckState) (outer : Scope) : Prop where
  frames : ∀ f ∈ s.frame :: outer, f.Sound s.registry.entries s.classes.classes.length
  classes : ∀ info ∈ s.classes.classes, info.Sound s.registry.entries

/-- The state `t` comes later: it has more entries and more classes. -/
structure CheckState.Evolves (s t : CheckState) : Prop where
  entries : s.registry.entries ⊆ t.registry.entries
  classes : s.classes.classes <+: t.classes.classes

/-- The state is a part of the setting. -/
structure CheckState.Within (s : CheckState) (w : Setting) : Prop where
  registry : ∀ d ∈ s.registry.entries, w.registry.resolve d.id = .ok (some d)
  classes : s.classes.Grows w.classes

section

variable {entries entries' : List Declaration} {count count' : Nat}

theorem Overload.DeclaredIn.mono {o : Overload} {name : String} (h : o.DeclaredIn entries name)
    (hentries : entries ⊆ entries') : o.DeclaredIn entries' name := by
  obtain ⟨id, hid, hmem⟩ := h
  exact ⟨id, hid, hentries hmem⟩

theorem Frame.Sound.mono {f : Frame} (h : f.Sound entries count) (hentries : entries ⊆ entries')
    (hcount : count ≤ count') : f.Sound entries' count' where
  bindings name b hb := hentries (h.bindings name b hb)
  functions name o ho := (h.functions name o ho).mono hentries
  types name c hc := Nat.lt_of_lt_of_le (h.types name c hc) hcount

theorem ClassInfo.Sound.mono {info : ClassInfo} (h : info.Sound entries)
    (hentries : entries ⊆ entries') : info.Sound entries' where
  members name m hm := hentries (h.members name m hm)
  methods name o ho := (h.methods name o ho).mono hentries

theorem Frame.sound_empty (entries : List Declaration) (count : Nat) :
    Frame.empty.Sound entries count where
  bindings _ _ h := nomatch h
  functions _ _ h := nomatch h
  types _ _ h := nomatch h

theorem ClassInfo.sound_new (name : String) (entries : List Declaration) :
    (ClassInfo.new name).Sound entries where
  members _ _ h := nomatch h
  methods _ _ h := nomatch h

/-- One more variable. -/
theorem Frame.Sound.declareVariable {f g : Frame} (h : f.Sound entries count) {name : String}
    {binding : Binding} (hdeclare : f.declareVariable name binding = some g)
    (hmem : ⟨binding.id, name, binding.type⟩ ∈ entries) : g.Sound entries count := by
  obtain ⟨-, -, rfl⟩ := declareVariable_eq_some hdeclare
  exact ⟨Table.forall_insert h.bindings hmem, h.functions, h.types⟩

/-- One more overload. -/
theorem Frame.Sound.declareFunction {f g : Frame} (h : f.Sound entries count) {name : String}
    {o : Overload} (hdeclare : f.declareFunction name o = some g) (ho : o.DeclaredIn entries name) :
    g.Sound entries count := by
  obtain ⟨-, rfl⟩ := declareFunction_eq_some hdeclare
  exact ⟨h.bindings, Methods.forall_add h.functions ho, h.types⟩

/-- One more class. -/
theorem Frame.Sound.declareType {f g : Frame} (h : f.Sound entries count) {name : String}
    {c : ClassRef} (hdeclare : f.declareType name (.cls c) = some g) (hc : c.key < count) :
    g.Sound entries count := by
  obtain ⟨-, rfl⟩ := declareType_eq_some hdeclare
  refine ⟨h.bindings, h.functions, ?_⟩
  intro other c' hc'
  rw [Table.find?_insert] at hc'
  split at hc'
  · cases hc'
    exact hc
  · exact h.types other c' hc'

end

/-! ## Later states -/

namespace CheckState

variable {s t u : CheckState} {outer : Scope} {w : Setting}

theorem Evolves.refl (s : CheckState) : s.Evolves s :=
  ⟨List.Subset.refl _, List.prefix_refl _⟩

theorem Evolves.trans (hst : s.Evolves t) (htu : t.Evolves u) : s.Evolves u :=
  ⟨fun _ h => htu.entries (hst.entries h), hst.classes.trans htu.classes⟩

theorem Within.of_evolves (ht : t.Within w) (h : s.Evolves t) : s.Within w where
  registry d hd := ht.registry d (h.entries hd)
  classes := (ClassTable.Grows.of_extends h.classes).trans ht.classes

/-- What a frame declares stays declared. -/
theorem Evolves.frame {f : Frame} (h : s.Evolves t)
    (hf : f.Sound s.registry.entries s.classes.classes.length) :
    f.Sound t.registry.entries t.classes.classes.length :=
  hf.mono h.entries h.classes.length_le

/-- With another current frame. -/
theorem Sound.setFrame (hs : s.Sound outer) {frame : Frame}
    (hframe : frame.Sound s.registry.entries s.classes.classes.length) :
    { s with frame }.Sound outer where
  frames f hf := by
    rcases List.mem_cons.1 hf with rfl | houter
    · exact hframe
    · exact hs.frames f (List.mem_cons_of_mem _ houter)
  classes := hs.classes

theorem Sound.frame (hs : s.Sound outer) :
    s.frame.Sound s.registry.entries s.classes.classes.length :=
  hs.frames s.frame List.mem_cons_self

/-- In a sound frame inside the current one. -/
theorem Sound.inside (hs : s.Sound outer) {frame : Frame}
    (hframe : frame.Sound s.registry.entries s.classes.classes.length) :
    { s with frame }.Sound (s.frame :: outer) where
  frames f hf := by
    rcases List.mem_cons.1 hf with rfl | houter
    · exact hframe
    · exact hs.frames f houter
  classes := hs.classes

/-- Back in the frame around. -/
theorem Sound.outside {frame : Frame} (hs : s.Sound (frame :: outer)) :
    { s with frame }.Sound outer where
  frames f hf := hs.frames f (List.mem_cons_of_mem _ hf)
  classes := hs.classes

/-- Only the declarations and the classes count, and they may have been added to. -/
theorem Sound.of_entries_eq (hs : s.Sound outer) (hframe : t.frame = s.frame)
    (hclasses : t.classes = s.classes) (hentries : s.registry.entries ⊆ t.registry.entries) :
    t.Sound outer where
  frames f hf := by
    rw [hframe] at hf
    rw [hclasses]
    exact (hs.frames f hf).mono hentries (Nat.le_refl _)
  classes info hinfo := by
    rw [hclasses] at hinfo
    exact (hs.classes info hinfo).mono hentries

theorem Sound.begin (hs : s.Sound outer) :
    { s with registry := s.registry.begin }.Sound outer :=
  hs.of_entries_eq rfl rfl (by simp)

theorem Sound.setReturned (hs : s.Sound outer) (returned : Bool) :
    { s with returned }.Sound outer :=
  hs.of_entries_eq rfl rfl (List.Subset.refl _)

/-! ## Looking up -/

theorem Within.registers (hw : s.Within w) {id : DeclId} {name : String} {type : Slot Ty}
    (h : ⟨id, name, type⟩ ∈ s.registry.entries) : w.Registers id name type :=
  hw.registry ⟨id, name, type⟩ h

/-- A variable of the scope is registered as what it is. -/
theorem Sound.registers_variable (hs : s.Sound outer) (hw : s.Within w) {name : String}
    {b : Binding} (h : Scope.findVariable? (s.frame :: outer) name = some b) :
    w.Registers b.id name b.type := by
  obtain ⟨f, hf, hb⟩ := List.exists_of_findSome?_eq_some h
  have hframe := hs.frames f hf
  have hmem := hframe.bindings name b hb
  exact hw.registers hmem

theorem mem_get_of_mem_findFunctions {scope : Scope} {name : String} {o : Overload}
    (h : o ∈ scope.findFunctions name) : ∃ f ∈ scope, o ∈ f.functions.get name := by
  unfold Scope.findFunctions at h
  -- the overloads come from the first frame that has some under the name
  generalize hfind : scope.findSome? _ = overloads? at h
  cases overloads? with
  | none => cases h
  | some overloads =>
    obtain ⟨f, hf, hget⟩ := List.exists_of_findSome?_eq_some hfind
    refine ⟨f, hf, ?_⟩
    split at hget
    · cases hget
    · cases hget
      exact h

/-- A function of the scope is registered as a function that can not be reassigned. -/
theorem Sound.registers_function (hs : s.Sound outer) (hw : s.Within w) {name : String}
    {o : Overload} (h : o ∈ Scope.findFunctions (s.frame :: outer) name) {id : DeclId}
    (hid : o.id? = some id) :
    w.Registers id name ⟨.val, o.signature.type⟩ := by
  obtain ⟨f, hf, hget⟩ := mem_get_of_mem_findFunctions h
  have hframe := hs.frames f hf
  obtain ⟨id', hid', hmem⟩ := hframe.functions name o hget
  rw [hid] at hid'
  cases hid'
  exact hw.registers hmem

/-- The parameters of a class of the scope are known. -/
theorem Sound.parameters (hs : s.Sound outer) (hw : s.Within w) {name : String} {c : ClassRef}
    (h : Scope.findType? (s.frame :: outer) name = some (.cls c)) :
    (w.classes.info c).parameters = (s.classes.info c).parameters := by
  obtain ⟨f, hf, hc⟩ := List.exists_of_findSome?_eq_some h
  have hframe := hs.frames f hf
  have hlt := hframe.types name c hc
  exact hw.classes.parameters hlt

theorem Sound.field (hs : s.Sound outer) (hw : s.Within w) {type : Ty} {name : String} {m : Member}
    (h : s.classes.member? type name = some m) : w.Field type name m := by
  refine ⟨hw.classes.member? h, ?_⟩
  cases type with
  | cls c =>
    replace h : (s.classes.info c).members.find? name = some m := h
    cases hinfo : s.classes.classes[c.key]? with
    | none =>
      rw [ClassTable.info_of_not_lt hinfo] at h
      cases h
    | some info =>
      rw [ClassTable.info_of_getElem? hinfo] at h
      have hclass := hs.classes info (List.mem_of_getElem? hinfo)
      exact hw.registers (hclass.members name m h)
  | _ => cases h

theorem Sound.method (hs : s.Sound outer) (hw : s.Within w) {type : Ty} {name : String}
    {o : Overload} (h : o ∈ s.classes.methods type name) : w.Method type name o := by
  refine ⟨hw.classes.methods h, ?_⟩
  intro id hid
  cases type with
  | cls c =>
    replace h : o ∈ (s.classes.info c).methods.get name := h
    cases hinfo : s.classes.classes[c.key]? with
    | none =>
      rw [ClassTable.info_of_not_lt hinfo] at h
      cases h
    | some info =>
      rw [ClassTable.info_of_getElem? hinfo] at h
      have hclass := hs.classes info (List.mem_of_getElem? hinfo)
      obtain ⟨id', hid', hmem⟩ := hclass.methods name o h
      rw [hid] at hid'
      cases hid'
      exact hw.registers hmem
  | primitive p =>
    -- the operators of primitive types have no number
    rw [Primitive.id?_of_mem_methods h] at hid
    cases hid
  | function parameters result => cases h

end CheckState

end Nominal
