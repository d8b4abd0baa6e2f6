import Nominal.Proofs.Ty.Reading
import Nominal.Proofs.Typing.Sound

/-!
# Types stay in scope

A type is in scope when the primitive types and classes that it is made of are found under their own
names (`Ty.InScope`). A chain of frames fits when every type that a frame mentions is in scope
there, and no frame declares a type under a name that is known further out (`Scope.Fits`). So within
a chain that fits, a name belongs to one type, and a type that is in scope somewhere is in scope
everywhere further in. What classes are known to offer is in scope where the class is declared.
-/

namespace Nominal

/-- The type is the one that the scope finds under its name. -/
def Scope.Knows (scope : Scope) (type : Ty) : Prop :=
  scope.findType? type.name = some type

/-- Every primitive type and every class that the type is made of is known to the scope. -/
def Ty.InScope (type : Ty) (scope : Scope) : Prop :=
  type.Over scope.Knows

/-- The types of what the class offers are in scope. -/
structure ClassInfo.InScope (info : ClassInfo) (scope : Scope) : Prop where
  parameters : ∀ p ∈ info.parameters, p.type.InScope scope
  members : ∀ name m, info.members.find? name = some m → m.type.type.InScope scope
  methods : ∀ name, ∀ o ∈ info.methods.get name, o.signature.type.InScope scope

/-- What the frame declares is in scope, inside of `outer`. Its types have plain names which are not
known further out, and its classes have entries of their names. -/
structure Frame.Fits (f : Frame) (outer : Scope) (classes : ClassTable) : Prop where
  bindings : ∀ name b, f.bindings.find? name = some b → b.type.type.InScope (f :: outer)
  functions : ∀ name, ∀ o ∈ f.functions.get name, o.signature.type.InScope (f :: outer)
  types : ∀ name type, f.types.find? name = some type →
    type.name = name ∧ Ty.IsPlain name ∧ Scope.findType? outer name = none
  classes : ∀ name c, f.types.find? name = some (.cls c) →
    ∃ info, classes.classes[c.key]? = some info ∧ info.name = c.name ∧ info.InScope (f :: outer)

/-- Each frame fits into the frames around it. -/
def Scope.Fits (classes : ClassTable) : Scope → Prop
  | [] => True
  | f :: outer => f.Fits outer classes ∧ Scope.Fits classes outer

/-- The chain of frames fits, and the built-in types are known. -/
structure CheckState.Contained (s : CheckState) (outer : Scope) : Prop where
  frames : Scope.Fits s.classes (s.frame :: outer)
  builtins : ∀ p ∈ Primitive.builtins, Scope.Knows (s.frame :: outer) (.primitive p)

/-! ## Looking up -/

variable {f g : Frame} {outer outer' scope scope' : Scope} {classes classes' : ClassTable}
  {name : String} {type : Ty}

theorem Scope.findType?_cons (f : Frame) (outer : Scope) (name : String) :
    Scope.findType? (f :: outer) name =
      match f.types.find? name with
      | some type => some type
      | none => Scope.findType? outer name := by
  unfold Scope.findType?
  rw [List.findSome?_cons]
  cases f.types.find? name <;> rfl

theorem Scope.findType?_of_types_eq (h : g.types = f.types) (outer : Scope) (name : String) :
    Scope.findType? (g :: outer) name = Scope.findType? (f :: outer) name := by
  rw [findType?_cons, findType?_cons, h]

/-- A frame without types leaves what is known as it is. -/
theorem Scope.findType?_of_untyped (h : f.types = ∅) (outer : Scope) (name : String) :
    Scope.findType? (f :: outer) name = Scope.findType? outer name := by
  rw [findType?_cons, h]
  rfl

/-- A name that is not known is free in the current frame. -/
theorem Frame.declareType_of_unknown (h : Scope.findType? (f :: outer) name = none) (type : Ty) :
    f.declareType name type = some { f with types := f.types.insert name type } := by
  have hfree : f.types.contains name = false := by
    rw [Scope.findType?_cons] at h
    split at h
    · cases h
    · next hown => exact Table.find?_eq_none.1 hown
  unfold declareType
  rw [hfree]
  rfl

/-- What is in scope remains so when everything is found that was found before. -/
theorem Ty.InScope.mono (h : type.InScope scope)
    (hfind : ∀ name t, scope.findType? name = some t → scope'.findType? name = some t) :
    type.InScope scope' :=
  Ty.Over.mono h fun t ht => hfind t.name t ht

theorem ClassInfo.InScope.mono {info : ClassInfo} (h : info.InScope scope)
    (hfind : ∀ name t, scope.findType? name = some t → scope'.findType? name = some t) :
    info.InScope scope' where
  parameters p hp := (h.parameters p hp).mono hfind
  members name m hm := (h.members name m hm).mono hfind
  methods name o ho := (h.methods name o ho).mono hfind

namespace Frame.Fits

/-- What is known further out is not hidden. -/
theorem findType? (h : f.Fits outer classes) (hfind : Scope.findType? outer name = some type) :
    Scope.findType? (f :: outer) name = some type := by
  rw [Scope.findType?_cons]
  cases hown : f.types.find? name with
  | none => exact hfind
  | some t =>
    obtain ⟨-, -, hfree⟩ := h.types name t hown
    rw [hfree] at hfind
    cases hfind

theorem inScope (h : f.Fits outer classes) (ht : type.InScope outer) :
    type.InScope (f :: outer) :=
  ht.mono fun _ _ hfind => h.findType? hfind

end Frame.Fits

namespace Scope

/-- A type is found under its own name, which is plain. -/
theorem Fits.name_eq (h : Scope.Fits classes scope) (hfind : scope.findType? name = some type) :
    type.name = name ∧ Ty.IsPlain name := by
  induction scope with
  | nil => cases hfind
  | cons f outer ih =>
    rw [findType?_cons] at hfind
    split at hfind
    · next t hown =>
      cases hfind
      obtain ⟨hname, hplain, -⟩ := h.1.types name type hown
      exact ⟨hname, hplain⟩
    · exact ih h.2 hfind

theorem Fits.knows (h : Scope.Fits classes scope) (hfind : scope.findType? name = some type) :
    scope.Knows type := by
  unfold Knows
  rw [(h.name_eq hfind).1]
  exact hfind

theorem Fits.isPlain (h : Scope.Fits classes scope) (hknown : scope.Knows type) :
    Ty.IsPlain type.name :=
  (h.name_eq hknown).2

/-- A type that is found is primitive or a class, since the name of a function type is not plain. -/
theorem Fits.inScope (h : Scope.Fits classes scope) (hfind : scope.findType? name = some type) :
    type.InScope scope := by
  have hknown := h.knows hfind
  cases type with
  | primitive p => exact .primitive hknown
  | cls c => exact .cls hknown
  | function parameters result =>
    have hmark := (h.isPlain hknown).2 '(' (by simp [Ty.toList_name_function])
    cases hmark

/-- Types in scope that have the same name are the same, but for the modes of parameters. -/
theorem Fits.agrees (h : Scope.Fits classes scope) {a b : Ty} (ha : a.InScope scope)
    (hb : b.InScope scope) (hname : a.name = b.name) : a.Agrees b := by
  refine Ty.Over.agrees (fun t ht => h.isPlain ht) (fun t u ht hu heq => ?_) ha hb hname
  -- the name finds one type only
  unfold Knows at ht hu
  rw [heq, hu] at ht
  exact (Option.some.inj ht).symm

/-- What a class of the scope offers is in scope. -/
theorem Fits.info (h : Scope.Fits classes scope) {c : ClassRef}
    (hfind : scope.findType? name = some (.cls c)) :
    ∃ info, classes.classes[c.key]? = some info ∧ info.name = c.name ∧ info.InScope scope := by
  induction scope with
  | nil => cases hfind
  | cons f outer ih =>
    rw [findType?_cons] at hfind
    split at hfind
    · next t hown =>
      cases hfind
      exact h.1.classes name c hown
    · obtain ⟨info, hinfo, hname, hscope⟩ := ih h.2 hfind
      exact ⟨info, hinfo, hname, hscope.mono fun _ _ hfind => h.1.findType? hfind⟩

end Scope

/-- What is in scope in one frame of a chain is in scope everywhere further in. -/
theorem Scope.Fits.of_mem (h : Scope.Fits classes scope) (hf : f ∈ scope) :
    ∃ outer, Scope.Fits classes (f :: outer) ∧
      ∀ type : Ty, type.InScope (f :: outer) → type.InScope scope := by
  induction scope with
  | nil => cases hf
  | cons g outer ih =>
    rcases List.mem_cons.1 hf with rfl | hf
    · exact ⟨outer, h, fun _ ht => ht⟩
    · obtain ⟨outer', hfits, hin⟩ := ih h.2 hf
      exact ⟨outer', hfits, fun type ht => h.1.inScope (hin type ht)⟩

theorem Scope.Fits.variable (h : Scope.Fits classes scope) {b : Binding}
    (hfind : scope.findVariable? name = some b) : b.type.type.InScope scope := by
  obtain ⟨f, hf, hb⟩ := List.exists_of_findSome?_eq_some hfind
  obtain ⟨outer, hfits, hin⟩ := h.of_mem hf
  exact hin _ (hfits.1.bindings name b hb)

theorem Scope.Fits.function (h : Scope.Fits classes scope) {o : Overload}
    (ho : o ∈ scope.findFunctions name) : o.signature.type.InScope scope := by
  obtain ⟨f, hf, hget⟩ := CheckState.mem_get_of_mem_findFunctions ho
  obtain ⟨outer, hfits, hin⟩ := h.of_mem hf
  exact hin _ (hfits.1.functions name o hget)

/-! ## Frames -/

namespace Frame.Fits

theorem empty (outer : Scope) (classes : ClassTable) : Frame.empty.Fits outer classes where
  bindings _ _ h := nomatch h
  functions _ _ h := nomatch h
  types _ _ h := nomatch h
  classes _ _ h := nomatch h

/-- In other surroundings, where the same names are known. -/
theorem of_outer (h : f.Fits outer classes)
    (heq : ∀ name, Scope.findType? outer' name = Scope.findType? outer name) :
    f.Fits outer' classes := by
  have hfind : ∀ name t, Scope.findType? (f :: outer) name = some t →
      Scope.findType? (f :: outer') name = some t := by
    intro name t ht
    rw [Scope.findType?_cons] at ht ⊢
    rw [heq]
    exact ht
  refine ⟨?_, ?_, ?_, ?_⟩
  · exact fun name b hb => (h.bindings name b hb).mono hfind
  · exact fun name o ho => (h.functions name o ho).mono hfind
  · intro name type htype
    obtain ⟨hname, hplain, hfree⟩ := h.types name type htype
    exact ⟨hname, hplain, (heq name).trans hfree⟩
  · intro name c hc
    obtain ⟨info, hinfo, hname, hscope⟩ := h.classes name c hc
    exact ⟨info, hinfo, hname, hscope.mono hfind⟩

/-- With other variables and functions, whose types are in scope. -/
theorem of_types_eq (h : f.Fits outer classes) (htypes : g.types = f.types)
    (hbindings : ∀ name b, g.bindings.find? name = some b → b.type.type.InScope (f :: outer))
    (hfunctions : ∀ name, ∀ o ∈ g.functions.get name, o.signature.type.InScope (f :: outer)) :
    g.Fits outer classes := by
  have hfind : ∀ name t, Scope.findType? (f :: outer) name = some t →
      Scope.findType? (g :: outer) name = some t := by
    intro name t ht
    rw [Scope.findType?_of_types_eq htypes]
    exact ht
  refine ⟨?_, ?_, ?_, ?_⟩
  · exact fun name b hb => (hbindings name b hb).mono hfind
  · exact fun name o ho => (hfunctions name o ho).mono hfind
  · rw [htypes]
    exact h.types
  · rw [htypes]
    intro name c hc
    obtain ⟨info, hinfo, hname, hscope⟩ := h.classes name c hc
    exact ⟨info, hinfo, hname, hscope.mono hfind⟩

theorem declareVariable (h : f.Fits outer classes) {b : Binding}
    (hdeclare : f.declareVariable name b = some g) (hb : b.type.type.InScope (f :: outer)) :
    g.Fits outer classes := by
  obtain ⟨-, -, rfl⟩ := declareVariable_eq_some hdeclare
  exact h.of_types_eq rfl (Table.forall_insert h.bindings hb) h.functions

theorem declareFunction (h : f.Fits outer classes) {o : Overload}
    (hdeclare : f.declareFunction name o = some g) (ho : o.signature.type.InScope (f :: outer)) :
    g.Fits outer classes := by
  obtain ⟨-, rfl⟩ := declareFunction_eq_some hdeclare
  exact h.of_types_eq rfl h.bindings (Methods.forall_add h.functions ho)

theorem removeVariable (h : f.Fits outer classes) (name : String) :
    (f.removeVariable name).Fits outer classes :=
  h.of_types_eq rfl (fun other b hb => h.bindings other b (Table.find?_of_find?_erase hb))
    h.functions

theorem removeFunction (h : f.Fits outer classes) (name : String) (id : DeclId) :
    (f.removeFunction name id).Fits outer classes := by
  refine h.of_types_eq (types_removeFunction f name id) ?_ ?_
  · rw [bindings_removeFunction]
    exact h.bindings
  · exact fun other o ho => h.functions other o (mem_get_of_removeFunction ho)

end Frame.Fits

/-! ## Classes -/

namespace ClassInfo.InScope

variable {info : ClassInfo}

theorem new (name : String) (scope : Scope) : (ClassInfo.new name).InScope scope where
  parameters _ h := nomatch h
  members _ _ h := nomatch h
  methods _ _ h := nomatch h

theorem addParameter (h : info.InScope scope) {slot : Slot Ty} (hslot : slot.type.InScope scope) :
    (info.addParameter slot).InScope scope := by
  refine ⟨?_, h.members, h.methods⟩
  intro p hp
  rcases List.mem_append.1 hp with hold | hnew
  · exact h.parameters p hold
  · rw [List.mem_singleton.1 hnew]
    exact hslot

theorem addMember (h : info.InScope scope) (name : String) {m : Member}
    (hm : m.type.type.InScope scope) : (info.addMember name m).InScope scope :=
  ⟨h.parameters, Table.forall_insert h.members hm, h.methods⟩

theorem addMethod (h : info.InScope scope) (name : String) {o : Overload}
    (ho : o.signature.type.InScope scope) : (info.addMethod name o).InScope scope :=
  ⟨h.parameters, h.members, Methods.forall_add h.methods ho⟩

end ClassInfo.InScope

/-- More classes leave everything in scope. -/
theorem Frame.Fits.of_isPrefix (h : f.Fits outer classes)
    (hclasses : classes.classes <+: classes'.classes) : f.Fits outer classes' := by
  refine ⟨h.bindings, h.functions, h.types, ?_⟩
  intro name c hc
  obtain ⟨info, hinfo, hname, hscope⟩ := h.classes name c hc
  obtain ⟨later, hlater⟩ := hclasses
  have hlt : c.key < classes.classes.length := (List.getElem?_eq_some_iff.1 hinfo).1
  refine ⟨info, ?_, hname, hscope⟩
  rw [← hlater, List.getElem?_append_left hlt]
  exact hinfo

theorem Scope.Fits.of_isPrefix (h : Scope.Fits classes scope)
    (hclasses : classes.classes <+: classes'.classes) : Scope.Fits classes' scope := by
  induction scope with
  | nil => trivial
  | cons f outer ih => exact ⟨h.1.of_isPrefix hclasses, ih h.2⟩

/-- A new class, whose name was not known. -/
theorem Frame.Fits.declareType (h : f.Fits outer classes) (hplain : Ty.IsPlain name)
    (hnew : Scope.findType? (f :: outer) name = none)
    (hdeclare : f.declareType name (.cls (classes.declare name).1) = some g) :
    g.Fits outer (classes.declare name).2 := by
  obtain ⟨-, rfl⟩ := declareType_eq_some hdeclare
  have hfind : ∀ other t, Scope.findType? (f :: outer) other = some t →
      Scope.findType? ({ f with types := f.types.insert name (.cls (classes.declare name).1) } ::
        outer) other = some t := by
    intro other t ht
    have hne : other ≠ name := by
      rintro rfl
      rw [hnew] at ht
      cases ht
    rw [Scope.findType?_cons] at ht ⊢
    rw [Table.find?_insert_of_ne hne]
    exact ht
  have hlater : f.Fits outer (classes.declare name).2 := h.of_isPrefix (List.prefix_append _ _)
  refine ⟨?_, ?_, ?_, ?_⟩
  · exact fun other b hb => (hlater.bindings other b hb).mono hfind
  · exact fun other o ho => (hlater.functions other o ho).mono hfind
  · intro other type htype
    rw [Table.find?_insert] at htype
    split at htype
    · next hother =>
      cases htype
      rw [Scope.findType?_cons] at hnew
      split at hnew
      · cases hnew
      · exact ⟨hother.symm, hother ▸ hplain, hother ▸ hnew⟩
    · exact hlater.types other type htype
  · intro other c hc
    rw [Table.find?_insert] at hc
    split at hc
    · cases hc
      exact ⟨.new name, List.getElem?_concat_length, rfl, .new name _⟩
    · obtain ⟨info, hinfo, hname, hscope⟩ := hlater.classes other c hc
      exact ⟨info, hinfo, hname, hscope.mono hfind⟩

/-! ### The class that is being checked -/

/-- The class is declared in some frame, and the frames inside of that one declare no types. -/
def Scope.Forms (c : ClassRef) : Scope → Prop
  | [] => False
  | f :: outer => f.types.find? c.name = some (.cls c) ∨ f.types = ∅ ∧ Scope.Forms c outer

variable {c : ClassRef} {change : ClassInfo → ClassInfo}

/-- A class whose name is not known can change, since no other class has its entry. -/
theorem Scope.Fits.update_unknown (h : Scope.Fits classes scope)
    (hunknown : scope.findType? c.name = none) {info : ClassInfo}
    (hinfo : classes.classes[c.key]? = some info) (hname : info.name = c.name) :
    Scope.Fits (classes.update c change) scope := by
  induction scope with
  | nil => trivial
  | cons f outer ih =>
    rw [findType?_cons] at hunknown
    split at hunknown
    · cases hunknown
    · next hown =>
      refine ⟨⟨h.1.bindings, h.1.functions, h.1.types, ?_⟩, ih h.2 hunknown⟩
      intro other d hd
      obtain ⟨info', hinfo', hname', hscope⟩ := h.1.classes other d hd
      have hkey : c.key ≠ d.key := by
        intro hkey
        rw [← hkey, hinfo] at hinfo'
        cases hinfo'
        obtain ⟨hother, -, -⟩ := h.1.types other _ hd
        rw [← hother, show (Ty.cls d).name = c.name from hname'.symm.trans hname, hown] at hd
        cases hd
      exact ⟨info', by rw [ClassTable.getElem?_update_of_ne hkey, hinfo'], hname', hscope⟩

/-- The class that is being checked can change to what is in scope. -/
theorem Scope.Fits.update (h : Scope.Fits classes scope) (hforms : scope.Forms c)
    (hname : ∀ info, (change info).name = info.name)
    (hchange : ∀ info : ClassInfo, info.InScope scope → (change info).InScope scope) :
    Scope.Fits (classes.update c change) scope := by
  induction scope with
  | nil => trivial
  | cons f outer ih =>
    rcases hforms with hown | ⟨huntyped, hforms⟩
    · obtain ⟨info, hinfo, hcname, -⟩ := h.1.classes c.name c hown
      obtain ⟨-, -, hfree⟩ := h.1.types c.name _ hown
      refine ⟨⟨h.1.bindings, h.1.functions, h.1.types, ?_⟩, h.2.update_unknown hfree hinfo hcname⟩
      intro other d hd
      obtain ⟨info', hinfo', hname', hscope⟩ := h.1.classes other d hd
      by_cases hkey : c.key = d.key
      · refine ⟨change info', ?_, (hname info').trans hname', hchange info' hscope⟩
        rw [← hkey] at hinfo' ⊢
        exact ClassTable.getElem?_update_self hinfo' change
      · exact ⟨info', by rw [ClassTable.getElem?_update_of_ne hkey, hinfo'], hname', hscope⟩
    · -- nothing is declared in this frame, so the same is in scope as further out
      have hsame := findType?_of_untyped huntyped outer
      have hin : ∀ name t, findType? outer name = some t → findType? (f :: outer) name = some t :=
        fun name t ht => (hsame name).trans ht
      have hout : ∀ name t, findType? (f :: outer) name = some t → findType? outer name = some t :=
        fun name t ht => (hsame name).symm.trans ht
      refine ⟨⟨h.1.bindings, h.1.functions, h.1.types, ?_⟩, ih h.2 hforms fun info hinfo => ?_⟩
      · intro other d hd
        rw [huntyped] at hd
        cases hd
      · exact (hchange info (hinfo.mono hin)).mono hout

/-! ## States -/

/-- A method of a primitive type is an operator on built-in types that have values. -/
theorem Primitive.mem_methods {p : Primitive} {o : Overload} (h : o ∈ p.methods name) :
    (∃ operand ∈ builtins, operand ≠ nothing ∧
      ∃ result ∈ builtins, o = binaryOperator operand result) ∨
        ∃ result ∈ builtins, o = unaryOperator result := by
  have hint : int ∈ builtins := by decide
  have hbool : bool ∈ builtins := by decide
  have hstring : string ∈ builtins := by decide
  unfold Primitive.methods at h
  split at h
  all_goals grind

theorem Primitive.over_of_mem_methods {p : Primitive} {o : Overload} (h : o ∈ p.methods name) :
    o.signature.type.Over fun t => ∃ q ∈ Primitive.builtins, t = .primitive q := by
  rcases mem_methods h with ⟨operand, hoperand, -, result, hresult, rfl⟩ | ⟨result, hresult, rfl⟩
  · refine .function (fun q hq => ?_) (.primitive ⟨result, hresult, rfl⟩)
    rw [List.mem_singleton.1 hq]
    exact .primitive ⟨operand, hoperand, rfl⟩
  · exact .function (fun q hq => nomatch hq) (.primitive ⟨result, hresult, rfl⟩)

namespace CheckState.Contained

variable {s t : CheckState} {frame : Frame}

/-- Only the frame and the classes count. -/
theorem of_eq (h : s.Contained outer) (hframe : t.frame = s.frame)
    (hclasses : t.classes = s.classes) : t.Contained outer where
  frames := by
    rw [hframe, hclasses]
    exact h.frames
  builtins := by
    rw [hframe]
    exact h.builtins

theorem begin (h : s.Contained outer) : { s with registry := s.registry.begin }.Contained outer :=
  h.of_eq rfl rfl

theorem setReturned (h : s.Contained outer) (returned : Bool) :
    { s with returned }.Contained outer :=
  h.of_eq rfl rfl

/-- With other variables and functions in the current frame. -/
theorem setFrame (h : s.Contained outer) (hframe : frame.Fits outer s.classes)
    (htypes : frame.types = s.frame.types) : { s with frame }.Contained outer where
  frames := ⟨hframe, h.frames.2⟩
  builtins p hp := by
    unfold Scope.Knows
    rw [Scope.findType?_of_types_eq htypes]
    exact h.builtins p hp

/-- In a frame inside the current one. -/
theorem inside (h : s.Contained outer) (hframe : frame.Fits (s.frame :: outer) s.classes) :
    { s with frame }.Contained (s.frame :: outer) where
  frames := ⟨hframe, h.frames⟩
  builtins p hp := hframe.findType? (h.builtins p hp)

/-- Back in the frame around. -/
theorem outside (h : s.Contained outer) (ht : t.Contained (s.frame :: outer)) :
    { t with frame := s.frame }.Contained outer where
  frames := ht.frames.2
  builtins := h.builtins

theorem builtin (h : s.Contained outer) {p : Primitive} (hp : p ∈ Primitive.builtins) :
    (Ty.primitive p).InScope (s.frame :: outer) :=
  .primitive (h.builtins p hp)

/-- What a class offers is in scope where the class is. -/
theorem info (h : s.Contained outer) {c : ClassRef} (hc : (Ty.cls c).InScope (s.frame :: outer)) :
    (s.classes.info c).InScope (s.frame :: outer) := by
  obtain ⟨info, hinfo, -, hscope⟩ := h.frames.info (Ty.over_cls.1 hc)
  rw [ClassTable.info_of_getElem? hinfo]
  exact hscope

theorem member (h : s.Contained outer) {m : Member} (ht : type.InScope (s.frame :: outer))
    (hm : s.classes.member? type name = some m) : m.type.type.InScope (s.frame :: outer) := by
  cases type with
  | cls c => exact (h.info ht).members name m hm
  | _ => cases hm

theorem method (h : s.Contained outer) {o : Overload} (ht : type.InScope (s.frame :: outer))
    (ho : o ∈ s.classes.methods type name) : o.signature.type.InScope (s.frame :: outer) := by
  cases type with
  | cls c => exact (h.info ht).methods name o ho
  | primitive p =>
    refine (Primitive.over_of_mem_methods ho).mono ?_
    rintro _ ⟨q, hq, rfl⟩
    exact h.builtins q hq
  | function parameters result => cases ho

/-- The class that is being checked changes to what is in scope. -/
theorem updateClass (h : s.Contained outer) {c : ClassRef} {change : ClassInfo → ClassInfo}
    (hforms : Scope.Forms c (s.frame :: outer)) (hname : ∀ info, (change info).name = info.name)
    (hchange : ∀ info : ClassInfo, info.InScope (s.frame :: outer) →
      (change info).InScope (s.frame :: outer)) :
    { s with classes := s.classes.update c change }.Contained outer where
  frames := h.frames.update hforms hname hchange
  builtins := h.builtins

/-- A new class in the current frame. -/
theorem declareClass (h : s.Contained outer) (hplain : Ty.IsPlain name)
    (hnew : Scope.findType? (s.frame :: outer) name = none)
    (hdeclare : s.frame.declareType name (.cls (s.classes.declare name).1) = some frame) :
    { s with classes := (s.classes.declare name).2, frame }.Contained outer where
  frames := by
    have hframe := h.frames.1.declareType hplain hnew hdeclare
    exact ⟨hframe, h.frames.2.of_isPrefix (List.prefix_append _ _)⟩
  builtins p hp := by
    obtain ⟨-, rfl⟩ := Frame.declareType_eq_some hdeclare
    have hknown := h.builtins p hp
    unfold Scope.Knows at hknown ⊢
    have hne : (Ty.primitive p).name ≠ name := by
      intro heq
      rw [heq, hnew] at hknown
      cases hknown
    rw [Scope.findType?_cons] at hknown ⊢
    rw [Table.find?_insert_of_ne hne]
    exact hknown

end CheckState.Contained

end Nominal
