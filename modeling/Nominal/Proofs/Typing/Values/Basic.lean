import Nominal.Proofs.Registry
import Nominal.Proofs.Scope.Contained
import Nominal.Proofs.Ty.Values
import Nominal.Proofs.Typing.Ends
import Nominal.Typing.Types

/-!
# States that hold values

A state is valued when what it holds values in is of a type of values: the declarations of the
registry, the variables of the frames, and the fields and the parameters of the classes. The types
that the frames know, and those of functions and methods, may return nothing but do not take it
(`CheckState.Valued`).

`Check.ValuesFrom` says of a check that it ends in such a state whichever way it ends, that no class
is forgotten meanwhile, and that a diagnostic does not contradict itself: what it says was expected
is not what it says was provided (`Diagnostic.Fair`). There is one exception, the call of a value
whose class has the name `Function`.
-/

namespace Nominal

/-! ## Diagnostics -/

/-- Whether the cause asks for what it says is there. -/
def Cause.isContradictory : Cause → Bool
  | .wrongType expected provided => expected == provided
  | _ => false

/-- The diagnostic does not contradict itself, unless it asks for a function where there is a value
of a class that has the name `Function`. -/
def Diagnostic.Fair (d : Diagnostic) (known : List String) : Prop :=
  d.cause.isContradictory = true → d.cause = .wrongType "Function" "Function" ∧ "Function" ∈ known

theorem Diagnostic.Fair.of_cause {d : Diagnostic} {known : List String}
    (h : d.cause.isContradictory = false) : d.Fair known := by
  intro hcontradictory
  rw [h] at hcontradictory
  cases hcontradictory

theorem Diagnostic.Fair.mono {d : Diagnostic} {known known' : List String} (h : d.Fair known)
    (hknown : known ⊆ known') : d.Fair known' :=
  fun hcontradictory => (h hcontradictory).imp_right fun hmem => hknown hmem

/-- The names are different, or only the modes are and both are shown. -/
theorem isContradictory_wrongType {expected provided : Slot Ty}
    (h : provided.assignableTo expected = false) :
    (wrongType expected provided).isContradictory = false := by
  unfold wrongType
  split
  · next hname =>
    have hmode : provided.mode = .val ∧ expected.mode = .var := by
      unfold Slot.assignableTo at h
      rw [hname, Bool.true_and, Bool.not_eq_false', Bool.and_eq_true, beq_iff_eq, beq_iff_eq] at h
      exact h
    show (expected.qualifiedName == provided.qualifiedName) = false
    unfold Slot.qualifiedName
    rw [hmode.1, hmode.2, beq_eq_false_iff_ne, beq_iff_eq.1 hname]
    intro heq
    -- the words for the modes differ in their last letter
    have hletters := congrArg String.toList heq
    simp [Mode.word] at hletters
  · next hname =>
    rw [Bool.not_eq_true, Ty.assignableTo, beq_eq_false_iff_ne] at hname
    show (expected.type.name == provided.type.name) = false
    rw [beq_eq_false_iff_ne]
    exact hname.symm

theorem Context.isContradictory_undefined (ctx : Context) (name : String) :
    (ctx.undefined name).isContradictory = false := by
  unfold Context.undefined
  split <;> rfl

theorem Context.isContradictory_alreadyDefined (ctx : Context) (name : String) :
    (ctx.alreadyDefined name).isContradictory = false := by
  unfold Context.alreadyDefined
  split <;> rfl

/-! ## States -/

/-- What the frame declares holds values, or is made of types that do. -/
structure Frame.Valued (f : Frame) (known : List String) : Prop where
  bindings : ∀ name b, f.bindings.find? name = some b → b.type.type.Storable known
  functions : ∀ name, ∀ o ∈ f.functions.get name, o.signature.type.Proper known
  types : ∀ name type, f.types.find? name = some type → type.Proper known

/-- The fields and the parameters of the class hold values. -/
structure ClassInfo.Valued (info : ClassInfo) (known : List String) : Prop where
  parameters : ∀ p ∈ info.parameters, p.type.Storable known
  members : ∀ name m, info.members.find? name = some m → m.type.type.Storable known
  methods : ∀ name, ∀ o ∈ info.methods.get name, o.signature.type.Proper known

/-- The names of the classes. -/
def ClassTable.names (t : ClassTable) : List String :=
  t.classes.map ClassInfo.name

/-- What the state holds is of types of values. The name of the type without values is taken, so it
is that of no class. -/
structure CheckState.Valued (s : CheckState) (outer : Scope) : Prop where
  declarations : ∀ d ∈ s.registry.entries, d.type.type.IsValue
  frames : ∀ f ∈ s.frame :: outer, f.Valued s.classes.names
  classes : ∀ info ∈ s.classes.classes, info.Valued s.classes.names
  taken : (Scope.findType? (s.frame :: outer) Ty.nothing.name).isSome
  unclaimed : Ty.nothing.name ∉ s.classes.names

section

variable {f g : Frame} {info : ClassInfo} {known known' : List String} {name : String}

theorem Frame.Valued.mono (h : f.Valued known) (hknown : known ⊆ known') : f.Valued known' where
  bindings name b hb := (h.bindings name b hb).mono hknown
  functions name o ho := (h.functions name o ho).mono hknown
  types name type htype := (h.types name type htype).mono hknown

theorem ClassInfo.Valued.mono (h : info.Valued known) (hknown : known ⊆ known') :
    info.Valued known' where
  parameters p hp := (h.parameters p hp).mono hknown
  members name m hm := (h.members name m hm).mono hknown
  methods name o ho := (h.methods name o ho).mono hknown

namespace Frame.Valued

theorem empty (known : List String) : Frame.empty.Valued known where
  bindings _ _ h := nomatch h
  functions _ _ h := nomatch h
  types _ _ h := nomatch h

theorem declareVariable {binding : Binding} (h : f.Valued known)
    (hdeclare : f.declareVariable name binding = some g)
    (htype : binding.type.type.Storable known) : g.Valued known := by
  obtain ⟨-, -, rfl⟩ := declareVariable_eq_some hdeclare
  exact ⟨Table.forall_insert h.bindings htype, h.functions, h.types⟩

theorem declareFunction {overload : Overload} (h : f.Valued known)
    (hdeclare : f.declareFunction name overload = some g)
    (htype : overload.signature.type.Proper known) : g.Valued known := by
  obtain ⟨-, rfl⟩ := declareFunction_eq_some hdeclare
  exact ⟨h.bindings, Methods.forall_add h.functions htype, h.types⟩

theorem declareType {type : Ty} (h : f.Valued known) (hdeclare : f.declareType name type = some g)
    (htype : type.Proper known) : g.Valued known := by
  obtain ⟨-, rfl⟩ := declareType_eq_some hdeclare
  exact ⟨h.bindings, h.functions, Table.forall_insert h.types htype⟩

theorem removeVariable (h : f.Valued known) (name : String) :
    (f.removeVariable name).Valued known where
  bindings other b hb := h.bindings other b (Table.find?_of_find?_erase hb)
  functions := h.functions
  types := h.types

theorem removeFunction (h : f.Valued known) (name : String) (id : DeclId) :
    (f.removeFunction name id).Valued known where
  bindings other b hb := by
    rw [bindings_removeFunction] at hb
    exact h.bindings other b hb
  functions other o ho := h.functions other o (mem_get_of_removeFunction ho)
  types other type htype := by
    rw [types_removeFunction] at htype
    exact h.types other type htype

end Frame.Valued

namespace ClassInfo.Valued

theorem new (name : String) : (ClassInfo.new name).Valued known where
  parameters _ h := nomatch h
  members _ _ h := nomatch h
  methods _ _ h := nomatch h

theorem addParameter {type : Slot Ty} (h : info.Valued known) (htype : type.type.Storable known) :
    (info.addParameter type).Valued known where
  parameters := List.forall_mem_append.2 ⟨h.parameters, List.forall_mem_singleton.2 htype⟩
  members := h.members
  methods := h.methods

theorem addMember {member : Member} (h : info.Valued known) (name : String)
    (htype : member.type.type.Storable known) : (info.addMember name member).Valued known where
  parameters := h.parameters
  members := Table.forall_insert h.members htype
  methods := h.methods

theorem addMethod {overload : Overload} (h : info.Valued known) (name : String)
    (htype : overload.signature.type.Proper known) : (info.addMethod name overload).Valued known where
  parameters := h.parameters
  members := h.members
  methods := Methods.forall_add h.methods htype

end ClassInfo.Valued

end

/-! ## Classes -/

theorem Primitive.proper_of_mem_methods {p : Primitive} {name : String} {o : Overload}
    {known : List String} (h : o ∈ p.methods name) : o.signature.type.Proper known := by
  have hvalues : ∀ q ∈ builtins, q ≠ nothing → (Ty.primitive q).name ≠ Ty.nothing.name := by decide
  rcases mem_methods h with ⟨operand, hoperand, hne, result, hresult, rfl⟩ | ⟨result, hresult, rfl⟩
  · refine .function (List.forall_mem_singleton.2 ?_) (.primitive hresult)
    exact ⟨.primitive hoperand, hvalues operand hoperand hne⟩
  · exact .function (fun q hq => nomatch hq) (.primitive hresult)

namespace ClassTable

variable {t : ClassTable}

theorem names_update (t : ClassTable) (c : ClassRef) {change : ClassInfo → ClassInfo}
    (hname : ∀ info, (change info).name = info.name) : (t.update c change).names = t.names := by
  unfold names update
  refine List.ext_getElem? fun i => ?_
  rw [List.getElem?_map, List.getElem?_map, List.getElem?_modify]
  cases t.classes[i]? with
  | none => rfl
  | some info => by_cases h : c.key = i <;> simp [h, hname]

theorem names_declare (t : ClassTable) (name : String) :
    (t.declare name).2.names = t.names ++ [name] := by
  simp [names, declare, ClassInfo.new]

/-- What holds of all classes goes on to do so when the change of one keeps it. -/
theorem forall_update {P : ClassInfo → Prop} (h : ∀ info ∈ t.classes, P info) (c : ClassRef)
    {change : ClassInfo → ClassInfo} (hchange : ∀ info, P info → P (change info)) :
    ∀ info ∈ (t.update c change).classes, P info := by
  intro info hinfo
  obtain ⟨key, hkey⟩ := List.getElem?_of_mem hinfo
  unfold update at hkey
  rw [List.getElem?_modify, Option.map_eq_map, Option.map_eq_some_iff] at hkey
  obtain ⟨before, hbefore, hafter⟩ := hkey
  have hP := h before (List.mem_of_getElem? hbefore)
  split at hafter
  · exact hafter ▸ hchange before hP
  · exact hafter ▸ hP

end ClassTable

namespace CheckState.Valued

variable {s t : CheckState} {outer : Scope} {inner : Frame} {name : String}

/-! ## Steps -/

theorem setRegistry (h : s.Valued outer) {r : Registry}
    (hentries : ∀ d ∈ r.entries, d.type.type.IsValue) : { s with registry := r }.Valued outer where
  declarations := hentries
  frames := h.frames
  classes := h.classes
  taken := h.taken
  unclaimed := h.unclaimed

theorem begin (h : s.Valued outer) : { s with registry := s.registry.begin }.Valued outer :=
  h.setRegistry (by simpa using h.declarations)

theorem commit (h : s.Valued outer) : { s with registry := s.registry.commit }.Valued outer :=
  h.setRegistry (by simpa using h.declarations)

theorem abort (h : s.Valued outer) : { s with registry := s.registry.abort }.Valued outer :=
  h.setRegistry fun d hd => h.declarations d (s.registry.entries_abort_sublist.subset hd)

theorem insert (h : s.Valued outer) (name : String) {type : Slot Ty} (htype : type.type.IsValue) :
    { s with registry := (s.registry.insert name type).2 }.Valued outer := by
  refine h.setRegistry ?_
  rw [Registry.entries_insert]
  exact List.forall_mem_append.2 ⟨h.declarations, List.forall_mem_singleton.2 htype⟩

theorem setReturned (h : s.Valued outer) (returned : Bool) : { s with returned }.Valued outer where
  declarations := h.declarations
  frames := h.frames
  classes := h.classes
  taken := h.taken
  unclaimed := h.unclaimed

theorem frame (h : s.Valued outer) : s.frame.Valued s.classes.names :=
  h.frames _ List.mem_cons_self

/-- The variables and the functions of the current frame change. -/
theorem setFrame (h : s.Valued outer) (hinner : inner.Valued s.classes.names)
    (htypes : inner.types = s.frame.types) : { s with frame := inner }.Valued outer where
  declarations := h.declarations
  frames := List.forall_mem_cons.2 ⟨hinner, (List.forall_mem_cons.1 h.frames).2⟩
  classes := h.classes
  taken := by
    rw [Scope.findType?_of_types_eq htypes]
    exact h.taken
  unclaimed := h.unclaimed

/-- In a frame inside the current one. -/
theorem inside (h : s.Valued outer) (hinner : inner.Valued s.classes.names) :
    { s with frame := inner }.Valued (s.frame :: outer) where
  declarations := h.declarations
  frames := List.forall_mem_cons.2 ⟨hinner, h.frames⟩
  classes := h.classes
  taken := by
    rw [Scope.findType?_cons]
    split
    · rfl
    · exact h.taken
  unclaimed := h.unclaimed

/-- Back in the frame around. -/
theorem outside (h : s.Valued outer) (ht : t.Valued (s.frame :: outer)) :
    { t with frame := s.frame }.Valued outer where
  declarations := ht.declarations
  frames := (List.forall_mem_cons.1 ht.frames).2
  classes := ht.classes
  taken := h.taken
  unclaimed := ht.unclaimed

theorem updateClass (h : s.Valued outer) (c : ClassRef) {change : ClassInfo → ClassInfo}
    (hname : ∀ info, (change info).name = info.name)
    (hchange : ∀ info : ClassInfo, info.Valued s.classes.names →
      (change info).Valued s.classes.names) :
    { s with classes := s.classes.update c change }.Valued outer := by
  have hnames := s.classes.names_update c hname
  refine ⟨h.declarations, ?_, ?_, h.taken, ?_⟩
  · show ∀ f ∈ s.frame :: outer, f.Valued (s.classes.update c change).names
    rw [hnames]
    exact h.frames
  · show ∀ info ∈ (s.classes.update c change).classes, info.Valued (s.classes.update c change).names
    rw [hnames]
    exact ClassTable.forall_update h.classes c hchange
  · show Ty.nothing.name ∉ (s.classes.update c change).names
    rw [hnames]
    exact h.unclaimed

/-- A new class in the current frame. The type without values is known under its name, so the class
has another one. -/
theorem declareClass (h : s.Valued outer)
    (hnew : Scope.findType? (s.frame :: outer) name = none)
    (hdeclare : s.frame.declareType name (.cls (s.classes.declare name).1) = some inner) :
    { s with classes := (s.classes.declare name).2, frame := inner }.Valued outer := by
  have hnames := s.classes.names_declare name
  have hknown : s.classes.names ⊆ (s.classes.declare name).2.names := by
    rw [hnames]
    exact List.subset_append_left _ _
  have hself : (Ty.cls (s.classes.declare name).1).Proper (s.classes.declare name).2.names := by
    refine .cls ?_
    rw [hnames]
    exact List.mem_append_right _ (List.mem_singleton.2 rfl)
  have hne : Ty.nothing.name ≠ name := by
    rintro rfl
    have htaken := h.taken
    rw [hnew] at htaken
    cases htaken
  refine ⟨h.declarations, ?_, ?_, ?_, ?_⟩
  · refine List.forall_mem_cons.2 ⟨(h.frame.mono hknown).declareType hdeclare hself, fun f hf => ?_⟩
    exact (h.frames f (List.mem_cons_of_mem _ hf)).mono hknown
  · refine List.forall_mem_append.2 ⟨fun info hinfo => ?_, List.forall_mem_singleton.2 (.new name)⟩
    exact (h.classes info hinfo).mono hknown
  · obtain ⟨-, rfl⟩ := Frame.declareType_eq_some hdeclare
    have htaken := h.taken
    rw [Scope.findType?_cons] at htaken ⊢
    rwa [Table.find?_insert_of_ne hne]
  · show Ty.nothing.name ∉ (s.classes.declare name).2.names
    rw [hnames, List.mem_append, List.mem_singleton]
    exact not_or.2 ⟨h.unclaimed, hne⟩

/-! ## Looking up -/

theorem findType (h : s.Valued outer) {type : Ty}
    (hfind : Scope.findType? (s.frame :: outer) name = some type) :
    type.Proper s.classes.names := by
  obtain ⟨f, hf, htype⟩ := List.exists_of_findSome?_eq_some hfind
  exact (h.frames f hf).types name type htype

theorem findVariable (h : s.Valued outer) {b : Binding}
    (hfind : Scope.findVariable? (s.frame :: outer) name = some b) :
    b.type.type.Storable s.classes.names := by
  obtain ⟨f, hf, hb⟩ := List.exists_of_findSome?_eq_some hfind
  exact (h.frames f hf).bindings name b hb

theorem findFunction (h : s.Valued outer) {o : Overload}
    (ho : o ∈ Scope.findFunctions (s.frame :: outer) name) :
    o.signature.type.Proper s.classes.names := by
  obtain ⟨f, hf, hget⟩ := mem_get_of_mem_findFunctions ho
  exact (h.frames f hf).functions name o hget

theorem info (h : s.Valued outer) (c : ClassRef) : (s.classes.info c).Valued s.classes.names := by
  unfold ClassTable.info
  cases hentry : s.classes.classes[c.key]? with
  | none => exact .new c.name
  | some info => exact h.classes info (List.mem_of_getElem? hentry)

theorem member (h : s.Valued outer) {type : Ty} {m : Member}
    (hm : s.classes.member? type name = some m) : m.type.type.Storable s.classes.names := by
  cases type with
  | cls c => exact (h.info c).members name m hm
  | _ => cases hm

theorem method (h : s.Valued outer) {type : Ty} {o : Overload}
    (ho : o ∈ s.classes.methods type name) : o.signature.type.Proper s.classes.names := by
  cases type with
  | cls c => exact (h.info c).methods name o ho
  | primitive p => exact Primitive.proper_of_mem_methods ho
  | function parameters result => cases ho

end CheckState.Valued

end Nominal
