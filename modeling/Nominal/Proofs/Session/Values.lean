import Nominal.Proofs.Session.Dangling
import Nominal.Proofs.Typing.Values.Always

/-!
# Nothing is no value

There are no values of the type nothing, so nothing that holds a value is declared with it. This is
looked after in several places: a written type is asked for values where it is resolved, also the
parameters of the function types in it, and so is the type of a value where a variable takes it over.
Here all of this comes together: in every state that the checker goes through, from the first
statement of a session to the last, the declarations of the registry, the variables of all frames,
the fields and the parameters of all classes are of types of values, and no function or method takes
anything else (`Session.always_holdsValues`).
-/

namespace Nominal

/-- What the state holds values in is of types of values, and what it calls takes values only. The
declarations are those that are committed and those that are staged, and the frames are the current
one and those around it. -/
structure CheckState.HoldsValues (s : CheckState) (outer : Scope) : Prop where
  declarations : ∀ d ∈ s.registry.entries, d.type.type.IsValue
  bindings : ∀ f ∈ s.frame :: outer, ∀ name b, f.bindings.find? name = some b →
    b.type.type.IsValue
  functions : ∀ f ∈ s.frame :: outer, ∀ name, ∀ o ∈ f.functions.get name,
    o.signature.type.TakesValues
  fields : ∀ info ∈ s.classes.classes, ∀ name m, info.members.find? name = some m →
    m.type.type.IsValue
  parameters : ∀ info ∈ s.classes.classes, ∀ p ∈ info.parameters, p.type.IsValue
  methods : ∀ type name, ∀ o ∈ s.classes.methods type name, o.signature.type.TakesValues

theorem CheckState.Valued.holdsValues {s : CheckState} {outer : Scope} (h : s.Valued outer) :
    s.HoldsValues outer where
  declarations := h.declarations
  bindings f hf name b hb := ((h.frames f hf).bindings name b hb).isValue
  functions f hf name o ho := ((h.frames f hf).functions name o ho).takesValues
  fields info hinfo name m hm := ((h.classes info hinfo).members name m hm).isValue
  parameters info hinfo p hp := ((h.classes info hinfo).parameters p hp).isValue
  methods _ _ _ ho := (h.method ho).takesValues

namespace Session

/-! ## Between statements -/

/-- The state holds values, and the diagnostics are fair. -/
structure Valued (s : Session) : Prop where
  state : s.state.Valued []
  report : ∀ d ∈ s.report, d.Fair s.state.classes.names

theorem valued_new (limit : Nat) : (new limit).Valued where
  state := by
    have htypes : ∀ name type, Frame.root.types.find? name = some type →
        ∃ p ∈ Primitive.builtins, type = .primitive p := by
      intro name type htype
      have hmem : (name, type) ∈ Primitive.builtins.map fun p => (p.name, Ty.primitive p) :=
        Table.find?_eq_some.1 htype
      obtain ⟨p, hp, heq⟩ := List.mem_map.1 hmem
      exact ⟨p, hp, (Prod.mk.inj heq).2.symm⟩
    refine ⟨fun _ h => (nomatch h), List.forall_mem_singleton.2 ?_, fun _ h => (nomatch h), rfl,
      fun h => nomatch h⟩
    refine ⟨fun _ _ h => (nomatch h), fun _ _ h => (nomatch h), fun name type htype => ?_⟩
    obtain ⟨p, hp, rfl⟩ := htypes name type htype
    exact .primitive hp
  report _ hd := nomatch hd

variable {s : Session}

theorem Valued.checkStmt (hs : s.Valued) (stmt : Stmt) : (s.checkStmt stmt).2.Valued := by
  have hstmt := stmt.nested_values s.context s.state hs.state
  have hreport {known : List String} (hknown : s.state.classes.names ⊆ known) :
      ∀ d ∈ s.report, d.Fair known := fun d hd => (hs.report d hd).mono hknown
  obtain ⟨typed, t, hrun, hst, ht, -⟩ | ⟨d, t, hrun, hst, ht, hd⟩ := checkStmt_ends hstmt
  · rw [hrun]
    exact ⟨ht, hreport hst⟩
  · rw [hrun]
    exact ⟨ht, List.forall_mem_append.2 ⟨hreport hst, List.forall_mem_singleton.2 hd⟩⟩

theorem Valued.check (hs : s.Valued) (program : Block) : (s.check program).2.Valued :=
  checkAll_induct (P := Valued) (fun _ stmt hs => hs.checkStmt stmt) program.body hs

theorem Valued.checkEach (hs : s.Valued) (programs : List Block) :
    (s.checkEach programs).2.Valued := by
  induction programs generalizing s with
  | nil => exact hs
  | cons program rest ih => exact ih (hs.check program)

/-! ## Along a session -/

section

variable (I : CheckState → Scope → Prop)

/-- Along the checks of top-level statements, one after the other. -/
def Always (s : Session) : List Stmt → Prop
  | [] => I s.state []
  | stmt :: rest =>
    (s.context.AlwaysDeeper I s.state fun ctx s => stmt.Always I ctx s) ∧
      (s.checkStmt stmt).2.Always rest

/-- Along the checks of programs, one after the other. -/
def AlwaysEach (s : Session) : List Block → Prop
  | [] => I s.state []
  | program :: rest => s.Always I program.body ∧ (s.check program).2.AlwaysEach rest

end

variable {I : CheckState → Scope → Prop} (hI : ∀ s outer, s.Valued outer → I s outer)
include hI

theorem Valued.always (hs : s.Valued) (stmts : List Stmt) : s.Always I stmts := by
  induction stmts generalizing s with
  | nil => exact hI _ _ hs.state
  | cons stmt rest ih =>
    refine ⟨⟨hI _ _ hs.state, fun _ => ?_⟩, ih (hs.checkStmt stmt)⟩
    exact stmt.always_values hI _ s.state hs.state

theorem Valued.alwaysEach (hs : s.Valued) (programs : List Block) : s.AlwaysEach I programs := by
  induction programs generalizing s with
  | nil => exact hI _ _ hs.state
  | cons program rest ih => exact ⟨hs.always hI program.body, ih (hs.check program)⟩

omit hI in
/-- In every state that the checker goes through, nothing is only what functions return. -/
theorem always_holdsValues (limit : Nat) (programs : List Block) :
    (new limit).AlwaysEach CheckState.HoldsValues programs :=
  (valued_new limit).alwaysEach (fun _ _ hs => hs.holdsValues) programs

end Session

end Nominal
