import Nominal.Proofs.Session.Dangling
import Nominal.Proofs.Typing.Coherent

/-!
# Comparison by name

Types are compared by name, and the same name can be that of several classes. Still, in a session
that checks programs which were parsed, no two classes of one name are ever at hand together: at
every point of the run, what can be come by from there is coherent (`Session.coherent_throughout`).
For a new class is refused when its name is known, and what an inner frame declares is not known any
more when the frame is left.
-/

namespace Nominal

namespace Session

/-! ## Along a session -/

section

variable (I : Point → Prop)

/-- Along the checks of top-level statements, one after the other. -/
def Throughout (s : Session) : List Stmt → Prop
  | [] => I (s.context.point s.state [])
  | stmt :: rest =>
    (s.context.Deeper I s.state [] fun ctx => stmt.Throughout I ctx s.state) ∧
      (s.checkStmt stmt).2.Throughout rest

/-- Along the checks of programs, one after the other. -/
def ThroughoutEach (s : Session) : List Block → Prop
  | [] => I (s.context.point s.state [])
  | program :: rest => s.Throughout I program.body ∧ (s.check program).2.ThroughoutEach rest

end

/-! ## Sessions keep types in scope -/

theorem contained_new (limit : Nat) : (new limit).state.Contained [] where
  frames := by
    have hentries : Frame.root.types.entries =
        [("Int", .int), ("Bool", .bool), ("String", .string), ("Nothing", .nothing)] := rfl
    refine ⟨⟨fun _ _ h => (nomatch h), fun _ _ h => (nomatch h), ?_, ?_⟩, trivial⟩
    · intro name type htype
      have hmem := Table.find?_eq_some.1 htype
      rw [show (new limit).state.frame = .root from rfl, hentries] at hmem
      have hplain : ∀ name ∈ ["Int", "Bool", "String", "Nothing"],
          name.toList ≠ [] ∧ ∀ c ∈ name.toList, Ty.isMark c = false := by
        simp [Ty.isMark]
      simp only [List.mem_cons, Prod.mk.injEq, List.not_mem_nil, or_false] at hmem
      rcases hmem with ⟨rfl, rfl⟩ | ⟨rfl, rfl⟩ | ⟨rfl, rfl⟩ | ⟨rfl, rfl⟩
      all_goals exact ⟨rfl, hplain _ (by decide), rfl⟩
    · intro name c hc
      have hmem := Table.find?_eq_some.1 hc
      rw [show (new limit).state.frame = .root from rfl, hentries] at hmem
      simp [Ty.int, Ty.bool, Ty.string, Ty.nothing] at hmem
  builtins p hp := by
    have hall : ∀ p ∈ Primitive.builtins,
        Scope.findType? [Frame.root] p.name = some (.primitive p) := by
      intro p hp
      simp only [Primitive.builtins, List.mem_cons, List.not_mem_nil, or_false] at hp
      rcases hp with rfl | rfl | rfl | rfl
      all_goals rfl
    exact hall p hp

variable {s : Session} {I : Point → Prop}

theorem contained_checkStmt (hs : s.state.Contained []) {stmt : Stmt} (h : stmt.Tidy) :
    (s.checkStmt stmt).2.state.Contained [] := by
  have hstmt : (s.context.nested stmt.span stmt.check).Confined s.context.outer :=
    .nested (stmt.check_confined h)
  have hends := Check.Ends.mono (hstmt s.state hs) (fun _ _ ht => ht.1) fun _ _ ht => ht
  exact checkStmt_of_both hends

theorem contained_checkAll (hs : s.state.Contained []) {stmts : List Stmt}
    (h : Stmt.AllTidy stmts) : (s.checkAll stmts).2.state.Contained [] := by
  induction stmts generalizing s with
  | nil => exact hs
  | cons stmt rest ih => exact ih (contained_checkStmt hs h.1) h.2

theorem throughout (hI : ∀ p : Point, p.Fits → I p) (hs : s.state.Contained [])
    {stmts : List Stmt} (h : Stmt.AllTidy stmts) : s.Throughout I stmts := by
  induction stmts generalizing s with
  | nil => exact CheckState.Contained.point hI hs
  | cons stmt rest ih =>
    refine ⟨⟨CheckState.Contained.point hI hs, fun _ => ?_⟩, ih (contained_checkStmt hs h.1) h.2⟩
    exact stmt.throughout hI h.1 _ s.state hs

theorem throughoutEach (hI : ∀ p : Point, p.Fits → I p) (hs : s.state.Contained [])
    {programs : List Block} (h : ∀ program ∈ programs, program.Tidy) :
    s.ThroughoutEach I programs := by
  induction programs generalizing s with
  | nil => exact CheckState.Contained.point hI hs
  | cons program rest ih =>
    rw [List.forall_mem_cons] at h
    exact ⟨throughout hI hs h.1, ih (contained_checkAll hs h.1) h.2⟩

/-- At every point of a session over parsed programs, classes of the same name are the same class,
and types that are assignable have the same classes at the same places. -/
theorem coherent_throughout (limit : Nat) {programs : List Block}
    (hparsed : ∀ program ∈ programs, program.IsParsed) :
    (new limit).ThroughoutEach Point.Coherent programs := by
  have htidy : ∀ program ∈ programs, program.Tidy := fun program hprogram =>
    (hparsed program hprogram).tidy
  exact throughoutEach (fun _ hp => hp.coherent) (contained_new limit) htidy

/-! ## Classes of the same name -/

/-- The program that a source writes, or what is wrong with it. -/
def parseSource (source : String) : Except Diagnostic Block :=
  match tokenize source interactiveFile with
  | .ok tokens => parse tokens interactiveFile defaultNestingLimit
  | .error d => .error d

theorem isParsed_of_parseSource {source : String} {program : Block}
    (h : parseSource source = .ok program) : program.IsParsed := by
  unfold parseSource at h
  cases htokens : tokenize source interactiveFile with
  | error d =>
    rw [htokens] at h
    cases h
  | ok tokens =>
    rw [htokens] at h
    exact ⟨source, interactiveFile, defaultNestingLimit, tokens, htokens, h⟩

theorem isParsed_of_mapM_parseSource {sources : List String} {programs : List Block}
    (h : sources.mapM parseSource = .ok programs) : ∀ program ∈ programs, program.IsParsed := by
  induction sources generalizing programs with
  | nil =>
    cases h
    exact fun program hprogram => nomatch hprogram
  | cons source rest ih =>
    rw [List.mapM_cons] at h
    cases hsource : parseSource source with
    | error d =>
      rw [hsource] at h
      cases h
    | ok program =>
      cases hrest : rest.mapM parseSource with
      | error d =>
        rw [hsource, hrest] at h
        cases h
      | ok later =>
        rw [hsource, hrest] at h
        cases h
        rw [List.forall_mem_cons]
        exact ⟨isParsed_of_parseSource hsource, ih hrest⟩

/-- Two programs that declare three classes of one name: in two blocks that do not know of each
other, and then around them. -/
def sampleSources : List String :=
  ["\x7b class A(val x: Int) \x7b fun get() -> Int \x7b return x; \x7d \x7d val a = new A(1); \x7d
      if (true) \x7b class A \x7b \x7d \x7d",
    "class A \x7b val x: Int = 2; \x7d val f = fun(a: A) -> A \x7b return a; \x7d; f(new A());"]

theorem coherent_throughout_sampleSources :
    ∃ programs, sampleSources.mapM parseSource = .ok programs ∧
      ((new defaultNestingLimit).checkEach programs).2.state.classes.classes.map ClassInfo.name =
        ["A", "A", "A"] ∧
      (∀ program ∈ programs, program.IsParsed) ∧
      (new defaultNestingLimit).ThroughoutEach Point.Coherent programs := by
  have hnames : (match sampleSources.mapM parseSource with
      | .error _ => []
      | .ok programs => ((new defaultNestingLimit).checkEach programs).2.state.classes.classes.map
          ClassInfo.name) = ["A", "A", "A"] := by
    decide +kernel
  cases hparse : sampleSources.mapM parseSource with
  | error d =>
    rw [hparse] at hnames
    cases hnames
  | ok programs =>
    rw [hparse] at hnames
    have hparsed := isParsed_of_mapM_parseSource hparse
    exact ⟨programs, rfl, hnames, hparsed, coherent_throughout defaultNestingLimit hparsed⟩

end Session

end Nominal
