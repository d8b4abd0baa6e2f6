import Nominal.Proofs.Session.Reachable
import Nominal.Proofs.Typing.Mentioned
import Nominal.Proofs.Typing.Soundness.Trees

/-!
# Accepted programs

A program is accepted when every statement succeeds, and then the session has done the same as
checking the statements as one body (`Session.checkAll_eq_ok`). So what is known of checks in
general holds of the whole program: the typed tree is well typed in the setting that it comes with
(`typeCheck_wellTyped`), and its declarations are numbered without gaps (`typeCheck_numbers`).
-/

namespace Nominal

namespace Session

variable {s : Session} {stmt : Stmt}

/-- Diagnostics are only added to the report. -/
theorem report_checkAll (s : Session) (stmts : List Stmt) :
    s.report <+: (s.checkAll stmts).2.report := by
  induction stmts generalizing s with
  | nil => exact List.prefix_refl _
  | cons stmt rest ih =>
    have hstmt : s.report <+: (s.checkStmt stmt).2.report := by
      unfold checkStmt
      split
      · exact List.prefix_refl _
      · exact List.prefix_append _ _
    exact hstmt.trans (ih (s.checkStmt stmt).2)

/-- When nothing is reported, the statements were checked as one body. -/
theorem checkAll_eq_ok (stmts : List Stmt) (h : (s.checkAll stmts).2.report = []) :
    Stmt.checkAll stmts s.context s.state =
      .ok (s.checkAll stmts).1 (s.checkAll stmts).2.state := by
  induction stmts generalizing s with
  | nil => rfl
  | cons stmt rest ih =>
    have hrest : Stmt.checkAll rest (s.checkStmt stmt).2.context (s.checkStmt stmt).2.state =
        .ok ((s.checkStmt stmt).2.checkAll rest).1 ((s.checkStmt stmt).2.checkAll rest).2.state :=
      ih h
    rw [checkAll_cons]
    cases hc : s.context.nested stmt.span stmt.check s.state with
    | ok typed t =>
      have hstmt := checkStmt_of_ok hc
      rw [hstmt] at hrest ⊢
      -- both go on with the rest from the state after the statement
      show EStateM.bind (s.context.nested stmt.span stmt.check) _ s.state = _
      unfold EStateM.bind
      rw [hc]
      show EStateM.bind (Stmt.checkAll rest s.context) _ t = _
      unfold EStateM.bind
      rw [show Stmt.checkAll rest s.context t = _ from hrest]
      rfl
    | error d t =>
      have hstmt := checkStmt_of_error hc
      -- the diagnostic is in the report for good
      have hreport := report_checkAll (s.checkStmt stmt).2 rest
      rw [show ((s.checkStmt stmt).2.checkAll rest).2.report = [] from h, hstmt] at hreport
      have hnil := List.prefix_nil.1 hreport
      exact absurd hnil (List.append_ne_nil_of_right_ne_nil _ (List.cons_ne_nil d []))

end Session

/-! ## The setting of an accepted program -/

/-- An accepted program was checked as one body, from the state that every session starts in. -/
theorem typeCheck_eq_ok {program : Block} {limit : Nat} {checked : CheckedProgram}
    (h : typeCheck program limit = .ok checked) :
    ∃ t, Stmt.checkAll program.body (Session.new limit).context (Session.new limit).state =
        .ok checked.statements t ∧
      t.registry = checked.registry ∧ t.classes = checked.classes := by
  unfold typeCheck at h
  dsimp only at h
  split at h
  · next hreport =>
    cases h
    exact ⟨_, Session.checkAll_eq_ok program.body (List.isEmpty_iff.1 hreport), rfl, rfl⟩
  · cases h

theorem Frame.sound_root (entries : List Declaration) (count : Nat) :
    Frame.root.Sound entries count where
  bindings _ _ h := nomatch h
  functions _ _ h := nomatch h
  types name c h := by
    have hmem := Table.find?_eq_some.1 h
    have hentries : Frame.root.types.entries =
        [("Int", .int), ("Bool", .bool), ("String", .string), ("Nothing", .nothing)] := rfl
    rw [hentries] at hmem
    simp [Ty.int, Ty.bool, Ty.string, Ty.nothing] at hmem

theorem Session.sound_new (limit : Nat) : (Session.new limit).state.Sound [] where
  frames f hf := by
    rw [List.mem_singleton.1 hf]
    exact Frame.sound_root _ _
  classes _ h := nomatch h

/-- What a body leaves in a registry that was empty. -/
theorem numbers_of_checkAll {stmts : List Stmt} {limit : Nat} {typed : List TypedStmt}
    {t : CheckState}
    (h : Stmt.checkAll stmts (Session.new limit).context (Session.new limit).state = .ok typed t) :
    t.registry.layers = [] ∧
      t.registry.committed.map Declaration.id =
        (List.range' 1 t.registry.lastNumber).map DeclId.mk ∧
      (TypedStmt.allIntroduced typed).Perm
        ((List.range' 1 t.registry.lastNumber).map DeclId.mk) := by
  obtain ⟨items, ht, -, hids⟩ := (Stmt.checkAll_records stmts _ _).of_ok h
  have hempty : (Session.new limit).state.registry.layers = [] := rfl
  rw [Registry.enter_of_layers_nil hempty] at ht
  -- the first number is one, so the last one is the count of the entries
  have hlast : t.registry.lastNumber = items.length := by
    rw [ht]
    exact Nat.zero_add _
  refine ⟨by rw [ht], ?_, by rw [hlast]; exact hids⟩
  rw [hlast, ht]
  exact Declaration.map_id_numbered 0 items

theorem nodup_numbers (n : Nat) : ((List.range' 1 n).map DeclId.mk).Nodup := by
  refine List.Pairwise.map DeclId.mk ?_ List.nodup_range'
  intro a b hne heq
  exact hne (congrArg DeclId.number heq)

/-- The last state of an accepted program is a part of the setting that the program comes with. -/
theorem within_of_checkAll {stmts : List Stmt} {limit : Nat} {typed : List TypedStmt}
    {t : CheckState}
    (h : Stmt.checkAll stmts (Session.new limit).context (Session.new limit).state = .ok typed t) :
    t.Within ⟨t.registry, t.classes⟩ := by
  obtain ⟨hlayers, hids, -⟩ := numbers_of_checkAll h
  refine ⟨fun d hd => ?_, .of_extends (List.prefix_refl _)⟩
  unfold Registry.entries at hd
  rw [hlayers] at hd
  refine Registry.resolve_of_mem hlayers ?_ (by simpa using hd)
  rw [hids]
  exact nodup_numbers _

theorem wellTyped_of_checkAll {stmts : List Stmt} {limit : Nat} {typed : List TypedStmt}
    {t : CheckState}
    (h : Stmt.checkAll stmts (Session.new limit).context (Session.new limit).state = .ok typed t) :
    TypedStmt.AllWellTyped ⟨t.registry, t.classes⟩ typed none := by
  have hends := Stmt.checkAll_typed stmts (Session.new limit).context _ (Session.sound_new limit)
  obtain ⟨-, -, htyped⟩ := Check.Ends.of_ok hends h
  exact htyped _ (within_of_checkAll h)

/-! ## Accepted programs -/

/-- The typed tree of an accepted program is well typed against its declarations and its classes. -/
theorem typeCheck_wellTyped {program : Block} {limit : Nat} {checked : CheckedProgram}
    (h : typeCheck program limit = .ok checked) :
    TypedStmt.AllWellTyped ⟨checked.registry, checked.classes⟩ checked.statements none := by
  obtain ⟨t, ht, hregistry, hclasses⟩ := typeCheck_eq_ok h
  rw [← hregistry, ← hclasses]
  exact wellTyped_of_checkAll ht

/-- A class with a method, a variable that holds a value of it, and a call of the method. -/
def cellProgram : Block :=
  let stmt (form : StmtForm) : Stmt := ⟨form, .nowhere⟩
  let expr (form : ExprForm) : Expr := ⟨form, .nowhere⟩
  let intType : TypeExpr := .named "Int" .nowhere
  ⟨[stmt (.classDecl "Cell" .nowhere [⟨"content", .val, intType, .nowhere⟩]
      [stmt (.fnDecl "get" .nowhere ⟨[], some intType,
        ⟨[stmt (.ret (some (expr (.symbol "content"))))], .nowhere⟩⟩)]),
    stmt (.varDecl "cell" .nowhere .val none (some (expr (.new "Cell" [expr (.number 1)])))),
    stmt (.print (expr (.call (expr (.member (expr (.symbol "cell")) "get" .nowhere)) [])))],
    .nowhere⟩

theorem cellProgram_accepted : ∃ checked, typeCheck cellProgram 128 = .ok checked := by
  have haccepted : (typeCheck cellProgram 128).isOk = true := by decide +kernel
  cases h : typeCheck cellProgram 128 with
  | ok checked => exact ⟨checked, rfl⟩
  | error report =>
    rw [h] at haccepted
    cases haccepted

theorem cellProgram_wellTyped : ∃ checked, typeCheck cellProgram 128 = .ok checked ∧
    TypedStmt.AllWellTyped ⟨checked.registry, checked.classes⟩ checked.statements none := by
  obtain ⟨checked, h⟩ := cellProgram_accepted
  exact ⟨checked, h, typeCheck_wellTyped h⟩

/-- The declarations of an accepted program have the numbers from one to the last, each number once,
in the tree as well as in the registry. What the tree refers to is declared in it. -/
theorem typeCheck_numbers {program : Block} {limit : Nat} {checked : CheckedProgram}
    (h : typeCheck program limit = .ok checked) :
    (TypedStmt.allIntroduced checked.statements).Nodup ∧
      (∀ id, id ∈ TypedStmt.allIntroduced checked.statements ↔
        1 ≤ id.number ∧ id.number ≤ checked.registry.lastNumber) ∧
      checked.registry.committed.map Declaration.id =
        (List.range' 1 checked.registry.lastNumber).map DeclId.mk ∧
      ∀ id ∈ TypedStmt.allMentioned checked.statements,
        id ∈ TypedStmt.allIntroduced checked.statements := by
  obtain ⟨t, ht, hregistry, hclasses⟩ := typeCheck_eq_ok h
  obtain ⟨hlayers, hcommitted, hintroduced⟩ := numbers_of_checkAll ht
  rw [hregistry] at hlayers hcommitted hintroduced
  have hmem (id : DeclId) : id ∈ (List.range' 1 checked.registry.lastNumber).map DeclId.mk ↔
      1 ≤ id.number ∧ id.number ≤ checked.registry.lastNumber := by
    rw [List.mem_map]
    constructor
    · rintro ⟨number, hnumber, rfl⟩
      have hrange := List.mem_range'_1.1 hnumber
      show 1 ≤ number ∧ number ≤ _
      omega
    · intro hrange
      exact ⟨id.number, List.mem_range'_1.2 (by omega), rfl⟩
  refine ⟨hintroduced.nodup_iff.2 (nodup_numbers _), ?_, hcommitted, ?_⟩
  · intro id
    rw [hintroduced.mem_iff, hmem]
  · intro id hid
    have htyped := wellTyped_of_checkAll ht
    rw [hregistry, hclasses] at htyped
    -- a number that a well-typed tree refers to is that of a committed declaration
    obtain ⟨d, hd⟩ := TypedStmt.knows_allMentioned _ none htyped id hid
    obtain ⟨hcommit, rfl⟩ := Registry.mem_of_resolve hd
    rw [hintroduced.mem_iff, ← hcommitted]
    exact List.mem_map_of_mem hcommit

theorem cellProgram_numbers : ∃ checked, typeCheck cellProgram 128 = .ok checked ∧
    (TypedStmt.allIntroduced checked.statements).Nodup ∧
      (∀ id, id ∈ TypedStmt.allIntroduced checked.statements ↔
        1 ≤ id.number ∧ id.number ≤ checked.registry.lastNumber) ∧
      checked.registry.committed.map Declaration.id =
        (List.range' 1 checked.registry.lastNumber).map DeclId.mk ∧
      ∀ id ∈ TypedStmt.allMentioned checked.statements,
        id ∈ TypedStmt.allIntroduced checked.statements := by
  obtain ⟨checked, h⟩ := cellProgram_accepted
  exact ⟨checked, h, typeCheck_numbers h⟩

end Nominal
