import Nominal.Proofs.Session.Accepted
import Nominal.Proofs.Session.Coherent
import Nominal.Proofs.Syntax.Fits
import Nominal.Proofs.Typing.Levels.Trees

/-!
# The nesting limit of a session

A higher limit changes nothing about a program whose report does not complain about levels
(`Session.check_eq_of_le`). For a program that was parsed, the limit of the parser is high enough if
no class has members. With members it has to be raised by the number of classes around them
(`Session.check_enough_of_parse`), since a member is read on the level of its class and checked one
level further in.
-/

namespace Nominal

namespace Session

variable {s : Session} {scarce : Prop} {l n : Nat}

/-- The same session under the limit `l`. -/
def allowing (s : Session) (l : Nat) : Session :=
  { s with limit := l }

/-- A statement at the top, under a higher limit. Unless levels are scarce and the statement stops
for want of them, both sessions do the same, and nothing that is new in the report is about
levels. -/
theorem checkStmt_widens (h : s.context.Allows scarce l n) (stmt : Stmt)
    (hn : stmt.nesting + stmt.classDepth ≤ n) :
    (scarce ∧ ∃ d ∈ (s.checkStmt stmt).2.report, d.IsNesting) ∨
      ((s.allowing l).checkStmt stmt = ((s.checkStmt stmt).1, (s.checkStmt stmt).2.allowing l) ∧
        ∀ d ∈ (s.checkStmt stmt).2.report, d.IsNesting → d ∈ s.report) := by
  have hcontext : (s.allowing l).context = s.context.allowing l := rfl
  obtain ⟨typed, t, hrun, hrun'⟩ | ⟨d, t, hrun, ⟨hd, hscarce⟩ | ⟨hd, hrun'⟩⟩ :=
    checkStmt_ends (h.stmt stmt hn stmt.check_widens s.state)
  · refine .inr ⟨?_, ?_⟩
    · rw [checkStmt_of_ok (hcontext ▸ hrun'), hrun]
      rfl
    · rw [hrun]
      exact fun d hd _ => hd
  · refine .inl ⟨hscarce, d, ?_, hd⟩
    rw [hrun]
    exact List.mem_append_right _ (List.mem_singleton_self d)
  · refine .inr ⟨?_, ?_⟩
    · rw [checkStmt_of_error (hcontext ▸ hrun'), hrun]
      rfl
    · rw [hrun]
      intro d' hd' hnesting
      obtain hold | hnew := List.mem_append.1 hd'
      · exact hold
      · obtain rfl := List.mem_singleton.1 hnew
        exact absurd hnesting hd

/-- All statements of a program. What one statement reports is still there at the end, so the
sessions are compared one statement after the other. -/
theorem checkAll_widens (h : s.context.Allows scarce l n) (stmts : List Stmt)
    (hn : Stmt.eachNesting stmts + Stmt.eachClassDepth stmts ≤ n) :
    (scarce ∧ ∃ d ∈ (s.checkAll stmts).2.report, d.IsNesting) ∨
      ((s.allowing l).checkAll stmts = ((s.checkAll stmts).1, (s.checkAll stmts).2.allowing l) ∧
        ∀ d ∈ (s.checkAll stmts).2.report, d.IsNesting → d ∈ s.report) := by
  induction stmts generalizing s with
  | nil => exact .inr ⟨rfl, fun d hd _ => hd⟩
  | cons stmt rest ih =>
    simp only [Stmt.eachNesting, Stmt.eachClassDepth] at hn
    have hgrows := report_checkAll (s.checkStmt stmt).2 rest
    have hcontext : (s.checkStmt stmt).2.context = s.context := by
      unfold checkStmt
      split <;> rfl
    rw [checkAll_cons, checkAll_cons]
    obtain ⟨hscarce, d, hd, hnesting⟩ | ⟨hsame, hnew⟩ := checkStmt_widens h stmt (by omega)
    · exact .inl ⟨hscarce, d, hgrows.subset hd, hnesting⟩
    · obtain hstops | ⟨hsame', hnew'⟩ := ih (hcontext ▸ h) (by omega)
      · exact .inl hstops
      · refine .inr ⟨?_, fun d hd hnesting => hnew d (hnew' d hd hnesting) hnesting⟩
        rw [hsame]
        simp only [hsame']

/-- Under a higher limit a program gives the same typed statements, the same diagnostics and the
same state, unless its report complains about levels. -/
theorem check_eq_of_le {program : Block} (hle : s.limit ≤ l)
    (hnesting : ∀ d ∈ (s.check program).2.report, ¬ d.IsNesting) :
    (s.allowing l).check program = ((s.check program).1, (s.check program).2.allowing l) := by
  have hallows : s.context.Allows True l (program.nesting + program.classDepth) :=
    ⟨hle, .inl trivial⟩
  obtain ⟨-, d, hd, hlevels⟩ | ⟨hsame, -⟩ :=
    checkAll_widens hallows program.body (Nat.le_refl _)
  · exact absurd hlevels (hnesting d hd)
  · exact hsame

/-- A program that needs four levels. One of its statements is refused for a type. -/
def fourLevelSource : String :=
  "class A(val x: Int) \x7b fun get() -> Int \x7b return x; \x7d \x7d
   val a = new A(\"\"); val b = new A(-1).get();"

theorem check_eq_of_le_fourLevelSource :
    ∃ program, parseSource fourLevelSource = .ok program ∧
      (∃ d ∈ ((new 3).check program).2.report, d.IsNesting) ∧
      ((new 4).check program).2.report ≠ [] ∧
      (∀ d ∈ ((new 4).check program).2.report, ¬ d.IsNesting) ∧
      (new 9).check program =
        (((new 4).check program).1, ((new 4).check program).2.allowing 9) := by
  have hreports : ((parseSource fourLevelSource).toOption.map fun program =>
      decide ((∃ d ∈ ((new 3).check program).2.report, d.IsNesting) ∧
        ((new 4).check program).2.report ≠ [] ∧
        ∀ d ∈ ((new 4).check program).2.report, ¬ d.IsNesting)) = some true := by
    decide +kernel
  cases hparse : parseSource fourLevelSource with
  | error d =>
    rw [hparse] at hreports
    cases hreports
  | ok program =>
    rw [hparse] at hreports
    obtain ⟨hthree, hrefused, hfour⟩ := of_decide_eq_true (Option.some.inj hreports)
    exact ⟨program, rfl, hthree, hrefused, hfour, check_eq_of_le (s := new 4) (by decide) hfour⟩

/-- The limit that a program was parsed under is high enough to check it, when the classes around
its members are added. -/
theorem check_enough_of_parse {tokens : List Token} {file : String} {limit limit' : Nat}
    {program : Block} (hparse : parse tokens file limit = .ok program)
    (hle : limit + program.classDepth ≤ limit') :
    ∀ d ∈ ((new limit').check program).2.report, ¬ d.IsNesting := by
  have hnesting : program.nesting ≤ limit := nesting_le_of_parse hparse
  have hallows : (new limit').context.Allows False limit' limit' :=
    ⟨Nat.le_refl _, .inr (Nat.le_of_eq (Nat.zero_add _))⟩
  obtain ⟨hfalse, -⟩ | ⟨-, hnew⟩ := checkAll_widens hallows program.body
    (Nat.le_trans (Nat.add_le_add_right hnesting _) hle)
  · exact hfalse.elim
  · exact fun d hd hd' => nomatch hnew d hd hd'

/-- A class with a member, which is parsed within two levels. -/
def memberSource : String :=
  "class A \x7b val x: Int = 1; \x7d"

theorem check_enough_of_parse_memberSource :
    ∃ tokens program, tokenize memberSource interactiveFile = .ok tokens ∧
      parse tokens interactiveFile 2 = .ok program ∧ 2 + program.classDepth ≤ 3 ∧
      ∀ d ∈ ((new 3).check program).2.report, ¬ d.IsNesting := by
  obtain ⟨tokens, program, htokens, hparse, hdepth⟩ :=
    exists_program memberSource 2 (P := fun program => 2 + program.classDepth ≤ 3)
      (by decide +kernel)
  exact ⟨tokens, program, htokens, hparse, hdepth, check_enough_of_parse hparse hdepth⟩

/-- The limit of the parser alone is too low for it. -/
theorem exists_parse_and_nesting :
    ∃ tokens program, tokenize memberSource interactiveFile = .ok tokens ∧
      parse tokens interactiveFile 2 = .ok program ∧
      ∃ d ∈ ((new 2).check program).2.report, d.IsNesting :=
  exists_program memberSource 2 (by decide +kernel)

end Session

end Nominal
