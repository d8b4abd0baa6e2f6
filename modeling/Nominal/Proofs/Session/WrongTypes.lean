import Nominal.Proofs.Session.Coherent
import Nominal.Proofs.Session.Values

/-!
# Diagnostics that contradict themselves

A diagnostic for a wrong type says which type was expected and which was provided, and that the two
are not equal. The texts come from several rules, and the names in them are chosen by users. In all
rules but one, the texts are what the types were told apart by, so they differ. When a value that is
no function is called, the word `Function` stands for what was expected, and a class may have this
word for its name: then the diagnostic says that `Function` does not equal `Function`
(`Session.call_of_class_named_function`). There is no other such case (`Session.wrongType_differs`).
-/

namespace Nominal

namespace Session

/-- What was expected is told apart from what was provided by the texts that are shown. The exception
is a value that is called although its class is no function but has the name `Function`. -/
theorem wrongType_differs (limit : Nat) (programs : List Block) :
    let final := ((new limit).checkEach programs).2
    ∀ d ∈ final.report, ∀ expected provided, d.cause = .wrongType expected provided →
      expected ≠ provided ∨
        expected = "Function" ∧ provided = "Function" ∧ "Function" ∈ final.state.classes.names := by
  intro final d hd expected provided hcause
  by_cases hsame : expected = provided
  · have hcontradictory : d.cause.isContradictory = true := by
      rw [hcause, hsame]
      exact beq_self_eq_true provided
    obtain ⟨hfunction, hclass⟩ := ((valued_new limit).checkEach programs).report d hd hcontradictory
    rw [hcause] at hfunction
    cases hfunction
    exact .inr ⟨rfl, rfl, hclass⟩
  · exact .inl hsame

/-- `class Function { } val f = new Function(); f();` -/
def functionClassSource : String :=
  "class Function \x7b \x7d val f = new Function(); f();"

/-- The last statement calls a value of the class, and is told that its type does not equal itself. -/
theorem report_functionClassSource :
    ∃ program d, parseSource functionClassSource = .ok program ∧
      d ∈ ((new defaultNestingLimit).checkEach [program]).2.report ∧
        d.cause = .wrongType "Function" "Function" := by
  have hreport : ((parseSource functionClassSource).toOption.map fun program =>
      ((new defaultNestingLimit).checkEach [program]).2.report.map Diagnostic.cause) =
        some [.wrongType "Function" "Function"] := by
    decide +kernel
  cases hparse : parseSource functionClassSource with
  | error d =>
    rw [hparse] at hreport
    cases hreport
  | ok program =>
    rw [hparse] at hreport
    obtain ⟨d, hd, hcause⟩ := List.map_eq_singleton_iff.1 (Option.some.inj hreport)
    refine ⟨program, d, rfl, ?_, hcause⟩
    rw [hd]
    exact List.mem_singleton_self d

theorem wrongType_differs_functionClassSource :
    ∃ program d, d ∈ ((new defaultNestingLimit).checkEach [program]).2.report ∧
      d.cause = .wrongType "Function" "Function" ∧
        ("Function" ≠ "Function" ∨ "Function" = "Function" ∧ "Function" = "Function" ∧
          "Function" ∈ ((new defaultNestingLimit).checkEach [program]).2.state.classes.names) := by
  obtain ⟨program, d, -, hd, hcause⟩ := report_functionClassSource
  exact ⟨program, d, hd, hcause, wrongType_differs defaultNestingLimit [program] d hd _ _ hcause⟩

theorem call_of_class_named_function : ¬ ∀ (limit : Nat) (programs : List Block),
    (∀ program ∈ programs, program.IsParsed) →
      ∀ d ∈ ((new limit).checkEach programs).2.report, ∀ expected provided,
        d.cause = .wrongType expected provided → expected ≠ provided := by
  intro h
  obtain ⟨program, d, hparse, hd, hcause⟩ := report_functionClassSource
  have hparsed := List.forall_mem_singleton.2 (isParsed_of_parseSource hparse)
  exact h defaultNestingLimit [program] hparsed d hd _ _ hcause rfl

end Session

end Nominal
