import Nominal.Proofs.Session.Coherent
import Nominal.Proofs.Typing.Overloads

/-!
# Calls in a session

At every point of a session, whatever programs it checks and in whichever way they fail, a call of
overloads goes to the last one that takes the arguments, or is rejected for a reason that holds
(`Session.calls_resolve`).
-/

namespace Nominal

namespace Session

variable {s : Session} {I : Point → Prop}

theorem hasLog_new (limit : Nat) : (new limit).state.HasLog [] :=
  ⟨[], (accounted_new limit).logged⟩

theorem hasLog_checkStmt (hs : s.state.HasLog []) (stmt : Stmt) :
    (s.checkStmt stmt).2.state.HasLog [] :=
  checkStmt_of_both ((stmt.nested_logs s.context).both hs)

theorem hasLog_check (hs : s.state.HasLog []) (program : Block) :
    (s.check program).2.state.HasLog [] :=
  checkAll_induct (P := fun s => s.state.HasLog []) (fun _ stmt h => hasLog_checkStmt h stmt)
    program.body hs

section

variable (hI : ∀ p : Point, p.Numbered → I p)
include hI

theorem throughout_numbered (hs : s.state.HasLog []) (stmts : List Stmt) :
    s.Throughout I stmts := by
  induction stmts generalizing s with
  | nil => exact hs.point hI
  | cons stmt rest ih =>
    refine ⟨⟨hs.point hI, fun _ => ?_⟩, ih (hasLog_checkStmt hs stmt)⟩
    exact stmt.throughout_numbered hI _ s.state hs

theorem throughoutEach_numbered (hs : s.state.HasLog []) (programs : List Block) :
    s.ThroughoutEach I programs := by
  induction programs generalizing s with
  | nil => exact hs.point hI
  | cons program rest ih =>
    exact ⟨throughout_numbered hI hs program.body, ih (hasLog_check hs program)⟩

end

/-- At every point of a session, each call of overloads whose arguments can be checked is resolved:
it goes to the last overload that takes the arguments, and if there is none, it is explained by the
first argument that the last overload of their number does not take, or else by their number. -/
theorem calls_resolve (limit : Nat) (programs : List Block) :
    (new limit).ThroughoutEach Point.ResolvesCalls programs :=
  throughoutEach_numbered (fun _ hp => hp.resolvesCalls) (hasLog_new limit) programs

/-- Two functions of one name, the later one for values that can only be read, and a third for two
arguments. The later one is called for a constant as well as for a new value, and the calls that are
rejected are explained by it and by the number of arguments of the last. -/
def overloadedSource : String :=
  "fun f(var a: Int): Int \x7b return 1; \x7d fun f(a: Int): Bool \x7b return true; \x7d
    fun f(a: Int, b: Bool): Int \x7b return 3; \x7d
    val v: Int = 1; val r: Bool = f(v); val s: Bool = f(3); f(true); f(1, 2); f();"

example : ((parseSource overloadedSource).toOption.map fun program =>
    ((new defaultNestingLimit).check program).2.report.map Diagnostic.cause) =
      some [.wrongType "Int" "Bool", .wrongType "Bool" "Int", .arity "f" 2 0] := by
  decide +kernel

end Session

end Nominal
