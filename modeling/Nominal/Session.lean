import Nominal.Typing.Check

/-!
# Sessions

A `Session` checks programs one after the other against the same global frame. A top-level statement
that fails is left out of the result, its diagnostic is added to the report, and checking goes on with
the next statement. `typeCheck` checks one program and accepts it only when the report is empty.
-/

namespace Nominal

/-- What programs checked one after the other have in common. -/
structure Session where
  limit : Nat
  state : CheckState
  report : Report

namespace Session

/-- Before the first program. -/
def new (limit : Nat) : Session :=
  ⟨limit, ⟨.empty, .empty, .root, false⟩, []⟩

/-- The surroundings of top-level statements. -/
def context (s : Session) : Context :=
  ⟨[], none, none, s.limit, 0⟩

/-- Checks a top-level statement. -/
def checkStmt (s : Session) (stmt : Stmt) : Option TypedStmt × Session :=
  match s.context.nested stmt.span stmt.check s.state with
  | .ok typed state => (some typed, { s with state })
  | .error d state => (none, { s with state, report := s.report.push d })

/-- Checks the statements of a program. -/
def checkAll (s : Session) : List Stmt → List TypedStmt × Session
  | [] => ([], s)
  | stmt :: rest =>
    let (typed?, s) := s.checkStmt stmt
    let (typed, s) := s.checkAll rest
    (typed?.toList ++ typed, s)

/-- Checks a program. -/
def check (s : Session) (program : Block) : List TypedStmt × Session :=
  s.checkAll program.body

end Session

/-- A program that was accepted, with its declarations and its classes. -/
structure CheckedProgram where
  statements : List TypedStmt
  registry : Registry
  classes : ClassTable

/-- The checked program, or what is wrong with it. -/
def typeCheck (program : Block) (limit : Nat) : Except Report CheckedProgram :=
  let (statements, session) := (Session.new limit).check program
  if session.report.isEmpty then
    .ok ⟨statements, session.state.registry, session.state.classes⟩
  else .error session.report

end Nominal
