import Nominal.Proofs.Typing.Bookkeeping
import Nominal.Session

/-!
# Reachable sessions

A session is reachable when it comes from a new one by checking programs. Every statement of these
programs is one step, so a property that holds at first and is kept by each statement holds of every
reachable session (`Session.Reachable.induct`). In particular no transaction is open in between
(`Session.Reachable.layers_nil`).
-/

namespace Nominal

namespace Session

/-- Sessions that come from a new one by checking programs one after the other. -/
inductive Reachable : Session → Prop
  | new (limit : Nat) : Reachable (.new limit)
  | check {s : Session} (program : Block) (hs : s.Reachable) : Reachable (s.check program).2

variable {s : Session} {stmt : Stmt}

/-! ## One statement -/

/-- What a top-level statement does to the registry. -/
theorem nested_records (s : Session) (stmt : Stmt) :
    (s.context.nested stmt.span stmt.check).RecordsStmt stmt.batches :=
  .nested stmt.check_records

theorem checkStmt_of_ok {typed : TypedStmt} {t : CheckState}
    (hrun : s.context.nested stmt.span stmt.check s.state = .ok typed t) :
    s.checkStmt stmt = (some typed, { s with state := t }) := by
  unfold checkStmt
  rw [hrun]

theorem checkStmt_of_error {d : Diagnostic} {t : CheckState}
    (hrun : s.context.nested stmt.span stmt.check s.state = .error d t) :
    s.checkStmt stmt = (none, { s with state := t, report := s.report.push d }) := by
  unfold checkStmt
  rw [hrun]

/-- A top-level statement ends in one of two ways. It keeps the limit, and it adds a diagnostic to
the report exactly when it fails. -/
theorem checkStmt_ends {ok : TypedStmt → CheckState → Prop}
    {failed : Diagnostic → CheckState → Prop}
    (h : (s.context.nested stmt.span stmt.check).Ends s.state ok failed) :
    (∃ typed t, s.checkStmt stmt = (some typed, ⟨s.limit, t, s.report⟩) ∧ ok typed t) ∨
      ∃ d t, s.checkStmt stmt = (none, ⟨s.limit, t, s.report.push d⟩) ∧ failed d t := by
  cases hc : s.context.nested stmt.span stmt.check s.state with
  | ok typed t => exact .inl ⟨typed, t, checkStmt_of_ok hc, h.of_ok hc⟩
  | error d t => exact .inr ⟨d, t, checkStmt_of_error hc, h.of_error hc⟩

/-- What holds after a statement that fails. -/
theorem checkStmt_of_none {ok : TypedStmt → CheckState → Prop}
    {failed : Diagnostic → CheckState → Prop}
    (h : (s.context.nested stmt.span stmt.check).Ends s.state ok failed)
    (hnone : (s.checkStmt stmt).1 = none) : ∃ d, failed d (s.checkStmt stmt).2.state := by
  obtain ⟨typed, t, hrun, -⟩ | ⟨d, t, hrun, hfailed⟩ := checkStmt_ends h
  · rw [hrun] at hnone
    cases hnone
  · rw [hrun]
    exact ⟨d, hfailed⟩

/-- What holds after a statement in either case. -/
theorem checkStmt_of_both {P : CheckState → Prop}
    (h : (s.context.nested stmt.span stmt.check).Ends s.state (fun _ t => P t) (fun _ t => P t)) :
    P (s.checkStmt stmt).2.state := by
  obtain ⟨typed, t, hrun, ht⟩ | ⟨d, t, hrun, ht⟩ := checkStmt_ends h
  · rwa [hrun]
  · rwa [hrun]

/-! ## All statements -/

theorem checkAll_cons (s : Session) (stmt : Stmt) (rest : List Stmt) :
    s.checkAll (stmt :: rest) =
      ((s.checkStmt stmt).1.toList ++ ((s.checkStmt stmt).2.checkAll rest).1,
        ((s.checkStmt stmt).2.checkAll rest).2) :=
  rfl

theorem checkAll_induct {P : Session → Prop} (hstmt : ∀ s stmt, P s → P (s.checkStmt stmt).2)
    (stmts : List Stmt) (h : P s) : P (s.checkAll stmts).2 := by
  induction stmts generalizing s with
  | nil => exact h
  | cons stmt rest ih => exact ih (hstmt s stmt h)

/-- What holds of new sessions and is kept by every top-level statement holds of every reachable
session. -/
theorem Reachable.induct {P : Session → Prop} (hnew : ∀ limit, P (.new limit))
    (hstmt : ∀ s stmt, P s → P (s.checkStmt stmt).2) (hs : s.Reachable) : P s := by
  induction hs with
  | new limit => exact hnew limit
  | check program _ ih => exact checkAll_induct hstmt program.body ih

/-- A statement closes the transactions that it opens. -/
theorem checkStmt_layers_nil (h : s.state.registry.layers = []) (stmt : Stmt) :
    (s.checkStmt stmt).2.state.registry.layers = [] := by
  refine checkStmt_of_both (P := fun t => t.registry.layers = [])
    ((nested_records s stmt s.state).mono ?_ ?_)
  · rintro typed t ⟨items, ht, -⟩
    rw [ht]
    exact Registry.layers_enter_of_nil h items
  · rintro d t ⟨items, n, ht, -⟩
    rw [ht]
    exact Registry.layers_enter_of_nil h items

/-- Between statements no transaction is open. -/
theorem Reachable.layers_nil (hs : s.Reachable) : s.state.registry.layers = [] :=
  hs.induct (P := fun s => s.state.registry.layers = []) (fun _ => rfl) fun _ stmt h =>
    checkStmt_layers_nil h stmt

end Session

end Nominal
