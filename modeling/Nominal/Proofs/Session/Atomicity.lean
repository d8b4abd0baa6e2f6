import Nominal.Proofs.Session.Reachable
import Nominal.Proofs.Typing.Keeps

/-!
# What a failed statement leaves in the registry

Transactions are opened by declarations and by lambdas, one for each, and by nothing else. So a
declaration that fails leaves no entries behind (`Stmt.check_whole`). A statement of another kind
that fails leaves those of the outermost declarations and lambdas inside it that were complete by
then: a beginning of its batches, under numbers without a gap (`Session.committed_of_failed`).
-/

namespace Nominal

/-- Whether the statement is checked in one transaction. A return opens none, but outside of
functions it is refused before its value is looked at. -/
def StmtForm.isWhole : StmtForm → Bool
  | .varDecl _ _ _ _ _ => true
  | .classDecl _ _ _ _ => true
  | .fnDecl _ _ _ => true
  | .ret _ => true
  | _ => false

open Check Context

/-- A declaration that fails has wasted some numbers and entered nothing. -/
theorem Stmt.check_whole {stmt : Stmt} (hwhole : stmt.form.isWhole) {ctx : Context}
    (hctx : ctx.function? = none) (s : CheckState) :
    (stmt.check ctx).Ends s (fun _ _ => True) (fun _ t => ∃ n, t.registry = s.registry.skip n) := by
  have of_whole {c : Check TypedStmt} {batch : List String} (h : c.RecordsDeclaration batch) :
      c.Ends s (fun _ _ => True) (fun _ t => ∃ n, t.registry = s.registry.skip n) :=
    (h s).mono (fun _ _ _ => trivial) fun _ _ hd => hd
  obtain ⟨form, span⟩ := stmt
  cases form with
  | varDecl name nameSpan mode type? value? =>
    cases value? with
    | none => exact of_whole (varDecl_none_records type?)
    | some value => exact of_whole (varDecl_some_records type? (.nested value.check_records))
  | classDecl name nameSpan parameters members =>
    exact of_whole (classDecl_records parameters (Stmt.checkMembers_records members parameters))
  | fnDecl name nameSpan signature =>
    obtain ⟨parameters, result?, ⟨body, bodySpan⟩⟩ := signature
    exact of_whole (fnDecl_records parameters result? (Stmt.checkAll_records body))
  | ret value? =>
    obtain ⟨outer, function?, className?, limit, depth⟩ := ctx
    cases hctx
    cases value? with
    | none => exact ⟨0, rfl⟩
    | some value => exact ⟨0, rfl⟩
  | _ => cases hwhole

namespace Session

/-- A top-level statement that fails leaves the committed declarations as they were, apart from
those of some outermost declarations and lambdas inside it, from the first on. These got the next
numbers, and the last number may be higher still. After a declaration there are none. -/
theorem committed_of_failed {s : Session} (hs : s.Reachable) {stmt : Stmt}
    (hfailed : (s.checkStmt stmt).1 = none) :
    ∃ kept done,
      (s.checkStmt stmt).2.state.registry.committed = s.state.registry.committed ++ kept ∧
      kept.map Declaration.id = s.state.registry.upcoming kept.length ∧
      s.state.registry.lastNumber + kept.length ≤
        (s.checkStmt stmt).2.state.registry.lastNumber ∧
      done <+: stmt.batches ∧ (kept.map Declaration.name).Perm done.flatten ∧
      (stmt.form.isWhole → kept = []) := by
  have hlayers := hs.layers_nil
  cases hwhole : stmt.form.isWhole with
  | true =>
    have hends : (s.context.nested stmt.span stmt.check).Ends s.state (fun _ _ => True)
        (fun _ t => ∃ n, t.registry = s.state.registry.skip n) := by
      rw [ends_nested]
      split
      · exact Stmt.check_whole hwhole rfl s.state
      · exact ⟨0, rfl⟩
    obtain ⟨d, n, ht⟩ := checkStmt_of_none hends hfailed
    refine ⟨[], [], ?_, rfl, ?_, List.nil_prefix, .refl _, fun _ => rfl⟩
    · rw [ht, List.append_nil, Registry.committed_skip]
    · rw [ht, Registry.lastNumber_skip]
      exact Nat.le_add_right _ n
  | false =>
    obtain ⟨d, items, n, ht, done, hdone, hperm⟩ :=
      checkStmt_of_none (nested_records s stmt s.state) hfailed
    -- no transaction is open, so what was entered is committed
    rw [Registry.enter_of_layers_nil hlayers] at ht
    refine ⟨Declaration.numbered s.state.registry.lastNumber items, done, ?_, ?_, ?_, hdone, ?_,
      fun h => nomatch h⟩
    · rw [ht, Registry.committed_skip]
    · rw [Declaration.map_id_numbered, Declaration.length_numbered]
      rfl
    · rw [ht, Registry.lastNumber_skip, Declaration.length_numbered]
      exact Nat.le_add_right _ n
    · rw [Declaration.map_name_numbered]
      exact hperm

/-- A block whose second declaration fails. -/
def brokenBlock : Stmt :=
  let declare (name : String) (value : ExprForm) : Stmt :=
    ⟨.varDecl name .nowhere .val (some (.named "Int" .nowhere)) (some ⟨value, .nowhere⟩), .nowhere⟩
  ⟨.block ⟨[declare "x" (.number 1), declare "y" (.symbol "z")], .nowhere⟩, .nowhere⟩

theorem committed_of_brokenBlock : ((Session.new 128).checkStmt brokenBlock).1 = none ∧
    ∃ kept done,
      ((Session.new 128).checkStmt brokenBlock).2.state.registry.committed = [] ++ kept ∧
      kept.map Declaration.id = Registry.empty.upcoming kept.length ∧
      0 + kept.length ≤ ((Session.new 128).checkStmt brokenBlock).2.state.registry.lastNumber ∧
      done <+: [["x"], ["y"]] ∧ (kept.map Declaration.name).Perm done.flatten ∧
      (brokenBlock.form.isWhole → kept = []) :=
  ⟨rfl, committed_of_failed (.new 128) rfl⟩

/-- A block opens no transaction, so the first declaration stays when the second one fails. -/
theorem failed_block_is_not_atomic : ¬ ∀ (s : Session) (stmt : Stmt), s.Reachable →
    (s.checkStmt stmt).1 = none →
      (s.checkStmt stmt).2.state.registry.committed = s.state.registry.committed := by
  intro h
  have hcommitted := h (.new 128) brokenBlock (.new 128) rfl
  have hnames : ((Session.new 128).checkStmt brokenBlock).2.state.registry.committed.map
      Declaration.name = ["x"] := rfl
  rw [hcommitted] at hnames
  cases hnames

end Session

end Nominal
