import Nominal.Proofs.Session.Reachable
import Nominal.Proofs.Typing.FrameEffect
import Nominal.Proofs.Typing.Retained

/-!
# What a top-level statement leaves behind

After every top-level statement the checker is back where it was: in the root frame, outside of
functions and classes, and without an open transaction. The root frame has changed by the
declaration of the statement, or, when it failed, by the name of a class at most
(`Session.checkStmt_root`).

That a failed function can be taken out of the root frame again rests on what holds between
statements (`Session.Settled`): the functions in the frame have numbers that were handed out before.
-/

namespace Nominal

namespace Session

/-- What holds between top-level statements, besides that no transaction is open. -/
structure Settled (s : Session) : Prop where
  returned : s.state.returned = false
  functions : s.state.frame.functions.UpTo s.state.registry.lastNumber
  types : Frame.root.types.entries <+: s.state.frame.types.entries

variable {s : Session} {stmt : Stmt}

theorem settled_new (limit : Nat) : (new limit).Settled where
  returned := rfl
  functions := Methods.upTo_empty 0
  types := List.prefix_refl _

/-! ## One statement -/

theorem nested_returned (s : Session) (stmt : Stmt) :
    (s.context.nested stmt.span stmt.check).Keeps CheckState.returned :=
  .nested fun ctx hctx => stmt.check_keeps_returned ctx hctx

theorem nested_frame (hs : s.Settled) (stmt : Stmt) :
    (s.context.nested stmt.span stmt.check).Ends s.state
      (fun typed t => stmt.Declares typed s.state.frame t.frame)
      (fun _ t => stmt.Spares s.state.frame t.frame) := by
  rw [Context.ends_nested]
  split
  · exact (stmt.check_frame _ s.state).mono (fun _ _ ht => ht) fun _ _ ht => ht hs.functions
  · exact .of_eq rfl

/-- The classes that are known before a statement are the same afterwards. -/
theorem nested_retains (s : Session) (stmt : Stmt) :
    (s.context.nested stmt.span stmt.check).Ends s.state
      (fun _ t => s.state.classes.classes <+: t.classes.classes)
      (fun _ t => s.state.classes.classes <+: t.classes.classes) := by
  rw [Context.ends_nested]
  split
  · exact stmt.check_retains _ _
  · exact List.prefix_refl _

/-- Numbers are only handed out. -/
theorem nested_lastNumber (s : Session) (stmt : Stmt) :
    (s.context.nested stmt.span stmt.check).Ends s.state
      (fun typed t => s.state.registry.lastNumber ≤ t.registry.lastNumber ∧
        ∀ id ∈ typed.introduced, id.number ≤ t.registry.lastNumber)
      (fun _ t => s.state.registry.lastNumber ≤ t.registry.lastNumber) := by
  refine (nested_records s stmt s.state).mono ?_ ?_
  · rintro typed t ⟨items, ht, -, hids⟩
    rw [ht, Registry.lastNumber_enter]
    refine ⟨Nat.le_add_right _ _, ?_⟩
    intro id hid
    obtain ⟨number, hnumber, rfl⟩ := List.mem_map.1 (hids.mem_iff.1 hid)
    have hlt := (List.mem_range'_1.1 hnumber).2
    show number ≤ _
    omega
  · rintro d t ⟨items, n, ht, -⟩
    rw [ht, Registry.lastNumber_skip, Registry.lastNumber_enter]
    omega

/-- The numbers in the frame stay below the last one when that of the statement does. -/
theorem upTo_of_declares {typed : TypedStmt} {before after : Frame} {last : Nat}
    (h : stmt.Declares typed before after) (hfunctions : before.functions.UpTo last)
    (hids : ∀ id ∈ typed.introduced, id.number ≤ last) : after.functions.UpTo last := by
  obtain ⟨form, span⟩ := stmt
  cases form with
  | varDecl name nameSpan mode type? value? =>
    obtain ⟨_, _, _, -, -, -, -, hafter⟩ := h
    rwa [hafter]
  | classDecl name nameSpan parameters members =>
    obtain ⟨_, _, _, -, -, -, hafter⟩ := h
    rwa [hafter]
  | fnDecl name nameSpan signature =>
    obtain ⟨decl, function, parameters, body, hform, -, -, hself, hothers, hnames⟩ := h
    have hdecl : decl.number ≤ last := by
      apply hids
      obtain ⟨_, _⟩ := typed
      cases hform
      exact List.mem_cons_self
    exact hfunctions.of_added hdecl hself hothers hnames
  | _ =>
    cases h
    exact hfunctions

theorem types_of_declares {typed : TypedStmt} {before after : Frame}
    (h : stmt.Declares typed before after) : before.types.entries <+: after.types.entries := by
  obtain ⟨form, span⟩ := stmt
  cases form with
  | varDecl name nameSpan mode type? value? =>
    obtain ⟨_, _, _, -, -, -, hafter, -⟩ := h
    exact hafter ▸ List.prefix_refl _
  | classDecl name nameSpan parameters members =>
    obtain ⟨_, _, _, -, -, hafter, -⟩ := h
    rw [hafter]
    exact List.prefix_append _ _
  | fnDecl name nameSpan signature =>
    obtain ⟨_, _, _, _, -, -, hafter, -⟩ := h
    exact hafter ▸ List.prefix_refl _
  | _ =>
    cases h
    exact List.prefix_refl _

theorem types_of_spares {before after : Frame} (h : stmt.Spares before after) :
    before.types.entries <+: after.types.entries := by
  obtain ⟨-, -, hafter | ⟨_, _, _, _, _, -, hafter⟩⟩ := h
  · exact hafter ▸ List.prefix_refl _
  · rw [hafter]
    exact List.prefix_append _ _

/-- One statement keeps what holds between statements. -/
theorem Settled.checkStmt (hs : s.Settled) (stmt : Stmt) : (s.checkStmt stmt).2.Settled := by
  have hends := ((nested_returned s stmt s.state).and (nested_frame hs stmt)).and
    (nested_lastNumber s stmt)
  obtain ⟨typed, t, hrun, ⟨hreturned, hframe⟩, hlast, hids⟩ |
    ⟨d, t, hrun, ⟨hreturned, hframe⟩, hlast⟩ := checkStmt_ends hends
  · rw [hrun]
    exact {
      returned := hreturned.trans hs.returned
      functions := upTo_of_declares hframe (hs.functions.mono hlast) hids
      types := hs.types.trans (types_of_declares hframe) }
  · -- a failed statement leaves the functions of the frame alone
    rw [hrun]
    refine ⟨hreturned.trans hs.returned, ?_, hs.types.trans (types_of_spares hframe)⟩
    show t.frame.functions.UpTo t.registry.lastNumber
    rw [hframe.2.1]
    exact hs.functions.mono hlast

theorem Reachable.settled (hs : s.Reachable) : s.Settled :=
  hs.induct settled_new fun _ stmt h => h.checkStmt stmt

/-- After a top-level statement the surroundings are as before: the root frame is the current one,
no function, class or transaction is open, and the depth is zero. The root frame has changed by the
declaration of the statement, or, if it failed, by the name of a class at most. -/
theorem checkStmt_root (hs : s.Reachable) (stmt : Stmt) :
    (s.checkStmt stmt).2.context = ⟨[], none, none, s.limit, 0⟩ ∧
      (s.checkStmt stmt).2.state.returned = false ∧
      (s.checkStmt stmt).2.state.registry.inTransaction = false ∧
      Frame.root.types.entries <+: (s.checkStmt stmt).2.state.frame.types.entries ∧
      match (s.checkStmt stmt).1 with
      | some typed => stmt.Declares typed s.state.frame (s.checkStmt stmt).2.state.frame
      | none => stmt.Spares s.state.frame (s.checkStmt stmt).2.state.frame := by
  have hsettled := hs.settled
  have hafter := hsettled.checkStmt stmt
  have hlayers := checkStmt_layers_nil hs.layers_nil stmt
  have hcontext : (s.checkStmt stmt).2.context = ⟨[], none, none, s.limit, 0⟩ ∧
      match (s.checkStmt stmt).1 with
      | some typed => stmt.Declares typed s.state.frame (s.checkStmt stmt).2.state.frame
      | none => stmt.Spares s.state.frame (s.checkStmt stmt).2.state.frame := by
    obtain ⟨typed, t, hrun, hframe⟩ | ⟨d, t, hrun, hframe⟩ :=
      checkStmt_ends (nested_frame hsettled stmt)
    · rw [hrun]
      exact ⟨rfl, hframe⟩
    · rw [hrun]
      exact ⟨rfl, hframe⟩
  refine ⟨hcontext.1, hafter.returned, ?_, hafter.types, hcontext.2⟩
  unfold Registry.inTransaction
  rw [hlayers]
  rfl

/-- A function whose body fails after its name was declared. -/
def brokenFunction : Stmt :=
  ⟨.fnDecl "f" .nowhere ⟨[], none, ⟨[⟨.print ⟨.symbol "z", .nowhere⟩, .nowhere⟩], .nowhere⟩⟩,
    .nowhere⟩

theorem checkStmt_root_brokenFunction : ((Session.new 128).checkStmt brokenFunction).1 = none ∧
    ((Session.new 128).checkStmt brokenFunction).2.context = ⟨[], none, none, 128, 0⟩ ∧
      ((Session.new 128).checkStmt brokenFunction).2.state.returned = false ∧
      ((Session.new 128).checkStmt brokenFunction).2.state.registry.inTransaction = false ∧
      Frame.root.types.entries <+:
        ((Session.new 128).checkStmt brokenFunction).2.state.frame.types.entries ∧
      brokenFunction.Spares .root ((Session.new 128).checkStmt brokenFunction).2.state.frame :=
  ⟨rfl, checkStmt_root (.new 128) brokenFunction⟩

end Session

end Nominal
