import Nominal.Proofs.Renaming.Programs
import Nominal.Proofs.Session.RootFrame

/-!
# Rejected statements have no influence

A top-level statement that is rejected and is no class has no influence on the statements after it:
they are accepted or rejected as if it had not been there, with the same diagnostics, and the typed
statements differ by the numbers and keys that it used up (`Session.checkAll_without_rejected`).

For the rejected statement leaves the root frame and the classes before it as they were, so the
session after it is in step with the session before it, and from there on the two runs stay in step.
This needs that no number and no key stands in a session that was not handed out yet. It is said by
the renamings themselves: each of them that leaves alone what was declared so far leaves the session
alone (`Session.Closed`).
-/

namespace Nominal

/-- Whether the statement declares a class. -/
def StmtForm.isClass : StmtForm → Bool
  | .classDecl _ _ _ _ => true
  | _ => false

/-- A frame that was spared by another statement than a class is the same. -/
theorem Stmt.Spares.eq {stmt : Stmt} {before after : Frame} (h : stmt.Spares before after)
    (hform : stmt.form.isClass = false) : after = before := by
  obtain ⟨hbindings, hfunctions, htypes | ⟨_, _, _, _, _, hclass, -⟩⟩ := h
  · cases before
    cases after
    cases hbindings
    cases hfunctions
    cases htypes
    rfl
  · rw [hclass] at hform
    cases hform

namespace Renaming

/-- The numbers after `lastNumber` go up by `ids`, and the keys from `classes` on by `keys`. -/
def shift (lastNumber ids classes keys : Nat) : Renaming where
  id n := if n ≤ lastNumber then n else n + ids
  key k := if k < classes then k else k + keys
  id_lt {m n} h := by
    show (if m ≤ lastNumber then m else m + ids) < (if n ≤ lastNumber then n else n + ids)
    split <;> split <;> omega
  key_lt {m n} h := by
    show (if m < classes then m else m + keys) < (if n < classes then n else n + keys)
    split <;> split <;> omega

/-- The renaming leaves alone what was declared up to the state `s`. -/
structure Fixes (ρ : Renaming) (s : CheckState) : Prop where
  ids : ∀ n ≤ s.registry.lastNumber, ρ.id n = n
  keys : ∀ k < s.classes.classes.length, ρ.key k = k

theorem Fixes.before {ρ : Renaming} {s t : CheckState} (h : ρ.Fixes t) (hst : s.Before t) :
    ρ.Fixes s where
  ids n hn := h.ids n (Nat.le_trans hn hst.numbers)
  keys k hk := h.keys k (Nat.lt_of_lt_of_le hk hst.classes)

end Renaming

namespace Session

variable {ρ : Renaming} {s s' : Session} {z : CheckState} {stmt : Stmt}

/-! ## Later states -/

/-- The state after a statement is later than the one before it. -/
theorem before_checkStmt (s : Session) (stmt : Stmt) :
    s.state.Before (s.checkStmt stmt).2.state := by
  have hends := (nested_lastNumber s stmt).and (nested_retains s stmt)
  refine checkStmt_of_both (P := fun t => s.state.Before t) (hends.mono ?_ ?_)
  · exact fun typed t ht => ⟨ht.1.1, ht.2.length_le⟩
  · exact fun d t ht => ⟨ht.1, ht.2.length_le⟩

theorem before_checkAll (s : Session) (stmts : List Stmt) :
    s.state.Before (s.checkAll stmts).2.state :=
  checkAll_induct (P := fun t => s.state.Before t.state)
    (fun t stmt ht => ht.trans (before_checkStmt t stmt)) stmts (.refl s.state)

theorem checkAll_append (s : Session) (stmts rest : List Stmt) :
    s.checkAll (stmts ++ rest) =
      ((s.checkAll stmts).1 ++ ((s.checkAll stmts).2.checkAll rest).1,
        ((s.checkAll stmts).2.checkAll rest).2) := by
  induction stmts generalizing s with
  | nil => rfl
  | cons stmt stmts ih =>
    rw [List.cons_append, checkAll_cons, checkAll_cons, ih]
    simp only [List.append_assoc]

/-! ## Two sessions -/

/-- The sessions are in step up to the state `z`. What they reported does not matter. -/
structure InStep (ρ : Renaming) (z : CheckState) (s s' : Session) : Prop where
  limit : s'.limit = s.limit
  state : s.state.Renamed ρ s'.state z

theorem nested_follows (ρ : Renaming) (z : CheckState) (s : Session) (stmt : Stmt) :
    Check.Follows ρ z (TypedStmt.rename ρ) (s.context.nested stmt.span stmt.check)
      ((s.context.rename ρ).nested stmt.span stmt.check) :=
  .nested stmt.check_follows

/-- From sessions in step, a statement is accepted in both, or rejected in both for the same
reason. -/
theorem InStep.checkStmt (h : InStep ρ z s s') (stmt : Stmt)
    (hz : (s.checkStmt stmt).2.state.Before z) :
    InStep ρ z (s.checkStmt stmt).2 (s'.checkStmt stmt).2 ∧
      (s'.checkStmt stmt).1 = (s.checkStmt stmt).1.map (TypedStmt.rename ρ) ∧
      ∃ found : Report, (s.checkStmt stmt).2.report = s.report ++ found ∧
        (s'.checkStmt stmt).2.report = s'.report ++ found := by
  have hcontext : s'.context = s.context.rename ρ := by
    unfold context
    rw [h.limit]
    rfl
  have hends := (nested_follows ρ z s stmt).alike s.state s'.state h.state
  rw [← hcontext] at hends
  obtain ⟨typed, t, hrun, halike⟩ | ⟨d, t, hrun, halike⟩ := checkStmt_ends hends
  · rw [hrun] at hz ⊢
    obtain ⟨t', hrun', hrenamed⟩ := halike hz
    unfold Session.checkStmt
    rw [hrun']
    exact ⟨⟨h.limit, hrenamed⟩, rfl, [], by simp⟩
  · rw [hrun] at hz ⊢
    obtain ⟨t', hrun', hrenamed⟩ := halike hz
    unfold Session.checkStmt
    rw [hrun']
    exact ⟨⟨h.limit, hrenamed⟩, rfl, [d], rfl, rfl⟩

/-- From sessions in step, statements are checked alike in both. -/
theorem InStep.checkAll (h : InStep ρ z s s') (stmts : List Stmt)
    (hz : (s.checkAll stmts).2.state.Before z) :
    (s'.checkAll stmts).1 = (s.checkAll stmts).1.map (TypedStmt.rename ρ) ∧
      ∃ found : Report, (s.checkAll stmts).2.report = s.report ++ found ∧
        (s'.checkAll stmts).2.report = s'.report ++ found := by
  induction stmts generalizing s s' with
  | nil => exact ⟨rfl, [], by simp [Session.checkAll]⟩
  | cons stmt rest ih =>
    have hlater := before_checkAll (s.checkStmt stmt).2 rest
    obtain ⟨hnext, hfirst, found, hreport, hreport'⟩ := h.checkStmt stmt (hlater.trans hz)
    obtain ⟨hrest, others, hreports, hreports'⟩ := ih hnext hz
    rw [checkAll_cons, checkAll_cons]
    refine ⟨?_, found ++ others, ?_, ?_⟩
    · show (s'.checkStmt stmt).1.toList ++ _ = List.map _ ((s.checkStmt stmt).1.toList ++ _)
      rw [hrest, hfirst, List.map_append]
      cases (s.checkStmt stmt).1 <;> rfl
    · rw [hreports, hreport, List.append_assoc]
    · rw [hreports', hreport', List.append_assoc]

/-! ## What was not handed out -/

/-- No number and no key stands in the session that was not handed out: every renaming that leaves
alone what was declared so far leaves the frame and the classes alone. -/
def Closed (s : Session) : Prop :=
  ∀ ρ : Renaming, ρ.Fixes s.state →
    s.state.frame = s.state.frame.rename ρ ∧ s.state.classes.Renamed ρ s.state.classes

theorem closed_new (limit : Nat) : (new limit).Closed :=
  fun _ _ => ⟨Frame.rename_root.symm, fun _ => rfl⟩

/-- A closed session is in step with itself as long as the renaming fixes what is declared. -/
theorem Closed.inStep (hs : s.Closed) (hz : s.state.Before z) (hρ : ρ.Fixes z) :
    InStep ρ z s s where
  limit := rfl
  state := {
    ids := fun _ hn => hρ.ids _ hn
    keys := fun _ hk => hρ.keys _ hk
    classes := (hs ρ (hρ.before hz)).2
    frame := (hs ρ (hρ.before hz)).1
    returned := rfl }

theorem Closed.checkStmt (hs : s.Closed) (stmt : Stmt) : (s.checkStmt stmt).2.Closed := by
  intro ρ hρ
  -- both runs are the same, so the state after them is in step with itself
  have hstep := hs.inStep (before_checkStmt s stmt) hρ
  obtain ⟨hafter, -, -⟩ := hstep.checkStmt stmt (.refl _)
  exact ⟨hafter.state.frame, hafter.state.classes⟩

theorem Reachable.closed (hs : s.Reachable) : s.Closed :=
  hs.induct closed_new fun _ stmt h => h.checkStmt stmt

/-! ## Without the rejected statement -/

/-- The session after a rejected statement that is no class is in step with the one before it, by a
renaming that only passes over what the statement used up. -/
theorem inStep_of_rejected (hs : s.Reachable) (hform : stmt.form.isClass = false)
    (hrejected : (s.checkStmt stmt).1 = none) :
    ∃ ρ : Renaming, ρ.Fixes s.state ∧ ∀ z, InStep ρ z s (s.checkStmt stmt).2 := by
  have hsettled := hs.settled
  have hends := ((nested_frame hsettled stmt).and (nested_retains s stmt)).and
    ((nested_lastNumber s stmt).and (nested_returned s stmt s.state))
  obtain ⟨typed, t, hrun, -⟩ | ⟨d, t, hrun, ⟨hspares, others, hothers⟩, hlast, hreturned⟩ :=
    checkStmt_ends hends
  · rw [hrun] at hrejected
    cases hrejected
  · rw [hrun]
    let last := s.state.registry.lastNumber
    let count := s.state.classes.classes.length
    let ρ := Renaming.shift last (t.registry.lastNumber - last) count others.length
    have hfixes : ρ.Fixes s.state := ⟨fun n hn => if_pos hn, fun k hk => if_pos hk⟩
    obtain ⟨hframe, hclasses⟩ := hs.closed ρ hfixes
    -- the classes that the statement left behind stand between those before it and the next ones
    have hlength : t.classes.classes.length = count + others.length := by
      rw [← hothers, List.length_append]
    have hkey : ρ.key count = count + others.length := if_neg (Nat.lt_irrefl count)
    have hpadded : s.state.classes.Renamed ρ ⟨s.state.classes.classes ++ others⟩ :=
      hclasses.pad (Nat.le_of_eq hkey.symm)
    rw [hothers] at hpadded
    refine ⟨ρ, hfixes, fun z => ⟨rfl, ?_⟩⟩
    exact {
      ids := fun n _ => by
        show (if last + n + 1 ≤ last then _ else last + n + 1 + (t.registry.lastNumber - last)) = _
        rw [if_neg (by omega)]
        have hgrows : last ≤ t.registry.lastNumber := hlast
        show _ = t.registry.lastNumber + n + 1
        omega
      keys := fun n _ => by
        show (if count + n < count then _ else count + n + others.length) = _
        rw [if_neg (by omega), hlength]
        omega
      classes := hpadded
      frame := (hspares.eq hform).trans hframe
      returned := hreturned }

/-- A rejected statement that is no class has no influence on the others. For the statements before
and after it the typed statements and the diagnostics are the same as without it, in the same order,
up to a renaming that keeps the order and leaves alone what was declared before it. -/
theorem checkAll_without_rejected (hs : s.Reachable) (before after : List Stmt)
    (hform : stmt.form.isClass = false)
    (hrejected : ((s.checkAll before).2.checkStmt stmt).1 = none) :
    ∃ (ρ : Renaming) (typed : List TypedStmt) (found : Report) (d : Diagnostic),
      ρ.Fixes (s.checkAll before).2.state ∧
      (s.checkAll (before ++ after)).1 = (s.checkAll before).1 ++ typed ∧
      (s.checkAll (before ++ [stmt] ++ after)).1 =
        (s.checkAll before).1 ++ typed.map (TypedStmt.rename ρ) ∧
      (s.checkAll (before ++ after)).2.report = (s.checkAll before).2.report ++ found ∧
      (s.checkAll (before ++ [stmt] ++ after)).2.report =
        (s.checkAll before).2.report ++ [d] ++ found := by
  have hbefore : (s.checkAll before).2.Reachable := hs.check ⟨before, .nowhere⟩
  obtain ⟨ρ, hfixes, hinstep⟩ := inStep_of_rejected hbefore hform hrejected
  obtain ⟨htyped, found, hreport, hreport'⟩ := (hinstep _).checkAll after (.refl _)
  obtain ⟨d, hd⟩ : ∃ d, ((s.checkAll before).2.checkStmt stmt).2.report =
      (s.checkAll before).2.report ++ [d] := by
    obtain ⟨typed, t, hrun, -⟩ | ⟨d, t, hrun, -⟩ :=
      checkStmt_ends (nested_retains (s.checkAll before).2 stmt)
    · rw [hrun] at hrejected
      cases hrejected
    · exact ⟨d, by rw [hrun]; rfl⟩
  refine ⟨ρ, ((s.checkAll before).2.checkAll after).1, found, d, hfixes, ?_, ?_, ?_, ?_⟩
  · rw [checkAll_append]
  · rw [List.append_assoc, checkAll_append, List.singleton_append, checkAll_cons, hrejected, htyped]
    rfl
  · rw [checkAll_append, hreport]
  · rw [List.append_assoc, checkAll_append, List.singleton_append, checkAll_cons, hreport', hd]

/-! ## A function that fails late -/

/-- A class with one parameter. -/
def recordClass (name parameter : String) : Stmt :=
  ⟨.classDecl name .nowhere [⟨parameter, .val, .named "Int" .nowhere, .nowhere⟩] [], .nowhere⟩

/-- A variable that holds a new value of a class. -/
def record (name cls : String) (argument : ExprForm) : Stmt :=
  ⟨.varDecl name .nowhere .val none (some ⟨.new cls [⟨argument, .nowhere⟩], .nowhere⟩), .nowhere⟩

/-- A function that declares a class and a variable and returns, before it fails. -/
def tangledFunction : Stmt :=
  let int : TypeExpr := .named "Int" .nowhere
  let body : List Stmt := [recordClass "C" "q", record "c" "C" (.symbol "p"),
    ⟨.ret (some ⟨.symbol "p", .nowhere⟩), .nowhere⟩,
    ⟨.print ⟨.symbol "unknown", .nowhere⟩, .nowhere⟩]
  ⟨.fnDecl "f" .nowhere ⟨[⟨"p", .val, int, .nowhere⟩], some int, ⟨body, .nowhere⟩⟩, .nowhere⟩

/-- What stands before the function. -/
def recordsBefore : List Stmt :=
  [recordClass "A" "x", record "a" "A" (.number 1)]

/-- What stands after it: a class, a variable that is rejected, and one that takes its name. -/
def recordsAfter : List Stmt :=
  [recordClass "B" "y", record "f" "B" (.symbol "missing"),
    record "f" "B" (.member ⟨.symbol "a", .nowhere⟩ "x" .nowhere)]

/-- The function uses up four numbers and one class, and nothing else is different with it. -/
theorem checkAll_without_tangledFunction :
    tangledFunction.form.isClass = false ∧
    (((new 128).checkAll recordsBefore).2.checkStmt tangledFunction).1 = none ∧
    ((new 128).checkAll (recordsBefore ++ recordsAfter)).2.state.registry.lastNumber = 4 ∧
    ((new 128).checkAll (recordsBefore ++ [tangledFunction] ++
      recordsAfter)).2.state.registry.lastNumber = 8 ∧
    ∃ (ρ : Renaming) (typed : List TypedStmt) (found : Report) (d : Diagnostic),
      ρ.Fixes ((new 128).checkAll recordsBefore).2.state ∧
      ((new 128).checkAll (recordsBefore ++ recordsAfter)).1 =
        ((new 128).checkAll recordsBefore).1 ++ typed ∧
      ((new 128).checkAll (recordsBefore ++ [tangledFunction] ++ recordsAfter)).1 =
        ((new 128).checkAll recordsBefore).1 ++ typed.map (TypedStmt.rename ρ) ∧
      ((new 128).checkAll (recordsBefore ++ recordsAfter)).2.report =
        ((new 128).checkAll recordsBefore).2.report ++ found ∧
      ((new 128).checkAll (recordsBefore ++ [tangledFunction] ++ recordsAfter)).2.report =
        ((new 128).checkAll recordsBefore).2.report ++ [d] ++ found :=
  have hrejected : (((new 128).checkAll recordsBefore).2.checkStmt tangledFunction).1 = none :=
    Option.isNone_iff_eq_none.1 (by decide +kernel)
  ⟨rfl, hrejected, by decide +kernel, by decide +kernel,
    checkAll_without_rejected (.new 128) recordsBefore recordsAfter rfl hrejected⟩

end Session

end Nominal
