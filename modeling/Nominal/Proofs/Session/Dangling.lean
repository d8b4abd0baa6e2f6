import Nominal.Proofs.Session.Accepted
import Nominal.Proofs.Session.RootFrame
import Nominal.Proofs.Typing.Blind
import Nominal.Proofs.Typing.Log
import Nominal.Proofs.Typing.Uses

/-!
# Numbers in the statements that a session returns

A statement that is accepted may use whatever the statements before it left behind, those that were
rejected included. Rejected variables and functions leave nothing behind, but a rejected class stays
with the fields and methods it was given so far. So every number in a returned statement is that of a
committed declaration, or of a field or a method that a class kept although its declaration was
dropped (`Session.checkEach_uses`), and the latter does occur
(`Session.field_of_rejected_class_dangles`).

Between statements, what can be looked up in the frame and the classes is accounted for by
declarations that are held by the registry or by a class (`Session.Accounted`).
-/

namespace Nominal

/-- The declaration has the number that stands in the tree, and the name that stands there for it. -/
def Use.Means (u : Use) (d : Declaration) : Prop :=
  d.id = u.id ∧ ∀ name, u.name? = some name → d.name = name

/-- The class has the declaration as a field or as a method. -/
def ClassInfo.Declares (info : ClassInfo) (d : Declaration) : Prop :=
  info.members.find? d.name = some ⟨d.type, d.id⟩ ∨
    ∃ o ∈ info.methods.get d.name, o.id? = some d.id ∧ d.type = ⟨.val, o.signature.type⟩

/-- Some class has the declaration as a field or as a method. -/
def ClassTable.Declares (t : ClassTable) (d : Declaration) : Prop :=
  ∃ info ∈ t.classes, info.Declares d

/-- The declaration is in the registry, or a class has it. -/
def CheckState.Holds (s : CheckState) (d : Declaration) : Prop :=
  d ∈ s.registry.entries ∨ s.classes.Declares d

theorem CheckState.Evolves.holds {s t : CheckState} (h : s.Evolves t) {d : Declaration}
    (hd : s.Holds d) : t.Holds d := by
  rcases hd with hentry | ⟨info, hinfo, hdeclares⟩
  · exact .inl (h.entries hentry)
  · exact .inr ⟨info, h.classes.subset hinfo, hdeclares⟩

/-- What the classes of a state declare is held by it. -/
theorem ClassInfo.Sound.of_holds {s : CheckState} {info : ClassInfo} {log kept : List Declaration}
    (h : info.Sound log) (hinfo : info ∈ s.classes.classes)
    (hkept : ∀ d ∈ log, s.Holds d → d ∈ kept) : info.Sound kept where
  members name m hm := hkept _ (h.members name m hm) (.inr ⟨info, hinfo, .inl hm⟩)
  methods name o ho := by
    obtain ⟨id, hid, hmem⟩ := h.methods name o ho
    exact ⟨id, hid, hkept _ hmem (.inr ⟨info, hinfo, .inr ⟨o, ho, hid, rfl⟩⟩)⟩

theorem ClassInfo.Sound.mem_of_declares {info : ClassInfo} {log : List Declaration}
    (h : info.Sound log) {d : Declaration} (hd : info.Declares d) : d ∈ log := by
  rcases hd with hmember | ⟨o, ho, hid, htype⟩
  · exact h.members d.name _ hmember
  · obtain ⟨id, hid', hmem⟩ := h.methods d.name o ho
    rw [hid] at hid'
    cases hid'
    rwa [← htype] at hmem

/-- A number is in the log once. -/
theorem CheckState.Logged.eq_of_id {s : CheckState} {log : List Declaration} {outer : Scope}
    (h : s.Logged log outer) {d d' : Declaration} (hd : d ∈ log) (hd' : d' ∈ log)
    (hid : d.id = d'.id) : d = d' := by
  have hfirst := Registry.resolve_of_mem (r := ⟨0, log, []⟩) rfl h.nodup hd
  have hsecond := Registry.resolve_of_mem (r := ⟨0, log, []⟩) rfl h.nodup hd'
  rw [hid, hsecond] at hfirst
  exact (Option.some.inj (Except.ok.inj hfirst)).symm

/-- The part of the log that the state still holds. -/
theorem CheckState.exists_kept (s : CheckState) (log : List Declaration) :
    ∃ kept : List Declaration, kept.Sublist log ∧ ∀ d, d ∈ kept ↔ d ∈ log ∧ s.Holds d := by
  classical
  exact ⟨log.filter fun d => s.Holds d, List.filter_sublist, fun d => by simp⟩

namespace Session

/-- What can be looked up between statements was entered at some time, as the log says, and is held by
the registry or by a class. -/
structure Accounted (s : Session) (log kept : List Declaration) : Prop where
  settled : s.Settled
  layers : s.state.registry.layers = []
  logged : s.state.Logged log []
  part : kept.Sublist log
  holds : ∀ d ∈ kept, s.state.Holds d
  sound : (s.state.over kept).Sound []

theorem accounted_new (limit : Nat) : (new limit).Accounted [] [] where
  settled := settled_new limit
  layers := rfl
  logged := ⟨.nil, (fun _ hd => nomatch hd), List.Sublist.refl _, sound_new limit⟩
  part := List.Sublist.refl _
  holds _ hd := nomatch hd
  sound := sound_new limit

variable {s : Session} {stmt : Stmt} {log kept : List Declaration}

/-! ## One statement -/

/-- Whichever way a statement ends, the registry and the classes have only been added to. -/
theorem nested_evolves (hlayers : s.state.registry.layers = []) (stmt : Stmt) :
    (s.context.nested stmt.span stmt.check).Ends s.state (fun _ t => s.state.Evolves t)
      (fun _ t => s.state.Evolves t) := by
  have hentries (items : List (String × Slot Ty)) :
      s.state.registry.entries ⊆ (s.state.registry.enter items).entries := by
    rw [Registry.enter_of_layers_nil hlayers]
    simp [Registry.entries, hlayers]
  refine ((nested_records s stmt s.state).and (nested_retains s stmt)).mono ?_ ?_
  · rintro typed t ⟨⟨items, ht, -⟩, hclasses⟩
    exact ⟨ht ▸ hentries items, hclasses⟩
  · rintro d t ⟨⟨items, n, ht, -⟩, hclasses⟩
    exact ⟨ht ▸ hentries items, hclasses⟩

/-- A statement that succeeds is well typed when the declarations are recalled that are held without
being in the registry. -/
theorem nested_typed_of_accounted (hs : s.Accounted log kept) (stmt : Stmt) :
    (s.context.nested stmt.span stmt.check).Ends s.state
      (fun typed t => (t.recalling kept).Sound [] ∧
        ∀ w, (t.recalling kept).Within w → typed.WellTyped w none)
      (fun _ _ => True) := by
  have hblind : (s.context.nested stmt.span stmt.check).Blind :=
    Check.Blind.stepwise.nested stmt.check_blind
  have hsound : (s.state.recalling kept).Sound [] := by
    refine hs.sound.of_entries_eq rfl rfl ?_
    rw [CheckState.entries_over]
    simp [CheckState.recalling, Registry.recalling, Registry.entries]
  have htyped : (s.context.nested stmt.span stmt.check).ChecksStmt [] none :=
    Context.nested_typed stmt.check_typed
  exact (hblind.ends (htyped _ hsound)).mono (fun _ _ h => ⟨h.1, h.2.2⟩) fun _ _ _ => trivial

/-- The declarations that are held after a statement, when what can be looked up is among them. -/
theorem accounted_of_frame {log' : List Declaration} (hsettled : s.Settled)
    (hlayers : s.state.registry.layers = []) (hlogged : s.state.Logged log' [])
    (hframe : ∀ kept', kept'.Sublist log' → (∀ d, d ∈ kept' ↔ d ∈ log' ∧ s.state.Holds d) →
      s.state.frame.Sound kept' s.state.classes.classes.length) :
    ∃ kept', s.Accounted log' kept' ∧ ∀ d ∈ log', s.state.Holds d → d ∈ kept' := by
  obtain ⟨kept', hpart, hmem⟩ := s.state.exists_kept log'
  have hkept : ∀ d ∈ log', s.state.Holds d → d ∈ kept' := fun d hd hholds =>
    (hmem d).2 ⟨hd, hholds⟩
  refine ⟨kept', ⟨hsettled, hlayers, hlogged, hpart, fun d hd => ((hmem d).1 hd).2, ?_, ?_⟩, hkept⟩
  · intro f hf
    rw [List.mem_singleton.1 hf, CheckState.entries_over]
    exact hframe kept' hpart hmem
  · intro info hinfo
    replace hinfo : info ∈ s.state.classes.classes := hinfo
    have hclass := hlogged.sound.classes info hinfo
    rw [CheckState.entries_over] at hclass ⊢
    exact hclass.of_holds hinfo hkept

/-- A statement that fails leaves the variables and the functions of the frame as they were. -/
theorem frame_sound_of_spares {before after : Frame} {entries entries' : List Declaration}
    {count count' : Nat} (h : stmt.Spares before after) (hbefore : before.Sound entries count)
    (hentries : entries ⊆ entries') (hafter : after.Sound log count') :
    after.Sound entries' count' where
  bindings name b hb := hentries (hbefore.bindings name b (h.1 ▸ hb))
  functions name o ho := (hbefore.functions name o (h.2.1 ▸ ho)).mono hentries
  types := hafter.types

/-- The recalled declarations and those of the registry are held, and looked up in what is held. -/
theorem recalling_subset {t : CheckState} {kept' : List Declaration}
    (hkept : ∀ d ∈ kept, d ∈ kept') (hentries : ∀ d ∈ t.registry.entries, d ∈ kept') :
    (t.recalling kept).registry.entries ⊆ kept' := by
  intro d hd
  have hparts : d ∈ kept ++ t.registry.entries := by
    simpa [CheckState.recalling, Registry.recalling, Registry.entries] using hd
  rcases List.mem_append.1 hparts with hold | hentry
  · exact hkept d hold
  · exact hentries d hentry

/-- One statement keeps the account. When it is accepted, its numbers are those of declarations that
are held then. -/
theorem Accounted.checkStmt (hs : s.Accounted log kept) (stmt : Stmt) :
    ∃ log' kept', (s.checkStmt stmt).2.Accounted log' kept' ∧
      s.state.Evolves (s.checkStmt stmt).2.state ∧
      ∀ typed, (s.checkStmt stmt).1 = some typed → ∀ u ∈ typed.uses,
        ∃ d, (s.checkStmt stmt).2.state.Holds d ∧ u.Means d := by
  have hsettled := hs.settled.checkStmt stmt
  have hlayers := checkStmt_layers_nil hs.layers stmt
  have hlogs : (s.context.nested stmt.span stmt.check).Logs :=
    Check.Logs.closed.nested stmt.check_logs
  have hends := (((hlogs s.state log [] hs.logged).and (nested_evolves hs.layers stmt)).and
    (nested_frame hs.settled stmt)).and (nested_typed_of_accounted hs stmt)
  obtain ⟨typed, t, hrun, ⟨⟨⟨log', hlog, hlogged, -⟩, hevolves⟩, -⟩, hsound, htyped⟩ |
    ⟨d, t, hrun, ⟨⟨⟨log', hlog, hlogged⟩, hevolves⟩, hframe⟩, -⟩ := checkStmt_ends hends
  · rw [hrun] at hsettled hlayers ⊢
    have hsubset {kept' : List Declaration} (hmem : ∀ d ∈ log', t.Holds d → d ∈ kept') :
        (t.recalling kept).registry.entries ⊆ kept' := by
      refine recalling_subset (fun d hd => ?_) fun d hd => ?_
      · exact hmem d (hlog (hs.part.subset hd)) (hevolves.holds (hs.holds d hd))
      · exact hmem d (hlogged.entries.subset hd) (.inl hd)
    obtain ⟨kept', haccounted, hmem⟩ := accounted_of_frame hsettled hlayers hlogged
      fun kept' _ hmem => hsound.frame.mono (hsubset fun d hd h => (hmem d).2 ⟨hd, h⟩) (Nat.le_refl _)
    refine ⟨log', kept', haccounted, hevolves, ?_⟩
    -- the setting in which the statement is well typed has what is held, and nothing else
    have hnodup := hlogged.nodup.sublist (haccounted.part.map Declaration.id)
    have hwithin : (t.recalling kept).Within ⟨⟨0, kept', []⟩, t.classes⟩ :=
      ⟨fun d hd => Registry.resolve_of_mem rfl hnodup (hsubset hmem hd),
        .of_extends (List.prefix_refl _)⟩
    rintro _ ⟨⟩ u hu
    obtain ⟨d, hd, hname⟩ := typed.resolves_uses none (htyped _ hwithin) u hu
    obtain ⟨hkept, hid⟩ := Registry.mem_of_resolve hd
    exact ⟨d, haccounted.holds d hkept, hid, hname⟩
  · -- the frame is as it was, but for the name of a class
    rw [hrun] at hsettled hlayers ⊢
    obtain ⟨kept', haccounted, -⟩ := accounted_of_frame hsettled hlayers hlogged
      fun kept' _ hmem => frame_sound_of_spares hframe (CheckState.entries_over _ kept ▸ hs.sound.frame)
        (fun d hd => (hmem d).2 ⟨hlog (hs.part.subset hd), hevolves.holds (hs.holds d hd)⟩)
        hlogged.frame
    exact ⟨log', kept', haccounted, hevolves, fun _ h => nomatch h⟩

/-! ## All statements -/

/-- What is known of the numbers in statements that were returned: they are those of declarations that
are held. -/
def Explains (s : Session) (stmts : List TypedStmt) : Prop :=
  ∀ typed ∈ stmts, ∀ u ∈ typed.uses, ∃ d, s.state.Holds d ∧ u.Means d

theorem Explains.mono {t : Session} {stmts : List TypedStmt} (h : s.Explains stmts)
    (hst : s.state.Evolves t.state) : t.Explains stmts := by
  intro typed htyped u hu
  obtain ⟨d, hd, hmeans⟩ := h typed htyped u hu
  exact ⟨d, hst.holds hd, hmeans⟩

theorem Explains.append {first later : List TypedStmt} (hfirst : s.Explains first)
    (hlater : s.Explains later) : s.Explains (first ++ later) :=
  List.forall_mem_append.2 ⟨hfirst, hlater⟩

theorem Accounted.checkAll (hs : s.Accounted log kept) (stmts : List Stmt) :
    ∃ log' kept', (s.checkAll stmts).2.Accounted log' kept' ∧
      s.state.Evolves (s.checkAll stmts).2.state ∧
      (s.checkAll stmts).2.Explains (s.checkAll stmts).1 := by
  induction stmts generalizing s log kept with
  | nil => exact ⟨log, kept, hs, .refl _, fun _ h => nomatch h⟩
  | cons stmt rest ih =>
    obtain ⟨log', kept', hstmt, hevolves, huses⟩ := hs.checkStmt stmt
    obtain ⟨log'', kept'', hrest, hevolves', hexplains⟩ := ih hstmt
    rw [checkAll_cons]
    have hfirst : (s.checkStmt stmt).2.Explains (s.checkStmt stmt).1.toList := fun typed h =>
      huses typed (Option.mem_toList.1 h)
    exact ⟨log'', kept'', hrest, hevolves.trans hevolves', (hfirst.mono hevolves').append hexplains⟩

/-- Checks programs one after the other, and returns the statements of all that were accepted. -/
def checkEach (s : Session) : List Block → List TypedStmt × Session
  | [] => ([], s)
  | program :: rest =>
    let (typed, s) := s.check program
    let (later, s) := s.checkEach rest
    (typed ++ later, s)

theorem Accounted.checkEach (hs : s.Accounted log kept) (programs : List Block) :
    ∃ log' kept', (s.checkEach programs).2.Accounted log' kept' ∧
      s.state.Evolves (s.checkEach programs).2.state ∧
      (s.checkEach programs).2.Explains (s.checkEach programs).1 := by
  induction programs generalizing s log kept with
  | nil => exact ⟨log, kept, hs, .refl _, fun _ h => nomatch h⟩
  | cons program rest ih =>
    obtain ⟨log', kept', hprogram, hevolves, hexplains⟩ := hs.checkAll program.body
    obtain ⟨log'', kept'', hrest, hevolves', hexplains'⟩ := ih hprogram
    exact ⟨log'', kept'', hrest, hevolves.trans hevolves', (hexplains.mono hevolves').append hexplains'⟩

/-- Every number in a statement that a session returns is that of a committed declaration, which has
the name that the node has for it, or that of a field or method of this name that a class has although
its declaration was dropped. -/
theorem checkEach_uses (limit : Nat) (programs : List Block) :
    let returned := ((Session.new limit).checkEach programs).1
    let final := ((Session.new limit).checkEach programs).2.state
    ∀ stmt ∈ returned, ∀ u ∈ stmt.uses,
      (∃ d, final.registry.resolve u.id = .ok (some d) ∧ u.Means d) ∨
        final.registry.resolve u.id = .ok none ∧ ∃ d, final.classes.Declares d ∧ u.Means d := by
  intro returned final stmt hstmt u hu
  obtain ⟨log, kept, haccounted, -, hexplains⟩ := (accounted_new limit).checkEach programs
  obtain ⟨d, hd, hmeans⟩ := hexplains stmt hstmt u hu
  have hlayers : final.registry.layers = [] := haccounted.layers
  have hlogged : final.Logged log [] := haccounted.logged
  have hentries : final.registry.entries = final.registry.committed := by
    simp [Registry.entries, hlayers]
  have hcommitted : final.registry.committed.Sublist log := hentries ▸ hlogged.entries
  by_cases hmem : d ∈ final.registry.committed
  · have hnodup := hlogged.nodup.sublist (hcommitted.map Declaration.id)
    have hresolve := Registry.resolve_of_mem hlayers hnodup hmem
    exact .inl ⟨d, hmeans.1 ▸ hresolve, hmeans⟩
  · rcases hd with hentry | hdeclares
    · exact absurd (hentries ▸ hentry) hmem
    · refine .inr ⟨?_, d, hdeclares, hmeans⟩
      obtain ⟨info, hinfo, hclass⟩ := hdeclares
      have hsound := hlogged.sound.classes info hinfo
      rw [CheckState.entries_over] at hsound
      have hlog := hsound.mem_of_declares hclass
      unfold Registry.resolve Registry.inTransaction
      rw [hlayers]
      -- a declaration that is found would be the one that the class has
      cases hfind : final.registry.committed.find? fun d => d.id == u.id with
      | none => rfl
      | some d' =>
        have hmem' := List.mem_of_find?_eq_some hfind
        have hid : d'.id = u.id := by simpa using List.find?_some hfind
        have heq := hlogged.eq_of_id (hcommitted.subset hmem') hlog (hid.trans hmeans.1.symm)
        exact absurd (heq ▸ hmem') hmem

/-! ## A class that was rejected -/

/-- `class A(val x: Int) { val y: Int = z; } print new A(1).x;` -/
def rejectedClass : Block :=
  let int : TypeExpr := .named "Int" .nowhere
  let field : Stmt :=
    ⟨.varDecl "y" .nowhere .val (some int) (some ⟨.symbol "z", .nowhere⟩), .nowhere⟩
  let cell : Expr := ⟨.new "A" [⟨.number 1, .nowhere⟩], .nowhere⟩
  ⟨[⟨.classDecl "A" .nowhere [⟨"x", .val, int, .nowhere⟩] [field], .nowhere⟩,
    ⟨.print ⟨.member cell "x" .nowhere, .nowhere⟩, .nowhere⟩], .nowhere⟩

/-- Whether all numbers in the statements are those of committed declarations. -/
def knowsAll (result : List TypedStmt × Session) : Bool :=
  (result.1.flatMap TypedStmt.uses).all fun u =>
    match result.2.state.registry.resolve u.id with
    | .ok (some _) => true
    | _ => false

theorem knowsAll_of_resolves {result : List TypedStmt × Session}
    (h : ∀ stmt ∈ result.1, ∀ u ∈ stmt.uses, result.2.state.registry.Resolves u) :
    knowsAll result = true := by
  unfold knowsAll
  rw [List.all_eq_true]
  intro u hu
  obtain ⟨stmt, hstmt, hu⟩ := List.mem_flatMap.1 hu
  obtain ⟨d, hd, -⟩ := h stmt hstmt u hu
  rw [hd]

/-- The class was rejected, and the field that it had by then is read all the same. Its number is
not that of a committed declaration. -/
theorem field_of_rejected_class_dangles : ¬ ∀ (limit : Nat) (programs : List Block),
    ∀ stmt ∈ ((Session.new limit).checkEach programs).1, ∀ u ∈ stmt.uses,
      ((Session.new limit).checkEach programs).2.state.registry.Resolves u := by
  intro h
  have hknows := knowsAll_of_resolves (h 128 [rejectedClass])
  have hfails : knowsAll ((Session.new 128).checkEach [rejectedClass]) = false := by
    decide +kernel
  rw [hfails] at hknows
  cases hknows

end Session

end Nominal
