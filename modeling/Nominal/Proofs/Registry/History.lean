import Nominal.Proofs.Registry

/-!
# The history of a registry

What became of a declaration can be read off the calls that were made, without looking at any layer.
A transaction is a bracket in the sequence of calls: it is opened by `begin` and closed by the
`commit` or the `abort` that matches it (`Event.closing`). A declaration is committed exactly when
every bracket around its `insert` was closed by a `commit` (`Registry.performAll_history`).

The proof goes through the events from the first on and says, of any registry, what the events still
to come make of its layers (`Registry.mem_committed_play`): the layer `j` is the transaction that has
`j` open ones inside it, so what closes it is the event that `Event.closing j` looks for.
-/

namespace Nominal

namespace Registry

/-! ## Calls and events -/

/-- One thing that is done to a registry. -/
inductive Event where
  | insert (name : String) (type : Slot Ty)
  | begin
  /-- The end of the innermost transaction, which is committed or aborted. -/
  | close (kept : Bool)

/-- A call. A transaction that is run makes calls of its own before it succeeds or fails. -/
inductive Call where
  | insert (name : String) (type : Slot Ty)
  | begin
  | commit
  | abort
  | finish (succeeded : Bool)
  | run (body : List Call) (succeeds : Bool)

mutual

/-- Makes a call, and lists the numbers that were handed out meanwhile. -/
def Call.perform : Call → Registry → List DeclId × Registry
  | .insert name type, r =>
    let (id, r) := r.insert name type
    ([id], r)
  | .begin, r => ([], r.begin)
  | .commit, r => ([], r.commit)
  | .abort, r => ([], r.abort)
  | .finish succeeded, r => ([], r.finish succeeded)
  | .run body succeeds, r =>
    let (result, r) := r.transaction fun r =>
      let (ids, r) := Call.performAll body r
      (if succeeds then Except.ok ids else Except.error ids, r)
    match result with
    | .ok ids => (ids, r)
    | .error ids => (ids, r)

/-- Makes calls one after the other. -/
def Call.performAll : List Call → Registry → List DeclId × Registry
  | [], r => ([], r)
  | call :: rest, r =>
    let (ids, r) := call.perform r
    let (later, r) := Call.performAll rest r
    (ids ++ later, r)

end

mutual

/-- What a call does, one thing after the other. -/
def Call.events : Call → List Event
  | .insert name type => [.insert name type]
  | .begin => [.begin]
  | .commit => [.close true]
  | .abort => [.close false]
  | .finish succeeded => [.close succeeded]
  | .run body succeeds => .begin :: Call.eachEvents body ++ [.close succeeds]

def Call.eachEvents : List Call → List Event
  | [] => []
  | call :: rest => call.events ++ Call.eachEvents rest

end

/-- What an event does to the registry. -/
def step (r : Registry) : Event → Registry
  | .insert name type => (r.insert name type).2
  | .begin => r.begin
  | .close kept => r.finish kept

/-- What events do to the registry, one after the other. -/
def play (r : Registry) (events : List Event) : Registry :=
  events.foldl step r

namespace Event

/-- How many declarations are entered. -/
def inserts : List Event → Nat
  | [] => 0
  | .insert _ _ :: rest => inserts rest + 1
  | .begin :: rest => inserts rest
  | .close _ :: rest => inserts rest

/-- How a transaction is closed, if it is, when `inner` others are open inside it: by the first event
that closes a transaction while none is open inside this one. -/
def closing : Nat → List Event → Option Bool
  | _, [] => none
  | inner, .insert _ _ :: rest => closing inner rest
  | inner, .begin :: rest => closing (inner + 1) rest
  | 0, .close kept :: _ => some kept
  | inner + 1, .close _ :: rest => closing inner rest

/-- Every transaction that is open after `before` is committed in `after`. -/
def Survives (before after : List Event) : Prop :=
  ∀ outside inside, before = outside ++ .begin :: inside → closing 0 inside = none →
    closing 0 (inside ++ after) = some true

end Event

open Event

/-! ## Calls are sequences of events -/

@[simp] theorem play_nil (r : Registry) : r.play [] = r := rfl

@[simp] theorem play_cons (r : Registry) (event : Event) (events : List Event) :
    r.play (event :: events) = (r.step event).play events := rfl

theorem play_append (r : Registry) (first later : List Event) :
    r.play (first ++ later) = (r.play first).play later :=
  List.foldl_append

theorem inserts_append (first later : List Event) :
    inserts (first ++ later) = inserts first + inserts later := by
  induction first with
  | nil => simp [inserts]
  | cons event rest ih => cases event <;> simp [inserts, ih] <;> omega

theorem eachEvents_append (first later : List Call) :
    Call.eachEvents (first ++ later) = Call.eachEvents first ++ Call.eachEvents later := by
  induction first with
  | nil => rfl
  | cons call rest ih => simp [Call.eachEvents, ih]

/-- The registry that runs a transaction closes it as the calls inside it end. -/
theorem perform_run (body : List Call) (succeeds : Bool) (r : Registry) :
    (Call.run body succeeds).perform r =
      ((Call.performAll body r.begin).1, (Call.performAll body r.begin).2.finish succeeds) := by
  cases succeeds <;> rfl

theorem lastNumber_step (r : Registry) (event : Event) :
    (r.step event).lastNumber = r.lastNumber + inserts [event] := by
  cases event with
  | insert name type =>
    have h := r.lastNumber_enter [(name, type)]
    exact h
  | begin => rfl
  | close kept =>
    cases kept with
    | true => exact r.lastNumber_commit
    | false => rfl

theorem lastNumber_play (r : Registry) (events : List Event) :
    (r.play events).lastNumber = r.lastNumber + inserts events := by
  induction events generalizing r with
  | nil => rfl
  | cons event rest ih =>
    rw [play_cons, ih, lastNumber_step]
    have happend := inserts_append [event] rest
    rw [List.singleton_append] at happend
    omega

mutual

/-- A call does what its events do, and hands out the next numbers. -/
theorem perform_eq : ∀ (call : Call) (r : Registry),
    call.perform r = (r.upcoming (inserts call.events), r.play call.events)
  | .insert name type, r => by
    have hid : (r.insert name type).1 = ⟨r.lastNumber + 1⟩ := by
      rw [← r.number_insert name type]
    show ([(r.insert name type).1], (r.insert name type).2) = _
    rw [hid]
    rfl
  | .begin, r => rfl
  | .commit, r => rfl
  | .abort, r => rfl
  | .finish succeeded, r => rfl
  | .run body succeeds, r => by
    have hbody := performAll_eq body r.begin
    have hcount : inserts (Call.run body succeeds).events = inserts (Call.eachEvents body) := by
      simp [Call.events, inserts, inserts_append]
    rw [perform_run, hbody, hcount]
    simp only [Call.events, List.cons_append, play_cons, play_append, play_nil, step]
    rfl

theorem performAll_eq : ∀ (calls : List Call) (r : Registry),
    Call.performAll calls r =
      (r.upcoming (inserts (Call.eachEvents calls)), r.play (Call.eachEvents calls))
  | [], r => rfl
  | call :: rest, r => by
    have hcall := perform_eq call r
    have hrest := performAll_eq rest (call.perform r).2
    have hids : r.upcoming (inserts call.events + inserts (Call.eachEvents rest)) =
        r.upcoming (inserts call.events) ++
          (r.play call.events).upcoming (inserts (Call.eachEvents rest)) := by
      simp only [upcoming, lastNumber_play, ← List.range'_append_1, List.map_append]
      congr 3
      omega
    show ((call.perform r).1 ++ (Call.performAll rest (call.perform r).2).1,
      (Call.performAll rest (call.perform r).2).2) = _
    rw [hrest, hcall, Call.eachEvents, inserts_append, hids, play_append]

end

/-! ## Matching brackets -/

/-- A transaction that was closed stays closed. -/
theorem closing_append_of_some {inner : Nat} {first : List Event} {kept : Bool}
    (h : closing inner first = some kept) (later : List Event) :
    closing inner (first ++ later) = some kept := by
  fun_induction closing inner first with
  | case1 => cases h
  | case2 inner name type rest ih => exact ih h
  | case3 inner rest ih => exact ih h
  | case4 kept' rest => exact h
  | case5 inner kept' rest ih => exact ih h

/-- The declaration that is entered after so many others is entered at one place. -/
theorem insert_unique {before before' after after' : List Event} {name name' : String}
    {type type' : Slot Ty}
    (h : before ++ .insert name type :: after = before' ++ .insert name' type' :: after')
    (hcount : inserts before = inserts before') : before = before' ∧ after = after' := by
  induction before generalizing before' with
  | nil =>
    cases before' with
    | nil => exact ⟨rfl, (List.cons.inj h).2⟩
    | cons event rest =>
      obtain ⟨rfl, -⟩ := List.cons.inj h
      simp [inserts] at hcount
  | cons event rest ih =>
    cases before' with
    | nil =>
      obtain ⟨rfl, -⟩ := List.cons.inj h
      simp [inserts] at hcount
    | cons event' rest' =>
      obtain ⟨rfl, hrest⟩ := List.cons.inj h
      have hcount' : inserts rest = inserts rest' := by
        cases event <;> simpa [inserts] using hcount
      obtain ⟨rfl, rfl⟩ := ih hrest hcount'
      exact ⟨rfl, rfl⟩

/-! ## What becomes of the layers -/

/-- Each of `count` open transactions that is still open after `before` is committed in `after`. -/
def Outlasts (count : Nat) (before after : List Event) : Prop :=
  ∀ j < count, closing j before = none → closing j (before ++ after) = some true

/-- The declaration is entered by one of the events into a registry with `count` open transactions,
and every transaction around it is committed. -/
def Enters (last count : Nat) (events : List Event) (d : Declaration) : Prop :=
  ∃ before after, events = before ++ .insert d.name d.type :: after ∧
    d.id = ⟨last + inserts before + 1⟩ ∧
      Outlasts count before (.insert d.name d.type :: after) ∧
        Survives before (.insert d.name d.type :: after)

/-- The declaration is staged in a layer, and this layer and those around it are committed. -/
def Rises (layers : List (List Declaration)) (events : List Event) (d : Declaration) : Prop :=
  ∃ i layer, layers[i]? = some layer ∧ d ∈ layer ∧
    ∀ j, i ≤ j → j < layers.length → closing j events = some true

section

variable {last count : Nat} {events : List Event} {d : Declaration}
  {layer : List Declaration} {layers : List (List Declaration)}

/-- What comes before the first transaction is no part of it. -/
theorem survives_cons {event : Event} {before after : List Event} (h : event ≠ .begin) :
    Survives (event :: before) after ↔ Survives before after := by
  constructor
  · intro hs outside inside hsplit
    exact hs (event :: outside) inside (by rw [hsplit, List.cons_append])
  · intro hs outside inside hsplit
    cases outside with
    | nil => exact absurd (List.cons.inj hsplit).1 h
    | cons first outside => exact hs outside inside (List.cons.inj hsplit).2

/-- An opened transaction is one of those around what comes after it. -/
theorem survives_begin {before after : List Event} :
    Survives (.begin :: before) after ↔
      (closing 0 before = none → closing 0 (before ++ after) = some true) ∧
        Survives before after := by
  constructor
  · intro hs
    refine ⟨hs [] before rfl, ?_⟩
    intro outside inside hsplit
    exact hs (.begin :: outside) inside (by rw [hsplit, List.cons_append])
  · rintro ⟨hfirst, hs⟩ outside inside hsplit
    cases outside with
    | nil =>
      obtain rfl := (List.cons.inj hsplit).2
      exact hfirst
    | cons event outside => exact hs outside inside (List.cons.inj hsplit).2

theorem not_enters_nil : ¬ Enters last count [] d := by
  rintro ⟨before, after, hsplit, -⟩
  simp at hsplit

theorem not_rises_nil : ¬ Rises layers [] d := by
  rintro ⟨i, layer, hlayer, -, hkept⟩
  have hlt : i < layers.length := (List.getElem?_eq_some_iff.1 hlayer).1
  have hclosed := hkept i (Nat.le_refl i) hlt
  simp [closing] at hclosed

theorem not_rises_of_no_layers : ¬ Rises [] events d := by
  rintro ⟨i, layer, hlayer, -⟩
  cases hlayer

theorem enters_insert {name : String} {type : Slot Ty} :
    Enters last count (.insert name type :: events) d ↔
      (d = ⟨⟨last + 1⟩, name, type⟩ ∧ ∀ j < count, closing j events = some true) ∨
        Enters (last + 1) count events d := by
  constructor
  · rintro ⟨before, after, hsplit, hid, hout, hs⟩
    cases before with
    | nil =>
      obtain ⟨hevent, rfl⟩ := List.cons.inj hsplit
      obtain ⟨rfl, rfl⟩ := Event.insert.inj hevent
      refine .inl ⟨?_, fun j hj => hout j hj rfl⟩
      obtain ⟨id, name, type⟩ := d
      exact congrArg (fun id => (⟨id, name, type⟩ : Declaration)) hid
    | cons event before =>
      obtain ⟨rfl, rfl⟩ := List.cons.inj hsplit
      refine .inr ⟨before, after, rfl, ?_, hout, (survives_cons (by simp)).1 hs⟩
      rw [hid, inserts]
      congr 1
      omega
  · rintro (⟨rfl, hkept⟩ | ⟨before, after, rfl, hid, hout, hs⟩)
    · refine ⟨[], events, rfl, rfl, fun j hj _ => hkept j hj, ?_⟩
      intro outside inside hsplit
      simp at hsplit
    · refine ⟨.insert name type :: before, after, rfl, ?_, hout, (survives_cons (by simp)).2 hs⟩
      rw [hid, inserts]
      congr 1
      omega

theorem enters_begin :
    Enters last count (.begin :: events) d ↔ Enters last (count + 1) events d := by
  constructor
  · rintro ⟨before, after, hsplit, hid, hout, hs⟩
    cases before with
    | nil => cases (List.cons.inj hsplit).1
    | cons event before =>
      obtain ⟨rfl, rfl⟩ := List.cons.inj hsplit
      obtain ⟨hfirst, hrest⟩ := survives_begin.1 hs
      refine ⟨before, after, rfl, hid, ?_, hrest⟩
      -- the new transaction is the innermost one, and the others are one further out
      rintro (_ | j) hj
      · exact hfirst
      · exact hout j (by omega)
  · rintro ⟨before, after, rfl, hid, hout, hs⟩
    refine ⟨.begin :: before, after, rfl, hid, ?_, ?_⟩
    · exact fun j hj => hout (j + 1) (by omega)
    · exact survives_begin.2 ⟨hout 0 (by omega), hs⟩

theorem enters_close {kept : Bool} :
    Enters last count (.close kept :: events) d ↔ Enters last (count - 1) events d := by
  constructor
  · rintro ⟨before, after, hsplit, hid, hout, hs⟩
    cases before with
    | nil => cases (List.cons.inj hsplit).1
    | cons event before =>
      obtain ⟨rfl, rfl⟩ := List.cons.inj hsplit
      refine ⟨before, after, rfl, hid, ?_, (survives_cons (by simp)).1 hs⟩
      exact fun j hj => hout (j + 1) (by omega)
  · rintro ⟨before, after, rfl, hid, hout, hs⟩
    refine ⟨.close kept :: before, after, rfl, hid, ?_, (survives_cons (by simp)).2 hs⟩
    rintro (_ | j) hj hopen
    · -- the innermost transaction is closed before the declaration is entered
      cases hopen
    · exact hout j (by omega) hopen

theorem rises_insert (name : String) (type : Slot Ty) {new : Declaration} :
    Rises ((layer ++ [new]) :: layers) events d ↔
      Rises (layer :: layers) (.insert name type :: events) d ∨
        d = new ∧ ∀ j < layers.length + 1, closing j events = some true := by
  constructor
  · rintro ⟨_ | i, l, hl, hd, hkept⟩
    · cases hl
      obtain hold | hnew := List.mem_append.1 hd
      · exact .inl ⟨0, layer, rfl, hold, hkept⟩
      · exact .inr ⟨List.mem_singleton.1 hnew, fun j hj => hkept j (Nat.zero_le j) hj⟩
    · exact .inl ⟨i + 1, l, hl, hd, hkept⟩
  · rintro (⟨_ | i, l, hl, hd, hkept⟩ | ⟨rfl, hkept⟩)
    · cases hl
      exact ⟨0, _, rfl, List.mem_append_left _ hd, hkept⟩
    · exact ⟨i + 1, l, hl, hd, hkept⟩
    · exact ⟨0, _, rfl, by simp, fun j _ hj => hkept j hj⟩

theorem rises_begin : Rises ([] :: layers) events d ↔ Rises layers (.begin :: events) d := by
  constructor
  · rintro ⟨_ | i, l, hl, hd, hkept⟩
    · cases hl
      cases hd
    · exact ⟨i, l, hl, hd, fun j hij hj => hkept (j + 1) (by omega) (Nat.succ_lt_succ hj)⟩
  · rintro ⟨i, l, hl, hd, hkept⟩
    refine ⟨i + 1, l, hl, hd, ?_⟩
    rintro (_ | j) hij hj
    · omega
    · exact hkept j (by omega) (Nat.lt_of_succ_lt_succ hj)

theorem rises_abort :
    Rises (layer :: layers) (.close false :: events) d ↔ Rises layers events d := by
  constructor
  · rintro ⟨_ | i, l, hl, hd, hkept⟩
    · -- the innermost transaction is aborted
      have hfirst := hkept 0 (Nat.le_refl 0) (Nat.succ_pos _)
      cases hfirst
    · exact ⟨i, l, hl, hd, fun j hij hj => hkept (j + 1) (by omega) (Nat.succ_lt_succ hj)⟩
  · rintro ⟨i, l, hl, hd, hkept⟩
    refine ⟨i + 1, l, hl, hd, ?_⟩
    rintro (_ | j) hij hj
    · omega
    · exact hkept j (by omega) (Nat.lt_of_succ_lt_succ hj)

theorem rises_commit_last : Rises [layer] (.close true :: events) d ↔ d ∈ layer := by
  constructor
  · rintro ⟨_ | i, l, hl, hd, -⟩
    · cases hl
      exact hd
    · cases hl
  · intro hd
    refine ⟨0, layer, rfl, hd, ?_⟩
    rintro (_ | j) - hj
    · rfl
    · simp at hj

theorem rises_commit {outer : List Declaration} :
    Rises (layer :: outer :: layers) (.close true :: events) d ↔
      Rises ((outer ++ layer) :: layers) events d := by
  constructor
  · rintro ⟨_ | _ | i, l, hl, hd, hkept⟩
    · cases hl
      refine ⟨0, _, rfl, List.mem_append_right _ hd, fun j _ hj => ?_⟩
      exact hkept (j + 1) (Nat.zero_le _) (Nat.succ_lt_succ hj)
    · cases hl
      refine ⟨0, _, rfl, List.mem_append_left _ hd, fun j _ hj => ?_⟩
      exact hkept (j + 1) (by omega) (Nat.succ_lt_succ hj)
    · refine ⟨i + 1, l, hl, hd, fun j hij hj => ?_⟩
      exact hkept (j + 1) (by omega) (Nat.succ_lt_succ hj)
  · rintro ⟨_ | i, l, hl, hd, hkept⟩
    · cases hl
      have hall : ∀ j < layers.length + 2, closing j (.close true :: events) = some true := by
        rintro (_ | j) hj
        · rfl
        · exact hkept j (Nat.zero_le _) (Nat.lt_of_succ_lt_succ hj)
      obtain houter | hlayer := List.mem_append.1 hd
      · exact ⟨1, outer, rfl, houter, fun j _ hj => hall j hj⟩
      · exact ⟨0, layer, rfl, hlayer, fun j _ hj => hall j hj⟩
    · refine ⟨i + 2, l, hl, hd, ?_⟩
      rintro (_ | j) hij hj
      · omega
      · exact hkept j (by omega) (Nat.lt_of_succ_lt_succ hj)

end

/-- What is committed after the events was committed before, or it was staged and all layers from
its own on are committed, or it is entered and outlives all transactions around it. -/
theorem mem_committed_play (events : List Event) (r : Registry) (d : Declaration) :
    d ∈ (r.play events).committed ↔
      d ∈ r.committed ∨ Rises r.layers events d ∨
        Enters r.lastNumber r.layers.length events d := by
  induction events generalizing r with
  | nil => simp [not_rises_nil, not_enters_nil]
  | cons event events ih =>
    obtain ⟨last, committed, layers⟩ := r
    rw [play_cons, ih]
    cases event with
    | insert name type =>
      cases layers with
      | nil =>
        have hstep : step ⟨last, committed, []⟩ (.insert name type) =
            ⟨last + 1, committed ++ [⟨⟨last + 1⟩, name, type⟩], []⟩ := rfl
        rw [hstep, enters_insert]
        simp [not_rises_of_no_layers, or_assoc]
      | cons layer outer =>
        have hstep : step ⟨last, committed, layer :: outer⟩ (.insert name type) =
            ⟨last + 1, committed, (layer ++ [⟨⟨last + 1⟩, name, type⟩]) :: outer⟩ := rfl
        rw [hstep, enters_insert]
        simp only [rises_insert name type, List.length_cons, or_assoc]
    | begin =>
      have hstep : step ⟨last, committed, layers⟩ .begin = ⟨last, committed, [] :: layers⟩ := rfl
      rw [hstep, enters_begin]
      simp only [rises_begin, List.length_cons]
    | close kept =>
      rw [enters_close]
      cases layers with
      | nil =>
        have hstep : step ⟨last, committed, []⟩ (.close kept) = ⟨last, committed, []⟩ := by
          cases kept <;> rfl
        rw [hstep]
        simp [not_rises_of_no_layers]
      | cons layer outer =>
        cases kept with
        | false =>
          have hstep : step ⟨last, committed, layer :: outer⟩ (.close false) =
              ⟨last, committed, outer⟩ := rfl
          rw [hstep, rises_abort]
          rfl
        | true =>
          cases outer with
          | nil =>
            have hstep : step ⟨last, committed, [layer]⟩ (.close true) =
                ⟨last, committed ++ layer, []⟩ := rfl
            rw [hstep, rises_commit_last]
            simp [not_rises_of_no_layers, or_assoc]
          | cons around outer =>
            have hstep : step ⟨last, committed, layer :: around :: outer⟩ (.close true) =
                ⟨last, committed, (around ++ layer) :: outer⟩ := rfl
            rw [hstep, rises_commit]
            rfl

/-- A transaction that is open after the events was open before and has not been closed, or one of
the events opened it. -/
theorem exists_open_of_layers (events : List Event) (r : Registry)
    (h : (r.play events).layers ≠ []) :
    (∃ j < r.layers.length, closing j events = none) ∨
      ∃ outside inside, events = outside ++ .begin :: inside ∧ closing 0 inside = none := by
  induction events generalizing r with
  | nil => exact .inl ⟨0, List.length_pos_iff.2 h, rfl⟩
  | cons event events ih =>
    have hopened : (∃ outside inside, events = outside ++ .begin :: inside ∧
        closing 0 inside = none) → ∃ outside inside,
          event :: events = outside ++ .begin :: inside ∧ closing 0 inside = none := by
      rintro ⟨outside, inside, rfl, hopen⟩
      exact ⟨event :: outside, inside, rfl, hopen⟩
    refine (ih (r.step event) h).elim ?_ fun hlater => .inr (hopened hlater)
    rintro ⟨j, hj, hopen⟩
    cases event with
    | insert name type =>
      have hlength : (r.insert name type).2.layers.length = r.layers.length := by
        unfold insert
        cases r.layers <;> rfl
      exact .inl ⟨j, hlength ▸ hj, hopen⟩
    | begin =>
      cases j with
      | zero => exact .inr ⟨[], events, rfl, hopen⟩
      | succ j => exact .inl ⟨j, Nat.lt_of_succ_lt_succ hj, hopen⟩
    | close kept =>
      have hlength : (r.finish kept).layers.length = r.layers.length - 1 := by
        obtain ⟨last, committed, layers⟩ := r
        cases kept with
        | false => simp [finish, abort]
        | true => rcases layers with _ | ⟨layer, _ | ⟨outer, rest⟩⟩ <;> simp [finish, commit]
      replace hj : j < (r.finish kept).layers.length := hj
      exact .inl ⟨j + 1, by omega, hopen⟩

/-! ## The order of the declarations -/

/-- The declarations were entered in the order of their numbers, and none has a number that was not
handed out yet. -/
structure Ordered (r : Registry) : Prop where
  increasing : (r.entries.map fun d => d.id.number).Pairwise (· < ·)
  upTo : ∀ d ∈ r.entries, d.id.number ≤ r.lastNumber

theorem Ordered.of_sublist {r t : Registry} (h : r.Ordered) (hentries : t.entries.Sublist r.entries)
    (hlast : t.lastNumber = r.lastNumber) : t.Ordered where
  increasing := h.increasing.sublist (hentries.map _)
  upTo d hd := hlast ▸ h.upTo d (hentries.subset hd)

theorem Ordered.step {r : Registry} (h : r.Ordered) (event : Event) : (r.step event).Ordered := by
  cases event with
  | begin => exact h.of_sublist (by simp [Registry.step]) rfl
  | close kept =>
    cases kept with
    | true => exact h.of_sublist (by simp [Registry.step, finish]) r.lastNumber_commit
    | false => exact h.of_sublist r.entries_abort_sublist rfl
  | insert name type =>
    have hnumber := r.number_insert name type
    have hlast : (r.insert name type).2.lastNumber = r.lastNumber + 1 :=
      r.lastNumber_step (.insert name type)
    have hentries := r.entries_insert name type
    refine ⟨?_, ?_⟩
    · show ((r.insert name type).2.entries.map fun d => d.id.number).Pairwise (· < ·)
      rw [hentries, List.map_append, List.pairwise_append]
      refine ⟨h.increasing, List.pairwise_singleton _ _, ?_⟩
      intro a ha b hb
      obtain ⟨d, hd, rfl⟩ := List.mem_map.1 ha
      obtain rfl : b = r.lastNumber + 1 := by simpa [hnumber] using hb
      exact Nat.lt_succ_of_le (h.upTo d hd)
    · intro d hd
      show d.id.number ≤ (r.insert name type).2.lastNumber
      replace hd : d ∈ (r.insert name type).2.entries := hd
      rw [hentries] at hd
      rw [hlast]
      obtain hold | hnew := List.mem_append.1 hd
      · exact Nat.le_succ_of_le (h.upTo d hold)
      · rw [List.mem_singleton.1 hnew]
        exact Nat.le_of_eq hnumber

theorem Ordered.play {r : Registry} (h : r.Ordered) (events : List Event) :
    (r.play events).Ordered := by
  induction events generalizing r with
  | nil => exact h
  | cons event events ih => exact ih (h.step event)

/-- Every registry that comes from an empty one lists its declarations in the order of their
numbers. -/
theorem committed_increasing (events : List Event) :
    ((empty.play events).committed.map fun d => d.id.number).Pairwise (· < ·) := by
  have hempty : empty.Ordered := ⟨.nil, fun _ hd => nomatch hd⟩
  have hplay := hempty.play events
  refine hplay.increasing.sublist (List.Sublist.map _ ?_)
  exact List.sublist_append_left _ _

/-! ## The law -/

/-- What is committed after a history that began with an empty registry. -/
theorem mem_committed_play_empty (events : List Event) (d : Declaration) :
    d ∈ (empty.play events).committed ↔
      ∃ before after, events = before ++ .insert d.name d.type :: after ∧
        d.id = ⟨inserts before + 1⟩ ∧ Survives before (.insert d.name d.type :: after) := by
  rw [mem_committed_play]
  have hnone : ¬ Rises empty.layers events d := not_rises_of_no_layers
  have hcommitted : d ∉ empty.committed := by simp [empty]
  simp only [hcommitted, hnone, false_or]
  unfold Enters
  have hlast : empty.lastNumber = 0 := rfl
  have hout : ∀ before after, Outlasts empty.layers.length before after := fun _ _ _ hj => nomatch hj
  simp only [hlast, hout, Nat.zero_add, true_and]

/-- A declaration inside a transaction that was aborted is not committed, whatever happened to the
transactions inside that one. -/
theorem not_committed_of_aborted {events before after outside inside : List Event} {name : String}
    {type : Slot Ty} (hevents : events = before ++ .insert name type :: after)
    (hbefore : before = outside ++ .begin :: inside) (hopen : closing 0 inside = none)
    (haborted : closing 0 (inside ++ .insert name type :: after) = some false) {d : Declaration}
    (hd : d ∈ (empty.play events).committed) : d.id ≠ ⟨inserts before + 1⟩ := by
  intro hid
  obtain ⟨before', after', hevents', hid', hsurvives⟩ := (mem_committed_play_empty events d).1 hd
  have hcount : inserts before = inserts before' := by
    have hnumbers := congrArg DeclId.number (hid.symm.trans hid')
    exact Nat.succ.inj hnumbers
  -- the number says which `insert` it was, so the transaction is one around the declaration
  have hsplit := hevents.symm.trans hevents'
  obtain ⟨rfl, rfl⟩ := insert_unique hsplit hcount
  obtain ⟨rfl, rfl⟩ := Event.insert.inj (List.cons.inj (List.append_cancel_left hsplit)).1
  have hkept := hsurvives outside inside hbefore hopen
  rw [haborted] at hkept
  cases hkept

/-- What a registry makes of any sequence of calls. The declaration that is entered as the `k`-th gets
the number `k`. The committed declarations are those for which every transaction that was open when
they were entered has been closed by a commit since; they have the names and types they were entered
with and are listed in the order of their numbers. Once a transaction around a declaration has been
aborted, no later call commits it. Closing a transaction while none is open changes nothing. -/
theorem performAll_history (calls : List Call) :
    let history := Call.eachEvents calls
    let after := (Call.performAll calls empty).2
    (Call.performAll calls empty).1 = (List.range' 1 (inserts history)).map DeclId.mk ∧
      (∀ d, d ∈ after.committed ↔
        ∃ earlier later, history = earlier ++ .insert d.name d.type :: later ∧
          d.id = ⟨inserts earlier + 1⟩ ∧ Survives earlier (.insert d.name d.type :: later)) ∧
      (after.committed.map fun d => d.id.number).Pairwise (· < ·) ∧
      (∀ earlier name type later outside inside,
        history = earlier ++ .insert name type :: later →
          earlier = outside ++ .begin :: inside → closing 0 inside = none →
            closing 0 (inside ++ .insert name type :: later) = some false →
              ∀ more, ∀ d ∈ (Call.performAll (calls ++ more) empty).2.committed,
                d.id ≠ ⟨inserts earlier + 1⟩) ∧
      ((∀ outside inside, history = outside ++ .begin :: inside → closing 0 inside ≠ none) →
        after.commit = after ∧ after.abort = after) := by
  intro history after
  have hplay : after = empty.play history := congrArg Prod.snd (performAll_eq calls empty)
  refine ⟨congrArg Prod.fst (performAll_eq calls empty), ?_, ?_, ?_, ?_⟩
  · rw [hplay]
    exact mem_committed_play_empty history
  · rw [hplay]
    exact committed_increasing history
  · intro earlier name type later outside inside hhistory hearlier hopen haborted more d hd
    have hmore : Call.eachEvents (calls ++ more) =
        earlier ++ .insert name type :: (later ++ Call.eachEvents more) := by
      have hcalls : Call.eachEvents calls = earlier ++ .insert name type :: later := hhistory
      rw [eachEvents_append, hcalls, List.append_assoc, List.cons_append]
    have hstays : closing 0 (inside ++ .insert name type :: (later ++ Call.eachEvents more)) =
        some false := by
      have happend := closing_append_of_some haborted (Call.eachEvents more)
      rwa [List.append_assoc, List.cons_append] at happend
    rw [performAll_eq] at hd
    exact not_committed_of_aborted hmore hearlier hopen hstays hd
  · intro hclosed
    cases hlayers : after.layers with
    | nil =>
      have hcommit : after.commit = after := by
        unfold commit
        rw [hlayers]
      have habort : after.abort = after := by
        unfold abort
        rw [hlayers, List.tail_nil, ← hlayers]
      exact ⟨hcommit, habort⟩
    | cons layer outer =>
      have hne : (empty.play history).layers ≠ [] := by
        rw [← hplay, hlayers]
        exact List.cons_ne_nil layer outer
      obtain ⟨j, hj, -⟩ | ⟨outside, inside, hsplit, hopen⟩ := exists_open_of_layers history empty hne
      · cases hj
      · exact absurd hopen (hclosed outside inside hsplit)

/-- The transaction inside was committed, and the one around it was aborted. -/
example (type : Slot Ty) :
    (Call.performAll [.insert "a" type, .begin, .run [.insert "b" type] true, .abort,
      .insert "c" type, .commit] empty).2.committed =
        [⟨⟨1⟩, "a", type⟩, ⟨⟨3⟩, "c", type⟩] := rfl

end Registry

end Nominal
