import Nominal.Proofs.Syntax.Course.Agrees

/-!
# Readings end, go forward and leave the level alone

What is read with one level for all (`Course`) is what is read with a room for each level
(`Grammar.inner`): a reading ends, whatever the tokens are, when it is given more readings inside
one another than there are levels left, and more rounds than there are tokens ahead
(`Course.parts_follow`). So from every reader that is reached by steps from the start of a list of
tokens, the parts of a program are read within the list, forward, past a token when there is a
value, and on the level that was there before (`Course.Part.read_balanced`). Whole programs end as
well (`Course.program_ends`).
-/

namespace Nominal

open Parse

namespace Course

variable {α : Type} {rule : Course α} {p : Parse α} {r : Reader} {tokens : List Token} {pos : Nat}
  {n rounds calls : Nat} {takes : Bool}

/-! ## One level further in -/

/-- The level that is entered is left again, whatever came of the reading. -/
theorem nested_follows (hlt : r.depth < r.limit)
    (h : rule.Follows n { r with depth := r.depth + 1 } p takes) :
    (nested rule).Follows n r p takes := by
  intro s hs
  obtain ⟨hagrees, hmoves⟩ := h s hs
  refine ⟨?_, hmoves⟩
  have henter : enter { r with stream := s } =
      some (.ok (), { r with depth := r.depth + 1, stream := s }) := by
    rw [enter, Reader.enter, if_pos hlt]
  refine (bind_of_ok henter).trans ?_
  -- what is read inside keeps the level that was entered, so leaving it gives back `r.depth`
  rw [leaving, hagrees]
  unfold Reader.run
  cases p s with
  | ok a t => rfl
  | error d t => rfl

/-- At the limit nothing is entered, and nothing has to be left. -/
theorem nested_tooDeep (hlimit : ¬ r.depth < r.limit) :
    (nested rule).Follows n r (failWith fun _ => .nestingTooDeep r.limit) takes := by
  intro s hs
  refine ⟨?_, .refl s⟩
  refine bind_of_error ?_
  rw [enter, Reader.enter, if_neg hlimit]
  rfl

/-- The induction is on the readings that may be under way: each takes one level, so with more of
them than levels left the limit stops the reading first. -/
theorem parts_follow (rounds : Nat) (hcalls : r.limit - r.depth < calls) :
    (parts rounds calls).Follow r r.inner := by
  induction calls generalizing r with
  | zero => exact absurd hcalls (Nat.not_lt_zero _)
  | succ calls ih =>
    unfold Reader.inner
    by_cases hlt : r.depth < r.limit
    · -- the hypothesis of the induction is needed for the reader that has entered the level
      have hroom : r.limit - r.depth = r.limit - (r.depth + 1) + 1 := by omega
      have hparts : (parts rounds calls).Follow { r with depth := r.depth + 1 }
          (r.grammar.inner r.limit (r.limit - (r.depth + 1))) :=
        ih (r := { r with depth := r.depth + 1 }) (by dsimp only; omega)
      rw [hroom]
      exact ⟨nested_follows hlt (Parts.stmtAt_follows hparts),
        fun power => nested_follows hlt (Parts.exprAt_follows hparts power),
        nested_follows hlt (Parts.typeAt_follows hparts)⟩
    · have hroom : r.limit - r.depth = 0 := by omega
      rw [hroom]
      exact ⟨nested_tooDeep hlt, fun _ => nested_tooDeep hlt, nested_tooDeep hlt⟩

/-! ## Whole programs -/

theorem program_follows (hdepth : r.depth = 0) (hcalls : r.limit < calls) :
    (program rounds calls).Follows rounds r (r.grammar.program r.limit) false := by
  have hparts : (parts rounds calls).Follow r r.inner := parts_follow rounds (by omega)
  have hstmt := hparts.stmt
  unfold Reader.inner at hstmt
  rw [hdepth, Nat.sub_zero] at hstmt
  refine .look TokenStream.position fun start => (hstmt.repeatUntil _).bind fun body => ?_
  exact .look TokenStream.position fun stop => .pure _

/-- A program of any tokens is read to an end, which is the one that `Grammar.program` comes to, and
then the reader is on the outermost level again. -/
theorem program_ends (g : Grammar) (file : String) (limit : Nat) (tokens : List Token)
    (hcalls : limit < calls) (hrounds : (TokenStream.ofTokens file tokens).size < rounds) :
    program rounds calls (.ofTokens g file limit tokens) =
      some ((Reader.ofTokens g file limit tokens).run (g.program limit)) :=
  (program_follows (r := .ofTokens g file limit tokens) rfl hcalls _
    (TokenStream.ends_ofTokens file tokens hrounds)).agrees

/-! ## Parts of programs -/

/-- The parts of a program that can be read on their own, by the rule for the current token or by a
given one. -/
inductive Part where
  | stmt
  | expr (power : BindingPower)
  | type
  | block
  | signature
  | arguments
  | stmtBy (rule : StmtRule)
  | nudBy (rule : NudRule)
  | ledBy (left : Expr) (power : BindingPower) (rule : LedRule)
  | typeBy (rule : TypeRule)

namespace Part

/-- What there is after the part is read. -/
def Tree : Part → Type
  | stmt | stmtBy _ => Stmt
  | expr _ | nudBy _ | ledBy .. => Expr
  | type | typeBy _ => TypeExpr
  | block => Block
  | signature => Signature
  | arguments => List Expr

/-- Reads the part with a room for each level. -/
def parse (inner : Inner) : (part : Part) → Parse part.Tree
  | stmt => inner.stmt
  | expr power => inner.expr power
  | type => inner.type
  | block => inner.block
  | signature => inner.signature
  | arguments => inner.arguments
  | stmtBy rule => inner.stmtBy rule
  | nudBy rule => inner.nudBy rule
  | ledBy left power rule => inner.ledBy left power rule
  | typeBy rule => inner.typeBy rule

/-- Reads the part with one level for all. -/
def course (parts : Parts) : (part : Part) → Course part.Tree
  | stmt => parts.stmt
  | expr power => parts.expr power
  | type => parts.type
  | block => parts.block
  | signature => parts.signature
  | arguments => parts.arguments
  | stmtBy rule => parts.stmtBy rule
  | nudBy rule => parts.nudBy rule
  | ledBy left power rule => parts.ledBy left power rule
  | typeBy rule => parts.typeBy rule

theorem course_follows {parts : Parts} {inner : Inner} (h : parts.Follow r inner) (part : Part) :
    (part.course parts).Follows parts.rounds r (part.parse inner) true := by
  cases part with
  | stmt => exact h.stmt
  | expr power => exact h.expr power
  | type => exact h.type
  | block => exact Parts.block_follows h
  | signature => exact Parts.signature_follows h
  | arguments => exact Parts.arguments_follows h
  | stmtBy rule => exact Parts.stmtBy_follows h rule
  | nudBy rule => exact Parts.nudBy_follows h rule
  | ledBy left power rule => exact Parts.ledBy_follows h left power rule
  | typeBy rule => exact Parts.typeBy_follows h rule

end Part

end Course

/-! ## Readers on their way -/

namespace Reader

variable {α : Type} {p : Parse α} {r : Reader} {tokens : List Token} {pos : Nat} {takes : Bool}

/-- The readers that steps lead to from the start of `tokens`: the limit is set, a token is passed,
a level is entered or left, a part is read or stopped at. A token that is expected is passed or
nothing happens. -/
inductive Reachable (tokens : List Token) : Reader → Prop
  | start (g : Grammar) (file : String) (limit : Nat) :
      Reachable tokens (.ofTokens g file limit tokens)
  | limited {r : Reader} (limit : Nat) (hr : Reachable tokens r) : Reachable tokens { r with limit }
  | passed {r : Reader} (hr : Reachable tokens r) : Reachable tokens (r.run advance).2
  | entered {r : Reader} (hr : Reachable tokens r) : Reachable tokens r.enter.2
  | left {r : Reader} (hr : Reachable tokens r) : Reachable tokens r.leave
  | read {r : Reader} (part : Course.Part) (hr : Reachable tokens r) :
      Reachable tokens (r.run (part.parse r.inner)).2

/-- The reader is at the token with `pos` tokens before it. There are such places for the `tokens`
and for the end token after them, unless they have one. -/
def StandsAt (r : Reader) (tokens : List Token) (pos : Nat) : Prop :=
  pos ≤ (TokenStream.ofTokens r.file tokens).size ∧
    r.stream = (TokenStream.ofTokens r.file tokens).behind pos

theorem StandsAt.ends (h : r.StandsAt tokens pos) {n : Nat} (hn : r.stream.size < n) :
    r.stream.Ends n := by
  refine ⟨hn, ?_⟩
  rw [h.2]
  exact ((TokenStream.ends_ofTokens r.file tokens (Nat.lt_succ_self _)).behind pos).last

/-- Reading changes the stream and nothing else. -/
theorem run_stream (r : Reader) (p : Parse α) :
    (r.run p).2 = { r with stream := (r.run p).2.stream } := by
  unfold run
  split
  · rfl
  · rfl

/-- A reader of streams that goes onward stays within the tokens. -/
theorem StandsAt.run (h : r.StandsAt tokens pos) (hmoves : p.MovesAt r.stream takes) :
    ∃ pos', (r.run p).2.StandsAt tokens pos' ∧ pos ≤ pos' ∧
      (takes → (r.run p).1.isOk → pos < pos') := by
  obtain ⟨hpos, hstream⟩ := h
  have hsize : r.stream.size = (TokenStream.ofTokens r.file tokens).size - pos := by
    rw [hstream, TokenStream.size_behind]
  have hbehind (n : Nat) :
      r.stream.behind n = (TokenStream.ofTokens r.file tokens).behind (pos + n) := by
    rw [hstream, TokenStream.behind_add]
  unfold MovesAt at hmoves
  unfold Reader.run
  cases hp : p r.stream with
  | ok a t =>
    rw [hp] at hmoves
    obtain ⟨⟨n, hn, rfl⟩, htaken⟩ := hmoves
    refine ⟨pos + n, ⟨by dsimp only; omega, hbehind n⟩, Nat.le_add_right _ _, fun htakes _ => ?_⟩
    have := htaken htakes
    rw [TokenStream.size_behind] at this
    omega
  | error d t =>
    rw [hp] at hmoves
    obtain ⟨n, hn, rfl⟩ := hmoves
    refine ⟨pos + n, ⟨by dsimp only; omega, hbehind n⟩, Nat.le_add_right _ _, fun _ hok => ?_⟩
    cases hok

/-- No step leads out of the tokens. -/
theorem Reachable.stands (hr : r.Reachable tokens) : ∃ pos, r.StandsAt tokens pos := by
  induction hr with
  | start g file limit => exact ⟨0, Nat.zero_le _, rfl⟩
  | limited limit hr ih => exact ih
  | @passed r hr ih =>
    obtain ⟨pos, hpos⟩ := ih
    have hfollows := Course.follows_advance (r := r) r.stream (hpos.ends (Nat.lt_succ_self _))
    obtain ⟨pos', hpos', -⟩ := hpos.run hfollows.moves
    exact ⟨pos', hpos'⟩
  | entered hr ih =>
    unfold enter
    split
    · exact ih
    · exact ih
  | left hr ih => exact ih
  | @read r part hr ih =>
    obtain ⟨pos, hpos⟩ := ih
    have hparts := Course.parts_follow (r := r) (r.stream.size + 1) (Nat.lt_succ_self _)
    have hends := hpos.ends (Nat.lt_succ_self _)
    obtain ⟨pos', hpos', -⟩ := hpos.run (part.course_follows hparts _ hends).moves
    exact ⟨pos', hpos'⟩

end Reader

/-- From every reader on its way through `tokens`, reading a part comes to an end, with a value or a
diagnostic, and the same one that is read with a room for each level. All but the stream is then as
it was, the level with the rest. The stream stands within the tokens, nowhere before the place where
it was, and behind it if there is a value. -/
theorem Course.Part.read_balanced {r : Reader} {tokens : List Token} (part : Course.Part)
    (hr : r.Reachable tokens) :
    ∃ (outcome : Except Diagnostic part.Tree) (after : Reader) (pos pos' : Nat),
      r.run (part.parse r.inner) = (outcome, after) ∧
      (∀ rounds calls, r.stream.size < rounds → r.limit - r.depth < calls →
        part.course (Course.parts rounds calls) r = some (outcome, after)) ∧
      after = { r with stream := after.stream } ∧
      r.StandsAt tokens pos ∧ after.StandsAt tokens pos' ∧ pos ≤ pos' ∧
      (outcome.isOk → pos < pos') := by
  obtain ⟨pos, hpos⟩ := hr.stands
  have hfollows (rounds calls : Nat) (hrounds : r.stream.size < rounds)
      (hcalls : r.limit - r.depth < calls) :=
    part.course_follows (Course.parts_follow rounds hcalls) r.stream (hpos.ends hrounds)
  -- how the stream moves does not depend on the rounds and calls that are given
  have hmoves := (hfollows _ _ (Nat.lt_succ_self _) (Nat.lt_succ_self _)).moves
  obtain ⟨pos', hpos', hle, hlt⟩ := hpos.run hmoves
  refine ⟨_, _, pos, pos', rfl, ?_, r.run_stream _, hpos, hpos', hle, hlt rfl⟩
  exact fun rounds calls hrounds hcalls => (hfollows rounds calls hrounds hcalls).agrees

/-- A block that an end token interrupts. -/
def interruptedTokens : List Token :=
  [(.openCurly, "\x7b"), (.identifier, "a"), (.eof, "EOF"), (.closeCurly, "\x7d")].map
    fun (kind, value) => ⟨kind, value, .empty (.first "main")⟩

theorem Course.Part.read_balanced_interruptedTokens :
    ∃ r : Reader, r = (Reader.ofTokens .standard "main" 3 interruptedTokens).enter.2 ∧
      r.Reachable interruptedTokens ∧ r.depth = 1 ∧
      ∃ (outcome : Except Diagnostic Block) (after : Reader) (pos pos' : Nat),
        r.run r.inner.block = (outcome, after) ∧
        (∀ rounds calls, r.stream.size < rounds → r.limit - r.depth < calls →
          (Course.parts rounds calls).block r = some (outcome, after)) ∧
        after = { r with stream := after.stream } ∧
        r.StandsAt interruptedTokens pos ∧ after.StandsAt interruptedTokens pos' ∧ pos ≤ pos' ∧
        (outcome.isOk → pos < pos') :=
  have hr := (Reader.Reachable.start .standard "main" 3).entered
  ⟨_, rfl, hr, rfl, Course.Part.read_balanced .block hr⟩

end Nominal
