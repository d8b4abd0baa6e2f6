import Nominal.Proofs.Syntax.Course.Rules
import Nominal.Proofs.Syntax.Gives

/-!
# Courses that follow readers of streams

A `Parse` sees the stream alone and says how far it got. A course follows it (`Course.Follows`) when
it comes to an end with the same outcome, on the same stream, and with all else in the reader as it
was, and both move onward through the tokens, past one of them if that is asked for. An item of a
repetition takes a token before the end token or stops. So with more rounds than tokens ahead no
repetition runs out of them, and the readers of streams never stop one for want of tokens. Each way
of putting courses together follows the same way of putting readers of streams together.
-/

namespace Nominal

open Parse

namespace TokenStream

variable {s t u : TokenStream} {n : Nat}

/-- The stream behind its next `n` tokens, or at its last token if there are fewer. -/
def behind (s : TokenStream) : Nat → TokenStream
  | 0 => s
  | n + 1 => s.next.behind n

/-- Fewer than `n` tokens are ahead of the current one, and the last token is an end token. -/
structure Ends (s : TokenStream) (n : Nat) : Prop where
  size_lt : s.size < n
  last : (s.ahead.getLastD s.current).kind = .eof

/-- From `s` to `t` tokens have been passed, perhaps none. -/
def Onward (s t : TokenStream) : Prop :=
  ∃ n ≤ s.size, t = s.behind n

theorem size_next (s : TokenStream) : s.next.size = s.size - 1 := by
  unfold next
  split
  · next hnil => rw [s.size_eq, hnil, List.length_nil]
  · rfl

theorem size_behind (s : TokenStream) (n : Nat) : (s.behind n).size = s.size - n := by
  induction n generalizing s with
  | zero => rfl
  | succ n ih =>
    rw [behind, ih, size_next]
    omega

theorem behind_add (s : TokenStream) (m n : Nat) : s.behind (m + n) = (s.behind m).behind n := by
  induction m generalizing s with
  | zero => rw [Nat.zero_add, behind]
  | succ m ih => rw [Nat.succ_add, behind, ih, behind]

/-- Before the end token there are tokens ahead, and one less behind the current one. -/
theorem Ends.size_next_lt (h : s.Ends n) (hk : s.kind ≠ .eof) : s.next.size < s.size := by
  rw [size_next]
  refine Nat.sub_lt ?_ Nat.one_pos
  rw [s.size_eq]
  cases hahead : s.ahead with
  | cons t ts => exact Nat.succ_pos _
  | nil =>
    have hlast := h.last
    rw [hahead] at hlast
    exact absurd hlast hk

theorem Ends.next (h : s.Ends n) : s.next.Ends n := by
  refine ⟨Nat.lt_of_le_of_lt s.size_next_le h.size_lt, ?_⟩
  have hlast := h.last
  unfold TokenStream.next
  split
  · exact hlast
  · next t ts hahead => rwa [hahead, List.getLastD_cons] at hlast

theorem Ends.behind (h : s.Ends n) (m : Nat) : (s.behind m).Ends n := by
  induction m generalizing s with
  | zero => exact h
  | succ m ih => exact ih h.next

theorem ends_ofTokens (file : String) (tokens : List Token)
    (hn : (ofTokens file tokens).size < n) : (ofTokens file tokens).Ends n := by
  refine ⟨hn, ?_⟩
  cases tokens with
  | nil => rfl
  | cons t ts =>
    unfold ofTokens
    dsimp only
    split
    · assumption
    · rw [List.getLastD_concat]
      rfl

theorem Onward.refl (s : TokenStream) : s.Onward s :=
  ⟨0, Nat.zero_le _, rfl⟩

theorem Onward.trans (h : s.Onward t) (h' : t.Onward u) : s.Onward u := by
  obtain ⟨m, hm, rfl⟩ := h
  obtain ⟨n, hn, rfl⟩ := h'
  rw [size_behind] at hn
  exact ⟨m + n, by omega, (behind_add s m n).symm⟩

theorem Onward.size_le (h : s.Onward t) : t.size ≤ s.size := by
  obtain ⟨n, -, rfl⟩ := h
  rw [size_behind]
  exact Nat.sub_le _ _

theorem Ends.onward (h : s.Ends n) (hon : s.Onward t) : t.Ends n := by
  obtain ⟨m, -, rfl⟩ := hon
  exact h.behind m

theorem onward_next (s : TokenStream) : s.Onward s.next := by
  by_cases hsize : s.size = 0
  · refine ⟨0, Nat.zero_le _, ?_⟩
    rw [s.size_eq, List.length_eq_zero_iff] at hsize
    unfold next
    split
    · rfl
    · next hahead => cases hsize.symm.trans hahead
  · exact ⟨1, Nat.pos_of_ne_zero hsize, rfl⟩

end TokenStream

namespace Parse

variable {α : Type}

/-- From `s` the reader goes onward, and past a token if it `takes` one and gives a value. -/
def MovesAt (p : Parse α) (s : TokenStream) (takes : Bool) : Prop :=
  match p s with
  | .ok _ t => s.Onward t ∧ (takes → t.size < s.size)
  | .error _ t => s.Onward t

end Parse

namespace Course

variable {α β : Type} {q q' : Course α} {p p' : Parse α} {f : α → Course β} {f' : α → Parse β}
  {r : Reader} {s : TokenStream} {n : Nat} {takes : Bool}

/-- The reader `r` at the stream `s` becomes what reading `s` by `p` makes of it: its stream moves
on and all else stays. -/
structure FollowsAt (q : Course α) (r : Reader) (p : Parse α) (s : TokenStream) (takes : Bool) :
    Prop where
  agrees : q { r with stream := s } = some ({ r with stream := s }.run p)
  moves : p.MovesAt s takes

/-- The same at each stream with fewer than `n` tokens ahead and an end token as the last. -/
def Follows (q : Course α) (n : Nat) (r : Reader) (p : Parse α) (takes : Bool) : Prop :=
  ∀ s : TokenStream, s.Ends n → q.FollowsAt r p s takes

/-! ## One after the other -/

theorem bind_of_ok {a : α} {after : Reader} (h : q r = some (.ok a, after)) :
    (q >>= f) r = f a after := by
  show Option.bind (q r) _ = _
  rw [h]
  rfl

theorem bind_of_error {d : Diagnostic} {after : Reader} (h : q r = some (.error d, after)) :
    (q >>= f) r = some (.error d, after) := by
  show Option.bind (q r) _ = _
  rw [h]
  rfl

theorem FollowsAt.weaken (h : q.FollowsAt r p s true) : q.FollowsAt r p s takes := by
  refine ⟨h.agrees, ?_⟩
  have hmoves := h.moves
  unfold MovesAt at hmoves ⊢
  split
  · next a t hp =>
    rw [hp] at hmoves
    exact ⟨hmoves.1, fun _ => hmoves.2 rfl⟩
  · next d t hp => rwa [hp] at hmoves

/-- What is read after the first part starts where that one has stopped. The whole takes a token
when one of the two does. -/
theorem FollowsAt.bind (first rest : Bool) (htakes : takes → first ∨ rest)
    (h : q.FollowsAt r p s first)
    (hf : ∀ a t, s.Onward t → (first → t.size < s.size) → (f a).FollowsAt r (f' a) t rest) :
    (q >>= f).FollowsAt r (p >>= f') s takes := by
  obtain ⟨hagrees, hmoves⟩ := h
  unfold Reader.run at hagrees
  unfold MovesAt at hmoves
  cases hp : p s with
  | error d t =>
    -- a diagnostic of the first part is that of the whole; the rest is not read
    rw [hp] at hagrees hmoves
    have hbind : (p >>= f') s = .error d t := by
      show EStateM.bind p f' s = _
      rw [EStateM.bind, hp]
    refine ⟨?_, ?_⟩
    · rw [bind_of_error hagrees, Reader.run, hbind]
    · rwa [MovesAt, hbind]
  | ok a t =>
    rw [hp] at hagrees hmoves
    obtain ⟨hon, htaken⟩ := hmoves
    obtain ⟨hagrees', hmoves'⟩ := hf a t hon htaken
    have hbind : (p >>= f') s = f' a t := by
      show EStateM.bind p f' s = _
      rw [EStateM.bind, hp]
    refine ⟨?_, ?_⟩
    · rw [bind_of_ok hagrees, hagrees', Reader.run, Reader.run, hbind]
    · unfold MovesAt at hmoves' ⊢
      rw [hbind]
      cases hrest : f' a t with
      | error d u =>
        rw [hrest] at hmoves'
        exact hon.trans hmoves'
      | ok b u =>
        rw [hrest] at hmoves'
        refine ⟨hon.trans hmoves'.1, fun h => ?_⟩
        have hle := hon.size_le
        have hle' := hmoves'.1.size_le
        obtain hfirst | hrest := htakes h
        · have := htaken hfirst
          omega
        · have := hmoves'.2 hrest
          omega

theorem Follows.bind (h : q.Follows n r p false) (hf : ∀ a, (f a).Follows n r (f' a) takes) :
    (q >>= f).Follows n r (p >>= f') takes := fun s hs =>
  .bind false takes .inr (h s hs) fun a t hon _ => hf a t (hs.onward hon)

/-- After a part that takes a token, what comes next need not take another. -/
theorem FollowsAt.andThen (hs : s.Ends n) (h : q.FollowsAt r p s true)
    (hf : ∀ a, (f a).Follows n r (f' a) false) : (q >>= f).FollowsAt r (p >>= f') s takes :=
  .bind true false (fun _ => .inl rfl) h fun a t hon _ => hf a t (hs.onward hon)

theorem Follows.andThen (h : q.Follows n r p true) (hf : ∀ a, (f a).Follows n r (f' a) false) :
    (q >>= f).Follows n r (p >>= f') takes := fun s hs =>
  .andThen hs (h s hs) hf

theorem FollowsAt.pure (a : α) : FollowsAt (Pure.pure a) r (Pure.pure a) s false :=
  ⟨rfl, .refl s, nofun⟩

theorem Follows.pure (a : α) : Follows (Pure.pure a) n r (Pure.pure a) false :=
  fun _ _ => .pure a

theorem FollowsAt.map (h : q.FollowsAt r p s takes) (g : α → β) :
    (g <$> q).FollowsAt r (g <$> p) s takes := by
  rw [map_eq_pure_bind, map_eq_pure_bind]
  exact .bind takes false .inl h fun _ _ _ _ => .pure _

theorem Follows.map (h : q.Follows n r p takes) (g : α → β) :
    (g <$> q).Follows n r (g <$> p) takes :=
  fun s hs => (h s hs).map g

theorem Follows.ite {c : Prop} [Decidable c] (h : q.Follows n r p takes)
    (h' : q'.Follows n r p' takes) :
    (if c then q else q').Follows n r (if c then p else p') takes := by
  split
  · exact h
  · exact h'

/-! ## Parts that read from the stream alone -/

/-- After a look at the stream, what matters is how the reading goes on. -/
theorem FollowsAt.look (v : TokenStream → α) (h : (f (v s)).FollowsAt r (f' (v s)) s takes) :
    FollowsAt (ofParse (fun s => .ok (v s) s) >>= f) r
      ((fun s => .ok (v s) s : Parse α) >>= f') s takes :=
  ⟨h.agrees, h.moves⟩

theorem Follows.look (v : TokenStream → α) (hf : ∀ a, (f a).Follows n r (f' a) takes) :
    Follows (ofParse (fun s => .ok (v s) s) >>= f) n r
      ((fun s => .ok (v s) s : Parse α) >>= f') takes :=
  fun s hs => .look v (hf (v s) s hs)

theorem FollowsAt.advance (hs : s.Ends n) (hk : s.kind ≠ .eof) :
    FollowsAt (ofParse Parse.advance) r Parse.advance s true :=
  ⟨rfl, s.onward_next, fun _ => hs.size_next_lt hk⟩

theorem follows_advance : Follows (ofParse Parse.advance) n r Parse.advance false :=
  fun s _ => ⟨rfl, s.onward_next, nofun⟩

theorem follows_failWith (cause : Token → Cause) :
    Follows (ofParse (failWith cause : Parse α)) n r (failWith cause) takes :=
  fun s _ => ⟨rfl, .refl s⟩

theorem follows_expectOr {k : Kind} {cause : Token → Cause} (hk : k ≠ .eof) :
    Follows (ofParse (expectOr k (failWith cause))) n r (expectOr k (failWith cause)) true := by
  intro s hs
  refine ⟨rfl, ?_⟩
  have hexpect : expectOr k (failWith cause) s =
      (if s.kind = k then Parse.advance else failWith cause) s := rfl
  unfold MovesAt
  rw [hexpect]
  by_cases hkind : s.kind = k
  · rw [if_pos hkind]
    exact ⟨s.onward_next, fun _ => hs.size_next_lt (hkind ▸ hk)⟩
  · rw [if_neg hkind]
    exact .refl s

theorem follows_expect {k : Kind} (hk : k ≠ .eof) :
    Follows (ofParse (expect k)) n r (expect k) true :=
  follows_expectOr hk

theorem follows_expectDetailed {k : Kind} (detail : String) (hk : k ≠ .eof) :
    Follows (ofParse (expectDetailed k detail)) n r (expectDetailed k detail) true :=
  follows_expectOr hk

/-- The span of what was read is the last thing that a rule looks for. -/
theorem follows_spanFrom (start : Position) (make : Span → α) :
    Follows (ofParse (spanFrom start) >>= fun span => Pure.pure (make span)) n r
      (spanFrom start >>= fun span => Pure.pure (make span)) false :=
  .look (·.spanFrom start) fun _ => .pure _

/-! ## Repetition -/

/-- What a course and a reader of streams do elsewhere does not count. -/
theorem FollowsAt.congr (h : q.FollowsAt r p s takes)
    (hq : q' { r with stream := s } = q { r with stream := s }) (hp : p' s = p s) :
    q'.FollowsAt r p' s takes := by
  obtain ⟨hagrees, hmoves⟩ := h
  unfold Reader.run MovesAt at *
  rw [← hp] at hagrees hmoves
  exact ⟨hq.trans hagrees, hmoves⟩

theorem repeatUntil_of_stop {stop : Kind → Bool} (hstop : stop r.stream.kind) (rounds : Nat) :
    Course.repeatUntil stop q (rounds + 1) r = (Pure.pure [] : Course (List α)) r := by
  rw [Course.repeatUntil]
  show (if stop r.stream.kind then _ else _ : Course (List α)) r = _
  rw [if_pos hstop]

theorem repeatUntil_step {stop : Kind → Bool} (hstop : stop r.stream.kind = false) (rounds : Nat) :
    Course.repeatUntil stop q (rounds + 1) r =
      (q >>= fun first => List.cons first <$> Course.repeatUntil stop q rounds) r := by
  rw [Course.repeatUntil]
  simp only [map_eq_pure_bind]
  show (if stop r.stream.kind then _ else _ : Course (List α)) r = _
  rw [if_neg (by simp [hstop])]

theorem commaSeparated_step (rounds : Nat) :
    Course.commaSeparated q (rounds + 1) = (q >>= fun first => liftM kind >>= fun k =>
      if k = .comma then
        liftM Parse.advance >>= fun _ => List.cons first <$> Course.commaSeparated q rounds
      else Pure.pure [first]) := by
  rw [Course.commaSeparated]
  simp only [map_eq_pure_bind]

/-- Items that each take a token come to an end before the rounds do, so the repetition does without
looking at what is left. -/
theorem Follows.repeatUntilAt (stop : Kind → Bool) (h : q.Follows n r p true) {rounds : Nat}
    (hs : s.Ends n) (hrounds : s.size < rounds) :
    (Course.repeatUntil stop q rounds).FollowsAt r (Parse.repeatUntil stop p) s false := by
  induction rounds generalizing s with
  | zero => exact absurd hrounds (Nat.not_lt_zero _)
  | succ rounds ih =>
    cases hstop : stop s.kind with
    | true =>
      refine (FollowsAt.pure []).congr (repeatUntil_of_stop hstop rounds) ?_
      rw [Parse.repeatUntil, if_pos hstop]
      rfl
    | false =>
      have hitems :
          (q >>= fun first => List.cons first <$> Course.repeatUntil stop q rounds).FollowsAt r
            (p >>= fun a t =>
              (if t.size < s.size then List.cons a <$> Parse.repeatUntil stop p
                else Pure.pure [a]) t) s false := by
        refine .bind true false (fun _ => .inl rfl) (h s hs) fun a t hon htaken => ?_
        -- the item has taken a token, so `Parse.repeatUntil` goes on as well
        have hsize := htaken rfl
        refine ((ih (hs.onward hon) (by omega)).map _).congr rfl ?_
        rw [if_pos hsize]
      exact hitems.congr (Course.repeatUntil_step hstop rounds) (Parse.repeatUntil_step hstop)

theorem Follows.repeatUntil (stop : Kind → Bool) (h : q.Follows n r p true) :
    (Course.repeatUntil stop q n).Follows n r (Parse.repeatUntil stop p) false :=
  fun _ hs => h.repeatUntilAt stop hs hs.size_lt

/-- A comma is a token before the end, so there are only so many. -/
theorem Follows.commaSeparatedAt (h : q.Follows n r p false) {rounds : Nat} (hs : s.Ends n)
    (hrounds : s.size < rounds) :
    (Course.commaSeparated q rounds).FollowsAt r (Parse.commaSeparated p) s false := by
  induction rounds generalizing s with
  | zero => exact absurd hrounds (Nat.not_lt_zero _)
  | succ rounds ih =>
    refine FollowsAt.congr (.bind false false .inl (h s hs) fun a t hon _ => ?_)
      (congrFun (commaSeparated_step rounds) _) Parse.commaSeparated_step
    have ht := hs.onward hon
    have hle := hon.size_le
    by_cases hcomma : t.kind = .comma
    · -- the item need not take a token, but the comma is one, since it is not the end token
      have hne : t.kind ≠ .eof := by
        rw [hcomma]
        decide
      have hsize : t.next.size < s.size := Nat.lt_of_lt_of_le (ht.size_next_lt hne) hle
      have hrest : FollowsAt
          (ofParse Parse.advance >>= fun _ => List.cons a <$> Course.commaSeparated q rounds) r
          (Parse.advance >>= fun _ => List.cons a <$> Parse.commaSeparated p) t false := by
        refine .bind true false (fun _ => .inl rfl) (.advance ht hne) fun _ u hon' htaken => ?_
        have hsize' := htaken rfl
        exact (ih (ht.onward hon') (by omega)).map _
      refine hrest.congr ?_ ?_
      · show (if t.kind = .comma then _ else _ : Course (List α)) _ = _
        rw [if_pos hcomma]
        rfl
      · rw [if_pos hcomma, if_pos hsize]
    · refine (FollowsAt.pure [a]).congr ?_ ?_
      · show (if t.kind = .comma then _ else _ : Course (List α)) _ = _
        rw [if_neg hcomma]
      · rw [if_neg hcomma]

theorem Follows.commaSeparated (h : q.Follows n r p false) :
    (Course.commaSeparated q n).Follows n r (Parse.commaSeparated p) false :=
  fun _ hs => h.commaSeparatedAt hs hs.size_lt

theorem Follows.parenthesised (h : q.Follows n r p false) :
    (Course.parenthesised q n).Follows n r (Parse.parenthesised p) takes := by
  refine (follows_expect (by decide)).andThen fun openParen => .look TokenStream.kind fun k => .ite
    ((Follows.pure []).bind fun items => ?_) (h.commaSeparated.bind fun items => ?_)
  all_goals exact (follows_expect (by decide)).andThen fun closeParen => .pure _

theorem Follows.after? (mark : Kind) (h : q.Follows n r p false) :
    (Course.after? mark q).Follows n r (Inner.after? mark p) false := by
  refine .look TokenStream.kind fun k => .ite ?_ (.pure _)
  exact follows_advance.bind fun mark => h.bind fun a => .pure _

end Course

end Nominal
