import Nominal.Proofs.Syntax.Spelling
import Nominal.Proofs.Token.Lexed
import Nominal.Syntax.Parse

/-!
# What readers give

`Parse.Gives` says what holds of the value that a reader gives and of the stream behind it. A reader
that stops with a diagnostic gives nothing. As with `Check.Ends` there is one lemma for each way to
put readers together, and no proof about a rule looks into the monad.

`TokenStream.Writes` is what most rules promise: the tokens that were passed are a spelling of the
pieces of the tree that was read. It is composed along a rule by `TokenStream.Writes.append`.
-/

namespace Nominal

open Token

/-- Apart from names, numbers and strings, the kind of a token says how it is written. -/
theorem Token.Lexed.spells_mark {t : Token} {k : Kind} (ht : t.Lexed) (hk : t.kind = k)
    (hne : k ∉ [.identifier, .number, .string]) : (Piece.mark k).Spells [t] := by
  subst hk
  simp only [List.mem_cons, List.not_mem_nil, or_false, not_or] at hne
  exact .mark rfl (ht.fixed_of_kind hne.1 hne.2.1 hne.2.2)

/-! ## Streams -/

namespace TokenStream

variable {s t u : TokenStream} {ps qs : List Piece} {k : Kind}

/-- The current token and those ahead. -/
def remaining (s : TokenStream) : List Token :=
  s.current :: s.ahead

/-- Whether only lexed tokens are left, and an end token after them. -/
def Good (s : TokenStream) : Prop :=
  Ended s.remaining

theorem length_remaining (s : TokenStream) : s.remaining.length = s.size + 1 := by
  simp [remaining, s.size_eq]

theorem Good.lexed (hs : s.Good) (hk : s.kind ≠ .eof) : s.current.Lexed := by
  obtain ⟨body, last, hsplit, hlast, hbody⟩ := hs.split
  cases body with
  | nil =>
    obtain ⟨rfl, -⟩ := List.cons.inj hsplit
    exact absurd hlast hk
  | cons t body =>
    obtain ⟨rfl, -⟩ := List.cons.inj hsplit
    exact hbody _ List.mem_cons_self

/-- Before the end token, passing a token takes it off what is left. -/
theorem Good.next (hs : s.Good) (hk : s.kind ≠ .eof) :
    s.remaining = s.current :: s.next.remaining ∧ s.next.Good := by
  unfold Good remaining at hs
  unfold TokenStream.next
  split
  · next hnil =>
    rw [hnil] at hs
    cases hs with
    | nil ht => exact absurd ht hk
    | cons _ hrest => exact absurd rfl hrest.ne_nil
  · next t ts hcons =>
    rw [hcons] at hs
    cases hs with
    | cons _ hrest => exact ⟨by simp [remaining, hcons], hrest⟩

/-- Before the last token, the token that is passed is the one passed last. -/
theorem previous?_next {s : TokenStream} {token : Token} {rest : List Token}
    (h : s.remaining = token :: rest) (hne : rest ≠ []) : s.next.previous? = some s.current := by
  obtain ⟨-, hahead⟩ := List.cons.inj h
  unfold next
  split
  · next hnil => exact absurd (hahead.symm.trans hnil) hne
  · rfl

/-- Before the end token, the kind one place ahead is that of the next token. -/
theorem Good.kind_next (hs : s.Good) (hk : s.kind ≠ .eof) : s.peek 1 = s.next.kind := by
  have hremaining := (hs.next hk).1
  obtain ⟨-, hahead⟩ := List.cons.inj hremaining
  simp [peek, hahead, remaining, TokenStream.kind]

/-- Between `s` and `t` there are tokens that are a spelling of `ps`. -/
def Writes (s : TokenStream) (ps : List Piece) (t : TokenStream) : Prop :=
  t.Good ∧ ∃ ts, Piece.Spelling ps ts ∧ s.remaining = ts ++ t.remaining

theorem Good.writes_nil (hs : s.Good) : s.Writes [] s :=
  ⟨hs, [], .nil, rfl⟩

/-- Passing a token writes any piece that it spells. -/
theorem Good.writes_one {p : Piece} (hs : s.Good) (hk : s.kind ≠ .eof)
    (hp : p.Spells [s.current]) : s.Writes [p] s.next :=
  ⟨(hs.next hk).2, [s.current], .single hp, (hs.next hk).1⟩

theorem Good.writes_token (hs : s.Good) (hk : s.kind = k) (hne : k ≠ .eof) :
    s.Writes [.token k s.current.value] s.next := by
  subst hk
  exact hs.writes_one hne (.token rfl rfl)

theorem Good.spells_mark (hs : s.Good) (hk : s.kind = k)
    (hne : k ∉ [.eof, .identifier, .number, .string]) :
    (Piece.mark k).Spells [s.current] := by
  rw [List.mem_cons, not_or] at hne
  exact (hs.lexed (hk ▸ hne.1)).spells_mark hk hne.2

theorem Good.writes_mark (hs : s.Good) (hk : s.kind = k)
    (hne : k ∉ [.eof, .identifier, .number, .string]) :
    s.Writes [.mark k] s.next :=
  hs.writes_one (fun h => hne (by simp [← hk, h])) (hs.spells_mark hk hne)

theorem Writes.good (h : s.Writes ps t) : t.Good :=
  h.1

theorem Writes.imp (h : s.Writes ps t) (hps : ∀ ts, Piece.Spelling ps ts → Piece.Spelling qs ts) :
    s.Writes qs t := by
  obtain ⟨ht, ts, hts, hs⟩ := h
  exact ⟨ht, ts, hps ts hts, hs⟩

theorem Writes.append (h : s.Writes ps t) (h' : t.Writes qs u) : s.Writes (ps ++ qs) u := by
  obtain ⟨-, ts, hts, hs⟩ := h
  obtain ⟨hu, us, hus, ht⟩ := h'
  exact ⟨hu, ts ++ us, hts.append hus, by rw [hs, ht, List.append_assoc]⟩

theorem Writes.size_le (h : s.Writes ps t) : t.size ≤ s.size := by
  obtain ⟨-, ts, -, hs⟩ := h
  have hlength := congrArg List.length hs
  rw [List.length_append, length_remaining, length_remaining] at hlength
  omega

/-- A piece that can not be left out takes a token. -/
theorem Writes.size_lt (h : s.Writes ps t) (hps : ps.any Piece.isRequired) : t.size < s.size := by
  obtain ⟨-, ts, hts, hs⟩ := h
  have hpos := List.length_pos_iff.2 (hts.ne_nil hps)
  have hlength := congrArg List.length hs
  rw [List.length_append, length_remaining, length_remaining] at hlength
  omega

end TokenStream

namespace Parse

variable {α β : Type} {s : TokenStream}

/-- What the reader gives when it starts at `s`, if it gives anything. -/
def Gives (p : Parse α) (s : TokenStream) (post : α → TokenStream → Prop) : Prop :=
  match p s with
  | .ok a t => post a t
  | .error _ _ => True

theorem Gives.mono {p : Parse α} {post post' : α → TokenStream → Prop} (h : p.Gives s post)
    (hpost : ∀ a t, post a t → post' a t) : p.Gives s post' := by
  unfold Gives at h ⊢
  cases hp : p s with
  | ok a t =>
    rw [hp] at h
    exact hpost a t h
  | error d t => trivial

theorem Gives.and {p : Parse α} {post post' : α → TokenStream → Prop} (h : p.Gives s post)
    (h' : p.Gives s post') : p.Gives s fun a t => post a t ∧ post' a t := by
  unfold Gives at h h' ⊢
  cases hp : p s with
  | ok a t =>
    rw [hp] at h h'
    exact ⟨h, h'⟩
  | error d t => trivial

theorem Gives.of_ok {p : Parse α} {post : α → TokenStream → Prop} {a : α} {t : TokenStream}
    (h : p.Gives s post) (hp : p s = .ok a t) : post a t := by
  unfold Gives at h
  rwa [hp] at h

/-- Wherever the reader starts, what it passes is a spelling of what it gives, and that is good. -/
def Reads (p : Parse α) (pieces : α → List Piece) (good : α → Prop) : Prop :=
  ∀ s : TokenStream, s.Good → p.Gives s fun a t => s.Writes (pieces a) t ∧ good a

/-! ## Putting readers together -/

@[simp] theorem gives_pure {post : α → TokenStream → Prop} (a : α) :
    (pure a : Parse α).Gives s post ↔ post a s :=
  Iff.rfl

@[simp] theorem gives_bind {post : β → TokenStream → Prop} (p : Parse α) (f : α → Parse β) :
    (p >>= f).Gives s post ↔ p.Gives s fun a t => (f a).Gives t post := by
  show (match EStateM.bind p f s with
    | .ok a t => post a t
    | .error _ _ => True) ↔ _
  unfold Gives EStateM.bind
  cases p s <;> rfl

@[simp] theorem gives_map {post : β → TokenStream → Prop} (f : α → β) (p : Parse α) :
    (f <$> p).Gives s post ↔ p.Gives s fun a t => post (f a) t := by
  rw [map_eq_pure_bind, gives_bind]
  rfl

@[simp] theorem gives_get {post : TokenStream → TokenStream → Prop} :
    (get : Parse TokenStream).Gives s post ↔ post s s :=
  Iff.rfl

@[simp] theorem gives_current {post : Token → TokenStream → Prop} :
    current.Gives s post ↔ post s.current s :=
  Iff.rfl

@[simp] theorem gives_kind {post : Kind → TokenStream → Prop} :
    kind.Gives s post ↔ post s.kind s :=
  Iff.rfl

@[simp] theorem gives_position {post : Position → TokenStream → Prop} :
    position.Gives s post ↔ post s.position s :=
  Iff.rfl

@[simp] theorem gives_spanFrom {post : Span → TokenStream → Prop} (start : Position) :
    (spanFrom start).Gives s post ↔ post (s.spanFrom start) s :=
  Iff.rfl

@[simp] theorem gives_advance {post : Token → TokenStream → Prop} :
    advance.Gives s post ↔ post s.current s.next :=
  Iff.rfl

@[simp] theorem gives_failWith {post : α → TokenStream → Prop} (cause : Token → Cause) :
    (failWith cause : Parse α).Gives s post :=
  trivial

@[simp] theorem gives_unexpected {post : α → TokenStream → Prop} :
    (unexpected : Parse α).Gives s post :=
  trivial

@[simp] theorem gives_unexpectedDetailed {post : α → TokenStream → Prop} (detail : String) :
    (unexpectedDetailed detail : Parse α).Gives s post :=
  trivial

@[simp] theorem gives_expect {post : Token → TokenStream → Prop} (expected : Kind) :
    (expect expected).Gives s post ↔ (s.kind = expected → post s.current s.next) := by
  by_cases h : s.kind = expected <;> simp [expect, expectOr, h]

@[simp] theorem gives_expectDetailed {post : Token → TokenStream → Prop} (expected : Kind)
    (detail : String) : (expectDetailed expected detail).Gives s post ↔
      (s.kind = expected → post s.current s.next) := by
  by_cases h : s.kind = expected <;> simp [expectDetailed, expectOr, h]

/-! ## Repetition -/

section

variable {item : Parse α} {pieces : α → List Piece} {good : α → Prop}

/-- One step of a repetition. -/
theorem repeatUntil_step {stop : Kind → Bool} (hstop : stop s.kind = false) :
    repeatUntil stop item s = (item >>= fun a t =>
      (if t.size < s.size then List.cons a <$> repeatUntil stop item else pure [a]) t) s := by
  rw [repeatUntil, if_neg (by simp [hstop])]
  show _ = EStateM.bind item _ s
  unfold EStateM.bind
  cases item s with
  | error d t => rfl
  | ok a t =>
    by_cases hsize : t.size < s.size
    · simp only [hsize, if_true]
      show _ = EStateM.map (List.cons a) (repeatUntil stop item) t
      unfold EStateM.map
      cases repeatUntil stop item t <;> rfl
    · simp only [hsize, if_false]
      rfl

/-- One step of a repetition with commas. -/
theorem commaSeparated_step :
    commaSeparated item s = (item >>= fun a t =>
      (if t.kind = .comma then
        if t.next.size < s.size then advance >>= fun _ => List.cons a <$> commaSeparated item
        else advance >>= fun _ => pure [a]
      else pure [a]) t) s := by
  rw [commaSeparated]
  show _ = EStateM.bind item _ s
  unfold EStateM.bind
  cases item s with
  | error d t => rfl
  | ok a t =>
    by_cases hcomma : t.kind = .comma
    · by_cases hsize : t.next.size < s.size
      · simp only [hcomma, hsize, if_true]
        show _ = EStateM.map (List.cons a) (commaSeparated item) t.next
        unfold EStateM.map
        cases commaSeparated item t.next <;> rfl
      · simp only [hcomma, hsize, if_true, if_false]
        rfl
    · simp only [hcomma, if_false]
      rfl

/-- Items that each take a token are read up to the token at which the repetition stops. -/
theorem gives_repeatUntil {stop : Kind → Bool} (good : α → Prop)
    (hitem : ∀ s : TokenStream, s.Good → stop s.kind = false →
      item.Gives s fun a t => s.Writes (pieces a) t ∧ good a)
    (hpieces : ∀ a, (pieces a).any Piece.isRequired) (hs : s.Good) :
    (repeatUntil stop item).Gives s fun as t =>
      s.Writes (as.map pieces).flatten t ∧ (∀ a ∈ as, good a) ∧ stop t.kind := by
  unfold Gives
  fun_induction repeatUntil stop item s with
  | case1 s hstop => exact ⟨hs.writes_nil, by simp, hstop⟩
  | case2 => trivial
  | case3 => trivial
  | case4 s hstop a t ha _ as u has ih =>
    obtain ⟨hwrites, hgood⟩ := (hitem s hs (by simpa using hstop)).of_ok ha
    rw [has] at ih
    obtain ⟨hrest, hall, hend⟩ := ih hwrites.good
    exact ⟨hwrites.append hrest, List.forall_mem_cons.2 ⟨hgood, hall⟩, hend⟩
  | case5 s hstop a t ha hsize =>
    obtain ⟨hwrites, -⟩ := (hitem s hs (by simpa using hstop)).of_ok ha
    exact absurd (hwrites.size_lt (hpieces a)) hsize

/-- Items with commas between them are read up to the first token that is no comma. -/
theorem Reads.gives_commaSeparated (hitem : item.Reads pieces good) (hs : s.Good) :
    (commaSeparated item).Gives s fun as t => as ≠ [] ∧
      s.Writes (List.intercalate [.mark .comma] (as.map pieces)) t ∧ ∀ a ∈ as, good a := by
  unfold Gives
  fun_induction commaSeparated item s with
  | case1 => trivial
  | case2 => trivial
  | case3 s a t ha hcomma _ as u has ih =>
    obtain ⟨hwrites, hgood⟩ := (hitem s hs).of_ok ha
    have hmark := hwrites.good.writes_mark hcomma (by decide)
    rw [has] at ih
    obtain ⟨hne, hrest, hall⟩ := ih hmark.good
    refine ⟨by simp, ?_, List.forall_mem_cons.2 ⟨hgood, hall⟩⟩
    rw [List.map_cons, List.intercalate_cons_of_ne_nil (by simpa using hne)]
    exact (hwrites.append hmark).append hrest
  | case4 s a t ha hcomma hsize =>
    obtain ⟨hwrites, -⟩ := (hitem s hs).of_ok ha
    have hlt := (hwrites.good.writes_mark hcomma (by decide)).size_lt rfl
    have hle := hwrites.size_le
    omega
  | case5 s a t ha hcomma =>
    obtain ⟨hwrites, hgood⟩ := (hitem s hs).of_ok ha
    exact ⟨by simp, by simpa using hwrites, by simpa using hgood⟩

/-- Items between parentheses are read up to the closing one. -/
theorem Reads.parenthesised (hitem : item.Reads pieces good) :
    (Parse.parenthesised item).Reads (fun as => Piece.parenthesised (as.map pieces))
      fun as => ∀ a ∈ as, good a := by
  intro s hs
  simp only [Parse.parenthesised, gives_bind, gives_expect, gives_kind]
  intro hopen
  have hstart := hs.writes_mark hopen (by decide)
  split
  · simp only [gives_bind, gives_pure, gives_expect]
    exact fun hclose => ⟨hstart.append (hstart.good.writes_mark hclose (by decide)), by simp⟩
  · simp only [gives_bind, gives_expect]
    refine (hitem.gives_commaSeparated hstart.good).mono ?_
    rintro items t ⟨-, hwrites, hgood⟩ hclose
    exact ⟨(hstart.append hwrites).append (hwrites.good.writes_mark hclose (by decide)), hgood⟩

end

end Parse

end Nominal
