import Nominal.Proofs.Syntax.Gives
import Nominal.Proofs.Syntax.Legible

/-!
# Readers that succeed

`Parse.Succeeds` says that a reader gives a value, and what holds of it and of the stream behind it.
Unlike `Parse.Gives` it leaves no room for a diagnostic. `Piece.Through` says that the tokens at
hand are a spelling of certain pieces and then the tokens that a reader of these pieces should stop
at. `Parse.Recovers` puts both together: wherever the pieces of a tree are spelled, and whatever
follows them within bounds, the reader gives the tree and stops behind it.
-/

namespace Nominal

open Piece

/-! ## Tokens -/

/-- The kind of the first of the tokens. -/
def Token.firstKind (ts : List Token) : Kind :=
  (ts.head?.map Token.kind).getD .eof

namespace Piece

open Token

/-- All the tokens are a spelling of the pieces and then the rest, which has some tokens. -/
def Through (ps : List Piece) (all rest : List Token) : Prop :=
  rest ≠ [] ∧ ∃ ts, Spelling ps ts ∧ all = ts ++ rest

variable {p : Piece} {ps qs : List Piece} {all rest : List Token} {k : Kind} {value : String}

theorem through_nil : Through [] all rest ↔ rest ≠ [] ∧ all = rest := by
  constructor
  · rintro ⟨hne, ts, hts, rfl⟩
    cases hts
    exact ⟨hne, rfl⟩
  · rintro ⟨hne, rfl⟩
    exact ⟨hne, [], .nil, rfl⟩

theorem Spelling.split {ts : List Token} (h : Spelling (ps ++ qs) ts) :
    ∃ us vs, Spelling ps us ∧ Spelling qs vs ∧ ts = us ++ vs := by
  induction ps generalizing ts with
  | nil => exact ⟨[], ts, .nil, h, rfl⟩
  | cons p ps ih =>
    cases h with
    | cons hp hrest =>
      obtain ⟨us, vs, hus, hvs, rfl⟩ := ih hrest
      exact ⟨_, vs, .cons hp hus, hvs, (List.append_assoc ..).symm⟩

/-- Some pieces after others are spelled one after the other. -/
theorem through_append :
    Through (ps ++ qs) all rest ↔ ∃ mid, Through ps all mid ∧ Through qs mid rest := by
  constructor
  · rintro ⟨hne, ts, hts, rfl⟩
    obtain ⟨us, vs, hus, hvs, rfl⟩ := hts.split
    have hmid : vs ++ rest ≠ [] := by simp [hne]
    exact ⟨vs ++ rest, ⟨hmid, us, hus, List.append_assoc ..⟩, hne, vs, hvs, rfl⟩
  · rintro ⟨mid, ⟨-, us, hus, rfl⟩, hne, vs, hvs, rfl⟩
    exact ⟨hne, us ++ vs, hus.append hvs, (List.append_assoc ..).symm⟩

theorem through_cons :
    Through (p :: ps) all rest ↔ ∃ mid, Through [p] all mid ∧ Through ps mid rest := by
  show Through ([p] ++ ps) all rest ↔ _
  exact through_append

theorem Through.ne_nil (h : Through ps all rest) : all ≠ [] := by
  obtain ⟨hne, ts, -, rfl⟩ := h
  simp [hne]

/-- A piece that leaves no choice is written with one token. -/
theorem Spells.kind_eq {ts : List Token} (h : p.Spells ts) (hk : p.kind? = some k) :
    ∃ t, ts = [t] ∧ t.kind = k := by
  cases h with
  | mark hkind => exact ⟨_, rfl, hkind.trans (Option.some.inj hk)⟩
  | token hkind => exact ⟨_, rfl, hkind.trans (Option.some.inj hk)⟩
  | number hkind => exact ⟨_, rfl, hkind.trans (Option.some.inj hk)⟩
  | _ => cases hk

theorem Through.firstKind (h : Through (p :: ps) all rest) (hk : p.kind? = some k) :
    firstKind all = k := by
  obtain ⟨-, ts, hts, rfl⟩ := h
  cases hts with
  | cons hp _ =>
    obtain ⟨t, rfl, rfl⟩ := hp.kind_eq hk
    rfl

/-- What begins as an expression starts with a token that begins one. -/
theorem OpensExpr.firstKind (h : OpensExpr ps) (hall : Through ps all rest) :
    (Grammar.standard.nud (Token.firstKind all)).isSome := by
  obtain ⟨first, more, kind, rfl, hkind, hnud, -⟩ := h
  rwa [hall.firstKind hkind]

/-- What begins as a statement starts with a token that begins one. -/
theorem OpensStmt.firstKind (h : OpensStmt ps) (hall : Through ps all rest) :
    (Grammar.standard.nud (Token.firstKind all)).isSome ∨
      (Grammar.standard.stmt (Token.firstKind all)).isSome := by
  obtain ⟨first, more, kind, rfl, hkind, hopens⟩ := h
  rwa [hall.firstKind hkind]

end Piece

/-! ## Streams -/

namespace TokenStream

open Token

variable {s t : TokenStream} {ps : List Piece} {rest : List Token} {k : Kind} {value : String}

theorem kind_eq (s : TokenStream) : s.kind = firstKind s.remaining :=
  rfl

/-- Before the last token, passing a token takes it off what is left. -/
theorem remaining_next {token : Token} (h : s.remaining = token :: rest) (hne : rest ≠ []) :
    s.next.remaining = rest := by
  obtain ⟨-, hahead⟩ := List.cons.inj h
  unfold next
  split
  · next hnil => exact absurd (hahead.symm.trans hnil) hne
  · next u us hcons =>
    exact hcons.symm.trans hahead

/-- Before the last token, the kind one place ahead is that of the next token. -/
theorem peek_one {token : Token} (h : s.remaining = token :: rest) (hne : rest ≠ []) :
    s.peek 1 = firstKind rest := by
  obtain ⟨-, hahead⟩ := List.cons.inj h
  obtain ⟨u, us, rfl⟩ := List.exists_cons_of_ne_nil hne
  simp [peek, hahead, firstKind]

/-- A piece that leaves no choice is written with the current token. -/
theorem through_next {p : Piece} (h : Through (p :: ps) s.remaining rest)
    (hk : p.kind? = some k) :
    p.Spells [s.current] ∧ s.next.size < s.size ∧ Through ps s.next.remaining rest := by
  obtain ⟨mid, ⟨hne, ts, hts, hall⟩, hps⟩ := through_cons.1 h
  cases hts with
  | cons hp hnil =>
    cases hnil
    obtain ⟨token, rfl, -⟩ := hp.kind_eq hk
    obtain ⟨rfl, -⟩ := List.cons.inj hall
    have hnext : s.next.remaining = mid := remaining_next hall hne
    rw [← hnext] at hps hall
    have hlength : s.remaining.length = s.next.remaining.length + 1 := congrArg List.length hall
    rw [length_remaining, length_remaining] at hlength
    exact ⟨hp, by omega, hps⟩

theorem through_token (h : Through (.token k value :: ps) s.remaining rest) :
    s.kind = k ∧ s.current.value = value ∧ Through ps s.next.remaining rest := by
  obtain ⟨hspells, -, hps⟩ := through_next h rfl
  cases hspells with
  | token hkind hvalue => exact ⟨hkind, hvalue, hps⟩

theorem through_mark (h : Through (.mark k :: ps) s.remaining rest) :
    s.kind = k ∧ Through ps s.next.remaining rest := by
  obtain ⟨hspells, -, hps⟩ := through_next h rfl
  cases hspells with
  | mark hkind => exact ⟨hkind, hps⟩

/-- A mark that is the last piece. -/
theorem through_lastMark (h : Through [.mark k] s.remaining rest) :
    s.kind = k ∧ s.next.remaining = rest := by
  obtain ⟨hk, hall⟩ := through_mark h
  exact ⟨hk, (through_nil.1 hall).2⟩

/-- After a piece that leaves no choice, one place ahead is the next token. -/
theorem peek_one_eq {p : Piece} (h : Through (p :: ps) s.remaining rest) (hk : p.kind? = some k) :
    s.peek 1 = s.next.kind := by
  obtain ⟨mid, ⟨hne, ts, hts, hall⟩, -⟩ := through_cons.1 h
  cases hts with
  | cons hp hnil =>
    cases hnil
    obtain ⟨token, rfl, -⟩ := hp.kind_eq hk
    have hnext : s.next.remaining = mid := remaining_next hall hne
    rw [peek_one hall hne, kind_eq, hnext]
    rfl

theorem size_le_of_through (h : Through ps s.remaining t.remaining) : t.size ≤ s.size := by
  obtain ⟨-, ts, -, hall⟩ := h
  have hlength := congrArg List.length hall
  rw [List.length_append, length_remaining, length_remaining] at hlength
  omega

theorem size_lt_of_through (h : Through ps s.remaining t.remaining)
    (hps : ps.any Piece.isRequired) : t.size < s.size := by
  obtain ⟨-, ts, hts, hall⟩ := h
  have hpos := List.length_pos_iff.2 (hts.ne_nil hps)
  have hlength := congrArg List.length hall
  rw [List.length_append, length_remaining, length_remaining] at hlength
  omega

end TokenStream

namespace Parse

open Token

variable {α β : Type} {s : TokenStream}

/-- The reader gives a value when it starts at `s`, and this is what holds then. -/
def Succeeds (p : Parse α) (s : TokenStream) (post : α → TokenStream → Prop) : Prop :=
  match p s with
  | .ok a t => post a t
  | .error _ _ => False

theorem Succeeds.mono {p : Parse α} {post post' : α → TokenStream → Prop} (h : p.Succeeds s post)
    (hpost : ∀ a t, post a t → post' a t) : p.Succeeds s post' := by
  unfold Succeeds at h ⊢
  cases hp : p s with
  | ok a t =>
    rw [hp] at h
    exact hpost a t h
  | error d t =>
    rw [hp] at h
    exact h

theorem Succeeds.exists_ok {p : Parse α} {post : α → TokenStream → Prop} (h : p.Succeeds s post) :
    ∃ a t, p s = .ok a t ∧ post a t := by
  unfold Succeeds at h
  cases hp : p s with
  | ok a t =>
    rw [hp] at h
    exact ⟨a, t, rfl, h⟩
  | error d t =>
    rw [hp] at h
    cases h

/-! ## Putting readers together -/

@[simp] theorem succeeds_pure {post : α → TokenStream → Prop} (a : α) :
    (pure a : Parse α).Succeeds s post ↔ post a s :=
  Iff.rfl

@[simp] theorem succeeds_bind {post : β → TokenStream → Prop} (p : Parse α) (f : α → Parse β) :
    (p >>= f).Succeeds s post ↔ p.Succeeds s fun a t => (f a).Succeeds t post := by
  show (match EStateM.bind p f s with
    | .ok a t => post a t
    | .error _ _ => False) ↔ _
  unfold Succeeds EStateM.bind
  cases p s <;> rfl

@[simp] theorem succeeds_map {post : β → TokenStream → Prop} (f : α → β) (p : Parse α) :
    (f <$> p).Succeeds s post ↔ p.Succeeds s fun a t => post (f a) t := by
  rw [map_eq_pure_bind, succeeds_bind]
  rfl

@[simp] theorem succeeds_get {post : TokenStream → TokenStream → Prop} :
    (get : Parse TokenStream).Succeeds s post ↔ post s s :=
  Iff.rfl

@[simp] theorem succeeds_current {post : Token → TokenStream → Prop} :
    current.Succeeds s post ↔ post s.current s :=
  Iff.rfl

@[simp] theorem succeeds_kind {post : Kind → TokenStream → Prop} :
    kind.Succeeds s post ↔ post s.kind s :=
  Iff.rfl

@[simp] theorem succeeds_position {post : Position → TokenStream → Prop} :
    position.Succeeds s post ↔ post s.position s :=
  Iff.rfl

@[simp] theorem succeeds_spanFrom {post : Span → TokenStream → Prop} (start : Position) :
    (spanFrom start).Succeeds s post ↔ post (s.spanFrom start) s :=
  Iff.rfl

@[simp] theorem succeeds_advance {post : Token → TokenStream → Prop} :
    advance.Succeeds s post ↔ post s.current s.next :=
  Iff.rfl

@[simp] theorem succeeds_expect {post : Token → TokenStream → Prop} (expected : Kind) :
    (expect expected).Succeeds s post ↔ s.kind = expected ∧ post s.current s.next := by
  by_cases h : s.kind = expected
  · simp [expect, expectOr, h]
  · simp only [expect, expectOr, succeeds_bind, succeeds_kind, h, if_false, false_and, iff_false]
    exact not_false

@[simp] theorem succeeds_expectDetailed {post : Token → TokenStream → Prop} (expected : Kind)
    (detail : String) : (expectDetailed expected detail).Succeeds s post ↔
      s.kind = expected ∧ post s.current s.next := by
  by_cases h : s.kind = expected
  · simp [expectDetailed, expectOr, h]
  · simp only [expectDetailed, expectOr, succeeds_bind, succeeds_kind, h, if_false, false_and,
      iff_false]
    exact not_false

/-! ## Readers of trees -/

/-- Wherever the pieces are spelled, with what `follow` allows after them, the reader passes just
these pieces and gives something good. -/
def Recovers (p : Parse α) (ps : List Piece) (follow : Kind → Prop) (good : α → Prop) : Prop :=
  ∀ (s : TokenStream) (rest : List Token), Through ps s.remaining rest → follow (firstKind rest) →
    p.Succeeds s fun a t => t.remaining = rest ∧ good a

variable {p : Parse α} {ps qs : List Piece} {follow : Kind → Prop} {good : α → Prop}
  {rest : List Token} {post : α → TokenStream → Prop}

/-- A reader at the beginning of a longer spelling stops where the rest of it starts. -/
theorem Recovers.before (h : p.Recovers ps follow good)
    (hall : Through (ps ++ qs) s.remaining rest)
    (hfollow : ∀ mid, Through qs mid rest → follow (firstKind mid))
    (hpost : ∀ a t, Through qs t.remaining rest → good a → post a t) : p.Succeeds s post := by
  obtain ⟨mid, hps, hqs⟩ := through_append.1 hall
  refine (h s mid hps (hfollow mid hqs)).mono ?_
  rintro a t ⟨rfl, ha⟩
  exact hpost a t hqs ha

/-- Whatever the reader gives stands in the same tokens. -/
theorem Recovers.spanned (h : p.Recovers ps follow good) (hall : Through ps s.remaining rest)
    (hfollow : follow (firstKind rest)) :
    p.Succeeds s fun a t => Through ps s.remaining t.remaining ∧ t.remaining = rest ∧ good a := by
  refine (h s rest hall hfollow).mono ?_
  rintro a t ⟨rfl, ha⟩
  exact ⟨hall, rfl, ha⟩

/-! ## Repetition -/

section

variable {item : Parse α} {items : List α} {pieces : α → List Piece} {bare : α → β}

theorem succeeds_repeatUntil_step {stop : Kind → Bool} {post : List α → TokenStream → Prop}
    (hstop : stop s.kind = false)
    (h : item.Succeeds s fun a t => t.size < s.size ∧
      (repeatUntil stop item).Succeeds t fun as u => post (a :: as) u) :
    (repeatUntil stop item).Succeeds s post := by
  obtain ⟨a, t, hitem, hsize, hrest⟩ := h.exists_ok
  obtain ⟨as, u, hrepeat, hpost⟩ := hrest.exists_ok
  unfold Succeeds
  rw [repeatUntil]
  simp [hstop, hitem, hsize, hrepeat, hpost]

/-- Items are read up to the token at which the repetition stops. -/
theorem succeeds_repeatUntil {stop : Kind → Bool}
    (hitem : ∀ a ∈ items, item.Recovers (pieces a) follow fun b => bare b = bare a)
    (hopen : ∀ a ∈ items, ∀ all mid, Through (pieces a) all mid →
      stop (firstKind all) = false ∧ follow (firstKind all))
    (hpieces : ∀ a, (pieces a).any Piece.isRequired)
    (hall : Through (items.map pieces).flatten s.remaining rest)
    (hstop : stop (firstKind rest)) (hfollow : follow (firstKind rest)) :
    (repeatUntil stop item).Succeeds s fun as t =>
      t.remaining = rest ∧ as.map bare = items.map bare := by
  induction items generalizing s with
  | nil =>
    obtain ⟨-, rfl⟩ := through_nil.1 hall
    have hkind : stop s.kind := hstop
    unfold Succeeds
    rw [repeatUntil]
    simp [hkind]
  | cons a items ih =>
    obtain ⟨ha, hitems⟩ := List.forall_mem_cons.1 hitem
    obtain ⟨hopena, hopens⟩ := List.forall_mem_cons.1 hopen
    rw [List.map_cons, List.flatten_cons] at hall
    obtain ⟨mid, hfirst, hrest⟩ := through_append.1 hall
    have hmid : follow (firstKind mid) := by
      cases items with
      | nil =>
        obtain ⟨-, rfl⟩ := through_nil.1 hrest
        exact hfollow
      | cons b items =>
        obtain ⟨_, hb, -⟩ := through_append.1 hrest
        exact (hopens b List.mem_cons_self _ _ hb).2
    refine succeeds_repeatUntil_step (hopena _ _ hfirst).1 ?_
    refine (ha.spanned hfirst hmid).mono ?_
    rintro b t ⟨hspanned, rfl, hb⟩
    refine ⟨TokenStream.size_lt_of_through hspanned (hpieces a), ?_⟩
    refine (ih hitems hopens hrest).mono ?_
    rintro bs u ⟨hu, hbs⟩
    exact ⟨hu, by simp [hb, hbs]⟩

theorem succeeds_commaSeparated_last {post : List α → TokenStream → Prop}
    (h : item.Succeeds s fun a t => t.kind ≠ .comma ∧ post [a] t) :
    (commaSeparated item).Succeeds s post := by
  obtain ⟨a, t, hitem, hkind, hpost⟩ := h.exists_ok
  unfold Succeeds
  rw [commaSeparated]
  simp [hitem, hkind, hpost]

theorem succeeds_commaSeparated_step {post : List α → TokenStream → Prop}
    (h : item.Succeeds s fun a t => t.kind = .comma ∧ t.next.size < s.size ∧
      (commaSeparated item).Succeeds t.next fun as u => post (a :: as) u) :
    (commaSeparated item).Succeeds s post := by
  obtain ⟨a, t, hitem, hkind, hsize, hrest⟩ := h.exists_ok
  obtain ⟨as, u, hrepeat, hpost⟩ := hrest.exists_ok
  unfold Succeeds
  rw [commaSeparated]
  simp [hitem, hkind, hsize, hrepeat, hpost]

/-- Items with commas between them are read up to the first token that is no comma. -/
theorem succeeds_commaSeparated (hne : items ≠ [])
    (hitem : ∀ a ∈ items, item.Recovers (pieces a) follow fun b => bare b = bare a)
    (hcomma : follow .comma) (hall : Through (List.intercalate [mark .comma] (items.map pieces))
      s.remaining rest) (hend : firstKind rest ≠ .comma) (hfollow : follow (firstKind rest)) :
    (commaSeparated item).Succeeds s fun as t =>
      t.remaining = rest ∧ as.map bare = items.map bare := by
  induction items generalizing s with
  | nil => exact absurd rfl hne
  | cons a items ih =>
    obtain ⟨ha, hitems⟩ := List.forall_mem_cons.1 hitem
    cases items with
    | nil =>
      have hlast : Through (pieces a) s.remaining rest := by simpa using hall
      refine succeeds_commaSeparated_last ((ha.spanned hlast hfollow).mono ?_)
      rintro b t ⟨-, rfl, hb⟩
      exact ⟨hend, rfl, by simp [hb]⟩
    | cons second items =>
      rw [List.map_cons, List.map_cons, List.intercalate_cons_cons, List.append_assoc] at hall
      obtain ⟨mid, hfirst, hrest⟩ := through_append.1 hall
      have hmid : firstKind mid = .comma := hrest.firstKind rfl
      refine succeeds_commaSeparated_step ((ha.spanned hfirst (hmid ▸ hcomma)).mono ?_)
      rintro b t ⟨hspanned, rfl, hb⟩
      obtain ⟨hkind, hmore⟩ := TokenStream.through_mark hrest
      obtain ⟨-, hsize, -⟩ := TokenStream.through_next hrest rfl
      have hle := TokenStream.size_le_of_through hspanned
      refine ⟨hkind, by omega, (ih (by simp) hitems hmore).mono ?_⟩
      rintro bs u ⟨hu, hbs⟩
      exact ⟨hu, by simp [hb] at hbs ⊢; exact hbs⟩

/-- Items with marks between them begin with the first item. -/
theorem exists_append_of_intercalate (first : List Piece) (more : List (List Piece)) :
    ∃ rest, List.intercalate [mark .comma] (first :: more) = first ++ rest := by
  cases more with
  | nil => exact ⟨[], by simp⟩
  | cons second more =>
    rw [List.intercalate_cons_cons, List.append_assoc]
    exact ⟨_, rfl⟩

/-- Items between parentheses are read up to the closing one. -/
theorem recovers_parenthesised
    (hitem : ∀ a ∈ items, item.Recovers (pieces a) follow fun b => bare b = bare a)
    (hopen : ∀ a ∈ items, ∀ all mid, Through (pieces a) all mid → firstKind all ≠ .closeParen)
    (hcomma : follow .comma) (hclose : follow .closeParen) :
    (parenthesised item).Recovers (Piece.parenthesised (items.map pieces)) (fun _ => True)
      fun as => as.map bare = items.map bare := by
  intro s rest hall _
  simp only [parenthesised, succeeds_bind, succeeds_expect, succeeds_kind]
  obtain ⟨hkind, hitems⟩ := TokenStream.through_mark hall
  refine ⟨hkind, ?_⟩
  cases items with
  | nil =>
    obtain ⟨hend, hrest⟩ := TokenStream.through_mark hitems
    obtain ⟨-, rfl⟩ := through_nil.1 hrest
    simp [hend]
  | cons a items =>
    obtain ⟨mid, hmiddle, hlast⟩ := through_append.1 hitems
    have hmid : firstKind mid = .closeParen := hlast.firstKind rfl
    have hfirst : s.next.kind ≠ .closeParen := by
      obtain ⟨more, hmore⟩ := exists_append_of_intercalate (pieces a) (items.map pieces)
      rw [List.map_cons, hmore] at hmiddle
      obtain ⟨_, ha, -⟩ := through_append.1 hmiddle
      exact hopen a List.mem_cons_self _ _ ha
    rw [if_neg hfirst]
    simp only [succeeds_bind, succeeds_expect, succeeds_pure]
    refine (succeeds_commaSeparated (by simp) hitem hcomma hmiddle (by simp [hmid])
      (hmid ▸ hclose)).mono ?_
    rintro bs t ⟨rfl, hbs⟩
    obtain ⟨hend, hrest⟩ := TokenStream.through_mark hlast
    obtain ⟨-, rfl⟩ := through_nil.1 hrest
    exact ⟨hend, rfl, hbs⟩

end

end Parse

end Nominal
