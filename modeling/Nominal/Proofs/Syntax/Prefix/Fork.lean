import Nominal.Proofs.Syntax.Nesting
import Nominal.Proofs.Syntax.Succeeds

/-!
# Two readings of the same tokens

Two lists of tokens that begin alike are read alike, as long as only tokens are looked at that both
have. A `Fork` is what comes after these tokens on either side. `Fork.Foretells` says what one
reading tells about the other: a value that was read before the fork is read on the other side too,
unless reading stops there, and where reading stopped before the fork, it stops on the other side.
There is one lemma for each way to put readers together.

A reader looks at the current token only, with one exception: whether `fun` or the word `Function`
begins what it may begin is decided by the token behind it. `Diagnostic.lookahead` counts the token
behind `fun` in the one case where a diagnostic depends on it.
-/

namespace Nominal

open Token Parse

/-! ## What a diagnostic depends on -/

/-- Whether the cause is that something else than a declaration stands in a class. -/
def Cause.isMissingMember : Cause → Bool
  | .unexpectedTokenDetailed _ detail => detail == "expected member declaration in class body"
  | _ => false

namespace Diagnostic

/-- Whether reading stopped in a class before a `fun` without a name behind it. -/
def IsNameless (d : Diagnostic) (ts : List Token) : Prop :=
  d.cause.isMissingMember ∧ firstKind ts = .kwFun ∧ firstKind ts.tail ≠ .identifier

instance (d : Diagnostic) (ts : List Token) : Decidable (d.IsNameless ts) :=
  inferInstanceAs (Decidable (_ ∧ _))

/-- On how many of the tokens `ts` behind the first the diagnostic depends. -/
def lookahead (d : Diagnostic) (ts : List Token) : Nat :=
  if d.IsNameless ts then 1 else 0

end Diagnostic

/-- A class that misses a member at a `fun` misses the name behind it. -/
theorem Diagnostic.lookahead_eq_one {s : TokenStream} {cause : Cause} {span : Span} (hs : s.Good)
    (hk : s.kind = .kwFun) (hname : s.peek 1 ≠ .identifier) (hcause : cause.isMissingMember) :
    lookahead ⟨cause, span⟩ s.remaining = 1 := by
  have hne : s.kind ≠ .eof := by simp [hk]
  rw [hs.kind_next hne] at hname
  refine if_pos ⟨hcause, hk, ?_⟩
  rw [(hs.next hne).1]
  exact hname

/-- What comes after the tokens that two lists have in common. -/
structure Fork where
  left : List Token
  right : List Token

namespace Fork

/-- Both streams are at the same place before the fork. -/
structure Alike (f : Fork) (s s' : TokenStream) : Prop where
  shared : ∃ us, us ≠ [] ∧ s.remaining = us ++ f.left ∧ s'.remaining = us ++ f.right
  previous : s.previous? = s'.previous?

variable {f : Fork} {s s' t : TokenStream}

namespace Alike

theorem current (h : f.Alike s s') : s.current = s'.current := by
  obtain ⟨us, hne, hs, hs'⟩ := h.shared
  obtain ⟨u, us, rfl⟩ := List.exists_cons_of_ne_nil hne
  exact (List.cons.inj hs).1.trans (List.cons.inj hs').1.symm

theorem kind (h : f.Alike s s') : s.kind = s'.kind :=
  congrArg Token.kind h.current

theorem position (h : f.Alike s s') : s.position = s'.position := by
  rw [TokenStream.position, TokenStream.position, h.current]

theorem spanFrom (h : f.Alike s s') (start : Position) : s.spanFrom start = s'.spanFrom start := by
  simp only [TokenStream.spanFrom, TokenStream.previousEnd, h.previous, h.position]

/-- Both streams have the same number of tokens before the fork. -/
theorem size (h : f.Alike s s') : s.size + f.right.length = s'.size + f.left.length := by
  obtain ⟨us, -, hs, hs'⟩ := h.shared
  have hlength := congrArg List.length hs
  have hlength' := congrArg List.length hs'
  simp only [TokenStream.length_remaining, List.length_append] at hlength hlength'
  omega

/-- Of more than one shared token, the second is shared. -/
theorem exists_second (h : f.Alike s s') (hsize : f.left.length < s.size) :
    ∃ us, us ≠ [] ∧ s.remaining = s.current :: (us ++ f.left) ∧
      s'.remaining = s.current :: (us ++ f.right) := by
  obtain ⟨us, hne, hs, hs'⟩ := h.shared
  obtain ⟨u, us, rfl⟩ := List.exists_cons_of_ne_nil hne
  obtain rfl : s.current = u := (List.cons.inj hs).1
  refine ⟨us, ?_, hs, hs'⟩
  rintro rfl
  have hlength := congrArg List.length hs
  simp only [TokenStream.length_remaining, List.cons_append, List.nil_append,
    List.length_cons] at hlength
  omega

theorem peek (h : f.Alike s s') (hsize : f.left.length < s.size) : s.peek 1 = s'.peek 1 := by
  obtain ⟨us, hne, hs, hs'⟩ := h.exists_second hsize
  rw [TokenStream.peek_one hs (by simp [hne]), TokenStream.peek_one hs' (by simp [hne])]
  obtain ⟨u, us, rfl⟩ := List.exists_cons_of_ne_nil hne
  rfl

theorem next (h : f.Alike s s') (hsize : f.left.length < s.size) : f.Alike s.next s'.next := by
  obtain ⟨us, hne, hs, hs'⟩ := h.exists_second hsize
  have hnext := TokenStream.remaining_next hs (by simp [hne])
  have hnext' := TokenStream.remaining_next hs' (by simp [hne])
  refine ⟨⟨us, hne, hnext, hnext'⟩, ?_⟩
  rw [TokenStream.previous?_next hs (by simp [hne]), TokenStream.previous?_next hs' (by simp [hne]),
    h.current]

end Alike

/-! ## What one reading tells about the other -/

variable {α β : Type} {n : Nat}

/-- What a reading that started at `s` tells about `p'` at a stream like `s`. A value that was read
before the fork is given by `p'` as well, if it gives any. Where reading stopped before the fork,
with levels left, `p'` stops too. In both cases `n` tokens at least were looked at, those counted
that a diagnostic depends on. -/
def Foretold (f : Fork) (n : Nat) (p' : Parse α) (s s' : TokenStream) :
    EStateM.Result Diagnostic TokenStream α → Prop
  | .ok a t => t.Good ∧ t.size + n ≤ s.size ∧
    (f.Alike s s' → f.left.length ≤ t.size → p'.Gives s' fun b t' => b = a ∧ f.Alike t t')
  | .error d t => ¬ d.IsNesting → t.size + n ≤ s.size + d.lookahead t.remaining ∧
    (f.Alike s s' → f.left.length + d.lookahead t.remaining ≤ t.size →
      p'.Gives s' fun _ _ => False)

/-- What `p` does at `s` tells what `p'` does at `s'`. -/
def Foretells (f : Fork) (n : Nat) (p p' : Parse α) (s s' : TokenStream) : Prop :=
  s.Good → f.Foretold n p' s s' (p s)

variable {p p' : Parse α} {g g' : α → Parse β}

namespace Foretold

/-- What a reading tells about one reader it tells about another that does as much before the
fork. -/
theorem transfer {q' : Parse α} {r : EStateM.Result Diagnostic TokenStream α}
    (h : f.Foretold n p' s s' r) (hq : f.Alike s s' → f.left.length + n ≤ s.size →
      ∀ post, p'.Gives s' post → q'.Gives s' post) : f.Foretold n q' s s' r := by
  cases r with
  | ok a t =>
    obtain ⟨ht, hsize, hok⟩ := h
    exact ⟨ht, hsize, fun halike hle => hq halike (by omega) _ (hok halike hle)⟩
  | error d t =>
    intro hnesting
    obtain ⟨hsize, hstops⟩ := h hnesting
    exact ⟨hsize, fun halike hle => hq halike (by omega) _ (hstops halike hle)⟩

/-- A reading whose first part stops with `p` stops with it on the other side. -/
theorem chain {q' : Parse β} (h : f.Foretold n p' s s' (p s))
    (hstop : f.Alike s s' → p'.Gives s' (fun _ _ => False) → q'.Gives s' fun _ _ => False)
    (hrest : ∀ a t, f.Foretold n p' s s' (.ok a t) → f.Foretold n q' s s' (g a t)) :
    f.Foretold n q' s s' ((p >>= g) s) := by
  show f.Foretold n q' s s' (EStateM.bind p g s)
  unfold EStateM.bind
  cases hp : p s with
  | ok a t =>
    rw [hp] at h
    exact hrest a t h
  | error d t =>
    rw [hp] at h
    intro hnesting
    obtain ⟨hsize, hstops⟩ := h hnesting
    exact ⟨hsize, fun halike hle => hstop halike (hstops halike hle)⟩

/-- What goes on after a value was read goes on after it on the other side. What is looked at there
lies before the fork. -/
theorem after {m : Nat} {q' : Parse β} {a : α} {r : EStateM.Result Diagnostic TokenStream β}
    (hfirst : f.Foretold n p' s s' (.ok a t)) (hrest : t.Good → ∀ t', f.Foretold m (g a) t t' r)
    (hstep : ∀ post, f.Alike s s' → f.left.length + m ≤ t.size →
      p'.Gives s' (fun b t' => f.Alike t t' ∧ b = a ∧ (g a).Gives t' post) → q'.Gives s' post) :
    f.Foretold n q' s s' r := by
  obtain ⟨ht, hsize, hok⟩ := hfirst
  have hrest := hrest ht
  cases r with
  | ok b u =>
    obtain ⟨hu, hsize', -⟩ := hrest t
    refine ⟨hu, by omega, fun halike hle => hstep _ halike (by omega) ?_⟩
    refine (hok halike (by omega)).mono ?_
    rintro c t' ⟨rfl, halike'⟩
    exact ⟨halike', rfl, (hrest t').2.2 halike' hle⟩
  | error d u =>
    intro hnesting
    obtain ⟨hsize', -⟩ := hrest t hnesting
    refine ⟨by omega, fun halike hle => hstep _ halike (by omega) ?_⟩
    refine (hok halike (by omega)).mono ?_
    rintro c t' ⟨rfl, halike'⟩
    exact ⟨halike', rfl, (hrest t' hnesting).2 halike' hle⟩

end Foretold

namespace Foretells

/-- A reader that looks at some tokens looks at none at least. -/
theorem weaken (h : f.Foretells n p p' s s') : f.Foretells 0 p p' s s' := by
  intro hs
  have h := h hs
  cases hp : p s with
  | ok a t =>
    rw [hp] at h
    obtain ⟨ht, hsize, hok⟩ := h
    exact ⟨ht, by omega, hok⟩
  | error d t =>
    rw [hp] at h
    intro hnesting
    obtain ⟨hsize, herror⟩ := h hnesting
    exact ⟨by omega, herror⟩

theorem bind (h : f.Foretells n p p' s s')
    (hrest : ∀ a t t', f.Foretells 0 (g a) (g' a) t t') :
    f.Foretells n (p >>= g) (p' >>= g') s s' := by
  intro hs
  refine Foretold.chain (h hs) (fun _ hfalse => ?_) fun a t hfirst => ?_
  · rw [gives_bind]
    exact hfalse.mono fun _ _ hfalse => hfalse.elim
  · refine Foretold.after (g := g') hfirst (fun ht t' => hrest a t t' ht) fun post _ _ hpost => ?_
    rw [gives_bind]
    refine hpost.mono ?_
    rintro b t' ⟨-, rfl, hb⟩
    exact hb

theorem pure (a : α) : f.Foretells 0 (Pure.pure a : Parse α) (Pure.pure a) s s' :=
  fun hs => ⟨hs, Nat.le_refl _, fun halike _ => ⟨rfl, halike⟩⟩

theorem map {h : α → β} (hp : f.Foretells n p p' s s') :
    f.Foretells n (h <$> p) (h <$> p') s s' := by
  rw [map_eq_pure_bind, map_eq_pure_bind]
  exact hp.bind fun a _ _ => pure (h a)

/-- What is looked at in both streams is the same when they are alike. -/
theorem look {v : TokenStream → α} (hv : f.Alike s s' → v s = v s')
    (h : f.Foretells n (g (v s)) (g' (v s)) s s') :
    f.Foretells n (fun u => g (v u) u) (fun u => g' (v u) u) s s' := by
  refine fun hs => Foretold.transfer (h hs) fun halike _ post hpost => ?_
  rw [hv halike] at hpost
  exact hpost

theorem kind {g g' : Kind → Parse β} (h : f.Foretells n (g s.kind) (g' s.kind) s s') :
    f.Foretells n (Parse.kind >>= g) (Parse.kind >>= g') s s' :=
  look Alike.kind h

theorem current {g g' : Token → Parse β} (h : f.Foretells n (g s.current) (g' s.current) s s') :
    f.Foretells n (Parse.current >>= g) (Parse.current >>= g') s s' :=
  look Alike.current h

theorem position {g g' : Position → Parse β}
    (h : f.Foretells n (g s.position) (g' s.position) s s') :
    f.Foretells n (Parse.position >>= g) (Parse.position >>= g') s s' :=
  look Alike.position h

theorem spanFrom {g g' : Span → Parse β} {start : Position}
    (h : f.Foretells n (g (s.spanFrom start)) (g' (s.spanFrom start)) s s') :
    f.Foretells n (Parse.spanFrom start >>= g) (Parse.spanFrom start >>= g') s s' :=
  look (v := fun u => u.spanFrom start) (fun halike => halike.spanFrom start) h

/-- The token behind the current one may be looked at by a reader that passes the current one in any
case: at the last token before the fork it tells nothing. -/
theorem peek (c : Token → Kind → Prop) [∀ token kind, Decidable (c token kind)]
    {yes no yes' no' : Parse α}
    (hyes : c s.current (s.peek 1) → f.Foretells 1 yes yes' s s')
    (hno : ¬ c s.current (s.peek 1) → f.Foretells 1 no no' s s') :
    f.Foretells 1 (fun u => (if c u.current (u.peek 1) then yes else no) u)
      (fun u => (if c u.current (u.peek 1) then yes' else no') u) s s' := by
  intro hs
  by_cases hc : c s.current (s.peek 1)
  · simp only [hc, if_true]
    refine Foretold.transfer (hyes hc hs) fun halike hle post hpost => ?_
    rw [halike.current, halike.peek (by omega)] at hc
    simpa only [Gives, hc, if_true] using hpost
  · simp only [hc, if_false]
    refine Foretold.transfer (hno hc hs) fun halike hle post hpost => ?_
    rw [halike.current, halike.peek (by omega)] at hc
    simpa only [Gives, hc, if_false] using hpost

theorem advance (hk : s.kind ≠ .eof) :
    f.Foretells 1 Parse.advance Parse.advance s s' := by
  intro hs
  obtain ⟨hremaining, hnext⟩ := hs.next hk
  have hlength := congrArg List.length hremaining
  simp only [List.length_cons, TokenStream.length_remaining] at hlength
  refine ⟨hnext, by omega, fun halike hle => ?_⟩
  exact ⟨halike.current.symm, halike.next (by omega)⟩

/-- What is read after a token that is passed. -/
theorem advance_bind {g g' : Token → Parse β} (hk : s.kind ≠ .eof)
    (hrest : ∀ t', f.Foretells 0 (g s.current) (g' s.current) s.next t') :
    f.Foretells 1 (Parse.advance >>= g) (Parse.advance >>= g') s s' := by
  intro hs
  refine Foretold.after (g := g') (advance hk hs) (fun ht t' => hrest t' ht)
    fun post _ _ hpost => ?_
  rw [gives_bind]
  refine hpost.mono ?_
  rintro b t' ⟨-, rfl, hb⟩
  exact hb

theorem failWith (cause : Token → Cause) :
    f.Foretells 0 (Parse.failWith cause : Parse α) (Parse.failWith cause) s s' :=
  fun _ _ => ⟨Nat.le_add_right _ _, fun _ _ => gives_failWith cause⟩

theorem expectOr {k : Kind} {q : Parse Token} (hk : k ≠ .eof)
    (hq : f.Foretells 0 q q s s') :
    f.Foretells 0 (Parse.expectOr k q) (Parse.expectOr k q) s s' := by
  refine kind ?_
  split
  · next h => exact (advance (h ▸ hk)).weaken
  · exact hq

theorem expect {k : Kind} (hk : k ≠ .eof) :
    f.Foretells 0 (Parse.expect k) (Parse.expect k) s s' :=
  expectOr hk (failWith _)

theorem expectDetailed {k : Kind} (hk : k ≠ .eof) (detail : String) :
    f.Foretells 0 (Parse.expectDetailed k detail) (Parse.expectDetailed k detail) s s' :=
  expectOr hk (failWith _)

end Foretells

end Fork

/-! ## Repetition -/

namespace Parse

variable {α : Type} {item : Parse α} {s : TokenStream} {post : List α → TokenStream → Prop}

theorem gives_repeatUntil_step {stop : Kind → Bool} (hstop : stop s.kind = false) :
    (repeatUntil stop item).Gives s post ↔ item.Gives s fun a t =>
      (if t.size < s.size then List.cons a <$> repeatUntil stop item
        else pure [a]).Gives t post := by
  rw [Gives, repeatUntil_step hstop]
  exact gives_bind _ _

theorem gives_commaSeparated_step :
    (commaSeparated item).Gives s post ↔ item.Gives s fun a t =>
      (if t.kind = .comma then
        if t.next.size < s.size then advance >>= fun _ => List.cons a <$> commaSeparated item
        else advance >>= fun _ => pure [a]
      else pure [a]).Gives t post := by
  rw [Gives, commaSeparated_step]
  exact gives_bind _ _

end Parse

namespace Fork

variable {f : Fork} {α : Type} {item item' : Parse α} {s s' t t' : TokenStream}

/-- A reading has got on just when the other one has. -/
theorem Alike.size_lt_iff (h : f.Alike s s') (ht : f.Alike t t') :
    t'.size < s'.size ↔ t.size < s.size := by
  have hs := h.size
  have ht := ht.size
  omega

namespace Foretells

theorem repeatUntil {stop : Kind → Bool} (hitem : ∀ t t', f.Foretells 0 item item' t t') :
    f.Foretells 0 (Parse.repeatUntil stop item) (Parse.repeatUntil stop item') s s' := by
  intro hs
  -- by induction on what is left of the first stream, since an item that passes nothing is the last
  induction hn : s.size using Nat.strongRecOn generalizing s s' with
  | _ n ih =>
  by_cases hstop : stop s.kind
  · rw [Parse.repeatUntil, if_pos hstop]
    refine ⟨hs, Nat.le_refl _, fun halike _ => ?_⟩
    rw [Gives, Parse.repeatUntil, ← halike.kind, if_pos hstop]
    exact ⟨rfl, halike⟩
  · rw [Bool.not_eq_true] at hstop
    rw [repeatUntil_step hstop]
    refine Foretold.chain (hitem s s' hs) (fun halike hfalse => ?_) fun a t hfirst => ?_
    · exact (gives_repeatUntil_step (halike.kind ▸ hstop)).2
        (hfalse.mono fun _ _ hfalse => hfalse.elim)
    by_cases hlt : t.size < s.size
    · simp only [hlt, if_true]
      refine Foretold.after (g := fun a => List.cons a <$> Parse.repeatUntil stop item') hfirst
        (fun ht t' => map (fun ht => ih t.size (hn ▸ hlt) ht rfl) ht) fun post halike _ hpost => ?_
      refine (gives_repeatUntil_step (halike.kind ▸ hstop)).2 (hpost.mono ?_)
      rintro b t' ⟨halike', rfl, hb⟩
      rwa [if_pos ((halike.size_lt_iff halike').2 hlt)]
    · simp only [hlt, if_false]
      refine Foretold.after (g := fun a => Pure.pure [a]) hfirst (fun ht t' => pure [a] ht)
        fun post halike _ hpost => ?_
      refine (gives_repeatUntil_step (halike.kind ▸ hstop)).2 (hpost.mono ?_)
      rintro b t' ⟨halike', rfl, hb⟩
      rwa [if_neg (mt (halike.size_lt_iff halike').1 hlt)]

theorem commaSeparated (hitem : ∀ t t', f.Foretells 0 item item' t t') :
    f.Foretells 0 (Parse.commaSeparated item) (Parse.commaSeparated item') s s' := by
  intro hs
  induction hn : s.size using Nat.strongRecOn generalizing s s' with
  | _ n ih =>
  rw [commaSeparated_step]
  refine Foretold.chain (hitem s s' hs) (fun _ hfalse => ?_) fun a t hfirst => ?_
  · exact gives_commaSeparated_step.2 (hfalse.mono fun _ _ hfalse => hfalse.elim)
  by_cases hcomma : t.kind = .comma
  · simp only [hcomma, if_true]
    have hsize : t.size ≤ s.size := hfirst.2.1
    have hne : t.kind ≠ .eof := by simp [hcomma]
    have hlt : t.next.size < s.size := by
      have hlength := congrArg List.length (hfirst.1.next hne).1
      simp only [List.length_cons, TokenStream.length_remaining] at hlength
      omega
    simp only [hlt, if_true]
    -- the comma that follows the item has to be before the fork as well
    refine Foretold.after (m := 1)
      (g := fun a => Parse.advance >>= fun _ => List.cons a <$> Parse.commaSeparated item')
      hfirst (fun ht t' => ?_) fun post halike hle hpost => ?_
    · exact advance_bind hne (fun t' => map fun ht => ih t.next.size (hn ▸ hlt) ht rfl) ht
    · refine gives_commaSeparated_step.2 (hpost.mono ?_)
      rintro b t' ⟨halike', rfl, hb⟩
      rw [if_pos (halike'.kind ▸ hcomma)]
      rwa [if_pos ((halike.size_lt_iff (halike'.next (by omega))).2 hlt)]
  · simp only [hcomma, if_false]
    refine Foretold.after (g := fun a => Pure.pure [a]) hfirst (fun ht t' => pure [a] ht)
      fun post halike _ hpost => ?_
    refine gives_commaSeparated_step.2 (hpost.mono ?_)
    rintro b t' ⟨halike', rfl, hb⟩
    rwa [if_neg (halike'.kind ▸ hcomma)]

theorem parenthesised (hitem : ∀ t t', f.Foretells 0 item item' t t') :
    f.Foretells 0 (Parse.parenthesised item) (Parse.parenthesised item') s s' := by
  refine (expect (by decide)).bind fun _ t t' => kind ?_
  have hclose : ∀ (items : List α) (u u' : TokenStream),
      f.Foretells 0 (Parse.expect .closeParen >>= fun _ => Pure.pure items)
        (Parse.expect .closeParen >>= fun _ => Pure.pure items) u u' :=
    fun items _ _ => (expect (by decide)).bind fun _ _ _ => pure items
  split
  · exact (pure []).bind hclose
  · exact (commaSeparated hitem).bind hclose

end Foretells

end Fork

end Nominal
