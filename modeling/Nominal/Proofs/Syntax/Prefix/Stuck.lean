import Nominal.Proofs.Syntax.Prefix.Fork
import Nominal.Proofs.Syntax.Printed

/-!
# Where reading gets stuck

`Parse.Fails` says what holds of the diagnostic a reader stops with and of the stream where it
stops. What the rules promise about it is `Stuck`: the diagnostic stands at the current token, and
the tokens that were passed, with the `fun` that is missing a name, can be completed to a spelling
of a tree. The tree is made from the parts that were read, and of the smallest parts where none was
read yet. A rule adds its own marks around a part that got stuck (`Stuck.within`), or stops itself
between two parts (`Stuck.here`).
-/

namespace Nominal

open Token Piece

namespace Piece

@[simp] theorem isWritable_token (kind : Kind) (value : String) : (token kind value).IsWritable :=
  trivial

@[simp] theorem isWritable_optionalParens : optionalParens.IsWritable :=
  trivial

end Piece

/-! ## Diagnostics at a place -/

/-- The diagnostic stands at the current token and depends on no other. -/
def Diagnostic.At (d : Diagnostic) (t : TokenStream) : Prop :=
  d.span = t.current.span ∧ d.lookahead t.remaining = 0

/-- Only a cause that says so depends on the token behind `fun`. -/
theorem Diagnostic.at_of_isMissingMember {cause : Cause} {t : TokenStream}
    (h : cause.isMissingMember = false) : Diagnostic.At ⟨cause, t.current.span⟩ t :=
  ⟨rfl, if_neg fun hnameless => Bool.false_ne_true (h.symm.trans hnameless.1)⟩

/-! ## Completions -/

/-- Reading started at `s` and stopped at `t` with levels left, at the current token. The tokens
between, with those that the diagnostic depends on but the last, begin a spelling of something
good. -/
def Stuck {α : Type} (pieces : α → List Piece) (good : α → Prop) (s : TokenStream) (d : Diagnostic)
    (t : TokenStream) : Prop :=
  d.IsNesting ∨ d.span = t.current.span ∧ ∃ a ts more, good a ∧ s.remaining = ts ++ t.remaining ∧
    Spelling (pieces a) (ts ++ t.remaining.take (d.lookahead t.remaining) ++ more)

namespace Stuck

variable {α β : Type} {pieces : α → List Piece} {pieces' : β → List Piece} {good : α → Prop}
  {good' : β → Prop} {s t u : TokenStream} {d : Diagnostic} {ps : List Piece}

/-- A rule stops behind the pieces `ps`: what is left of its tree can be written. -/
theorem here (a : α) (qs : List Piece) (hw : s.Writes ps t) (hd : d.At t) (hgood : good a)
    (hpieces : pieces a = ps ++ qs) (hqs : ∀ p ∈ qs, p.IsWritable) : Stuck pieces good s d t := by
  obtain ⟨-, ts, hts, hall⟩ := hw
  refine .inr ⟨hd.1, a, ts, qs.flatMap write, hgood, hall, ?_⟩
  rw [hpieces, hd.2, List.take_zero, List.append_nil]
  exact hts.append (spelling_write hqs)

/-- A part gets stuck behind the pieces `ps`: what comes after it can be written. -/
theorem within (h : Stuck pieces good t d u) (qs : List Piece) (hw : s.Writes ps t)
    (hpart : ∀ a, good a → ∃ b, good' b ∧ pieces' b = ps ++ pieces a ++ qs)
    (hqs : ∀ p ∈ qs, p.IsWritable) : Stuck pieces' good' s d u := by
  obtain hnesting | ⟨hspan, a, us, more, hgood, ht, hspelling⟩ := h
  · exact .inl hnesting
  obtain ⟨-, ts, hts, hs⟩ := hw
  obtain ⟨b, hgood', hpieces⟩ := hpart a hgood
  refine .inr ⟨hspan, b, ts ++ us, more ++ qs.flatMap write, hgood', ?_, ?_⟩
  · rw [hs, ht, List.append_assoc]
  · have hall := (hts.append hspelling).append (spelling_write hqs)
    rw [hpieces]
    simpa only [List.append_assoc] using hall

/-- The last part gets stuck, behind the pieces `ps`. -/
theorem behind (h : Stuck pieces good t d u) (hw : s.Writes ps t)
    (hpart : ∀ a, good a → ∃ b, good' b ∧ pieces' b = ps ++ pieces a) :
    Stuck pieces' good' s d u :=
  h.within [] hw (fun a ha => by simpa using hpart a ha) (by simp)

/-- What begins a spelling of one thing may begin a spelling of another. -/
theorem imp (h : Stuck pieces good s d t)
    (hpart : ∀ a, good a → ∃ b, good' b ∧ ∀ ts, Spelling (pieces a) ts → Spelling (pieces' b) ts) :
    Stuck pieces' good' s d t := by
  obtain hnesting | ⟨hspan, a, ts, more, hgood, hall, hspelling⟩ := h
  · exact .inl hnesting
  obtain ⟨b, hgood', hspells⟩ := hpart a hgood
  exact .inr ⟨hspan, b, ts, more, hgood', hall, hspells _ hspelling⟩

end Stuck

namespace Parse

variable {α β : Type} {s t : TokenStream}

/-- What holds of the diagnostic and of the stream where the reader stops that starts at `s`, if it
stops. -/
def Fails (p : Parse α) (s : TokenStream) (post : Diagnostic → TokenStream → Prop) : Prop :=
  match p s with
  | .ok _ _ => True
  | .error d t => post d t

section

variable {p : Parse α} {f : α → Parse β} {post post' : Diagnostic → TokenStream → Prop}

theorem Fails.mono (h : p.Fails s post) (hpost : ∀ d t, post d t → post' d t) :
    p.Fails s post' := by
  unfold Fails at h ⊢
  cases hp : p s with
  | ok a t => trivial
  | error d t =>
    rw [hp] at h
    exact hpost d t h

theorem Fails.of_error {d : Diagnostic} (h : p.Fails s post) (hp : p s = .error d t) :
    post d t := by
  unfold Fails at h
  rwa [hp] at h

/-- A sequence stops with its first part or with the rest. -/
theorem Fails.bind (hp : p.Fails s post) (hf : p.Gives s fun a t => (f a).Fails t post) :
    (p >>= f).Fails s post := by
  show (match EStateM.bind p f s with
    | .ok _ _ => True
    | .error d t => post d t)
  unfold EStateM.bind
  unfold Fails at hp
  unfold Gives at hf
  cases hok : p s with
  | ok a t =>
    rw [hok] at hf
    exact hf
  | error d t =>
    rw [hok] at hp
    exact hp

/-- A sequence stops with its first part when the rest never stops. -/
theorem Fails.last (hp : p.Fails s post) (hf : ∀ a t, (f a).Fails t post) :
    (p >>= f).Fails s post := by
  refine hp.bind ?_
  unfold Gives
  cases p s with
  | ok a t => exact hf a t
  | error d t => trivial

theorem Fails.map {h : α → β} (hp : p.Fails s post) : (h <$> p).Fails s post := by
  rw [map_eq_pure_bind]
  exact hp.last fun _ _ => trivial

theorem fails_get {f : TokenStream → Parse β} (h : (f s).Fails s post) :
    (get >>= f : Parse β).Fails s post :=
  Fails.bind (p := get) trivial h

theorem fails_current {f : Token → Parse β} (h : (f s.current).Fails s post) :
    (current >>= f).Fails s post :=
  Fails.bind (p := current) trivial h

theorem fails_kind {f : Kind → Parse β} (h : (f s.kind).Fails s post) :
    (kind >>= f).Fails s post :=
  Fails.bind (p := kind) trivial h

theorem fails_position {f : Position → Parse β} (h : (f s.position).Fails s post) :
    (position >>= f).Fails s post :=
  Fails.bind (p := position) trivial h

theorem fails_advance {f : Token → Parse β} (h : (f s.current).Fails s.next post) :
    (advance >>= f).Fails s post :=
  Fails.bind (p := advance) trivial h

theorem fails_failWith {cause : Token → Cause} (h : (cause s.current).isMissingMember = false)
    (hpost : ∀ d : Diagnostic, d.At s → post d s) : (failWith cause : Parse α).Fails s post :=
  hpost _ (Diagnostic.at_of_isMissingMember h)

theorem fails_expectOr {k : Kind} {q : Parse Token} (h : s.kind ≠ k → q.Fails s post) :
    (expectOr k q).Fails s post := by
  refine fails_kind ?_
  split
  · trivial
  · next hk => exact h hk

theorem fails_expect {k : Kind} (hpost : ∀ d : Diagnostic, d.At s → post d s) :
    (expect k).Fails s post :=
  fails_expectOr fun _ => fails_failWith rfl hpost

theorem fails_unexpectedDetailed {detail : String}
    (hdetail : (Cause.unexpectedTokenDetailed "" detail).isMissingMember = false)
    (hpost : ∀ d : Diagnostic, d.At s → post d s) :
    (unexpectedDetailed detail : Parse α).Fails s post :=
  fails_failWith hdetail hpost

theorem fails_expectDetailed {k : Kind} {detail : String}
    (hdetail : (Cause.unexpectedTokenDetailed "" detail).isMissingMember = false)
    (hpost : ∀ d : Diagnostic, d.At s → post d s) : (expectDetailed k detail).Fails s post :=
  fails_expectOr fun _ => fails_unexpectedDetailed hdetail hpost

end

/-! ## Repetition -/

section

variable {item : Parse α} {pieces : α → List Piece} {good : α → Prop}

/-- Of a repetition that gets stuck, the item that got stuck is the last one. -/
theorem repeatUntil_fails {stop : Kind → Bool}
    (hread : ∀ s : TokenStream, s.Good → stop s.kind = false →
      item.Gives s fun a t => s.Writes (pieces a) t ∧ good a)
    (hitem : ∀ s : TokenStream, s.Good → item.Fails s (Stuck pieces good s)) (hs : s.Good) :
    (repeatUntil stop item).Fails s
      (Stuck (fun as : List α => (as.map pieces).flatten) (fun as => ∀ a ∈ as, good a) s) := by
  unfold Fails
  fun_induction repeatUntil stop item s with
  | case1 => trivial
  | case2 s hstop d t herror =>
    refine ((hitem s hs).of_error herror).behind hs.writes_nil fun a ha => ?_
    exact ⟨[a], by simpa using ha, by simp⟩
  | case3 s hstop a t ha _ d u herror ih =>
    obtain ⟨hwrites, hgood⟩ := (hread s hs (by simpa using hstop)).of_ok ha
    rw [herror] at ih
    refine (ih hwrites.good).behind hwrites fun as has => ?_
    exact ⟨a :: as, List.forall_mem_cons.2 ⟨hgood, has⟩, by simp⟩
  | case4 => trivial
  | case5 => trivial

/-- Of items with commas between them that get stuck, the item that got stuck is the last one. -/
theorem commaSeparated_fails (hread : item.Reads pieces good)
    (hitem : ∀ s : TokenStream, s.Good → item.Fails s (Stuck pieces good s)) (hs : s.Good) :
    (commaSeparated item).Fails s
      (Stuck (fun as : List α => List.intercalate [.mark .comma] (as.map pieces))
        (fun as => as ≠ [] ∧ ∀ a ∈ as, good a) s) := by
  unfold Fails
  fun_induction commaSeparated item s with
  | case1 s d t herror =>
    refine ((hitem s hs).of_error herror).behind hs.writes_nil fun a ha => ?_
    exact ⟨[a], by simpa using ha, by simp⟩
  | case2 s a t ha hcomma _ d u herror ih =>
    obtain ⟨hwrites, hgood⟩ := (hread s hs).of_ok ha
    have hmark := hwrites.good.writes_mark hcomma (by decide)
    rw [herror] at ih
    refine (ih hmark.good).behind (hwrites.append hmark) fun as has => ?_
    obtain ⟨hne, hall⟩ := has
    refine ⟨a :: as, ⟨by simp, List.forall_mem_cons.2 ⟨hgood, hall⟩⟩, ?_⟩
    rw [List.map_cons, List.intercalate_cons_of_ne_nil (by simpa using hne)]
  | case3 => trivial
  | case4 => trivial
  | case5 => trivial

/-- Items between parentheses that get stuck lack at most the closing one. -/
theorem parenthesised_fails (hread : item.Reads pieces good)
    (hitem : ∀ s : TokenStream, s.Good → item.Fails s (Stuck pieces good s)) (hs : s.Good) :
    (parenthesised item).Fails s
      (Stuck (fun as : List α => Piece.parenthesised (as.map pieces)) (fun as => ∀ a ∈ as, good a)
        s) := by
  refine .bind (fails_expect fun d hd => ?_) ((gives_expect _).2 fun hopen => ?_)
  · refine .here [] (Piece.parenthesised []) hs.writes_nil hd (by simp) rfl ?_
    exact isWritable_parenthesised (by simp)
  have hstart := hs.writes_mark hopen (by decide)
  have hclose : ∀ (as : List α) (t : TokenStream), (∀ a ∈ as, good a) →
      s.Writes (.mark .openParen :: List.intercalate [.mark .comma] (as.map pieces)) t →
      (expect .closeParen >>= fun _ => pure as).Fails t
        (Stuck (fun as : List α => Piece.parenthesised (as.map pieces)) (fun as => ∀ a ∈ as, good a)
          s) := by
    intro as t has hwrites
    refine .last (fails_expect fun d hd => ?_) fun _ _ => trivial
    exact .here as [.mark .closeParen] hwrites hd has (by simp [Piece.parenthesised])
      (by simp [isWritable_mark])
  refine fails_kind ?_
  split
  · exact hclose [] _ (by simp) hstart
  · refine .bind ((commaSeparated_fails hread hitem hstart.good).mono fun d t h => ?_) ?_
    · refine h.within [.mark .closeParen] hstart (fun as has => ?_) (by simp [isWritable_mark])
      exact ⟨as, has.2, rfl⟩
    · refine (hread.gives_commaSeparated hstart.good).mono ?_
      rintro as t ⟨-, hwrites, has⟩
      exact hclose as t has (hstart.append hwrites)

end

end Parse

end Nominal
