import Nominal.Proofs.Token.Identifier
import Nominal.Proofs.Token.Literal

/-!
# Lexemes before white space

No token goes on over white space, but for a string, which ends with its quote. So a token stays what
it is when what follows it is cut off, at once or later on, and white space put there
(`Lexeme.first?_of_isBlank_behind`). The rules that come before its own have not fitted and still do
not, since each of them looks for characters that are not white.
-/

namespace Nominal

namespace Lexeme

variable {c b : Char} {cs text kept cut more after rest : List Char}

/-! ## What white space is not -/

theorem isBlank_of_toNat (hmin : 33 ≤ c.toNat) (hmax : c.toNat ≤ 126) : isBlank c = false := by
  simp only [isBlank, blankRanges, List.any_cons, List.any_nil, Bool.or_false, Bool.or_eq_false_iff,
    Bool.and_eq_false_iff, decide_eq_false_iff_not]
  omega

/-- Names are of characters that can be seen. -/
theorem isBlank_of_isNamePart (h : isNamePart c) : isBlank c = false := by
  simp only [isNamePart, isWordPart, Char.isAlphanum, Bool.or_eq_true, beq_iff_eq,
    List.contains_iff_mem] at h
  have hoperators : ("=!<>-+*/".toList.all fun d => !isBlank d) = true := by decide
  rcases h with ((halpha | hdigit) | hline) | hoperator
  · exact isBlank_of_isWordStart (by simp [isWordStart, halpha])
  · have hrange := Char.isDigit_iff_toNat.1 hdigit
    simp only [Char.reduceToNat] at hrange
    exact isBlank_of_toNat (by omega) (by omega)
  · exact isBlank_of_isWordStart (by simp [isWordStart, hline])
  · simpa using List.all_eq_true.1 hoperators c hoperator

theorem isWordPart_of_isBlank (h : isBlank b) : isWordPart b = false := by
  cases hpart : isWordPart b with
  | false => rfl
  | true =>
    have hblank := isBlank_of_isNamePart (c := b) (by simp [isNamePart, hpart])
    simp [h] at hblank

theorem isDigit_of_isBlank (h : isBlank b) : b.isDigit = false := by
  have hpart := isWordPart_of_isBlank h
  simp only [isWordPart, Char.isAlphanum, Bool.or_eq_false_iff] at hpart
  exact hpart.1.2

/-! ## Fixed texts -/

/-- A text without white space that is not found is still not found when it is cut off by white
space. -/
theorem after?_of_isBlank_behind {ts : List Char} (hts : ∀ c ∈ ts, isBlank c = false)
    (hb : isBlank b) (h : after? ts (text ++ cut) = none) : after? ts (text ++ b :: more) = none := by
  cases hfound : after? ts (text ++ b :: more) with
  | none => rfl
  | some rest =>
    -- what is found ends before the cut, so that it was there, or goes on over white space
    obtain ⟨kept, htext, -⟩ | ⟨behind, htext, hrest⟩ :=
      List.append_eq_append_iff.1 (append_of_after? hfound)
    · rw [htext, List.append_assoc, after?_append] at h
      cases h
    · cases behind with
      | nil =>
        rw [htext, List.append_nil, after?_append] at h
        cases h
      | cons d behind =>
        obtain ⟨rfl, -⟩ := List.cons.inj hrest
        have hd := hts b (by simp [htext])
        simp [hb] at hd

section

variable {α : Type} {table : List α} {spelling : α → List Char} {meaning : α → Meaning}

/-- The first of some fixed texts that is found at the start of a text. -/
def fixed? (table : List α) (spelling : α → List Char) (meaning : α → Meaning) (cs : List Char) :
    Option Lexeme :=
  table.findSome? fun a => (after? (spelling a) cs).map fun rest => ⟨meaning a, spelling a, rest⟩

theorem fixed?_eq_none_of_isBlank_behind (htable : ∀ a ∈ table, ∀ c ∈ spelling a, isBlank c = false)
    (hb : isBlank b) (h : fixed? table spelling meaning (text ++ cut) = none) :
    fixed? table spelling meaning (text ++ b :: more) = none := by
  rw [fixed?, List.findSome?_eq_none_iff] at h ⊢
  intro a ha
  rw [Option.map_eq_none_iff]
  exact after?_of_isBlank_behind (htable a ha) hb (Option.map_eq_none_iff.1 (h a ha))

theorem fixed?_of_isBlank_behind {m : Meaning}
    (htable : ∀ a ∈ table, ∀ c ∈ spelling a, isBlank c = false) (hb : isBlank b)
    (h : fixed? table spelling meaning (text ++ kept ++ cut) = some ⟨m, text, kept ++ cut⟩) :
    fixed? table spelling meaning (text ++ kept ++ b :: more) =
      some ⟨m, text, kept ++ b :: more⟩ := by
  rw [fixed?, List.findSome?_eq_some_iff] at h ⊢
  obtain ⟨earlier, a, later, hsplit, hfound, hearlier⟩ := h
  obtain ⟨rest, -, heq⟩ := Option.map_eq_some_iff.1 hfound
  obtain ⟨rfl, rfl, -⟩ := Lexeme.mk.inj heq
  refine ⟨earlier, a, later, hsplit, ?_, fun e he => ?_⟩
  · rw [List.append_assoc, after?_append, Option.map_some]
  · have hmem : e ∈ table := by simp [hsplit, he]
    rw [Option.map_eq_none_iff]
    exact after?_of_isBlank_behind (htable e hmem) hb (Option.map_eq_none_iff.1 (hearlier e he))

end

theorem operatorName?_eq_fixed? : operatorName? =
    fixed? operators (fun op => ("operator" ++ op).toList)
      fun op => .token (.ofWord ("operator" ++ op)) ("operator" ++ op) :=
  rfl

theorem mark?_eq_fixed? : mark? =
    fixed? Kind.marks (fun m => m.1.toList) fun m => .token m.2 m.1 :=
  rfl

/-- No operator name and no mark has white space in it. -/
theorem isBlank_of_mem_fixed :
    (∀ op ∈ operators, ∀ c ∈ ("operator" ++ op).toList, isBlank c = false) ∧
      ∀ m ∈ Kind.marks, ∀ c ∈ m.1.toList, isBlank c = false := by
  have hoperators : (operators.all fun op =>
      ("operator" ++ op).toList.all fun c => !isBlank c) = true := by decide
  have hmarks : (Kind.marks.all fun m => m.1.toList.all fun c => !isBlank c) = true := by decide
  constructor
  · intro op hop c hc
    simpa using List.all_eq_true.1 (List.all_eq_true.1 hoperators op hop) c hc
  · intro m hm c hc
    simpa using List.all_eq_true.1 (List.all_eq_true.1 hmarks m hm) c hc

/-! ## Runs of characters -/

theorem run?_eq_none_iff {p : Char → Bool} {meaning : List Char → Meaning} :
    run? p meaning cs = none ↔ ∀ c ∈ cs.head?, p c = false := by
  unfold run?
  cases cs with
  | nil => simp
  | cons c cs => cases hc : p c <;> simp [hc]

/-- What starts a text that is not empty starts it whatever follows. -/
theorem head?_append_of_ne_nil (hne : text ≠ []) : (text ++ after).head? = text.head? := by
  obtain ⟨c, cs, rfl⟩ := List.exists_cons_of_ne_nil hne
  rfl

/-- A run of characters that are not white stops at white space if not earlier. -/
theorem run?_of_isBlank_behind {p : Char → Bool} {meaning : List Char → Meaning} {m : Meaning}
    (hb : p b = false)
    (h : run? p meaning (text ++ kept ++ cut) = some ⟨m, text, kept ++ cut⟩) :
    run? p meaning (text ++ kept ++ b :: more) = some ⟨m, text, kept ++ b :: more⟩ := by
  obtain ⟨hne, -⟩ := takes_of_run? h
  obtain ⟨run, hrun, heq⟩ := eq_of_run? h
  obtain ⟨rfl, rfl, hdrop⟩ := Lexeme.mk.inj heq
  rw [List.append_assoc]
  refine run?_append meaning hne hrun fun c hc => ?_
  cases kept with
  | nil =>
    obtain rfl := Option.some.inj hc
    exact hb
  | cons d kept =>
    have hstop : ∀ e ∈ ((text ++ d :: kept ++ cut).dropWhile p).head?, p e = false :=
      head?_dropWhile
    rw [← hdrop] at hstop
    exact hstop c hc

/-! ## The other rules -/

theorem comment?_of_isBlank_behind (hne : text ≠ []) (hb : isBlank b)
    (h : comment? (text ++ cut) = none) : comment? (text ++ b :: more) = none := by
  obtain ⟨c, cs, rfl⟩ := List.exists_cons_of_ne_nil hne
  by_cases hc : c = '/'
  · subst hc
    cases cs with
    | nil =>
      by_cases hslash : b = '/'
      · subst hslash
        cases hb
      · simp [comment?, hslash]
    | cons d cs =>
      by_cases hslash : d = '/'
      · subst hslash
        cases h
      · simp [comment?, hslash]
  · exact comment?_eq_none hc

theorem word?_eq_none_iff : word? cs = none ↔ ∀ c ∈ cs.head?, isWordStart c = false := by
  cases cs with
  | nil => simp [word?]
  | cons c cs =>
    cases hc : isWordStart c with
    | false => simp [word?, hc]
    | true =>
      have hword : isWord [c] = true := by simp [isWord, hc]
      have hpart := isWordPart_of_isWord hword c List.mem_cons_self
      simp [word?, hc, run?_eq_none_iff, hpart]

theorem word?_of_isBlank_behind {m : Meaning} (hb : isBlank b)
    (h : word? (text ++ kept ++ cut) = some ⟨m, text, kept ++ cut⟩) :
    word? (text ++ kept ++ b :: more) = some ⟨m, text, kept ++ b :: more⟩ := by
  obtain ⟨hne, -⟩ := takes_of_word? h
  obtain ⟨c, cs, rfl⟩ := List.exists_cons_of_ne_nil hne
  simp only [word?, List.cons_append] at h ⊢
  split at h
  · next hstart =>
    rw [if_pos hstart]
    rw [← List.cons_append, ← List.cons_append] at h ⊢
    exact run?_of_isBlank_behind (isWordPart_of_isBlank hb) h
  · cases h

/-- What closes a literal closes it whatever follows. -/
theorem closing?_append {inside : List Char} (h : closing? cs = some (inside, rest))
    (after : List Char) : closing? (inside ++ '"' :: after) = some (inside, after) := by
  fun_induction closing? cs generalizing inside rest with
  | case1 => cases h
  | case2 =>
    obtain ⟨rfl, -⟩ := Prod.mk.inj (Option.some.inj h)
    rfl
  | case3 => cases h
  | case4 => cases h
  | case5 c cs hc ih =>
    obtain ⟨⟨i, r⟩, hr, heq⟩ := Option.map_eq_some_iff.1 h
    obtain ⟨rfl, rfl⟩ := Prod.mk.inj heq
    simp [closing?, hc, ih hr]
  | case6 c cs hquote hlast hescape ih =>
    obtain ⟨⟨i, r⟩, hr, heq⟩ := Option.map_eq_some_iff.1 h
    obtain ⟨rfl, rfl⟩ := Prod.mk.inj heq
    have hbackslash : c ≠ '\\' := by
      rintro rfl
      cases cs with
      | nil => exact hlast rfl rfl
      | cons d cs => exact hescape d cs rfl rfl
    rw [List.cons_append, closing?_cons hbackslash hquote, ih hr]
    rfl

/-- A literal is one whatever follows. -/
theorem string?_append {m : Meaning} (h : string? (text ++ rest) = some ⟨m, text, rest⟩)
    (after : List Char) : string? (text ++ after) = some ⟨m, text, after⟩ := by
  unfold string? at h
  split at h
  · obtain ⟨⟨inside, behind⟩, hclosing, heq⟩ := Option.map_eq_some_iff.1 h
    obtain ⟨rfl, rfl, -⟩ := Lexeme.mk.inj heq
    simp [string?, closing?_append hclosing]
  · cases h

theorem quote_of_openQuote? (h : openQuote? cs = none) : ∀ c ∈ cs.head?, c ≠ '"' := by
  rintro c hc rfl
  obtain ⟨rest, rfl⟩ := List.head?_eq_some_iff.1 hc
  cases h

/-- Without a quote at the start there is no literal and none that is not closed. -/
theorem string?_eq_none (h : ∀ c ∈ cs.head?, c ≠ '"') : string? cs = none ∧ openQuote? cs = none := by
  cases cs with
  | nil => exact ⟨rfl, rfl⟩
  | cons c cs =>
    have hc := h c rfl
    simp [string?, openQuote?, hc]

/-! ## The first lexeme -/

/-- The first of two that fits stays the same one, when it keeps what it gives and what has not fitted
still does not. -/
theorem or_eq_some_of_imp {a a' b b' : Option Lexeme} {l l' : Lexeme}
    (hfits : a = some l → a' = some l') (hnot : a = none → a' = none)
    (hrest : b = some l → b' = some l') (h : a.or b = some l) : a'.or b' = some l' := by
  rw [Option.or_eq_some_iff] at h ⊢
  exact h.imp hfits fun hboth => ⟨hnot hboth.1, hrest hboth.2⟩

/-- A quote that is not closed is no token. -/
theorem openQuote?_eq_none {other : Option Lexeme} {kind : Kind} {value : String}
    (h : (openQuote? cs).or other = some ⟨.token kind value, text, rest⟩) :
    openQuote? cs = none := by
  unfold openQuote? at h ⊢
  split at h
  · cases h
  · rfl

/-- A token stays what it is when white space is put somewhere behind it and what followed there is
cut off. -/
theorem first?_of_isBlank_behind {kind : Kind} {value : String} (hb : isBlank b)
    (h : first? (text ++ kept ++ cut) = some ⟨.token kind value, text, kept ++ cut⟩)
    (more : List Char) :
    first? (text ++ kept ++ b :: more) = some ⟨.token kind value, text, kept ++ b :: more⟩ := by
  have hne : text ++ kept ≠ [] := by simp [(takes_of_first? h).1]
  have hhead : (text ++ kept ++ b :: more).head? = (text ++ kept ++ cut).head? := by
    rw [head?_append_of_ne_nil hne, head?_append_of_ne_nil hne]
  have hrun {p : Char → Bool} {meaning : List Char → Meaning}
      (hnone : run? p meaning (text ++ kept ++ cut) = none) :
      run? p meaning (text ++ kept ++ b :: more) = none := by
    rw [run?_eq_none_iff] at hnone ⊢
    rwa [hhead]
  rw [first?_eq_or] at h ⊢
  revert h
  refine or_eq_some_of_imp ?blanks hrun (or_eq_some_of_imp ?comment ?noComment
    (or_eq_some_of_imp ?operator ?noOperator (or_eq_some_of_imp (word?_of_isBlank_behind hb) ?noWord
      (or_eq_some_of_imp (run?_of_isBlank_behind (isDigit_of_isBlank hb)) hrun fun h => ?quoted))))
  case blanks =>
    intro hblanks
    obtain ⟨run, -, heq⟩ := eq_of_run? hblanks
    cases heq
  case comment =>
    intro hcomment
    unfold comment? at hcomment
    split at hcomment
    · cases hcomment
    · cases hcomment
  case noComment => exact comment?_of_isBlank_behind hne hb
  case operator =>
    rw [operatorName?_eq_fixed?]
    exact fixed?_of_isBlank_behind isBlank_of_mem_fixed.1 hb
  case noOperator =>
    rw [operatorName?_eq_fixed?]
    exact fixed?_eq_none_of_isBlank_behind isBlank_of_mem_fixed.1 hb
  case noWord =>
    intro hword
    rwa [word?_eq_none_iff, hhead, ← word?_eq_none_iff]
  case quoted =>
    -- without a literal there is no quote at all, as it would be one that is not closed
    rw [Option.or_eq_some_iff] at h
    obtain hstring | ⟨-, h⟩ := h
    · rw [List.append_assoc] at hstring ⊢
      rw [string?_append hstring, Option.some_or]
    · have hquote := openQuote?_eq_none h
      obtain ⟨hstring, hopen⟩ := string?_eq_none (hhead ▸ quote_of_openQuote? hquote)
      rw [hquote, Option.none_or, Option.or_none, mark?_eq_fixed?] at h
      rw [hstring, hopen, Option.none_or, Option.none_or, Option.or_none, mark?_eq_fixed?]
      exact fixed?_of_isBlank_behind isBlank_of_mem_fixed.2 hb h

end Lexeme

end Nominal
