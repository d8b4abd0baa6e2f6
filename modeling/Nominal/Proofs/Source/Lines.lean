import Mathlib.Data.List.TakeWhile
import Nominal.Proofs.Source.Place
import Nominal.Source.Line
import Nominal.Text.Blank

/-!
# The lines of a text

A point in a text is on the line that is counted by the line feeds before it, and this line is what
stands before the point since the last line feed and what stands behind it up to the next one
(`splitLines_append`). What is cut off the end of a line by `dropWhileEnd` is cut off by any other
cut that takes more (`dropWhileEnd_strip`).
-/

namespace Nominal

/-- What stands on the line of a point before it. -/
def lineBefore (before : List Char) : List Char :=
  (before.reverse.takeWhile (· != '\n')).reverse

/-- What stands on the line of a point behind it. -/
def lineAfter (after : List Char) : List Char :=
  after.takeWhile (· != '\n')

theorem length_lineBefore (before : List Char) : (lineBefore before).length = sinceLineFeed before := by
  rw [lineBefore, List.length_reverse, sinceLineFeed]

/-- What stops a run of characters stops it at the same place whatever is before it. -/
theorem upTo_append {p : Char → Bool} {more : List Char} (text : List Char)
    (hmore : ∀ c ∈ more.head?, p c = false) :
    (text ++ more).takeWhile p = text.takeWhile p ∧
      (text ++ more).dropWhile p = text.dropWhile p ++ more := by
  induction text with
  | nil =>
    cases more with
    | nil => exact ⟨rfl, rfl⟩
    | cons b more => simp [hmore b rfl]
  | cons c text ih =>
    cases hc : p c with
    | true => simp [hc, ih]
    | false => simp [hc]

theorem forall_ne_of_notMem {text : List Char} (h : '\n' ∉ text) :
    ∀ c ∈ text, (c != '\n') = true := by
  intro c hc
  rw [bne_iff_ne]
  rintro rfl
  exact h hc

/-- A line feed stops the search for line feeds. -/
theorem ne_lineFeed_head (more : List Char) : ∀ c ∈ ('\n' :: more).head?, (c != '\n') = false := by
  rintro c ⟨⟩
  rfl

/-- Since the last line feed there are fewer characters than in all. -/
theorem sinceLineFeed_lt_length {text : List Char} (h : '\n' ∈ text) :
    sinceLineFeed text < text.length := by
  obtain ⟨later, earlier, hsplit⟩ := List.append_of_mem (List.mem_reverse.2 h)
  have hlength := congrArg List.length hsplit
  have hle := (List.takeWhile_sublist (l := later) (· != '\n')).length_le
  rw [List.length_reverse, List.length_append, List.length_cons] at hlength
  rw [sinceLineFeed, hsplit, (upTo_append later (ne_lineFeed_head earlier)).1]
  omega

/-- Where another character is, there are fewer line feeds than characters. -/
theorem lineFeeds_lt_length {text : List Char} (h : ∃ c ∈ text, c ≠ '\n') :
    lineFeeds text < text.length := by
  obtain ⟨c, hc, hne⟩ := h
  refine Nat.lt_of_le_of_ne (lineFeeds_le_length text) fun heq => hne ?_
  exact (List.count_eq_length.1 heq c hc).symm

theorem lineBefore_lineFeed (before : List Char) :
    lineBefore ('\n' :: before) = lineBefore before := by
  rw [lineBefore, List.reverse_cons, (upTo_append before.reverse (ne_lineFeed_head [])).1]
  rfl

theorem lineBefore_cons_of_mem (c : Char) {before : List Char} (h : '\n' ∈ before) :
    lineBefore (c :: before) = lineBefore before := by
  obtain ⟨later, earlier, hsplit⟩ := List.append_of_mem (List.mem_reverse.2 h)
  rw [lineBefore, lineBefore, List.reverse_cons, hsplit, List.append_assoc, List.cons_append,
    (upTo_append later (ne_lineFeed_head _)).1, (upTo_append later (ne_lineFeed_head _)).1]

theorem lineBefore_cons_of_notMem {c : Char} {before : List Char} (hc : c ≠ '\n')
    (h : '\n' ∉ before) : lineBefore (c :: before) = c :: lineBefore before := by
  have hreverse := forall_ne_of_notMem (mt List.mem_reverse.1 h)
  have hwhole : '\n' ∉ (c :: before).reverse := by simp [h, hc.symm]
  rw [lineBefore, lineBefore, List.takeWhile_eq_self_iff.2 (forall_ne_of_notMem hwhole),
    List.takeWhile_eq_self_iff.2 hreverse, List.reverse_reverse, List.reverse_reverse]

theorem splitLines_ne_nil (text : List Char) : splitLines text ≠ [] := by
  fun_cases splitLines text <;> simp

/-- A character that is no line feed is put before the first line. -/
theorem splitLines_cons {c : Char} {text first : List Char} {lines : List (List Char)} (hc : c ≠ '\n')
    (h : splitLines text = first :: lines) : splitLines (c :: text) = (c :: first) :: lines := by
  rw [splitLines, if_neg hc, h]

/-- The line of a point is one of the lines of the text. -/
theorem splitLines_append (before after : List Char) :
    (splitLines (before ++ after))[lineFeeds before]? =
      some (lineBefore before ++ lineAfter after) := by
  induction before with
  | nil =>
    induction after with
    | nil => rfl
    | cons c after ih =>
      obtain ⟨first, lines, hlines⟩ := List.exists_cons_of_ne_nil (splitLines_ne_nil after)
      by_cases hc : c = '\n'
      · simp [splitLines, lineFeeds, lineBefore, lineAfter, hc]
      · rw [List.nil_append, hlines] at ih
        rw [List.nil_append, splitLines_cons hc hlines]
        simp_all [lineFeeds, lineBefore, lineAfter]
  | cons c before ih =>
    obtain ⟨first, lines, hlines⟩ := List.exists_cons_of_ne_nil (splitLines_ne_nil (before ++ after))
    by_cases hc : c = '\n'
    · have hfeeds : lineFeeds ('\n' :: before) = lineFeeds before + 1 := by simp [lineFeeds]
      subst hc
      rw [List.cons_append, splitLines, if_pos rfl, hfeeds, List.getElem?_cons_succ, ih,
        lineBefore_lineFeed]
    have hfeeds : lineFeeds (c :: before) = lineFeeds before := by simp [lineFeeds, hc]
    rw [List.cons_append, splitLines_cons hc hlines, hfeeds]
    rw [hlines] at ih
    by_cases hmem : '\n' ∈ before
    · -- the first line is not the one of the point
      obtain ⟨n, hn⟩ := Nat.exists_eq_succ_of_ne_zero (Nat.ne_of_gt (List.count_pos_iff.2 hmem))
      rw [show lineFeeds before = n + 1 from hn, List.getElem?_cons_succ] at ih ⊢
      rw [ih, lineBefore_cons_of_mem c hmem]
    · have hzero : lineFeeds before = 0 := List.count_eq_zero.2 hmem
      rw [hzero, List.getElem?_cons_zero] at ih ⊢
      rw [lineBefore_cons_of_notMem hc hmem, Option.some.inj ih]
      rfl

/-! ## The ends of lines -/

section

variable {p q : Char → Bool} {c : Char} {text tail : List Char}

theorem exists_dropWhileEnd (p : Char → Bool) (text : List Char) :
    ∃ tail, text = dropWhileEnd p text ++ tail ∧ ∀ c ∈ tail, p c := by
  refine ⟨(text.reverse.takeWhile p).reverse, ?_, fun c hc => ?_⟩
  · rw [dropWhileEnd, ← List.reverse_append, List.takeWhile_append_dropWhile, List.reverse_reverse]
  · exact List.all_eq_true.1 List.all_takeWhile c (List.mem_reverse.1 hc)

theorem dropWhileEnd_append_of_forall (h : ∀ c ∈ tail, p c) :
    dropWhileEnd p (text ++ tail) = dropWhileEnd p text := by
  rw [dropWhileEnd, List.reverse_append,
    List.dropWhile_append_of_pos fun c hc => h c (List.mem_reverse.1 hc)]
  rfl

/-- A character that is not cut off keeps all that is before it. -/
theorem dropWhileEnd_append_cons (h : p c = false) :
    dropWhileEnd p (text ++ c :: tail) = text ++ c :: dropWhileEnd p tail := by
  have hstop : ∀ d ∈ (c :: text.reverse).head?, p d = false := by
    rintro d ⟨⟩
    exact h
  rw [dropWhileEnd, List.reverse_append, List.reverse_cons, List.append_assoc, List.singleton_append,
    (upTo_append tail.reverse hstop).2]
  simp [dropWhileEnd]

end

/-- The carriage returns behind a line are white space behind it, and do not matter to the spaces it
starts with. -/
theorem dropWhileEnd_strip (line : List Char) :
    let stripped := dropWhileEnd (· == '\r') line
    stripped.takeWhile (· == ' ') = line.takeWhile (· == ' ') ∧
      dropWhileEnd isBlank (stripped.dropWhile (· == ' ')) =
        dropWhileEnd isBlank (line.dropWhile (· == ' ')) := by
  intro stripped
  obtain ⟨tail, hline, htail⟩ := exists_dropWhileEnd (· == '\r') line
  have hstop : ∀ c ∈ tail.head?, (c == ' ') = false := by
    intro c hc
    have hreturn := htail c (List.mem_of_mem_head? hc)
    rw [beq_iff_eq] at hreturn
    subst hreturn
    rfl
  have hblank : ∀ c ∈ tail, isBlank c := by
    intro c hc
    have hreturn := htail c hc
    rw [beq_iff_eq] at hreturn
    subst hreturn
    decide
  obtain ⟨htake, hdrop⟩ := upTo_append stripped hstop
  rw [← hline] at htake hdrop
  exact ⟨htake.symm, by rw [hdrop, dropWhileEnd_append_of_forall hblank]⟩

end Nominal
