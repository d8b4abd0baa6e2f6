import Nominal.Diagnostic.Excerpt
import Nominal.Proofs.Source.Lines
import Nominal.Proofs.Token.Marks

/-!
# What a rendered diagnostic shows

`Excerpt.Shows` says what the excerpt of a diagnostic should be for a stretch of a source: the line
on which the stretch starts, and carets under it. A diagnostic whose span is that of the stretch is
rendered so, unless the first caret stands too far to the right (`Diagnostic.render_of_marks`).
-/

namespace Nominal

/-! ## Excerpts -/

/-- A line of a source as it is shown, and the marker under it. -/
structure Excerpt where
  number : Nat
  text : List Char
  dashes : Nat
  carets : Nat

namespace Excerpt

/-- The number of the line, in digits. -/
def label (e : Excerpt) : List Char :=
  (toString e.number).toList

/-- The numbered line. -/
def textLine (e : Excerpt) : List Char :=
  e.label ++ ([' ', '|', ' '] ++ e.text)

/-- The line with the marker. -/
def markerLine (e : Excerpt) : List Char :=
  List.replicate (e.label.length + 1) ' ' ++ (['|', ' '] ++
    (List.replicate e.dashes '-' ++ List.replicate e.carets '^'))

/-- The excerpt as it is written. -/
def format (e : Excerpt) : String :=
  String.ofList (List.replicate (e.label.length + 1) ' ' ++ '|' :: '\n' :: e.textLine ++
    '\n' :: e.markerLine ++ ['\n'])

/-- The excerpt shows the line of `source` on which `slice` starts, which `left` stands before, and
marks `slice` on it. -/
structure Shows (e : Excerpt) (source left slice line : List Char) : Prop where
  /-- The line is the one of `slice`. -/
  number : e.number = 1 + lineFeeds left
  found : (splitLines source)[lineFeeds left]? = some line
  /-- It is shown without the spaces before it and the white space behind it. -/
  text : e.text = dropWhileEnd isBlank (line.dropWhile (· == ' '))
  /-- The first caret is under the first character of `slice`. -/
  under : ∀ c ∈ slice.head?, e.textLine[e.markerLine.idxOf '^']? = some c
  /-- When there is none, it is one column behind the end of the line. -/
  behind : slice = [] → e.markerLine.idxOf '^' = (e.label ++ ([' ', '|', ' '] ++
    line.dropWhile (· == ' '))).length
  /-- The dashes are for the characters that are shown before `slice`. -/
  dashes : e.dashes + (line.takeWhile (· == ' ')).length = sinceLineFeed left
  /-- There are as many carets as characters, if these are on one line, and else there is one. -/
  carets : e.carets = if slice ≠ [] ∧ '\n' ∉ slice then slice.length else 1

end Excerpt

theorem toList_pushn (s : String) (c : Char) (n : Nat) :
    (s.pushn c n).toList = s.toList ++ List.replicate n c := by
  induction n with
  | zero => simp [String.pushn, Nat.repeat]
  | succ n ih =>
    rw [List.replicate_succ', ← List.append_assoc, ← ih]
    simp [String.pushn, Nat.repeat]

theorem toList_margin (number : Nat) : (padLeft ((toString number).length + 2) "|").toList =
    List.replicate ((toString number).toList.length + 1) ' ' ++ ['|'] := by
  have hbar : "|".length = 1 := by decide
  rw [padLeft, String.toList_append, toList_pushn, String.length_toList, hbar]
  rfl

/-- The excerpt of a diagnostic with a given line, unless a field would have to be too wide. -/
theorem Diagnostic.excerpt_eq {d : Diagnostic} {line : String} {e : Excerpt}
    (hnumber : d.span.start.line.toNat = e.number)
    (htext : dropWhileEnd isBlank (line.toList.dropWhile (· == ' ')) = e.text)
    (hdashes : d.caretColumn (line.toList.takeWhile (· == ' ')).length = e.dashes + 1)
    (hcarets : d.markedColumns = e.carets) :
    d.excerpt line =
      if e.dashes < maxFieldWidth then .ok e.format else .error .fieldTooWide := by
  simp only [excerpt, marker, hnumber, htext, hdashes, hcarets]
  by_cases hwidth : e.dashes < maxFieldWidth
  · have hcolumn : e.dashes + 1 ≤ maxFieldWidth := hwidth
    simp only [hwidth, hcolumn, if_true, bind, Except.bind, pure, Except.pure, Except.ok.injEq]
    have hsame (s : String) : toString s = s := rfl
    rw [← String.toList_inj]
    simp only [hsame, String.toList_append, toList_margin, toList_pushn, String.toList_ofList,
      Excerpt.format, Excerpt.textLine, Excerpt.markerLine, Excerpt.label]
    simp
  · have hcolumn : ¬ e.dashes + 1 ≤ maxFieldWidth := hwidth
    simp only [hwidth, hcolumn, if_false]
    rfl

/-- The first caret of a marker stands behind the dashes. -/
theorem Excerpt.idxOf_markerLine {e : Excerpt} (hcarets : e.carets ≠ 0) :
    e.markerLine.idxOf '^' = e.label.length + (3 + e.dashes) := by
  obtain ⟨n, hn⟩ := Nat.exists_eq_succ_of_ne_zero hcarets
  rw [markerLine, hn, List.replicate_succ (n := n)]
  simp [List.idxOf_append, List.idxOf_cons]
  omega

/-! ## Words for lines and columns -/

/-- Words can hold the lines and columns of a text. -/
structure Countable (source : List Char) : Prop where
  line : ∀ before, before <+: source → 1 + lineFeeds before < UInt32.size
  column : ∀ before, before <+: source → 1 + sinceLineFeed before < UInt32.size

section

variable {file : String} {source left slice after : List Char}

theorem lineFeeds_append (before later : List Char) :
    lineFeeds (before ++ later) = lineFeeds before + lineFeeds later :=
  List.count_append

theorem sinceLineFeed_append {later : List Char} (before : List Char) (h : '\n' ∉ later) :
    sinceLineFeed (before ++ later) = sinceLineFeed before + later.length := by
  have hlater := forall_ne_of_notMem (mt List.mem_reverse.1 h)
  rw [sinceLineFeed, List.reverse_append, List.takeWhile_append_of_pos hlater, List.length_append,
    List.length_reverse, Nat.add_comm]
  rfl

namespace Countable

variable {p : Position} {before : List Char} (h : Countable source)
  (hbefore : before <+: source) (hafter : p.IsAfter file before)
include h hbefore hafter

theorem line_toNat : p.line.toNat = 1 + lineFeeds before := by
  rw [hafter.line]
  exact UInt32.toNat_ofNat_of_lt' (h.line before hbefore)

theorem column_toNat : p.column.toNat = 1 + sinceLineFeed before := by
  rw [hafter.column]
  exact UInt32.toNat_ofNat_of_lt' (h.column before hbefore)

end Countable

/-- As many columns are marked as the span has characters, when they are on one line. -/
theorem Diagnostic.markedColumns_eq {d : Diagnostic} (h : Countable source)
    (hmarks : d.span.Marks file source left slice after) :
    d.markedColumns = if slice ≠ [] ∧ '\n' ∉ slice then slice.length else 1 := by
  have hleft : left <+: source := ⟨slice ++ after, by rw [hmarks.split, List.append_assoc]⟩
  have hslice : left ++ slice <+: source := ⟨after, hmarks.split.symm⟩
  have hline := h.line_toNat hleft hmarks.start
  have hcolumn := h.column_toNat hleft hmarks.start
  have hline' := h.line_toNat hslice hmarks.stop
  have hcolumn' := h.column_toNat hslice hmarks.stop
  rw [lineFeeds_append] at hline'
  by_cases hfeed : '\n' ∈ slice
  · -- the span ends on a later line
    have hpos : 0 < lineFeeds slice := List.count_pos_iff.2 hfeed
    have hne : d.span.stop.line ≠ d.span.start.line := by
      intro heq
      rw [heq] at hline'
      omega
    rw [markedColumns, if_neg (fun hboth => hne hboth.1), if_neg (fun hboth => hboth.2 hfeed)]
  · have hzero : lineFeeds slice = 0 := List.count_eq_zero.2 hfeed
    have heq : d.span.stop.line = d.span.start.line := UInt32.toNat_inj.1 (by omega)
    rw [sinceLineFeed_append left hfeed] at hcolumn'
    have hlt : d.span.start.column < d.span.stop.column ↔ slice ≠ [] := by
      rw [UInt32.lt_iff_toNat_lt, ← List.length_pos_iff]
      omega
    simp only [markedColumns, heq, hlt, hfeed, true_and, not_false_eq_true, and_true]
    split
    · omega
    · rfl

end

/-! ## The excerpt of a stretch -/

section

variable {source left slice after : List Char}

/-- The line that a stretch starts on. -/
def lineOf (left slice after : List Char) : List Char :=
  lineBefore left ++ lineAfter (slice ++ after)

/-- The excerpt for a stretch. -/
def Excerpt.ofStretch (left slice after : List Char) : Excerpt where
  number := 1 + lineFeeds left
  text := dropWhileEnd isBlank ((lineOf left slice after).dropWhile (· == ' '))
  dashes := ((lineBefore left).dropWhile (· == ' ')).length
  carets := if slice ≠ [] ∧ '\n' ∉ slice then slice.length else 1

/-- The spaces that a line starts with are before whatever can be seen on it. -/
theorem spaces_lineOf (left : List Char) (hseen : Seen slice ∨ slice = [] ∧ after = []) :
    (lineOf left slice after).takeWhile (· == ' ') = (lineBefore left).takeWhile (· == ' ') ∧
      (lineOf left slice after).dropWhile (· == ' ') =
        (lineBefore left).dropWhile (· == ' ') ++ lineAfter (slice ++ after) := by
  refine upTo_append (lineBefore left) ?_
  obtain ⟨c, slice, rfl, hc⟩ | ⟨rfl, rfl⟩ := hseen
  · have hfeed : c ≠ '\n' := ne_of_isBlank hc (by decide)
    have hspace : c ≠ ' ' := ne_of_isBlank hc (by decide)
    simp [lineAfter, hfeed, hspace]
  · intro c hc
    cases hc

/-- The first caret for a stretch stands behind what is shown before it. -/
theorem Excerpt.idxOf_ofStretch (left slice after : List Char) :
    (ofStretch left slice after).markerLine.idxOf '^' =
      (ofStretch left slice after).label.length +
        (3 + ((lineBefore left).dropWhile (· == ' ')).length) := by
  refine idxOf_markerLine ?_
  simp only [ofStretch]
  split
  · next hslice => exact Nat.ne_of_gt (List.length_pos_iff.2 hslice.1)
  · decide

/-- The character that a stretch starts with is shown, behind what is shown before it. -/
theorem Excerpt.text_ofStretch {c : Char} (hc : isBlank c = false) (left slice after : List Char) :
    (ofStretch left (c :: slice) after).text =
      (lineBefore left).dropWhile (· == ' ') ++
        c :: dropWhileEnd isBlank (lineAfter (slice ++ after)) := by
  have hfeed : c ≠ '\n' := ne_of_isBlank hc (by decide)
  have hline : lineAfter (c :: slice ++ after) = c :: lineAfter (slice ++ after) := by
    simp [lineAfter, hfeed]
  have hseen : Seen (c :: slice) ∨ c :: slice = [] ∧ after = [] := .inl ⟨c, slice, rfl, hc⟩
  rw [← dropWhileEnd_append_cons hc, ← hline, ← (spaces_lineOf left hseen).2]
  rfl

theorem Excerpt.shows_ofStretch (hsource : source = left ++ slice ++ after)
    (hseen : Seen slice ∨ slice = [] ∧ after = []) :
    (ofStretch left slice after).Shows source left slice (lineOf left slice after) := by
  obtain ⟨htake, hdrop⟩ := spaces_lineOf left hseen
  refine ⟨rfl, ?_, rfl, ?_, ?_, ?_, rfl⟩
  · rw [hsource, List.append_assoc]
    exact splitLines_append left (slice ++ after)
  · intro c hc
    obtain ⟨d, slice, rfl, hd⟩ | ⟨rfl, -⟩ := hseen
    · obtain rfl := Option.some.inj hc
      rw [idxOf_ofStretch, textLine, text_ofStretch hd,
        List.getElem?_append_right (Nat.le_add_right _ _), Nat.add_sub_cancel_left,
        List.getElem?_append_right (Nat.le_add_right 3 _)]
      simp
    · cases hc
  · rintro rfl
    obtain ⟨d, slice, hnil, -⟩ | ⟨-, rfl⟩ := hseen
    · cases hnil
    · rw [idxOf_ofStretch, hdrop]
      simp only [lineAfter, List.append_nil, List.takeWhile_nil, List.length_append,
        List.length_cons, List.length_nil]
  · have hlength := congrArg List.length
      (List.takeWhile_append_dropWhile (p := (· == ' ')) (l := lineBefore left))
    rw [List.length_append, length_lineBefore] at hlength
    rw [htake, ← hlength, Nat.add_comm]
    rfl

end

/-- A diagnostic at a stretch of the source that starts with something to see, or at the end, is
rendered with the line of the stretch and marks it. It can not be rendered when as many columns are
before the stretch as a field can be wide. -/
theorem Diagnostic.render_of_marks {d : Diagnostic} {source file : String}
    {left slice after : List Char} (hcount : Countable source.toList)
    (hmarks : d.span.Marks file source.toList left slice after)
    (hseen : Seen slice ∨ slice = [] ∧ after = []) :
    d.render source =
      if (Excerpt.ofStretch left slice after).dashes < maxFieldWidth then
        .ok (d.heading ++ (Excerpt.ofStretch left slice after).format)
      else .error .fieldTooWide := by
  have hleft : left <+: source.toList := ⟨slice ++ after, by rw [hmarks.split, List.append_assoc]⟩
  have hline := hcount.line_toNat hleft hmarks.start
  have hcolumn := hcount.column_toNat hleft hmarks.start
  have hshows := Excerpt.shows_ofStretch hmarks.split hseen
  obtain ⟨hstrip, htrim⟩ := dropWhileEnd_strip (lineOf left slice after)
  have hfound : line? source d.span.start.line =
      some (String.ofList (dropWhileEnd (· == '\r') (lineOf left slice after))) := by
    rw [line?, hline, Nat.add_sub_cancel_left, hshows.found]
    rfl
  have hexcerpt : d.excerpt (String.ofList (dropWhileEnd (· == '\r') (lineOf left slice after))) =
      if (Excerpt.ofStretch left slice after).dashes < maxFieldWidth then
        .ok (Excerpt.ofStretch left slice after).format
      else .error .fieldTooWide := by
    refine excerpt_eq hline ?_ ?_ (markedColumns_eq hcount hmarks)
    · rw [String.toList_ofList]
      exact htrim
    · have hspaces := hshows.dashes
      rw [String.toList_ofList, hstrip, caretColumn, hcolumn]
      omega
  rw [render, hfound]
  simp only [hexcerpt]
  split <;> rfl

end Nominal
