import Nominal.Source.Cursor

/-!
# Where a text has got to

The place after a text is counted from the text alone: its bytes, its line feeds, and the characters
since the last of them (`Place.first_pass`). `Position.IsAfter` says that a position is the one
after a text in this sense. A position counts in 32-bit words, which hold the offset as long as the
text is shorter than 4 GiB. Its line and column count from one, so for these the text has to be one
byte shorter (`Position.IsAfter.line_toNat`).
-/

namespace Nominal

/-- How many bytes a text takes. -/
def byteCount (text : List Char) : Nat :=
  (String.ofList text).utf8ByteSize

/-- How many line feeds a text has. -/
def lineFeeds (text : List Char) : Nat :=
  text.count '\n'

/-- How many characters a text has since its last line feed. -/
def sinceLineFeed (text : List Char) : Nat :=
  (text.reverse.takeWhile (· != '\n')).length

@[simp] theorem byteCount_nil : byteCount [] = 0 := rfl

@[simp] theorem byteCount_append (first later : List Char) :
    byteCount (first ++ later) = byteCount first + byteCount later := by
  simp [byteCount, String.ofList_append, String.utf8ByteSize_append]

@[simp] theorem byteCount_singleton (c : Char) : byteCount [c] = c.utf8Size := by
  have hpush : String.ofList [c] = "".push c := rfl
  rw [byteCount, hpush, String.utf8ByteSize_push, String.utf8ByteSize_empty, Nat.zero_add]

theorem length_le_byteCount (text : List Char) : text.length ≤ byteCount text := by
  induction text with
  | nil => exact Nat.le_refl 0
  | cons c rest ih =>
    have hsplit := byteCount_append [c] rest
    rw [List.singleton_append, byteCount_singleton] at hsplit
    have hpos := c.utf8Size_pos
    rw [List.length_cons, hsplit]
    omega

theorem byteCount_toList (source : String) : byteCount source.toList = source.utf8ByteSize := by
  rw [byteCount, String.ofList_toList]

/-- Of two beginnings of a text, the one with no more bytes is a beginning of the other. -/
theorem prefix_of_byteCount_le {first second later later' : List Char}
    (h : first ++ later = second ++ later') (hle : byteCount first ≤ byteCount second) :
    first <+: second := by
  obtain ⟨more, rfl, -⟩ | ⟨more, rfl, -⟩ := List.append_eq_append_iff.1 h
  · exact List.prefix_append first more
  · have hlength := length_le_byteCount more
    rw [byteCount_append] at hle
    obtain rfl : more = [] := List.eq_nil_of_length_eq_zero (by omega)
    exact ⟨[], by simp⟩

theorem splitBytes_byteCount (text rest : List Char) :
    splitBytes (byteCount text) (text ++ rest) = (text, rest) := by
  induction text with
  | nil =>
    cases rest with
    | nil => rfl
    | cons c rest =>
      have hpos := c.utf8Size_pos
      rw [List.nil_append, byteCount_nil, splitBytes, if_neg (by omega)]
  | cons c text ih =>
    have hbytes : byteCount (c :: text) = c.utf8Size + byteCount text := by
      rw [← List.singleton_append, byteCount_append, byteCount_singleton]
    rw [hbytes, List.cons_append, splitBytes, if_pos (by omega), Nat.add_sub_cancel_left, ih]

theorem lineFeeds_le_length (text : List Char) : lineFeeds text ≤ text.length :=
  List.count_le_length

theorem sinceLineFeed_le_length (text : List Char) : sinceLineFeed text ≤ text.length := by
  have hle := (List.takeWhile_sublist (l := text.reverse) (· != '\n')).length_le
  rwa [List.length_reverse] at hle

namespace Place

/-- The place after a text, counted from the text. -/
theorem first_pass (text : List Char) :
    first.pass text = ⟨byteCount text, 1 + lineFeeds text, 1 + sinceLineFeed text⟩ := by
  -- the last character decides the column, so the text is taken apart from its end
  have hreverse : ∀ rev : List Char, first.pass rev.reverse =
      ⟨byteCount rev.reverse, 1 + lineFeeds rev.reverse, 1 + sinceLineFeed rev.reverse⟩ := by
    intro rev
    induction rev with
    | nil => rfl
    | cons c rev ih =>
      rw [List.reverse_cons, pass_append, ih]
      simp only [pass_cons, pass_nil, after, byteCount_append, byteCount_singleton]
      by_cases hc : c = '\n'
      · subst hc
        simp [lineFeeds, sinceLineFeed, Nat.add_assoc]
      · simp [hc, lineFeeds, sinceLineFeed, List.count_append, Nat.add_assoc]
  have h := hreverse text.reverse
  rwa [List.reverse_reverse] at h

end Place

/-- The position after `before` in the source of `file`. -/
structure Position.IsAfter (p : Position) (file : String) (before : List Char) : Prop where
  file : p.file = file
  offset : p.offset.toNat = byteCount before
  line : p.line = (1 + lineFeeds before).toUInt32
  column : p.column = (1 + sinceLineFeed before).toUInt32

/-- A cursor stands after what it has passed. -/
theorem Place.position_isAfter {before : List Char} (file : String)
    (hsize : byteCount before < UInt32.size) :
    ((first.pass before).position file).IsAfter file before := by
  rw [first_pass]
  exact ⟨rfl, UInt32.toNat_ofNat_of_lt' hsize, rfl, rfl⟩

/-- A cursor past `text` stands after `text` and all that was before it. -/
theorem Cursor.past_place {c : Cursor} {before text rest : List Char}
    (hplace : c.place = Place.first.pass before) :
    (c.past text rest).place = Place.first.pass (before ++ text) := by
  rw [Place.pass_append, ← hplace]
  rfl

theorem Cursor.position_isAfter {c : Cursor} {before : List Char}
    (hplace : c.place = Place.first.pass before) (hsize : byteCount before < UInt32.size) :
    c.position.IsAfter c.file before := by
  unfold Cursor.position
  rw [hplace]
  exact Place.position_isAfter c.file hsize

namespace Position.IsAfter

variable {p : Position} {file : String} {before : List Char}

/-- A character that is no line feed moves the position by its bytes and by one column. -/
theorem next {c : Char} (h : p.IsAfter file before) (hc : c ≠ '\n')
    (hsize : byteCount (before ++ [c]) < UInt32.size) :
    Position.IsAfter
      { p with offset := p.offset + c.utf8Size.toUInt32, column := p.column + 1 } file
      (before ++ [c]) := by
  have hfeeds : lineFeeds (before ++ [c]) = lineFeeds before := by
    simp [lineFeeds, List.count_append, hc]
  have hsince : sinceLineFeed (before ++ [c]) = sinceLineFeed before + 1 := by
    simp [sinceLineFeed, hc]
  rw [byteCount_append, byteCount_singleton] at hsize
  have hword : c.utf8Size.toUInt32.toNat = c.utf8Size := UInt32.toNat_ofNat_of_lt' (by omega)
  refine ⟨h.file, ?_, ?_, ?_⟩
  · rw [UInt32.toNat_add, h.offset, hword, byteCount_append, byteCount_singleton]
    exact Nat.mod_eq_of_lt (show _ < UInt32.size by omega)
  · rw [hfeeds]
    exact h.line
  · rw [hsince, h.column, ← Nat.add_assoc]
    exact (UInt32.ofNat_add _ 1).symm

/-- The line as a number. It fits whenever one more byte would. -/
theorem line_toNat (h : p.IsAfter file before) (hsize : byteCount before + 1 < UInt32.size) :
    p.line.toNat = 1 + lineFeeds before := by
  have hfeeds := lineFeeds_le_length before
  have hlength := length_le_byteCount before
  rw [h.line]
  exact UInt32.toNat_ofNat_of_lt' (by omega)

/-- The column as a number. It fits whenever one more byte would. -/
theorem column_toNat (h : p.IsAfter file before) (hsize : byteCount before + 1 < UInt32.size) :
    p.column.toNat = 1 + sinceLineFeed before := by
  have hsince := sinceLineFeed_le_length before
  have hlength := length_le_byteCount before
  rw [h.column]
  exact UInt32.toNat_ofNat_of_lt' (by omega)

end Position.IsAfter

end Nominal
