import Mathlib.Algebra.GroupWithZero.Nat
import Nominal.Proofs.Source.Place

/-!
# Ways through a source

A cursor is taken to a point of a source by many steps or by few. As long as no step ends inside a
character (`Cursor.Clear`), the bytes that have been passed are those of all steps together, or all
there are, and the cursor is the one of that point, whichever way it was taken there
(`Cursor.follow_reaches`). The step lemma is `Cursor.PastIn.advance`.
-/

namespace Nominal

/-- A text without more than `n` bytes is split off as a whole. -/
theorem splitBytes_of_byteCount_le {n : Nat} {text : List Char} (h : byteCount text ≤ n) :
    splitBytes n text = (text, []) := by
  induction text generalizing n with
  | nil => rfl
  | cons c text ih =>
    have hbytes : byteCount (c :: text) = c.utf8Size + byteCount text := by
      rw [← List.singleton_append, byteCount_append, byteCount_singleton]
    rw [splitBytes, if_pos (by omega), ih (by omega)]

namespace Cursor

variable {c d : Cursor} {file : String} {source before : List Char} {n : Nat} {steps : List Nat}

/-- Past so many bytes in one step after the other. -/
def follow (c : Cursor) (steps : List Nat) : Cursor :=
  steps.foldl advance c

/-- Between two characters, or at the end of the text, a step of `n` bytes comes to its end. -/
def ClearStep (c : Cursor) (n : Nat) : Prop :=
  ∃ passed rest, c.rest = passed ++ rest ∧ byteCount passed = min n (byteCount c.rest)

/-- No step splits a character. -/
def Clear : Cursor → List Nat → Prop
  | _, [] => True
  | c, n :: steps => c.ClearStep n ∧ (c.advance n).Clear steps

/-- The cursor stands behind `before` in the source of `file`. -/
structure PastIn (c : Cursor) (file : String) (source before : List Char) : Prop where
  file : c.file = file
  split : before ++ c.rest = source
  place : c.place = Place.first.pass before

theorem pastIn_ofString (source file : String) :
    (ofString source file).PastIn file source.toList [] :=
  ⟨rfl, rfl, rfl⟩

/-- A clear step passes the bytes it should pass, capped at the end of the text. -/
theorem ClearStep.advance (h : c.ClearStep n) :
    ∃ passed rest, c.rest = passed ++ rest ∧ splitBytes n c.rest = (passed, rest) ∧
      byteCount passed = min n (byteCount c.rest) := by
  obtain ⟨passed, rest, hsplit, hbytes⟩ := h
  by_cases hle : byteCount c.rest ≤ n
  · exact ⟨c.rest, [], (List.append_nil _).symm, splitBytes_of_byteCount_le hle,
      (Nat.min_eq_right hle).symm⟩
  · have hn : byteCount passed = n := by omega
    refine ⟨passed, rest, hsplit, ?_, hbytes⟩
    rw [hsplit, ← hn, splitBytes_byteCount]

theorem clearStep_iff :
    c.ClearStep n ↔ byteCount (splitBytes n c.rest).1 = min n (byteCount c.rest) := by
  constructor
  · intro h
    obtain ⟨passed, rest, -, hadvance, hbytes⟩ := h.advance
    rw [hadvance, hbytes]
  · intro h
    exact ⟨_, _, (splitBytes_append n c.rest).symm, h⟩

instance : Decidable (c.ClearStep n) :=
  decidable_of_iff _ clearStep_iff.symm

instance decidableClear : (c : Cursor) → (steps : List Nat) → Decidable (c.Clear steps)
  | _, [] => .isTrue trivial
  | c, n :: steps =>
    have := decidableClear (c.advance n) steps
    inferInstanceAs (Decidable (c.ClearStep n ∧ (c.advance n).Clear steps))

theorem PastIn.advance (h : c.PastIn file source before) (hstep : c.ClearStep n) :
    ∃ after, (c.advance n).PastIn file source after ∧
      byteCount after = min (byteCount before + n) (byteCount source) := by
  obtain ⟨passed, rest, hsplit, hadvance, hbytes⟩ := hstep.advance
  have hsource : byteCount source = byteCount before + byteCount c.rest := by
    rw [← h.split, byteCount_append]
  refine ⟨before ++ passed, ?_, ?_⟩
  · rw [Cursor.advance, hadvance]
    exact ⟨h.file, by rw [past, List.append_assoc, ← hsplit, h.split], past_place h.place⟩
  · rw [byteCount_append]
    omega

/-- Steps pass the bytes of all of them, capped at the end of the text. -/
theorem PastIn.follow (h : c.PastIn file source before) (hclear : c.Clear steps) :
    ∃ after, (c.follow steps).PastIn file source after ∧
      byteCount after = min (byteCount before + steps.sum) (byteCount source) := by
  induction steps generalizing c before with
  | nil =>
    have hle : byteCount before ≤ byteCount source := by
      rw [← h.split, byteCount_append]
      exact Nat.le_add_right _ _
    exact ⟨before, h, by rw [List.sum_nil, Nat.add_zero, Nat.min_eq_left hle]⟩
  | cons n steps ih =>
    obtain ⟨hstep, hsteps⟩ := hclear
    obtain ⟨between, hbetween, hbytes⟩ := h.advance hstep
    obtain ⟨after, hafter, hall⟩ := ih hbetween hsteps
    refine ⟨after, hafter, ?_⟩
    rw [hall, hbytes, List.sum_cons]
    omega

/-- At an offset of a source there is one cursor. -/
theorem PastIn.eq_of_byteCount {before' : List Char} (h : c.PastIn file source before)
    (h' : d.PastIn file source before') (hbytes : byteCount before = byteCount before') :
    c = d := by
  have hsplit : before ++ c.rest = before' ++ d.rest := h.split.trans h'.split.symm
  have hprefix : before <+: before' := prefix_of_byteCount_le hsplit (Nat.le_of_eq hbytes)
  have hprefix' : before' <+: before :=
    prefix_of_byteCount_le hsplit.symm (Nat.le_of_eq hbytes.symm)
  obtain rfl : before = before' :=
    hprefix.eq_of_length (Nat.le_antisymm hprefix.length_le hprefix'.length_le)
  -- file and place are functions of what has been passed, so only the rest is left to compare
  have hrest : c.rest = d.rest := List.append_cancel_left hsplit
  obtain ⟨cfile, cplace, crest⟩ := c
  obtain ⟨dfile, dplace, drest⟩ := d
  obtain ⟨rfl, -, rfl⟩ := h
  obtain ⟨rfl, -, rfl⟩ := h'
  exact congrArg _ hrest

/-- What a cursor says that stands after the first `offset` bytes of the source of `file`. The words
of its line and column are those of the counts. The counts themselves can be read off them as long
as a word has room for one more byte. -/
structure Reports (c : Cursor) (file : String) (source : List Char) (offset : Nat) : Prop where
  point : ∃ before, before ++ c.rest = source ∧ byteCount before = offset ∧
    c.position.IsAfter file before ∧
    (offset + 1 < UInt32.size → c.position.line.toNat = 1 + lineFeeds before ∧
      c.position.column.toNat = 1 + sinceLineFeed before)

theorem PastIn.reports (h : c.PastIn file source before)
    (hsize : byteCount source < UInt32.size) : c.Reports file source (byteCount before) := by
  have hle : byteCount before ≤ byteCount source := by
    rw [← h.split, byteCount_append]
    exact Nat.le_add_right _ _
  have hafter := c.position_isAfter h.place (Nat.lt_of_le_of_lt hle hsize)
  rw [h.file] at hafter
  exact ⟨before, h.split, rfl, hafter, fun hroom =>
    ⟨hafter.line_toNat hroom, hafter.column_toNat hroom⟩⟩

/-- Steps that split no character reach the sum of their bytes, capped at the end of the source,
with the position counted from what stands before that point. Any other such steps with which the
same offset is reached lead to the same cursor, so to the same position and the same rest. -/
theorem follow_reaches {source file : String} {steps : List Nat}
    (hsize : source.utf8ByteSize < UInt32.size) (hclear : (ofString source file).Clear steps) :
    ((ofString source file).follow steps).Reports file source.toList
        (min steps.sum source.utf8ByteSize) ∧
    ∀ others, (ofString source file).Clear others →
      ((ofString source file).follow others).position.offset =
        ((ofString source file).follow steps).position.offset →
      (ofString source file).follow others = (ofString source file).follow steps := by
  have hstart := pastIn_ofString source file
  rw [← byteCount_toList] at hsize ⊢
  obtain ⟨before, hpast, hbytes⟩ := hstart.follow hclear
  rw [byteCount_nil, Nat.zero_add] at hbytes
  rw [← hbytes]
  refine ⟨hpast.reports hsize, fun others hothers hoffset => ?_⟩
  obtain ⟨before', hpast', hbytes'⟩ := hstart.follow hothers
  obtain ⟨first, -, hfirst, hafter, -⟩ := (hpast.reports hsize).point
  obtain ⟨second, -, hsecond, hafter', -⟩ := (hpast'.reports hsize).point
  refine hpast'.eq_of_byteCount hpast ?_
  rw [← hfirst, ← hsecond, ← hafter.offset, ← hafter'.offset, hoffset]

/-- A cursor before characters of one, two and four bytes on three lines. -/
def threeLines : Cursor :=
  .ofString "aé\n𝄞\nb" "lines"

/-- Two line feeds in one step, and the same way in other steps that stop on each character. -/
theorem follow_reaches_threeLines :
    ("aé\n𝄞\nb".utf8ByteSize < UInt32.size ∧ threeLines.Clear [3, 6] ∧
      threeLines.Clear [1, 2, 0, 1, 4, 1]) ∧
    (threeLines.follow [3, 6]).Reports "lines" "aé\n𝄞\nb".toList 9 ∧
    threeLines.follow [1, 2, 0, 1, 4, 1] = threeLines.follow [3, 6] := by
  have hsize : "aé\n𝄞\nb".utf8ByteSize < UInt32.size := by decide +kernel
  have hclear : threeLines.Clear [3, 6] := by decide +kernel
  have hothers : threeLines.Clear [1, 2, 0, 1, 4, 1] := by decide +kernel
  obtain ⟨hreports, hsame⟩ := follow_reaches hsize hclear
  exact ⟨⟨hsize, hclear, hothers⟩, hreports, hsame _ hothers (by decide +kernel)⟩

end Cursor

end Nominal
