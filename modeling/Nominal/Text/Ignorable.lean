/-!
# Characters that a display may leave out

The Unicode property `Default_Ignorable_Code_Point` in version 17: joiners, fillers, directional
marks, variation selectors and the code points kept for more of them. Each takes part in how its
neighbours are drawn and shows nothing itself.
-/

namespace Nominal

/-- The first and last code points of the stretches of `Default_Ignorable_Code_Point`, in order. -/
def ignorableRanges : List (Nat × Nat) :=
  [(0xad, 0xad), (0x34f, 0x34f), (0x61c, 0x61c), (0x115f, 0x1160), (0x17b4, 0x17b5),
   (0x180b, 0x180f), (0x200b, 0x200f), (0x202a, 0x202e), (0x2060, 0x206f), (0x3164, 0x3164),
   (0xfe00, 0xfe0f), (0xfeff, 0xfeff), (0xffa0, 0xffa0), (0xfff0, 0xfff8), (0x1bca0, 0x1bca3),
   (0x1d173, 0x1d17a), (0xe0000, 0xe0fff)]

/-- Whether a display may leave `c` out. -/
def isIgnorable (c : Char) : Bool :=
  ignorableRanges.any fun (first, last) => first ≤ c.toNat && c.toNat ≤ last

example : (ignorableRanges.map fun (first, last) => last + 1 - first).sum = 4174 := by decide

example : isIgnorable '\u115f' = true ∧ isIgnorable '\u3164' = true ∧ isIgnorable '\u1161' = false := by
  decide

end Nominal
