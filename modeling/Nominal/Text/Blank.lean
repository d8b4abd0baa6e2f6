/-!
# Blank characters

The Unicode property `White_Space`, which covers 25 characters.
-/

namespace Nominal

/-- The first and last code points of the stretches of `White_Space`. -/
def blankRanges : List (Nat × Nat) :=
  [(0x09, 0x0d), (0x20, 0x20), (0x85, 0x85), (0xa0, 0xa0), (0x1680, 0x1680), (0x2000, 0x200a),
   (0x2028, 0x2029), (0x202f, 0x202f), (0x205f, 0x205f), (0x3000, 0x3000)]

/-- Whether `c` is white space. -/
def isBlank (c : Char) : Bool :=
  blankRanges.any fun (first, last) => first ≤ c.toNat && c.toNat ≤ last

example : (blankRanges.map fun (first, last) => last + 1 - first).sum = 25 := by decide

example : isBlank '\n' = true ∧ isBlank '\u2003' = true ∧ isBlank '\u200b' = false := by decide

end Nominal
