/-!
# Reading a 32-bit integer

Decimal digits with an optional sign, and nothing else. A value that does not fit into a signed
word of 32 bits is no integer here.
-/

namespace Nominal

/-- The value of a run of decimal digits, read after a prefix of value `n`. -/
def decimalValue (n : Nat) : List Char → Option Nat
  | [] => some n
  | c :: r => if c.isDigit then decimalValue (n * 10 + (c.toNat - '0'.toNat)) r else none

/-- The value of a run of at least one decimal digit. -/
def decimal? : List Char → Option Nat
  | [] => none
  | digits => decimalValue 0 digits

/-- Whether a signed word of 32 bits can hold `n`. -/
def fitsWord (n : Int) : Bool :=
  -0x80000000 ≤ n && n ≤ 0x7fffffff

/-- The 32-bit integer that `text` writes, if it writes one. -/
def integer? (text : List Char) : Option Int :=
  let value : Option Int :=
    match text with
    | '-' :: digits => (decimal? digits).map fun n => -(n : Int)
    | '+' :: digits => (decimal? digits).map fun n => (n : Int)
    | digits => (decimal? digits).map fun n => (n : Int)
  value.filter fitsWord

end Nominal
