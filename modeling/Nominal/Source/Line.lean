/-!
# Lines of a source text

A line feed ends a line. Carriage returns before it belong to the line break, as many as there are.
-/

namespace Nominal

/-- The pieces of a text between its line feeds. There is always at least one. -/
def splitLines : List Char → List (List Char)
  | [] => [[]]
  | c :: r =>
    if c = '\n' then [] :: splitLines r
    else
      match splitLines r with
      | [] => [[c]]
      | line :: lines => (c :: line) :: lines

/-- `text` without the characters at its end that satisfy `p`. -/
def dropWhileEnd (p : Char → Bool) (text : List Char) : List Char :=
  (text.reverse.dropWhile p).reverse

/-- Line `n` of `source` without its line break. Lines count from one, and zero also names the
first. -/
def line? (source : String) (n : UInt32) : Option String :=
  (splitLines source.toList)[n.toNat - 1]?.map fun text =>
    String.ofList (dropWhileEnd (· == '\r') text)

end Nominal
