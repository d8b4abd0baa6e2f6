import Nominal.Source.Position

/-!
# Reading a source text from left to right

A `Cursor` is what is left of a text together with the `Place` it has reached. A place is moved by
the characters that are passed and by nothing else, so it is a function of the text before it
(`Place.pass_append`): how many steps were taken to get there does not show.
-/

namespace Nominal

/-- How far a text has been read: bytes passed, line, and column on that line. -/
structure Place where
  offset : Nat
  line : Nat
  column : Nat
  deriving DecidableEq

namespace Place

/-- Before the first character of a text. -/
def first : Place :=
  ⟨0, 1, 1⟩

/-- After one more character. A line feed begins the next line. -/
def after (p : Place) (c : Char) : Place :=
  if c = '\n' then ⟨p.offset + c.utf8Size, p.line + 1, 1⟩
  else ⟨p.offset + c.utf8Size, p.line, p.column + 1⟩

/-- After the characters of `text`. -/
def pass (p : Place) (text : List Char) : Place :=
  text.foldl after p

@[simp] theorem pass_nil (p : Place) : p.pass [] = p := rfl

@[simp] theorem pass_cons (p : Place) (c : Char) (r : List Char) :
    p.pass (c :: r) = (p.after c).pass r := rfl

theorem pass_append (p : Place) (a b : List Char) : p.pass (a ++ b) = (p.pass a).pass b :=
  List.foldl_append

/-- The place as a position of `file`, in 32-bit words. -/
def position (p : Place) (file : String) : Position :=
  ⟨p.offset.toUInt32, p.line.toUInt32, p.column.toUInt32, file⟩

end Place

/-- The longest beginning of a text that has at most `n` bytes, and what follows it. No character
is split. -/
def splitBytes : Nat → List Char → List Char × List Char
  | _, [] => ([], [])
  | n, c :: r =>
    if c.utf8Size ≤ n then
      let (a, b) := splitBytes (n - c.utf8Size) r
      (c :: a, b)
    else ([], c :: r)

theorem splitBytes_append (n : Nat) (text : List Char) :
    (splitBytes n text).1 ++ (splitBytes n text).2 = text := by
  induction text generalizing n with
  | nil => rfl
  | cons c r ih =>
    unfold splitBytes
    split
    · simpa using ih (n - c.utf8Size)
    · rfl

/-- A text that is being read. -/
structure Cursor where
  file : String
  place : Place
  rest : List Char

namespace Cursor

/-- At the start of `source`. -/
def ofString (source file : String) : Cursor :=
  ⟨file, .first, source.toList⟩

/-- Where the cursor stands. -/
def position (c : Cursor) : Position :=
  c.place.position c.file

/-- The character the cursor stands on. -/
def current? (c : Cursor) : Option Char :=
  c.rest.head?

/-- Whether the whole text has been read. -/
def atEnd (c : Cursor) : Bool :=
  c.rest.isEmpty

/-- What is left to read. -/
def remainder (c : Cursor) : String :=
  String.ofList c.rest

/-- Past `text`, with `rest` left to read. -/
def past (c : Cursor) (text rest : List Char) : Cursor :=
  { c with place := c.place.pass text, rest }

/-- Past the next `n` bytes, or to the end of the text when there are fewer. -/
def advance (c : Cursor) (n : Nat) : Cursor :=
  c.past (splitBytes n c.rest).1 (splitBytes n c.rest).2

/-- The stretch from here to where `later` stands. -/
def spanTo (c later : Cursor) : Span :=
  ⟨c.position, later.position⟩

end Cursor

end Nominal
