/-!
# Positions and spans

Where something stands in a source text. A `Position` is one point, a `Span` the stretch between
two points. Offsets, lines and columns are 32-bit words; a text of 4 GiB or more wraps them.
-/

namespace Nominal

/-- A point in a source text. The offset counts bytes from the start of the text. Lines count
from one, and so do columns, which count the code points of their line. -/
structure Position where
  offset : UInt32
  line : UInt32
  column : UInt32
  file : String
  deriving DecidableEq, Inhabited

/-- The first point of the text of `file`. -/
def Position.first (file : String) : Position :=
  ⟨0, 1, 1, file⟩

/-- The point given to what stands in no text. -/
def Position.nowhere : Position :=
  .first "<null>"

/-- The stretch of a source text from `start` up to, but without, `stop`. -/
structure Span where
  start : Position
  stop : Position
  deriving DecidableEq, Inhabited

/-- The empty stretch at `p`. -/
def Span.empty (p : Position) : Span :=
  ⟨p, p⟩

/-- The span given to what stands in no text. -/
def Span.nowhere : Span :=
  .empty .nowhere

/-- From the start of `a` to the end of `b`. -/
def Span.to (a b : Span) : Span :=
  ⟨a.start, b.stop⟩

end Nominal
