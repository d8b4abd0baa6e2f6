import Nominal.Source.Position
import Nominal.Text.Integer
import Nominal.Token.Kind

/-!
# Tokens

A `Token` is a kind, a value and the stretch of the source it was read from. The value is the text
of that stretch, but for a string token the text that the literal stands for.
-/

namespace Nominal

/-- One terminal symbol as it stands in a source text. -/
structure Token where
  kind : Kind
  value : String
  span : Span
  deriving DecidableEq, Inhabited

namespace Token

/-- The token at the end of every source. -/
def endAt (p : Position) : Token :=
  ⟨.eof, "EOF", .empty p⟩

/-- The value of a number token, if 32 bits can hold it. -/
def integer? (t : Token) : Option Int :=
  if t.kind = .number then Nominal.integer? t.value.toList else none

/-- The text that a string token stands for. -/
def text? (t : Token) : Option String :=
  if t.kind = .string then some t.value else none

/-- Whether the kind of the token is among `kinds`. -/
def isOneOf (t : Token) (kinds : List Kind) : Bool :=
  kinds.contains t.kind

/-- The token's kind and value, for display. -/
def display (t : Token) : String :=
  "Token \x7b\nkind: " ++ t.kind.name ++ ",\nvalue: " ++ t.value ++ "\x7d"

end Token

end Nominal
