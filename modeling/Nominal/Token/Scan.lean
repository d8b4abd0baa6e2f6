import Nominal.Diagnostic.Basic
import Nominal.Source.Cursor
import Nominal.Token.Basic
import Nominal.Token.Lexeme

/-!
# The tokens of a source text

A source is cut into lexemes from left to right. Blanks are dropped, tokens are kept with their
spans, and the list ends with one token for the end of the source. A character that begins no
lexeme, or a string that never closes, stops the cutting with a diagnostic.
-/

namespace Nominal

/-- The file name of a source that was not read from a file. -/
def interactiveFile : String :=
  "shell"

/-- The diagnostic for a character that begins no lexeme. Its span is that one character. -/
def Cursor.unrecognised (c : Cursor) : Diagnostic :=
  let text := String.ofList c.rest.head?.toList
  let start := c.position
  let stop := { start with
    offset := start.offset + text.utf8ByteSize.toUInt32
    column := start.column + 1 }
  ⟨.unrecognisedToken text, ⟨start, stop⟩⟩

/-- The tokens from the cursor to the end of the text. -/
def Cursor.tokens (c : Cursor) : Except Diagnostic (List Token) :=
  if c.rest = [] then .ok [.endAt c.position]
  else
    match h : Lexeme.first? c.rest with
    | none => .error c.unrecognised
    | some lexeme =>
      have : lexeme.rest.length < c.rest.length := (Lexeme.takes_of_first? h).rest_lt
      let next := c.past lexeme.text lexeme.rest
      match lexeme.meaning with
      | .blank => next.tokens
      | .token kind value => return ⟨kind, value, c.spanTo next⟩ :: (← next.tokens)
      | .unclosed => .error ⟨.unterminatedString, c.spanTo next⟩
termination_by c.rest.length
decreasing_by all_goals exact this

/-- The tokens of a source text. -/
def tokenize (source : String) (file : String) : Except Diagnostic (List Token) :=
  (Cursor.ofString source file).tokens

end Nominal
