import Nominal.Diagnostic.Basic
import Nominal.Token.Stream

/-!
# Reading from a stream of tokens

A `Parse α` reads a value of type `α` from the start of a stream, or stops with a diagnostic. In
both cases the stream says how far it got. Repetitions end because a stream has finitely many
tokens: an item that takes no token is the last one.
-/

namespace Nominal

/-- A reader of a stream of tokens. -/
abbrev Parse := EStateM Diagnostic TokenStream

namespace Parse

variable {α : Type}

/-- The current token. -/
def current : Parse Token :=
  return (← get).current

/-- The kind of the current token. -/
def kind : Parse Kind :=
  return (← get).kind

/-- Where the current token starts. -/
def position : Parse Position :=
  return (← get).position

/-- From `start` to the end of the token passed last. -/
def spanFrom (start : Position) : Parse Span :=
  return (← get).spanFrom start

/-- The current token, which is passed unless it is the last one. -/
def advance : Parse Token := fun s =>
  .ok s.current s.next

/-- Stops at the current token for `cause`. -/
def failWith (cause : Token → Cause) : Parse α := fun s =>
  .error ⟨cause s.current, s.current.span⟩ s

/-- Stops because the current token can not stand here. -/
def unexpected : Parse α :=
  failWith fun t => .unexpectedToken t.value

/-- Stops because the current token can not stand here, and says what should. -/
def unexpectedDetailed (detail : String) : Parse α :=
  failWith fun t => .unexpectedTokenDetailed t.value detail

/-- A token of the given kind; otherwise stops as `failure` does. -/
def expectOr (expected : Kind) (failure : Parse Token) : Parse Token := do
  if (← kind) = expected then advance else failure

/-- A token of the given kind. -/
def expect (expected : Kind) : Parse Token :=
  expectOr expected unexpected

/-- A token of the given kind, with words for the diagnostic when there is none. -/
def expectDetailed (expected : Kind) (detail : String) : Parse Token :=
  expectOr expected (unexpectedDetailed detail)

/-- Items up to a token at which `stop` holds. -/
def repeatUntil (stop : Kind → Bool) (item : Parse α) : Parse (List α) := fun s =>
  if stop s.kind then .ok [] s
  else
    match item s with
    | .error d t => .error d t
    | .ok a t =>
      if t.size < s.size then
        match repeatUntil stop item t with
        | .error d u => .error d u
        | .ok as u => .ok (a :: as) u
      else .ok [a] t
termination_by s => s.size

/-- One or more items with commas between them. -/
def commaSeparated (item : Parse α) : Parse (List α) := fun s =>
  match item s with
  | .error d t => .error d t
  | .ok a t =>
    if t.kind = .comma then
      if t.next.size < s.size then
        match commaSeparated item t.next with
        | .error d u => .error d u
        | .ok as u => .ok (a :: as) u
      else .ok [a] t.next
    else .ok [a] t
termination_by s => s.size

/-- Any number of items between parentheses, with commas between them. -/
def parenthesised (item : Parse α) : Parse (List α) := do
  let _ ← expect .openParen
  let items ← if (← kind) = .closeParen then pure [] else commaSeparated item
  let _ ← expect .closeParen
  return items

end Parse

end Nominal
