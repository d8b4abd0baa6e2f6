import Nominal.Syntax.Program

/-!
# Reading step by step

A `Reader` keeps a stream of tokens between one reading and the next, together with the grammar,
the nesting limit and the level it is on.
-/

namespace Nominal

/-- A stream of tokens that is read in steps. -/
structure Reader where
  grammar : Grammar
  file : String
  limit : Nat
  depth : Nat
  stream : TokenStream

namespace Reader

/-- At the start of `tokens`, on the outermost level. -/
def ofTokens (grammar : Grammar) (file : String) (limit : Nat) (tokens : List Token) : Reader :=
  ⟨grammar, file, limit, 0, .ofTokens file tokens⟩

/-- Reads from the stream. The outcome and how far it got are kept apart. -/
def run {α : Type} (r : Reader) (read : Parse α) : Except Diagnostic α × Reader :=
  match read r.stream with
  | .ok a stream => (.ok a, { r with stream })
  | .error d stream => (.error d, { r with stream })

/-- The readers for the level the reader is on. -/
def inner (r : Reader) : Inner :=
  r.grammar.inner r.limit (r.limit - r.depth)

/-- One level further in, unless the limit is reached. -/
def enter (r : Reader) : Except Diagnostic Unit × Reader :=
  if r.depth < r.limit then (.ok (), { r with depth := r.depth + 1 })
  else (.error ⟨.nestingTooDeep r.limit, r.stream.span⟩, r)

/-- One level further out. The outermost level stays. -/
def leave (r : Reader) : Reader :=
  { r with depth := r.depth - 1 }

end Reader

end Nominal
