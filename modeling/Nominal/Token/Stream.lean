import Nominal.Token.Basic

/-!
# Streams of tokens

A `TokenStream` is a list of tokens that is being read: the token passed last, the current one and
those ahead. It is never empty and ends with an end token, at which reading stops for good.
-/

namespace Nominal

/-- A nonempty list of tokens with a place in it. How many tokens are ahead is kept at hand, since
every repetition looks at it to see that it goes on. -/
structure TokenStream where
  previous? : Option Token
  current : Token
  ahead : List Token
  size : Nat := ahead.length
  size_eq : size = ahead.length := by rfl

namespace TokenStream

/-- A stream is determined by its tokens. -/
theorem eq_mk (s : TokenStream) :
    s = { previous? := s.previous?, current := s.current, ahead := s.ahead } := by
  cases s with
  | mk previous? current ahead size size_eq => subst size_eq; rfl

/-- At the first of `tokens`. An end token is added after them unless the last one is an end token
already. -/
def ofTokens (file : String) : List Token → TokenStream
  | [] => { previous? := none, current := .endAt (.first file), ahead := [] }
  | t :: ts =>
    let last := ts.getLastD t
    { previous? := none
      current := t
      ahead := if last.kind = .eof then ts else ts ++ [.endAt last.span.stop] }

/-- The kind of the current token. -/
def kind (s : TokenStream) : Kind :=
  s.current.kind

/-- The kind of the token `n` places ahead, or of the last one when there are fewer. -/
def peek (s : TokenStream) (n : Nat) : Kind :=
  ((s.current :: s.ahead)[n]?.getD (s.ahead.getLastD s.current)).kind

/-- Past the current token, unless it is the last one. -/
def next (s : TokenStream) : TokenStream :=
  match h : s.ahead with
  | [] => s
  | t :: ts =>
    { previous? := some s.current
      current := t
      ahead := ts
      size := s.size - 1
      size_eq := by rw [s.size_eq, h]; rfl }

/-- Where the current token starts. -/
def position (s : TokenStream) : Position :=
  s.current.span.start

/-- Where the token passed last ends. Before the first token it is where that one starts. -/
def previousEnd (s : TokenStream) : Position :=
  match s.previous? with
  | some t => t.span.stop
  | none => s.position

/-- From `start` to the end of the token passed last. -/
def spanFrom (s : TokenStream) (start : Position) : Span :=
  ⟨start, s.previousEnd⟩

/-- The diagnostic place of the current token. -/
def span (s : TokenStream) : Span :=
  s.current.span

theorem size_next_le (s : TokenStream) : s.next.size ≤ s.size := by
  unfold next
  split
  · exact Nat.le_refl _
  · exact Nat.sub_le _ _

end TokenStream

end Nominal
