import Nominal.Text.Blank
import Nominal.Token.Kind

/-!
# Lexemes

The rules by which the next piece of a source text is recognised. A rule looks at the start of the
text and either fits, with a nonempty piece and a meaning for it, or does not. Rules are tried in
order and the first that fits wins (`Lexeme.first?`). Whatever rule fits, the piece and the rest
together are the text (`Lexeme.append_of_first?`).
-/

namespace Nominal

/-- What a recognised piece of text is. -/
inductive Meaning where
  /-- White space or a comment. -/
  | blank
  /-- A token with its value. -/
  | token (kind : Kind) (value : String)
  /-- A quote that opens a string which never closes. -/
  | unclosed
  deriving DecidableEq

/-- A recognised piece of text and what follows it. -/
structure Lexeme where
  meaning : Meaning
  text : List Char
  rest : List Char

namespace Lexeme

/-- The longest run of characters that satisfy `p`, unless it is empty. -/
def run? (p : Char → Bool) (meaning : List Char → Meaning) (cs : List Char) : Option Lexeme :=
  match cs.takeWhile p with
  | [] => none
  | text => some ⟨meaning text, text, cs.dropWhile p⟩

/-- A run of white space. -/
def blanks? : List Char → Option Lexeme :=
  run? isBlank fun _ => .blank

/-- Two slashes and the rest of the line. -/
def comment? : List Char → Option Lexeme
  | '/' :: '/' :: cs =>
    some ⟨.blank, '/' :: '/' :: cs.takeWhile (· != '\n'), cs.dropWhile (· != '\n')⟩
  | _ => none

/-- Whether `c` can begin a word. -/
def isWordStart (c : Char) : Bool :=
  c.isAlpha || c == '_'

/-- Whether `c` can stand in a word. -/
def isWordPart (c : Char) : Bool :=
  c.isAlphanum || c == '_'

/-- The operators that a function can be named after. A longer one stands before the one that
begins it. -/
def operators : List String :=
  ["==", "!=", "<=", ">=", "-", "+", "*", "/", "<", ">", "!"]

/-- The rest of `cs` after `text`, if `cs` starts with it. -/
def after? : List Char → List Char → Option (List Char)
  | [], cs => some cs
  | _ :: _, [] => none
  | t :: ts, c :: cs => if t = c then after? ts cs else none

/-- The word `operator` and an operator, which together are a name. -/
def operatorName? (cs : List Char) : Option Lexeme :=
  operators.findSome? fun op =>
    let name := "operator" ++ op
    (after? name.toList cs).map fun rest => ⟨.token (.ofWord name) name, name.toList, rest⟩

/-- A letter or underscore, and the letters, digits and underscores that follow it. -/
def word? (cs : List Char) : Option Lexeme :=
  match cs with
  | [] => none
  | c :: _ =>
    if isWordStart c then
      run? isWordPart (fun text => .token (.ofWord (String.ofList text)) (String.ofList text)) cs
    else none

/-- A run of decimal digits. -/
def number? : List Char → Option Lexeme :=
  run? Char.isDigit fun text => .token .number (String.ofList text)

/-- The inside of a string literal up to its closing quote, and what follows the quote. A backslash
takes the next character with it, which may be a quote but not a line feed. -/
def closing? : List Char → Option (List Char × List Char)
  | [] => none
  | '"' :: rest => some ([], rest)
  | ['\\'] => none
  | '\\' :: c :: cs =>
    if c = '\n' then none
    else (closing? cs).map fun (inside, rest) => ('\\' :: c :: inside, rest)
  | c :: cs => (closing? cs).map fun (inside, rest) => (c :: inside, rest)

/-- The text that the inside of a string literal stands for. A backslash that begins none of the
known escapes stands for itself. -/
def unescape : List Char → List Char
  | '\\' :: 'n' :: cs => '\n' :: unescape cs
  | '\\' :: 't' :: cs => '\t' :: unescape cs
  | '\\' :: '\\' :: cs => '\\' :: unescape cs
  | '\\' :: 'r' :: cs => '\r' :: unescape cs
  | '\\' :: '"' :: cs => '"' :: unescape cs
  | '\\' :: '0' :: cs => '\x00' :: unescape cs
  | c :: cs => c :: unescape cs
  | [] => []

/-- A string literal. -/
def string? : List Char → Option Lexeme
  | '"' :: cs =>
    (closing? cs).map fun (inside, rest) =>
      ⟨.token .string (String.ofList (unescape inside)), '"' :: inside ++ ['"'], rest⟩
  | _ => none

/-- A quote, and with it all that follows. -/
def openQuote? : List Char → Option Lexeme
  | '"' :: cs => some ⟨.unclosed, '"' :: cs, []⟩
  | _ => none

/-- A mark of punctuation. -/
def mark? (cs : List Char) : Option Lexeme :=
  Kind.marks.findSome? fun (text, kind) =>
    (after? text.toList cs).map fun rest => ⟨.token kind text, text.toList, rest⟩

/-- The rules, in the order in which they are tried. -/
def rules : List (List Char → Option Lexeme) :=
  [blanks?, comment?, operatorName?, word?, number?, string?, openQuote?, mark?]

/-- The lexeme at the start of a text. -/
def first? (cs : List Char) : Option Lexeme :=
  rules.findSome? fun rule => rule cs

/-! ## Every rule takes a nonempty beginning of the text -/

/-- The piece is not empty, and the piece and the rest are the text. -/
def Takes (l : Lexeme) (cs : List Char) : Prop :=
  l.text ≠ [] ∧ l.text ++ l.rest = cs

theorem takes_of_run? {p : Char → Bool} {meaning : List Char → Meaning} {cs : List Char}
    {l : Lexeme} (h : run? p meaning cs = some l) : l.Takes cs := by
  unfold run? at h
  split at h
  · simp at h
  · next hne =>
    obtain rfl := Option.some.inj h
    exact ⟨hne, List.takeWhile_append_dropWhile⟩

theorem takes_of_comment? {cs : List Char} {l : Lexeme} (h : comment? cs = some l) :
    l.Takes cs := by
  unfold comment? at h
  split at h
  · obtain rfl := Option.some.inj h
    exact ⟨by simp, by simp⟩
  · simp at h

theorem append_of_after? {ts cs rest : List Char} (h : after? ts cs = some rest) :
    ts ++ rest = cs := by
  fun_induction after? ts cs with
  | case1 cs => simpa using h.symm
  | case2 => simp at h
  | case3 t ts cs ih => simp [ih h]
  | case4 => simp at h

theorem takes_of_operatorName? {cs : List Char} {l : Lexeme} (h : operatorName? cs = some l) :
    l.Takes cs := by
  obtain ⟨op, -, h⟩ := List.exists_of_findSome?_eq_some h
  obtain ⟨rest, hrest, rfl⟩ := Option.map_eq_some_iff.1 h
  exact ⟨by simp, append_of_after? hrest⟩

theorem takes_of_word? {cs : List Char} {l : Lexeme} (h : word? cs = some l) : l.Takes cs := by
  unfold word? at h
  split at h
  · simp at h
  · split at h
    · exact takes_of_run? h
    · simp at h

theorem append_of_closing? {cs inside rest : List Char} (h : closing? cs = some (inside, rest)) :
    inside ++ '"' :: rest = cs := by
  fun_induction closing? cs generalizing inside rest with
  | case1 => simp at h
  | case2 => simp at h; simp [h]
  | case3 => simp at h
  | case4 => simp at h
  | case5 c cs _ ih =>
    obtain ⟨⟨i, r⟩, hr, heq⟩ := Option.map_eq_some_iff.1 h
    obtain ⟨rfl, rfl⟩ := Prod.mk.inj heq
    simp [ih hr]
  | case6 c cs _ _ _ ih =>
    obtain ⟨⟨i, r⟩, hr, heq⟩ := Option.map_eq_some_iff.1 h
    obtain ⟨rfl, rfl⟩ := Prod.mk.inj heq
    simp [ih hr]

theorem takes_of_string? {cs : List Char} {l : Lexeme} (h : string? cs = some l) :
    l.Takes cs := by
  unfold string? at h
  split at h
  · obtain ⟨⟨i, r⟩, hr, rfl⟩ := Option.map_eq_some_iff.1 h
    exact ⟨by simp, by simp [← append_of_closing? hr]⟩
  · simp at h

theorem takes_of_openQuote? {cs : List Char} {l : Lexeme} (h : openQuote? cs = some l) :
    l.Takes cs := by
  unfold openQuote? at h
  split at h
  · obtain rfl := Option.some.inj h
    exact ⟨by simp, by simp⟩
  · simp at h

theorem takes_of_mark? {cs : List Char} {l : Lexeme} (h : mark? cs = some l) : l.Takes cs := by
  obtain ⟨⟨text, kind⟩, hmem, h⟩ := List.exists_of_findSome?_eq_some h
  obtain ⟨rest, hrest, rfl⟩ := Option.map_eq_some_iff.1 h
  refine ⟨?_, append_of_after? hrest⟩
  have hall : ∀ m ∈ Kind.marks, m.1.toList ≠ [] := by decide
  exact hall _ hmem

/-- The first lexeme of a text takes a nonempty beginning of it. -/
theorem takes_of_first? {cs : List Char} {l : Lexeme} (h : first? cs = some l) : l.Takes cs := by
  obtain ⟨rule, hmem, h⟩ := List.exists_of_findSome?_eq_some h
  simp only [rules, List.mem_cons, List.not_mem_nil, or_false] at hmem
  rcases hmem with rfl | rfl | rfl | rfl | rfl | rfl | rfl | rfl
  · exact takes_of_run? h
  · exact takes_of_comment? h
  · exact takes_of_operatorName? h
  · exact takes_of_word? h
  · exact takes_of_run? h
  · exact takes_of_string? h
  · exact takes_of_openQuote? h
  · exact takes_of_mark? h

theorem Takes.rest_lt {l : Lexeme} {cs : List Char} (h : l.Takes cs) :
    l.rest.length < cs.length := by
  have hpos := List.length_pos_iff.2 h.1
  rw [← h.2, List.length_append]
  omega

end Lexeme

end Nominal
