import Nominal.Proofs.Token.Lossless
import Nominal.Proofs.Token.Steps

/-!
# String literals

Every text can be written as a string literal, in several ways (`Escapes`): quotes and backslashes
have to be escaped, the other characters that an escape stands for may be, and all else is written
as it is. The end of a literal and the text it stands for are found by two separate walks over its
inside. They agree on what is written like that (`Escapes.closing?`, `Escapes.unescape`), so each
such literal is cut into one token with the text as its value (`tokenize_literal`).
-/

namespace Nominal

/-- The inside of a string literal that a text can be written with. -/
inductive Escapes : List Char → List Char → Prop
  | nil : Escapes [] []
  | raw {c : Char} {text inside : List Char} (hbackslash : c ≠ '\\') (hquote : c ≠ '"')
    (hrest : Escapes text inside) : Escapes (c :: text) (c :: inside)
  | escape {c d : Char} {text inside : List Char} (hc : (c, d) ∈ escapes)
    (hrest : Escapes text inside) : Escapes (d :: text) ('\\' :: c :: inside)

namespace Lexeme

theorem closing?_cons {c : Char} (hbackslash : c ≠ '\\') (hquote : c ≠ '"') (cs : List Char) :
    closing? (c :: cs) = (closing? cs).map fun (inside, rest) => (c :: inside, rest) := by
  rw [closing?.eq_def]
  split <;> simp_all

theorem closing?_escape {c : Char} (hc : c ≠ '\n') (cs : List Char) :
    closing? ('\\' :: c :: cs) =
      (closing? cs).map fun (inside, rest) => ('\\' :: c :: inside, rest) := by
  rw [closing?, if_neg hc]

theorem unescape_cons {c : Char} (hbackslash : c ≠ '\\') (cs : List Char) :
    unescape (c :: cs) = c :: unescape cs := by
  rw [unescape.eq_def]
  split <;> simp_all

theorem unescape_escape {c d : Char} (hc : (c, d) ∈ escapes) (cs : List Char) :
    unescape ('\\' :: c :: cs) = d :: unescape cs := by
  simp only [escapes, List.mem_cons, Prod.mk.injEq, List.not_mem_nil, or_false] at hc
  rcases hc with ⟨rfl, rfl⟩ | ⟨rfl, rfl⟩ | ⟨rfl, rfl⟩ | ⟨rfl, rfl⟩ | ⟨rfl, rfl⟩ | ⟨rfl, rfl⟩
  all_goals rfl

/-- At a quote there is a string literal, or a quote that opens none. -/
theorem first?_quote (cs : List Char) :
    first? ('"' :: cs) = (string? ('"' :: cs)).or (openQuote? ('"' :: cs)) := by
  have hblanks : blanks? ('"' :: cs) = none := by simp [blanks?, run?, isBlank, blankRanges]
  have hcomment : comment? ('"' :: cs) = none := by simp [comment?]
  have hoperator : operatorName? ('"' :: cs) = none := by simp [operatorName?, operators, after?]
  have hword : word? ('"' :: cs) = none := by simp [word?, isWordStart]
  have hnumber : number? ('"' :: cs) = none := by simp [number?, run?]
  have hmark : mark? ('"' :: cs) = none := by simp [mark?, Kind.marks, after?]
  rw [first?_eq_or, hblanks, hcomment, hoperator, hword, hnumber, hmark]
  simp only [Option.none_or, Option.or_none]

end Lexeme

namespace Escapes

variable {text inside : List Char}

/-- Every text can be written. -/
theorem exists_inside : ∀ text : List Char, ∃ inside, Escapes text inside
  | [] => ⟨[], .nil⟩
  | c :: text => by
    obtain ⟨inside, h⟩ := exists_inside text
    by_cases hescape : (c, c) ∈ escapes
    · exact ⟨'\\' :: c :: inside, .escape hescape h⟩
    · refine ⟨c :: inside, .raw ?_ ?_ h⟩
      all_goals
        rintro rfl
        exact hescape (by decide)

/-- The first quote that closes the literal is the one behind its inside. -/
theorem closing? (h : Escapes text inside) (rest : List Char) :
    Lexeme.closing? (inside ++ '"' :: rest) = some (inside, rest) := by
  induction h with
  | nil => rfl
  | raw hbackslash hquote _ ih =>
    rw [List.cons_append, Lexeme.closing?_cons hbackslash hquote, ih]
    rfl
  | @escape c d _ _ hc _ ih =>
    have hfeed : ∀ m ∈ escapes, m.1 ≠ '\n' := by decide
    rw [List.cons_append, List.cons_append, Lexeme.closing?_escape (hfeed _ hc), ih]
    rfl

/-- The inside stands for the text. -/
theorem unescape (h : Escapes text inside) : Lexeme.unescape inside = text := by
  induction h with
  | nil => rfl
  | raw hbackslash _ _ ih => rw [Lexeme.unescape_cons hbackslash, ih]
  | escape hc _ ih => rw [Lexeme.unescape_escape hc, ih]

/-- A literal is the first lexeme where it stands, whatever follows. -/
theorem first? (h : Escapes text inside) (rest : List Char) :
    Lexeme.first? ('"' :: inside ++ '"' :: rest) =
      some ⟨.token .string (String.ofList text), '"' :: inside ++ ['"'], rest⟩ := by
  have hstring : Lexeme.string? ('"' :: inside ++ '"' :: rest) =
      some ⟨.token .string (String.ofList text), '"' :: inside ++ ['"'], rest⟩ := by
    simp only [List.cons_append, Lexeme.string?, h.closing? rest, Option.map_some, h.unescape]
  rw [List.cons_append] at hstring ⊢
  rw [Lexeme.first?_quote, hstring]
  rfl

end Escapes

/-- Every text can be written as a string literal, and however it is written, the literal is cut into
one string token with the text as its value, from the start to the end of the literal, and the end
token. -/
theorem tokenize_literal (text file : String) :
    (∃ inside, Escapes text.toList inside) ∧
    ∀ inside, Escapes text.toList inside →
      let literal := '"' :: inside ++ ['"']
      let stop : Position := ⟨(byteCount literal).toUInt32, (1 + lineFeeds literal).toUInt32,
        (1 + sinceLineFeed literal).toUInt32, file⟩
      tokenize (String.ofList literal) file =
        .ok [⟨.string, text, ⟨.first file, stop⟩⟩, .endAt stop] := by
  refine ⟨Escapes.exists_inside text.toList, fun inside h => ?_⟩
  intro literal stop
  have hfirst : Lexeme.first? (Cursor.ofString (String.ofList literal) file).rest =
      some ⟨.token .string text, literal, []⟩ := by
    have hliteral := h.first? []
    rw [String.ofList_toList] at hliteral
    rw [Cursor.ofString, String.toList_ofList]
    exact hliteral
  have hstop : ((Cursor.ofString (String.ofList literal) file).past literal []).position = stop := by
    show (Place.first.pass literal).position file = stop
    rw [Place.first_pass]
    rfl
  rw [tokenize, Cursor.tokens_of_first? hfirst]
  dsimp only
  rw [Cursor.tokens_of_rest_eq_nil rfl, Cursor.spanTo, hstop]
  rfl

/-- All that has to be escaped and all that may be, raw and escaped, with backslashes in a row. -/
theorem tokenize_literal_manyEscapes :
    Escapes "\\\\\"\n\nt\x00\r\té".toList "\\\\\\\\\\\"\n\\nt\\0\r\\té".toList ∧
    tokenize "\"\\\\\\\\\\\"\n\\nt\\0\r\\té\"" interactiveFile =
      .ok [⟨.string, "\\\\\"\n\nt\x00\r\té", ⟨⟨0, 1, 1, interactiveFile⟩, ⟨19, 2, 11, interactiveFile⟩⟩⟩,
        ⟨.eof, "EOF", ⟨⟨19, 2, 11, interactiveFile⟩, ⟨19, 2, 11, interactiveFile⟩⟩⟩] := by
  have h : Escapes "\\\\\"\n\nt\x00\r\té".toList "\\\\\\\\\\\"\n\\nt\\0\r\\té".toList := by
    refine .escape (by decide) (.escape (by decide) (.escape (by decide) ?_))
    refine .raw (by decide) (by decide) (.escape (by decide) (.raw (by decide) (by decide) ?_))
    refine .escape (by decide) (.raw (by decide) (by decide) (.escape (by decide) ?_))
    exact .raw (by decide) (by decide) .nil
  exact ⟨h, ((tokenize_literal _ interactiveFile).2 _ h).trans
    (congrArg Except.ok (by decide +kernel))⟩

end Nominal
