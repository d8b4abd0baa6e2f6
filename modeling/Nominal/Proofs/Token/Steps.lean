import Nominal.Token.Scan

/-!
# Cutting step by step

What a cursor at a text does first: at the end of the text it stops, elsewhere it passes the first
lexeme and goes on from there (`Cursor.tokens_of_first?`). White space is passed however it is
divided into lexemes (`Cursor.tokens_white`).
-/

namespace Nominal

namespace Lexeme

/-- The rules one after the other. -/
theorem first?_eq_or (cs : List Char) :
    first? cs = (blanks? cs).or ((comment? cs).or ((operatorName? cs).or ((word? cs).or
      ((number? cs).or ((string? cs).or ((openQuote? cs).or ((mark? cs).or none))))))) := by
  have hcons (rule : List Char → Option Lexeme) (more : List (List Char → Option Lexeme)) :
      (rule :: more).findSome? (fun rule => rule cs) =
        (rule cs).or (more.findSome? fun rule => rule cs) := by
    rw [List.findSome?_cons]
    cases rule cs <;> rfl
  simp only [first?, rules, hcons, List.findSome?_nil]

/-- White space at the start of a text is its first lexeme. -/
theorem first?_of_isBlank {ch : Char} (hch : isBlank ch) (cs : List Char) :
    first? (ch :: cs) =
      some ⟨.blank, ch :: cs.takeWhile isBlank, cs.dropWhile isBlank⟩ := by
  have hblanks : blanks? (ch :: cs) =
      some ⟨.blank, ch :: cs.takeWhile isBlank, cs.dropWhile isBlank⟩ := by
    simp [blanks?, run?, hch]
  rw [first?_eq_or, hblanks, Option.some_or]

/-- Past its first lexeme the source is still the same. -/
theorem Takes.source_eq {l : Lexeme} {cs before source : List Char} (h : l.Takes cs)
    (hsource : before ++ cs = source) : before ++ l.text ++ l.rest = source := by
  rw [List.append_assoc, h.2, hsource]

end Lexeme

/-- When a token and what comes after it are cut, so is what comes after it. -/
theorem Token.exists_of_cons {t : Token} {rest : Except Diagnostic (List Token)} {ts : List Token}
    (h : (return t :: (← rest)) = Except.ok ts) : ∃ us, rest = .ok us ∧ ts = t :: us := by
  cases rest with
  | error d => cases h
  | ok us => exact ⟨us, rfl, (Except.ok.inj h).symm⟩

/-- What stops the cutting behind a token stops it behind the token. -/
theorem Token.eq_error_of_cons {t : Token} {rest : Except Diagnostic (List Token)} {d : Diagnostic}
    (h : (return t :: (← rest)) = Except.error d) : rest = .error d := by
  cases rest with
  | error e => exact congrArg _ (Except.error.inj h)
  | ok us => cases h

namespace Cursor

variable {c : Cursor} {l : Lexeme}

theorem tokens_of_rest_eq_nil (h : c.rest = []) : c.tokens = .ok [.endAt c.position] := by
  rw [tokens, if_pos h]

/-- One step of the cutting, by what the first lexeme means. -/
theorem tokens_of_first? (hfirst : Lexeme.first? c.rest = some l) :
    c.tokens =
      match l.meaning with
      | .blank => (c.past l.text l.rest).tokens
      | .token kind value =>
        ([⟨kind, value, c.spanTo (c.past l.text l.rest)⟩] ++ ·) <$> (c.past l.text l.rest).tokens
      | .unclosed => .error ⟨.unterminatedString, c.spanTo (c.past l.text l.rest)⟩ := by
  have hne : c.rest ≠ [] := by
    intro hnil
    rw [hnil] at hfirst
    cases hfirst
  rw [tokens, if_neg hne]
  split
  · next hnone => cases hnone.symm.trans hfirst
  · next found hfound =>
    obtain rfl := Option.some.inj (hfound.symm.trans hfirst)
    rfl

/-- Where no lexeme begins, the cutting stops. -/
theorem tokens_of_first?_eq_none (hne : c.rest ≠ []) (hfirst : Lexeme.first? c.rest = none) :
    c.tokens = .error c.unrecognised := by
  rw [tokens, if_neg hne]
  split
  · rfl
  · next found hfound => cases hfirst.symm.trans hfound

/-- Passing texts one after the other is passing them at once. -/
theorem past_past (a b r s : List Char) : (c.past a r).past b s = c.past (a ++ b) s := by
  simp [past, Place.pass_append]

/-- White space before the rest of a text is dropped all at once. -/
theorem tokens_dropBlanks (c : Cursor) :
    c.tokens = (c.past (c.rest.takeWhile isBlank) (c.rest.dropWhile isBlank)).tokens := by
  obtain ⟨file, place, rest⟩ := c
  cases rest with
  | nil => rfl
  | cons ch cs =>
    by_cases hch : isBlank ch
    · rw [tokens_of_first? (Lexeme.first?_of_isBlank hch cs)]
      simp [hch]
    · simp [hch, past]

/-- White space is passed, whatever comes after it. -/
theorem tokens_white {white after : List Char} (hwhite : ∀ ch ∈ white, isBlank ch)
    (hrest : c.rest = white ++ after) : c.tokens = (c.past white after).tokens := by
  rw [tokens_dropBlanks c, tokens_dropBlanks (c.past white after), past_past, hrest,
    List.takeWhile_append_of_pos hwhite, List.dropWhile_append_of_pos hwhite]
  rfl

end Cursor

end Nominal
