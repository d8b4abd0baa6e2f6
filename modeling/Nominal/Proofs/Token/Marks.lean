import Nominal.Proofs.Token.Boundary

/-!
# Stretches of a source

`Span.Marks` says that a span is that of a stretch of a source, by counting from the source alone.
Every token marks the stretch it was read from, which is not empty and does not start with white
space, but for the end token (`Token.marks`). The same holds of the diagnostic of a source that can
not be cut into tokens (`tokenize_refusal`): it marks the character that begins no lexeme, or the
quote that is never closed with all that follows it.
-/

namespace Nominal

/-- The span is that of `slice`, which stands between `before` and `after` in the source of `file`. -/
structure Span.Marks (s : Span) (file : String) (source before slice after : List Char) : Prop where
  split : source = before ++ slice ++ after
  start : s.start.IsAfter file before
  stop : s.stop.IsAfter file (before ++ slice)

/-- What can be seen is not white space. -/
theorem ne_of_isBlank {c d : Char} (hc : isBlank c = false) (hd : isBlank d) : c ≠ d := by
  rintro rfl
  simp [hc] at hd

/-- Something other than white space stands at the start of the text. -/
def Seen (text : List Char) : Prop :=
  ∃ c rest, text = c :: rest ∧ isBlank c = false

theorem Seen.append {text : List Char} (h : Seen text) (after : List Char) : Seen (text ++ after) := by
  obtain ⟨c, rest, rfl, hc⟩ := h
  exact ⟨c, rest ++ after, rfl, hc⟩

theorem Seen.ne_nil {text : List Char} (h : Seen text) : text ≠ [] := by
  obtain ⟨c, rest, rfl, -⟩ := h
  exact List.cons_ne_nil c rest

/-- What can be seen is no line feed. -/
theorem Seen.exists_ne {text : List Char} (h : Seen text) : ∃ c ∈ text, c ≠ '\n' := by
  obtain ⟨c, rest, rfl, hc⟩ := h
  exact ⟨c, List.mem_cons_self, ne_of_isBlank hc (by decide)⟩

/-- A token that is not a string starts with something to see. -/
theorem Token.Lexed.seen {t : Token} (h : t.Lexed) (hstring : t.kind ≠ .string) :
    Seen t.value.toList := by
  have hpart {text : List Char} (hne : text ≠ []) (htext : ∀ c ∈ text, Lexeme.isNamePart c) :
      Seen text := by
    obtain ⟨c, rest, rfl⟩ := List.exists_cons_of_ne_nil hne
    exact ⟨c, rest, rfl, Lexeme.isBlank_of_isNamePart (htext c List.mem_cons_self)⟩
  cases h with
  | fixed h =>
    have hall : ((Kind.marks ++ Kind.reserved).all fun m =>
        m.1.toList.head?.any fun c => !isBlank c) = true := by decide
    have hfirst := List.all_eq_true.1 hall _ h
    cases htext : t.value.toList with
    | nil => simp [htext] at hfirst
    | cons c rest => exact ⟨c, rest, rfl, by simpa [htext] using hfirst⟩
  | name _ hne hname => exact hpart hne hname
  | number _ hne hdigit =>
    refine hpart hne fun c hc => ?_
    simp [Lexeme.isNamePart, Lexeme.isWordPart, Char.isAlphanum, hdigit c hc]
  | string hkind => exact absurd hkind hstring

/-- Every token is read from something to see. -/
theorem Token.ReadFrom.seen {t : Token} {slice rest : List Char} (h : t.ReadFrom slice rest) :
    Seen slice := by
  by_cases hstring : t.kind = .string
  · obtain ⟨inside, rfl, -⟩ := h.text hstring
    exact ⟨'"', inside ++ ['"'], rfl, by decide⟩
  · rw [← h.value hstring]
    exact h.lexed.seen hstring

/-- A lexeme that is no gap starts with something other than white space. -/
theorem Lexeme.seen_of_first? {cs : List Char} {l : Lexeme} (h : first? cs = some l)
    (hmeaning : l.meaning ≠ .blank) : Seen l.text := by
  obtain ⟨hne, hsplit⟩ := takes_of_first? h
  obtain ⟨c, text, htext⟩ := List.exists_cons_of_ne_nil hne
  refine ⟨c, text, htext, ?_⟩
  cases hc : isBlank c with
  | false => rfl
  | true =>
    rw [← hsplit, htext, List.cons_append, first?_of_isBlank hc] at h
    rw [← Option.some.inj h] at hmeaning
    exact absurd rfl hmeaning

namespace Cursor

variable {c : Cursor} {source before : List Char} {d : Diagnostic}

/-- Where no lexeme begins there is a character that can be seen, and the diagnostic marks it. -/
theorem unrecognised_marks (hsource : before ++ c.rest = source)
    (hplace : c.place = Place.first.pass before) (hsize : byteCount source < UInt32.size)
    (hne : c.rest ≠ []) (hfirst : Lexeme.first? c.rest = none) :
    ∃ slice after, c.unrecognised.span.Marks c.file source before slice after ∧ Seen slice := by
  obtain ⟨ch, rest, hrest⟩ := List.exists_cons_of_ne_nil hne
  have hseen : isBlank ch = false := by
    cases hblank : isBlank ch with
    | false => rfl
    | true =>
      rw [hrest, Lexeme.first?_of_isBlank hblank] at hfirst
      cases hfirst
  have hsplit : source = before ++ [ch] ++ rest := by
    rw [← hsource, hrest, List.append_assoc, List.singleton_append]
  rw [hsplit, byteCount_append, byteCount_append] at hsize
  have hstart : c.position.IsAfter c.file before := c.position_isAfter hplace (by omega)
  have hstop := hstart.next (ne_of_isBlank hseen (by decide)) (by rw [byteCount_append]; omega)
  refine ⟨[ch], rest, ⟨hsplit, hstart, ?_⟩, ch, [], rfl, hseen⟩
  have htext : (String.ofList c.rest.head?.toList).utf8ByteSize = ch.utf8Size := by
    rw [hrest]
    exact byteCount_singleton ch
  simp only [unrecognised, htext]
  exact hstop

/-- The diagnostic of a text that can not be cut marks a stretch of what the cursor has left. -/
theorem tokens_refusal (c : Cursor) (hsource : before ++ c.rest = source)
    (hplace : c.place = Place.first.pass before) (hsize : byteCount source < UInt32.size)
    (h : c.tokens = .error d) :
    ∃ left slice after, d.span.Marks c.file source left slice after ∧ Seen slice := by
  fun_induction Cursor.tokens c generalizing before d with
  | case1 c hrest => cases h
  | case2 c hne hfirst =>
    obtain rfl := Except.error.inj h
    obtain ⟨slice, after, hmarks, hseen⟩ := unrecognised_marks hsource hplace hsize hne hfirst
    exact ⟨before, slice, after, hmarks, hseen⟩
  | case3 c _ lexeme hfirst _ next hmeaning =>
    rename_i ih
    have hnext := (Lexeme.takes_of_first? hfirst).source_eq hsource
    exact ih hnext (past_place hplace) h
  | case4 c _ lexeme hfirst _ next kind value hmeaning =>
    rename_i ih
    have hnext := (Lexeme.takes_of_first? hfirst).source_eq hsource
    exact ih hnext (past_place hplace) (Token.eq_error_of_cons h)
  | case5 c _ lexeme hfirst =>
    rename_i hmeaning
    obtain rfl := Except.error.inj h
    have hall := ((Lexeme.takes_of_first? hfirst).source_eq hsource).symm
    have hbytes := congrArg byteCount hall
    simp only [byteCount_append] at hbytes
    have hstart := c.position_isAfter hplace (by omega)
    have hstop := (c.past lexeme.text lexeme.rest).position_isAfter (past_place hplace)
      (by rw [byteCount_append]; omega)
    have hseen := Lexeme.seen_of_first? hfirst (by simp [hmeaning])
    exact ⟨before, lexeme.text, lexeme.rest, ⟨hall, hstart, hstop⟩, hseen⟩

end Cursor

/-- Start and stop of what is marked are each after some beginning of the source. -/
theorem Span.Marks.isAfter {s : Span} {file : String} {source before slice after : List Char}
    (h : s.Marks file source before slice after) {p : Position} (hp : p ∈ [s.start, s.stop]) :
    ∃ earlier, earlier <+: source ∧ p.IsAfter file earlier := by
  rw [h.split]
  simp only [List.mem_cons, List.not_mem_nil, or_false] at hp
  rcases hp with rfl | rfl
  · exact ⟨before, (List.prefix_append _ _).trans (List.prefix_append _ _), h.start⟩
  · exact ⟨before ++ slice, List.prefix_append _ _, h.stop⟩

/-- A token marks what it was read from, and the end token the end of the source. -/
theorem Token.marks {source file : String} {tokens : List Token}
    (hsize : source.utf8ByteSize < UInt32.size) (h : tokenize source file = .ok tokens) {t : Token}
    (ht : t ∈ tokens) :
    ∃ left slice after, t.span.Marks file source.toList left slice after ∧
      (t.kind = .eof ∧ slice = [] ∧ after = [] ∨ Seen slice) := by
  obtain ⟨left, slice, after, hsplit, hstart, hstop, -, hread⟩ :=
    (tokenize_tiles hsize h).token_at t ht
  exact ⟨left, slice, after, ⟨hsplit, hstart, hstop⟩, hread.imp_right ReadFrom.seen⟩

/-- The diagnostic of a source that can not be cut into tokens marks a stretch of the source at whose
start there is something to see. -/
theorem tokenize_refusal {source file : String} {d : Diagnostic}
    (hsize : source.utf8ByteSize < UInt32.size) (h : tokenize source file = .error d) :
    ∃ left slice after, d.span.Marks file source.toList left slice after ∧ Seen slice :=
  Cursor.tokens_refusal (.ofString source file) (List.nil_append _) rfl
    (by rwa [byteCount_toList]) h

end Nominal
