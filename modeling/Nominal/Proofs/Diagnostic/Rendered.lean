import Nominal.Proofs.Diagnostic.Excerpt
import Nominal.Proofs.Session.Outcomes
import Nominal.Proofs.Syntax.Walks

/-!
# Diagnostics point at the source

A diagnostic that comes of a source (`Diagnostic.About`) marks a stretch of it: what cannot be cut, a
token that stops the parser, or tokens of a statement that is rejected (`Diagnostic.About.marks`). So
it is rendered with the line of this stretch and carets under it, unless more columns are before the
stretch on its line than a field of formatted text can be wide (`Diagnostic.About.render_shows`).
-/

namespace Nominal

open Token

namespace Diagnostic

/-- The diagnostic comes of a source: of cutting it, of parsing its tokens, or of checking the program
that they write. -/
inductive About (d : Diagnostic) (source file : String) : Prop
  | cutting (h : tokenize source file = .error d)
  | parsing {parsedFile : String} {limit : Nat} {tokens : List Token}
    (htokens : tokenize source file = .ok tokens) (h : parse tokens parsedFile limit = .error d)
  | checking {parsedFile : String} {limit : Nat} {tokens : List Token} {program : Block}
    {s : Session} {diagnostics : List Diagnostic} (htokens : tokenize source file = .ok tokens)
    (hparse : parse tokens parsedFile limit = .ok program) (hs : s.Reachable)
    (hreport : (s.check program).2.report = s.report ++ diagnostics) (h : d ∈ diagnostics)

end Diagnostic

/-! ## Where the diagnostics are -/

/-- A span that covers tokens other than the end token marks all that stands from the first to the
last of them. -/
theorem Span.Covers.marks {source file : String} {tokens ts : List Token} {s : Span}
    (hsize : source.utf8ByteSize < UInt32.size) (htokens : tokenize source file = .ok tokens)
    (hsub : ts.Sublist tokens) (hbody : ∀ t ∈ ts, t.kind ≠ .eof) (h : s.Covers ts) :
    ∃ left slice after, s.Marks file source.toList left slice after ∧ Seen slice := by
  obtain ⟨first, last, hfirst, hlast, rfl⟩ := h
  have hfirstMem := List.mem_of_head? hfirst
  have hlastMem := List.mem_of_getLast? hlast
  obtain ⟨left, slice, after, hmarks, hslice⟩ := Token.marks hsize htokens (hsub.subset hfirstMem)
  obtain ⟨left', slice', after', hmarks', -⟩ := Token.marks hsize htokens (hsub.subset hlastMem)
  have hseen := hslice.resolve_left fun hend => hbody first hfirstMem hend.1
  -- the first token does not stop behind the last one
  have hle := ((tokenize_inOrder hsize htokens).sublist hsub).le_last hlast hfirstMem
  rw [UInt32.le_iff_toNat_le, hmarks.stop.offset, hmarks'.stop.offset] at hle
  obtain ⟨more, hmore⟩ := prefix_of_byteCount_le (hmarks.split.symm.trans hmarks'.split) hle
  refine ⟨left, slice ++ more, after', ⟨?_, hmarks.start, ?_⟩, hseen.append more⟩
  · rw [← List.append_assoc, hmore, hmarks'.split]
  · rw [← List.append_assoc, hmore]
    exact hmarks'.stop

theorem Span.Marks.exists_ne {s : Span} {file : String} {source left slice after : List Char}
    (h : s.Marks file source left slice after) (hseen : Seen slice) : ∃ c ∈ source, c ≠ '\n' := by
  obtain ⟨c, hc, hne⟩ := hseen.exists_ne
  exact ⟨c, by simp [h.split, hc], hne⟩

/-- A diagnostic marks something that can be seen, or the end of a source in which something can be
seen. -/
theorem Diagnostic.About.marks {d : Diagnostic} {source file : String} (h : d.About source file)
    (hsize : source.utf8ByteSize < UInt32.size) :
    (∃ left slice after, d.span.Marks file source.toList left slice after ∧
      (Seen slice ∨ slice = [] ∧ after = [])) ∧ ∃ c ∈ source.toList, c ≠ '\n' := by
  cases h with
  | cutting h =>
    obtain ⟨left, slice, after, hmarks, hseen⟩ := tokenize_refusal hsize h
    exact ⟨⟨left, slice, after, hmarks, .inl hseen⟩, hmarks.exists_ne hseen⟩
  | parsing htokens h =>
    obtain ⟨⟨t, ht, hspan⟩, u, hu, hkind⟩ := exists_token_of_parse_error (tokenize_ended htokens) h
    obtain ⟨left, slice, after, hmarks, hslice⟩ := Token.marks hsize htokens ht
    obtain ⟨_, _, _, hmarks', hslice'⟩ := Token.marks hsize htokens hu
    have hseen := hslice'.resolve_left fun hend => hkind hend.1
    refine ⟨⟨left, slice, after, hspan ▸ hmarks, ?_⟩, hmarks'.exists_ne hseen⟩
    exact hslice.symm.imp_right fun hend => hend.2
  | @checking _ _ tokens _ _ _ htokens hparse hs hreport h =>
    obtain ⟨parts, last, hbody, hsplit, -, hon⟩ := exists_parts_of_parse htokens hparse
    obtain ⟨diagnostics', hreport', hcovered⟩ := hs.named.checkAll_covered hon
    rw [hbody] at hreport'
    obtain rfl := List.append_cancel_left (hreport.symm.trans hreport')
    obtain ⟨part, hpart, ts, hts, hcovers⟩ := hcovered.exists_rejected d h
    -- what the statements stand on are the tokens before the end token
    obtain ⟨body, end', hbody', -, hlexed⟩ := (tokenize_ended htokens).split
    obtain ⟨rfl, -⟩ := List.append_inj' (hbody'.symm.trans hsplit) rfl
    have hflatten : ts.Sublist (parts.map Prod.snd).flatten :=
      hts.sublist.trans (List.sublist_flatten_of_mem (List.mem_map_of_mem hpart))
    have hkinds : ∀ t ∈ ts, t.kind ≠ .eof := fun t ht =>
      (hlexed t (hflatten.subset ht)).kind_ne_eof
    have htokens' : ts.Sublist tokens := by
      rw [hsplit]
      exact hflatten.trans (List.sublist_append_left _ _)
    obtain ⟨left, slice, after, hmarks, hseen⟩ := hcovers.marks hsize htokens htokens' hkinds
    exact ⟨⟨left, slice, after, hmarks, .inl hseen⟩, hmarks.exists_ne hseen⟩

/-! ## Words for lines and columns -/

/-- Words can hold the lines and columns of a source of less than 4 GiB, unless it consists of line
feeds only, or is one line with as many characters as bytes could be. -/
theorem countable_of_size {source : String} (hsize : source.utf8ByteSize < UInt32.size)
    (hline : source.length + 1 < UInt32.size ∨ '\n' ∈ source.toList)
    (hseen : ∃ c ∈ source.toList, c ≠ '\n') : Countable source.toList := by
  have hbytes := length_le_byteCount source.toList
  rw [byteCount_toList] at hbytes
  rw [← String.length_toList] at hline
  refine ⟨fun before hbefore => ?_, fun before hbefore => ?_⟩
  · have hle : lineFeeds before ≤ lineFeeds source.toList := hbefore.sublist.count_le _
    have hlt := lineFeeds_lt_length hseen
    omega
  · have hsince := sinceLineFeed_le_length before
    have hlength := hbefore.length_le
    obtain hroom | hfeed := hline
    · omega
    -- the line is not all of the source, which has a line feed
    have hlt : sinceLineFeed before ≠ source.toList.length := by
      intro heq
      obtain rfl := hbefore.eq_of_length (by omega)
      exact Nat.ne_of_lt (sinceLineFeed_lt_length hfeed) heq
    omega

/-! ## Rendering -/

/-- A diagnostic that comes of a source is rendered with the line of the stretch it marks, and with
carets under this stretch. Only when as many columns as a field can be wide come before the stretch
on its line, not counting the spaces that the line starts with, it can not be rendered. -/
theorem Diagnostic.About.render_shows {d : Diagnostic} {source file : String}
    (h : d.About source file) (hsize : source.utf8ByteSize < UInt32.size)
    (hline : source.length + 1 < UInt32.size ∨ '\n' ∈ source.toList) :
    ∃ left slice after line e, d.span.Marks file source.toList left slice after ∧
      (slice = [] → after = []) ∧ Excerpt.Shows e source.toList left slice line ∧
      d.render source =
        if e.dashes < maxFieldWidth then .ok (d.heading ++ e.format) else .error .fieldTooWide := by
  obtain ⟨⟨left, slice, after, hmarks, hslice⟩, hvisible⟩ := h.marks hsize
  have hcount := countable_of_size hsize hline hvisible
  refine ⟨left, slice, after, lineOf left slice after, .ofStretch left slice after, hmarks, ?_,
    Excerpt.shows_ofStretch hmarks.split hslice, d.render_of_marks hcount hmarks hslice⟩
  intro hnil
  exact (hslice.resolve_left fun hseen => hseen.ne_nil hnil).2

/-- An indented line behind a carriage return, with a string that is not closed. -/
def openStringSource : String :=
  "val a = 1;\r\n  b = \"é ü"

/-- The rendered diagnostic of a source that can not be cut into tokens. -/
def rendering? (source : String) : Option String :=
  match tokenize source interactiveFile with
  | .ok _ => none
  | .error d => (d.render source).toOption

theorem Diagnostic.About.render_shows_openStringSource :
    ∃ d : Diagnostic, d.About openStringSource interactiveFile ∧
      openStringSource.utf8ByteSize < UInt32.size ∧ '\n' ∈ openStringSource.toList ∧
      (∃ left slice after line e, d.span.Marks interactiveFile openStringSource.toList left slice after ∧
        (slice = [] → after = []) ∧ Excerpt.Shows e openStringSource.toList left slice line ∧
        d.render openStringSource =
          if e.dashes < maxFieldWidth then .ok (d.heading ++ e.format) else .error .fieldTooWide) ∧
      (d.render openStringSource).toOption = some
        ("Error: UnterminatedString (unterminated string literal)\n" ++
          "  tip: Close the string literal with `\"`\n-> shell:2:7\n" ++
          "  |\n2 | b = \"é ü\n  | ----^^^^\n") := by
  have hsize : openStringSource.utf8ByteSize < UInt32.size := by decide +kernel
  have hfeed : '\n' ∈ openStringSource.toList := by decide +kernel
  have hrendered : rendering? openStringSource = some
        ("Error: UnterminatedString (unterminated string literal)\n" ++
          "  tip: Close the string literal with `\"`\n-> shell:2:7\n" ++
          "  |\n2 | b = \"é ü\n  | ----^^^^\n") := by decide +kernel
  unfold rendering? at hrendered
  cases htokens : tokenize openStringSource interactiveFile with
  | ok tokens =>
    rw [htokens] at hrendered
    cases hrendered
  | error d =>
    rw [htokens] at hrendered
    have habout : d.About openStringSource interactiveFile := .cutting htokens
    exact ⟨d, habout, hsize, hfeed, habout.render_shows hsize (.inr hfeed), hrendered⟩

/-! ## Lines that are too long -/

/-- A word of `n` letters and a character that no token starts with. -/
def longLine (n : Nat) : String :=
  String.ofList (List.replicate n 'a' ++ ['#'])

theorem byteCount_replicate (n : Nat) : byteCount (List.replicate n 'a') = n := by
  induction n with
  | zero => rfl
  | succ n ih =>
    rw [List.replicate_succ', byteCount_append, ih, byteCount_singleton]
    rfl

/-- No reserved word is that long. -/
theorem isIdentifier_replicate {n : Nat} (hlong : 9 ≤ n) :
    IsIdentifier (String.ofList (List.replicate n 'a')) := by
  refine .inl ⟨?_, fun hmem => ?_⟩
  · obtain ⟨m, rfl⟩ := Nat.exists_eq_add_of_le' hlong
    rw [String.toList_ofList, List.replicate_succ]
    simp [Lexeme.isWord, Lexeme.isWordStart, Lexeme.isWordPart]
  · have hshort : ∀ word ∈ Kind.reserved.map Prod.fst, word.toList.length < 9 := by decide
    have hlength := hshort _ hmem
    rw [String.toList_ofList, List.length_replicate] at hlength
    omega

/-- The diagnostic of a long line is at its end. -/
theorem tokenize_longLine {n : Nat} (hlong : 9 ≤ n) (hsize : n + 1 < UInt32.size) (file : String) :
    ∃ d, tokenize (longLine n) file = .error d ∧ ∃ slice after,
      d.span.Marks file (longLine n).toList (List.replicate n 'a') slice after ∧ Seen slice := by
  let word := List.replicate n 'a'
  let c := Cursor.ofString (longLine n) file
  have hrest : c.rest = word ++ ['#'] := String.toList_ofList
  have hends : Lexeme.NameEnds ['#'] := by
    rintro d ⟨⟩
    decide
  have hfirst := Lexeme.first?_identifier (isIdentifier_replicate hlong) hends
  rw [String.toList_ofList, ← hrest] at hfirst
  have hstop : Lexeme.first? ['#'] = none := by decide
  have htokens : (c.past word ['#']).tokens = .error (c.past word ['#']).unrecognised :=
    Cursor.tokens_of_first?_eq_none (by simp [Cursor.past]) hstop
  have hplace : (c.past word ['#']).place = Place.first.pass word := rfl
  have hbytes : byteCount (longLine n).toList < UInt32.size := by
    rw [longLine, String.toList_ofList, byteCount_append, byteCount_replicate, byteCount_singleton]
    exact hsize
  refine ⟨(c.past word ['#']).unrecognised, ?_, ?_⟩
  · rw [tokenize, Cursor.tokens_of_first? hfirst]
    show _ <$> (c.past word ['#']).tokens = _
    rw [htokens]
    rfl
  · exact Cursor.unrecognised_marks hrest.symm hplace hbytes (List.cons_ne_nil '#' []) hstop

theorem dashes_replicate (n : Nat) (slice after : List Char) :
    (Excerpt.ofStretch (List.replicate n 'a') slice after).dashes = n := by
  simp [Excerpt.ofStretch, lineBefore]

/-- A line can be so long that what is wrong at its end can not be rendered. -/
theorem Diagnostic.exists_not_rendered :
    ∃ d : Diagnostic, d.About (longLine 65535) interactiveFile ∧
      (longLine 65535).utf8ByteSize < UInt32.size ∧
      d.render (longLine 65535) = .error .fieldTooWide := by
  obtain ⟨d, htokens, slice, after, hmarks, hseen⟩ :=
    tokenize_longLine (n := 65535) (by decide) (by decide) interactiveFile
  have hsize : (longLine 65535).utf8ByteSize < UInt32.size := by
    rw [← byteCount_toList, longLine, String.toList_ofList, byteCount_append, byteCount_replicate,
      byteCount_singleton]
    decide
  have hline : (longLine 65535).length + 1 < UInt32.size := by
    rw [longLine, String.length_ofList, List.length_append, List.length_replicate]
    decide
  have hcount := countable_of_size hsize (.inl hline) (hmarks.exists_ne hseen)
  refine ⟨d, .cutting htokens, hsize, ?_⟩
  rw [d.render_of_marks hcount hmarks (.inl hseen), dashes_replicate, if_neg (by decide)]

end Nominal
