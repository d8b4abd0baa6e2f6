import Nominal.Proofs.Syntax.Sound

/-!
# Parsed programs

A program that was parsed is printed as the tokens it was parsed from, and it respects the
precedence table (`parse_spelling`). The rules give this for what they pass; what remains is that
reading starts at the first token and stops at the end token and nowhere before.
-/

namespace Nominal

open Parse Token

namespace TokenStream

/-- A list that ends in an end token is streamed as it is. -/
theorem remaining_ofTokens_append (file : String) (body : List Token) {last : Token}
    (hlast : last.kind = .eof) : (ofTokens file (body ++ [last])).remaining = body ++ [last] := by
  cases body with
  | nil => simp [ofTokens, remaining, hlast]
  | cons t body =>
    have hend : (body ++ [last]).getLastD t = last := by simp
    simp only [List.cons_append, ofTokens, remaining, hend, hlast, if_true]

theorem remaining_ofTokens {tokens : List Token} (h : Ended tokens) (file : String) :
    (ofTokens file tokens).remaining = tokens := by
  obtain ⟨body, last, rfl, hlast, -⟩ := h.split
  exact remaining_ofTokens_append file body hlast

/-- At the end token nothing else is left, since no other token is of its kind. -/
theorem Good.remaining_of_eof {s : TokenStream} (hs : s.Good) (hk : s.kind = .eof) :
    s.remaining = [s.current] := by
  obtain ⟨body, last, hsplit, -, hbody⟩ := hs.split
  cases body with
  | nil =>
    obtain ⟨-, hahead⟩ := List.cons.inj hsplit
    rw [remaining, hahead]
  | cons t body =>
    obtain ⟨rfl, -⟩ := List.cons.inj hsplit
    exact absurd hk (hbody _ List.mem_cons_self).kind_ne_eof

end TokenStream

/-- The rule for programs reads up to the end token. -/
theorem Grammar.program_sound (limit : Nat) {s : TokenStream} (hs : s.Good) :
    (standard.program limit).Gives s fun program t =>
      s.Writes program.pieces t ∧ program.Regular ∧ t.kind = .eof := by
  simp only [program, gives_bind, gives_position, gives_pure]
  have hbody : (repeatUntil (· == .eof) (standard.stmtIn limit limit)).Gives s _ :=
    gives_repeatUntil Stmt.Regular (fun u hu _ => (inner_sound limit limit).stmt u hu)
      Stmt.pieces_required hs
  refine hbody.mono ?_
  rintro body t ⟨hwrites, hregular, hend⟩
  refine ⟨?_, Stmt.allRegular_iff.2 hregular, by simpa using hend⟩
  simpa [Block.pieces] using hwrites

/-- A program that was parsed is what the rule for programs gives. -/
theorem exists_run_of_parse {parsedFile : String} {limit : Nat} {tokens : List Token}
    {program : Block} (hparse : parse tokens parsedFile limit = .ok program) :
    ∃ t, Grammar.standard.program limit (.ofTokens parsedFile tokens) = .ok program t := by
  unfold parse at hparse
  split at hparse
  · next block t hrun =>
    obtain rfl := Except.ok.inj hparse
    exact ⟨t, hrun⟩
  · cases hparse

/-- A diagnostic that the rule for programs stops with is one of the parser. -/
theorem exists_run_of_parse_error {file : String} {limit : Nat} {tokens : List Token}
    {d : Diagnostic} (hparse : parse tokens file limit = .error d) :
    ∃ t, Grammar.standard.program limit (.ofTokens file tokens) = .error d t := by
  unfold parse at hparse
  split at hparse
  · cases hparse
  · next e t hrun =>
    obtain rfl := Except.error.inj hparse
    exact ⟨t, hrun⟩

/-- A stream of lexed tokens that end in an end token is good. -/
theorem TokenStream.good_ofTokens {tokens : List Token} (h : Ended tokens) (file : String) :
    (ofTokens file tokens).Good := by
  rw [Good, remaining_ofTokens h file]
  exact h

/-- What the rule for programs gives for lexed tokens that end in an end token. -/
theorem parse_sound {parsedFile : String} {limit : Nat} {tokens : List Token} {program : Block}
    (hended : Ended tokens) (hparse : parse tokens parsedFile limit = .ok program) :
    (∃ body last, tokens = body ++ [last] ∧ last.kind = .eof ∧
      Piece.Spelling program.pieces body) ∧ program.Regular := by
  have hremaining := TokenStream.remaining_ofTokens hended parsedFile
  have hgood := TokenStream.good_ofTokens hended parsedFile
  obtain ⟨t, hrun⟩ := exists_run_of_parse hparse
  obtain ⟨⟨ht, ts, hspelling, hsplit⟩, hregular, hend⟩ :=
    (Grammar.program_sound limit hgood).of_ok hrun
  rw [hremaining, ht.remaining_of_eof hend] at hsplit
  exact ⟨⟨ts, t.current, hsplit, hend, hspelling⟩, hregular⟩

/-- A program that was parsed from the tokens of a source is printed as these tokens, all of them
but the end token, and every node of it nests as the precedence table asks. -/
theorem parse_spelling {source file parsedFile : String} {limit : Nat} {tokens : List Token}
    {program : Block} (htokens : tokenize source file = .ok tokens)
    (hparse : parse tokens parsedFile limit = .ok program) :
    (∃ body last, tokens = body ++ [last] ∧ last.kind = .eof ∧
      Piece.Spelling program.pieces body) ∧ program.Regular := by
  have hended := tokenize_ended htokens
  exact parse_sound hended hparse

/-- What holds of the program of a source, if it is parsed under a limit. -/
theorem exists_program (source : String) (limit : Nat) {P : Block → Prop} [DecidablePred P]
    (h : ((tokenize source interactiveFile).toOption.bind fun tokens =>
      (parse tokens interactiveFile limit).toOption.map fun program => decide (P program)) =
        some true) :
    ∃ tokens program, tokenize source interactiveFile = .ok tokens ∧
      parse tokens interactiveFile limit = .ok program ∧ P program := by
  cases htokens : tokenize source interactiveFile with
  | error d =>
    rw [htokens] at h
    cases h
  | ok tokens =>
    rw [htokens] at h
    cases hparse : parse tokens interactiveFile limit with
    | error d =>
      simp only [Except.toOption, Option.bind_some, hparse] at h
      cases h
    | ok program =>
      simp only [Except.toOption, Option.bind_some, hparse] at h
      exact ⟨tokens, program, rfl, hparse, of_decide_eq_true (Option.some.inj h)⟩

/-- A class without parentheses, a `val` before a parameter, an arrow, zeros before a number and
operators of several powers. -/
def sampleSource : String :=
  "class A { fun f(val a: Int) -> Int { return -a * 007 + 2; } } x = y = new A().f((2 - 3) / 4);"

theorem parse_spelling_sampleSource :
    ∃ tokens program, tokenize sampleSource interactiveFile = .ok tokens ∧
      parse tokens interactiveFile defaultNestingLimit = .ok program ∧
      (∃ body last, tokens = body ++ [last] ∧ last.kind = .eof ∧
        Piece.Spelling program.pieces body) ∧ program.Regular := by
  obtain ⟨tokens, program, htokens, hparse, -⟩ :=
    exists_program sampleSource defaultNestingLimit (P := fun _ => True) (by decide +kernel)
  exact ⟨tokens, program, htokens, hparse, parse_spelling htokens hparse⟩

end Nominal
