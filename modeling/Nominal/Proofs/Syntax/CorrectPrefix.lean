import Nominal.Proofs.Syntax.Prefix.Statements
import Nominal.Proofs.Syntax.RoundTrip

/-!
# Syntax errors are reported where they are

A list of tokens is `Viable` if it can be continued to a program. Where parsing stops for another
reason than the nesting limit, it stops as soon as the tokens cease to be viable and not before
(`parse_error_cuts`). That the tokens before the diagnostic are viable follows from the completions
of what the rules have passed, since a completed program is parsed under a limit that has room for
it. That no continuation of the tokens up to the diagnostic is parsed follows from reading both
lists at once.
-/

namespace Nominal

open Token Parse

/-- Whether the tokens can be continued to a list that is parsed under some limit. -/
def Viable (ts : List Token) : Prop :=
  ∃ (more : List Token) (file : String) (limit : Nat) (program : Block),
    parse (ts ++ more) file limit = .ok program

namespace TokenStream

theorem previous?_ofTokens (file : String) (ts : List Token) :
    (ofTokens file ts).previous? = none := by
  cases ts <;> rfl

/-- A stream of some tokens starts with them. -/
theorem exists_remaining_ofTokens {ts : List Token} (hne : ts ≠ []) (more : List Token)
    (file : String) : ∃ rest, (ofTokens file (ts ++ more)).remaining = ts ++ rest := by
  obtain ⟨t, ts, rfl⟩ := List.exists_cons_of_ne_nil hne
  simp only [ofTokens, remaining, List.cons_append]
  split
  · exact ⟨more, rfl⟩
  · exact ⟨more ++ [.endAt ((ts ++ more).getLastD t).span.stop], by simp⟩

end TokenStream

section

variable {file : String} {limit : Nat} {tokens us : List Token} {d : Diagnostic} {t : TokenStream}

/-- No continuation of the tokens that a diagnostic depends on is parsed. -/
theorem not_viable_of_run (rest : List Token) (hended : Ended tokens)
    (hrun : Grammar.standard.program limit (.ofTokens file tokens) = .error d t)
    (hnesting : ¬ d.IsNesting) (hsplit : tokens = us ++ rest) (hne : us ≠ [])
    (hsize : rest.length + d.lookahead t.remaining ≤ t.size) : ¬ Viable us := by
  rintro ⟨more, file', limit', program, hparse⟩
  obtain ⟨rest', hremaining'⟩ := TokenStream.exists_remaining_ofTokens hne more file'
  obtain ⟨t', hrun'⟩ := exists_run_of_parse hparse
  have hremaining := TokenStream.remaining_ofTokens hended file
  have halike : Fork.Alike ⟨rest, rest'⟩ (.ofTokens file tokens) (.ofTokens file' (us ++ more)) :=
    ⟨⟨us, hne, hremaining.trans hsplit, hremaining'⟩,
      (TokenStream.previous?_ofTokens _ _).trans (TokenStream.previous?_ofTokens _ _).symm⟩
  -- the accepted list begins with the same tokens, so reading it would have stopped as well
  have hforetold := Grammar.program_foretells ⟨rest, rest'⟩ limit limit' _
    (.ofTokens file' (us ++ more)) (TokenStream.good_ofTokens hended file)
  rw [hrun] at hforetold
  exact ((hforetold hnesting).2 halike hsize).of_ok hrun'

/-- What was passed before a diagnostic is viable, with the token that it depends on besides the
last. -/
theorem viable_of_run (hended : Ended tokens)
    (hrun : Grammar.standard.program limit (.ofTokens file tokens) = .error d t)
    (hnesting : ¬ d.IsNesting) : d.span = t.current.span ∧
      ∃ before, tokens = before ++ t.remaining ∧
        Viable (before ++ t.remaining.take (d.lookahead t.remaining)) := by
  have hgood := TokenStream.good_ofTokens hended file
  obtain hstuck | ⟨hspan, program, before, more, ⟨hregular, hlegible⟩, hall, hspelling⟩ :=
    (Grammar.program_fails limit hgood).of_error hrun
  · exact absurd hstuck hnesting
  rw [TokenStream.remaining_ofTokens hended file] at hall
  -- the completed program is parsed under a limit that has room for its own nesting
  obtain ⟨parsed, hparse, -⟩ :=
    (parse_complete hregular hlegible (Nat.le_refl _)).2 _ ⟨.eof, "", .nowhere⟩ file hspelling rfl
  rw [List.append_assoc] at hparse
  exact ⟨hspan, before, hall, _, file, program.nesting, parsed, hparse⟩

end

/-- The diagnostic stands where the tokens cease to be viable: those before its token are, those up
to its token are not. A `fun` in a class that has no name behind it is still viable, and the token
behind it is not. -/
def Diagnostic.Cuts (d : Diagnostic) (tokens : List Token) : Prop :=
  ∃ before token after, tokens = before ++ token :: after ∧ d.span = token.span ∧
    (¬ d.IsNameless (token :: after) → Viable before ∧ ¬ Viable (before ++ [token])) ∧
    (d.IsNameless (token :: after) → ∃ next rest, after = next :: rest ∧
      Viable (before ++ [token]) ∧ ¬ Viable (before ++ [token, next]))

/-- Parsing stops as soon as no continuation of the tokens could be parsed under any limit, and not
before, unless it stops for want of levels. -/
theorem parse_error_cuts {source file parsedFile : String} {limit : Nat} {tokens : List Token}
    {d : Diagnostic} (htokens : tokenize source file = .ok tokens)
    (hparse : parse tokens parsedFile limit = .error d) (hnesting : ¬ d.IsNesting) :
    d.Cuts tokens := by
  have hended := tokenize_ended htokens
  obtain ⟨t, hrun⟩ := exists_run_of_parse_error hparse
  obtain ⟨hspan, before, hsplit, hviable⟩ := viable_of_run hended hrun hnesting
  have hsize := t.size_eq
  refine ⟨before, t.current, t.ahead, hsplit, hspan, fun hnamed => ?_, fun hnameless => ?_⟩
  · have hlookahead : d.lookahead t.remaining = 0 := if_neg hnamed
    rw [hlookahead, List.take_zero, List.append_nil] at hviable
    refine ⟨hviable, not_viable_of_run t.ahead hended hrun hnesting ?_ (by simp) ?_⟩
    · rw [hsplit, List.append_assoc]
      rfl
    · omega
  · have hlookahead : d.lookahead t.remaining = 1 := if_pos hnameless
    rw [hlookahead] at hviable
    have hahead : t.ahead ≠ [] := by
      -- the end token is the last one, and is no `fun`
      intro hnil
      obtain ⟨body, last, hbody, hlast, -⟩ := hended.split
      rw [hsplit, TokenStream.remaining, hnil] at hbody
      have hcurrent : t.current = last := (List.append_inj' hbody rfl).2 |> List.head_eq_of_cons_eq
      have hfun : t.current.kind = .kwFun := hnameless.2.1
      simp [← hcurrent, hfun] at hlast
    obtain ⟨next, rest, hcons⟩ := List.exists_cons_of_ne_nil hahead
    refine ⟨next, rest, hcons, hviable, ?_⟩
    refine not_viable_of_run rest hended hrun hnesting ?_ (by simp) ?_
    · rw [hsplit, TokenStream.remaining, hcons]
      simp
    · rw [hcons, List.length_cons] at hsize
      omega

/-- The cause for which a source of tokens is not parsed, if there is one. -/
def rejection? (source : String) : Except Diagnostic (Option Cause) := do
  let tokens ← tokenize source interactiveFile
  tryCatch (do let _ ← parse tokens interactiveFile defaultNestingLimit; return none)
    fun d => return some d.cause

theorem exists_parse_error {source : String} {cause : Cause}
    (h : (rejection? source).toOption = some (some cause)) :
    ∃ tokens d, tokenize source interactiveFile = .ok tokens ∧
      parse tokens interactiveFile defaultNestingLimit = .error d ∧ d.cause = cause := by
  unfold rejection? at h
  cases htokens : tokenize source interactiveFile with
  | error d =>
    rw [htokens] at h
    cases h
  | ok tokens =>
    rw [htokens] at h
    simp only [bind, Except.bind] at h
    cases hparse : parse tokens interactiveFile defaultNestingLimit with
    | ok program =>
      rw [hparse] at h
      cases h
    | error d =>
      rw [hparse] at h
      exact ⟨tokens, d, rfl, hparse, Option.some.inj (Option.some.inj h)⟩

/-- An assignment to what is no place, and a function without a name in a class. -/
theorem parse_error_cuts_samples :
    (∃ tokens d, tokenize "if a { x = f(1); } else -y = 2;" interactiveFile = .ok tokens ∧
      parse tokens interactiveFile defaultNestingLimit = .error d ∧ ¬ d.IsNesting ∧
      d.cause = .unexpectedTokenDetailed "=" "invalid assignment target" ∧ d.Cuts tokens) ∧
    ∃ tokens d, tokenize "class A { val x = 1; fun () { } }" interactiveFile = .ok tokens ∧
      parse tokens interactiveFile defaultNestingLimit = .error d ∧ ¬ d.IsNesting ∧
      d.cause = .unexpectedTokenDetailed "fun" "expected member declaration in class body" ∧
      d.Cuts tokens := by
  have hassignment : (rejection? "if a { x = f(1); } else -y = 2;").toOption =
      some (some (.unexpectedTokenDetailed "=" "invalid assignment target")) := by decide +kernel
  have hmember : (rejection? "class A { val x = 1; fun () { } }").toOption = some (some
      (.unexpectedTokenDetailed "fun" "expected member declaration in class body")) := by
    decide +kernel
  have hnesting : ∀ {d : Diagnostic} {text detail : String},
      d.cause = .unexpectedTokenDetailed text detail → ¬ d.IsNesting := by
    rintro d text detail hcause ⟨limit, hlimit⟩
    simp [hcause] at hlimit
  obtain ⟨tokens, d, htokens, hparse, hcause⟩ := exists_parse_error hassignment
  obtain ⟨tokens', d', htokens', hparse', hcause'⟩ := exists_parse_error hmember
  exact ⟨⟨tokens, d, htokens, hparse, hnesting hcause, hcause,
    parse_error_cuts htokens hparse (hnesting hcause)⟩,
    tokens', d', htokens', hparse', hnesting hcause', hcause',
    parse_error_cuts htokens' hparse' (hnesting hcause')⟩

end Nominal
