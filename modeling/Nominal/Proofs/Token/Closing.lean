import Nominal.Proofs.Source.Paths
import Nominal.Proofs.Token.Literal

/-!
# Where a string ends

A backslash in a string escapes the character after it, if it is not escaped itself. So a character
is escaped when an odd number of backslashes stands in a row before it (`isEscapedAfter`), and a
string ends at the first quote that is not (`ClosesAt`). The cutting finds this quote unless a line
feed before it is escaped (`Lexeme.closing?_eq_some_iff`), and then it takes the string for one that
is never closed. `tokenize_quote` says both of every quote at which the cutting of a source arrives.
-/

namespace Nominal

/-- How many backslashes a text ends with. -/
def trailingBackslashes (text : List Char) : Nat :=
  (text.reverse.takeWhile (· == '\\')).length

/-- Whether a character that follows `before` in a string is escaped. -/
def isEscapedAfter (before : List Char) : Bool :=
  trailingBackslashes before % 2 == 1

/-- `cs` is `inside`, then a quote, the first that is not escaped, and then `rest`. -/
structure ClosesAt (cs inside rest : List Char) : Prop where
  split : cs = inside ++ '"' :: rest
  unescaped : isEscapedAfter inside = false
  first : ∀ before after, inside = before ++ '"' :: after → isEscapedAfter before = true

/-- No line feed of the text is escaped. -/
def KeepsLineFeeds (text : List Char) : Prop :=
  ∀ before after, text = before ++ '\n' :: after → isEscapedAfter before = false

section

variable {c d : Char} {cs inside rest text group : List Char} {P : List Char → Prop}

/-! ## Counting backslashes -/

theorem trailingBackslashes_append (group text : List Char) :
    trailingBackslashes (group ++ text) =
      if trailingBackslashes text = text.length then text.length + trailingBackslashes group
      else trailingBackslashes text := by
  unfold trailingBackslashes
  rw [List.reverse_append, List.takeWhile_append, List.length_reverse]
  split
  · rw [List.length_append, List.length_reverse]
  · rfl

/-- What has no backslash left over at its end escapes nothing behind it. -/
theorem isEscapedAfter_append (hgroup : isEscapedAfter group = false) (text : List Char) :
    isEscapedAfter (group ++ text) = isEscapedAfter text := by
  unfold isEscapedAfter at hgroup ⊢
  rw [beq_eq_false_iff_ne] at hgroup
  rw [trailingBackslashes_append]
  split
  · next hall =>
    rw [hall, show (text.length + trailingBackslashes group) % 2 = text.length % 2 by omega]
  · rfl

theorem isEscapedAfter_raw (hc : c ≠ '\\') (text : List Char) :
    isEscapedAfter (c :: text) = isEscapedAfter text := by
  have hgroup : isEscapedAfter [c] = false := by
    simp [isEscapedAfter, trailingBackslashes, hc]
  exact isEscapedAfter_append hgroup text

theorem isEscapedAfter_escape (c : Char) (text : List Char) :
    isEscapedAfter ('\\' :: c :: text) = isEscapedAfter text := by
  have hgroup : isEscapedAfter ['\\', c] = false := by
    by_cases hc : c = '\\' <;> simp [isEscapedAfter, trailingBackslashes, hc]
  exact isEscapedAfter_append hgroup text

/-! ## Texts taken apart from their start -/

/-- Where `d` stands in a text that starts with `c`. -/
theorem forall_split_cons :
    (∀ before after, c :: text = before ++ d :: after → P before) ↔
      (c = d → P []) ∧ ∀ before after, text = before ++ d :: after → P (c :: before) := by
  constructor
  · intro h
    refine ⟨fun hc => h [] text (by rw [hc]; rfl), fun before after hsplit => ?_⟩
    exact h (c :: before) after (by rw [hsplit]; rfl)
  · rintro ⟨hhead, hrest⟩ before after hsplit
    cases before with
    | nil =>
      obtain ⟨hc, -⟩ := List.cons.inj hsplit
      exact hhead hc
    | cons b before =>
      obtain ⟨rfl, htext⟩ := List.cons.inj hsplit
      exact hrest before after htext

theorem keepsLineFeeds_raw (hc : c ≠ '\\') :
    KeepsLineFeeds (c :: text) ↔ KeepsLineFeeds text := by
  unfold KeepsLineFeeds
  rw [forall_split_cons]
  simp only [isEscapedAfter_raw hc]
  exact and_iff_right fun _ => rfl

theorem keepsLineFeeds_escape :
    KeepsLineFeeds ('\\' :: c :: text) ↔ c ≠ '\n' ∧ KeepsLineFeeds text := by
  have hescaped : isEscapedAfter ['\\'] = true := rfl
  unfold KeepsLineFeeds
  rw [forall_split_cons, forall_split_cons]
  simp [isEscapedAfter_escape, hescaped]

theorem not_closesAt_nil : ¬ ClosesAt [] inside rest := fun h =>
  absurd h.split (by simp)

/-- A quote at the start is not escaped, so it closes. -/
theorem closesAt_quote : ClosesAt ('"' :: cs) inside rest ↔ inside = [] ∧ rest = cs := by
  constructor
  · rintro ⟨hsplit, -, hfirst⟩
    cases inside with
    | nil => exact ⟨rfl, (List.cons.inj hsplit).2.symm⟩
    | cons c inside =>
      obtain ⟨rfl, -⟩ := List.cons.inj hsplit
      cases hfirst [] inside rfl
  · rintro ⟨rfl, rfl⟩
    exact ⟨rfl, rfl, by simp⟩

theorem closesAt_raw (hbackslash : c ≠ '\\') (hquote : c ≠ '"') :
    ClosesAt (c :: cs) inside rest ↔ ∃ text, inside = c :: text ∧ ClosesAt cs text rest := by
  constructor
  · rintro ⟨hsplit, hunescaped, hfirst⟩
    cases inside with
    | nil => exact absurd (List.cons.inj hsplit).1 hquote
    | cons b text =>
      obtain ⟨rfl, htext⟩ := List.cons.inj hsplit
      rw [forall_split_cons] at hfirst
      simp only [isEscapedAfter_raw hbackslash] at hunescaped hfirst
      exact ⟨text, rfl, htext, hunescaped, hfirst.2⟩
  · rintro ⟨text, rfl, hsplit, hunescaped, hfirst⟩
    refine ⟨by rw [hsplit]; rfl, ?_, ?_⟩
    · rwa [isEscapedAfter_raw hbackslash]
    · rw [forall_split_cons]
      simp only [isEscapedAfter_raw hbackslash]
      exact ⟨fun hc => absurd hc hquote, hfirst⟩

/-- A quote after a backslash does not close. -/
theorem closesAt_escape :
    ClosesAt ('\\' :: c :: cs) inside rest ↔
      ∃ text, inside = '\\' :: c :: text ∧ ClosesAt cs text rest := by
  have hescaped : isEscapedAfter ['\\'] = true := rfl
  constructor
  · rintro ⟨hsplit, hunescaped, hfirst⟩
    match inside with
    | [] => cases (List.cons.inj hsplit).1
    | [b] =>
      -- then `c` would be the closing quote, but the backslash escapes it
      obtain ⟨rfl, -⟩ := List.cons.inj hsplit
      cases hunescaped
    | b :: e :: text =>
      obtain ⟨rfl, hbehind⟩ := List.cons.inj hsplit
      obtain ⟨rfl, htext⟩ := List.cons.inj hbehind
      rw [forall_split_cons, forall_split_cons] at hfirst
      simp only [isEscapedAfter_escape] at hunescaped hfirst
      exact ⟨text, rfl, htext, hunescaped, hfirst.2.2⟩
  · rintro ⟨text, rfl, hsplit, hunescaped, hfirst⟩
    refine ⟨by rw [hsplit]; rfl, ?_, ?_⟩
    · rwa [isEscapedAfter_escape]
    · rw [forall_split_cons, forall_split_cons]
      simp only [isEscapedAfter_escape]
      exact ⟨by simp, fun _ => hescaped, hfirst⟩

theorem not_closesAt_backslash : ¬ ClosesAt ['\\'] inside rest := by
  rintro ⟨hsplit, -, -⟩
  match inside with
  | [] => cases hsplit
  | b :: text => simp at hsplit

/-- Of the quotes that are not escaped one is the first. -/
theorem exists_closesAt {before after : List Char} (h : cs = before ++ '"' :: after)
    (hunescaped : isEscapedAfter before = false) : ∃ inside rest, ClosesAt cs inside rest := by
  induction hn : before.length using Nat.strongRecOn generalizing before after with
  | _ n ih =>
  by_cases hearlier : ∃ left right, before = left ++ '"' :: right ∧ isEscapedAfter left = false
  · obtain ⟨left, right, hsplit, hleft⟩ := hearlier
    have hlt : left.length < n := by
      rw [← hn, hsplit, List.length_append, List.length_cons]
      omega
    have hcs : cs = left ++ '"' :: (right ++ '"' :: after) := by
      rw [h, hsplit, List.append_assoc, List.cons_append]
    exact ih left.length hlt hcs hleft rfl
  · refine ⟨before, after, h, hunescaped, fun left right hsplit => ?_⟩
    cases hleft : isEscapedAfter left with
    | true => rfl
    | false => exact absurd ⟨left, right, hsplit, hleft⟩ hearlier

/-! ## What the cutting finds -/

namespace Lexeme

/-- The search for the end of a string finds its first quote that is not escaped, as long as no line
feed before it is. -/
theorem closing?_eq_some_iff :
    closing? cs = some (inside, rest) ↔ ClosesAt cs inside rest ∧ KeepsLineFeeds inside := by
  fun_induction closing? cs generalizing inside rest with
  | case1 => simp [not_closesAt_nil]
  | case2 cs =>
    rw [closesAt_quote]
    simp only [Option.some.injEq, Prod.mk.injEq]
    constructor
    · rintro ⟨rfl, rfl⟩
      exact ⟨⟨rfl, rfl⟩, by simp [KeepsLineFeeds]⟩
    · rintro ⟨⟨rfl, rfl⟩, -⟩
      exact ⟨rfl, rfl⟩
  | case3 => simp [not_closesAt_backslash]
  | case4 cs =>
    -- the escaped line feed: a quote behind it closes the string, and the search gives up here
    rw [closesAt_escape]
    refine iff_of_false (Option.some_ne_none _).symm ?_
    rintro ⟨⟨text, rfl, -⟩, hkeeps⟩
    exact (keepsLineFeeds_escape.1 hkeeps).1 rfl
  | case5 c cs hc ih =>
    rw [Option.map_eq_some_iff, closesAt_escape]
    constructor
    · rintro ⟨⟨text, rest⟩, hclosing, heq⟩
      obtain ⟨rfl, rfl⟩ := Prod.mk.inj heq
      obtain ⟨hcloses, hkeeps⟩ := ih.1 hclosing
      exact ⟨⟨text, rfl, hcloses⟩, keepsLineFeeds_escape.2 ⟨hc, hkeeps⟩⟩
    · rintro ⟨⟨text, rfl, hcloses⟩, hkeeps⟩
      exact ⟨(text, rest), ih.2 ⟨hcloses, (keepsLineFeeds_escape.1 hkeeps).2⟩, rfl⟩
  | case6 c cs hquote hlast hescape ih =>
    have hbackslash : c ≠ '\\' := by
      rintro rfl
      cases cs with
      | nil => exact hlast rfl rfl
      | cons e cs => exact hescape e cs rfl rfl
    rw [Option.map_eq_some_iff, closesAt_raw hbackslash hquote]
    constructor
    · rintro ⟨⟨text, rest⟩, hclosing, heq⟩
      obtain ⟨rfl, rfl⟩ := Prod.mk.inj heq
      obtain ⟨hcloses, hkeeps⟩ := ih.1 hclosing
      exact ⟨⟨text, rfl, hcloses⟩, (keepsLineFeeds_raw hbackslash).2 hkeeps⟩
    · rintro ⟨⟨text, rfl, hcloses⟩, hkeeps⟩
      exact ⟨(text, rest), ih.2 ⟨hcloses, (keepsLineFeeds_raw hbackslash).1 hkeeps⟩, rfl⟩

/-- At a quote whose string ends there is the literal. -/
theorem first?_closed (hcloses : ClosesAt cs inside rest) (hkeeps : KeepsLineFeeds inside) :
    first? ('"' :: cs) =
      some ⟨.token .string (String.ofList (unescape inside)), '"' :: inside ++ ['"'], rest⟩ := by
  have hclosing : closing? cs = some (inside, rest) := closing?_eq_some_iff.2 ⟨hcloses, hkeeps⟩
  rw [first?_quote, string?, hclosing, Option.map_some, Option.some_or]

/-- At any other quote there is all that is left, as a string that is not closed. -/
theorem first?_unclosed
    (hopen : ∀ inside rest, ClosesAt cs inside rest → ¬ KeepsLineFeeds inside) :
    first? ('"' :: cs) = some ⟨.unclosed, '"' :: cs, []⟩ := by
  have hclosing : closing? cs = none := by
    rw [Option.eq_none_iff_forall_ne_some]
    rintro ⟨inside, rest⟩ hclosing
    obtain ⟨hcloses, hkeeps⟩ := closing?_eq_some_iff.1 hclosing
    exact hopen inside rest hcloses hkeeps
  rw [first?_quote, string?, hclosing, Option.map_none, Option.none_or, openQuote?]

end Lexeme

end

/-! ## Where the cutting arrives -/

/-- The span of `slice` behind `before` in the source of `file`. -/
def Span.behind (file : String) (before slice : List Char) : Span :=
  ⟨(Place.first.pass before).position file, (Place.first.pass (before ++ slice)).position file⟩

namespace Cursor

/-- The cutting of the source of `file` arrives at the cursor, when it has passed `before` and got
the tokens `earlier` from it. -/
inductive Arrives (source file : String) : List Char → List Token → Cursor → Prop
  | start : Arrives source file [] [] (.ofString source file)
  | gap {before : List Char} {earlier : List Token} {c : Cursor} {l : Lexeme}
    (h : Arrives source file before earlier c) (hfirst : Lexeme.first? c.rest = some l)
    (hmeaning : l.meaning = .blank) :
    Arrives source file (before ++ l.text) earlier (c.past l.text l.rest)
  | token {before : List Char} {earlier : List Token} {c : Cursor} {l : Lexeme} {kind : Kind}
    {value : String} (h : Arrives source file before earlier c)
    (hfirst : Lexeme.first? c.rest = some l) (hmeaning : l.meaning = .token kind value) :
    Arrives source file (before ++ l.text)
      (earlier ++ [⟨kind, value, .behind file before l.text⟩]) (c.past l.text l.rest)

variable {source file : String} {before : List Char} {earlier : List Token} {c : Cursor}

theorem PastIn.spanTo {all : List Char} (h : c.PastIn file all before) (text rest : List Char) :
    c.spanTo (c.past text rest) = .behind file before text := by
  unfold Cursor.spanTo Cursor.position Span.behind
  rw [past_place h.place, h.place, ← h.file]
  rfl

theorem PastIn.past {all : List Char} {l : Lexeme} (h : c.PastIn file all before)
    (hfirst : Lexeme.first? c.rest = some l) :
    (c.past l.text l.rest).PastIn file all (before ++ l.text) :=
  ⟨h.file, (Lexeme.takes_of_first? hfirst).source_eq h.split, past_place h.place⟩

theorem Arrives.pastIn (h : Arrives source file before earlier c) :
    c.PastIn file source.toList before := by
  induction h with
  | start => exact pastIn_ofString source file
  | gap _ hfirst _ ih => exact ih.past hfirst
  | token _ hfirst _ ih => exact ih.past hfirst

/-- The tokens of a source are those cut before a cursor and those cut from there. -/
theorem Arrives.tokenize (h : Arrives source file before earlier c) :
    tokenize source file = (earlier ++ ·) <$> c.tokens := by
  induction h with
  | start => exact (id_map _).symm
  | gap _ hfirst hmeaning ih =>
    rw [ih, tokens_of_first? hfirst, hmeaning]
  | token h hfirst hmeaning ih =>
    rw [ih, tokens_of_first? hfirst, hmeaning, h.pastIn.spanTo]
    simp only [Functor.map_map, List.append_assoc]

end Cursor

/-- A quote at which the cutting of a source arrives. If a quote behind it is not escaped, there is
a first such quote, and unless a line feed before that one is escaped, the string token that ends
with it is cut and the cutting goes on behind it. Otherwise the cutting stops, because of a string
that is not closed up to the end of the source. -/
theorem tokenize_quote {source file : String} {before cs : List Char} {earlier : List Token}
    {c : Cursor} (harrives : Cursor.Arrives source file before earlier c)
    (hquote : c.rest = '"' :: cs) :
    (∀ left right, cs = left ++ '"' :: right → isEscapedAfter left = false →
      ∃ inside rest, ClosesAt cs inside rest) ∧
    (∀ inside rest, ClosesAt cs inside rest → KeepsLineFeeds inside →
      let literal := '"' :: inside ++ ['"']
      let value := String.ofList (Lexeme.unescape inside)
      tokenize source file =
        (earlier ++ [⟨.string, value, .behind file before literal⟩] ++ ·) <$>
          (c.past literal rest).tokens) ∧
    ((∀ inside rest, ClosesAt cs inside rest → ¬ KeepsLineFeeds inside) →
      tokenize source file = .error ⟨.unterminatedString, .behind file before ('"' :: cs)⟩) := by
  refine ⟨fun left right => exists_closesAt, fun inside rest hcloses hkeeps => ?_, fun hopen => ?_⟩
  · have hfirst := hquote.symm ▸ Lexeme.first?_closed hcloses hkeeps
    exact (harrives.token hfirst rfl).tokenize
  · have hfirst : Lexeme.first? c.rest = some ⟨.unclosed, '"' :: cs, []⟩ := by
      rw [hquote]
      exact Lexeme.first?_unclosed hopen
    rw [harrives.tokenize, Cursor.tokens_of_first? hfirst, ← harrives.pastIn.spanTo _ []]
    rfl

/-- Two strings, the first with an escaped quote and an escaped backslash, the second with an
escaped line feed. -/
def twoQuotes : String :=
  "\"a\\\"\\\\\" \"c\\\n\""

/-- The first string is cut and the second is taken for one that is not closed. -/
theorem tokenize_quote_twoQuotes :
    (ClosesAt ['a', '\\', '"', '\\', '\\', '"', ' ', '"', 'c', '\\', '\n', '"']
        ['a', '\\', '"', '\\', '\\'] [' ', '"', 'c', '\\', '\n', '"'] ∧
      KeepsLineFeeds ['a', '\\', '"', '\\', '\\'] ∧
      ∃ next : Cursor, next.rest = [' ', '"', 'c', '\\', '\n', '"'] ∧
        tokenize twoQuotes interactiveFile =
          ([⟨.string, "a\"\\", ⟨⟨0, 1, 1, interactiveFile⟩, ⟨7, 1, 8, interactiveFile⟩⟩⟩] ++ ·) <$>
            next.tokens) ∧
    (∃ before earlier c, Cursor.Arrives twoQuotes interactiveFile before earlier c ∧
      c.rest = ['"', 'c', '\\', '\n', '"'] ∧ ClosesAt ['c', '\\', '\n', '"'] ['c', '\\', '\n'] [] ∧
      tokenize twoQuotes interactiveFile =
        .error ⟨.unterminatedString,
          ⟨⟨8, 1, 9, interactiveFile⟩, ⟨13, 2, 2, interactiveFile⟩⟩⟩) := by
  have hstart : Cursor.Arrives twoQuotes interactiveFile [] [] _ := .start
  have hfound : Lexeme.closing? ['a', '\\', '"', '\\', '\\', '"', ' ', '"', 'c', '\\', '\n', '"'] =
      some (['a', '\\', '"', '\\', '\\'], [' ', '"', 'c', '\\', '\n', '"']) := by decide +kernel
  have hhidden : Lexeme.closing? ['c', '\\', '\n', '"'] = none := by decide +kernel
  obtain ⟨hcloses, hkeeps⟩ := Lexeme.closing?_eq_some_iff.1 hfound
  have hfirst := Lexeme.first?_closed hcloses hkeeps
  have hsecond := (hstart.token hfirst rfl).gap (Lexeme.first?_of_isBlank (by decide) _) rfl
  have hopen : ClosesAt ['c', '\\', '\n', '"'] ['c', '\\', '\n'] [] :=
    (closesAt_raw (by decide) (by decide)).2
      ⟨_, rfl, closesAt_escape.2 ⟨[], rfl, closesAt_quote.2 ⟨rfl, rfl⟩⟩⟩
  refine ⟨⟨hcloses, hkeeps, _, ?_, (tokenize_quote hstart rfl).2.1 _ _ hcloses hkeeps⟩,
    _, _, _, hsecond, rfl, hopen, (tokenize_quote hsecond rfl).2.2 ?_⟩
  · rfl
  · intro inside rest hcloses hkeeps
    cases hhidden.symm.trans (Lexeme.closing?_eq_some_iff.2 ⟨hcloses, hkeeps⟩)

/-- A line feed that is escaped hides the quote that closes its string. -/
theorem escaped_lineFeed_hides_quote :
    ClosesAt ['\\', '\n', '"'] ['\\', '\n'] [] ∧
    tokenize "\"\\\n\"" interactiveFile =
      .error ⟨.unterminatedString, ⟨⟨0, 1, 1, interactiveFile⟩, ⟨4, 2, 2, interactiveFile⟩⟩⟩ := by
  have hcloses : ClosesAt ['\\', '\n', '"'] ['\\', '\n'] [] :=
    closesAt_escape.2 ⟨[], rfl, closesAt_quote.2 ⟨rfl, rfl⟩⟩
  have hhidden : Lexeme.closing? ['\\', '\n', '"'] = none := by decide +kernel
  have hfirst : Lexeme.first? (Cursor.ofString "\"\\\n\"" interactiveFile).rest =
      some ⟨.unclosed, ['"', '\\', '\n', '"'], []⟩ := by
    refine Lexeme.first?_unclosed fun inside rest hcloses hkeeps => ?_
    cases hhidden.symm.trans (Lexeme.closing?_eq_some_iff.2 ⟨hcloses, hkeeps⟩)
  refine ⟨hcloses, ?_⟩
  rw [tokenize, Cursor.tokens_of_first? hfirst]
  rfl

end Nominal
