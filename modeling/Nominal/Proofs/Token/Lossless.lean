import Nominal.Proofs.Source.Place
import Nominal.Proofs.Token.Lexed

/-!
# Tokens lose nothing of the source

The tokens of a source lie in it one after the other, each where its span says, and what is between
them is white space and comments (`Token.Tiles`). A token is read from its stretch of the source as
`Token.ReadFrom` says: its value is that stretch, or for a string what the stretch stands for
(`Unescapes`), and it does not stop before a character that would have made it longer.

Both are shown rule by rule for the first lexeme of a text (`Lexeme.readFrom_of_first?`,
`Lexeme.blank_of_first?`) and then along the cursor, whose place is the place after what it has
passed (`Cursor.tokens_tile`).
-/

namespace Nominal

/-! ## What tokens and gaps look like -/

/-- White space and comments, before the text `after`. A comment goes on to the end of its line. -/
inductive Blank (after : List Char) : List Char → Prop
  | nil : Blank after []
  | white {c : Char} {rest : List Char} (hc : isBlank c) (hrest : Blank after rest) :
    Blank after (c :: rest)
  | comment {body rest : List Char} (hbody : ∀ c ∈ body, c ≠ '\n')
    (hend : ∀ c ∈ (rest ++ after).head?, c = '\n') (hrest : Blank after rest) :
    Blank after ('/' :: '/' :: body ++ rest)

/-- What can follow a backslash in a string literal, and what the two stand for. -/
def escapes : List (Char × Char) :=
  [('n', '\n'), ('t', '\t'), ('\\', '\\'), ('r', '\r'), ('"', '"'), ('0', '\x00')]

/-- The text that the inside of a string literal stands for. -/
inductive Unescapes : List Char → List Char → Prop
  | nil : Unescapes [] []
  | plain {c : Char} {rest text : List Char} (hc : c ≠ '\\') (hrest : Unescapes rest text) :
    Unescapes (c :: rest) (c :: text)
  | escape {c d : Char} {rest text : List Char} (hc : (c, d) ∈ escapes)
    (hrest : Unescapes rest text) : Unescapes ('\\' :: c :: rest) (d :: text)
  | backslash {rest text : List Char} (hc : ∀ c ∈ rest.head?, c ∉ escapes.map Prod.fst)
    (hrest : Unescapes rest text) : Unescapes ('\\' :: rest) ('\\' :: text)

/-- A name that is `operator` and an operator. -/
def IsOperatorName (name : String) : Prop :=
  ∃ op ∈ Lexeme.operators, name = "operator" ++ op

/-- The token is read from `slice`, and would not be longer with more of `rest`, which follows. -/
structure Token.ReadFrom (t : Token) (slice rest : List Char) : Prop where
  lexed : t.Lexed
  nonempty : slice ≠ []
  value : t.kind ≠ .string → t.value.toList = slice
  text : t.kind = .string →
    ∃ inside, slice = '"' :: inside ++ ['"'] ∧ Unescapes inside t.value.toList
  word : (t.value, t.kind) ∈ Kind.reserved ∨ t.kind = .identifier ∧ ¬ IsOperatorName t.value →
    ∀ c ∈ rest.head?, Lexeme.isWordPart c = false
  number : t.kind = .number → ∀ c ∈ rest.head?, c.isDigit = false
  comparison : t.kind ∈ [.assignment, .not, .less, .greater] → ∀ c ∈ rest.head?, c ≠ '='
  dash : t.kind = .dash → ∀ c ∈ rest.head?, c ≠ '>'

/-- The tokens lie in the text `rest`, which follows `before` in the source of `file`: gaps and
tokens take turns, and after the last gap there is the end token. -/
inductive Token.Tiles (file : String) : List Char → List Char → List Token → Prop
  | stop {before gap : List Char} {t : Token} (hgap : Blank [] gap) (hkind : t.kind = .eof)
    (hstart : t.span.start.IsAfter file (before ++ gap))
    (hstop : t.span.stop.IsAfter file (before ++ gap)) : Tiles file before gap [t]
  | token {before gap slice rest : List Char} {t : Token} {ts : List Token}
    (hgap : Blank (slice ++ rest) gap)
    (hstart : t.span.start.IsAfter file (before ++ gap))
    (hstop : t.span.stop.IsAfter file (before ++ gap ++ slice)) (hread : t.ReadFrom slice rest)
    (hrest : Tiles file (before ++ gap ++ slice) rest ts) :
    Tiles file before (gap ++ slice ++ rest) (t :: ts)

/-- The tokens are all that `source` says. -/
structure Token.Lossless (file source : String) (tokens : List Token) : Prop where
  /-- They lie in the source, with only gaps before, between and after them. -/
  tiles : Tiles file [] source.toList tokens
  /-- They come one after the other. -/
  forward : ∀ t ∈ tokens, t.span.start.offset ≤ t.span.stop.offset
  ordered : tokens.Pairwise fun t u => t.span.stop.offset ≤ u.span.start.offset
  /-- The end token is the last one and the only one, and stands at the end. -/
  ended : ∃ body last, tokens = body ++ [last] ∧ last.kind = .eof ∧
    last.span.start.offset.toNat = source.utf8ByteSize ∧ ∀ t ∈ body, t.kind ≠ .eof
  /-- Each one is read from the stretch of its span, and what follows is no letter beyond ASCII. -/
  placed : ∀ t ∈ tokens, ∃ left slice right, source.toList = left ++ slice ++ right ∧
    t.span.start.IsAfter file left ∧ t.span.stop.IsAfter file (left ++ slice) ∧
    (∀ c ∈ right.head?, isBlank c ∨ c.toNat < 128) ∧
    (t.kind = .eof ∧ slice = [] ∧ right = [] ∨ t.ReadFrom slice right)
  /-- Their lines and columns count from one, so as numbers they need room for one more byte. -/
  counted : source.utf8ByteSize + 1 < UInt32.size → ∀ t ∈ tokens, ∀ p ∈ [t.span.start, t.span.stop],
    ∃ left right, source.toList = left ++ right ∧ p.offset.toNat = byteCount left ∧
      p.line.toNat = 1 + lineFeeds left ∧ p.column.toNat = 1 + sinceLineFeed left

/-! ## Gaps -/

theorem Blank.append {after white more : List Char} (hwhite : ∀ c ∈ white, isBlank c)
    (h : Blank after more) : Blank after (white ++ more) := by
  induction white with
  | nil => exact h
  | cons c white ih =>
    obtain ⟨hc, hrest⟩ := List.forall_mem_cons.1 hwhite
    exact .white hc (ih hrest)

/-- At a gap there is white space or a slash, or else what comes after it. -/
theorem Blank.head_ascii {after gap : List Char} (h : Blank after gap)
    (hafter : ∀ c ∈ after.head?, isBlank c ∨ c.toNat < 128) :
    ∀ c ∈ (gap ++ after).head?, isBlank c ∨ c.toNat < 128 := by
  cases h with
  | nil => exact hafter
  | white hc _ => simpa using .inl hc
  | comment _ _ _ => simp

/-- What stops a run of characters is none of them. -/
theorem head?_dropWhile {p : Char → Bool} {cs : List Char} :
    ∀ c ∈ (cs.dropWhile p).head?, p c = false := by
  intro c hc
  have hstop := List.head?_dropWhile_not p cs
  rw [Option.mem_def.1 hc] at hstop
  exact hstop

/-! ## Strings -/

theorem unescapes_unescape (inside : List Char) : Unescapes inside (Lexeme.unescape inside) := by
  fun_induction Lexeme.unescape inside with
  | case1 cs ih => exact .escape (by decide) ih
  | case2 cs ih => exact .escape (by decide) ih
  | case3 cs ih => exact .escape (by decide) ih
  | case4 cs ih => exact .escape (by decide) ih
  | case5 cs ih => exact .escape (by decide) ih
  | case6 cs ih => exact .escape (by decide) ih
  | case7 c cs hn ht hbackslash hr hquote hzero ih =>
    by_cases hc : c = '\\'
    · subst hc
      refine .backslash ?_ ih
      intro d hd hmem
      cases cs with
      | nil => cases hd
      | cons e cs =>
        cases hd
        simp [escapes] at hmem
        rcases hmem with rfl | rfl | rfl | rfl | rfl | rfl
        · exact hn cs rfl rfl
        · exact ht cs rfl rfl
        · exact hbackslash cs rfl rfl
        · exact hr cs rfl rfl
        · exact hquote cs rfl rfl
        · exact hzero cs rfl rfl
    · exact .plain hc ih
  | case8 => exact .nil

/-! ## The rules -/

namespace Kind

/-- No word is of a kind that a literal or a mark has. -/
theorem ofWord_notMem (word : String) :
    ofWord word ∉ [eof, string, number, assignment, not, less, greater, dash] := by
  have hreserved : ∀ m ∈ reserved,
      m.2 ∉ [eof, string, number, assignment, not, less, greater, dash] := by decide
  obtain hmem | hname := ofWord_cases word
  · exact hreserved _ hmem
  · rw [hname]
    decide

end Kind

namespace Lexeme

theorem toNat_lt_of_isAlphanum {c : Char} (h : c.isAlphanum) : c.toNat < 128 := by
  have hranges : (decide ('A'.val ≤ c.val ∧ c.val ≤ 'Z'.val) ||
      ('a'.val ≤ c.val && c.val ≤ 'z'.val) || ('0'.val ≤ c.val && c.val ≤ '9'.val)) = true := h
  simp only [Bool.or_eq_true, Bool.and_eq_true, decide_eq_true_eq] at hranges
  rcases hranges with (⟨-, hmax⟩ | ⟨-, hmax⟩) | ⟨-, hmax⟩
  · exact Nat.lt_of_le_of_lt (UInt32.le_iff_toNat_le.1 hmax) (by decide)
  · exact Nat.lt_of_le_of_lt (UInt32.le_iff_toNat_le.1 hmax) (by decide)
  · exact Nat.lt_of_le_of_lt (UInt32.le_iff_toNat_le.1 hmax) (by decide)

/-- Names are of ASCII characters. -/
theorem isNamePart_ascii {c : Char} (h : isNamePart c) : c.toNat < 128 := by
  simp only [isNamePart, isWordPart, Bool.or_eq_true, beq_iff_eq, List.contains_iff_mem] at h
  have hoperators : ("=!<>-+*/".toList.all fun d => d.toNat < 128) = true := by decide
  rcases h with (h | rfl) | h
  · exact toNat_lt_of_isAlphanum h
  · decide
  · exact of_decide_eq_true (List.all_eq_true.1 hoperators c h)

variable {cs : List Char} {l : Lexeme} {kind : Kind} {value : String}

/-- A run of characters ends before the first one that is not of its kind. -/
theorem eq_of_run? {p : Char → Bool} {meaning : List Char → Meaning}
    (h : run? p meaning cs = some l) :
    ∃ text, (∀ c ∈ text, p c) ∧ l = ⟨meaning text, text, cs.dropWhile p⟩ := by
  unfold run? at h
  split at h
  · cases h
  · exact ⟨_, List.all_eq_true.1 List.all_takeWhile, (Option.some.inj h).symm⟩

theorem readFrom_of_operatorName? (span : Span) (h : operatorName? cs = some l)
    (hmeaning : l.meaning = .token kind value) :
    Token.ReadFrom ⟨kind, value, span⟩ l.text l.rest := by
  have hlexed := lexed_of_operatorName? span h hmeaning
  have htakes := takes_of_operatorName? h
  obtain ⟨op, hop, h⟩ := List.exists_of_findSome?_eq_some h
  obtain ⟨rest, -, rfl⟩ := Option.map_eq_some_iff.1 h
  obtain ⟨rfl, rfl⟩ := Meaning.token.inj hmeaning
  have hall : ∀ op ∈ operators, Kind.ofWord ("operator" ++ op) = .identifier ∧
      ∀ m ∈ Kind.reserved, m.1 ≠ "operator" ++ op := by decide
  obtain ⟨hkind, hreserved⟩ := hall op hop
  constructor
  case lexed => exact hlexed
  case nonempty => exact htakes.1
  case value => exact fun _ => rfl
  case word =>
    rintro (hmem | ⟨-, hname⟩)
    · exact absurd rfl (hreserved _ hmem)
    · exact absurd ⟨op, hop, rfl⟩ hname
  all_goals simp [hkind]

theorem readFrom_of_word? (span : Span) (h : word? cs = some l)
    (hmeaning : l.meaning = .token kind value) :
    Token.ReadFrom ⟨kind, value, span⟩ l.text l.rest := by
  have hlexed := lexed_of_word? span h hmeaning
  have htakes := takes_of_word? h
  have hrun : ∃ text, l = ⟨.token (.ofWord (String.ofList text)) (String.ofList text), text,
      cs.dropWhile isWordPart⟩ := by
    unfold word? at h
    split at h
    · cases h
    · split at h
      · obtain ⟨text, -, hl⟩ := eq_of_run? h
        exact ⟨text, hl⟩
      · cases h
  obtain ⟨text, rfl⟩ := hrun
  obtain ⟨rfl, rfl⟩ := Meaning.token.inj hmeaning
  have hkind := Kind.ofWord_notMem (String.ofList text)
  simp only [List.mem_cons, List.not_mem_nil, or_false, not_or] at hkind
  constructor
  case lexed => exact hlexed
  case nonempty => exact htakes.1
  case value => simp
  case word => exact fun _ => head?_dropWhile
  all_goals simp [hkind]

theorem readFrom_of_number? (span : Span) (h : number? cs = some l)
    (hmeaning : l.meaning = .token kind value) :
    Token.ReadFrom ⟨kind, value, span⟩ l.text l.rest := by
  have hlexed := lexed_of_number? span h hmeaning
  have htakes := takes_of_run? h
  obtain ⟨text, -, rfl⟩ := eq_of_run? h
  obtain ⟨rfl, rfl⟩ := Meaning.token.inj hmeaning
  have hreserved : ∀ m ∈ Kind.reserved, m.2 ≠ .number := by decide
  constructor
  case lexed => exact hlexed
  case nonempty => exact htakes.1
  case value => simp
  case word =>
    rintro (hmem | ⟨hkind, -⟩)
    · exact absurd rfl (hreserved _ hmem)
    · cases hkind
  case number => exact fun _ => head?_dropWhile
  all_goals simp

theorem readFrom_of_string? (span : Span) (h : string? cs = some l)
    (hmeaning : l.meaning = .token kind value) :
    Token.ReadFrom ⟨kind, value, span⟩ l.text l.rest := by
  have hlexed := lexed_of_string? span h hmeaning
  have htakes := takes_of_string? h
  unfold string? at h
  split at h
  · obtain ⟨⟨inside, rest⟩, -, rfl⟩ := Option.map_eq_some_iff.1 h
    obtain ⟨rfl, rfl⟩ := Meaning.token.inj hmeaning
    have hreserved : ∀ m ∈ Kind.reserved, m.2 ≠ .string := by decide
    constructor
    case lexed => exact hlexed
    case nonempty => exact htakes.1
    case text => exact fun _ => ⟨inside, rfl, by simpa using unescapes_unescape inside⟩
    case word =>
      rintro (hmem | ⟨hkind, -⟩)
      · exact absurd rfl (hreserved _ hmem)
      · cases hkind
    all_goals simp
  · cases h

/-- Before an equals sign, the mark is the longer one. -/
theorem mark?_before_equals {c : Char} (hc : c ∈ ['=', '!', '<', '>']) (rest : List Char) :
    ∃ kind text, mark? (c :: '=' :: rest) = some ⟨.token kind text, [c, '='], rest⟩ := by
  simp only [List.mem_cons, List.not_mem_nil, or_false] at hc
  rcases hc with rfl | rfl | rfl | rfl
  all_goals exact ⟨_, _, rfl⟩

theorem readFrom_of_mark? (span : Span) (h : mark? cs = some l)
    (hmeaning : l.meaning = .token kind value) :
    Token.ReadFrom ⟨kind, value, span⟩ l.text l.rest := by
  have hlexed := lexed_of_mark? span h hmeaning
  have htakes := takes_of_mark? h
  have hmark := h
  obtain ⟨⟨text, k⟩, hmem, h⟩ := List.exists_of_findSome?_eq_some h
  obtain ⟨rest, -, rfl⟩ := Option.map_eq_some_iff.1 h
  obtain ⟨rfl, rfl⟩ := Meaning.token.inj hmeaning
  have hkinds : ∀ m ∈ Kind.marks, m.2 ∉ [.eof, .string, .number, .identifier] ∧
      (∀ r ∈ Kind.reserved, m.2 ≠ r.2) ∧
      (m.2 ∈ [.assignment, .not, .less, .greater] → m.1 ∈ ["=", "!", "<", ">"]) ∧
      (m.2 = .dash → m.1 = "-") := by decide
  obtain ⟨hkind, hreserved, hcomparison, hdash⟩ := hkinds _ hmem
  simp only [List.mem_cons, List.not_mem_nil, or_false, not_or] at hkind
  have hsplit : text.toList ++ rest = cs := htakes.2
  constructor
  case lexed => exact hlexed
  case nonempty => exact htakes.1
  case value => exact fun _ => rfl
  case word =>
    rintro (hmem' | ⟨hname, -⟩)
    · exact absurd rfl (hreserved _ hmem')
    · exact absurd hname hkind.2.2.2
  case comparison =>
    rintro hk d hd rfl
    obtain ⟨c, hc, htext⟩ : ∃ c ∈ ['=', '!', '<', '>'], text.toList = [c] := by
      have hone := hcomparison hk
      simp only [List.mem_cons, List.not_mem_nil, or_false] at hone
      obtain rfl | rfl | rfl | rfl := hone
      · exact ⟨'=', by simp, rfl⟩
      · exact ⟨'!', by simp, rfl⟩
      · exact ⟨'<', by simp, rfl⟩
      · exact ⟨'>', by simp, rfl⟩
    obtain ⟨more, rfl⟩ := List.head?_eq_some_iff.1 hd
    obtain ⟨_, _, hlong⟩ := mark?_before_equals hc more
    rw [← hsplit, htext, List.singleton_append, hlong] at hmark
    have hpiece := congrArg Lexeme.text (Option.some.inj hmark)
    simp at hpiece
  case dash =>
    rintro hk d hd rfl
    have htext : text.toList = ['-'] := congrArg String.toList (hdash hk)
    obtain ⟨more, rfl⟩ := List.head?_eq_some_iff.1 hd
    have hlong : mark? ('-' :: '>' :: more) = some ⟨.token .arrow "->", ['-', '>'], more⟩ := rfl
    rw [← hsplit, htext, List.singleton_append, hlong] at hmark
    have hpiece := congrArg Lexeme.text (Option.some.inj hmark)
    simp at hpiece
  all_goals simp [hkind]

/-- Whatever rule makes a token, the token is read from the piece that the rule takes. -/
theorem readFrom_of_first? (span : Span) (h : first? cs = some l)
    (hmeaning : l.meaning = .token kind value) :
    Token.ReadFrom ⟨kind, value, span⟩ l.text l.rest := by
  obtain ⟨rule, hmem, h⟩ := List.exists_of_findSome?_eq_some h
  simp only [rules, List.mem_cons, List.not_mem_nil, or_false] at hmem
  rcases hmem with rfl | rfl | rfl | rfl | rfl | rfl | rfl | rfl
  · obtain ⟨text, -, rfl⟩ := eq_of_run? h
    cases hmeaning
  · unfold comment? at h
    split at h
    · obtain rfl := Option.some.inj h
      cases hmeaning
    · cases h
  · exact readFrom_of_operatorName? span h hmeaning
  · exact readFrom_of_word? span h hmeaning
  · exact readFrom_of_number? span h hmeaning
  · exact readFrom_of_string? span h hmeaning
  · unfold openQuote? at h
    split at h
    · obtain rfl := Option.some.inj h
      cases hmeaning
    · cases h
  · exact readFrom_of_mark? span h hmeaning

/-- Only the first two rules leave out what they take. -/
theorem blanks_or_comment_of_first? (h : first? cs = some l) (hmeaning : l.meaning = .blank) :
    blanks? cs = some l ∨ comment? cs = some l := by
  obtain ⟨rule, hmem, h⟩ := List.exists_of_findSome?_eq_some h
  simp only [rules, List.mem_cons, List.not_mem_nil, or_false] at hmem
  rcases hmem with rfl | rfl | rfl | rfl | rfl | rfl | rfl | rfl
  · exact .inl h
  · exact .inr h
  · obtain ⟨op, -, h⟩ := List.exists_of_findSome?_eq_some h
    obtain ⟨rest, -, rfl⟩ := Option.map_eq_some_iff.1 h
    cases hmeaning
  · unfold word? at h
    split at h
    · cases h
    · split at h
      · obtain ⟨text, -, rfl⟩ := eq_of_run? h
        cases hmeaning
      · cases h
  · obtain ⟨text, -, rfl⟩ := eq_of_run? h
    cases hmeaning
  · unfold string? at h
    split at h
    · obtain ⟨⟨inside, rest⟩, -, rfl⟩ := Option.map_eq_some_iff.1 h
      cases hmeaning
    · cases h
  · unfold openQuote? at h
    split at h
    · obtain rfl := Option.some.inj h
      cases hmeaning
    · cases h
  · obtain ⟨⟨text, kind⟩, -, h⟩ := List.exists_of_findSome?_eq_some h
    obtain ⟨rest, -, rfl⟩ := Option.map_eq_some_iff.1 h
    cases hmeaning

/-- A blank lexeme is a gap, and so it is with a gap after it. -/
theorem blank_of_first? {after gap : List Char} (h : first? cs = some l)
    (hmeaning : l.meaning = .blank) (hrest : l.rest = gap ++ after) (hgap : Blank after gap) :
    Blank after (l.text ++ gap) := by
  obtain h | h := blanks_or_comment_of_first? h hmeaning
  · obtain ⟨text, hwhite, rfl⟩ := eq_of_run? h
    exact hgap.append hwhite
  · unfold comment? at h
    split at h
    · next body _ =>
      obtain rfl := Option.some.inj h
      have hbody := List.all_eq_true.1 (List.all_takeWhile (p := (· != '\n')) (l := body))
      refine .comment (fun c hc => by simpa using hbody c hc) (fun c hc => ?_) hgap
      rw [← hrest] at hc
      simpa using head?_dropWhile c hc
    · cases h

end Lexeme

/-! ## The whole source -/

namespace Token

variable {file : String} {before rest : List Char} {ts : List Token}

/-- A gap before tokens makes their first gap longer. -/
theorem Tiles.gap_append {text : List Char}
    (hgap : ∀ gap after, rest = gap ++ after → Blank after gap → Blank after (text ++ gap))
    (h : Tiles file (before ++ text) rest ts) : Tiles file before (text ++ rest) ts := by
  cases h with
  | stop hblank hkind hstart hstop =>
    rw [List.append_assoc] at hstart hstop
    exact .stop (hgap _ _ (List.append_nil _).symm hblank) hkind hstart hstop
  | token hblank hstart hstop hread hrest =>
    rw [List.append_assoc before] at hstart hstop hrest
    rw [← List.append_assoc, ← List.append_assoc]
    refine .token (hgap _ _ (List.append_assoc ..) hblank) hstart hstop hread hrest

/-- The tokens come after what was before them, and no token starts before another one stops. -/
theorem Tiles.ordered (h : Tiles file before rest ts) :
    (∀ t ∈ ts, byteCount before ≤ t.span.start.offset.toNat ∧
      t.span.start.offset ≤ t.span.stop.offset) ∧
    ts.Pairwise fun t u => t.span.stop.offset ≤ u.span.start.offset := by
  induction h with
  | @stop before gap t _ _ hstart hstop =>
    have hoffsets := hstart.offset.trans hstop.offset.symm
    simp only [List.forall_mem_singleton, List.pairwise_singleton, and_true]
    rw [UInt32.le_iff_toNat_le, hstart.offset, hstop.offset, byteCount_append]
    omega
  | @token before gap slice rest t ts _ hstart hstop _ _ ih =>
    obtain ⟨hafter, hpairs⟩ := ih
    have hfirst := hstart.offset
    have hlast := hstop.offset
    simp only [byteCount_append] at hafter hfirst hlast
    refine ⟨List.forall_mem_cons.2 ⟨⟨by omega, ?_⟩, fun u hu => ?_⟩,
      List.pairwise_cons.2 ⟨fun u hu => ?_, hpairs⟩⟩
    · rw [UInt32.le_iff_toNat_le]
      omega
    · obtain ⟨hbefore, hle⟩ := hafter u hu
      exact ⟨by omega, hle⟩
    · obtain ⟨hbefore, -⟩ := hafter u hu
      rw [UInt32.le_iff_toNat_le]
      omega

/-- A token that is not a string starts with an ASCII character. -/
theorem Lexed.head_ascii {t : Token} (h : t.Lexed) (hstring : t.kind ≠ .string) :
    ∀ c ∈ t.value.toList.head?, c.toNat < 128 := by
  cases h with
  | fixed h =>
    have hall : ((Kind.marks ++ Kind.reserved).all fun m =>
        m.1.toList.head?.all fun c => c.toNat < 128) = true := by decide
    intro c hc
    have hfirst := List.all_eq_true.1 hall _ h
    rw [Option.mem_def.1 hc] at hfirst
    exact of_decide_eq_true hfirst
  | name _ _ hpart => exact fun c hc => Lexeme.isNamePart_ascii (hpart c (List.mem_of_mem_head? hc))
  | number _ _ hdigit =>
    intro c hc
    have hpart : Lexeme.isNamePart c := by
      simp [Lexeme.isNamePart, Lexeme.isWordPart, Char.isAlphanum,
        hdigit c (List.mem_of_mem_head? hc)]
    exact Lexeme.isNamePart_ascii hpart
  | string hkind => exact absurd hkind hstring

theorem ReadFrom.head_ascii {t : Token} {slice : List Char} (h : t.ReadFrom slice rest) :
    ∀ c ∈ slice.head?, c.toNat < 128 := by
  by_cases hstring : t.kind = .string
  · obtain ⟨inside, rfl, -⟩ := h.text hstring
    simp
  · rw [← h.value hstring]
    exact h.lexed.head_ascii hstring

/-- Where a gap or a token starts, and at the end of a token, there is white space or an ASCII
character, if there is any. -/
theorem Tiles.head_ascii (h : Tiles file before rest ts) :
    ∀ c ∈ rest.head?, isBlank c ∨ c.toNat < 128 := by
  cases h with
  | stop hgap => simpa using hgap.head_ascii (by simp)
  | @token _ gap slice rest _ _ hgap _ _ hread _ =>
    rw [List.append_assoc]
    refine hgap.head_ascii fun c hc => .inr (hread.head_ascii c ?_)
    obtain ⟨d, slice, rfl⟩ := List.exists_cons_of_ne_nil hread.nonempty
    exact hc

/-- Each of the tokens stands where its span says. -/
theorem Tiles.token_at (h : Tiles file before rest ts) :
    ∀ t ∈ ts, ∃ left slice right, before ++ rest = left ++ slice ++ right ∧
      t.span.start.IsAfter file left ∧ t.span.stop.IsAfter file (left ++ slice) ∧
      (∀ c ∈ right.head?, isBlank c ∨ c.toNat < 128) ∧
      (t.kind = .eof ∧ slice = [] ∧ right = [] ∨ t.ReadFrom slice right) := by
  induction h with
  | @stop before gap t _ hkind hstart hstop =>
    intro u hu
    obtain rfl := List.mem_singleton.1 hu
    refine ⟨before ++ gap, [], [], ?_, ?_⟩
    · simp
    · simp [hkind, hstart, hstop]
  | @token before gap slice rest t ts _ hstart hstop hread hrest ih =>
    refine List.forall_mem_cons.2 ⟨?_, ?_⟩
    · exact ⟨before ++ gap, slice, rest, by simp, hstart, hstop, hrest.head_ascii, .inr hread⟩
    · intro u hu
      obtain ⟨left, slice', right, hsplit, hu⟩ := ih u hu
      refine ⟨left, slice', right, ?_, hu⟩
      rw [← hsplit]
      simp

end Token

/-- The tokens from a cursor tile what it has left, after what it has passed. -/
theorem Cursor.tokens_tile (c : Cursor) {before : List Char} {ts : List Token}
    (hplace : c.place = Place.first.pass before)
    (hsize : byteCount (before ++ c.rest) < UInt32.size) (h : c.tokens = .ok ts) :
    Token.Tiles c.file before c.rest ts := by
  fun_induction Cursor.tokens c generalizing before ts with
  | case1 c hrest =>
    obtain rfl := Except.ok.inj h
    rw [hrest, List.append_nil] at hsize
    have hafter := c.position_isAfter hplace hsize
    rw [← List.append_nil before] at hafter
    rw [hrest]
    exact .stop .nil rfl hafter hafter
  | case2 c _ _ => cases h
  | case3 c _ lexeme hfirst _ next hmeaning =>
    rename_i ih
    obtain ⟨-, hsplit⟩ := Lexeme.takes_of_first? hfirst
    have hsize' : byteCount (before ++ lexeme.text ++ next.rest) < UInt32.size := by
      rwa [List.append_assoc, show lexeme.text ++ next.rest = c.rest from hsplit]
    have htiles := ih (Cursor.past_place hplace) hsize' h
    rw [← hsplit]
    exact htiles.gap_append fun gap after => Lexeme.blank_of_first? hfirst hmeaning
  | case4 c _ lexeme hfirst _ next kind value hmeaning =>
    rename_i ih
    obtain ⟨-, hsplit⟩ := Lexeme.takes_of_first? hfirst
    have hsize' : byteCount (before ++ lexeme.text ++ next.rest) < UInt32.size := by
      rwa [List.append_assoc, show lexeme.text ++ next.rest = c.rest from hsplit]
    obtain ⟨rest, hnext, rfl⟩ := Token.exists_of_cons h
    have htiles := ih (Cursor.past_place hplace) hsize' hnext
    simp only [byteCount_append] at hsize'
    have hstart := c.position_isAfter hplace (by omega)
    have hstop := next.position_isAfter (Cursor.past_place hplace)
      (by rw [byteCount_append]; omega)
    rw [← List.append_nil before] at hstart hstop htiles
    rw [← hsplit, ← List.nil_append lexeme.text]
    exact .token .nil hstart hstop (Lexeme.readFrom_of_first? _ hfirst hmeaning) htiles
  | case5 => cases h

theorem tokenize_tiles {source file : String} {tokens : List Token}
    (hsize : source.utf8ByteSize < UInt32.size) (h : tokenize source file = .ok tokens) :
    Token.Tiles file [] source.toList tokens :=
  Cursor.tokens_tile (.ofString source file) rfl (by simpa [Cursor.ofString, byteCount_toList]) h

/-- Tokens lose nothing of a source that takes less than 4 GiB. -/
theorem tokenize_lossless {source file : String} {tokens : List Token}
    (hsize : source.utf8ByteSize < UInt32.size) (h : tokenize source file = .ok tokens) :
    Token.Lossless file source tokens := by
  have hcount := byteCount_toList source
  have htiles := tokenize_tiles hsize h
  obtain ⟨hle, hpairs⟩ := htiles.ordered
  have hat := htiles.token_at
  rw [List.nil_append] at hat
  refine ⟨htiles, fun t ht => (hle t ht).2, hpairs, ?_, hat, ?_⟩
  · obtain ⟨body, last, rfl, hlast, hbody⟩ := (tokenize_ended h).split
    refine ⟨body, last, rfl, hlast, ?_, fun t ht => (hbody t ht).kind_ne_eof⟩
    obtain ⟨left, slice, right, hsplit, hstart, -, -, ⟨-, rfl, rfl⟩ | hread⟩ := hat last (by simp)
    · rw [hstart.offset, ← hcount, hsplit, List.append_nil, List.append_nil]
    · exact absurd hlast hread.lexed.kind_ne_eof
  · intro hroom t ht p hp
    obtain ⟨left, slice, right, hsplit, hstart, hstop, -⟩ := hat t ht
    have hbytes : byteCount left + byteCount slice + byteCount right = source.utf8ByteSize := by
      rw [← hcount, hsplit, byteCount_append, byteCount_append]
    obtain rfl | hp := List.mem_cons.1 hp
    · have hleft : byteCount left + 1 < UInt32.size := by omega
      exact ⟨left, slice ++ right, by rw [hsplit, List.append_assoc], hstart.offset,
        hstart.line_toNat hleft, hstart.column_toNat hleft⟩
    · obtain rfl := List.mem_singleton.1 hp
      have hleft : byteCount (left ++ slice) + 1 < UInt32.size := by
        rw [byteCount_append]
        omega
      exact ⟨left ++ slice, right, hsplit, hstop.offset, hstop.line_toNat hleft,
        hstop.column_toNat hleft⟩

/-- A string over two lines, comments, words that begin like `operator` and marks that touch. -/
def touchingSource : String :=
  "a==!b // é\n\"x\\q\ny\"operator<=1->2.operators\u2003//"

theorem tokenize_lossless_touchingSource :
    ∃ tokens, touchingSource.utf8ByteSize < UInt32.size ∧
      tokenize touchingSource interactiveFile = .ok tokens ∧
      Token.Lossless interactiveFile touchingSource tokens := by
  have hok : (tokenize touchingSource interactiveFile).isOk := by decide +kernel
  have hsize : touchingSource.utf8ByteSize < UInt32.size := by decide +kernel
  cases htokens : tokenize touchingSource interactiveFile with
  | error d =>
    rw [htokens] at hok
    cases hok
  | ok tokens => exact ⟨tokens, hsize, rfl, tokenize_lossless hsize htokens⟩

end Nominal
