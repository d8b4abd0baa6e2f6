import Nominal.Proofs.Source.Lines
import Nominal.Proofs.Token.Boundary
import Nominal.Proofs.Token.Marks

/-!
# Sources one after the other

A source that can be cut into tokens, a line feed and another source: the tokens are those of the
first and then those of the second, whose positions are moved by the bytes and lines that have come
before them (`tokenize_lineFeed`). What stops the second source stops the whole, at the moved place.

A line feed ends every lexeme but a string, which ends with its quote. So the tokens of the first
source stay what they are (`Cursor.tokens_continued`). What a cursor makes of the rest of a text does
not depend on where it stands (`Cursor.tokens_moved`).
-/

namespace Nominal

/-! ## Moving by bytes and lines -/

/-- The position when `bytes` bytes with `lines` line feeds are put before the text, the last of
them at its end. The column stays. -/
def Position.moved (p : Position) (bytes lines : Nat) : Position :=
  { p with offset := p.offset + bytes.toUInt32, line := p.line + lines.toUInt32 }

def Span.moved (s : Span) (bytes lines : Nat) : Span :=
  ⟨s.start.moved bytes lines, s.stop.moved bytes lines⟩

def Token.moved (t : Token) (bytes lines : Nat) : Token :=
  { t with span := t.span.moved bytes lines }

def Diagnostic.moved (d : Diagnostic) (bytes lines : Nat) : Diagnostic :=
  { d with span := d.span.moved bytes lines }

namespace Position.IsAfter

variable {p : Position} {file : String} {before : List Char} {bytes lines : Nat}

/-- A moved offset is the sum as a number, when a word can hold it. -/
theorem offset_moved (h : p.IsAfter file before) (hsize : byteCount before + bytes < UInt32.size) :
    (p.moved bytes lines).offset.toNat = p.offset.toNat + bytes := by
  have hoffset := h.offset
  have hbytes : bytes.toUInt32.toNat = bytes := UInt32.toNat_ofNat_of_lt' (by omega)
  rw [Position.moved, UInt32.toNat_add, hbytes]
  exact Nat.mod_eq_of_lt (show _ < UInt32.size by omega)

/-- So is a moved line. Lines count from one. -/
theorem line_moved (h : p.IsAfter file before) (hsize : 1 + lineFeeds before + lines < UInt32.size) :
    (p.moved bytes lines).line.toNat = p.line.toNat + lines := by
  have hline : p.line.toNat = 1 + lineFeeds before := by
    rw [h.line]
    exact UInt32.toNat_ofNat_of_lt' (by omega)
  have hword : lines.toUInt32.toNat = lines := UInt32.toNat_ofNat_of_lt' (by omega)
  rw [Position.moved, UInt32.toNat_add, hword]
  exact Nat.mod_eq_of_lt (show _ < UInt32.size by omega)

end Position.IsAfter

namespace Place

def moved (p : Place) (bytes lines : Nat) : Place :=
  { p with offset := p.offset + bytes, line := p.line + lines }

variable {p : Place} {bytes lines : Nat}

theorem after_moved (c : Char) : (p.moved bytes lines).after c = (p.after c).moved bytes lines := by
  unfold after
  split
  · simp [moved, Nat.add_right_comm]
  · simp [moved, Nat.add_right_comm]

theorem pass_moved (text : List Char) :
    (p.moved bytes lines).pass text = (p.pass text).moved bytes lines := by
  induction text generalizing p with
  | nil => rfl
  | cons c text ih => rw [pass_cons, pass_cons, after_moved, ih]

theorem position_moved (file : String) :
    (p.moved bytes lines).position file = (p.position file).moved bytes lines := by
  simp only [position, moved, Position.moved, Position.mk.injEq, and_true]
  exact ⟨UInt32.ofNat_add _ _, UInt32.ofNat_add _ _⟩

/-- After a text and a line feed stands the first place, moved by both. -/
theorem first_pass_lineFeed (text : List Char) :
    (first.pass text).after '\n' = first.moved (byteCount text + 1) (lineFeeds text + 1) := by
  rw [first_pass]
  simp [after, moved, first, Char.utf8Size]
  omega

end Place

namespace Cursor

variable {c : Cursor} {ts : List Token} {bytes lines : Nat}

def moved (c : Cursor) (bytes lines : Nat) : Cursor :=
  { c with place := c.place.moved bytes lines }

theorem position_moved : (c.moved bytes lines).position = c.position.moved bytes lines :=
  Place.position_moved c.file

theorem past_moved (text rest : List Char) :
    (c.moved bytes lines).past text rest = (c.past text rest).moved bytes lines := by
  simp only [past, moved, Place.pass_moved]

theorem spanTo_moved (d : Cursor) :
    (c.moved bytes lines).spanTo (d.moved bytes lines) = (c.spanTo d).moved bytes lines := by
  simp only [spanTo, position_moved, Span.moved]

theorem unrecognised_moved : (c.moved bytes lines).unrecognised = c.unrecognised.moved bytes lines := by
  have hcomm (a b d : UInt32) : a + b + d = a + d + b := by
    rw [UInt32.add_assoc, UInt32.add_comm b, UInt32.add_assoc]
  simp only [unrecognised, position_moved, Diagnostic.moved, Span.moved, Position.moved]
  rw [hcomm]
  rfl

/-- What is cut from a cursor does not depend on its place, but for the places of what is cut. -/
theorem tokens_moved (c : Cursor) (bytes lines : Nat) :
    (c.moved bytes lines).tokens =
      (c.tokens.map (·.map (·.moved bytes lines))).mapError (·.moved bytes lines) := by
  fun_induction Cursor.tokens c with
  | case1 c hrest =>
    rw [tokens_of_rest_eq_nil (c := c.moved bytes lines) hrest, position_moved]
    rfl
  | case2 c hne hfirst =>
    rw [tokens_of_first?_eq_none (c := c.moved bytes lines) hne hfirst, unrecognised_moved]
    rfl
  | case3 c _ lexeme hfirst _ next hmeaning =>
    rename_i ih
    rw [tokens_of_first? (c := c.moved bytes lines) hfirst, hmeaning]
    simp only [past_moved]
    exact ih
  | case4 c _ lexeme hfirst _ next kind value hmeaning =>
    rename_i ih
    rw [tokens_of_first? (c := c.moved bytes lines) hfirst, hmeaning]
    simp only [past_moved, spanTo_moved]
    rw [show c.past lexeme.text lexeme.rest = next from rfl, ih]
    cases next.tokens <;> rfl
  | case5 c _ lexeme hfirst =>
    rename_i hmeaning
    rw [tokens_of_first? (c := c.moved bytes lines) hfirst, hmeaning]
    simp only [past_moved, spanTo_moved]
    rfl

end Cursor

/-! ## What a line feed ends -/

namespace Lexeme

variable {cs : List Char} {l : Lexeme}

/-- A comment is the first lexeme where it stands. -/
theorem first?_of_comment? (h : comment? cs = some l) : first? cs = some l := by
  have hblanks : blanks? cs = none := by
    unfold comment? at h
    split at h
    · exact blanks?_eq_none (by decide)
    · cases h
  rw [first?_eq_or, hblanks, h, Option.none_or, Option.some_or]

/-- A comment ends at a line feed behind it, if not earlier. -/
theorem comment?_lineFeed (h : comment? cs = some l) (more : List Char) :
    comment? (cs ++ '\n' :: more) = some ⟨.blank, l.text, l.rest ++ '\n' :: more⟩ := by
  unfold comment? at h
  split at h
  · next body =>
    obtain rfl := Option.some.inj h
    obtain ⟨htake, hdrop⟩ := upTo_append body (ne_lineFeed_head more)
    simp only [List.cons_append, comment?, htake, hdrop]
  · cases h

/-- A token ends at a line feed behind it, if not earlier. -/
theorem first?_continued {kind : Kind} {value : String} (h : first? cs = some l)
    (hmeaning : l.meaning = .token kind value) (more : List Char) :
    first? (cs ++ '\n' :: more) = some ⟨.token kind value, l.text, l.rest ++ '\n' :: more⟩ := by
  obtain ⟨-, rfl⟩ := takes_of_first? h
  have hfeed : isBlank '\n' := by decide
  have hwhole : first? (l.text ++ l.rest ++ []) =
      some ⟨.token kind value, l.text, l.rest ++ []⟩ := by
    rw [List.append_nil, List.append_nil, h, ← hmeaning]
  exact first?_of_isBlank_behind hfeed hwhole more

end Lexeme

namespace Cursor

variable {c : Cursor} {ts : List Token}

/-- The cursor with a line feed and more text behind what it has left. -/
def continued (c : Cursor) (more : List Char) : Cursor :=
  { c with rest := c.rest ++ '\n' :: more }

/-- White space and comments are passed whether or not a line feed and more text come behind what is
left. -/
theorem tokens_continued_of_blank {l : Lexeme} (hfirst : Lexeme.first? c.rest = some l)
    (hmeaning : l.meaning = .blank) (more : List Char) :
    (c.continued more).tokens = ((c.past l.text l.rest).continued more).tokens := by
  obtain ⟨-, hsplit⟩ := Lexeme.takes_of_first? hfirst
  obtain hblanks | hcomment := Lexeme.blanks_or_comment_of_first? hfirst hmeaning
  · obtain ⟨white, hwhite, rfl⟩ := Lexeme.eq_of_run? hblanks
    have hrest : (c.continued more).rest =
        white ++ (c.rest.dropWhile isBlank ++ '\n' :: more) := by
      rw [← List.append_assoc, hsplit]
      rfl
    exact tokens_white hwhite hrest
  · have hcontinued := Lexeme.comment?_lineFeed hcomment more
    rw [tokens_of_first? (c := c.continued more) (Lexeme.first?_of_comment? hcontinued)]
    rfl

/-- The tokens of what is left stay when a line feed and more text come behind it, and in the place of
the end token come those of the text. -/
theorem tokens_continued (c : Cursor) (h : c.tokens = .ok ts) (more : List Char) :
    (c.continued more).tokens =
      (ts.dropLast ++ ·) <$> (⟨c.file, (c.place.pass c.rest).after '\n', more⟩ : Cursor).tokens := by
  fun_induction Cursor.tokens c generalizing ts with
  | case1 c hrest =>
    -- where the first text ends, the line feed is passed and the second one begins
    obtain rfl := Except.ok.inj h
    have hwhite : ∀ ch ∈ ['\n'], isBlank ch := List.forall_mem_singleton.2 (by decide)
    have hcontinued : (c.continued more).rest = ['\n'] ++ more := by simp [continued, hrest]
    rw [tokens_white hwhite hcontinued, hrest]
    exact (id_map _).symm
  | case2 c _ _ => cases h
  | case3 c _ lexeme hfirst _ next hmeaning =>
    rename_i ih
    obtain ⟨-, hsplit⟩ := Lexeme.takes_of_first? hfirst
    rw [tokens_continued_of_blank hfirst hmeaning, ← hsplit, Place.pass_append]
    exact ih h
  | case4 c _ lexeme hfirst _ next kind value hmeaning =>
    rename_i ih
    obtain ⟨-, hsplit⟩ := Lexeme.takes_of_first? hfirst
    obtain ⟨us, hnext, rfl⟩ := Token.exists_of_cons h
    -- the token is the same with more behind it, and the end token is behind the others
    have hfirst' := Lexeme.first?_continued hfirst hmeaning more
    have htokens : ((c.past lexeme.text lexeme.rest).continued more).tokens = _ := ih hnext
    rw [tokens_of_first? (c := c.continued more) hfirst',
      List.dropLast_cons_of_ne_nil (tokens_ended _ hnext).ne_nil, ← hsplit, Place.pass_append]
    show ([_] ++ ·) <$> ((c.past lexeme.text lexeme.rest).continued more).tokens = _
    rw [htokens, ← comp_map]
    rfl
  | case5 => cases h

end Cursor

/-! ## The whole source -/

/-- The positions in what comes out when a source is cut. -/
def positionsOf : Except Diagnostic (List Token) → List Position
  | .ok tokens => tokens.flatMap fun t => [t.span.start, t.span.stop]
  | .error d => [d.span.start, d.span.stop]

/-- Each of them is the position after some beginning of the source. -/
theorem isAfter_of_mem_positionsOf {source file : String} (hsize : source.utf8ByteSize < UInt32.size)
    {p : Position} (hp : p ∈ positionsOf (tokenize source file)) :
    ∃ before, before <+: source.toList ∧ p.IsAfter file before := by
  cases htokenize : tokenize source file with
  | ok tokens =>
    rw [htokenize] at hp
    obtain ⟨t, ht, hp⟩ := List.mem_flatMap.1 hp
    obtain ⟨_, _, _, hmarks, -⟩ := Token.marks hsize htokenize ht
    exact hmarks.isAfter hp
  | error d =>
    rw [htokenize] at hp
    obtain ⟨_, _, _, hmarks, -⟩ := tokenize_refusal hsize htokenize
    exact hmarks.isAfter hp

/-- What is cut from `s`, a line feed and `t`, when `ts` are the tokens of `s`. -/
structure Token.Joins (file s t : String) (ts : List Token) (bytes lines : Nat) : Prop where
  bytes_eq : bytes = s.utf8ByteSize + 1
  lines_eq : lines = lineFeeds s.toList + 1
  /-- The tokens of `s` without the end token, and then what is cut from `t`, moved. -/
  joined : ∃ body last, ts = body ++ [last] ∧ last.kind = .eof ∧ (∀ u ∈ body, u.kind ≠ .eof) ∧
    tokenize (s ++ "\n" ++ t) file =
      ((tokenize t file).map fun us => body ++ us.map (·.moved bytes lines)).mapError
        (·.moved bytes lines)
  /-- Moved offsets are sums as numbers when words can hold the size of the whole. -/
  offset : bytes + t.utf8ByteSize < UInt32.size → ∀ p ∈ positionsOf (tokenize t file),
    (p.moved bytes lines).offset.toNat = p.offset.toNat + bytes
  /-- So are lines, which count from one, when words can hold one more than all line feeds. -/
  line : bytes + t.utf8ByteSize < UInt32.size → lines + lineFeeds t.toList + 1 < UInt32.size →
    ∀ p ∈ positionsOf (tokenize t file),
      (p.moved bytes lines).line.toNat = p.line.toNat + lines

/-- A source that can be cut, a line feed and any other source are cut one after the other. -/
theorem tokenize_lineFeed {s file : String} {ts : List Token} (hs : tokenize s file = .ok ts)
    (t : String) : Token.Joins file s t ts (s.utf8ByteSize + 1) (lineFeeds s.toList + 1) := by
  obtain ⟨body, last, rfl, hlast, hbody⟩ := (tokenize_ended hs).split
  refine ⟨rfl, rfl, ⟨body, last, rfl, hlast, fun u hu => (hbody u hu).kind_ne_eof, ?_⟩, ?_, ?_⟩
  · have hjoined : Cursor.ofString (s ++ "\n" ++ t) file =
        (Cursor.ofString s file).continued t.toList := by
      simp [Cursor.ofString, Cursor.continued]
    have hplace : (Place.first.pass s.toList).after '\n' =
        Place.first.moved (s.utf8ByteSize + 1) (lineFeeds s.toList + 1) := by
      rw [Place.first_pass_lineFeed, byteCount_toList]
    rw [tokenize, hjoined, Cursor.tokens_continued _ hs, List.dropLast_concat]
    show _ <$> (⟨file, (Place.first.pass s.toList).after '\n', t.toList⟩ : Cursor).tokens = _
    rw [hplace]
    show _ <$> ((Cursor.ofString t file).moved _ _).tokens = _
    rw [Cursor.tokens_moved]
    show _ = ((Cursor.ofString t file).tokens.map _).mapError _
    cases (Cursor.ofString t file).tokens <;> rfl
  · intro hsize p hp
    obtain ⟨before, ⟨after, hsplit⟩, hafter⟩ := isAfter_of_mem_positionsOf (by omega) hp
    have hbytes := byteCount_append before after
    rw [hsplit, byteCount_toList] at hbytes
    exact hafter.offset_moved (by omega)
  · intro hsize hlines p hp
    obtain ⟨before, hbefore, hafter⟩ := isAfter_of_mem_positionsOf (by omega) hp
    have hfeeds : lineFeeds before ≤ lineFeeds t.toList := hbefore.sublist.count_le _
    exact hafter.line_moved (by omega)

/-- A string over two lines and a comment with a letter of two bytes. -/
def openLine : String :=
  "\"x\ny\" -- // é"

/-- What comes after it can be cut or not. -/
theorem tokenize_lineFeed_openLine : ∃ ts, tokenize openLine interactiveFile = .ok ts ∧
    Token.Joins interactiveFile openLine "a\n b" ts 15 2 ∧
    Token.Joins interactiveFile openLine "a\n #" ts 15 2 := by
  have hok : (tokenize openLine interactiveFile).isOk := by decide +kernel
  have hbytes : openLine.utf8ByteSize + 1 = 15 := by decide +kernel
  have hlines : lineFeeds openLine.toList + 1 = 2 := by decide +kernel
  cases htokens : tokenize openLine interactiveFile with
  | error d =>
    rw [htokens] at hok
    cases hok
  | ok ts =>
    rw [← hbytes, ← hlines]
    exact ⟨ts, rfl, tokenize_lineFeed htokens _, tokenize_lineFeed htokens _⟩

end Nominal
