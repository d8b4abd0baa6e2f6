import Mathlib.Data.List.Forall2
import Nominal.Proofs.Token.Boundary

/-!
# Tokens written with other spacing

The tokens of a source do not depend on its layout: their slices of the source, written one after the
other with any white space behind each, are cut into tokens with the same kinds and values
(`tokenize_respaced`). Each slice is cut into its token alone, whatever stood behind it in the source
(`Token.Isolated`), and white space is passed however much there is.
-/

namespace Nominal

namespace Token

/-- What a token says, without where it stands. -/
def content (t : Token) : Kind × String :=
  (t.kind, t.value)

/-- The stretch of a source between the offsets of the token's span. -/
def slice (source : List Char) (t : Token) : List Char :=
  let start := t.span.start.offset.toNat
  (splitBytes (t.span.stop.offset.toNat - start) (splitBytes start source).2).1

/-- `slice` stands in the source of `file` where the span of the token says. -/
def StandsAt (file : String) (source : List Char) (t : Token) (slice : List Char) : Prop :=
  ∃ left right, source = left ++ slice ++ right ∧
    t.span.start = (Place.first.pass left).position file ∧
    t.span.stop = (Place.first.pass (left ++ slice)).position file

/-- The token is what is cut from `slice` when white space comes after it. -/
def Isolated (t : Token) (slice : List Char) : Prop :=
  ∀ b more, isBlank b →
    Lexeme.first? (slice ++ b :: more) = some ⟨.token t.kind t.value, slice, b :: more⟩

end Token

/-- The text consists of the slices in their order, with white space behind each. -/
inductive Spaced : List (List Char) → List Char → Prop
  | nil : Spaced [] []
  | cons {slice gap rest : List Char} {slices : List (List Char)} (hgap : gap ≠ [])
    (hwhite : ∀ c ∈ gap, isBlank c) (hrest : Spaced slices rest) :
    Spaced (slice :: slices) (slice ++ gap ++ rest)

/-! ## Slices -/

/-- Between its offsets stands the slice of a token, when words can hold them. -/
theorem Token.StandsAt.slice_eq {file : String} {source slice : List Char} {t : Token}
    (h : t.StandsAt file source slice) (hsize : byteCount source < UInt32.size) :
    t.slice source = slice := by
  obtain ⟨left, right, rfl, hstart, hstop⟩ := h
  simp only [byteCount_append] at hsize
  have hfirst : t.span.start.offset.toNat = byteCount left := by
    rw [hstart]
    exact (Place.position_isAfter file (by omega)).offset
  have hlast : t.span.stop.offset.toNat = byteCount left + byteCount slice := by
    rw [hstop, ← byteCount_append]
    exact (Place.position_isAfter file (by rw [byteCount_append]; omega)).offset
  simp only [Token.slice]
  rw [hfirst, hlast, Nat.add_sub_cancel_left, List.append_assoc, splitBytes_byteCount,
    splitBytes_byteCount]

theorem Token.map_slice {file : String} {source : List Char} {ts : List Token}
    {slices : List (List Char)} (h : List.Forall₂ (Token.StandsAt file source) ts slices)
    (hsize : byteCount source < UInt32.size) : ts.map (Token.slice source) = slices := by
  induction h with
  | nil => rfl
  | cons ht _ ih => rw [List.map_cons, ht.slice_eq hsize, ih]

/-- A token that is cut from a text is cut from its own part alone. -/
theorem Token.isolated_of_first? {cs : List Char} {l : Lexeme} {kind : Kind} {value : String}
    (hfirst : Lexeme.first? cs = some l) (hmeaning : l.meaning = .token kind value) (span : Span) :
    Token.Isolated ⟨kind, value, span⟩ l.text := by
  intro b more hb
  obtain ⟨-, hsplit⟩ := Lexeme.takes_of_first? hfirst
  -- all that stood behind the lexeme is cut off, so nothing is kept before the white space
  have hcut : Lexeme.first? (l.text ++ [] ++ l.rest) =
      some ⟨.token kind value, l.text, [] ++ l.rest⟩ := by
    rw [List.append_nil, hsplit, hfirst, ← hmeaning]
    rfl
  have hbehind := Lexeme.first?_of_isBlank_behind hb hcut more
  rwa [List.append_nil, List.nil_append] at hbehind

/-- The end token is cut from no slice. -/
theorem Token.Isolated.kind_ne_eof {t : Token} {slice : List Char} (h : t.Isolated slice) :
    t.kind ≠ .eof := by
  have hlexed := Lexeme.lexed_of_first? t.span (h ' ' [] (by decide)) rfl
  exact hlexed.kind_ne_eof

namespace Cursor

/-- Every token but the last is cut from a slice of the source, and so it would be with any white
space behind it. -/
theorem tokens_slices (c : Cursor) {source before : List Char} {ts : List Token}
    (hsource : before ++ c.rest = source) (hplace : c.place = Place.first.pass before)
    (h : c.tokens = .ok ts) :
    ∃ body last slices, ts = body ++ [last] ∧ last.content = (.eof, "EOF") ∧
      List.Forall₂ (fun t slice => t.StandsAt c.file source slice ∧ t.Isolated slice) body slices := by
  fun_induction Cursor.tokens c generalizing before ts with
  | case1 c _ =>
    obtain rfl := Except.ok.inj h
    exact ⟨[], _, [], rfl, rfl, .nil⟩
  | case2 c _ _ => cases h
  | case3 c _ lexeme hfirst _ next hmeaning =>
    rename_i ih
    have hnext := (Lexeme.takes_of_first? hfirst).source_eq hsource
    exact ih hnext (past_place hplace) h
  | case4 c _ lexeme hfirst _ next kind value hmeaning =>
    rename_i ih
    have hnext := (Lexeme.takes_of_first? hfirst).source_eq hsource
    obtain ⟨us, htokens, rfl⟩ := Token.exists_of_cons h
    obtain ⟨body, last, slices, rfl, hlast, hslices⟩ := ih hnext (past_place hplace) htokens
    have hpast : next.place = Place.first.pass (before ++ lexeme.text) := past_place hplace
    have hstands : Token.StandsAt c.file source ⟨kind, value, c.spanTo next⟩ lexeme.text :=
      ⟨before, next.rest, hnext.symm, congrArg (Place.position · c.file) hplace,
        congrArg (Place.position · c.file) hpast⟩
    have hisolated := Token.isolated_of_first? hfirst hmeaning (c.spanTo next)
    exact ⟨_ :: body, last, _ :: slices, rfl, hlast, .cons ⟨hstands, hisolated⟩ hslices⟩
  | case5 => cases h

/-- Slices with white space behind each are cut into the tokens they are cut into alone. -/
theorem tokens_spaced {body : List Token} {slices : List (List Char)}
    (hslices : List.Forall₂ Token.Isolated body slices) {text : List Char}
    (hspaced : Spaced slices text) (c : Cursor) (hrest : c.rest = text) :
    ∃ us last, c.tokens = .ok (us ++ [last]) ∧ us.map Token.content = body.map Token.content ∧
      last.content = (.eof, "EOF") := by
  induction hspaced generalizing c body with
  | nil =>
    cases hslices
    exact ⟨[], _, tokens_of_rest_eq_nil hrest, rfl, rfl⟩
  | @cons slice gap rest slices hgap hwhite hspaced ih =>
    cases hslices with
    | @cons t _ body _ ht hslices =>
      obtain ⟨b, white, rfl⟩ := List.exists_cons_of_ne_nil hgap
      have hfirst := ht b (white ++ rest) (hwhite b List.mem_cons_self)
      rw [← List.cons_append, ← List.append_assoc, ← hrest] at hfirst
      obtain ⟨us, last, htokens, hcontents, hlast⟩ :=
        ih hslices ((c.past slice (b :: white ++ rest)).past (b :: white) rest) rfl
      rw [tokens_of_first? hfirst]
      -- the gap is passed at once, however it is divided into lexemes with what follows
      show ∃ us last, ([_] ++ ·) <$> (c.past slice (b :: white ++ rest)).tokens = _ ∧ _
      rw [tokens_white hwhite rfl, htokens]
      refine ⟨_ :: us, last, rfl, ?_, hlast⟩
      rw [List.map_cons, List.map_cons, hcontents]
      rfl

end Cursor

/-- `slices` are those of the tokens but the end token, and in any spacing they say the same. -/
structure Token.Respaces (file source : String) (tokens : List Token) (slices : List (List Char)) :
    Prop where
  stands : List.Forall₂ (Token.StandsAt file source.toList) (tokens.filter (·.kind ≠ .eof)) slices
  /-- They stand between the offsets, when words can hold them. -/
  sliced : source.utf8ByteSize < UInt32.size →
    slices = (tokens.filter (·.kind ≠ .eof)).map (Token.slice source.toList)
  spaced : ∀ text, Spaced slices text.toList → ∀ file', ∃ again,
    tokenize text file' = .ok again ∧ again.map Token.content = tokens.map Token.content

/-- A source that is cut into tokens is one layout of their slices, and any layout is cut into the
same tokens. -/
theorem tokenize_respaced {source file : String} {tokens : List Token}
    (h : tokenize source file = .ok tokens) : ∃ slices, Token.Respaces file source tokens slices := by
  obtain ⟨body, last, slices, rfl, hlast, hslices⟩ :=
    Cursor.tokens_slices (.ofString source file) (List.nil_append _) rfl h
  have hstands : List.Forall₂ (Token.StandsAt file source.toList) body slices :=
    hslices.imp fun _ _ hboth => hboth.1
  have hisolated := hslices.imp fun _ _ hboth => hboth.2
  have hbody : ∀ t ∈ body, t.kind ≠ .eof :=
    ((List.forall₂_and_left _ _).1 (hisolated.imp fun _ _ ht => ⟨ht.kind_ne_eof, ht⟩)).1
  have hend : last.kind = .eof := congrArg Prod.fst hlast
  have hfilter : (body ++ [last]).filter (·.kind ≠ .eof) = body := by
    rw [List.filter_append, List.filter_eq_self.2 (by simpa using hbody)]
    simp [hend]
  refine ⟨slices, ?_, fun hsize => ?_, fun text hspaced file' => ?_⟩
  · rwa [hfilter]
  · rw [hfilter, Token.map_slice hstands (by rwa [byteCount_toList])]
  · obtain ⟨us, last', htokens, hcontents, hlast'⟩ :=
      Cursor.tokens_spaced hisolated hspaced (.ofString text file') rfl
    refine ⟨us ++ [last'], htokens, ?_⟩
    rw [List.map_append, List.map_append, hcontents, List.map_singleton, List.map_singleton,
      hlast', hlast]

/-- Tokens that touch, with an operator name, an escaped quote and a comment. -/
def crampedSource : String :=
  "f(a)->b==!c\"x\\\"\ny\"operator==//z"

theorem tokenize_respaced_crampedSource : ∃ tokens slices,
    tokenize crampedSource interactiveFile = .ok tokens ∧
      Token.Respaces interactiveFile crampedSource tokens slices := by
  have hok : (tokenize crampedSource interactiveFile).isOk := by decide +kernel
  cases htokens : tokenize crampedSource interactiveFile with
  | error d =>
    rw [htokens] at hok
    cases hok
  | ok tokens =>
    obtain ⟨slices, hslices⟩ := tokenize_respaced htokens
    exact ⟨tokens, slices, rfl, hslices⟩

end Nominal
