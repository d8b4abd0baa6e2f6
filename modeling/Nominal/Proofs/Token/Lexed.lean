import Nominal.Proofs.Token.Steps

/-!
# What the tokens of a source look like

`Token.Lexed` says which tokens the rules of `Lexeme` can make: a mark or a reserved word with the
text it has in the tables, a name, a string, or a run of decimal digits. `Token.Ended` says that a
list consists of such tokens and one end token after them. Every source that can be cut into tokens
gives a list of this kind (`tokenize_ended`), so a reader of tokens may rely on it.
-/

namespace Nominal

namespace Lexeme

/-- Whether `c` can stand in a name, be it a word or `operator` with an operator. -/
def isNamePart (c : Char) : Bool :=
  isWordPart c || "=!<>-+*/".toList.contains c

end Lexeme

namespace Token

/-- A token as the rules of `Lexeme` make it. -/
inductive Lexed (t : Token) : Prop
  | fixed (h : (t.value, t.kind) ∈ Kind.marks ++ Kind.reserved)
  | name (hkind : t.kind = .identifier) (hne : t.value.toList ≠ [])
      (hpart : ∀ c ∈ t.value.toList, Lexeme.isNamePart c)
  | number (hkind : t.kind = .number) (hne : t.value.toList ≠ [])
      (hdigit : ∀ c ∈ t.value.toList, c.isDigit)
  | string (hkind : t.kind = .string)

/-- Any number of lexed tokens and an end token after them. -/
inductive Ended : List Token → Prop
  | nil {t : Token} (ht : t.kind = .eof) : Ended [t]
  | cons {t : Token} {ts : List Token} (ht : t.Lexed) (hts : Ended ts) : Ended (t :: ts)

variable {t : Token} {ts us : List Token}

theorem Lexed.kind_ne_eof (h : t.Lexed) : t.kind ≠ .eof := by
  cases h with
  | fixed h =>
    have hall : ∀ m ∈ Kind.marks ++ Kind.reserved, m.2 ≠ .eof := by decide
    exact hall _ h
  | name hkind => simp [hkind]
  | number hkind => simp [hkind]
  | string hkind => simp [hkind]

/-- The text of a mark or of a reserved word is the one in the tables. -/
theorem Lexed.fixed_of_kind (h : t.Lexed) (hname : t.kind ≠ .identifier)
    (hnumber : t.kind ≠ .number) (hstring : t.kind ≠ .string) :
    (t.value, t.kind) ∈ Kind.marks ++ Kind.reserved := by
  cases h with
  | fixed h => exact h
  | name hkind => exact absurd hkind hname
  | number hkind => exact absurd hkind hnumber
  | string hkind => exact absurd hkind hstring

/-- A number token holds decimal digits. -/
theorem Lexed.digits_of_kind (h : t.Lexed) (hkind : t.kind = .number) :
    t.value.toList ≠ [] ∧ ∀ c ∈ t.value.toList, c.isDigit := by
  cases h with
  | fixed h =>
    have hall : ∀ m ∈ Kind.marks ++ Kind.reserved, m.2 ≠ .number := by decide
    exact absurd hkind (hall _ h)
  | name hkind' => simp [hkind'] at hkind
  | number _ hne hdigit => exact ⟨hne, hdigit⟩
  | string hkind' => simp [hkind'] at hkind

/-- A name token holds a name. -/
theorem Lexed.name_of_kind (h : t.Lexed) (hkind : t.kind = .identifier) :
    t.value.toList ≠ [] ∧ ∀ c ∈ t.value.toList, Lexeme.isNamePart c := by
  cases h with
  | fixed h =>
    have hall : ∀ m ∈ Kind.marks ++ Kind.reserved, m.2 ≠ .identifier := by decide
    exact absurd hkind (hall _ h)
  | name _ hne hpart => exact ⟨hne, hpart⟩
  | number hkind' => simp [hkind'] at hkind
  | string hkind' => simp [hkind'] at hkind

theorem Ended.ne_nil (h : Ended ts) : ts ≠ [] := by
  cases h <;> simp

/-- The end token is the last one and the only one. -/
theorem Ended.split (h : Ended ts) :
    ∃ body last, ts = body ++ [last] ∧ last.kind = .eof ∧ ∀ t ∈ body, t.Lexed := by
  induction h with
  | @nil t ht => exact ⟨[], t, rfl, ht, by simp⟩
  | @cons t ts ht _ ih =>
    obtain ⟨body, last, rfl, hlast, hbody⟩ := ih
    exact ⟨t :: body, last, rfl, hlast, List.forall_mem_cons.2 ⟨ht, hbody⟩⟩

end Token

namespace Kind

/-- A word that is not reserved is an identifier. -/
theorem ofWord_cases (word : String) :
    (word, ofWord word) ∈ reserved ∨ ofWord word = .identifier := by
  unfold ofWord ofReserved?
  cases h : reserved.lookup word with
  | none => exact .inr rfl
  | some kind =>
    obtain ⟨before, after, hsplit, -⟩ := List.lookup_eq_some_iff.1 h
    exact .inl (by simp [hsplit])

end Kind

namespace Lexeme

variable {cs : List Char} {l : Lexeme} {kind : Kind} {value : String}

/-- What a run of characters means, when it means a token. -/
theorem of_run? {p : Char → Bool} {meaning : List Char → Meaning} (h : run? p meaning cs = some l) :
    ∃ text, text ≠ [] ∧ (∀ c ∈ text, p c) ∧ l.meaning = meaning text := by
  unfold run? at h
  split at h
  · cases h
  · next hne =>
    obtain rfl := Option.some.inj h
    exact ⟨_, hne, List.all_eq_true.1 List.all_takeWhile, rfl⟩

theorem lexed_of_operatorName? (span : Span) (h : operatorName? cs = some l)
    (hmeaning : l.meaning = .token kind value) : Token.Lexed ⟨kind, value, span⟩ := by
  obtain ⟨op, hop, h⟩ := List.exists_of_findSome?_eq_some h
  obtain ⟨rest, -, rfl⟩ := Option.map_eq_some_iff.1 h
  obtain ⟨rfl, rfl⟩ := Meaning.token.inj hmeaning
  have hall : ∀ op ∈ operators, Kind.ofWord ("operator" ++ op) = .identifier ∧
      ("operator" ++ op).toList ≠ [] ∧ ("operator" ++ op).toList.all isNamePart := by decide
  obtain ⟨hkind, hne, hpart⟩ := hall op hop
  exact .name hkind hne (List.all_eq_true.1 hpart)

theorem lexed_of_word? (span : Span) (h : word? cs = some l)
    (hmeaning : l.meaning = .token kind value) : Token.Lexed ⟨kind, value, span⟩ := by
  unfold word? at h
  split at h
  · cases h
  · split at h
    · obtain ⟨text, hne, hpart, htext⟩ := of_run? h
      obtain ⟨rfl, rfl⟩ := Meaning.token.inj (htext.symm.trans hmeaning)
      obtain hreserved | hkind := Kind.ofWord_cases (String.ofList text)
      · exact .fixed (List.mem_append_right _ hreserved)
      · have hname : ∀ c ∈ text, isNamePart c := fun c hc => by simp [isNamePart, hpart c hc]
        exact .name hkind (by simpa using hne) (by simpa using hname)
    · cases h

theorem lexed_of_number? (span : Span) (h : number? cs = some l)
    (hmeaning : l.meaning = .token kind value) : Token.Lexed ⟨kind, value, span⟩ := by
  obtain ⟨text, hne, hdigit, htext⟩ := of_run? h
  obtain ⟨rfl, rfl⟩ := Meaning.token.inj (htext.symm.trans hmeaning)
  exact .number rfl (by simpa using hne) (by simpa using hdigit)

theorem lexed_of_string? (span : Span) (h : string? cs = some l)
    (hmeaning : l.meaning = .token kind value) : Token.Lexed ⟨kind, value, span⟩ := by
  unfold string? at h
  split at h
  · obtain ⟨⟨inside, rest⟩, -, rfl⟩ := Option.map_eq_some_iff.1 h
    obtain ⟨rfl, rfl⟩ := Meaning.token.inj hmeaning
    exact .string rfl
  · cases h

theorem lexed_of_mark? (span : Span) (h : mark? cs = some l)
    (hmeaning : l.meaning = .token kind value) : Token.Lexed ⟨kind, value, span⟩ := by
  obtain ⟨⟨text, k⟩, hmem, h⟩ := List.exists_of_findSome?_eq_some h
  obtain ⟨rest, -, rfl⟩ := Option.map_eq_some_iff.1 h
  obtain ⟨rfl, rfl⟩ := Meaning.token.inj hmeaning
  exact .fixed (List.mem_append_left _ hmem)

/-- Whatever rule fits, a token it makes is lexed. -/
theorem lexed_of_first? (span : Span) (h : first? cs = some l)
    (hmeaning : l.meaning = .token kind value) : Token.Lexed ⟨kind, value, span⟩ := by
  obtain ⟨rule, hmem, h⟩ := List.exists_of_findSome?_eq_some h
  simp only [rules, List.mem_cons, List.not_mem_nil, or_false] at hmem
  rcases hmem with rfl | rfl | rfl | rfl | rfl | rfl | rfl | rfl
  · obtain ⟨text, -, -, htext⟩ := of_run? h
    cases htext.symm.trans hmeaning
  · unfold comment? at h
    split at h
    · obtain rfl := Option.some.inj h
      cases hmeaning
    · cases h
  · exact lexed_of_operatorName? span h hmeaning
  · exact lexed_of_word? span h hmeaning
  · exact lexed_of_number? span h hmeaning
  · exact lexed_of_string? span h hmeaning
  · unfold openQuote? at h
    split at h
    · obtain rfl := Option.some.inj h
      cases hmeaning
    · cases h
  · exact lexed_of_mark? span h hmeaning

end Lexeme

/-- The tokens from a cursor are lexed tokens and an end token. -/
theorem Cursor.tokens_ended (c : Cursor) {tokens : List Token} (h : c.tokens = .ok tokens) :
    Token.Ended tokens := by
  fun_induction Cursor.tokens c generalizing tokens with
  | case1 c _ =>
    obtain rfl := Except.ok.inj h
    exact .nil rfl
  | case2 c _ _ => cases h
  | case3 =>
    rename_i ih
    exact ih h
  | case4 c _ lexeme hfirst _ next kind value hmeaning =>
    rename_i ih
    obtain ⟨rest, hrest, rfl⟩ := Token.exists_of_cons h
    exact .cons (Lexeme.lexed_of_first? _ hfirst hmeaning) (ih hrest)
  | case5 => cases h

/-- The tokens of a source are lexed tokens and an end token. -/
theorem tokenize_ended {source file : String} {tokens : List Token}
    (h : tokenize source file = .ok tokens) : Token.Ended tokens :=
  Cursor.tokens_ended _ h

end Nominal
