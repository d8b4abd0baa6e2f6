import Nominal.Proofs.Token.Lossless

/-!
# Identifiers, marks and blanks at the start of a text

An identifier is a word that is not reserved, or `operator` with an operator (`IsIdentifier`). Where a
text starts with an identifier and no name goes on behind it, the first lexeme of the text is the
identifier, whatever follows (`Lexeme.first?_identifier`). The same is said of the marks that stand
in the name of a function type and of a single space.
-/

namespace Nominal

/-- A letter or underscore, and letters, digits and underscores after it. -/
def Lexeme.isWord : List Char → Bool
  | [] => false
  | c :: rest => isWordStart c && rest.all isWordPart

/-- A word that is not reserved, or `operator` and an operator. -/
def IsIdentifier (name : String) : Prop :=
  Lexeme.isWord name.toList ∧ name ∉ Kind.reserved.map Prod.fst ∨ IsOperatorName name

instance (name : String) : Decidable (IsOperatorName name) :=
  inferInstanceAs (Decidable (∃ op ∈ Lexeme.operators, name = "operator" ++ op))

instance (name : String) : Decidable (IsIdentifier name) :=
  inferInstanceAs (Decidable
    (Lexeme.isWord name.toList ∧ name ∉ Kind.reserved.map Prod.fst ∨ IsOperatorName name))

example : IsIdentifier "Function" ∧ IsIdentifier "operator-" ∧ IsIdentifier "operator" ∧
    ¬ IsIdentifier "val" ∧ ¬ IsIdentifier "2x" ∧ ¬ IsIdentifier "operator--" := by
  decide

namespace Lexeme

/-- No name goes on at the start of `after`. -/
def NameEnds (after : List Char) : Prop :=
  ∀ c ∈ after.head?, isNamePart c = false

variable {cs : List Char}

theorem exists_cons_of_isWord (h : isWord cs = true) :
    ∃ c rest, cs = c :: rest ∧ isWordStart c = true := by
  cases cs with
  | nil => cases h
  | cons c rest => exact ⟨c, rest, rfl, (Bool.and_eq_true_iff.1 h).1⟩

theorem isWordPart_of_isWord (h : isWord cs = true) : ∀ c ∈ cs, isWordPart c = true := by
  cases cs with
  | nil => cases h
  | cons c rest =>
    obtain ⟨hstart, hrest⟩ := Bool.and_eq_true_iff.1 h
    rw [List.forall_mem_cons]
    refine ⟨?_, List.all_eq_true.1 hrest⟩
    rw [isWordStart, Bool.or_eq_true] at hstart
    rw [isWordPart, Bool.or_eq_true, Char.isAlphanum, Bool.or_eq_true]
    exact hstart.imp_left .inl

end Lexeme

namespace IsIdentifier

variable {name : String}

theorem ofWord (h : IsIdentifier name) : Kind.ofWord name = .identifier := by
  obtain ⟨-, hreserved⟩ | ⟨op, hop, rfl⟩ := h
  · obtain hmem | hkind := Kind.ofWord_cases name
    · exact absurd (List.mem_map_of_mem hmem) hreserved
    · exact hkind
  · have hall : ∀ op ∈ Lexeme.operators, Kind.ofWord ("operator" ++ op) = .identifier := by decide
    exact hall op hop

/-- An identifier begins as a word does. -/
theorem exists_cons (h : IsIdentifier name) :
    ∃ c rest, name.toList = c :: rest ∧ Lexeme.isWordStart c = true := by
  obtain ⟨hword, -⟩ | ⟨op, -, rfl⟩ := h
  · exact Lexeme.exists_cons_of_isWord hword
  · exact ⟨'o', _, String.toList_append, rfl⟩

theorem isNamePart (h : IsIdentifier name) : ∀ c ∈ name.toList, Lexeme.isNamePart c := by
  obtain ⟨hword, -⟩ | ⟨op, hop, rfl⟩ := h
  · intro c hc
    simp [Lexeme.isNamePart, Lexeme.isWordPart_of_isWord hword c hc]
  · have hall : ∀ op ∈ Lexeme.operators, ("operator" ++ op).toList.all Lexeme.isNamePart := by
      decide
    exact List.all_eq_true.1 (hall op hop)

end IsIdentifier

namespace Lexeme

variable {name : String} {ts cs after rest : List Char} {c : Char}

/-- A run of characters up to the first that is not of its kind. -/
theorem run?_append {p : Char → Bool} (meaning : List Char → Meaning) (hne : cs ≠ [])
    (hcs : ∀ c ∈ cs, p c) (hafter : ∀ c ∈ after.head?, p c = false) :
    run? p meaning (cs ++ after) = some ⟨meaning cs, cs, after⟩ := by
  have htake : (cs ++ after).takeWhile p = cs := by
    rw [List.takeWhile_append_of_pos hcs]
    cases after with
    | nil => simp
    | cons c after => simp [hafter c rfl]
  have hdrop : (cs ++ after).dropWhile p = after := by
    rw [List.dropWhile_append_of_pos hcs]
    cases after with
    | nil => rfl
    | cons c after => simp [hafter c rfl]
  unfold run?
  split
  · next hnil => exact absurd (htake.symm.trans hnil) hne
  · rw [htake, hdrop]

/-! ## What a word does not begin with -/

/-- The code points of letters and of the underscore. -/
theorem toNat_of_isWordStart (h : isWordStart c = true) : 65 ≤ c.toNat ∧ c.toNat ≤ 122 := by
  have hranges : (decide ('A'.val ≤ c.val ∧ c.val ≤ 'Z'.val) ||
      ('a'.val ≤ c.val && c.val ≤ 'z'.val) || c == '_') = true := h
  simp only [Bool.or_eq_true, Bool.and_eq_true, decide_eq_true_eq, beq_iff_eq] at hranges
  rcases hranges with (⟨hmin, hmax⟩ | ⟨hmin, hmax⟩) | rfl
  · have hmin : 65 ≤ c.toNat := UInt32.le_iff_toNat_le.1 hmin
    have hmax : c.toNat ≤ 90 := UInt32.le_iff_toNat_le.1 hmax
    omega
  · have hmin : 97 ≤ c.toNat := UInt32.le_iff_toNat_le.1 hmin
    have hmax : c.toNat ≤ 122 := UInt32.le_iff_toNat_le.1 hmax
    omega
  · decide

theorem isBlank_of_isWordStart (h : isWordStart c = true) : isBlank c = false := by
  obtain ⟨hmin, hmax⟩ := toNat_of_isWordStart h
  simp only [isBlank, blankRanges, List.any_cons, List.any_nil, Bool.or_false, Bool.or_eq_false_iff,
    Bool.and_eq_false_iff, decide_eq_false_iff_not]
  omega

theorem blanks?_eq_none (h : isBlank c = false) : blanks? (c :: cs) = none := by
  simp [blanks?, run?, h]

theorem comment?_eq_none (h : c ≠ '/') : comment? (c :: cs) = none := by
  unfold comment?
  split
  · next heq => exact absurd (List.cons.inj heq).1 h
  · rfl

/-! ## Identifiers -/

theorem after?_append (ts cs : List Char) : after? ts (ts ++ cs) = some cs := by
  induction ts with
  | nil => rfl
  | cons t ts ih => simpa [after?] using ih

/-- Where no name goes on after `name`, only a part of `name` can be found at its start. -/
theorem isPrefix_of_after? (hts : ∀ c ∈ ts, isNamePart c) (hafter : NameEnds after)
    (h : after? ts (name.toList ++ after) = some rest) : ts <+: name.toList := by
  obtain ⟨more, hname, -⟩ | ⟨more, rfl, rfl⟩ := List.append_eq_append_iff.1 (append_of_after? h)
  · exact ⟨more, hname.symm⟩
  · cases more with
    | nil => simp
    | cons d more =>
      have hd : isNamePart d = false := hafter d rfl
      rw [hts d (by simp)] at hd
      cases hd

/-- A word is not taken for `operator` with an operator. -/
theorem operatorName?_word (hword : isWord name.toList = true) (hafter : NameEnds after) :
    operatorName? (name.toList ++ after) = none := by
  have hall : ∀ op ∈ operators, ("operator" ++ op).toList.all isNamePart ∧
      ("operator" ++ op).toList.any (fun c => !isWordPart c) := by decide
  unfold operatorName?
  rw [List.findSome?_eq_none_iff]
  intro op hop
  obtain ⟨hpart, hoperator⟩ := hall op hop
  obtain ⟨c, hc, hmark⟩ := List.any_eq_true.1 hoperator
  cases hfound : after? ("operator" ++ op).toList (name.toList ++ after) with
  | none => simp only [hfound, Option.map_none]
  | some rest =>
    have hbegins := isPrefix_of_after? (List.all_eq_true.1 hpart) hafter hfound
    rw [isWordPart_of_isWord hword c (hbegins.subset hc)] at hmark
    cases hmark

theorem word?_word (hword : isWord name.toList = true) (hafter : NameEnds after) :
    word? (name.toList ++ after) = some ⟨.token (.ofWord name) name, name.toList, after⟩ := by
  obtain ⟨c, rest, hcons, hstart⟩ := exists_cons_of_isWord hword
  have hstop : ∀ d ∈ after.head?, isWordPart d = false := by
    intro d hd
    have hend := hafter d hd
    rw [isNamePart, Bool.or_eq_false_iff] at hend
    exact hend.1
  have hrun := run?_append
    (fun text => .token (.ofWord (String.ofList text)) (String.ofList text))
    (hcons ▸ List.cons_ne_nil c rest) (isWordPart_of_isWord hword) hstop
  rw [String.ofList_toList] at hrun
  rw [hcons, List.cons_append] at hrun ⊢
  simpa [word?, hstart] using hrun

/-- `operator` with an operator is taken as a whole. -/
theorem operatorName?_operator {op : String} (hop : op ∈ operators) (hafter : NameEnds after) :
    operatorName? (("operator" ++ op).toList ++ after) =
      some ⟨.token (.ofWord ("operator" ++ op)) ("operator" ++ op), ("operator" ++ op).toList,
        after⟩ := by
  have hequals : ∀ c ∈ after.head?, '=' ≠ c := by
    rintro c hc rfl
    exact absurd (hafter '=' hc) (by decide)
  simp only [operators, List.mem_cons, List.not_mem_nil, or_false] at hop
  rcases hop with rfl | rfl | rfl | rfl | rfl | rfl | rfl | rfl | rfl | rfl | rfl
  iterate 8 rfl
  -- the last three begin longer operators, which all go on with an equals sign
  all_goals
    cases after with
    | nil => rfl
    | cons c after => simp [operatorName?, operators, after?, hequals c rfl]

/-- An identifier is the first lexeme where it stands, unless a name goes on behind it. -/
theorem first?_identifier (hname : IsIdentifier name) (hafter : NameEnds after) :
    first? (name.toList ++ after) = some ⟨.token .identifier name, name.toList, after⟩ := by
  have hkind := hname.ofWord
  obtain ⟨c, more, hcons, hstart⟩ := hname.exists_cons
  have hblanks : blanks? (name.toList ++ after) = none := by
    rw [hcons]
    exact blanks?_eq_none (isBlank_of_isWordStart hstart)
  have hcomment : comment? (name.toList ++ after) = none := by
    rw [hcons]
    refine comment?_eq_none ?_
    rintro rfl
    cases hstart
  obtain ⟨hword, -⟩ | ⟨op, hop, rfl⟩ := hname
  · simp [first?, rules, hblanks, hcomment, operatorName?_word hword hafter,
      word?_word hword hafter, hkind]
  · simp only [first?, rules, List.findSome?_cons, hblanks, hcomment,
      operatorName?_operator hop hafter, hkind]

/-! ## Marks and blanks -/

/-- The marks in the name of a function type are lexemes, whatever follows. -/
theorem first?_mark (after : List Char) :
    ∀ m ∈ [("(", Kind.openParen), (")", .closeParen), (",", .comma), ("->", .arrow)],
      first? (m.1.toList ++ after) = some ⟨.token m.2 m.1, m.1.toList, after⟩ := by
  simp only [List.forall_mem_cons, List.not_mem_nil, false_implies, implies_true, and_true]
  exact ⟨rfl, rfl, rfl, rfl⟩

/-- A space before something else is a lexeme. -/
theorem first?_space (h : ∀ c ∈ after.head?, isBlank c = false) :
    first? (' ' :: after) = some ⟨.blank, [' '], after⟩ := by
  have hblanks : blanks? (' ' :: after) = some ⟨.blank, [' '], after⟩ :=
    run?_append (fun _ => .blank) (List.cons_ne_nil ' ' []) (by simp [isBlank, blankRanges]) h
  simp [first?, rules, hblanks]

end Lexeme

end Nominal
