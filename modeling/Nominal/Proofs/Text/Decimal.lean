import Nominal.Text.Integer

/-!
# Decimal digits

What `integer?` reads from a run of decimal digits is the value of the digits, and the digits are
the usual spelling of that value with some zeros before it.
-/

namespace Nominal

variable {digits : List Char} {n : Nat}

theorem digitChar_of_isDigit {c : Char} (h : c.isDigit) :
    (c.toNat - '0'.toNat).digitChar = c := by
  have hrange := Char.isDigit_iff_toNat.1 h
  simp only [Char.reduceToNat] at hrange ⊢
  apply Char.toNat_inj.1
  rw [Nat.toNat_digitChar_of_lt_ten (by omega)]
  omega

theorem toDigits_of_isDigit {c : Char} (h : c.isDigit) :
    Nat.toDigits 10 (c.toNat - '0'.toNat) = [c] := by
  have hrange := Char.isDigit_iff_toNat.1 h
  simp only [Char.reduceToNat] at hrange
  rw [Nat.toDigits_of_lt_base (by simp only [Char.reduceToNat]; omega), digitChar_of_isDigit h]

/-- Digits after the spelling of a positive number are the spelling of a number. -/
theorem toDigits_append (hn : 0 < n) (hdigit : ∀ c ∈ digits, c.isDigit) :
    Nat.toDigits 10 n ++ digits = Nat.toDigits 10 (Nat.ofDigitChars 10 digits n) := by
  induction digits generalizing n with
  | nil => simp [Nat.ofDigitChars]
  | cons c rest ih =>
    obtain ⟨hc, hrest⟩ := List.forall_mem_cons.1 hdigit
    have hrange := Char.isDigit_iff_toNat.1 hc
    simp only [Char.reduceToNat] at hrange
    calc Nat.toDigits 10 n ++ c :: rest
      _ = (Nat.toDigits 10 n ++ Nat.toDigits 10 (c.toNat - '0'.toNat)) ++ rest := by
          rw [toDigits_of_isDigit hc, List.append_assoc, List.singleton_append]
      _ = Nat.toDigits 10 (10 * n + (c.toNat - '0'.toNat)) ++ rest := by
          rw [Nat.toDigits_append_toDigits (by omega) hn (by simp only [Char.reduceToNat]; omega)]
      _ = Nat.toDigits 10 (Nat.ofDigitChars 10 (c :: rest) n) := by
          rw [Nat.ofDigitChars_cons]
          exact ih (by omega) hrest

/-- Decimal digits are the usual spelling of their value after some zeros. -/
theorem exists_zeros_append_toDigits (hne : digits ≠ []) (hdigit : ∀ c ∈ digits, c.isDigit) :
    ∃ zeros, digits = List.replicate zeros '0' ++
      Nat.toDigits 10 (Nat.ofDigitChars 10 digits 0) := by
  induction digits with
  | nil => exact absurd rfl hne
  | cons c rest ih =>
    obtain ⟨hc, hrest⟩ := List.forall_mem_cons.1 hdigit
    rw [Nat.ofDigitChars_cons, Nat.mul_zero, Nat.zero_add]
    obtain hpos | hzero := Nat.eq_zero_or_pos (c.toNat - '0'.toNat) |>.symm
    · -- the first digit counts, so there are no zeros to drop
      refine ⟨0, ?_⟩
      rw [← toDigits_append hpos hrest, toDigits_of_isDigit hc]
      rfl
    · have hchar : c = '0' := by rw [← digitChar_of_isDigit hc, hzero]; rfl
      rw [hzero, hchar]
      by_cases hnil : rest = []
      · subst hnil
        exact ⟨0, rfl⟩
      · obtain ⟨zeros, hzeros⟩ := ih hnil hrest
        exact ⟨zeros + 1, by rw [List.replicate_succ, List.cons_append, ← hzeros]⟩

theorem decimalValue_of_isDigit (hdigit : ∀ c ∈ digits, c.isDigit) :
    decimalValue n digits = some (Nat.ofDigitChars 10 digits n) := by
  induction digits generalizing n with
  | nil => rfl
  | cons c rest ih =>
    obtain ⟨hc, hrest⟩ := List.forall_mem_cons.1 hdigit
    rw [decimalValue, if_pos hc, ih hrest, Nat.ofDigitChars_cons, Nat.mul_comm]

theorem decimal?_of_isDigit (hne : digits ≠ []) (hdigit : ∀ c ∈ digits, c.isDigit) :
    decimal? digits = some (Nat.ofDigitChars 10 digits 0) := by
  unfold decimal?
  split
  · exact absurd rfl hne
  · exact decimalValue_of_isDigit hdigit

/-- What a run of digits is read as: its value, when a word can hold it. -/
theorem integer?_eq_of_isDigit (hne : digits ≠ []) (hdigit : ∀ c ∈ digits, c.isDigit) :
    integer? digits = (some (Nat.ofDigitChars 10 digits 0 : Int)).filter fitsWord := by
  unfold integer?
  split
  · exact absurd (hdigit '-' List.mem_cons_self) (by decide)
  · exact absurd (hdigit '+' List.mem_cons_self) (by decide)
  · rw [decimal?_of_isDigit hne hdigit]
    rfl

/-- A run of digits is read as its value, which is at most the largest word. -/
theorem integer?_of_isDigit (hne : digits ≠ []) (hdigit : ∀ c ∈ digits, c.isDigit) {value : Int}
    (h : integer? digits = some value) :
    value = Nat.ofDigitChars 10 digits 0 ∧ Nat.ofDigitChars 10 digits 0 ≤ 2147483647 := by
  rw [integer?_eq_of_isDigit hne hdigit] at h
  obtain ⟨hvalue, hfits⟩ := Option.filter_eq_some_iff.1 h
  obtain rfl := Option.some.inj hvalue
  simp only [fitsWord, Bool.and_eq_true, decide_eq_true_eq] at hfits
  exact ⟨rfl, by omega⟩

/-- The usual spelling of a number that a word can hold is read as the number, also after zeros. -/
theorem integer?_of_toDigits (zeros : Nat) (hmax : n ≤ 2147483647) :
    integer? (List.replicate zeros '0' ++ Nat.toDigits 10 n) = some (n : Int) := by
  have hdigit : ∀ c ∈ List.replicate zeros '0' ++ Nat.toDigits 10 n, c.isDigit := by
    rw [List.forall_mem_append]
    constructor
    · intro c hc
      rw [List.eq_of_mem_replicate hc]
      decide
    · exact fun c hc => Nat.isDigit_of_mem_toDigits (by decide) (by decide) hc
  have hvalue : Nat.ofDigitChars 10 (List.replicate zeros '0' ++ Nat.toDigits 10 n) 0 = n := by
    rw [Nat.ofDigitChars_append, Nat.ofDigitChars_replicate_zero, Nat.mul_zero,
      Nat.ofDigitChars_toDigits (by decide) (by decide)]
  rw [integer?_eq_of_isDigit (by simp [Nat.toDigits_ne_nil]) hdigit, hvalue,
    Option.filter_eq_some_iff]
  refine ⟨rfl, ?_⟩
  simp only [fitsWord, Bool.and_eq_true, decide_eq_true_eq]
  omega

end Nominal
