import Mathlib.Data.List.Basic

/-!
# Decimal numbers

A text of digits without leading zeros is the decimal text of its value.
-/

namespace Decimals

def isNumeral : List Char → Bool
  | [] => false
  | ['0'] => true
  | c :: rest => c ≠ '0' && (c :: rest).all Char.isDigit

def value (s : List Char) : Nat := Nat.ofDigitChars 10 s 0

theorem toString_toList (n : Nat) : (toString n).toList = Nat.toDigits 10 n := by
  rw [Nat.toString_eq_ofList_toDigits, String.toList_ofList]

theorem isNumeral_cons (hc : c ≠ '0') : isNumeral (c :: rest) = (c :: rest).all Char.isDigit := by
  simp [isNumeral, hc]

theorem isNumeral_cases (h : isNumeral s = true) :
    s = ['0'] ∨ ∃ c rest, s = c :: rest ∧ c ≠ '0' ∧ ∀ d ∈ s, d.isDigit = true := by
  unfold isNumeral at h
  split at h
  · cases h
  · exact .inl rfl
  · rw [Bool.and_eq_true, List.all_eq_true] at h
    exact .inr ⟨_, _, rfl, by simpa using h.1, h.2⟩

theorem isDigit_of_isNumeral (h : isNumeral s = true) : ∀ c ∈ s, c.isDigit = true := by
  rcases isNumeral_cases h with rfl | ⟨c, rest, -, -, hall⟩
  · intro c hc
    rw [List.mem_singleton.mp hc]
    rfl
  · exact hall

theorem toNat_of_isDigit {c : Char} (h : c.isDigit = true) : 48 ≤ c.toNat ∧ c.toNat ≤ 57 := by
  simpa [Char.isDigit, UInt32.le_iff_toNat_le] using h

theorem isDigit_ne_zero_iff {c : Char} : c.isDigit = true ∧ c ≠ '0' ↔ '1' ≤ c ∧ c ≤ '9' := by
  have hzero : c = '0' ↔ c.toNat = 48 := Char.toNat_inj.symm
  have hlow : '1' ≤ c ↔ 49 ≤ c.toNat := UInt32.le_iff_toNat_le
  have hhigh : c ≤ '9' ↔ c.toNat ≤ 57 := UInt32.le_iff_toNat_le
  have hdigit : c.isDigit = true ↔ 48 ≤ c.toNat ∧ c.toNat ≤ 57 := by
    simp [Char.isDigit, UInt32.le_iff_toNat_le]
  rw [hdigit, hlow, hhigh, ne_eq, hzero]
  omega

theorem digitChar_of_isDigit {c : Char} (h : c.isDigit = true) : (c.toNat - 48).digitChar = c := by
  obtain ⟨hlow, hhigh⟩ := toNat_of_isDigit h
  have hall : ∀ n < 10, (48 + n).isValidChar ∧ n.digitChar = Char.ofNat (48 + n) := by decide
  have hn := (hall (c.toNat - 48) (by omega)).2
  rw [hn, Nat.add_sub_cancel' hlow, Char.ofNat_toNat]

theorem le_ofDigitChars (digits : List Char) (n : Nat) : n ≤ Nat.ofDigitChars 10 digits n := by
  induction digits generalizing n with
  | nil => exact Nat.le_refl n
  | cons c digits ih =>
    calc n ≤ 10 * n + (c.toNat - 48) := by omega
      _ ≤ Nat.ofDigitChars 10 (c :: digits) n := ih _

theorem toDigits_ofDigitChars {digits : List Char} {n : Nat} (hn : 0 < n)
    (hd : ∀ c ∈ digits, c.isDigit = true) :
    Nat.toDigits 10 (Nat.ofDigitChars 10 digits n) = Nat.toDigits 10 n ++ digits := by
  induction digits generalizing n with
  | nil => simp
  | cons c digits ih =>
    simp only [List.forall_mem_cons] at hd
    have hdigit := toNat_of_isDigit hd.1
    have hlt : c.toNat - 48 < 10 := by omega
    calc Nat.toDigits 10 (Nat.ofDigitChars 10 digits (10 * n + (c.toNat - 48)))
        = Nat.toDigits 10 (10 * n + (c.toNat - 48)) ++ digits := ih (by omega) hd.2
      _ = Nat.toDigits 10 n ++ Nat.toDigits 10 (c.toNat - 48) ++ digits := by
        rw [Nat.toDigits_append_toDigits (by decide) hn hlt]
      _ = Nat.toDigits 10 n ++ c :: digits := by
        rw [Nat.toDigits_of_lt_base hlt, digitChar_of_isDigit hd.1]
        simp

theorem toDigits_value (h : isNumeral s = true) : Nat.toDigits 10 (value s) = s := by
  rcases isNumeral_cases h with rfl | ⟨c, rest, rfl, hc, hall⟩
  · rfl
  · simp only [List.forall_mem_cons] at hall
    have hdigit := toNat_of_isDigit hall.1
    have hne : c.toNat ≠ 48 := fun h => hc (Char.toNat_inj.mp h)
    have hvalue : value (c :: rest) = Nat.ofDigitChars 10 rest (c.toNat - 48) := by
      rw [value, Nat.ofDigitChars_cons, Nat.mul_zero, Nat.zero_add]
      rfl
    rw [hvalue, toDigits_ofDigitChars (by omega) hall.2, Nat.toDigits_of_lt_base (by omega),
      digitChar_of_isDigit hall.1]
    rfl

theorem head_toDigits {n : Nat} (hn : 0 < n) :
    ∃ c rest, Nat.toDigits 10 n = c :: rest ∧ c ≠ '0' := by
  induction n using Nat.strongRecOn with
  | ind n ih =>
    by_cases hlt : n < 10
    · have hall : ∀ n < 10, 0 < n → n.digitChar ≠ '0' := by decide
      exact ⟨_, [], Nat.toDigits_of_lt_base hlt, hall n hlt hn⟩
    · obtain ⟨c, rest, heq, hc⟩ := ih (n / 10) (by omega) (by omega)
      exact ⟨c, rest ++ [(n % 10).digitChar], by
        rw [Nat.toDigits_of_base_le (by decide) (by omega), heq]; rfl, hc⟩

theorem isNumeral_toDigits (n : Nat) : isNumeral (Nat.toDigits 10 n) = true := by
  rcases Nat.eq_zero_or_pos n with rfl | hn
  · rfl
  · obtain ⟨c, rest, heq, hc⟩ := head_toDigits hn
    rw [heq, isNumeral_cons hc, List.all_eq_true, ← heq]
    exact fun d hd => Nat.isDigit_of_mem_toDigits (by decide) (by decide) hd

theorem value_toDigits (n : Nat) : value (Nat.toDigits 10 n) = n := Nat.ofDigitChars_ten_toDigits

end Decimals
