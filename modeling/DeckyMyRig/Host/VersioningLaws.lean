import DeckyMyRig.Host.Versioning
import DeckyMyRig.Lib.Decimals

/-!
# Texts that `parse` accepts

Comparing the text of the parsed numbers with the input leaves one text for
each version.
-/

namespace DeckyMyRig.Host

open Octets Decimals

theorem foldlM_digits {digits : List Char} {n : Nat} (hd : ∀ c ∈ digits, c.isDigit = true)
    (h : Nat.ofDigitChars 10 digits n < 2 ^ 64) :
    digits.foldlM (fun n c => if c.isDigit ∧ n * 10 + (c.toNat - 48) < 2 ^ 64
      then some (n * 10 + (c.toNat - 48)) else none) n = some (Nat.ofDigitChars 10 digits n) := by
  induction digits generalizing n with
  | nil => rfl
  | cons c digits ih =>
    simp only [List.forall_mem_cons] at hd
    have hstep : Nat.ofDigitChars 10 (c :: digits) n = Nat.ofDigitChars 10 digits
        (n * 10 + (c.toNat - 48)) := by
      rw [Nat.mul_comm]
      rfl
    rw [hstep] at h ⊢
    have hlt := Nat.lt_of_le_of_lt (le_ofDigitChars digits _) h
    rw [List.foldlM_cons, if_pos ⟨hd.1, hlt⟩]
    exact ih hd.2 h

theorem u64Text_eq (n : UInt64) : u64Text n = Nat.toDigits 10 n.toNat :=
  toString_toList n.toNat

theorem parseU64_toDigits (n : UInt64) : parseU64 (Nat.toDigits 10 n.toNat) = some n := by
  have hdigit := isDigit_of_isNumeral (isNumeral_toDigits n.toNat)
  have hvalue := value_toDigits n.toNat
  have hhead : (Nat.toDigits 10 n.toNat).head? ≠ some '+' := by
    intro h
    have := hdigit '+' (List.mem_of_mem_head? h)
    cases this
  rw [parseU64]
  simp only [if_neg hhead]
  rw [value] at hvalue
  rw [if_neg (by simp [Nat.toDigits_ne_nil]), foldlM_digits hdigit
    (by rw [hvalue]; exact n.toNat_lt), hvalue]
  simp

theorem dot_not_mem_u64Text (n : UInt64) : '.' ∉ u64Text n := by
  rw [u64Text_eq]
  intro h
  have := isDigit_of_isNumeral (isNumeral_toDigits n.toNat) '.' h
  cases this

theorem splitOn_text (v : Version) :
    v.text.splitOn '.' = [u64Text v.major, u64Text v.minor, u64Text v.patch] := by
  rw [Version.text, List.append_assoc, List.cons_append,
    List.splitOn_append_cons_self_of_not_mem (dot_not_mem_u64Text _),
    List.splitOn_append_cons_self_of_not_mem (dot_not_mem_u64Text _),
    List.splitOn_eq_singleton (dot_not_mem_u64Text _)]

theorem parseVersion_eq_some {version : Text} {v : Version} :
    parseVersion version = some v ↔ v.text = version := by
  constructor
  · intro h
    unfold parseVersion at h
    split at h
    · obtain ⟨major, -, h⟩ := Option.bind_eq_some_iff.mp h
      obtain ⟨minor, -, h⟩ := Option.bind_eq_some_iff.mp h
      obtain ⟨patch, -, h⟩ := Option.bind_eq_some_iff.mp h
      simp only at h
      split at h
      · cases h
      · cases h
        exact not_not.mp ‹_›
    · cases h
  · rintro rfl
    unfold parseVersion
    rw [splitOn_text]
    simp only [u64Text_eq, parseU64_toDigits]
    simp

example :
    parseVersion "1.2.3".toList = some ⟨1, 2, 3⟩ ∧ parseVersion "v1.2.3".toList = none := by decide

end DeckyMyRig.Host
