import DeckyMyRig.Deck.Documents
import DeckyMyRig.Lib.Decimals
import Mathlib.Tactic.IntervalCases

/-!
# Validators are fixed on their own output

What a validator returns, it returns again, as the text or number that the
settings document holds for it.
-/

namespace DeckyMyRig.Deck

open Octets Texts

-- ---------------------------------------------------------------------------
-- Characters
-- ---------------------------------------------------------------------------

def hexChars : Text := "0123456789abcdefABCDEF".toList

theorem mem_hexChars (h : isHex c = true) : c ∈ hexChars := by
  have hc : c = Char.ofNat c.toNat := (Char.ofNat_toNat c).symm
  unfold isHex hexValue at h
  simp only [Char.le_def, UInt32.le_iff_toNat_le] at h
  have hn : c.val.toNat = c.toNat := rfl
  rw [hn] at h
  generalize c.toNat = n at hc h
  subst hc
  split at h
  · rename_i hr
    obtain ⟨h1, h2⟩ : 48 ≤ n ∧ n ≤ 57 := hr
    interval_cases n <;> decide
  · split at h
    · rename_i hr
      obtain ⟨h1, h2⟩ : 97 ≤ n ∧ n ≤ 102 := hr
      interval_cases n <;> decide
    · split at h
      · rename_i hr
        obtain ⟨h1, h2⟩ : 65 ≤ n ∧ n ≤ 70 := hr
        interval_cases n <;> decide
      · cases h

theorem upper_hex (h : isHex c = true) :
    isHex c.toUpper = true ∧ c.toUpper.toUpper = c.toUpper ∧
      (!(c.toUpper = '-' || c.toUpper = ':' || c.toUpper = '.' || isSpace c.toUpper)) = true := by
  have hall : (hexChars.all fun c => isHex c.toUpper = true ∧ c.toUpper.toUpper = c.toUpper ∧
      (!(c.toUpper = '-' || c.toUpper = ':' || c.toUpper = '.' || isSpace c.toUpper)) = true) =
        true := by
    decide +kernel
  exact of_decide_eq_true (List.all_eq_true.mp hall c (mem_hexChars h))

theorem alphanum_range {c : Char} (h : c.isAlphanum = true) : 48 ≤ c.toNat ∧ c.toNat ≤ 122 := by
  rcases Bool.or_eq_true_iff.mp h with halpha | hdigit
  · rcases Bool.or_eq_true_iff.mp halpha with hupper | hlower
    · obtain ⟨h1, h2⟩ := of_decide_eq_true hupper
      have h1 : 65 ≤ c.toNat := UInt32.le_iff_toNat_le.mp h1
      have h2 : c.toNat ≤ 90 := UInt32.le_iff_toNat_le.mp h2
      omega
    · obtain ⟨h1, h2⟩ := Bool.and_eq_true_iff.mp hlower
      have h1 : 97 ≤ c.toNat := UInt32.le_iff_toNat_le.mp (of_decide_eq_true h1)
      have h2 : c.toNat ≤ 122 := UInt32.le_iff_toNat_le.mp (of_decide_eq_true h2)
      omega
  · obtain ⟨h1, h2⟩ := Decimals.toNat_of_isDigit hdigit
    omega

theorem isSpace_of_range {c : Char} (h : 33 ≤ c.toNat) (h' : c.toNat ≤ 126) :
    isSpace c = false := by
  unfold isSpace
  simp only [Bool.or_eq_false_iff, Bool.and_eq_false_iff, decide_eq_false_iff_not]
  omega

theorem isSpace_digit {c : Char} (h : c.isDigit = true) : isSpace c = false := by
  obtain ⟨h1, h2⟩ := Decimals.toNat_of_isDigit h
  exact isSpace_of_range (by omega) (by omega)

-- ---------------------------------------------------------------------------
-- Hardware addresses
-- ---------------------------------------------------------------------------

theorem normalizeMac_fixed (h : normalizeMac value = .ok mac) : normalizeMac mac = .ok mac := by
  unfold normalizeMac at h
  split at h
  · rename_i a b c d e f g i j k l m _
    split at h
    · rename_i hall
      simp only [List.all_cons, List.all_nil, Bool.and_true, Bool.and_eq_true] at hall
      obtain ⟨ha, hb, hc, hd, he, hf, hg, hi, hj, hk, hl, hm⟩ := hall
      cases h
      have hcompact : compactMac [a.toUpper, b.toUpper, ':', c.toUpper, d.toUpper, ':', e.toUpper,
          f.toUpper, ':', g.toUpper, i.toUpper, ':', j.toUpper, k.toUpper, ':',
            l.toUpper, m.toUpper] =
          [a.toUpper, b.toUpper, c.toUpper, d.toUpper, e.toUpper, f.toUpper, g.toUpper, i.toUpper,
            j.toUpper, k.toUpper, l.toUpper, m.toUpper] := by
        unfold compactMac
        simp only [List.filter_cons, upper_hex ha, upper_hex hb, upper_hex hc,
          upper_hex hd, upper_hex he,
          upper_hex hf, upper_hex hg, upper_hex hi, upper_hex hj, upper_hex hk,
            upper_hex hl, upper_hex hm]
        rfl
      unfold normalizeMac
      rw [hcompact]
      simp only [List.all_cons, List.all_nil, upper_hex ha, upper_hex hb,
        upper_hex hc, upper_hex hd,
        upper_hex he, upper_hex hf, upper_hex hg, upper_hex hi, upper_hex hj, upper_hex hk,
        upper_hex hl, upper_hex hm, Bool.and_true, ↓reduceIte]
    · cases h
  · cases h

-- ---------------------------------------------------------------------------
-- Ports
-- ---------------------------------------------------------------------------

theorem pyDigits_of_isDigit (hne : digits ≠ []) (h : ∀ c ∈ digits, c.isDigit = true) :
    pyDigits digits = some digits := by
  induction digits with
  | nil => exact absurd rfl hne
  | cons c rest ih =>
    have hc := h c List.mem_cons_self
    cases rest with
    | nil => simp [pyDigits, hc]
    | cons d rest =>
      have hd := h d (by simp)
      have hne' : d ≠ '_' := by
        rintro rfl
        cases hd
      have ih := ih (by simp) fun x hx => h x (List.mem_cons_of_mem _ hx)
      rw [pyDigits]
      · simp [hc, ih]
      · simp
      · exact fun _ heq => hne' (List.cons.inj heq).1

theorem toString_nat (n : Nat) : (toString (n : Int)).toList = Nat.toDigits 10 n := by
  show (Nat.repr n).toList = _
  exact Decimals.toString_toList n

theorem isIntSpace_digit (h : c.isDigit = true) : isIntSpace c = false := by
  rw [isIntSpace, isSpace_digit h, Bool.false_and]

theorem pyInt_toDigits (n : Nat) : pyInt (Nat.toDigits 10 n) = some (n : Int) := by
  have hdigit : ∀ c ∈ Nat.toDigits 10 n, c.isDigit = true := fun c hc =>
    Nat.isDigit_of_mem_toDigits (by decide) (by decide) hc
  have hne : Nat.toDigits 10 n ≠ [] := Nat.toDigits_ne_nil
  have hstrip : strip isIntSpace (Nat.toDigits 10 n) = Nat.toDigits 10 n :=
    strip_of_none fun c hc => isIntSpace_digit (hdigit c hc)
  unfold pyInt
  rw [hstrip]
  split
  · rename_i heq
    have := hdigit '-' (by simp [heq])
    cases this
  · rename_i heq
    have := hdigit '+' (by simp [heq])
    cases this
  · rw [pyDigits_of_isDigit hne hdigit]
    simp [Nat.ofDigitChars_toDigits]

theorem validatePort_range (h : validatePort py value d = .ok port) : 1 ≤ port ∧ port ≤ 65535 := by
  unfold validatePort at h
  split at h
  · cases h
    exact ⟨by decide, by decide⟩
  · split at h
    · cases h
    · split at h
      · cases h
      · split at h
        · cases h
        · rename_i hr
          cases h
          omega

theorem validatePort_fixed (h : 1 ≤ port ∧ port ≤ 65535) :
    validatePort py (.int (port : Nat)) d = .ok port := by
  have hdigit : ∀ c ∈ Nat.toDigits 10 port, isSpace c = false := fun c hc =>
    isSpace_digit (Nat.isDigit_of_mem_toDigits (by decide) (by decide) hc)
  have hr : ¬ (strip isSpace (Nat.toDigits 10 port) ≠ (toString (port : Int)).toList ∨
      ¬ (1 ≤ (port : Int) ∧ (port : Int) ≤ 65535)) := by
    rw [strip_of_none hdigit, toString_nat]
    rintro (hne | hrange)
    · exact hne rfl
    · omega
  unfold validatePort
  simp only [Json.isUnset, Bool.false_and, Bool.false_eq_true, ↓reduceIte, Python.str, toString_nat,
    pyInt_toDigits]
  rw [toString_nat] at hr
  rw [if_neg hr, Int.toNat_natCast]

-- ---------------------------------------------------------------------------
-- Addresses
-- ---------------------------------------------------------------------------

theorem mem_splitOn {c : Char} {value : Text} (h : c ∈ value) :
    c = '.' ∨ ∃ part ∈ value.splitOn '.', c ∈ part := by
  have hjoin : List.intercalate ['.'] (value.splitOn '.') = value := List.intercalate_splitOn '.'
  rw [← hjoin] at h
  exact mem_intercalate h

theorem isIPv4_digits (h : isIPv4 value = true) (hc : c ∈ value) : c = '.' ∨ c.isDigit = true := by
  simp only [isIPv4, Bool.and_eq_true, List.all_eq_true] at h
  refine (mem_splitOn hc).imp_right ?_
  rintro ⟨octet, ho, hc⟩
  have hoct := h.2 octet ho
  simp only [isOctet, Bool.and_eq_true, List.all_eq_true] at hoct
  exact hoct.1.1.1.2 c hc

theorem isIPv4_isSpace (h : isIPv4 value = true) (hc : c ∈ value) : isSpace c = false := by
  rcases isIPv4_digits h hc with rfl | hd
  · rfl
  · exact isSpace_digit hd

theorem isIPv4_ne_nil (h : isIPv4 value = true) : value ≠ [] := by
  rintro rfl
  cases h

theorem isLabel_isAlphanum (h : isLabel label = true) (hc : label.getLast? = some c) :
    c.isAlphanum = true := by
  simp only [isLabel, Bool.and_eq_true] at h
  have hlast := h.1.2
  rw [hc] at hlast
  exact hlast

theorem isLabel_ne_nil (h : isLabel label = true) : label ≠ [] := by
  rintro rfl
  cases h

theorem labels_ne_nil (h : (value.splitOn '.').all isLabel = true) : value ≠ [] := by
  rintro rfl
  cases h

theorem labels_removeDot (h : (value.splitOn '.').all isLabel = true) :
    removeDot value = value := by
  rw [List.all_eq_true] at h
  unfold removeDot
  split
  · rename_i hdot
    have hjoin : List.intercalate ['.'] (value.splitOn '.') = value := List.intercalate_splitOn '.'
    rw [← hjoin] at hdot
    obtain ⟨label, hl, hc⟩ := getLast_intercalate (fun l hl => isLabel_ne_nil (h l hl)) hdot
    cases isLabel_isAlphanum (h label hl) hc
  · rfl

theorem mem_of_mem_removeDot (h : c ∈ removeDot value) : c ∈ value := by
  unfold removeDot at h
  split at h
  · exact List.dropLast_subset value h
  · exact h

theorem length_removeDot_le (value : Text) : (removeDot value).length ≤ value.length := by
  unfold removeDot
  split
  · simp
  · exact Nat.le_refl _

theorem strOr_str (py : Python) (h : value ≠ []) : py.strOr (.str value) = value := by
  cases value with
  | nil => exact absurd rfl h
  | cons c value => rfl

theorem validateAddress_text (py : Python) (hne : address ≠ []) (hlen : address.length ≤ 253)
    (hspace : ∀ c ∈ address, isSpace c = false)
    (h : isIPv4 address = true ∨ (address.splitOn '.').all isLabel = true) :
    validateAddress py (.str address) = .ok address := by
  have hcond : ¬ (address.isEmpty = true ∨ address.length > 253 ∨ address.any isSpace = true) := by
    rintro (hempty | hlong | hany)
    · exact hne (List.isEmpty_iff.mp hempty)
    · omega
    · obtain ⟨c, hc, hs⟩ := List.any_eq_true.mp hany
      rw [hspace c hc] at hs
      cases hs
  unfold validateAddress
  simp only [strOr_str py hne, strip_of_none hspace]
  rw [if_neg hcond]
  split
  · rfl
  · rename_i hip
    have hlabels := h.resolve_left hip
    rw [labels_removeDot hlabels, if_pos hlabels]

theorem validateAddress_fixed (h : validateAddress py value = .ok address) :
    validateAddress py (.str address) = .ok address := by
  unfold validateAddress at h
  simp only at h
  split at h
  · cases h
  · rename_i hcond
    simp only [not_or, Nat.not_lt, Bool.not_eq_true, List.any_eq_false] at hcond
    obtain ⟨-, hlen, hspace⟩ := hcond
    split at h
    · rename_i hip
      cases h
      exact validateAddress_text py (isIPv4_ne_nil hip) hlen
        (fun c hc => by simpa using hspace c hc)
        (.inl hip)
    · split at h
      · rename_i hlabels
        cases h
        refine validateAddress_text py (labels_ne_nil hlabels) ((length_removeDot_le _).trans hlen)
          (fun c hc => ?_) (.inr hlabels)
        simpa using hspace c (mem_of_mem_removeDot hc)
      · cases h

theorem validateBroadcast_fixed (h : validateBroadcast py value = .ok broadcast) :
    validateBroadcast py (broadcastJson broadcast) = .ok broadcast := by
  unfold validateBroadcast at h
  simp only at h
  split at h
  · cases h
    rfl
  · split at h
    · rename_i hip
      cases h
      have hne := isIPv4_ne_nil hip
      unfold validateBroadcast broadcastJson
      simp only [strOr_str py hne, strip_of_none fun c hc => isIPv4_isSpace hip hc, hip]
      rw [if_neg (by simpa using hne)]
      rfl
    · cases h

end DeckyMyRig.Deck
