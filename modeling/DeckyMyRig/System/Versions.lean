import DeckyMyRig.Deck.Versioning
import DeckyMyRig.Host.VersioningLaws
import DeckyMyRig.Lib.Texts

/-!
# Version relations on both sides

The host reads bounded ASCII numbers and compares their text with the input,
the Deck matches a pattern and reads numbers of any size. They agree where no
text that the pattern matches is refused by the host.
-/

namespace DeckyMyRig.System

open Octets Decimals

def Dotted (P : Text → Prop) (version : Text) : Prop :=
  ∃ major minor patch, version = major ++ '.' :: (minor ++ '.' :: patch) ∧
    P major ∧ P minor ∧ P patch

def Strict : Text → Prop := Dotted fun part => isNumeral part = true

/-- Three ASCII decimal numbers without leading zeros, each below `2^64`. -/
def Fits : Text → Prop := Dotted fun part => isNumeral part = true ∧ value part < 2 ^ 64

/-- What the Deck's pattern matches: the digits after the first may be those of
any script. -/
def Matches (L : Deck.Libraries) : Text → Prop :=
  Dotted fun part => Deck.isVersionNumber L part = true

def relationOf : Host.VersionRelation → Deck.VersionRelation
  | .compatible => .compatible
  | .updateHost => .updateHost
  | .updatePlugin => .updatePlugin
  | .incompatible => .incompatible
  | .unknown => .unknown

/-- Both sides return one relation, and it is a known one where both texts are
strict versions. -/
structure SameRelation (L : Deck.Libraries) (plugin host : Text) : Prop where
  agree : Deck.compareVersions L plugin host = .ok (relationOf (Host.compareVersions plugin host))
  known : Host.compareVersions plugin host ≠ .unknown ↔ Strict plugin ∧ Strict host

theorem Dotted.imp {P Q : Text → Prop} (hPQ : ∀ part, P part → Q part) (h : Dotted P version) :
    Dotted Q version := by
  obtain ⟨major, minor, patch, heq, hmajor, hminor, hpatch⟩ := h
  exact ⟨major, minor, patch, heq, hPQ _ hmajor, hPQ _ hminor, hPQ _ hpatch⟩

-- ---------------------------------------------------------------------------
-- The host
-- ---------------------------------------------------------------------------

theorem fits_iff : Fits version ↔ ∃ v : Host.Version, v.text = version := by
  constructor
  · rintro ⟨major, minor, patch, rfl, hmajor, hminor, hpatch⟩
    have hpart : ∀ part, isNumeral part = true ∧ value part < 2 ^ 64 →
        Host.u64Text (UInt64.ofNat (value part)) = part := by
      intro part h
      rw [Host.u64Text_eq, UInt64.toNat_ofNat_of_lt' h.2, toDigits_value h.1]
    refine ⟨⟨.ofNat (value major), .ofNat (value minor), .ofNat (value patch)⟩, ?_⟩
    rw [Host.Version.text, hpart major hmajor, hpart minor hminor,
      hpart patch hpatch, List.append_assoc]
    rfl
  · rintro ⟨v, rfl⟩
    have hpart : ∀ n : UInt64, isNumeral (Host.u64Text n) = true ∧
    value (Host.u64Text n) < 2 ^ 64 := by
      intro n
      rw [Host.u64Text_eq, value_toDigits]
      exact ⟨isNumeral_toDigits _, n.toNat_lt⟩
    refine ⟨_, _, _, ?_, hpart v.major, hpart v.minor, hpart v.patch⟩
    rw [Host.Version.text, List.append_assoc]
    rfl

theorem host_compareVersions_ne_unknown :
    Host.compareVersions plugin host ≠ .unknown ↔ Fits plugin ∧ Fits host := by
  have hfits : ∀ version, Fits version ↔ (Host.parseVersion version).isSome = true := by
    intro version
    rw [fits_iff, Option.isSome_iff_exists]
    simp only [Host.parseVersion_eq_some]
  rw [hfits, hfits, Host.compareVersions]
  cases Host.parseVersion plugin with
  | none => simp
  | some plugin =>
    cases Host.parseVersion host with
    | none => simp
    | some host =>
      simp only [Option.isSome_some, and_self, iff_true]
      split_ifs <;> simp

-- ---------------------------------------------------------------------------
-- The Deck
-- ---------------------------------------------------------------------------

section
variable {L : Deck.Libraries}

theorem digit_of_isDigit {c : Char} (h : c.isDigit = true) : L.digit c = some (c.toNat - 48) := by
  simp [Deck.Libraries.digit, h]

theorem isVersionNumber_cases (h : Deck.isVersionNumber L part = true) :
    part = ['0'] ∨ ∃ c rest, part = c :: rest ∧ (c.isDigit = true ∧ c ≠ '0') ∧
      ∀ d ∈ rest, (L.digit d).isSome = true := by
  unfold Deck.isVersionNumber at h
  split at h
  · exact .inl rfl
  · simp only [Bool.and_eq_true, decide_eq_true_eq, List.all_eq_true] at h
    exact .inr ⟨_, _, rfl, isDigit_ne_zero_iff.mpr h.1, h.2⟩
  · cases h

theorem isVersionNumber_of_isNumeral (h : isNumeral part = true) :
    Deck.isVersionNumber L part = true := by
  rcases isNumeral_cases h with rfl | ⟨c, rest, rfl, hc, hall⟩
  · rfl
  · simp only [List.forall_mem_cons] at hall
    have hrest : ∀ d ∈ rest, (L.digit d).isSome = true := fun d hd => by
      rw [digit_of_isDigit (hall.2 d hd)]
      rfl
    have hfirst := isDigit_ne_zero_iff.mp ⟨hall.1, hc⟩
    simpa [Deck.isVersionNumber, hc, hfirst.1, hfirst.2] using hrest

theorem dot_not_mem (h : Deck.isVersionNumber L part = true) : '.' ∉ part := by
  rcases isVersionNumber_cases h with rfl | ⟨c, rest, rfl, hc, hrest⟩
  · decide
  · intro hmem
    rcases List.mem_cons.mp hmem with rfl | hmem
    · cases hc.1
    · cases hrest '.' hmem

theorem versionGroups_of_numbers (hmajor : Deck.isVersionNumber L major = true)
    (hminor : Deck.isVersionNumber L minor = true) (hpatch : Deck.isVersionNumber L patch = true) :
    Deck.versionGroups L (major ++ '.' :: (minor ++ '.' :: patch)) =
      some (major, minor, patch) := by
  unfold Deck.versionGroups
  rw [List.splitOn_append_cons_self_of_not_mem (dot_not_mem hmajor),
    List.splitOn_append_cons_self_of_not_mem (dot_not_mem hminor), List.splitOn_eq_singleton
      (dot_not_mem hpatch)]
  simp [hmajor, hminor, hpatch]

theorem matches_iff : Matches L version ↔ (Deck.versionGroups L version).isSome = true := by
  constructor
  · rintro ⟨major, minor, patch, rfl, hmajor, hminor, hpatch⟩
    rw [versionGroups_of_numbers hmajor hminor hpatch]
    rfl
  · intro h
    have hjoin : List.intercalate ['.'] (version.splitOn '.') = version :=
      List.intercalate_splitOn '.'
    unfold Deck.versionGroups at h
    split at h
    · rename_i major minor patch heq
      split at h
      · rename_i hparts
        simp only [Bool.and_eq_true] at hparts
        rw [heq, Texts.intercalate_cons_cons, Texts.intercalate_cons_cons,
          Texts.intercalate_singleton] at hjoin
        exact ⟨major, minor, patch, hjoin.symm, hparts.1.1, hparts.1.2, hparts.2⟩
      · cases h
    · cases h

theorem deck_compareVersions_ne_unknown (hplugin : Matches L plugin) (hhost : Matches L host) :
    Deck.compareVersions L plugin host ≠ .ok .unknown := by
  obtain ⟨pluginGroups, hplugin⟩ := Option.isSome_iff_exists.mp (matches_iff.mp hplugin)
  obtain ⟨hostGroups, hhost⟩ := Option.isSome_iff_exists.mp (matches_iff.mp hhost)
  simp only [Deck.compareVersions, hplugin, hhost]
  cases Deck.versionParts L pluginGroups with
  | error e => simp [Bind.bind, Except.bind]
  | ok plugin =>
    cases Deck.versionParts L hostGroups with
    | error e => simp [Bind.bind, Except.bind]
    | ok host =>
      simp only [Bind.bind, Except.bind]
      split_ifs <;> simp

theorem versionInt_u64Text (n : UInt64) : Deck.versionInt L (Host.u64Text n) = .ok n.toNat := by
  have hdigit := isDigit_of_isNumeral (isNumeral_toDigits n.toNat)
  have hlength : ¬ (Nat.toDigits 10 n.toNat).length > Deck.maxStrDigits := by
    have : (Nat.toDigits 10 n.toNat).length ≤ 20 :=
      (Nat.length_toDigits_le_iff (by decide) (by decide)).mpr (n.toNat_lt.trans (by decide))
    exact Nat.not_lt.mpr (this.trans (by decide))
  have hfold : (Nat.toDigits 10 n.toNat).foldl
      (fun n c => 10 * n + (L.digit c).getD 0) 0 = n.toNat := by
    conv_rhs => rw [← value_toDigits n.toNat]
    rw [value, Nat.ofDigitChars_eq_foldl]
    refine List.foldl_ext _ _ _ fun n c hc => ?_
    rw [digit_of_isDigit (hdigit c hc)]
    rfl
  rw [Host.u64Text_eq, Deck.versionInt, if_neg hlength, hfold]

theorem versionGroups_text (v : Host.Version) :
    Deck.versionGroups L v.text = some (Host.u64Text v.major, Host.u64Text v.minor,
      Host.u64Text v.patch) := by
  have hpart : ∀ n, Deck.isVersionNumber L (Host.u64Text n) = true := fun n => by
    rw [Host.u64Text_eq]
    exact isVersionNumber_of_isNumeral (isNumeral_toDigits _)
  rw [Host.Version.text, List.append_assoc]
  exact versionGroups_of_numbers (hpart _) (hpart _) (hpart _)

theorem compareVersions_text (plugin host : Host.Version) :
    Deck.compareVersions L plugin.text host.text =
      .ok (relationOf (Host.compareVersions plugin.text host.text)) := by
  have hplugin := Host.parseVersion_eq_some.mpr (rfl : plugin.text = plugin.text)
  have hhost := Host.parseVersion_eq_some.mpr (rfl : host.text = host.text)
  have hmajor : plugin.major.toNat = host.major.toNat ↔ plugin.major = host.major :=
    UInt64.toNat_inj
  simp only [Deck.compareVersions, Host.compareVersions, versionGroups_text, hplugin,
    hhost, Deck.versionParts,
    versionInt_u64Text, Bind.bind, Except.bind, ne_eq, hmajor, gt_iff_lt, UInt64.lt_iff_toNat_lt]
  split_ifs <;> rfl

end

/-- Both sides return one relation, known exactly for two strict versions,
unless the pattern matches both texts and the host refuses one of them. -/
theorem same_relation_iff (L : Deck.Libraries) (plugin host : Text) :
    SameRelation L plugin host ↔ (Matches L plugin → Matches L host → Fits plugin ∧ Fits host) := by
  have hmatches : ∀ version, Strict version → Matches L version := fun version =>
    Dotted.imp fun part => isVersionNumber_of_isNumeral
  have hstrict : ∀ version, Fits version → Strict version :=
    fun version => Dotted.imp fun part h => h.1
  constructor
  · rintro ⟨hagree, -⟩ hplugin hhost
    refine host_compareVersions_ne_unknown.mp ?_
    intro hunknown
    rw [hunknown] at hagree
    exact deck_compareVersions_ne_unknown hplugin hhost hagree
  · intro h
    by_cases hboth : Matches L plugin ∧ Matches L host
    · obtain ⟨hplugin, hhost⟩ := h hboth.1 hboth.2
      refine ⟨?_, iff_of_true (host_compareVersions_ne_unknown.mpr ⟨hplugin, hhost⟩)
        ⟨hstrict _ hplugin, hstrict _ hhost⟩⟩
      obtain ⟨plugin, rfl⟩ := fits_iff.mp hplugin
      obtain ⟨host, rfl⟩ := fits_iff.mp hhost
      exact compareVersions_text plugin host
    · -- the Deck does not know the relation, and the host knows fewer
      have hunknown : Host.compareVersions plugin host = .unknown := by
        by_contra hne
        obtain ⟨hplugin, hhost⟩ := host_compareVersions_ne_unknown.mp hne
        exact hboth ⟨hmatches _ (hstrict _ hplugin), hmatches _ (hstrict _ hhost)⟩
      refine ⟨?_, iff_of_false (not_not.mpr hunknown) fun hs =>
        hboth ⟨hmatches _ hs.1, hmatches _ hs.2⟩⟩
      rw [hunknown, matches_iff, matches_iff] at *
      unfold Deck.compareVersions
      split
      · rename_i hplugin hhost
        exact absurd (by simp [hplugin, hhost]) hboth
      · rfl

/-- A number of 64 bits and one: the host does not read it. -/
theorem relation_differs_at_large_major :
    Host.compareVersions "1.0.0".toList "18446744073709551616.0.0".toList = .unknown ∧
      Deck.compareVersions .sample "1.0.0".toList "18446744073709551616.0.0".toList =
        .ok .incompatible ∧
      ¬ SameRelation .sample "1.0.0".toList "18446744073709551616.0.0".toList := by
  have hhost : Host.compareVersions "1.0.0".toList "18446744073709551616.0.0".toList =
      .unknown := by
    decide
  have hdeck : Deck.compareVersions .sample "1.0.0".toList "18446744073709551616.0.0".toList =
      .ok .incompatible := by rfl
  refine ⟨hhost, hdeck, ?_⟩
  rintro ⟨hagree, -⟩
  rw [hhost, hdeck] at hagree
  cases hagree

end DeckyMyRig.System
