import DeckyMyRig.Host.Config
import DeckyMyRig.Installer.ReadPort
import DeckyMyRig.Lib.Lists

/-!
# Firewall and listener

The installer reads the port line by line, the host reads TOML. They agree on a
document that the host accepts if it has the default port, or names the port by
a bare key and writes it as an integer literal of the installer's, with nothing
after it.
-/

namespace DeckyMyRig.System

open Octets Texts Toml Installer

def readable (zeroX : Bool) (digits : Text) : Bool :=
  !digits.contains '_' &&
    match radix digits with
    | none => true
    | some (16, _) => zeroX
    | some _ => false

/-- An assignment that the installer reads as the host does. -/
def plain (zeroX : Bool) (entry : Entry) : Bool :=
  entry.key.bare && !entry.comment && readable zeroX entry.digits

-- ---------------------------------------------------------------------------
-- Numbers
-- ---------------------------------------------------------------------------

def isNumeric (c : Char) : Bool :=
  isDigitIn 16 c || c = '+' || c = '-' || c = '$' || c = 'x' || c = 'X'

theorem natural_eq_some (h : natural base digits = some n) :
    ∀ c ∈ digits, isDigitIn base c = true := by
  obtain ⟨hdigits, -⟩ := Option.ite_none_right_eq_some.mp h
  rw [Bool.and_eq_true, List.all_eq_true] at hdigits
  exact hdigits.2

theorem hexadecimal_chars (h : hexadecimal digits = some v) : ∀ c ∈ digits, isNumeric c = true := by
  unfold hexadecimal at h
  split at h
  · rename_i hn
    intro c hc
    simp [isNumeric, natural_eq_some hn c hc]
  · cases h

theorem decimal_chars (h : decimal limit digits = some v) :
    ∀ c ∈ digits, isDigitIn 10 c = true := by
  unfold decimal at h
  split at h
  · rename_i hn
    exact natural_eq_some hn
  · cases h

theorem magnitude_chars (h : magnitude zeroX limit s = some v) : ∀ c ∈ s, isNumeric c = true := by
  have hdecimal {digits : Text} (h : decimal limit digits = some v) : ∀ c ∈ digits,
      isNumeric c = true := by
    intro c hc
    simp [isNumeric, isDigitIn_le (decimal_chars h c hc) (by decide : 10 ≤ 16)]
  unfold magnitude at h
  split at h
  · intro c hc
    rcases List.mem_cons.mp hc with rfl | hc
    · rfl
    · exact hexadecimal_chars h c hc
  · split at h
    · rename_i x digits hx
      intro c hc
      simp only [Bool.and_eq_true, Bool.or_eq_true, decide_eq_true_eq] at hx
      simp only [List.mem_cons] at hc
      rcases hc with rfl | rfl | hc
      · rfl
      · rcases hx.2 with rfl | rfl <;> rfl
      · exact hexadecimal_chars h c hc
    · exact hdecimal h
  · exact hdecimal h

theorem strToInt_chars (h : strToInt zeroX s = some v) : ∀ c ∈ s, isNumeric c = true := by
  unfold strToInt at h
  split at h
  · intro c hc
    rcases List.mem_cons.mp hc with rfl | hc
    · rfl
    · exact magnitude_chars h c hc
  · obtain ⟨w, hw, -⟩ := Option.map_eq_some_iff.mp h
    intro c hc
    rcases List.mem_cons.mp hc with rfl | hc
    · rfl
    · exact magnitude_chars hw c hc
  · exact magnitude_chars h

theorem strToInt_eq_none (hc : c ∈ s) (h : isNumeric c = false) : strToInt zeroX s = none := by
  cases hs : strToInt zeroX s with
  | none => rfl
  | some v =>
    rw [strToInt_chars hs c hc] at h
    cases h

theorem natural_grouped (h : grouped base digits = some ds) (hplain : '_' ∉ digits) :
    natural base digits = some (number base ds) := by
  obtain ⟨hne, hchars⟩ := grouped_chars h
  obtain rfl := grouped_plain h hplain
  refine if_pos ?_
  rw [Bool.and_eq_true, List.all_eq_true]
  refine ⟨by simpa using hne, fun c hc => (hchars c hc).resolve_right ?_⟩
  rintro rfl
  exact hplain hc

theorem magnitude_decimal (h : ∀ c ∈ digits, isDigitIn 10 c = true) :
    magnitude zeroX limit digits = decimal limit digits := by
  unfold magnitude
  split
  · have hdollar := h '$' List.mem_cons_self
    cases hdollar
  · rename_i x digits
    refine if_neg fun hx => ?_
    have hdigit := h x (by simp)
    simp only [Bool.and_eq_true, Bool.or_eq_true, decide_eq_true_eq] at hx
    rcases hx.2 with rfl | rfl <;> cases hdigit
  · rfl

theorem magnitude_unsigned (h : unsigned digits = some n)
    (hplain : '_' ∉ digits) (hle : n ≤ limit) :
    magnitude zeroX limit digits = some (n : Int) := by
  obtain ⟨-, h⟩ := Option.ite_none_left_eq_some.mp h
  obtain ⟨ds, hds, rfl⟩ := Option.map_eq_some_iff.mp h
  have hnatural := natural_grouped hds hplain
  rw [magnitude_decimal (natural_eq_some hnatural), decimal, hnatural]
  exact if_pos hle

theorem radix_eq_some (h : radix s = some (base, digits)) :
    ∃ letter, s = '0' :: letter :: digits ∧
      (letter = 'x' ∧ base = 16 ∨ letter = 'o' ∧ base = 8 ∨ letter = 'b' ∧ base = 2) := by
  unfold radix at h
  split at h
  · cases h
    exact ⟨_, rfl, .inl ⟨rfl, rfl⟩⟩
  · cases h
    exact ⟨_, rfl, .inr (.inl ⟨rfl, rfl⟩)⟩
  · cases h
    exact ⟨_, rfl, .inr (.inr ⟨rfl, rfl⟩)⟩
  · cases h

theorem strToInt_signed (h : signed digits = some v) (hplain : '_' ∉ digits) (hlow : 1 ≤ v)
    (hhigh : v ≤ 65535) :
    strToInt zeroX digits = some v := by
  unfold signed at h
  split at h
  · obtain ⟨n, hn, rfl⟩ := Option.map_eq_some_iff.mp h
    exact magnitude_unsigned hn (fun hmem => hplain (List.mem_cons_of_mem _ hmem)) (by omega)
  · obtain ⟨n, -, rfl⟩ := Option.map_eq_some_iff.mp h
    omega
  · rename_i hplus hminus
    obtain ⟨n, hn, rfl⟩ := Option.map_eq_some_iff.mp h
    unfold strToInt
    split
    · exact absurd rfl (hplus _)
    · exact absurd rfl (hminus _)
    · exact magnitude_unsigned hn hplain (by omega)

theorem strToInt_readable (h : integer digits = some v) (hread : readable zeroX digits = true)
    (hlow : 1 ≤ v) (hhigh : v ≤ 65535) : strToInt zeroX digits = some v := by
  obtain ⟨h, -⟩ := Option.filter_eq_some_iff.mp h
  rw [readable, Bool.and_eq_true, Bool.not_eq_true', List.contains_eq_mem,
    decide_eq_false_iff_not] at hread
  obtain ⟨hplain, hform⟩ := hread
  cases hradix : radix digits with
  | none =>
    rw [hradix] at h
    exact strToInt_signed h hplain hlow hhigh
  | some found =>
    obtain ⟨base, ds⟩ := found
    rw [hradix] at h hform
    obtain ⟨letter, rfl, ⟨rfl, rfl⟩ | ⟨rfl, rfl⟩ | ⟨rfl, rfl⟩⟩ := radix_eq_some hradix
    · obtain rfl : zeroX = true := hform
      obtain ⟨number, hds, rfl⟩ := Option.map_eq_some_iff.mp h
      have hnatural := natural_grouped hds fun hmem => hplain (by simp [hmem])
      have hhex : strToInt true ('0' :: 'x' :: ds) = hexadecimal ds := rfl
      rw [hhex, hexadecimal, hnatural]
      exact if_pos (by omega)
    · cases hform
    · cases hform

theorem strToInt_unreadable (h : integer digits = some v) (hread : readable zeroX digits = false) :
    strToInt zeroX digits = none := by
  by_cases hplain : '_' ∈ digits
  · exact strToInt_eq_none hplain rfl
  · simp only [readable, List.contains_eq_mem, hplain, decide_false, Bool.not_false,
      Bool.true_and] at hread
    cases hradix : radix digits with
    | none =>
      rw [hradix] at hread
      cases hread
    | some found =>
      obtain ⟨base, ds⟩ := found
      rw [hradix] at hread
      obtain ⟨letter, rfl, hletter⟩ := radix_eq_some hradix
      have hx : (zeroX && (letter = 'x' || letter = 'X')) = false := by
        rcases hletter with ⟨rfl, rfl⟩ | ⟨rfl, -⟩ | ⟨rfl, -⟩
        · rw [show zeroX = false from hread]
          rfl
        · exact Bool.and_false _
        · exact Bool.and_false _
      have hdigit : isDigitIn 10 letter = false := by
        rcases hletter with ⟨rfl, -⟩ | ⟨rfl, -⟩ | ⟨rfl, -⟩ <;> rfl
      have hnatural : natural 10 ('0' :: letter :: ds) = none := by
        simp [natural, hdigit]
      simp [strToInt, magnitude, hx, decimal, hnatural]

theorem isDigitIn_gt {c : Char} (h : isDigitIn base c = true) : 32 < c.toNat := by
  by_contra hle
  have hnone : hexValue c = none := by
    have hlow {d : Char} (hd : 32 < d.toNat) : ¬ d ≤ c := fun hdc =>
      hle (hd.trans_le (UInt32.le_iff_toNat_le.mp hdc))
    simp [hexValue, hlow (by decide : 32 < '0'.toNat), hlow (by decide : 32 < 'a'.toNat),
      hlow (by decide : 32 < 'A'.toNat)]
  simp [isDigitIn, hnone] at h

theorem unsigned_chars (h : unsigned digits = some n) :
    digits ≠ [] ∧ ∀ c ∈ digits, 32 < c.toNat := by
  obtain ⟨-, h⟩ := Option.ite_none_left_eq_some.mp h
  obtain ⟨ds, hds, -⟩ := Option.map_eq_some_iff.mp h
  obtain ⟨hne, hchars⟩ := grouped_chars hds
  refine ⟨hne, fun c hc => ?_⟩
  rcases hchars c hc with hdigit | rfl
  · exact isDigitIn_gt hdigit
  · decide

theorem integer_chars (h : integer digits = some v) : digits ≠ [] ∧ ∀ c ∈ digits, 32 < c.toNat := by
  obtain ⟨h, -⟩ := Option.filter_eq_some_iff.mp h
  have hcons {first : Char} {rest : Text} (hfirst : 32 < first.toNat)
      (hrest : ∀ c ∈ rest, 32 < c.toNat) :
        first :: rest ≠ [] ∧ ∀ c ∈ first :: rest, 32 < c.toNat :=
    ⟨by simp, List.forall_mem_cons.mpr ⟨hfirst, hrest⟩⟩
  cases hradix : radix digits with
  | none =>
    rw [hradix] at h
    have h : signed digits = some v := h
    unfold signed at h
    split at h
    · obtain ⟨n, hn, -⟩ := Option.map_eq_some_iff.mp h
      exact hcons (by decide) (unsigned_chars hn).2
    · obtain ⟨n, hn, -⟩ := Option.map_eq_some_iff.mp h
      exact hcons (by decide) (unsigned_chars hn).2
    · obtain ⟨n, hn, -⟩ := Option.map_eq_some_iff.mp h
      exact unsigned_chars hn
  | some found =>
    obtain ⟨base, ds⟩ := found
    rw [hradix] at h
    obtain ⟨number, hds, -⟩ := Option.map_eq_some_iff.mp h
    obtain ⟨letter, rfl, hletter⟩ := radix_eq_some hradix
    have hgt : 32 < letter.toNat := by
      rcases hletter with ⟨rfl, -⟩ | ⟨rfl, -⟩ | ⟨rfl, -⟩ <;> decide
    refine hcons (by decide) (hcons hgt fun c hc => ?_).2
    rcases (grouped_chars hds).2 c hc with hdigit | rfl
    · exact isDigitIn_gt hdigit
    · decide

-- ---------------------------------------------------------------------------
-- Lines
-- ---------------------------------------------------------------------------

theorem isBlank_of_isWs {c : Char} (h : isWs c = true) : isBlank c = true := by
  simp only [isWs, Bool.or_eq_true, decide_eq_true_eq] at h
  rcases h with rfl | rfl <;> rfl

theorem isBlank_of_gt {c : Char} (h : 32 < c.toNat) : isBlank c = false :=
  decide_eq_false (Nat.not_le_of_lt h)

theorem portValue_blank (h : ∀ c ∈ s, isWs c = true) : portValue s = none := by
  have hdrop : s.dropWhile isBlank = [] :=
    List.dropWhile_eq_nil_iff.mpr fun c hc => isBlank_of_isWs (h c hc)
  have htrim : trim s = [] := by
    rw [trim, strip, hdrop]
    rfl
  simp [portValue, htrim]

theorem portValue_other {first : Char} (hws : ∀ c ∈ before, isWs c = true)
    (hfirst : 32 < first.toNat)
    (hne : first ≠ '=') (hp : first ≠ 'p') (rest : Text) : portValue
      (before ++ first :: rest) = none := by
  have htrim : trim (before ++ first :: rest) = first :: rest.rdropWhile isBlank :=
    strip_cons (fun c hc => isBlank_of_isWs (hws c hc)) (isBlank_of_gt hfirst) rest
  have hkey : ∀ r : Text, trim ((first :: r).takeWhile (· ≠ '=')) ≠ "port".toList := by
    intro r heq
    rw [List.takeWhile_cons_of_pos (by simpa using hne)] at heq
    have hhead : trim (first :: r.takeWhile (· ≠ '=')) =
        first :: (r.takeWhile (· ≠ '=')).rdropWhile isBlank :=
      strip_cons (List.forall_mem_nil _) (isBlank_of_gt hfirst) _
    rw [hhead] at heq
    exact hp (List.cons.inj heq).1
  rw [portValue, htrim]
  exact if_neg fun h => hkey _ h.2

theorem portValue_bare (hws : ∀ c ∈ before, isWs c = true)
    (hgap : ∀ c ∈ gap, isWs c = true) (rest : Text) :
    portValue (before ++ 'p' :: 'o' :: 'r' :: 't' :: (gap ++ '=' :: rest)) = some (trim rest) := by
  have htrim : trim (before ++ 'p' :: 'o' :: 'r' :: 't' :: (gap ++ '=' :: rest)) =
      'p' :: 'o' :: 'r' :: 't' :: gap ++ '=' :: rest.rdropWhile isBlank := by
    rw [trim, strip_cons (fun c hc => isBlank_of_isWs (hws c hc)) rfl]
    exact congrArg ('p' :: ·) (rdropWhile_append_cons rfl ('o' :: 'r' :: 't' :: gap) rest)
  have hbefore : ∀ c ∈ 'p' :: 'o' :: 'r' :: 't' :: gap, decide (c ≠ '=') = true := by
    simp only [List.forall_mem_cons]
    refine ⟨rfl, rfl, rfl, rfl, fun c hc => ?_⟩
    rw [decide_eq_true_eq]
    rintro rfl
    cases hgap '=' hc
  have hequals : ∀ c ∈ ('=' :: rest.rdropWhile isBlank).head?, decide (c ≠ '=') = false := by simp
  obtain ⟨htake, hdrop⟩ := takeWhile_dropWhile_append hbefore hequals
  have hkey : trim ('p' :: 'o' :: 'r' :: 't' :: gap) = "port".toList := by
    have hword : ∀ c ∈ ['p', 'o', 'r', 't'], isBlank c = false := by
      simp only [List.forall_mem_cons]
      exact ⟨rfl, rfl, rfl, rfl, List.forall_mem_nil _⟩
    exact strip_append (List.forall_mem_nil _) (fun c hc => isBlank_of_isWs (hgap c hc))
      (by simp) hword
  rw [portValue, htrim]
  simp only [htake, hdrop, hkey]
  rw [if_pos (by simp), List.drop_one, List.tail_cons, trim, strip_rdropWhile]
  rfl

theorem portValue_none {strings : Strings} (h : line strings s = some none) :
    portValue s = none := by
  obtain ⟨-, h⟩ := Option.ite_none_right_eq_some.mp h
  have hws : ∀ c ∈ s.takeWhile isWs, isWs c = true := fun c hc => List.mem_takeWhile_imp hc
  have hsplit := List.takeWhile_append_dropWhile (p := isWs) (l := s)
  split at h
  · rename_i hrest
    exact portValue_blank (List.dropWhile_eq_nil_iff.mp hrest)
  · rename_i hrest
    rw [hrest] at hsplit
    rw [← hsplit]
    exact portValue_other hws (by decide) (by decide) (by decide) _
  · obtain ⟨e, -, heq⟩ := Option.map_eq_some_iff.mp h
    cases heq

theorem key_bare {strings : Strings} (h : key strings s = some (k, rest)) :
    (k.bare = true → s = k.name ++ rest) ∧
      (k.bare = false → ∃ tail, s = '\x22' :: tail ∨ s = '\x27' :: tail) := by
  unfold key at h
  split at h
  · obtain ⟨r, -, heq⟩ := Option.map_eq_some_iff.mp h
    cases heq
    exact ⟨by rintro ⟨⟩, fun _ => ⟨_, .inl rfl⟩⟩
  · obtain ⟨r, -, heq⟩ := Option.map_eq_some_iff.mp h
    cases heq
    exact ⟨by rintro ⟨⟩, fun _ => ⟨_, .inr rfl⟩⟩
  · obtain ⟨-, heq⟩ := Option.ite_none_left_eq_some.mp h
    cases heq
    exact ⟨fun _ => List.takeWhile_append_dropWhile.symm, by rintro ⟨⟩⟩

theorem ending_eq_some (h : ending s = some comment) :
    (comment = false → s = []) ∧ (comment = true → '#' ∈ s) := by
  unfold ending at h
  split at h
  · cases h
    exact ⟨fun _ => rfl, by rintro ⟨⟩⟩
  · cases h
    exact ⟨by rintro ⟨⟩, fun _ => List.mem_cons_self⟩
  · cases h

theorem trim_digits (hdigits : integer digits = some v) (hblanks : ∀ c ∈ blanks, isWs c = true)
    (hafter : ∀ c ∈ after, isWs c = true) : trim (blanks ++ (digits ++ after)) = digits := by
  obtain ⟨hne, hchars⟩ := integer_chars hdigits
  exact strip_append (fun c hc => isBlank_of_isWs (hblanks c hc))
    (fun c hc => isBlank_of_isWs (hafter c hc)) hne
    fun c hc => isBlank_of_gt (hchars c hc)

theorem portValue_entry {strings : Strings} (h : line strings s = some (some e))
    (hname : e.key.name = "port".toList) :
    integer e.digits = some e.value ∧ (e.key.bare = false → portValue s = none) ∧
    (e.key.bare = true → ∃ value, portValue s = some value ∧
      (e.comment = false → value = e.digits) ∧ (e.comment = true → '#' ∈ value)) := by
  obtain ⟨-, h⟩ := Option.ite_none_right_eq_some.mp h
  have hws : ∀ c ∈ s.takeWhile isWs, isWs c = true := fun c hc => List.mem_takeWhile_imp hc
  have hsplit := List.takeWhile_append_dropWhile (p := isWs) (l := s)
  split at h
  · cases h
  · cases h
  · obtain ⟨e', he, heq⟩ := Option.map_eq_some_iff.mp h
    cases heq
    obtain ⟨gap, blanks, after, rest, hkey, hgap, hblanks, hafter, hvalue, hending⟩ :=
      entry_eq_some he
    obtain ⟨hbare, hquoted⟩ := key_bare hkey
    refine ⟨hvalue, fun hb => ?_, fun hb => ?_⟩
    · obtain ⟨tail, htail⟩ := hquoted hb
      rw [← hsplit]
      rcases htail with htail | htail <;> rw [htail] <;>
        exact portValue_other hws (by decide) (by decide) (by decide) tail
    · have hline := hbare hb
      rw [hname] at hline
      refine ⟨trim (blanks ++ (e.digits ++ (after ++ rest))), ?_, fun hc => ?_, fun hc => ?_⟩
      · rw [← hsplit, hline]
        exact portValue_bare hws hgap _
      · rw [(ending_eq_some hending).1 hc, List.append_nil]
        exact trim_digits hvalue hblanks hafter
      · have hmem := (ending_eq_some hending).2 hc
        exact mem_strip (by simp [hmem]) rfl

-- ---------------------------------------------------------------------------
-- Documents
-- ---------------------------------------------------------------------------

theorem readPort_none {strings : Strings} {lines : List Text}
    (h : lines.mapM (line strings) = some found) (hnone : found.reduceOption = []) :
    readPort zeroX lines = hostPort := by
  induction lines generalizing found with
  | nil => rfl
  | cons s lines ih =>
    obtain ⟨first, others, hfirst, hothers, rfl⟩ := mapM_cons_eq_some h
    cases first with
    | none =>
      rw [readPort, portValue_none hfirst]
      exact ih hothers hnone
    | some e => cases hnone

theorem denoted_hostPort (zeroX : Bool) : strToIntDef zeroX hostPort 0 = Host.defaultPort := by
  cases zeroX <;> decide +kernel

def portOf (zeroX : Bool) (e : Entry) : Int := if plain zeroX e then e.value else Host.defaultPort

theorem readPort_value {strings : Strings} (h : line strings s = some (some e))
    (hname : e.key.name = "port".toList) (hlow : 1 ≤ e.value) (hhigh : e.value ≤ 65535)
    (hrest : readPort zeroX lines = hostPort) :
    strToIntDef zeroX (readPort zeroX (s :: lines)) 0 = portOf zeroX e := by
  have hdefault (hport : readPort zeroX (s :: lines) = hostPort) (hplain : plain zeroX e = false) :
      strToIntDef zeroX (readPort zeroX (s :: lines)) 0 = portOf zeroX e := by
    rw [hport, denoted_hostPort, portOf, hplain, if_neg Bool.false_ne_true]
  obtain ⟨hvalue, hquoted, hbare⟩ := portValue_entry h hname
  cases hb : e.key.bare with
  | false => exact hdefault (by rw [readPort, hquoted hb, hrest]) (by simp [plain, hb])
  | true =>
    obtain ⟨value, hport, hdigits, hcomment⟩ := hbare hb
    have hzero (hnone : strToInt zeroX value = none) : readPort zeroX (s :: lines) = hostPort := by
      simp [readPort, hport, strToIntDef, hnone]
    cases hc : e.comment with
    | true => exact hdefault (hzero (strToInt_eq_none (hcomment hc) rfl)) (by simp [plain, hc])
    | false =>
      obtain rfl := hdigits hc
      cases hr : readable zeroX e.digits with
      | true =>
        have hint := strToInt_readable hvalue hr hlow hhigh
        simp [readPort, hport, strToIntDef, hint, portOf, plain, hb, hc, hr, hlow, hhigh]
      | false => exact hdefault (hzero (strToInt_unreadable hvalue hr)) (by simp [plain, hr])

theorem readPort_entry {strings : Strings} {lines : List Text}
    (h : lines.mapM (line strings) = some found) (hone : found.reduceOption = [e])
    (hname : e.key.name = "port".toList) (hlow : 1 ≤ e.value) (hhigh : e.value ≤ 65535) :
    strToIntDef zeroX (readPort zeroX lines) 0 = portOf zeroX e := by
  induction lines generalizing found with
  | nil =>
    cases h
    cases hone
  | cons s lines ih =>
    obtain ⟨first, others, hfirst, hothers, rfl⟩ := mapM_cons_eq_some h
    cases first with
    | none =>
      rw [readPort, portValue_none hfirst]
      exact ih hothers hone
    | some e' =>
      have hone : e' :: others.reduceOption = [e] := hone
      obtain ⟨rfl, hnone⟩ := List.cons.inj hone
      exact readPort_value hfirst hname hlow hhigh (readPort_none hothers hnone)

theorem lines_allowed {strings : Strings} {lines : List Text}
    (h : lines.mapM (line strings) = some found) : ∀ s ∈ lines, s.all isAllowed = true := by
  induction lines generalizing found with
  | nil => simp
  | cons s lines ih =>
    obtain ⟨first, others, hfirst, hothers, rfl⟩ := mapM_cons_eq_some h
    exact List.forall_mem_cons.mpr ⟨(Option.ite_none_right_eq_some.mp hfirst).1, ih hothers⟩

theorem loadStrings_eq {strings : Strings}
    (h : (linesOf (· = '\n') s).mapM (line strings) = some found) :
    loadStrings s = linesOf (· = '\n') s := by
  refine linesOf_congr (fun c hc => by simp [of_decide_eq_true hc]) fun l hl c hc => ?_
  have hallowed := List.all_eq_true.mp (lines_allowed h l hl) c hc
  rw [Bool.or_eq_false_iff, decide_eq_false_iff_not, decide_eq_false_iff_not]
  constructor
  · rintro rfl
    cases hallowed
  · rintro rfl
    cases hallowed

def entries (strings : Strings) (contents : Text) : List Entry := (parse strings contents).getD []

/-- A document that the host accepts has at most one assignment. -/
theorem load_eq_ok {strings : Strings} {fromStr : Host.FromStr} (hT : fromStr.Reads strings)
    (hmark : contents.head? ≠ some '\uFEFF')
    (h : Host.HostConfig.load fromStr (.text contents) = .ok port) :
    parse strings contents = some [] ∧ port = Host.defaultPort ∨
      ∃ e, parse strings contents = some [e] ∧ e.key.name = "port".toList ∧ e.value = port ∧
        1 ≤ e.value ∧ e.value ≤ 65535 := by
  simp only [Host.HostConfig.load, hT contents hmark] at h
  split at h
  · cases h
  · rename_i value hraw
    split at h
    · rename_i hrange
      cases h
      obtain ⟨found, hparse, hraw⟩ := Option.bind_eq_some_iff.mp hraw
      unfold Host.rawConfig at hraw
      split at hraw
      · cases hraw
        exact .inl ⟨hparse, rfl⟩
      · obtain ⟨hname, heq⟩ := Option.ite_none_right_eq_some.mp hraw
        cases heq
        refine .inr ⟨_, hparse, hname, ?_, hrange⟩
        exact (Int.toNat_of_nonneg (Int.le_trans (by decide) hrange.1)).symm
      · cases hraw
    · cases h

/-- On every document without a byte order mark that the host accepts, the
installer reads the port of the host exactly if it is the default one or is
assigned plainly. -/
theorem firewall_port_iff {strings : Strings} {fromStr : Host.FromStr} (hT : fromStr.Reads strings)
    (zeroX : Bool) (hmark : contents.head? ≠ some '\uFEFF')
    (h : Host.HostConfig.load fromStr (.text contents) = .ok port) :
    configuredPort zeroX contents = port ↔
      port = Host.defaultPort ∨ ∃ e ∈ entries strings contents, plain zeroX e = true := by
  rcases load_eq_ok hT hmark h with ⟨hparse, rfl⟩ | ⟨e, hparse, hname, hport, hlow, hhigh⟩
  · obtain ⟨found, hfound, hnone⟩ := Option.map_eq_some_iff.mp hparse
    refine iff_of_true ?_ (.inl rfl)
    rw [configuredPort, readPortFromConfig, loadStrings_eq hfound,
      readPort_none hfound hnone, denoted_hostPort]
  · obtain ⟨found, hfound, hone⟩ := Option.map_eq_some_iff.mp hparse
    have hentries : entries strings contents = [e] := by rw [entries, hparse, Option.getD_some]
    rw [configuredPort, readPortFromConfig, loadStrings_eq hfound,
      readPort_entry hfound hone hname hlow hhigh, hentries, portOf]
    cases hplain : plain zeroX e with
    | true => simp [hplain, hport]
    | false =>
      rw [if_neg Bool.false_ne_true]
      constructor
      · intro heq
        exact .inl (Int.ofNat.inj heq).symm
      · rintro (rfl | ⟨e', he', hplain'⟩)
        · rfl
        · rw [List.mem_singleton.mp he', hplain] at hplain'
          cases hplain'

/-- TOML 1.0, and no more. -/
def strictToml : Host.FromStr := fun contents => (parse basic contents).bind Host.rawConfig

/-- A port and nothing after it. -/
theorem plain_port_agrees :
    Host.HostConfig.load strictToml (.text "port = 48100\n".toList) = .ok 48100 ∧
      configuredPort true "port = 48100\n".toList = 48100 := by
  have hload : Host.HostConfig.load strictToml (.text "port = 48100\n".toList) = .ok 48100 := by
    decide +kernel
  exact ⟨hload, (firewall_port_iff (fun _ _ => rfl) true (by decide) hload).mpr
    (.inr (by decide +kernel))⟩

/-- With a comment after the port, the firewall rule has the default one, in every
version of the format. -/
theorem commented_port_differs :
    configuredPort true "port = 48100 # custom\n".toList = 47991 ∧
      ∀ (strings : Strings) (fromStr : Host.FromStr), fromStr.Reads strings →
        Host.HostConfig.load fromStr (.text "port = 48100 # custom\n".toList) = .ok 48100 := by
  refine ⟨by decide +kernel, fun strings fromStr hT => ?_⟩
  have hread : fromStr "port = 48100 # custom\n".toList = some (some 48100) :=
    hT _ (by decide)
  simp only [Host.HostConfig.load, hread]
  rfl

end DeckyMyRig.System
