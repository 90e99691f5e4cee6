import Mathlib.Data.List.Basic
import Mathlib.Tactic.IntervalCases

/-!
# Bytes, text and their encodings

Big-endian integers, length-prefixed fields, UTF-8 and hexadecimal text. The
encodings are injective and a length-prefixed field can be split off again, so
a sequence of such fields has one reading.
-/

namespace Octets

abbrev Bytes := List UInt8

abbrev Text := List Char

/-- `[u8; n]`. -/
abbrev Block (n : Nat) := { b : Bytes // b.length = n }

def Block.ofBytes (n : Nat) (b : Bytes) : Option (Block n) :=
  if h : b.length = n then some ⟨b, h⟩ else none

theorem Block.ofBytes_eq_some {b : Bytes} {s : Block n} :
    Block.ofBytes n b = some s ↔ b = s.val := by
  unfold Block.ofBytes
  split
  · simp [Subtype.ext_iff]
  · rename_i h
    simp only [reduceCtorEq, false_iff]
    rintro rfl
    exact h s.2

@[simp] theorem Block.ofBytes_val (s : Block n) : Block.ofBytes n s.val = some s :=
  Block.ofBytes_eq_some.mpr rfl

def repeated (n : Nat) (b : UInt8) : Block n := ⟨List.replicate n b, List.length_replicate⟩

-- ---------------------------------------------------------------------------
-- Big-endian integers and length-prefixed fields
-- ---------------------------------------------------------------------------

/-- `to_be_bytes` on `width` bytes. -/
def beBytes : (width : Nat) → Nat → Bytes
  | 0, _ => []
  | width + 1, n => beBytes width (n / 256) ++ [UInt8.ofNat (n % 256)]

@[simp] theorem length_beBytes (width n : Nat) : (beBytes width n).length = width := by
  induction width generalizing n with
  | zero => rfl
  | succ width ih => simp [beBytes, ih]

theorem ofNat_mod_inj {a b : Nat} (h : UInt8.ofNat (a % 256) = UInt8.ofNat (b % 256)) :
    a % 256 = b % 256 := by
  have h := congrArg UInt8.toNat h
  simpa using h

theorem beBytes_inj {width a b : Nat} (ha : a < 256 ^ width) (hb : b < 256 ^ width)
    (h : beBytes width a = beBytes width b) : a = b := by
  induction width generalizing a b with
  | zero => simp at ha hb; omega
  | succ width ih =>
    simp only [beBytes] at h
    obtain ⟨hq, hr⟩ := List.append_inj h (by simp)
    have hr := ofNat_mod_inj (List.singleton_inj.mp hr)
    have hq := ih (Nat.div_lt_of_lt_mul (by simpa [Nat.pow_succ, Nat.mul_comm] using ha))
      (Nat.div_lt_of_lt_mul (by simpa [Nat.pow_succ, Nat.mul_comm] using hb)) hq
    omega

def prefixed (field : Bytes) : Bytes := beBytes 2 field.length ++ field

theorem prefixed_append_inj {a b x y : Bytes} (ha : a.length < 65536) (hb : b.length < 65536)
    (h : prefixed a ++ x = prefixed b ++ y) : a = b ∧ x = y := by
  simp only [prefixed, List.append_assoc] at h
  obtain ⟨hlen, h⟩ := List.append_inj h (by simp)
  have hlen := beBytes_inj (by simpa using ha) (by simpa using hb) hlen
  exact List.append_inj h hlen

theorem fields_append_inj {fields fields' : List Bytes} {x y : Bytes}
    (hf : ∀ field ∈ fields, field.length < 65536) (hf' : ∀ field ∈ fields', field.length < 65536)
    (h : fields.flatMap prefixed ++ x = fields'.flatMap prefixed ++ y)
    (hlen : fields.length = fields'.length) : fields = fields' ∧ x = y := by
  induction fields generalizing fields' with
  | nil =>
    cases fields' with
    | nil => exact ⟨rfl, h⟩
    | cons => cases hlen
  | cons field fields ih =>
    cases fields' with
    | nil => cases hlen
    | cons field' fields' =>
      simp only [List.forall_mem_cons] at hf hf'
      simp only [List.flatMap_cons, List.append_assoc] at h
      obtain ⟨rfl, htail⟩ := prefixed_append_inj hf.1 hf'.1 h
      obtain ⟨rfl, rfl⟩ := ih hf.2 hf'.2 htail (Nat.succ.inj hlen)
      exact ⟨rfl, rfl⟩

-- ---------------------------------------------------------------------------
-- UTF-8
-- ---------------------------------------------------------------------------

def utf8 (s : Text) : Bytes := s.flatMap String.utf8EncodeChar

theorem utf8_injective : Function.Injective utf8 := by
  intro s t h
  have h : s.utf8Encode = t.utf8Encode := congrArg List.toByteArray h
  have h := congrArg ByteArray.utf8Decode? h
  rw [List.utf8Decode?_utf8Encode, List.utf8Decode?_utf8Encode] at h
  simpa using h

theorem utf8_eq_nil {s : Text} : utf8 s = [] ↔ s = [] :=
  utf8_injective.eq_iff' rfl

theorem utf8_of_ascii {s : Text} (h : ∀ c ∈ s, c.toNat < 128) :
    utf8 s = s.map fun c => UInt8.ofNat c.toNat := by
  induction s with
  | nil => rfl
  | cons c s ih =>
    simp only [List.forall_mem_cons] at h
    have hc : String.utf8EncodeChar c = [UInt8.ofNat c.toNat] := by
      have hle : c.val.toNat ≤ 127 := Nat.le_of_lt_succ h.1
      simp only [String.utf8EncodeChar]
      rw [if_pos hle]
      rfl
    have ih := ih h.2
    simp only [utf8, List.flatMap_cons, List.map_cons] at ih ⊢
    rw [hc, ih]
    rfl

theorem length_utf8_of_ascii {s : Text} (h : ∀ c ∈ s, c.toNat < 128) :
    (utf8 s).length = s.length := by
  rw [utf8_of_ascii h, List.length_map]

theorem length_le_utf8 (s : Text) : s.length ≤ (utf8 s).length := by
  induction s with
  | nil => exact Nat.le_refl _
  | cons c s ih =>
    have hc : 0 < (String.utf8EncodeChar c).length := by
      rw [String.length_utf8EncodeChar]
      exact c.utf8Size_pos
    simp only [utf8, List.flatMap_cons, List.length_append, List.length_cons] at ih ⊢
    omega

theorem length_utf8_le (s : Text) : (utf8 s).length ≤ 4 * s.length := by
  induction s with
  | nil => simp [utf8]
  | cons c s ih =>
    have hc : (String.utf8EncodeChar c).length ≤ 4 := by
      rw [String.length_utf8EncodeChar]
      exact c.utf8Size_le_four
    simp only [utf8, List.flatMap_cons, List.length_append, List.length_cons] at ih ⊢
    omega

def utf8Decode (b : Bytes) : Option Text := (ByteArray.utf8Decode? b.toByteArray).map Array.toList

theorem utf8Decode_utf8 (s : Text) : utf8Decode (utf8 s) = some s := by
  have h : (utf8 s).toByteArray = s.utf8Encode := rfl
  simp [utf8Decode, h, List.utf8Decode?_utf8Encode]

theorem utf8Decode_eq_some {b : Bytes} {s : Text} : utf8Decode b = some s ↔ b = utf8 s := by
  constructor
  · intro h
    obtain ⟨a, ha, -⟩ := Option.map_eq_some_iff.mp h
    obtain ⟨t, ht⟩ := ByteArray.isSome_utf8Decode?_iff.mp (Option.isSome_of_eq_some ha)
    have hb : b = utf8 t := by
      have ht : b.toByteArray = (utf8 t).toByteArray := ht
      simpa using congrArg (fun a => a.data.toList) ht
    rw [hb, utf8Decode_utf8] at h
    rw [hb, Option.some.inj h]
  · rintro rfl
    exact utf8Decode_utf8 s

-- ---------------------------------------------------------------------------
-- Hexadecimal text
-- ---------------------------------------------------------------------------

def hexDigit (n : Nat) : Char := if n < 10 then Char.ofNat (48 + n) else Char.ofNat (87 + n)

def hexValue (c : Char) : Option Nat :=
  if '0' ≤ c ∧ c ≤ '9' then some (c.toNat - 48)
  else if 'a' ≤ c ∧ c ≤ 'f' then some (c.toNat - 87)
  else if 'A' ≤ c ∧ c ≤ 'F' then some (c.toNat - 55)
  else none

def hexEncode (b : Bytes) : Text :=
  b.flatMap fun x => [hexDigit (x.toNat / 16), hexDigit (x.toNat % 16)]

/-- Pairs of digits of either case; odd lengths and other characters fail. -/
def hexDecode : Text → Option Bytes
  | [] => some []
  | [_] => none
  | hi :: lo :: rest => do
    let h ← hexValue hi
    let l ← hexValue lo
    let tail ← hexDecode rest
    some (UInt8.ofNat (16 * h + l) :: tail)

theorem hexValue_hexDigit {n : Nat} (h : n < 16) : hexValue (hexDigit n) = some n := by
  interval_cases n <;> decide

theorem length_hexEncode (b : Bytes) : (hexEncode b).length = 2 * b.length := by
  induction b with
  | nil => rfl
  | cons x rest ih =>
    show (hexEncode rest).length + 2 = 2 * (rest.length + 1)
    rw [ih, Nat.mul_add]

theorem hexDecode_hexEncode (b : Bytes) : hexDecode (hexEncode b) = some b := by
  induction b with
  | nil => rfl
  | cons x rest ih =>
    have hx : x.toNat < 256 := x.toNat_lt
    have hsum : 16 * (x.toNat / 16) + x.toNat % 16 = x.toNat := by omega
    show hexDecode (hexDigit (x.toNat / 16) :: hexDigit (x.toNat % 16) :: hexEncode rest) = _
    simp only [hexDecode, hexValue_hexDigit (show x.toNat / 16 < 16 by omega),
      hexValue_hexDigit (show x.toNat % 16 < 16 by omega), ih, hsum, Option.bind_eq_bind,
      Option.bind_some, UInt8.ofNat_toNat]

end Octets
