import DeckyMyRig.Lib.Octets

/-!
# The proto3 wire format

A message is a sequence of numbered fields. The encoder writes the fields that
differ from their defaults; the decoder reads fields in any order, and of two
with one number the last counts. The decoder reads back every sequence of
fields that fits the format.
-/

namespace Proto3

open Octets

inductive Payload
  | varint (value : Nat)
  | fixed64 (bytes : Bytes)
  | chunk (bytes : Bytes)
  | fixed32 (bytes : Bytes)
  deriving DecidableEq

structure Field where
  number : Nat
  payload : Payload
  deriving DecidableEq

/-- Seven bits a byte, the lowest first; all bytes but the last have the high bit. -/
def varint (value : Nat) : Bytes :=
  if value < 128 then [UInt8.ofNat value]
  else UInt8.ofNat (value % 128 + 128) :: varint (value / 128)
termination_by value
decreasing_by omega

def Payload.wire : Payload → Nat
  | .varint _ => 0
  | .fixed64 _ => 1
  | .chunk _ => 2
  | .fixed32 _ => 5

def Payload.encode : Payload → Bytes
  | .varint value => Proto3.varint value
  | .chunk bytes => Proto3.varint bytes.length ++ bytes
  | .fixed64 bytes | .fixed32 bytes => bytes

def Field.encode (f : Field) : Bytes := varint (f.number * 8 + f.payload.wire) ++ f.payload.encode

def Payload.isDefault : Payload → Bool
  | .varint value => value = 0
  | .chunk bytes => bytes.isEmpty
  | .fixed64 bytes | .fixed32 bytes => bytes.all (· = 0)

def present (fields : List Field) : List Field := fields.filter fun f => !f.payload.isDefault

def encode (fields : List Field) : Bytes := (present fields).flatMap Field.encode

-- ---------------------------------------------------------------------------
-- The decoder
-- ---------------------------------------------------------------------------

def readVarint : (limit : Nat) → Bytes → Option (Nat × Bytes)
  | 0, _ | _, [] => none
  | limit + 1, byte :: rest =>
    if byte.toNat < 128 then some (byte.toNat, rest)
    else (readVarint limit rest).map fun (value, rest) => (byte.toNat - 128 + 128 * value, rest)

def readU64 (data : Bytes) : Option (Nat × Bytes) := do
  let (value, rest) ← readVarint 10 data
  if value < 2 ^ 64 then some (value, rest) else none

def readBytes (count : Nat) (data : Bytes) : Option (Bytes × Bytes) :=
  if count ≤ data.length then some (data.take count, data.drop count) else none

/-- The payload of a field with the given wire type; groups are not supported. -/
def readPayload (wire : Nat) (data : Bytes) : Option (Payload × Bytes) :=
  match wire with
  | 0 => (readU64 data).map fun (value, rest) => (.varint value, rest)
  | 1 => (readBytes 8 data).map fun (bytes, rest) => (.fixed64 bytes, rest)
  | 2 => do
    let (length, rest) ← readU64 data
    (readBytes length rest).map fun (bytes, rest) => (.chunk bytes, rest)
  | 5 => (readBytes 4 data).map fun (bytes, rest) => (.fixed32 bytes, rest)
  | _ => none

def readField (data : Bytes) : Option (Field × Bytes) := do
  let (tag, rest) ← readU64 data
  if tag / 8 = 0 then none
  else (readPayload (tag % 8) rest).map fun (payload, rest) => (⟨tag / 8, payload⟩, rest)

/-- Reads fields to the end; every field takes a byte, so `fuel` bounds their
number. -/
def readFields : (fuel : Nat) → Bytes → Option (List Field)
  | _, [] => some []
  | 0, _ :: _ => none
  | fuel + 1, byte :: data => do
    let (field, rest) ← readField (byte :: data)
    (readFields fuel rest).map (field :: ·)

def decode (data : Bytes) : Option (List Field) := readFields data.length data

def last : List Field → (number : Nat) → Option Payload
  | [], _ => none
  | f :: fields, number =>
    (last fields number).or (if f.number = number then some f.payload else none)

/-- The value of a scalar field, the default where the field is absent. -/
def uint32 (fields : List Field) (number : Nat) : Option UInt32 :=
  match last fields number with
  | none => some 0
  | some (.varint value) => some (UInt32.ofNat value)
  | some _ => none

def bytes (fields : List Field) (number : Nat) : Option Bytes :=
  match last fields number with
  | none => some []
  | some (.chunk bytes) => some bytes
  | some _ => none

def string (fields : List Field) (number : Nat) : Option Text :=
  (bytes fields number).bind utf8Decode

-- ---------------------------------------------------------------------------
-- Reading back
-- ---------------------------------------------------------------------------

theorem varint_ne_nil (value : Nat) : varint value ≠ [] := by
  rw [varint]
  split <;> simp

theorem readVarint_varint {limit value : Nat} (h : value < 128 ^ (limit + 1)) (rest : Bytes) :
    readVarint (limit + 1) (varint value ++ rest) = some (value, rest) := by
  induction limit generalizing value with
  | zero =>
    have hlt : value < 128 := by simpa using h
    have hmod : value % 256 = value := Nat.mod_eq_of_lt (by omega)
    rw [varint, if_pos hlt]
    simp [readVarint, hmod, hlt]
  | succ limit ih =>
    rw [varint]
    split
    · rename_i hlt
      have hmod : value % 256 = value := Nat.mod_eq_of_lt (by omega)
      simp [readVarint, hmod, hlt]
    · have hdiv : value / 128 < 128 ^ (limit + 1) := by
        rw [Nat.div_lt_iff_lt_mul (by decide)]
        simpa [Nat.pow_succ] using h
      have hmod : (value % 128 + 128) % 256 = value % 128 + 128 := Nat.mod_eq_of_lt (by omega)
      have hsum : value % 128 + 128 * (value / 128) = value := Nat.mod_add_div ..
      rw [List.cons_append, readVarint, ih hdiv]
      simp [hmod, hsum]

theorem readU64_varint {value : Nat} (h : value < 2 ^ 64) (rest : Bytes) :
    readU64 (varint value ++ rest) = some (value, rest) := by
  have hlt : value < 128 ^ (9 + 1) := h.trans (by decide)
  rw [readU64, readVarint_varint hlt]
  exact if_pos h

def Payload.Fits : Payload → Prop
  | .varint value => value < 2 ^ 64
  | .chunk bytes => bytes.length < 2 ^ 64
  | .fixed64 bytes => bytes.length = 8
  | .fixed32 bytes => bytes.length = 4

def Field.Fits (f : Field) : Prop := 0 < f.number ∧ f.number < 2 ^ 29 ∧ f.payload.Fits

theorem readBytes_append (bytes rest : Bytes) :
    readBytes bytes.length (bytes ++ rest) = some (bytes, rest) := by
  simp [readBytes]

theorem readPayload_encode {payload : Payload} (h : payload.Fits) (rest : Bytes) :
    readPayload payload.wire (payload.encode ++ rest) = some (payload, rest) := by
  cases payload with
  | varint value =>
    simp only [Payload.wire, Payload.encode, readPayload]
    rw [readU64_varint h]
    rfl
  | chunk bytes =>
    simp only [Payload.wire, Payload.encode, readPayload, List.append_assoc]
    rw [readU64_varint h]
    simp [readBytes_append]
  | fixed64 bytes | fixed32 bytes =>
    simp only [Payload.wire, Payload.encode, readPayload]
    rw [← h, readBytes_append]
    rfl

theorem readField_encode {f : Field} (h : f.Fits) (rest : Bytes) :
    readField (f.encode ++ rest) = some (f, rest) := by
  obtain ⟨hpos, hlt, hfits⟩ := h
  have hwire : f.payload.wire < 8 := by cases f.payload <;> simp [Payload.wire]
  have hdiv : (f.number * 8 + f.payload.wire) / 8 = f.number := by omega
  have hmod : (f.number * 8 + f.payload.wire) % 8 = f.payload.wire := by omega
  have htag := readU64_varint (show f.number * 8 + f.payload.wire < 2 ^ 64 by omega)
    (f.payload.encode ++ rest)
  simp only [readField, Field.encode, List.append_assoc, htag,
    Option.bind_eq_bind, Option.bind_some,
    hdiv, hmod, Nat.ne_of_gt hpos, ↓reduceIte, readPayload_encode hfits, Option.map_some]

theorem encode_ne_nil (f : Field) : f.encode ≠ [] := by
  simp [Field.encode, varint_ne_nil]

theorem readFields_flatMap {fields : List Field} (h : ∀ f ∈ fields, f.Fits) {fuel : Nat}
    (hfuel : (fields.flatMap Field.encode).length ≤ fuel) :
    readFields fuel (fields.flatMap Field.encode) = some fields := by
  induction fields generalizing fuel with
  | nil => simp [readFields]
  | cons f fields ih =>
    simp only [List.forall_mem_cons] at h
    have hread := readField_encode h.1 (fields.flatMap Field.encode)
    rw [List.flatMap_cons] at hfuel ⊢
    cases hf : f.encode with
    | nil => exact absurd hf (encode_ne_nil f)
    | cons byte bytes =>
      rw [hf] at hfuel hread
      simp only [List.cons_append, List.length_cons, List.length_append] at hfuel
      cases fuel with
      | zero => omega
      | succ fuel =>
        rw [List.cons_append] at hread ⊢
        simp [readFields, hread, ih h.2 (show _ ≤ fuel by omega)]

theorem decode_flatMap {fields : List Field} (h : ∀ f ∈ fields, f.Fits) :
    decode (fields.flatMap Field.encode) = some fields :=
  readFields_flatMap h (Nat.le_refl _)

theorem last_eq_none {fields : List Field} (h : ∀ f ∈ fields, f.number ≠ number) :
    last fields number = none := by
  induction fields with
  | nil => rfl
  | cons f fields ih =>
    simp only [List.forall_mem_cons] at h
    simp [last, ih h.2, h.1]

theorem last_present {fields : List Field}
    (hn : (fields.map Field.number).Nodup) (hf : f ∈ fields) :
    last (present fields) f.number = if f.payload.isDefault then none else some f.payload := by
  induction fields with
  | nil => cases hf
  | cons g fields ih =>
    simp only [List.map_cons, List.nodup_cons, List.mem_map, not_exists, not_and] at hn
    obtain ⟨hnew, hn⟩ := hn
    have habsent : last (present fields) g.number = none :=
      last_eq_none fun f hf => hnew f (List.mem_of_mem_filter hf)
    rcases List.mem_cons.mp hf with rfl | hf
    · cases hd : f.payload.isDefault with
      | true => simpa [present, hd] using habsent
      | false =>
        have habsent : last (List.filter (fun f => !f.payload.isDefault) fields) f.number = none :=
          habsent
        simp [present, hd, last, habsent]
    · have hne : g.number ≠ f.number := fun heq => hnew f hf heq.symm
      rw [← ih hn hf]
      cases hd : g.payload.isDefault with
      | true => simp [present, hd]
      | false => simp [present, hd, last, hne]

theorem last_of_mem {fields : List Field} (hn : (fields.map Field.number).Nodup) (hf : f ∈ fields) :
    last fields f.number = some f.payload := by
  induction fields with
  | nil => cases hf
  | cons g fields ih =>
    simp only [List.map_cons, List.nodup_cons, List.mem_map, not_exists, not_and] at hn
    rcases List.mem_cons.mp hf with rfl | hf
    · simp [last, last_eq_none hn.1]
    · simp [last, ih hn.2 hf]

theorem last_perm {fields order : List Field} (hn : (fields.map Field.number).Nodup)
    (ho : order.Perm fields) (number : Nat) : last order number = last fields number := by
  by_cases hmem : ∃ f ∈ fields, f.number = number
  · obtain ⟨f, hf, rfl⟩ := hmem
    rw [last_of_mem hn hf, last_of_mem ((ho.map _).nodup_iff.mpr hn) (ho.mem_iff.mpr hf)]
  · have hnone : ∀ f ∈ fields, f.number ≠ number := fun f hf heq => hmem ⟨f, hf, heq⟩
    rw [last_eq_none hnone, last_eq_none fun f hf => hnone f (ho.mem_iff.mp hf)]

theorem nodup_present {fields : List Field} (hn : (fields.map Field.number).Nodup) :
    ((present fields).map Field.number).Nodup :=
  hn.sublist (List.filter_sublist.map _)

/-- The bytes of a message: its fields that are not defaults, in some order. -/
def Encodes (fields : List Field) (data : Bytes) : Prop :=
  (∀ f ∈ fields, f.Fits) ∧ ∃ order : List Field, order.Perm (present fields) ∧
    data = order.flatMap Field.encode

theorem Encodes.of_perm {fields written : List Field} (h : ∀ f ∈ fields, f.Fits)
    (hp : written.Perm fields) :
    Encodes fields (encode written) :=
  ⟨h, present written, hp.filter _, rfl⟩

section
variable {fields : List Field} (hn : (fields.map Field.number).Nodup)

theorem Encodes.decode {data : Bytes} (h : Encodes fields data) :
    ∃ order, Proto3.decode data = some order ∧ order.Perm (present fields) := by
  obtain ⟨hfits, order, ho, rfl⟩ := h
  exact ⟨order, decode_flatMap fun f hf => hfits f (List.mem_of_mem_filter (ho.mem_iff.mp hf)), ho⟩

variable {order : List Field} (ho : order.Perm (present fields))
include hn ho

theorem uint32_present (hf : ⟨number, .varint v⟩ ∈ fields) :
    uint32 order number = some (UInt32.ofNat v) := by
  rw [uint32, last_perm (nodup_present hn) ho, last_present hn hf]
  cases v <;> rfl

theorem bytes_present (hf : ⟨number, .chunk b⟩ ∈ fields) : bytes order number = some b := by
  rw [bytes, last_perm (nodup_present hn) ho, last_present hn hf]
  cases b <;> rfl

theorem string_present (hf : ⟨number, .chunk (utf8 t)⟩ ∈ fields) :
    string order number = some t := by
  rw [string, bytes_present hn ho hf, Option.bind_some, utf8Decode_utf8]

end

end Proto3
