import DeckyMyRig.Deck.ProtobufLaws
import DeckyMyRig.Lib.Records
import Mathlib.Tactic.Ring

/-!
# What the Deck's decoder accepts

The readers of `protobuf.py` read exactly the grammar of the wire format, with
varints of at most ten bytes. What `fields` returns is the last record of each
number, and `decode_message` looks at those only.
-/

namespace DeckyMyRig.Deck.Protobuf

open Octets Checked

/-- `range(0, 70, 7)` has ten elements. -/
def varintLimit : Nat := 10

-- ---------------------------------------------------------------------------
-- Records
-- ---------------------------------------------------------------------------

theorem readVarintFrom_iff {left shift value : Nat} (hv : value < 2 ^ shift) :
    readVarintFrom left shift value data = .ok (v, rest) ↔
      ∃ bytes w, data = bytes ++ rest ∧ bytes.length ≤ left ∧ Proto3.IsVarint bytes w ∧
        v = value + w * 2 ^ shift := by
  induction left generalizing shift value data with
  | zero =>
    constructor
    · intro h
      cases h
    · rintro ⟨bytes, w, -, hlen, hbytes, -⟩
      exact absurd (List.length_eq_zero_iff.mp (Nat.le_zero.mp hlen)) hbytes.ne_nil
  | succ left ih =>
    cases data with
    | nil =>
      constructor
      · intro h
        cases h
      · rintro ⟨bytes, w, hdata, -, hbytes, -⟩
        exact absurd (List.append_eq_nil_iff.mp hdata.symm).1 hbytes.ne_nil
    | cons byte data =>
      have hor (low : Nat) : value ||| low <<< shift = value + low * 2 ^ shift := by
        rw [Nat.or_comm, ← Nat.shiftLeft_add_eq_or_of_lt hv, Nat.shiftLeft_eq, Nat.add_comm]
      have hbyte := byte.toNat_lt
      simp only [readVarintFrom, and_low7, hor, UInt8.lt_iff_toNat_lt]
      by_cases hlt : byte.toNat < 128
      · rw [if_pos (by simpa using hlt), Nat.mod_eq_of_lt hlt]
        constructor
        · intro h
          cases h
          exact ⟨[byte], byte.toNat, rfl, by simp, .last hlt, rfl⟩
        · rintro ⟨bytes, w, hdata, -, hbytes, rfl⟩
          cases hbytes with
          | last =>
            cases hdata
            rfl
          | more h =>
            cases hdata
            omega
      · have hmod : byte.toNat % 128 = byte.toNat - 128 := by omega
        have hsmall : value + byte.toNat % 128 * 2 ^ shift < 2 ^ (shift + 7) := by
          have : byte.toNat % 128 * 2 ^ shift ≤ 127 * 2 ^ shift := Nat.mul_le_mul_right _ (by omega)
          rw [Nat.pow_add]
          omega
        have hvalue (w : Nat) : value + byte.toNat % 128 * 2 ^ shift + w * 2 ^ (shift + 7) =
            value + (byte.toNat - 128 + 128 * w) * 2 ^ shift := by
          rw [hmod, Nat.pow_add]
          ring
        rw [if_neg (by simpa using hlt), ih hsmall]
        constructor
        · rintro ⟨bytes, w, rfl, hlen, hbytes, rfl⟩
          exact ⟨byte :: bytes, _, rfl, Nat.succ_le_succ hlen, .more (by omega) hbytes, hvalue w⟩
        · rintro ⟨bytes, w, hdata, hlen, hbytes, rfl⟩
          cases hbytes with
          | last h =>
            cases hdata
            omega
          | more h hbytes =>
            cases hdata
            exact ⟨_, _, rfl, Nat.le_of_succ_le_succ hlen, hbytes, (hvalue _).symm⟩

theorem readVarint_iff : readVarint data = .ok (v, rest) ↔
    ∃ bytes, data = bytes ++ rest ∧ bytes.length ≤ varintLimit ∧ Proto3.IsVarint bytes v := by
  rw [readVarint, readVarintFrom_iff (by decide)]
  simp [varintLimit]

theorem readVarint_append (h : Proto3.IsVarint bytes v)
    (hlen : bytes.length ≤ varintLimit) (rest : Bytes) :
    readVarint (bytes ++ rest) = .ok (v, rest) :=
  readVarint_iff.mpr ⟨bytes, rfl, hlen, h⟩

theorem readSlice_iff : readSlice length data error = .ok (v, rest) ↔
    ∃ bytes, data = bytes ++ rest ∧ bytes.length = length ∧ v = .bytes bytes := by
  unfold readSlice
  constructor
  · intro h
    split at h
    · cases h
    · rename_i hle
      cases h
      exact ⟨_, (List.take_append_drop ..).symm, by simpa using hle, rfl⟩
  · rintro ⟨bytes, rfl, rfl, rfl⟩
    simp

theorem readSlice_append (h : bytes.length = length) (rest : Bytes) (error : String) :
    readSlice length (bytes ++ rest) error = .ok (.bytes bytes, rest) :=
  readSlice_iff.mpr ⟨bytes, rfl, h, rfl⟩

def entry (p : Proto3.Payload) : Nat × Value := (p.wire, .ofPayload p)

theorem readField_ok (h : readField data = .ok (r, rest)) :
    ∃ bytes f, data = bytes ++ rest ∧ Proto3.IsField varintLimit bytes f ∧
    r = (f.number, entry f.payload) := by
  obtain ⟨⟨tag, data₁⟩, htag, hread⟩ := bind_eq_ok h
  clear h
  obtain ⟨tagBytes, rfl, hlen, htag⟩ := readVarint_iff.mp htag
  have hnumber : tag >>> 3 = tag / 8 := Nat.shiftRight_eq_div_pow tag 3
  have hwire : tag &&& 7 = tag % 8 := Nat.and_two_pow_sub_one_eq_mod tag 3
  simp only [hnumber, hwire] at hread
  split at hread
  · cases hread
  rename_i hpos
  have hfield {p : Proto3.Payload} {bytes rest : Bytes} (hp : Proto3.IsPayload varintLimit bytes p)
      (hw : tag % 8 = p.wire) (hdata : data₁ = bytes ++ rest) :
      ∃ bytes f, tagBytes ++ data₁ = bytes ++ rest ∧ Proto3.IsField varintLimit bytes f ∧
        (tag / 8, tag % 8, Value.ofPayload p) = (f.number, entry f.payload) := by
    refine ⟨tagBytes ++ bytes, ⟨tag / 8, p⟩, by rw [hdata, List.append_assoc], ?_, by rw [hw]; rfl⟩
    refine .mk ?_ hlen (Nat.pos_of_ne_zero hpos) hp
    rwa [← hw, Nat.mul_comm, Nat.div_add_mod]
  split at hread
  · rename_i hw
    obtain ⟨⟨value, data₂⟩, hvalue, hend⟩ := bind_eq_ok hread
    cases hend
    obtain ⟨bytes, hdata, hlen', hbytes⟩ := readVarint_iff.mp hvalue
    exact hfield (.varint hbytes hlen') hw hdata
  split at hread
  · rename_i hw
    obtain ⟨⟨length, data₂⟩, hlength, hslice⟩ := bind_eq_ok hread
    obtain ⟨⟨value, data₃⟩, hvalue, hend⟩ := bind_eq_ok hslice
    cases hend
    obtain ⟨lengthBytes, hdata, hlen', hlength⟩ := readVarint_iff.mp hlength
    obtain ⟨bytes, hdata', rfl, rfl⟩ := readSlice_iff.mp hvalue
    refine hfield (.chunk hlength hlen') hw ?_
    rw [List.append_assoc, ← hdata']
    exact hdata
  split at hread
  · rename_i hw
    obtain ⟨⟨value, data₂⟩, hvalue, hend⟩ := bind_eq_ok hread
    cases hend
    obtain ⟨bytes, hdata, hlength, rfl⟩ := readSlice_iff.mp hvalue
    rcases hw with hw | hw
    · rw [if_pos hw] at hlength
      exact hfield (.fixed64 hlength) hw hdata
    · rw [if_neg (by omega)] at hlength
      exact hfield (.fixed32 hlength) hw hdata
  · cases hread

theorem readField_of_isField (h : Proto3.IsField varintLimit bytes f) (rest : Bytes) :
    readField (bytes ++ rest) = .ok ((f.number, entry f.payload), rest) := by
  obtain ⟨number, payload⟩ := f
  cases h with
  | mk htag hlen hpos hpayload =>
    have hw := payload.wire_lt
    have hnumber : (number * 8 + payload.wire) >>> 3 = number := by
      rw [Nat.shiftRight_eq_div_pow]
      omega
    have hwire : (number * 8 + payload.wire) &&& 7 = payload.wire := by
      rw [show (7 : Nat) = 2 ^ 3 - 1 by decide, Nat.and_two_pow_sub_one_eq_mod]
      omega
    simp only [readField, List.append_assoc, readVarint_append htag hlen, ok_bind, hnumber, hwire,
      Nat.ne_of_gt hpos, ↓reduceIte]
    cases hpayload with
    | varint hbytes hlen' =>
      simp [Proto3.Payload.wire, readVarint_append hbytes hlen', entry, Value.ofPayload,
        pure, Except.pure]
    | chunk hlength hlen' =>
      simp [Proto3.Payload.wire, readVarint_append hlength hlen', readSlice_append rfl, entry,
        Value.ofPayload, pure, Except.pure]
    | fixed64 h | fixed32 h =>
      simp [Proto3.Payload.wire, readSlice_append h, entry, Value.ofPayload, pure, Except.pure]

-- ---------------------------------------------------------------------------
-- The loop of `fields`
-- ---------------------------------------------------------------------------

def record (d : Dict Nat (Nat × Value)) (f : Proto3.Field) : Dict Nat (Nat × Value) :=
  d.set f.number (entry f.payload)

theorem length_of_readField (h : readField data = .ok (r, rest)) : rest.length < data.length := by
  obtain ⟨bytes, f, rfl, hf, -⟩ := readField_ok h
  have hpos := List.length_pos_iff.mpr hf.ne_nil
  simp only [List.length_append]
  omega

theorem fieldsFrom_fuel {fuel fuel' : Nat} (h : data.length ≤ fuel) (h' : data.length ≤ fuel')
    (d : Dict Nat (Nat × Value)) : fieldsFrom fuel data d = fieldsFrom fuel' data d := by
  induction fuel generalizing data d fuel' with
  | zero =>
    cases List.length_eq_zero_iff.mp (Nat.le_zero.mp h)
    cases fuel' <;> rfl
  | succ fuel ih =>
    cases data with
    | nil => cases fuel' <;> rfl
    | cons byte data =>
      cases fuel' with
      | zero => cases h'
      | succ fuel' =>
        simp only [fieldsFrom]
        cases hread : readField (byte :: data) with
        | error => rfl
        | ok r =>
          obtain ⟨⟨number, value⟩, rest⟩ := r
          have hshort := length_of_readField hread
          simp only [List.length_cons] at h h' hshort
          have hfuel : rest.length ≤ fuel ∧ rest.length ≤ fuel' := by omega
          exact ih hfuel.1 hfuel.2 _

def fieldsOnto (d : Dict Nat (Nat × Value)) (data : Bytes) :
    Except Raised (Dict Nat (Nat × Value)) :=
  fieldsFrom data.length data d

theorem fieldsOnto_error {d : Dict Nat (Nat × Value)} (h : readField (byte :: data) = .error e) :
    fieldsOnto d (byte :: data) = .error e := by
  simp only [fieldsOnto, List.length_cons, fieldsFrom, h]
  rfl

theorem fieldsOnto_read {d : Dict Nat (Nat × Value)}
    (h : readField (byte :: data) = .ok ((number, value), rest)) :
    fieldsOnto d (byte :: data) = fieldsOnto (d.set number value) rest := by
  have hshort := length_of_readField h
  simp only [fieldsOnto, List.length_cons, fieldsFrom, h, ok_bind]
  exact fieldsFrom_fuel (Nat.le_of_lt_succ hshort) (Nat.le_refl _) _

theorem fieldsOnto_field (h : Proto3.IsField varintLimit bytes f)
    (d : Dict Nat (Nat × Value)) (rest : Bytes) :
    fieldsOnto d (bytes ++ rest) = fieldsOnto (record d f) rest := by
  have hread := readField_of_isField h rest
  cases bytes with
  | nil => exact absurd rfl h.ne_nil
  | cons byte bytes => exact fieldsOnto_read hread

theorem fieldsOnto_append (h : Proto3.IsFields varintLimit a fs)
    (d : Dict Nat (Nat × Value)) (b : Bytes) :
    fieldsOnto d (a ++ b) = fieldsOnto (fs.foldl record d) b := by
  induction h generalizing d with
  | nil => rfl
  | cons hf _ ih =>
    rw [List.append_assoc, fieldsOnto_field hf, ih, List.foldl_cons]

theorem fieldsFrom_ok {fuel : Nat} {d d' : Dict Nat (Nat × Value)}
    (h : fieldsFrom fuel data d = .ok d') :
    ∃ fs, Proto3.IsFields varintLimit data fs ∧ d' = fs.foldl record d := by
  induction fuel generalizing data d with
  | zero =>
    cases data with
    | nil =>
      cases h
      exact ⟨[], .nil, rfl⟩
    | cons => cases h
  | succ fuel ih =>
    cases data with
    | nil =>
      cases h
      exact ⟨[], .nil, rfl⟩
    | cons byte data =>
      obtain ⟨⟨⟨number, value⟩, rest⟩, hread, h⟩ := bind_eq_ok h
      obtain ⟨bytes, f, hdata, hf, hr⟩ := readField_ok hread
      obtain ⟨fs, hfs, rfl⟩ := ih h
      cases hr
      rw [hdata]
      exact ⟨f :: fs, .cons hf hfs, rfl⟩

/-- `fields` reads exactly the concatenations of complete records. -/
theorem fields_iff : fields data = .ok d ↔
    ∃ fs, Proto3.IsFields varintLimit data fs ∧ d = fs.foldl record [] := by
  refine ⟨fieldsFrom_ok, ?_⟩
  rintro ⟨fs, hfs, rfl⟩
  have h := fieldsOnto_append hfs [] []
  rwa [List.append_nil] at h

theorem get?_foldl_record (fs : List Proto3.Field) (d : Dict Nat (Nat × Value)) (number : Nat) :
    (fs.foldl record d).get? number = ((Proto3.last fs number).map entry).or (d.get? number) := by
  induction fs generalizing d with
  | nil => rfl
  | cons f fs ih =>
    rw [List.foldl_cons, ih, record, Dict.get?_set, Proto3.last]
    cases Proto3.last fs number with
    | some p => rfl
    | none =>
      by_cases hn : f.number = number
      · simp [hn]
      · simp [hn]

theorem fieldsFrom_error {fuel : Nat} {d : Dict Nat (Nat × Value)}
    (h : fieldsFrom fuel data d = .error e)
    (d' : Dict Nat (Nat × Value)) : fieldsFrom fuel data d' = .error e := by
  induction fuel generalizing data d d' with
  | zero =>
    cases data with
    | nil => cases h
    | cons => exact h
  | succ fuel ih =>
    cases data with
    | nil => cases h
    | cons byte data =>
      simp only [fieldsFrom] at h ⊢
      cases hread : readField (byte :: data) with
      | error => rwa [hread] at h
      | ok r =>
        rw [hread] at h
        exact ih h _

-- ---------------------------------------------------------------------------
-- Messages
-- ---------------------------------------------------------------------------

def FieldType.read : FieldType → Proto3.Payload → Option Value
  | .uint32, .varint n | .enum, .varint n => some (.int n)
  | .bool, .varint n => some (.bool (n ≠ 0))
  | .string, .chunk b => (utf8Decode b).map .str
  | .bytes, .chunk b => some (.bytes b)
  | _, _ => none

def FieldType.Allows (type : FieldType) (p : Proto3.Payload) : Prop :=
  p.wire = type.wire ∧ (type = .string → ∃ t, p = .chunk (utf8 t))

theorem read_isSome_iff {type : FieldType} {p : Proto3.Payload} :
    (∃ v, type.read p = some v) ↔ type.Allows p := by
  cases p with
  | varint n =>
    cases type <;> simp [FieldType.read, FieldType.Allows, FieldType.wire, Proto3.Payload.wire]
  | fixed64 b | fixed32 b =>
    cases type <;> simp [FieldType.read, FieldType.Allows, FieldType.wire, Proto3.Payload.wire]
  | chunk b =>
    cases type with
    | string => simp [FieldType.read, FieldType.Allows, FieldType.wire,
        Proto3.Payload.wire, utf8Decode_eq_some]
    | _ => simp [FieldType.read, FieldType.Allows, FieldType.wire, Proto3.Payload.wire]

theorem convert_iff {type : FieldType} {p : Proto3.Payload} (hw : p.wire = type.wire) :
    convert type (.ofPayload p) = .ok v ↔ type.read p = some v := by
  cases p with
  | varint n =>
    cases type <;> simp_all [FieldType.wire, Proto3.Payload.wire, FieldType.read,
      convert, Value.ofPayload]
  | fixed64 b | fixed32 b => cases type <;> simp [FieldType.wire, Proto3.Payload.wire] at hw
  | chunk b =>
    cases type with
    | string =>
      simp only [convert, Value.ofPayload, string, FieldType.read]
      cases utf8Decode b <;> simp
    | bytes => simp [FieldType.read, convert, Value.ofPayload]
    | _ => cases hw

theorem read_payload {v : Value} (h : v.hasType type = true) : type.read v.payload = some v := by
  obtain ⟨hwire, hconvert⟩ := convert_payload h
  exact (convert_iff hwire).mp hconvert

/-- One turn of the loop of `decode_message`: the last record of the field must be one
of its type. -/
theorem decodeField_iff {encoded : Dict Nat (Nat × Value)} {o : Option Proto3.Payload}
    (h : encoded.get? spec.number = o.map entry) (decoded : Dict FieldName Value) :
    decodeField m encoded decoded spec = .ok d ↔
      (∀ p, o = some p → spec.type.Allows p) ∧
        d = ((o.bind spec.type.read).map (decoded.set spec.name)).getD decoded := by
  unfold decodeField
  rw [h]
  cases o with
  | none => simp [eq_comm]
  | some p =>
    simp only [Option.map_some, entry]
    by_cases hw : p.wire = spec.type.wire
    · rw [if_neg (not_not.mpr hw), bind_ok_iff]
      simp only [convert_iff hw, pure_ok_iff, Option.some.injEq, forall_eq', ← read_isSome_iff,
        Option.bind_some]
      constructor
      · rintro ⟨v, hv, rfl⟩
        exact ⟨⟨v, hv⟩, by simp [hv]⟩
      · rintro ⟨⟨v, hv⟩, rfl⟩
        exact ⟨v, hv, by simp [hv]⟩
    · rw [if_pos hw]
      constructor
      · intro h
        cases h
      · rintro ⟨hallows, -⟩
        exact absurd (hallows p rfl).1 hw

section
variable {encoded : Dict Nat (Nat × Value)} {fs : List Proto3.Field}
  (hget : ∀ number, encoded.get? number = (Proto3.last fs number).map entry)
include hget

theorem foldlM_decodeField_ok {specs : List FieldSpec}
    (h : ∀ spec ∈ specs, ∀ p, Proto3.last fs spec.number = some p → spec.type.Allows p)
    (decoded : Dict FieldName Value) : ∃ d,
      specs.foldlM (decodeField m encoded) decoded = .ok d := by
  induction specs generalizing decoded with
  | nil => exact ⟨decoded, rfl⟩
  | cons spec specs ih =>
    rw [List.forall_mem_cons] at h
    have hfield := (decodeField_iff (m := m) (hget spec.number) decoded).mpr ⟨h.1, rfl⟩
    rw [List.foldlM_cons, hfield]
    exact ih h.2 _

theorem of_foldlM_decodeField {specs : List FieldSpec} (hn : (specs.map FieldSpec.name).Nodup)
    {decoded : Dict FieldName Value} (h : specs.foldlM (decodeField m encoded) decoded = .ok d) :
    (∀ spec ∈ specs, ∀ p, Proto3.last fs spec.number = some p → spec.type.Allows p) ∧
    (∀ spec ∈ specs, d.get? spec.name =
      ((Proto3.last fs spec.number).bind spec.type.read).or (decoded.get? spec.name)) ∧
    ∀ name ∉ specs.map FieldSpec.name, d.get? name = decoded.get? name := by
  induction specs generalizing decoded with
  | nil =>
    cases h
    exact ⟨by simp, by simp, fun _ _ => rfl⟩
  | cons spec specs ih =>
    simp only [List.map_cons, List.nodup_cons] at hn
    rw [List.foldlM_cons] at h
    obtain ⟨decoded', hfield, h⟩ := bind_eq_ok h
    obtain ⟨hallows, hdecoded⟩ := (decodeField_iff (hget spec.number) decoded).mp hfield
    obtain ⟨hall, hin, hout⟩ := ih hn.2 h
    have hstep (name : FieldName) : decoded'.get? name =
        if spec.name = name then ((Proto3.last fs spec.number).bind spec.type.read).or
          (decoded.get? name)
        else decoded.get? name := by
      rw [hdecoded]
      cases (Proto3.last fs spec.number).bind spec.type.read with
      | none => simp
      | some v => simp [Dict.get?_set]
    refine ⟨?_, ?_, ?_⟩
    · rw [List.forall_mem_cons]
      exact ⟨hallows, hall⟩
    · rw [List.forall_mem_cons]
      refine ⟨?_, fun spec' hs => ?_⟩
      · rw [hout _ hn.1, hstep, if_pos rfl]
      · have hne : spec.name ≠ spec'.name := fun heq => hn.1 (heq ▸ List.mem_map_of_mem hs)
        rw [hin spec' hs, hstep, if_neg hne]
    · intro name hname
      simp only [List.map_cons, List.mem_cons, not_or] at hname
      rw [hout _ hname.2, hstep, if_neg (Ne.symm hname.1)]

end

theorem get?_records (fs : List Proto3.Field) (number : Nat) :
    (fs.foldl record []).get? number = (Proto3.last fs number).map entry := by
  rw [get?_foldl_record]
  exact Option.or_none

theorem decodeMessage_ok (hfs : Proto3.IsFields varintLimit data fs)
    (h : ∀ spec ∈ m.schema, ∀ p, Proto3.last fs spec.number = some p → spec.type.Allows p) :
    ∃ d, decodeMessage m data = .ok d := by
  rw [decodeMessage, fields_iff.mpr ⟨fs, hfs, rfl⟩]
  exact foldlM_decodeField_ok (get?_records fs) h []

theorem of_decodeMessage (hfs : Proto3.IsFields varintLimit data fs)
    (h : decodeMessage m data = .ok d) :
    (∀ spec ∈ m.schema, ∀ p, Proto3.last fs spec.number = some p → spec.type.Allows p) ∧
    (∀ spec ∈ m.schema, d.get? spec.name = (Proto3.last fs spec.number).bind spec.type.read) ∧
    ∀ name ∉ m.schema.map FieldSpec.name, d.get? name = none := by
  rw [decodeMessage, fields_iff.mpr ⟨fs, hfs, rfl⟩] at h
  obtain ⟨hall, hin, hout⟩ := of_foldlM_decodeField (get?_records fs) (schema_distinct m).2.1 h
  exact ⟨hall, fun spec hs => (hin spec hs).trans Option.or_none, hout⟩

theorem of_decodeMessage_encode {fs : List Proto3.Field}
    (hfs : ∀ f ∈ fs, 0 < f.number ∧ f.payload.Sized)
    (h : decodeMessage m (Proto3.encode fs) = .ok d) :
    ∀ spec ∈ m.schema, d.get? spec.name =
      (Proto3.last (Proto3.present fs) spec.number).bind spec.type.read := by
  obtain ⟨encoded, hencoded, -⟩ := bind_eq_ok h
  obtain ⟨gs, hgs, -⟩ := fields_iff.mp hencoded
  have hpresent : ∀ f ∈ Proto3.present fs, 0 < f.number ∧ f.payload.Sized :=
    fun f hf => hfs f (List.mem_of_mem_filter hf)
  rw [← hgs.unique (Proto3.isFields_flatMap_of_length hpresent (Nat.le_refl _))]
  exact (of_decodeMessage hgs h).2.1

theorem decodeMessage_encode (m : Message) (assign : FieldName → Value)
    (htyped : ∀ spec ∈ m.schema, (assign spec.name).hasType spec.type = true)
    (hfits : ∀ spec ∈ m.schema, (assign spec.name).payload.Fits) :
    ∃ d, decodeMessage m (Proto3.encode (m.fields assign)) = .ok d ∧
      ∀ spec ∈ m.schema, d.get? spec.name = (assign spec.name).present? := by
  obtain ⟨hnumbers, -, hrange⟩ := schema_distinct m
  have hfields : Proto3.IsFields varintLimit (Proto3.encode (m.fields assign))
      (Proto3.present (m.fields assign)) := by
    refine Proto3.isFields_flatMap fun f hf => ?_
    obtain ⟨spec, hs, rfl⟩ := List.mem_map.mp (List.mem_of_mem_filter hf)
    obtain ⟨hpos, hlt⟩ := hrange spec hs
    refine Proto3.isField_encode hpos ?_ (hfits spec hs).fitsIn
    show spec.number * 8 + 8 ≤ _
    omega
  have hdistinct : ((m.fields assign).map Proto3.Field.number).Nodup := by
    simpa [Message.fields, Function.comp_def] using hnumbers
  have hlast : ∀ spec ∈ m.schema, Proto3.last (Proto3.present (m.fields assign)) spec.number =
      (assign spec.name).present?.map Value.payload := by
    intro spec hs
    rw [Proto3.last_present hdistinct (List.mem_map_of_mem hs)]
    unfold Value.present?
    split <;> rfl
  have hread {spec : FieldSpec} (hs : spec ∈ m.schema) :
      ((assign spec.name).present?.map Value.payload).bind spec.type.read =
        (assign spec.name).present? := by
    unfold Value.present?
    split
    · rfl
    · exact read_payload (htyped spec hs)
  obtain ⟨d, hd⟩ := decodeMessage_ok (m := m) hfields fun spec hs p hp => by
    rw [hlast spec hs] at hp
    have hp' := hread hs
    rw [hp, Option.bind_some] at hp'
    obtain ⟨v, hv, -⟩ := Option.map_eq_some_iff.mp hp
    exact read_isSome_iff.mp ⟨v, hp'.trans hv⟩
  refine ⟨d, hd, fun spec hs => ?_⟩
  rw [(of_decodeMessage hfields hd).2.1 spec hs, hlast spec hs, hread hs]

-- ---------------------------------------------------------------------------
-- Data that is rejected
-- ---------------------------------------------------------------------------

theorem intOr0_ok (h : decodeMessage m data = .ok values) (hs : spec ∈ m.schema)
    (htype : spec.type = .uint32 ∨ spec.type = .enum) : ∃ n, intOr0 values spec.name = .ok n := by
  obtain ⟨encoded, hencoded, -⟩ := bind_eq_ok h
  obtain ⟨fs, hfs, -⟩ := fields_iff.mp hencoded
  rw [intOr0, (of_decodeMessage hfs h).2.1 spec hs]
  cases Proto3.last fs spec.number with
  | none => exact ⟨0, rfl⟩
  | some p => rcases htype with htype | htype <;> rw [htype] <;> cases p <;> exact ⟨_, rfl⟩

theorem intOr0_rejects (h : decodeMessage m data = .ok values) (spec : FieldSpec)
    (hs : spec ∈ m.schema)
    (htype : spec.type = .uint32 ∨ spec.type = .enum) : Rejects (intOr0 values spec.name) := by
  obtain ⟨n, hn⟩ := intOr0_ok h hs htype
  rw [hn]
  exact Fails.ok _ _

theorem StatusResponse.decode_rejects (data : Bytes) : Rejects (StatusResponse.decode data) := by
  refine (decodeMessage_rejects _ _).bind_of fun values hvalues => ?_
  refine (required_rejects _ _ _).bind fun _ => (required_rejects _ _ _).bind fun _ => ?_
  refine (intOr0_rejects hvalues ⟨.protocolVersion, 3, .uint32⟩ (by decide) (.inl rfl)).bind
    fun _ => ?_
  exact (required_rejects _ _ _).bind fun _ => Fails.ok _ _

theorem PairResponse.decode_rejects (data : Bytes) : Rejects (PairResponse.decode data) := by
  refine (decodeMessage_rejects _ _).bind_of fun values hvalues => ?_
  refine (required_rejects _ _ _).bind fun _ => (required_rejects _ _ _).bind fun _ =>
    (required_rejects _ _ _).bind fun _ => ?_
  refine (intOr0_rejects hvalues ⟨.protocolVersion, 6, .uint32⟩ (by decide) (.inl rfl)).bind
    fun _ => ?_
  exact (required_rejects _ _ _).bind fun _ => (required_rejects _ _ _).bind fun _ => Fails.ok _ _

theorem ErrorResponse.decode_rejects (data : Bytes) : Rejects (ErrorResponse.decode data) := by
  refine (decodeMessage_rejects _ _).bind_of fun values hvalues => ?_
  exact (intOr0_rejects hvalues ⟨.code, 1, .enum⟩ (by decide) (.inr rfl)).bind
    fun _ => Fails.ok _ _

-- ---------------------------------------------------------------------------
-- What is accepted
-- ---------------------------------------------------------------------------

/-- `decode_message` returns a value exactly for concatenations of complete
records in which the last record of each field of the message is one of its
type, and then each field has the value of its last record. -/
theorem decoder_accepts_last_records (m : Message) (data : Bytes) :
    ((∃ d, decodeMessage m data = .ok d) ↔ ∃ fs, Proto3.IsFields varintLimit data fs ∧
      ∀ spec ∈ m.schema, ∀ p, Proto3.last fs spec.number = some p → spec.type.Allows p) ∧
    ∀ d fs, decodeMessage m data = .ok d → Proto3.IsFields varintLimit data fs →
      (∀ spec ∈ m.schema, d.get? spec.name = (Proto3.last fs spec.number).bind spec.type.read) ∧
      ∀ name ∉ m.schema.map FieldSpec.name, d.get? name = none := by
  refine ⟨⟨?_, ?_⟩, fun d fs h hfs => (of_decodeMessage hfs h).2⟩
  · rintro ⟨d, h⟩
    obtain ⟨encoded, hencoded, -⟩ := bind_eq_ok h
    obtain ⟨fs, hfs, -⟩ := fields_iff.mp hencoded
    exact ⟨fs, hfs, (of_decodeMessage hfs h).1⟩
  · rintro ⟨fs, hfs, h⟩
    exact decodeMessage_ok hfs h

/-- A host name as a number, and then as a text. -/
theorem shadowed_record_accepted :
    (∃ d, decodeMessage .statusResponse [0x08, 0x00, 0x0a, 0x01, 0x78] = .ok d) ∧
    ¬ ∃ fs, Proto3.IsFields varintLimit [0x08, 0x00, 0x0a, 0x01, 0x78] fs ∧
      ∀ f ∈ fs, ∀ spec ∈ Message.statusResponse.schema, spec.number = f.number →
      spec.type.Allows f.payload := by
  constructor
  · have hnumber : Proto3.IsField varintLimit ([0x08] ++ [0x00]) ⟨1, .varint 0⟩ :=
      .mk (.last (by decide)) (by decide) (by decide) (.varint (.last (by decide)) (by decide))
    have hlength : Proto3.IsVarint [0x01] ([0x78] : Bytes).length := .last (by decide)
    have htext : Proto3.IsField varintLimit ([0x0a] ++ ([0x01] ++ [0x78]))
        ⟨1, .chunk (utf8 ['x'])⟩ :=
      .mk (.last (by decide)) (by decide) (by decide) (.chunk hlength (by decide))
    refine decodeMessage_ok (.cons hnumber (.cons htext .nil)) ?_
    intro spec hs p hp
    simp only [Message.schema, List.mem_cons, List.not_mem_nil, or_false] at hs
    rcases hs with rfl | rfl | rfl | rfl | rfl <;> cases hp
    exact ⟨rfl, fun _ => ⟨_, rfl⟩⟩
  · rintro ⟨fs, hfs, hall⟩
    obtain ⟨head, rest, f, gs, hdata, rfl, hf, -⟩ := hfs.exists_cons (by decide)
    have hread := readField_of_isField hf rest
    rw [← hdata] at hread
    have hfirst : readField [0x08, 0x00, 0x0a, 0x01, 0x78] = .ok ((1, 0, .int 0),
      [0x0a, 0x01, 0x78]) := rfl
    simp only [hfirst, Except.ok.injEq, Prod.mk.injEq, entry] at hread
    have hallows :=
      hall f List.mem_cons_self ⟨.hostname, 1, .string⟩ (by simp [Message.schema]) hread.1.1
    exact absurd (hread.1.2.1.trans hallows.1) (by decide)

end DeckyMyRig.Deck.Protobuf
