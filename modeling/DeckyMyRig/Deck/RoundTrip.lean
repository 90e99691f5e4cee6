import DeckyMyRig.Deck.Grammar
import Mathlib.Data.List.Nodup

/-!
# Laws of the Deck's codec

Decoding undoes encoding, whatever the order of the fields, and parsing a
concatenation is parsing its parts: blocks of records with other numbers can be
inserted between records without effect.
-/

namespace DeckyMyRig.Deck.Protobuf

open Octets Checked

-- ---------------------------------------------------------------------------
-- Decoding what was encoded
-- ---------------------------------------------------------------------------

/-- `sys.maxsize`: no string has more characters. -/
def maxsize : Nat := 2 ^ 63 - 1

/-- Integers and byte strings whose varints have at most ten bytes. -/
def Value.InRange : Value → Prop
  | .int n => n < 2 ^ 70
  | .bytes b => b.length < 2 ^ 70
  | .str t => t.length ≤ maxsize
  | .bool _ => True

structure Message.WellTyped (m : Message) (values : Dict FieldName Value) : Prop where
  keys : (values.map Prod.fst).Nodup
  typed : ∀ e ∈ (values : List _), ∃ spec ∈ m.schema, spec.name = e.1 ∧
    e.2.hasType spec.type = true ∧ e.2.InRange

theorem length_utf8_le (t : Text) : (utf8 t).length ≤ 4 * t.length := by
  induction t with
  | nil => exact Nat.le_refl _
  | cons c t ih =>
    have hc : (String.utf8EncodeChar c).length ≤ 4 := by
      rw [String.length_utf8EncodeChar]
      exact c.utf8Size_le_four
    simp only [utf8, List.flatMap_cons, List.length_append, List.length_cons] at ih ⊢
    omega

theorem Value.InRange.fitsIn {v : Value} (h : v.InRange) : v.payload.FitsIn varintLimit := by
  cases v with
  | int n => exact h
  | bytes b => exact h
  | bool b => cases b <;> exact Nat.lt_of_lt_of_le (by decide) (Nat.le_refl (128 ^ 10))
  | str t =>
    have hlen := length_utf8_le t
    have h : t.length ≤ maxsize := h
    show (utf8 t).length < 2 ^ 70
    simp only [maxsize] at h
    omega

theorem schema_find (m : Message) :
    ∀ spec ∈ m.schema, m.schema.find? (·.name = spec.name) = some spec := by
  cases m <;> decide

def Message.number (m : Message) (name : FieldName) : Nat :=
  ((m.schema.find? (·.name = name)).map FieldSpec.number).getD 0

theorem Message.number_eq {m : Message} {spec : FieldSpec} (hs : spec ∈ m.schema) :
    m.number spec.name = spec.number := by
  rw [Message.number, schema_find m spec hs]
  rfl

section
variable {m : Message} {values : Dict FieldName Value} (hv : m.WellTyped values)

def Message.records (m : Message) (values : Dict FieldName Value) : List Proto3.Field :=
  List.map (fun e => ⟨m.number e.1, e.2.payload⟩) values

include hv

theorem records_isFields : ∃ data, encodeMessage m values = .ok data ∧
    Proto3.IsFields varintLimit data (m.records values) := by
  have hspec : ∀ e ∈ (values : List _), ∃ spec, m.schema.find? (·.name = e.1) = some spec ∧
      spec.number = m.number e.1 ∧ e.2.hasType spec.type = true := by
    intro e he
    obtain ⟨spec, hs, hname, htype, -⟩ := hv.typed e he
    rw [← hname, Message.number_eq hs]
    exact ⟨spec, schema_find m spec hs, rfl, htype⟩
  have hfield : ∀ f ∈ m.records values, Proto3.IsField varintLimit f.encode f := by
    intro f hf
    obtain ⟨e, he, rfl⟩ := List.mem_map.mp hf
    obtain ⟨spec, hs, hname, -, hrange⟩ := hv.typed e he
    obtain ⟨hpos, hlt⟩ := (schema_distinct m).2.2 spec hs
    have hnumber : m.number e.1 = spec.number := by rw [← hname, Message.number_eq hs]
    refine Proto3.isField_encode ?_ ?_ hrange.fitsIn
    · rwa [hnumber]
    · simp only [hnumber]
      omega
  have hfields := Proto3.isFields_flatMap hfield
  rw [Message.records, List.flatMap_map] at hfields
  exact ⟨_, encodeMessage_eq m.number hspec, hfields⟩

theorem records_nodup : ((m.records values).map Proto3.Field.number).Nodup := by
  have hinj : ∀ spec ∈ m.schema, ∀ spec' ∈ m.schema, spec.number = spec'.number → spec = spec' :=
    List.inj_on_of_nodup_map (schema_distinct m).1
  have hmap : (m.records values).map Proto3.Field.number = (values.map Prod.fst).map m.number := by
    simp [Message.records, Function.comp_def]
  rw [hmap]
  refine hv.keys.map_on ?_
  intro a ha b hb heq
  obtain ⟨e, he, rfl⟩ := List.mem_map.mp ha
  obtain ⟨e', he', rfl⟩ := List.mem_map.mp hb
  obtain ⟨spec, hs, hname, -⟩ := hv.typed e he
  obtain ⟨spec', hs', hname', -⟩ := hv.typed e' he'
  rw [← hname, ← hname', Message.number_eq hs, Message.number_eq hs'] at heq
  rw [← hname, ← hname', hinj spec hs spec' hs' heq]

theorem last_records (hs : spec ∈ m.schema) :
    Proto3.last (m.records values) spec.number = (values.get? spec.name).map Value.payload := by
  cases hget : values.get? spec.name with
  | some v =>
    have hmem := Dict.mem_of_get? hget
    have hf : ⟨m.number spec.name, v.payload⟩ ∈ m.records values := List.mem_map.mpr ⟨_, hmem, rfl⟩
    rw [← Message.number_eq hs, Proto3.last_of_mem (records_nodup hv) hf]
    rfl
  | none =>
    refine Proto3.last_eq_none fun f hf heq => ?_
    obtain ⟨e, he, rfl⟩ := List.mem_map.mp hf
    obtain ⟨spec', hs', hname, -⟩ := hv.typed e he
    have hnumber : spec'.number = spec.number := by
      rw [← Message.number_eq hs', hname]
      exact heq
    have hspec := List.inj_on_of_nodup_map (schema_distinct m).1 hs' hs hnumber
    rw [← hspec, hname, Dict.get?_of_mem hv.keys he] at hget
    cases hget

theorem read_value (hs : spec ∈ m.schema) (hget : values.get? spec.name = some v) :
    spec.type.read v.payload = some v := by
  obtain ⟨spec', hs', hname, htype, -⟩ := hv.typed _ (Dict.mem_of_get? hget)
  rw [List.inj_on_of_nodup_map (schema_distinct m).2.1 hs' hs hname] at htype
  exact read_payload htype

theorem get?_of_not_mem (h : name ∉ m.schema.map FieldSpec.name) : values.get? name = none := by
  cases hget : values.get? name with
  | none => rfl
  | some v =>
    obtain ⟨spec, hs, hname, -⟩ := hv.typed _ (Dict.mem_of_get? hget)
    exact absurd (List.mem_map.mpr ⟨spec, hs, hname⟩) h

end

/-- Decoding what was encoded gives the values again. -/
theorem codec_round_trip (m : Message) (values : Dict FieldName Value) (hv : m.WellTyped values) :
    ∃ data d, encodeMessage m values = .ok data ∧ decodeMessage m data = .ok d ∧
      ∀ name, d.get? name = values.get? name := by
  obtain ⟨data, hdata, hfields⟩ := records_isFields hv
  have hallows : ∀ spec ∈ m.schema, ∀ p, Proto3.last (m.records values) spec.number = some p →
      spec.type.Allows p := by
    intro spec hs p hp
    rw [last_records hv hs] at hp
    obtain ⟨v, hget, rfl⟩ := Option.map_eq_some_iff.mp hp
    exact read_isSome_iff.mp ⟨v, read_value hv hs hget⟩
  obtain ⟨d, hd⟩ := decodeMessage_ok hfields hallows
  obtain ⟨-, hin, hout⟩ := of_decodeMessage hfields hd
  refine ⟨data, d, hdata, hd, fun name => ?_⟩
  by_cases hname : name ∈ m.schema.map FieldSpec.name
  · obtain ⟨spec, hs, rfl⟩ := List.mem_map.mp hname
    rw [hin spec hs, last_records hv hs]
    cases hget : values.get? spec.name with
    | none => rfl
    | some v => exact read_value hv hs hget
  · rw [hout name hname, get?_of_not_mem hv hname]

/-- A status response whose fields are written in another order. -/
theorem reordered_status_round_trip :
    ∃ data d, encodeMessage .statusResponse [(.hostId, .str ['i']), (.paired, .bool false),
      (.hostname, .str [])] =
        .ok data ∧ decodeMessage .statusResponse data = .ok d ∧ ∀ name, d.get? name =
        Dict.get? [(.hostId, .str ['i']), (.paired, .bool false), (.hostname, .str [])] name := by
  refine codec_round_trip .statusResponse _ ⟨by decide, ?_⟩
  simp only [List.forall_mem_cons, List.not_mem_nil, false_imp_iff, implies_true, and_true]
  exact ⟨⟨⟨.hostId, 5, .string⟩, by decide, rfl, rfl, show 1 ≤ maxsize by decide⟩,
    ⟨⟨.paired, 4, .bool⟩, by decide, rfl, rfl, trivial⟩,
    ⟨⟨.hostname, 1, .string⟩, by decide, rfl, rfl, Nat.zero_le maxsize⟩⟩

-- ---------------------------------------------------------------------------
-- Concatenations
-- ---------------------------------------------------------------------------

theorem foldlM_decodeField_congr {encoded encoded' : Dict Nat (Nat × Value)}
    {specs : List FieldSpec}
    (h : ∀ spec ∈ specs, encoded.get? spec.number = encoded'.get? spec.number)
    (decoded : Dict FieldName Value) :
    specs.foldlM (decodeField m encoded) decoded = specs.foldlM
      (decodeField m encoded') decoded := by
  induction specs generalizing decoded with
  | nil => rfl
  | cons spec specs ih =>
    rw [List.forall_mem_cons] at h
    have hfield : decodeField m encoded decoded spec = decodeField m encoded' decoded spec := by
      rw [decodeField, decodeField, h.1]
    rw [List.foldlM_cons, List.foldlM_cons, hfield]
    cases decodeField m encoded' decoded spec with
    | error e => rfl
    | ok decoded' => exact ih h.2 decoded'

theorem fieldsOnto_congr {m : Message} {d d' : Dict Nat (Nat × Value)}
    (h : ∀ spec ∈ m.schema, d.get? spec.number = d'.get? spec.number) (data : Bytes) :
    (fieldsOnto d data >>= fun encoded => m.schema.foldlM (decodeField m encoded) []) =
      fieldsOnto d' data >>= fun encoded => m.schema.foldlM (decodeField m encoded) [] := by
  cases hd : fieldsOnto d data with
  | error e => rw [show fieldsOnto d' data = .error e from fieldsFrom_error hd d']
  | ok encoded =>
    obtain ⟨fs, hfs, rfl⟩ := fieldsFrom_ok hd
    have hd' := fieldsOnto_append hfs d' []
    rw [List.append_nil] at hd'
    rw [hd']
    refine foldlM_decodeField_congr (fun spec hs => ?_) []
    rw [get?_foldl_record, get?_foldl_record, h spec hs]

/-- `fields` of a concatenation is `fields` of the first part overridden by
`fields` of the second, and records with other numbers can be inserted at any
boundary between records. -/
theorem concatenation_law :
    (∀ a b da db, fields a = .ok da → fields b = .ok db →
      ∃ d, fields (a ++ b) = .ok d ∧ ∀ number,
        d.get? number = (db.get? number).or (da.get? number)) ∧
    ∀ (m : Message) (a block b : Bytes) da dblock, fields a = .ok da → fields block = .ok dblock →
      (∀ spec ∈ m.schema, dblock.get? spec.number = none) →
      decodeMessage m (a ++ block ++ b) = decodeMessage m (a ++ b) := by
  constructor
  · intro a b da db ha hb
    obtain ⟨fs, hfs, rfl⟩ := fields_iff.mp ha
    obtain ⟨gs, hgs, rfl⟩ := fields_iff.mp hb
    refine ⟨_, fields_iff.mpr ⟨fs ++ gs, hfs.append hgs, rfl⟩, fun number => ?_⟩
    rw [get?_records, get?_records, get?_records, Proto3.last_append, Option.map_or]
  · intro m a block b da dblock ha hblock hother
    obtain ⟨fs, hfs, rfl⟩ := fields_iff.mp ha
    obtain ⟨gs, hgs, rfl⟩ := fields_iff.mp hblock
    have hinserted : fields (a ++ block ++ b) = fieldsOnto ((fs ++ gs).foldl record []) b :=
      fieldsOnto_append (hfs.append hgs) [] b
    have hplain : fields (a ++ b) = fieldsOnto (fs.foldl record []) b := fieldsOnto_append hfs [] b
    rw [decodeMessage, decodeMessage, hinserted, hplain]
    refine fieldsOnto_congr (fun spec hs => ?_) b
    have hnone : (Proto3.last gs spec.number).map entry = none := by
      rw [← get?_records]
      exact hother spec hs
    rw [get?_records, get?_records, Proto3.last_append, Option.map_or, hnone, Option.none_or]

end DeckyMyRig.Deck.Protobuf
