import DeckyMyRig.Deck.Protobuf
import DeckyMyRig.Lib.Proto3
import DeckyMyRig.Lib.Checked

/-!
# The Deck's codec and the wire format

The writers of `protobuf.py` write the fields of the format, and its readers raise
`DecodeError` only.
-/

namespace DeckyMyRig.Deck.Protobuf

open Octets Checked

-- ---------------------------------------------------------------------------
-- Writers
-- ---------------------------------------------------------------------------

theorem and_low7 (n : Nat) : n &&& 0x7f = n % 128 := Nat.and_two_pow_sub_one_eq_mod n 7

theorem or_high {n : Nat} (h : n < 128) : n ||| 0x80 = n + 128 := by
  have h := Nat.two_pow_add_eq_or_of_lt (i := 7) h 1
  rw [Nat.or_comm, Nat.add_comm]
  exact h.symm

theorem varint_eq (value : Nat) : varint value = Proto3.varint value := by
  induction value using Nat.strongRecOn with
  | ind value ih =>
    rw [varint, Proto3.varint]
    by_cases h : value < 128
    · rw [if_neg (by omega), if_pos h]
    · have hmod : value % 128 < 128 := Nat.mod_lt _ (by decide)
      rw [if_pos (by omega), if_neg h, and_low7, or_high hmod, Nat.shiftRight_eq_div_pow,
        ih _ (by omega)]

theorem uint_eq (field value : Nat) :
    uint field value = Proto3.Field.encode ⟨field, .varint value⟩ := by
  simp only [uint, varint_eq, Proto3.Field.encode, Proto3.Payload.wire, Proto3.Payload.encode,
    Nat.shiftLeft_eq]
  rfl

theorem blob_eq (field : Nat) (value : Bytes) :
    blob field value = Proto3.Field.encode ⟨field, .chunk value⟩ := by
  have htag : field <<< 3 ||| 2 = field * 8 + 2 := by
    rw [← Nat.shiftLeft_add_eq_or_of_lt (by decide), Nat.shiftLeft_eq]
  simp only [blob, htag, varint_eq, Proto3.Field.encode, Proto3.Payload.wire, Proto3.Payload.encode,
    List.append_assoc]

-- ---------------------------------------------------------------------------
-- Messages
-- ---------------------------------------------------------------------------

def Value.ofPayload : Proto3.Payload → Value
  | .varint n => .int n
  | .fixed64 b | .chunk b | .fixed32 b => .bytes b

def Value.payload : Value → Proto3.Payload
  | .int n => .varint n
  | .bool b => .varint b.toNat
  | .str t => .chunk (utf8 t)
  | .bytes b => .chunk b

def Value.hasType : Value → FieldType → Bool
  | .int _, .uint32 | .int _, .enum | .bool _, .bool | .str _, .string | .bytes _, .bytes => true
  | _, _ => false

def Value.present? (v : Value) : Option Value := if v.payload.isDefault then none else some v

theorem convert_payload {v : Value} (h : v.hasType type = true) :
    v.payload.wire = type.wire ∧ convert type (.ofPayload v.payload) = .ok v := by
  cases v with
  | int =>
    cases type with
    | uint32 | enum => exact ⟨rfl, rfl⟩
    | _ => cases h
  | bool b =>
    cases type with
    | bool => cases b <;> exact ⟨rfl, rfl⟩
    | _ => cases h
  | str t =>
    cases type with
    | string =>
      refine ⟨rfl, ?_⟩
      simp only [Value.payload, Value.ofPayload, convert, string, utf8Decode_utf8]
      rfl
    | _ => cases h
  | bytes =>
    cases type with
    | bytes => exact ⟨rfl, rfl⟩
    | _ => cases h

def Message.fields (m : Message) (assign : FieldName → Value) : List Proto3.Field :=
  m.schema.map fun spec => ⟨spec.number, (assign spec.name).payload⟩

theorem schema_distinct (m : Message) : (m.schema.map FieldSpec.number).Nodup ∧
    (m.schema.map FieldSpec.name).Nodup ∧ ∀ spec ∈ m.schema, 0 < spec.number ∧
    spec.number < 2 ^ 29 := by
  cases m <;> decide

theorem encodeField_eq {v : Value} (h : v.hasType spec.type = true) :
    encodeField spec v = .ok (Proto3.Field.encode ⟨spec.number, v.payload⟩) := by
  cases v <;> simp only [encodeField, Value.payload, text, ← uint_eq, ← blob_eq] <;>
    exact if_pos (by revert h; cases spec.type <;> simp [Value.hasType])

theorem encodeMessage_eq {m : Message} {values : Dict FieldName Value} (number : FieldName → Nat)
    (h : ∀ e ∈ (values : List _), ∃ spec, m.schema.find? (·.name = e.1) = some spec ∧
      spec.number = number e.1 ∧ e.2.hasType spec.type = true) :
    encodeMessage m values =
      .ok (List.flatMap (fun e => Proto3.Field.encode ⟨number e.1, e.2.payload⟩) values) := by
  have hmap := mapM_map (f := encodeEntry m) (g := id) (l := values)
    (k := fun e => Proto3.Field.encode ⟨number e.1, e.2.payload⟩) (by
      intro e he
      obtain ⟨spec, hspec, hnumber, htyped⟩ := h e he
      simp only [id, encodeEntry, hspec, encodeField_eq htyped, hnumber])
  rw [List.map_id] at hmap
  rw [encodeMessage, hmap, List.flatMap]
  rfl

def versionFields : List Proto3.Field :=
  [⟨1, .varint protocolVersion⟩, ⟨2, .chunk (utf8 pluginVersion)⟩]

theorem versions_eq {m : Message} (hm : m.schema = Message.statusRequest.schema) :
    encodeMessage m [(.protocolVersion, .int protocolVersion),
      (.clientVersion, .str pluginVersion)] = .ok (Proto3.encode versionFields) := by
  refine (encodeMessage_eq (fun name => if name = .protocolVersion then 1 else 2) ?_).trans rfl
  rw [hm]
  simp only [List.forall_mem_cons, List.not_mem_nil, false_imp_iff, implies_true, and_true]
  exact ⟨⟨_, rfl, rfl, rfl⟩, ⟨_, rfl, rfl, rfl⟩⟩

theorem statusRequest_eq : statusRequest = .ok (Proto3.encode versionFields) := versions_eq rfl

theorem shutdownRequest_eq : shutdownRequest = .ok (Proto3.encode versionFields) := versions_eq rfl

-- ---------------------------------------------------------------------------
-- Data that is rejected
-- ---------------------------------------------------------------------------

/-- The decoder raises `DecodeError` only. -/
def Rejects (x : Except Raised α) : Prop := Fails (fun e => ∃ message, e = .decode message) x

theorem rejects_decode (message : Text) : Rejects (.error (.decode message) : Except Raised α) :=
  Fails.error ⟨message, rfl⟩

theorem readVarintFrom_rejects (left shift value : Nat) (data : Bytes) :
    Rejects (readVarintFrom left shift value data) := by
  induction left generalizing shift value data with
  | zero => exact rejects_decode _
  | succ left ih =>
    cases data with
    | nil => exact rejects_decode _
    | cons byte data =>
      rw [readVarintFrom]
      split
      · exact Fails.ok _ _
      · exact ih _ _ _

theorem readSlice_rejects (length : Nat) (data : Bytes) (error : String) :
    Rejects (readSlice length data error) := by
  unfold readSlice
  split
  · exact rejects_decode _
  · exact Fails.ok _ _

theorem readField_rejects (data : Bytes) : Rejects (readField data) := by
  refine Fails.bind (readVarintFrom_rejects _ _ _ _) fun (tag, data) => ?_
  simp only
  split
  · exact rejects_decode _
  · split
    · exact Fails.bind (readVarintFrom_rejects _ _ _ _) fun _ => Fails.ok _ _
    · split
      · exact Fails.bind (readVarintFrom_rejects _ _ _ _) fun _ =>
          Fails.bind (readSlice_rejects _ _ _) fun _ => Fails.ok _ _
      · split
        · exact Fails.bind (readSlice_rejects _ _ _) fun _ => Fails.ok _ _
        · exact rejects_decode _

theorem fieldsFrom_rejects (fuel : Nat) (data : Bytes) (result : Dict Nat (Nat × Value)) :
    Rejects (fieldsFrom fuel data result) := by
  induction fuel generalizing data result with
  | zero =>
    cases data with
    | nil => exact Fails.ok _ _
    | cons => exact rejects_decode _
  | succ fuel ih =>
    cases data with
    | nil => exact Fails.ok _ _
    | cons => exact Fails.bind (readField_rejects _) fun _ => ih _ _

theorem string_rejects (value : Value) : Rejects (string value) := by
  unfold string
  split
  · split
    · exact Fails.ok _ _
    · exact rejects_decode _
  · exact rejects_decode _

theorem convert_rejects (type : FieldType) (value : Value) : Rejects (convert type value) := by
  unfold convert
  split
  case h_1 =>
    rw [map_eq_pure_bind]
    exact Fails.bind (string_rejects _) fun _ => Fails.ok _ _
  all_goals first | exact Fails.ok _ _ | exact rejects_decode _

theorem decodeMessage_rejects (m : Message) (data : Bytes) : Rejects (decodeMessage m data) := by
  refine Fails.bind (fieldsFrom_rejects _ _ _) fun encoded =>
    Fails.foldlM (fun decoded spec => ?_) _ _
  unfold decodeField
  split
  · exact Fails.ok _ _
  · split
    · exact rejects_decode _
    · exact Fails.bind (convert_rejects _ _) fun _ => Fails.ok _ _

theorem required_rejects (values : Dict FieldName Value) (name : FieldName)
    (expected : Value → Option (List α)) :
    Rejects (required values name expected) := by
  unfold required
  split
  · exact Fails.ok _ _
  · exact rejects_decode _

end DeckyMyRig.Deck.Protobuf
