import DeckyMyRig.Deck.Grammar
import DeckyMyRig.Host.Proto

/-!
# Messages between the Deck and the host

What `prost` encodes on the host, `protobuf.py` decodes on the Deck, and the
other way round.
-/

namespace DeckyMyRig.System

open Octets Checked Deck.Protobuf

-- ---------------------------------------------------------------------------
-- From the host to the Deck
-- ---------------------------------------------------------------------------

theorem required_str {values : Dict FieldName Value} (h : values.get? name = (Value.str t).present?)
    (hne : t ≠ []) : required values name Value.str? = .ok t := by
  obtain ⟨c, rest, rfl⟩ := List.exists_cons_of_ne_nil hne
  have hpresent : (Value.str (c :: rest)).present? = some (.str (c :: rest)) := by
    simp [Value.present?, Value.payload, Proto3.Payload.isDefault, utf8_eq_nil]
  rw [required, h, hpresent]
  rfl

theorem required_bytes {values : Dict FieldName Value}
    (h : values.get? name = (Value.bytes b).present?)
    (hne : b ≠ []) : required values name Value.bytes? = .ok b := by
  obtain ⟨c, rest, rfl⟩ := List.exists_cons_of_ne_nil hne
  rw [required, h]
  rfl

theorem intOr0_present {values : Dict FieldName Value}
    (h : values.get? name = (Value.int n).present?) :
    intOr0 values name = .ok n := by
  rw [intOr0, h]
  cases n <;> rfl

theorem bytes_present {values : Dict FieldName Value}
    (h : values.get? name = (Value.bytes b).present?) :
    ((values.get? name).bind Value.bytes?).getD [] = b := by
  rw [h]
  cases b <;> rfl

theorem str_present {values : Dict FieldName Value}
    (h : values.get? name = (Value.str t).present?) :
    ((values.get? name).bind Value.str?).getD [] = t := by
  rw [h]
  by_cases ht : t = []
  · subst ht
    rfl
  · simp [Value.present?, Value.payload, Proto3.Payload.isDefault, utf8_eq_nil, ht, Value.str?]

theorem bool_present {values : Dict FieldName Value}
    (h : values.get? name = (Value.bool b).present?) :
    (values.get? name).any Value.truthy = b := by
  rw [h]
  cases b <;> rfl

def statusValues (r : Host.StatusResponse) : FieldName → Value
  | .hostname => .str r.hostname
  | .hostVersion => .str r.hostVersion
  | .protocolVersion => .int r.protocolVersion.toNat
  | .paired => .bool r.paired
  | .hostId => .str r.hostId
  | _ => .int 0

def pairValues (r : Host.PairResponse) : FieldName → Value
  | .hostSpake2Message => .bytes r.hostSpake2Message
  | .encryptionNonce => .bytes r.encryptionNonce
  | .encryptedCredential => .bytes r.encryptedCredential
  | .hostname => .str r.hostname
  | .hostVersion => .str r.hostVersion
  | .protocolVersion => .int r.protocolVersion.toNat
  | .hostId => .str r.hostId
  | .sessionId => .bytes r.sessionId
  | _ => .int 0

def errorValues (r : Host.ErrorResponse) : FieldName → Value
  | .code => .int r.code.number
  | .message => .str r.message
  | _ => .int 0

theorem toNat_fits (n : UInt32) : n.toNat < 2 ^ 64 := n.toNat_lt.trans (by decide)

theorem statusResponse_decode {r : Host.StatusResponse} (h : r.Built) :
    StatusResponse.decode (Proto3.encode r.fields) =
      .ok ⟨r.hostname, r.hostVersion, r.protocolVersion.toNat, r.paired, r.hostId⟩ := by
  have hmem := h.inMemory
  simp only [List.forall_mem_cons, List.not_mem_nil, false_imp_iff, implies_true, and_true] at hmem
  have hpaired : r.paired.toNat < 2 ^ 64 := r.paired.toNat_lt.trans (by decide)
  obtain ⟨values, hvalues, hget⟩ := decodeMessage_encode .statusResponse (statusValues r)
    (by simp [Message.schema, statusValues, Value.hasType])
    (by
      simp only [Message.schema, List.forall_mem_cons, List.not_mem_nil, false_imp_iff,
        implies_true, and_true]
      exact ⟨hmem.1, hmem.2.1, toNat_fits _, hpaired, hmem.2.2⟩)
  simp only [Message.schema, List.forall_mem_cons, List.not_mem_nil, false_imp_iff, implies_true,
    and_true, statusValues] at hget
  obtain ⟨hname, hversion, hprotocol, hpaired, hid⟩ := hget
  have hdecoded : decodeMessage .statusResponse (Proto3.encode r.fields) = .ok values := hvalues
  simp only [StatusResponse.decode, hdecoded, ok_bind, required_str hname h.hostname,
    required_str hversion h.hostVersion, required_str hid h.hostId, intOr0_present hprotocol,
    bool_present hpaired]
  rfl

theorem pairResponse_decode {r : Host.PairResponse} (h : r.Built) :
    PairResponse.decode (Proto3.encode r.fields) =
      .ok ⟨r.hostSpake2Message, r.encryptionNonce, r.encryptedCredential, r.hostname, r.hostVersion,
        r.protocolVersion.toNat, r.hostId, r.sessionId⟩ := by
  have hmem := h.inMemory
  simp only [List.forall_mem_cons, List.not_mem_nil, false_imp_iff, implies_true, and_true] at hmem
  obtain ⟨hm1, hm2, hm3, hm4, hm5, hm7, hm8⟩ := hmem
  obtain ⟨values, hvalues, hget⟩ := decodeMessage_encode .pairResponse (pairValues r)
    (by simp [Message.schema, pairValues, Value.hasType])
    (by
      simp only [Message.schema, List.forall_mem_cons, List.not_mem_nil, false_imp_iff,
        implies_true, and_true]
      exact ⟨hm1, hm2, hm3, hm4, hm5, toNat_fits _, hm7, hm8⟩)
  simp only [Message.schema, List.forall_mem_cons, List.not_mem_nil, false_imp_iff, implies_true,
    and_true, pairValues] at hget
  obtain ⟨hmessage, hnonce, hcredential, hname, hversion, hprotocol, hid, hsession⟩ := hget
  have hdecoded : decodeMessage .pairResponse (Proto3.encode r.fields) = .ok values := hvalues
  simp only [PairResponse.decode, hdecoded, ok_bind, required_bytes hmessage h.hostSpake2Message,
    required_str hname h.hostname, required_str hversion h.hostVersion, required_str hid h.hostId,
    required_bytes hsession h.sessionId, intOr0_present hprotocol, bytes_present hnonce,
    bytes_present hcredential]
  rfl

theorem errorResponse_decode {r : Host.ErrorResponse} (h : Host.InMemory (utf8 r.message)) :
    ErrorResponse.decode (Proto3.encode r.fields) = .ok ⟨r.code.number, r.message⟩ := by
  have hcode : r.code.number < 2 ^ 64 := by cases r.code <;> decide
  obtain ⟨values, hvalues, hget⟩ := decodeMessage_encode .errorResponse (errorValues r)
    (by simp [Message.schema, errorValues, Value.hasType])
    (by
      simp only [Message.schema, List.forall_mem_cons, List.not_mem_nil, false_imp_iff,
        implies_true, and_true]
      exact ⟨hcode, h⟩)
  simp only [Message.schema, List.forall_mem_cons, List.not_mem_nil, false_imp_iff, implies_true,
    and_true, errorValues] at hget
  have hdecoded : decodeMessage .errorResponse (Proto3.encode r.fields) = .ok values := hvalues
  simp only [ErrorResponse.decode, hdecoded, ok_bind, intOr0_present hget.1, str_present hget.2]
  rfl

-- ---------------------------------------------------------------------------
-- From the Deck to the host
-- ---------------------------------------------------------------------------

def pairRequestFields (clientMessage sessionId confirmation : Bytes) : List Proto3.Field :=
  [⟨1, .varint protocolVersion⟩, ⟨5, .chunk (utf8 pluginVersion)⟩, ⟨2, .chunk clientMessage⟩,
    ⟨3, .chunk sessionId⟩, ⟨4, .chunk confirmation⟩]

def pairRequestNumber : FieldName → Nat
  | .protocolVersion => 1
  | .clientSpake2Message => 2
  | .sessionId => 3
  | .clientConfirmation => 4
  | _ => 5

theorem pairRequest_eq (clientMessage sessionId confirmation : Bytes) :
    pairRequest clientMessage sessionId confirmation =
      .ok (Proto3.encode (pairRequestFields clientMessage sessionId confirmation)) := by
  let Written (e : FieldName × Value) : Prop :=
    ∃ spec, Message.pairRequest.schema.find? (·.name = e.1) = some spec ∧
      spec.number = pairRequestNumber e.1 ∧ e.2.hasType spec.type = true
  -- each `if` adds an entry that the schema has
  have hset {values : Dict FieldName Value} {name b} (h : ∀ e ∈ (values : List _), Written e)
      (hw : Written (name, .bytes b)) :
      ∀ e ∈ (if b.isEmpty then values else values.set name (.bytes b) : List _), Written e := by
    intro e he
    split at he
    · exact h e he
    · rcases Dict.mem_set he with rfl | he
      · exact hw
      · exact h e he
  have hbase : ∀ e ∈ [(.protocolVersion, .int protocolVersion),
      (.clientVersion, .str pluginVersion)],
        Written e := by
    simp only [List.forall_mem_cons, List.not_mem_nil, false_imp_iff, implies_true, and_true]
    exact ⟨⟨_, rfl, rfl, rfl⟩, ⟨_, rfl, rfl, rfl⟩⟩
  refine (encodeMessage_eq pairRequestNumber (hset (hset (hset hbase ⟨_, rfl, rfl, rfl⟩)
    ⟨_, rfl, rfl, rfl⟩) ⟨_, rfl, rfl, rfl⟩)).trans ?_
  cases clientMessage <;> cases sessionId <;> cases confirmation <;> rfl

theorem pairRequest_encodes {clientMessage sessionId confirmation : Bytes}
    (hmem : ∀ b ∈ [clientMessage, sessionId, confirmation], Host.InMemory b) :
    Proto3.Encodes
      (Host.PairRequest.fields
        ⟨Host.protocolVersion, clientMessage, sessionId, confirmation, pluginVersion⟩)
      (Proto3.encode (pairRequestFields clientMessage sessionId confirmation)) := by
  simp only [List.forall_mem_cons, List.not_mem_nil, false_imp_iff, implies_true, and_true] at hmem
  refine .of_perm ?_ ?_
  · simp only [Host.PairRequest.fields, List.forall_mem_cons, List.not_mem_nil, false_imp_iff,
      implies_true, and_true, Proto3.Field.Fits, Proto3.Payload.Fits]
    exact ⟨⟨by decide, by decide, by decide⟩, ⟨by decide, by decide, hmem.1⟩,
      ⟨by decide, by decide, hmem.2.1⟩,
      ⟨by decide, by decide, hmem.2.2⟩, ⟨by decide, by decide, by decide⟩⟩
  · -- the version is written before the bytes
    exact .cons _ (List.perm_append_singleton _ [_, _, _]).symm

theorem versions_encode : Proto3.Encodes versionFields (Proto3.encode versionFields) := by
  refine .of_perm ?_ (.refl _)
  simp only [versionFields, List.forall_mem_cons, List.not_mem_nil, false_imp_iff, implies_true,
    and_true, Proto3.Field.Fits, Proto3.Payload.Fits]
  exact ⟨⟨by decide, by decide, by decide⟩, ⟨by decide, by decide, by decide⟩⟩

/-- Every response that the host builds is decoded to the values it was built
with, and every request that the Deck writes is read as the fields it was
written for. -/
theorem messages_read_back {C : Host.Crates} (hC : C.Prost) :
    (∀ r : Host.StatusResponse, r.Built → StatusResponse.decode (C.encodeStatusResponse r) =
      .ok ⟨r.hostname, r.hostVersion, r.protocolVersion.toNat, r.paired, r.hostId⟩) ∧
    (∀ r : Host.PairResponse, r.Built → PairResponse.decode (C.encodePairResponse r) =
      .ok ⟨r.hostSpake2Message, r.encryptionNonce, r.encryptedCredential, r.hostname, r.hostVersion,
        r.protocolVersion.toNat, r.hostId, r.sessionId⟩) ∧
    (∀ r : Host.ErrorResponse, Host.InMemory (utf8 r.message) →
      ErrorResponse.decode (C.encodeErrorResponse r) = .ok ⟨r.code.number, r.message⟩) ∧
    (∀ clientMessage sessionId confirmation,
      (∀ b ∈ [clientMessage, sessionId, confirmation], Host.InMemory b) →
      ∃ data, pairRequest clientMessage sessionId confirmation = .ok data ∧
      C.decodePairRequest data =
        some ⟨Host.protocolVersion, clientMessage, sessionId, confirmation, pluginVersion⟩) ∧
    (∃ data, statusRequest = .ok data ∧
      C.decodeStatusRequest data = some ⟨Host.protocolVersion, pluginVersion⟩) ∧
    ∃ data, shutdownRequest = .ok data ∧
      C.decodeShutdownRequest data = some ⟨Host.protocolVersion, pluginVersion⟩ := by
  refine ⟨fun r h => ?_, fun r h =>
    ?_, fun r h => ?_, fun clientMessage sessionId confirmation h => ?_,
    ⟨_, statusRequest_eq, ?_⟩, ⟨_, shutdownRequest_eq, ?_⟩⟩
  · rw [hC.encodeStatusResponse]
    exact statusResponse_decode h
  · rw [hC.encodePairResponse]
    exact pairResponse_decode h
  · rw [hC.encodeErrorResponse]
    exact errorResponse_decode h
  · exact ⟨_, pairRequest_eq .., hC.decodePairRequest _ _ (pairRequest_encodes h)⟩
  · exact hC.decodeStatusRequest _ _ versions_encode
  · exact hC.decodeShutdownRequest _ _ versions_encode

/-- A response whose version and flag are left out. -/
theorem unpaired_status_read_back :
    StatusResponse.decode (Host.Crates.sample.withProst.encodeStatusResponse
        ⟨"rig".toList, Host.hostVersion, 0, false, "id".toList⟩) =
      .ok ⟨"rig".toList, Host.hostVersion, 0, false, "id".toList⟩ := by
  refine (messages_read_back (Host.Crates.prost_withProst _)).1 _
    ⟨by decide, by decide, by decide, ?_⟩
  simp only [List.forall_mem_cons, List.not_mem_nil, false_imp_iff, implies_true,
    and_true, Host.InMemory]
  decide

end DeckyMyRig.System
