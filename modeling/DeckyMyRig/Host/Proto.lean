import DeckyMyRig.Host.Crates
import DeckyMyRig.Lib.Proto3

/-!
# The host's messages on the wire

The messages of `proto/decky_my_rig.proto` as fields of the wire format, and what
is assumed of the code that `prost` derives for them: the encoder writes the
fields that differ from their defaults in the order of their numbers, and the
decoder reads such fields in any order. What it makes of other bytes is left open.
-/

namespace DeckyMyRig.Host

open Octets Proto3

def StatusResponse.fields (r : StatusResponse) : List Field :=
  [⟨1, .chunk (utf8 r.hostname)⟩, ⟨2, .chunk (utf8 r.hostVersion)⟩,
    ⟨3, .varint r.protocolVersion.toNat⟩, ⟨4, .varint r.paired.toNat⟩, ⟨5, .chunk (utf8 r.hostId)⟩]

def PairResponse.fields (r : PairResponse) : List Field :=
  [⟨1, .chunk r.hostSpake2Message⟩, ⟨2, .chunk r.encryptionNonce⟩,
    ⟨3, .chunk r.encryptedCredential⟩,
    ⟨4, .chunk (utf8 r.hostname)⟩, ⟨5, .chunk (utf8 r.hostVersion)⟩,
    ⟨6, .varint r.protocolVersion.toNat⟩, ⟨7, .chunk (utf8 r.hostId)⟩, ⟨8, .chunk r.sessionId⟩]

def ShutdownResponse.fields (r : ShutdownResponse) : List Field := [⟨1, .varint r.accepted.toNat⟩]

def ErrorCode.number : ErrorCode → Nat
  | .unspecified => 0
  | .unauthorized => 1
  | .pairingExpired => 2
  | .alreadyPaired => 3
  | .shutdownFailed => 4
  | .protocolMismatch => 5
  | .rateLimited => 6
  | .malformedRequest => 7
  | .hostIdentityMismatch => 8

def ErrorResponse.fields (r : ErrorResponse) : List Field :=
  [⟨1, .varint r.code.number⟩, ⟨2, .chunk (utf8 r.message)⟩]

def StatusRequest.fields (r : StatusRequest) : List Field :=
  [⟨1, .varint r.protocolVersion.toNat⟩, ⟨2, .chunk (utf8 r.clientVersion)⟩]

def ShutdownRequest.fields (r : ShutdownRequest) : List Field :=
  [⟨1, .varint r.protocolVersion.toNat⟩, ⟨2, .chunk (utf8 r.clientVersion)⟩]

def PairRequest.fields (r : PairRequest) : List Field :=
  [⟨1, .varint r.protocolVersion.toNat⟩, ⟨2, .chunk r.clientSpake2Message⟩, ⟨3, .chunk r.sessionId⟩,
    ⟨4, .chunk r.clientConfirmation⟩, ⟨5, .chunk (utf8 r.clientVersion)⟩]

/-- No buffer in a process is longer. -/
def InMemory (b : Bytes) : Prop := b.length < 2 ^ 64

structure StatusResponse.Built (r : StatusResponse) : Prop where
  hostname : r.hostname ≠ []
  hostVersion : r.hostVersion ≠ []
  hostId : r.hostId ≠ []
  inMemory : ∀ b ∈ [utf8 r.hostname, utf8 r.hostVersion, utf8 r.hostId], InMemory b

structure PairResponse.Built (r : PairResponse) : Prop where
  hostSpake2Message : r.hostSpake2Message ≠ []
  hostname : r.hostname ≠ []
  hostVersion : r.hostVersion ≠ []
  hostId : r.hostId ≠ []
  sessionId : r.sessionId ≠ []
  inMemory : ∀ b ∈ [r.hostSpake2Message, r.encryptionNonce, r.encryptedCredential, utf8 r.hostname,
    utf8 r.hostVersion, utf8 r.hostId, r.sessionId], InMemory b

structure Crates.ProstEncodes (C : Crates) : Prop where
  encodeStatusResponse : ∀ r, C.encodeStatusResponse r = encode r.fields
  encodePairResponse : ∀ r, C.encodePairResponse r = encode r.fields
  encodeShutdownResponse : ∀ r, C.encodeShutdownResponse r = encode r.fields
  encodeErrorResponse : ∀ r, C.encodeErrorResponse r = encode r.fields

structure Crates.Prost (C : Crates) : Prop extends C.ProstEncodes where
  decodeStatusRequest : ∀ r data, Encodes r.fields data → C.decodeStatusRequest data = some r
  decodePairRequest : ∀ r data, Encodes r.fields data → C.decodePairRequest data = some r
  decodeShutdownRequest : ∀ r data, Encodes r.fields data → C.decodeShutdownRequest data = some r

-- ---------------------------------------------------------------------------
-- A decoder of which this holds
-- ---------------------------------------------------------------------------

def StatusRequest.decode (data : Bytes) : Option StatusRequest := do
  let fields ← Proto3.decode data
  some ⟨← uint32 fields 1, ← string fields 2⟩

def ShutdownRequest.decode (data : Bytes) : Option ShutdownRequest := do
  let fields ← Proto3.decode data
  some ⟨← uint32 fields 1, ← string fields 2⟩

def PairRequest.decode (data : Bytes) : Option PairRequest := do
  let fields ← Proto3.decode data
  some ⟨← uint32 fields 1, ← bytes fields 2, ← bytes fields 3, ← bytes fields 4, ← string fields 5⟩

/-- The crates with this decoder, for runs on fixed inputs. -/
def Crates.withProst (C : Crates) : Crates :=
  { C with
    encodeStatusResponse := fun r => encode r.fields
    encodePairResponse := fun r => encode r.fields
    encodeShutdownResponse := fun r => encode r.fields
    encodeErrorResponse := fun r => encode r.fields
    decodeStatusRequest := StatusRequest.decode
    decodePairRequest := PairRequest.decode
    decodeShutdownRequest := ShutdownRequest.decode }

theorem Crates.prost_withProst (C : Crates) : C.withProst.Prost where
  encodeStatusResponse _ := rfl
  encodePairResponse _ := rfl
  encodeShutdownResponse _ := rfl
  encodeErrorResponse _ := rfl
  decodeStatusRequest r data h := by
    obtain ⟨order, hdecode, ho⟩ := h.decode
    have hn : (r.fields.map Field.number).Nodup := by simp [StatusRequest.fields]
    simp only [withProst, StatusRequest.decode, hdecode, Option.bind_eq_bind, Option.bind_some]
    rw [uint32_present (v := r.protocolVersion.toNat) hn ho (by simp [StatusRequest.fields]),
      string_present (t := r.clientVersion) hn ho (by simp [StatusRequest.fields])]
    simp
  decodePairRequest r data h := by
    obtain ⟨order, hdecode, ho⟩ := h.decode
    have hn : (r.fields.map Field.number).Nodup := by simp [PairRequest.fields]
    simp only [withProst, PairRequest.decode, hdecode, Option.bind_eq_bind, Option.bind_some]
    rw [uint32_present (v := r.protocolVersion.toNat) hn ho (by simp [PairRequest.fields]),
      bytes_present (b := r.clientSpake2Message) hn ho (by simp [PairRequest.fields]),
      bytes_present (b := r.sessionId) hn ho (by simp [PairRequest.fields]),
      bytes_present (b := r.clientConfirmation) hn ho (by simp [PairRequest.fields]),
      string_present (t := r.clientVersion) hn ho (by simp [PairRequest.fields])]
    simp
  decodeShutdownRequest r data h := by
    obtain ⟨order, hdecode, ho⟩ := h.decode
    have hn : (r.fields.map Field.number).Nodup := by simp [ShutdownRequest.fields]
    simp only [withProst, ShutdownRequest.decode, hdecode, Option.bind_eq_bind, Option.bind_some]
    rw [uint32_present (v := r.protocolVersion.toNat) hn ho (by simp [ShutdownRequest.fields]),
      string_present (t := r.clientVersion) hn ho (by simp [ShutdownRequest.fields])]
    simp

end DeckyMyRig.Host
