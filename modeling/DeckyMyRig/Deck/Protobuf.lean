import DeckyMyRig.Deck.Libraries
import DeckyMyRig.Lib.Dicts

/-!
# Messages on the Deck

`decky/py_modules/decky_my_rig/protobuf.py` with the table of
`generated_schema.py`. Where the code keeps an offset into the data, the model
keeps the data from the offset on.
-/

namespace DeckyMyRig.Deck.Protobuf

open Octets

def protocolVersion : Nat := 1
def pluginVersion : Text := "0.1.0".toList

-- ---------------------------------------------------------------------------
-- The schema
-- ---------------------------------------------------------------------------

inductive Message
  | statusRequest
  | statusResponse
  | pairRequest
  | pairResponse
  | shutdownRequest
  | shutdownResponse
  | errorResponse
  deriving DecidableEq

def Message.name : Message → String
  | .statusRequest => "StatusRequest"
  | .statusResponse => "StatusResponse"
  | .pairRequest => "PairRequest"
  | .pairResponse => "PairResponse"
  | .shutdownRequest => "ShutdownRequest"
  | .shutdownResponse => "ShutdownResponse"
  | .errorResponse => "ErrorResponse"

inductive FieldName
  | protocolVersion
  | clientVersion
  | hostname
  | hostVersion
  | paired
  | hostId
  | clientSpake2Message
  | sessionId
  | clientConfirmation
  | hostSpake2Message
  | encryptionNonce
  | encryptedCredential
  | accepted
  | code
  | message
  deriving DecidableEq

def FieldName.name : FieldName → String
  | .protocolVersion => "protocol_version"
  | .clientVersion => "client_version"
  | .hostname => "hostname"
  | .hostVersion => "host_version"
  | .paired => "paired"
  | .hostId => "host_id"
  | .clientSpake2Message => "client_spake2_message"
  | .sessionId => "session_id"
  | .clientConfirmation => "client_confirmation"
  | .hostSpake2Message => "host_spake2_message"
  | .encryptionNonce => "encryption_nonce"
  | .encryptedCredential => "encrypted_credential"
  | .accepted => "accepted"
  | .code => "code"
  | .message => "message"

inductive FieldType
  | uint32
  | bool
  | enum
  | string
  | bytes
  deriving DecidableEq

structure FieldSpec where
  name : FieldName
  number : Nat
  type : FieldType
  deriving DecidableEq

def Message.schema : Message → List FieldSpec
  | .statusRequest | .shutdownRequest =>
    [⟨.protocolVersion, 1, .uint32⟩, ⟨.clientVersion, 2, .string⟩]
  | .statusResponse =>
    [⟨.hostname, 1, .string⟩, ⟨.hostVersion, 2, .string⟩, ⟨.protocolVersion, 3, .uint32⟩,
      ⟨.paired, 4, .bool⟩, ⟨.hostId, 5, .string⟩]
  | .pairRequest =>
    [⟨.protocolVersion, 1, .uint32⟩, ⟨.clientSpake2Message, 2, .bytes⟩, ⟨.sessionId, 3, .bytes⟩,
      ⟨.clientConfirmation, 4, .bytes⟩, ⟨.clientVersion, 5, .string⟩]
  | .pairResponse =>
    [⟨.hostSpake2Message, 1, .bytes⟩, ⟨.encryptionNonce, 2, .bytes⟩,
      ⟨.encryptedCredential, 3, .bytes⟩, ⟨.hostname, 4, .string⟩, ⟨.hostVersion, 5, .string⟩,
      ⟨.protocolVersion, 6, .uint32⟩, ⟨.hostId, 7, .string⟩, ⟨.sessionId, 8, .bytes⟩]
  | .shutdownResponse => [⟨.accepted, 1, .bool⟩]
  | .errorResponse => [⟨.code, 1, .enum⟩, ⟨.message, 2, .string⟩]

-- ---------------------------------------------------------------------------
-- Writing
-- ---------------------------------------------------------------------------

inductive Value
  | int (value : Nat)
  | bytes (value : Bytes)
  | str (value : Text)
  | bool (value : Bool)
  deriving DecidableEq

def varint (value : Nat) : Bytes :=
  if value > 0x7f then UInt8.ofNat (value &&& 0x7f ||| 0x80) :: varint (value >>> 7)
  else [UInt8.ofNat value]
termination_by value
decreasing_by
  rw [Nat.shiftRight_eq_div_pow]
  omega

def uint (field value : Nat) : Bytes := varint (field <<< 3) ++ varint value

def blob (field : Nat) (value : Bytes) : Bytes :=
  varint (field <<< 3 ||| 2) ++ varint value.length ++ value

def text (field : Nat) (value : Text) : Bytes := blob field (utf8 value)

/-- The plugin gives every field a value of its type; the conversions of other
values are left out. -/
def encodeField (spec : FieldSpec) : Value → Except Raised Bytes
  | .str value => if spec.type = .string then .ok (text spec.number value) else .error .type
  | .bytes value => if spec.type = .bytes then .ok (blob spec.number value) else .error .type
  | .int value =>
    if spec.type = .uint32 ∨ spec.type = .enum then .ok (uint spec.number value) else .error .type
  | .bool value => if spec.type = .bool then .ok (uint spec.number value.toNat) else .error .type

def encodeEntry (message : Message) (entry : FieldName × Value) : Except Raised Bytes :=
  match message.schema.find? (·.name = entry.1) with
  | none => .error .key
  | some spec => encodeField spec entry.2

def encodeMessage (message : Message) (values : Dict FieldName Value) : Except Raised Bytes := do
  let fields ← values.mapM (encodeEntry message)
  pure fields.flatten

-- ---------------------------------------------------------------------------
-- Reading
-- ---------------------------------------------------------------------------

def readVarintFrom : (left shift value : Nat) → Bytes → Except Raised (Nat × Bytes)
  | 0, _, _, _ => .error (.decode "oversized varint".toList)
  | _ + 1, _, _, [] => .error (.decode "truncated varint".toList)
  | left + 1, shift, value, byte :: data =>
    let value := value ||| (byte.toNat &&& 0x7f) <<< shift
    if byte < 0x80 then .ok (value, data) else readVarintFrom left (shift + 7) value data

def readVarint (data : Bytes) : Except Raised (Nat × Bytes) := readVarintFrom 10 0 0 data

def readSlice (length : Nat) (data : Bytes) (error : String) : Except Raised (Value × Bytes) :=
  if length > data.length then .error (.decode error.toList)
  else .ok (.bytes (data.take length), data.drop length)

def readField (data : Bytes) : Except Raised ((Nat × Nat × Value) × Bytes) := do
  let (tag, data) ← readVarint data
  let number := tag >>> 3
  let wire := tag &&& 7
  if number = 0 then .error (.decode "invalid field zero".toList)
  else if wire = 0 then do
    let (value, data) ← readVarint data
    pure ((number, wire, .int value), data)
  else if wire = 2 then do
    let (length, data) ← readVarint data
    let (value, data) ← readSlice length data "truncated field"
    pure ((number, wire, value), data)
  else if wire = 1 ∨ wire = 5 then do
    let (value, data) ← readSlice (if wire = 1 then 8 else 4) data "truncated fixed-width field"
    pure ((number, wire, value), data)
  else .error (.decode "unsupported wire type".toList)

/-- The loop of `fields`. Every turn takes a byte, so the length of the data is
enough `fuel`. -/
def fieldsFrom :
    (fuel : Nat) → Bytes → Dict Nat (Nat × Value) → Except Raised (Dict Nat (Nat × Value))
  | _, [], result => .ok result
  | 0, _ :: _, _ => .error (.decode "truncated field".toList)
  | fuel + 1, byte :: data, result => do
    let ((number, value), data) ← readField (byte :: data)
    fieldsFrom fuel data (result.set number value)

def fields (data : Bytes) : Except Raised (Dict Nat (Nat × Value)) := fieldsFrom data.length data []

def string : Value → Except Raised Text
  | .bytes value =>
    match utf8Decode value with
    | some text => .ok text
    | none => .error (.decode "invalid UTF-8".toList)
  | _ => .error (.decode "expected string".toList)

def convert (type : FieldType) (value : Value) : Except Raised Value :=
  match type, value with
  | .string, value => .str <$> string value
  | .bytes, .bytes value => .ok (.bytes value)
  | .bytes, _ => .error (.decode "expected bytes".toList)
  | .bool, .int value => .ok (.bool (value ≠ 0))
  | .bool, _ => .error (.decode "expected boolean".toList)
  | .uint32, .int value | .enum, .int value => .ok (.int value)
  | .uint32, _ | .enum, _ => .error (.decode "expected integer".toList)

def FieldType.wire : FieldType → Nat
  | .string | .bytes => 2
  | _ => 0

def decodeField (message : Message) (encoded : Dict Nat (Nat × Value))
    (decoded : Dict FieldName Value) (spec : FieldSpec) : Except Raised (Dict FieldName Value) :=
  match encoded.get? spec.number with
  | none => .ok decoded
  | some (wire, value) =>
    if wire ≠ spec.type.wire then
      .error (.decode s!"invalid wire type for {message.name}.{spec.name.name}".toList)
    else do
      let value ← convert spec.type value
      pure (decoded.set spec.name value)

def decodeMessage (message : Message) (data : Bytes) : Except Raised (Dict FieldName Value) := do
  let encoded ← fields data
  message.schema.foldlM (decodeField message encoded) []

-- ---------------------------------------------------------------------------
-- Messages
-- ---------------------------------------------------------------------------

def Value.str? : Value → Option Text
  | .str value => some value
  | _ => none

def Value.bytes? : Value → Option Bytes
  | .bytes value => some value
  | _ => none

def required (values : Dict FieldName Value) (name : FieldName)
    (expected : Value → Option (List α)) :
    Except Raised (List α) :=
  match (values.get? name).bind expected with
  | some (c :: rest) => .ok (c :: rest)
  | _ => .error (.decode s!"missing or invalid field: {name.name}".toList)

/-- `int(values.get(name, 0))`. The texts and bytes that `int` reads as numerals are
not told apart from the others: it never gets any. -/
def intOr0 (values : Dict FieldName Value) (name : FieldName) : Except Raised Nat :=
  match values.get? name with
  | none => .ok 0
  | some (.int value) => .ok value
  | some (.bool value) => .ok value.toNat
  | some (.str _) | some (.bytes _) =>
    .error (.value "invalid literal for int() with base 10".toList)

def Value.truthy : Value → Bool
  | .int value => value ≠ 0
  | .bool value => value
  | .str value => !value.isEmpty
  | .bytes value => !value.isEmpty

structure StatusResponse where
  hostname : Text
  hostVersion : Text
  protocolVersion : Nat
  paired : Bool
  hostId : Text
  deriving DecidableEq

def StatusResponse.decode (data : Bytes) : Except Raised StatusResponse := do
  let values ← decodeMessage .statusResponse data
  let hostname ← required values .hostname Value.str?
  let hostVersion ← required values .hostVersion Value.str?
  let protocolVersion ← intOr0 values .protocolVersion
  let paired := (values.get? .paired).any Value.truthy
  let hostId ← required values .hostId Value.str?
  pure { hostname, hostVersion, protocolVersion, paired, hostId }

structure PairResponse where
  hostMessage : Bytes
  nonce : Bytes
  ciphertext : Bytes
  hostname : Text
  hostVersion : Text
  protocolVersion : Nat
  hostId : Text
  sessionId : Bytes
  deriving DecidableEq

def PairResponse.decode (data : Bytes) : Except Raised PairResponse := do
  let values ← decodeMessage .pairResponse data
  let byteValue (name : FieldName) : Bytes := ((values.get? name).bind Value.bytes?).getD []
  let hostMessage ← required values .hostSpake2Message Value.bytes?
  let hostname ← required values .hostname Value.str?
  let hostVersion ← required values .hostVersion Value.str?
  let protocolVersion ← intOr0 values .protocolVersion
  let hostId ← required values .hostId Value.str?
  let sessionId ← required values .sessionId Value.bytes?
  pure {
    hostMessage
    nonce := byteValue .encryptionNonce
    ciphertext := byteValue .encryptedCredential
    hostname
    hostVersion
    protocolVersion
    hostId
    sessionId }

def pairingCredentialAad (response : PairResponse) : Except Raised Bytes := do
  let output ← [response.hostMessage, response.sessionId, utf8 response.hostname,
    utf8 response.hostVersion, utf8 response.hostId].foldlM (fun output field =>
      if field.length > 65535 then .error (.decode "pairing metadata is too large".toList)
      else .ok (output ++ beBytes 2 field.length ++ field))
    (utf8 "deckymyrig-pairing-credential-aad-v1\x00".toList)
  -- `int.to_bytes(4, "big")`
  if response.protocolVersion < 256 ^ 4 then pure (output ++ beBytes 4 response.protocolVersion)
  else .error .overflow

structure ErrorResponse where
  code : Nat
  message : Text
  deriving DecidableEq

def ErrorResponse.decode (data : Bytes) : Except Raised ErrorResponse := do
  let values ← decodeMessage .errorResponse data
  let code ← intOr0 values .code
  pure ⟨code, ((values.get? .message).bind Value.str?).getD []⟩

def statusRequest : Except Raised Bytes :=
  encodeMessage .statusRequest
    [(.protocolVersion, .int protocolVersion), (.clientVersion, .str pluginVersion)]

def shutdownRequest : Except Raised Bytes :=
  encodeMessage .shutdownRequest
    [(.protocolVersion, .int protocolVersion), (.clientVersion, .str pluginVersion)]

def pairRequest (clientMessage sessionId confirmation : Bytes) : Except Raised Bytes :=
  let values : Dict FieldName Value :=
    [(.protocolVersion, .int protocolVersion), (.clientVersion, .str pluginVersion)]
  let values :=
    if clientMessage.isEmpty then values else values.set .clientSpake2Message (.bytes clientMessage)
  let values := if sessionId.isEmpty then values else values.set .sessionId (.bytes sessionId)
  let values :=
    if confirmation.isEmpty then values else values.set .clientConfirmation (.bytes confirmation)
  encodeMessage .pairRequest values

end DeckyMyRig.Deck.Protobuf
