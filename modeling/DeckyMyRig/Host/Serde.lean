import DeckyMyRig.Host.Storage
import DeckyMyRig.Lib.Packing

/-!
# The identity as a document

`serde_json` on the `HostIdentity` of `host/src/storage/mod.rs` is a parameter. It
reads what it wrote, and nothing that is only the beginning of it.
-/

namespace DeckyMyRig.Host

open Octets

/-- `serde_json::to_vec` and `serde_json::from_slice`. `pairing_created_at` has 64
bits. -/
structure SerdeJson where
  toVec : HostIdentity → Bytes
  fromSlice : Bytes → Option HostIdentity
  reads : ∀ {identity}, identity.pairingCreatedAt < 2 ^ 64 →
    fromSlice (toVec identity) = some identity
  cut : ∀ {identity written more}, toVec identity = written ++ more → more ≠ [] →
    fromSlice written = none
  created : ∀ {document identity}, fromSlice document = some identity →
    identity.pairingCreatedAt < 2 ^ 64

-- ---------------------------------------------------------------------------
-- An instance
-- ---------------------------------------------------------------------------

open Packing

def AcceptedShutdownNonce.packed (e : AcceptedShutdownNonce) : List Bytes :=
  [number e.timestamp.toNat, e.nonce.val]

def AcceptedShutdownNonce.unpacked : List Bytes → Option (List AcceptedShutdownNonce)
  | [] => some []
  | [_] => none
  | timestamp :: nonce :: rest => do
    let timestamp ← readNumber timestamp
    let nonce ← Block.ofBytes 16 nonce
    let nonces ← unpacked rest
    some (⟨.ofNat timestamp, nonce⟩ :: nonces)

def HostIdentity.packed (identity : HostIdentity) : List Bytes :=
  identity.hostId.val :: option (·.val) identity.credential :: option utf8 identity.pairingCode ::
    number identity.pairingCreatedAt :: option utf8 identity.lastClientVersion ::
    identity.acceptedShutdownNonces.flatMap (·.packed)

def HostIdentity.unpacked : List Bytes → Option HostIdentity
  | hostId :: credential :: pairingCode :: pairingCreatedAt :: lastClientVersion :: nonces => do
    let hostId ← Block.ofBytes 16 hostId
    let credential ← readOption (Block.ofBytes 32) credential
    let pairingCode ← readOption utf8Decode pairingCode
    let pairingCreatedAt ← readNumber pairingCreatedAt
    let lastClientVersion ← readOption utf8Decode lastClientVersion
    let nonces ← AcceptedShutdownNonce.unpacked nonces
    if pairingCreatedAt < 2 ^ 64 then
      some ⟨hostId, credential, pairingCode, pairingCreatedAt, nonces, lastClientVersion⟩
    else none
  | _ => none

theorem AcceptedShutdownNonce.unpacked_packed (nonces : List AcceptedShutdownNonce) :
    unpacked (nonces.flatMap (·.packed)) = some nonces := by
  induction nonces with
  | nil => rfl
  | cons e nonces ih =>
    show unpacked (number e.timestamp.toNat :: e.nonce.val :: nonces.flatMap (·.packed)) = _
    simp only [unpacked, readNumber_number, Block.ofBytes_val, ih, Option.bind_eq_bind,
      Option.bind_some, UInt64.ofNat_toNat]

theorem HostIdentity.unpacked_packed {identity : HostIdentity}
    (h : identity.pairingCreatedAt < 2 ^ 64) :
    unpacked identity.packed = some identity := by
  simp only [packed, unpacked, Block.ofBytes_val, readOption_option Block.ofBytes_val,
    readOption_option utf8Decode_utf8, readNumber_number, AcceptedShutdownNonce.unpacked_packed,
    Option.bind_eq_bind, Option.bind_some, if_pos h]

theorem HostIdentity.created_of_unpacked (h : unpacked fields = some identity) :
    identity.pairingCreatedAt < 2 ^ 64 := by
  unfold unpacked at h
  split at h
  · simp only [Option.bind_eq_bind, Option.bind_eq_some_iff] at h
    obtain ⟨_, -, _, -, _, -, created, -, _, -, _, -, h⟩ := h
    obtain ⟨hcreated, heq⟩ := Option.ite_none_right_eq_some.mp h
    cases heq
    exact hcreated
  · cases h

/-- Another format with these laws, for runs on fixed inputs. -/
def SerdeJson.packed : SerdeJson where
  toVec identity := write identity.packed
  fromSlice document := (read document).bind HostIdentity.unpacked
  reads h := by rw [read_write, Option.bind_some, HostIdentity.unpacked_packed h]
  cut h hmore := by rw [read_cut h hmore, Option.bind_none]
  created h := by
    obtain ⟨fields, -, h⟩ := Option.bind_eq_some_iff.mp h
    exact HostIdentity.created_of_unpacked h

end DeckyMyRig.Host
