import DeckyMyRig.Lib.Octets
import DeckyMyRig.Lib.Sha256

/-!
# What the host takes from other crates

The messages of `proto/decky_my_rig.proto`, and the functions of the
cryptographic crates and of `prost` that the host calls. They are parameters:
a theorem about the host holds whatever they compute, and states what it
relies on where it relies on something. HMAC keys of every length, HKDF
outputs of 32 bytes and AEAD plaintexts of 32 bytes are within the crates'
bounds, so the error branches for them in the host are never taken and these
functions are total.
-/

namespace DeckyMyRig.Host

open Octets

abbrev protocolVersion : UInt32 := 1

def hostVersion : Text := "0.1.0".toList

structure StatusRequest where
  protocolVersion : UInt32
  clientVersion : Text
  deriving DecidableEq

structure StatusResponse where
  hostname : Text
  hostVersion : Text
  protocolVersion : UInt32
  paired : Bool
  hostId : Text
  deriving DecidableEq

structure PairRequest where
  protocolVersion : UInt32
  clientSpake2Message : Bytes
  sessionId : Bytes
  clientConfirmation : Bytes
  clientVersion : Text
  deriving DecidableEq

structure PairResponse where
  hostSpake2Message : Bytes
  encryptionNonce : Bytes
  encryptedCredential : Bytes
  hostname : Text
  hostVersion : Text
  protocolVersion : UInt32
  hostId : Text
  sessionId : Bytes
  deriving DecidableEq

structure ShutdownRequest where
  protocolVersion : UInt32
  clientVersion : Text
  deriving DecidableEq

structure ShutdownResponse where
  accepted : Bool
  deriving DecidableEq

inductive ErrorCode
  | unspecified
  | unauthorized
  | pairingExpired
  | alreadyPaired
  | shutdownFailed
  | protocolMismatch
  | rateLimited
  | malformedRequest
  | hostIdentityMismatch
  deriving DecidableEq

structure ErrorResponse where
  code : ErrorCode
  message : Text
  deriving DecidableEq

structure Crates where
  /-- `Sha256::digest`. -/
  sha256 : Bytes → Bytes
  /-- `Hmac<Sha256>` over the concatenated updates. -/
  hmac : (key message : Bytes) → Bytes
  /-- `Hkdf<Sha256>` without salt, expanded to 32 bytes. -/
  hkdf : (secret info : Bytes) → Bytes
  /-- `ChaCha20Poly1305::encrypt`, the tag appended. -/
  encrypt : (key nonce message aad : Bytes) → Bytes
  /-- `Spake2::start_b`: the outbound message, from the randomness drawn. -/
  startB : (password idA idB entropy : Bytes) → Bytes
  /-- `Spake2::finish` of the state that `startB` made with the same arguments. -/
  finishB : (password idA idB entropy inbound : Bytes) → Option Bytes
  decodeStatusRequest : Bytes → Option StatusRequest
  decodePairRequest : Bytes → Option PairRequest
  decodeShutdownRequest : Bytes → Option ShutdownRequest
  encodeStatusResponse : StatusResponse → Bytes
  encodePairResponse : PairResponse → Bytes
  encodeShutdownResponse : ShutdownResponse → Bytes
  encodeErrorResponse : ErrorResponse → Bytes

/-- Crates with one answer to each call, for runs that call them at one input:
the digest and the tag given, a ciphertext that is the message and an empty
tag, and a `prost` that reads every request as the current version's. -/
def Crates.fixed (digest tag : Bytes) : Crates where
  sha256 _ := digest
  hmac _ _ := tag
  hkdf _ _ := List.replicate 32 0
  encrypt _ _ message _ := message ++ List.replicate 16 0
  startB _ _ _ entropy := entropy
  finishB _ _ _ _ _ := some (List.replicate 32 1)
  decodeStatusRequest _ := some ⟨1, hostVersion⟩
  decodePairRequest _ := none
  decodeShutdownRequest _ := some ⟨1, hostVersion⟩
  encodeStatusResponse _ := []
  encodePairResponse _ := []
  encodeShutdownResponse _ := []
  encodeErrorResponse _ := []

/-- Crates with SHA-256 as it is, for runs on fixed inputs. -/
def Crates.sample : Crates :=
  { Crates.fixed [] [] with
    sha256 := Sha256.digest
    hmac := Sha256.hmac
    hkdf := Sha256.hkdf }

end DeckyMyRig.Host
