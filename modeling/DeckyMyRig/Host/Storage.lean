import DeckyMyRig.Host.Pairing

/-!
# The persisted identity

`host/src/storage/mod.rs`: what the host keeps across restarts. A save that
succeeds replaces the whole record, one that fails leaves it, so the store is
the record of the last successful save.
-/

namespace DeckyMyRig.Host

open Octets

abbrev Uuid := Block 16

/-- `Uuid::to_string`: 8-4-4-4-12 lower-case digits. -/
def Uuid.toText (u : Uuid) : Text :=
  let hex (b : Bytes) := hexEncode b
  hex (u.val.take 4) ++ '-' :: hex ((u.val.drop 4).take 2) ++ '-' :: hex ((u.val.drop 6).take 2) ++
    '-' :: hex ((u.val.drop 8).take 2) ++ '-' :: hex (u.val.drop 10)

structure AcceptedShutdownNonce where
  timestamp : UInt64
  nonce : Block 16
  deriving DecidableEq

structure HostIdentity where
  hostId : Uuid
  credential : Option Credential
  pairingCode : Option Text
  pairingCreatedAt : Nat
  acceptedShutdownNonces : List AcceptedShutdownNonce
  lastClientVersion : Option Text
  deriving DecidableEq

/-- `HostIdentity::default`, of the values it draws and the clock it reads. -/
def HostIdentity.new (hostId : Uuid) (value : Fin 1000000) (now : Nat) : HostIdentity where
  hostId
  credential := none
  pairingCode := some (formatCode value)
  pairingCreatedAt := now
  acceptedShutdownNonces := []
  lastClientVersion := none

end DeckyMyRig.Host
