import DeckyMyRig.Lib.Octets
import DeckyMyRig.Lib.Sha256

/-!
# What the client takes from its libraries

The exceptions of `auth.py`, `protobuf.py` and `client.py`, and the functions
of `hashlib`, `hmac`, `cryptography` and `spake2` that they call, as parameters.
-/

namespace DeckyMyRig.Deck

open Octets

inductive ErrorKind
  | pairing
  | protocol
  | unavailable
  | identity
  | integrity
  | authentication
  | host
  deriving DecidableEq

inductive Raised
  | value (message : Text)
  /-- `protobuf.DecodeError`. -/
  | decode (message : Text)
  | unicode
  /-- `struct.error`. -/
  | struct
  | overflow
  | index
  | key
  | type
  | host (kind : ErrorKind) (message : Text) (status : Option Nat)
  /-- `OSError`, `URLError` and `TimeoutError`. -/
  | os
  /-- `http.client.HTTPException`. -/
  | http
  | invalidTag
  /-- `spake2.SPAKEError`. -/
  | spake
  deriving DecidableEq

def Raised.isValueError : Raised → Bool
  | .value _ | .decode _ | .unicode => true
  | _ => false

structure Libraries where
  /-- `hashlib.sha256(data).digest()`. -/
  sha256 : Bytes → Bytes
  /-- `hmac.digest(key, message, "sha256")`. -/
  hmac : (key message : Bytes) → Bytes
  /-- `HKDF` with SHA-256 and no salt, for 32 bytes. -/
  hkdf : (secret info : Bytes) → Bytes
  /-- `ChaCha20Poly1305(key).decrypt`. -/
  decrypt : (key nonce ciphertext aad : Bytes) → Except Raised Bytes
  /-- `SPAKE2_A.start`: the outbound message, from the randomness drawn. -/
  startA : (password idA idB entropy : Bytes) → Bytes
  /-- `SPAKE2_A.finish` of the exchange that `startA` began with the same arguments. -/
  finishA : (password idA idB entropy inbound : Bytes) → Except Raised Bytes
  /-- `str.upper` of a character that is not ASCII. -/
  upperOther : Char → Text
  /-- The value of a decimal digit that is not ASCII. -/
  digitOther : Char → Option Nat
  /-- `repr` of a string. -/
  repr : Text → Text

def Libraries.upper (L : Libraries) (s : Text) : Text :=
  s.flatMap fun c => if c.toNat < 128 then [c.toUpper] else L.upperOther c

/-- Libraries with one answer to each call, for runs that call them at one
input: the digest and the tag given, and a plaintext that is the ciphertext
without its tag. -/
def Libraries.fixed (digest tag : Bytes) : Libraries where
  sha256 _ := digest
  hmac _ _ := tag
  hkdf _ _ := List.replicate 32 0
  decrypt _ _ ciphertext _ := .ok (ciphertext.take (ciphertext.length - 16))
  startA _ _ _ entropy := entropy
  finishA _ _ _ _ _ := .ok (List.replicate 32 1)
  upperOther c := [c]
  digitOther _ := none
  repr s := s

/-- Libraries with SHA-256 as it is, for runs on fixed inputs. -/
def Libraries.sample : Libraries :=
  { Libraries.fixed [] [] with
    sha256 := Sha256.digest
    hmac := Sha256.hmac
    hkdf := Sha256.hkdf }

end DeckyMyRig.Deck
