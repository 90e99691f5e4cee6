import DeckyMyRig.Deck.Libraries
import DeckyMyRig.Deck.Python

/-!
# Request and response authentication on the Deck

`decky/py_modules/decky_my_rig/auth.py`. The time and the nonce that `sign`
draws by default are its arguments.
-/

namespace DeckyMyRig.Deck.Auth

open Octets

def domain : Bytes := utf8 "deckymyrig-auth-v1\x00".toList
def responseDomain : Bytes := utf8 "deckymyrig-response-v1\x00".toList

def encodeAscii (s : Text) : Except Raised Bytes :=
  if s.all fun c => c.toNat < 128 then .ok (s.map fun c => UInt8.ofNat c.toNat) else .error .unicode

/-- `struct.pack` of one unsigned number on `width` bytes. -/
def pack (width : Nat) (value : Int) : Except Raised Bytes :=
  if 0 ≤ value ∧ value < 256 ^ width then .ok (beBytes width value.toNat) else .error .struct

def packField (field : Bytes) : Except Raised Bytes := do
  let length ← pack 2 field.length
  pure (length ++ field)

def canonicalMessage (L : Libraries) (timestamp : Int) (nonce : Bytes) (method path : Text)
    (body : Bytes) : Except Raised Bytes :=
  if nonce.length ≠ 16 then .error (.value "nonce must be 16 bytes".toList)
  else do
    let method ← encodeAscii (L.upper method)
    let path ← encodeAscii path
    let timestamp ← pack 8 timestamp
    let fields ← [nonce, method, path].mapM packField
    pure (domain ++ timestamp ++ fields.flatten ++ L.sha256 body)

structure AuthHeaders where
  timestamp : Int
  nonce : Bytes
  signature : Bytes
  deriving DecidableEq

def AuthHeaders.asHttp (h : AuthHeaders) : List (Text × Text) :=
  [("X-Decky-Timestamp".toList, (toString h.timestamp).toList),
    ("X-Decky-Nonce".toList, hexEncode h.nonce),
    ("X-Decky-Signature".toList, hexEncode h.signature)]

def sign (L : Libraries) (secret : Bytes) (method path : Text) (body : Bytes) (timestamp : Int)
    (nonce : Bytes) : Except Raised AuthHeaders := do
  let message ← canonicalMessage L timestamp nonce method path body
  pure ⟨timestamp, nonce, L.hmac secret message⟩

def responseMessage (L : Libraries) (requestNonce : Bytes) (path : Text) (status : Nat)
    (body : Bytes) : Except Raised Bytes :=
  if requestNonce.length ≠ 16 ∨ ¬ (100 ≤ status ∧ status ≤ 999) then
    .error (.value "invalid response authentication context".toList)
  else do
    let path ← encodeAscii path
    let fields ← [requestNonce, path].mapM packField
    let status ← pack 2 status
    pure (responseDomain ++ fields.flatten ++ status ++ L.sha256 body)

def responseSignature (L : Libraries) (secret requestNonce : Bytes) (path : Text) (status : Nat)
    (body : Bytes) : Except Raised Bytes := do
  let message ← responseMessage L requestNonce path status body
  pure (L.hmac secret message)

def verifyResponse (L : Libraries) (secret requestNonce : Bytes) (path : Text) (status : Nat)
    (body : Bytes) (signature : Option Text) : Except Raised Unit :=
  match fromHex (signature.getD []) with
  | none => .error (.value "host response authentication is malformed".toList)
  | some supplied => do
    let expected ← responseSignature L secret requestNonce path status body
    if expected ≠ supplied then .error (.value "host response authentication failed".toList)
    else pure ()

end DeckyMyRig.Deck.Auth
