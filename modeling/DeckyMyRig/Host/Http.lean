import DeckyMyRig.Host.Pairing
import DeckyMyRig.Host.Auth
import DeckyMyRig.Host.Versioning

/-!
# Requests and responses

The parts of `host/src/server.rs` between axum and the handlers: headers,
content type, and the response builders with their status codes and texts.
-/

namespace DeckyMyRig.Host

open Octets

structure HttpRequest where
  headers : List (Text × Bytes)
  body : Bytes

structure Response where
  status : UInt16
  body : Bytes
  /-- `x-decky-response-signature`. -/
  signature : Option Text
  deriving DecidableEq

/-- `HeaderValue::to_str`: visible ASCII, space and tab. -/
def headerText (value : Bytes) : Option Text :=
  if value.all fun b => b = 9 || 32 ≤ b && b < 127 then some (value.map fun b => Char.ofNat b.toNat)
  else none

def header (headers : List (Text × Bytes)) (name : Text) : Option Text :=
  (headers.lookup name).bind headerText

def contentType : Text := "application/x-protobuf".toList

/-- `str::trim` on header text, where blanks are spaces and tabs. -/
def trimBlanks (value : Text) : Text :=
  let blank (c : Char) : Bool := c = ' ' || c = '\t'
  ((value.dropWhile blank).reverse.dropWhile blank).reverse

def isProtobuf (headers : List (Text × Bytes)) : Bool :=
  (header headers "content-type".toList).any fun value =>
    (trimBlanks (value.takeWhile (· ≠ ';'))).map Char.toLower = contentType

structure AuthHeaders where
  timestamp : UInt64
  nonce : Bytes
  signature : Bytes
  deriving DecidableEq

def authHeaders (headers : List (Text × Bytes)) : Option AuthHeaders := do
  let timestamp ← (header headers "x-decky-timestamp".toList).bind parseU64
  let nonce ← (header headers "x-decky-nonce".toList).bind hexDecode
  let signature ← (header headers "x-decky-signature".toList).bind hexDecode
  some ⟨timestamp, nonce, signature⟩

structure AuthenticationContext where
  credential : Block 32
  nonce : Block 16
  deriving DecidableEq

-- ---------------------------------------------------------------------------
-- Response builders
-- ---------------------------------------------------------------------------

def protobuf (status : UInt16) (body : Bytes) : Response := ⟨status, body, none⟩

/-- The signed form; the fields of a response are always valid, so the
`expect` on the signature is never reached. -/
def authenticatedProtobuf (C : Crates) (status : UInt16) (body : Bytes)
    (authentication : AuthenticationContext) (path : Text) : Response :=
  ⟨status, body, (signResponse C authentication.credential.val authentication.nonce.val path status
    body).toOption.map hexEncode⟩

def error (C : Crates) (status : UInt16) (code : ErrorCode) (message : String) : Response :=
  protobuf status (C.encodeErrorResponse ⟨code, message.toList⟩)

def authenticatedError (C : Crates) (status : UInt16) (code : ErrorCode) (message : String)
    (authentication : AuthenticationContext) (path : Text) : Response :=
  authenticatedProtobuf C status (C.encodeErrorResponse ⟨code, message.toList⟩) authentication path

def mismatchMessage : String :=
  "DeckyMyRigHost and the Decky plugin use incompatible protocol versions."

def protocolMismatch (C : Crates) : Response := error C 426 .protocolMismatch mismatchMessage

def authenticatedProtocolMismatch (C : Crates)
    (authentication : AuthenticationContext) (path : Text) :
    Response :=
  authenticatedError C 426 .protocolMismatch mismatchMessage authentication path

def unauthorized (C : Crates) (reason : AuthError) : Response :=
  if reason = .persistence then
    error C 500 .unspecified "Authentication state could not be saved."
  else if reason = .rateLimited then
    error C 429 .rateLimited "Too many authentication failures."
  else
    error C (if reason = .replay then 409 else 401) .unauthorized "Request authentication failed."

def pairingFailed (C : Crates) : PairingError → Response
  | .expired => error C 410 .pairingExpired "The pairing code expired."
  | .rateLimited => error C 429 .rateLimited "Too many pairing attempts."
  | .invalid | .encryption => error C 401 .unauthorized "Pairing failed."

end DeckyMyRig.Host
