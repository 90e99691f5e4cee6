import DeckyMyRig.Deck.Auth
import DeckyMyRig.Deck.Protobuf
import DeckyMyRig.Deck.Documents

/-!
# The Deck's client

`decky/py_modules/decky_my_rig/client.py`, with what it relies on in `urllib`:
replies other than 2xx are raised, and redirects are followed first. A call
takes the answers of the network to the requests that it causes, one after the
other; after the last one nothing answers and the timeout expires. Random values
and the time are arguments.
-/

namespace DeckyMyRig.Deck

open Octets

-- ---------------------------------------------------------------------------
-- `urllib`
-- ---------------------------------------------------------------------------

/-- `OSError` (also `URLError` and `TimeoutError`) or `http.client.HTTPException`. -/
inductive Fault
  | os
  | http
  deriving DecidableEq

/-- A final reply. Other status codes are not HTTP, and `100 Continue` is skipped. -/
structure Reply where
  status : Nat
  final : 100 < status ∧ status < 1000
  headers : List (Text × Text)
  /-- The whole body, or what goes wrong while it is read. -/
  body : Except Fault Bytes

inductive Answer
  | fault (f : Fault)
  | reply (r : Reply)

/-- `headers.get(name)`: the first one, in any case. -/
def Reply.header (r : Reply) (name : Text) : Option Text :=
  (r.headers.find? fun h => h.1.map Char.toLower = name).map Prod.snd

def Reply.signature (r : Reply) : Option Text := r.header "x-decky-response-signature".toList

def Reply.location (r : Reply) : Option Text :=
  (r.header "location".toList).or (r.header "uri".toList)

/-- What a location leads to: no redirect for its scheme, a `ValueError` from
the URL parser, or the next request. -/
inductive Redirect
  | refused
  | invalid (message : Text)
  | follow (url : Text)

structure Urllib where
  redirect : (url location : Text) → Redirect

inductive Method
  | post
  | get
  deriving DecidableEq

inductive OpenError
  | httpError (reply : Reply)
  | fault (f : Fault)
  | value (message : Text)

def tooManyRedirects (visited : Dict Text Nat) (url : Text) : Bool :=
  (visited.get? url).getD 0 ≥ 4 || List.length visited ≥ 10

def isRedirect (status : Nat) : Bool :=
  status = 301 || status = 302 || status = 303 || status = 307 || status = 308

def urlopen (U : Urllib) (visited : Dict Text Nat) (method : Method) (url : Text) :
    List Answer → Except OpenError Reply
  | [] => .error (.fault .os)
  | .fault f :: _ => .error (.fault f)
  | .reply r :: answers =>
    if 200 ≤ r.status ∧ r.status < 300 then .ok r
    else if !isRedirect r.status then .error (.httpError r)
    else
      match r.location with
      | none => .error (.httpError r)
      | some location =>
        match U.redirect url location with
        | .refused => .error (.httpError r)
        | .invalid message => .error (.value message)
        | .follow next =>
          -- `redirect_request`
          if method = .post ∧ (r.status = 307 ∨ r.status = 308) then .error (.httpError r)
          else if tooManyRedirects visited next then .error (.httpError r)
          else
            match r.body with
            | .error f => .error (.fault f)
            | .ok _ =>
              urlopen U (visited.set next ((visited.get? next).getD 0 + 1)) .get next answers

-- ---------------------------------------------------------------------------
-- `HostClient`
-- ---------------------------------------------------------------------------

structure HostReply where
  body : Bytes
  status : Nat
  responseSignature : Option Text

def readLimit : Nat := 65536

def unavailableMessage (device : Device) : Text :=
  "DeckyMyRigHost could not be reached at ".toList ++ device.address ++ ':' ::
    (toString device.port).toList ++ ['.']

def updateMessage : Text := "DeckyMyRigHost needs to be updated.".toList

def integrityMessage : Text :=
  "DeckyMyRigHost returned a response that could not be authenticated.".toList

namespace HostClient

def url (device : Device) (path : Text) : Text :=
  "http://".toList ++ device.address ++ ':' :: (toString device.port).toList ++ path

def verifyReply (L : Libraries) (reply : HostReply)
    (authentication : Option (Bytes × Auth.AuthHeaders)) (path : Text) : Except Raised Unit :=
  match authentication with
  | none => .ok ()
  | some (credential, headers) =>
    match Auth.verifyResponse L credential headers.nonce path reply.status reply.body
        reply.responseSignature with
    | .ok () => .ok ()
    | .error e => .error (if e.isValueError then .host .integrity integrityMessage none else e)

def errorKind (status : Nat) : ErrorKind :=
  if status = 401 ∨ status = 409 then .authentication
  else if status = 410 then .pairing
  else if status = 426 then .protocol
  else .host

/-- `_decode_error`; every exception of the decoder is a `ValueError`. -/
def errorMessage (body : Bytes) : Text :=
  match Protobuf.ErrorResponse.decode body with
  | .ok r => r.message
  | .error _ => "DeckyMyRigHost rejected the request.".toList

def hostReply (r : Reply) (body : Bytes) : HostReply := ⟨body.take readLimit, r.status, r.signature⟩

/-- `_post`, from the signed headers on. -/
def exchange (L : Libraries) (U : Urllib) (device : Device) (path : Text)
    (authentication : Option (Bytes × Auth.AuthHeaders)) (answers : List Answer) :
    Except Raised HostReply :=
  let unavailable : Except Raised HostReply :=
    .error (.host .unavailable (unavailableMessage device) none)
  match urlopen U [] .post (url device path) answers with
  | .ok r =>
    match r.body with
    | .ok body => do
      verifyReply L (hostReply r body) authentication path
      pure (hostReply r body)
    | .error .os => unavailable
    | .error .http => .error .http
  | .error (.httpError r) =>
    -- an exception in this handler is not caught by the next one
    match r.body with
    | .ok body => do
      verifyReply L (hostReply r body) authentication path
      .error (.host (errorKind r.status) (errorMessage (body.take readLimit)) (some r.status))
    | .error .os => .error .os
    | .error .http => .error .http
  | .error (.fault .os) => unavailable
  | .error (.fault .http) => .error .http
  | .error (.value message) => .error (.value message)

def post (L : Libraries) (U : Urllib) (device : Device) (path : Text) (body : Bytes)
    (credential : Option Bytes) (timestamp : Int) (nonce : Bytes) (answers : List Answer) :
    Except Raised HostReply :=
  match credential with
  | none => exchange L U device path none answers
  | some secret => do
    let headers ← Auth.sign L secret "POST".toList path body timestamp nonce
    exchange L U device path (some (secret, headers)) answers

def statusPath : Text := "/v1/status".toList
def shutdownPath : Text := "/v1/shutdown".toList

/-- `device.host_id and response.host_id != device.host_id` -/
def otherHost (device : Device) (hostId : Text) : Bool :=
  device.hostId.truthy &&
    match device.hostId with
    | .str expected => hostId ≠ expected
    | _ => true

def status (L : Libraries) (U : Urllib) (device : Device) (credential : Bytes) (timestamp : Int)
    (nonce : Bytes) (answers : List Answer) : Except Raised Protobuf.StatusResponse := do
  let body ← Protobuf.statusRequest
  let reply ← post L U device statusPath body (some credential) timestamp nonce answers
  let response ← Protobuf.StatusResponse.decode reply.body
  if response.protocolVersion ≠ Protobuf.protocolVersion then
    .error (.host .protocol updateMessage none)
  else if otherHost device response.hostId then
    .error (.host .identity "This address now belongs to a different PC.".toList none)
  else pure response

def probe (L : Libraries) (U : Urllib) (device : Device) (answers : List Answer) :
    Except Raised Unit := do
  let body ← Protobuf.statusRequest
  match post L U device statusPath body none 0 [] answers with
  | .error (.host .authentication _ _) => .ok ()
  | .error e => .error e
  | .ok _ => .error (.host .protocol
      "DeckyMyRigHost accepted an unauthenticated status request.".toList none)

def shutdown (L : Libraries) (U : Urllib) (device : Device) (credential : Bytes) (timestamp : Int)
    (nonce : Bytes) (answers : List Answer) : Except Raised Unit := do
  let body ← Protobuf.shutdownRequest
  let _ ← post L U device shutdownPath body (some credential) timestamp nonce answers
  pure ()

-- ---------------------------------------------------------------------------
-- `pair`
-- ---------------------------------------------------------------------------

def pairPath : Text := "/v1/pair".toList
def clientId : Bytes := utf8 "decky-client".toList
def hostIdentityName : Bytes := utf8 "decky-host".toList
def confirmationDomain : Bytes := utf8 "deckymyrig-pairing-confirm-v1\x00".toList
def credentialInfo : Bytes := utf8 "deckymyrig-pairing-credential-v1".toList

/-- `"".join(pairing_code.split())` -/
def joined (code : Text) : Text := code.filter fun c => !isSpace c

/-- What `pair` waits for: the answer to its start, or the one to its
completion, which `_complete_pairing` posts again if nothing answered. -/
inductive Stage
  | start
  | complete (started : Protobuf.PairResponse) (shared : Bytes) (again : Bool)

structure PairCall where
  device : Device
  /-- `pairing_code` without blanks. -/
  code : Text
  /-- The randomness of the exchange. -/
  entropy : Bytes
  /-- The body of the request that it waits on. -/
  body : Bytes
  stage : Stage

/-- `exchange.start()` -/
def clientMessage (L : Libraries) (code : Text) (entropy : Bytes) : Bytes :=
  L.startA (utf8 code) clientId hostIdentityName entropy

/-- `pair`, up to its first request. -/
def pair (L : Libraries) (device : Device) (pairingCode : Text) (entropy : Bytes) :
    Except Raised PairCall := do
  let code := joined pairingCode
  if code.length ≠ 6 ∨ !code.all (fun c => c.toNat < 128) ∨ !code.all Char.isDigit then
    .error (.host .pairing "Enter the six-digit code shown by DeckyMyRigHostControl.".toList none)
  else
    let body ← Protobuf.pairRequest (clientMessage L code entropy) [] []
    pure ⟨device, code, entropy, body, .start⟩

def PairCall.started (L : Libraries) (call : PairCall) (reply : HostReply) :
    Except Raised PairCall := do
  let started ← Protobuf.PairResponse.decode reply.body
  if started.protocolVersion ≠ Protobuf.protocolVersion then
    .error (.host .protocol updateMessage none)
  else
    let shared ← L.finishA (utf8 call.code) clientId hostIdentityName call.entropy
      started.hostMessage
    let confirmation :=
      L.hmac shared (confirmationDomain ++ clientMessage L call.code call.entropy ++
      started.hostMessage ++ started.sessionId)
    let body ← Protobuf.pairRequest [] started.sessionId confirmation
    pure { call with body, stage := .complete started shared false }

/-- The credential in a response: `InvalidTag` and `ValueError` are caught. -/
def decryptCredential (L : Libraries) (shared : Bytes) (response : Protobuf.PairResponse) :
    Except Raised Bytes :=
  let decrypted : Except Raised Bytes := do
    let aad ← Protobuf.pairingCredentialAad response
    L.decrypt (L.hkdf shared credentialInfo) response.nonce response.ciphertext aad
  match decrypted with
  | .ok credential => .ok credential
  | .error e =>
    .error (if e = .invalidTag ∨ e.isValueError then
      .host .pairing "Pairing could not be authenticated.".toList none else e)

def completed (L : Libraries) (shared : Bytes) (reply : HostReply) :
    Except Raised (Bytes × Protobuf.PairResponse) := do
  let response ← Protobuf.PairResponse.decode reply.body
  if response.protocolVersion ≠ Protobuf.protocolVersion then
    .error (.host .protocol updateMessage none)
  else
    let credential ← decryptCredential L shared response
    if credential.length ≠ 32 then
      .error (.host .pairing "The host returned an invalid credential.".toList none)
    else pure (credential, response)

/-- What a call does with the answers of the network to its request: it goes on
with another one, or returns. -/
def PairCall.answered (L : Libraries) (U : Urllib) (call : PairCall) (answers : List Answer) :
    Except Raised (PairCall ⊕ Bytes × Protobuf.PairResponse) :=
  let reply := post L U call.device pairPath call.body none 0 [] answers
  match call.stage with
  | .start => do
    let next ← call.started L (← reply)
    pure (.inl next)
  | .complete started shared again =>
    match reply with
    | .ok reply => do
      let result ← completed L shared reply
      pure (.inr result)
    | .error e =>
      match e, again with
      | .host .unavailable _ _, false =>
        .ok (.inl { call with stage := .complete started shared true })
      | _, _ => .error e

end HostClient

end DeckyMyRig.Deck
