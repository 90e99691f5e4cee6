import DeckyMyRig.Deck.ResponseAuthenticity
import DeckyMyRig.Host.Replacement
import DeckyMyRig.Host.Serving
import DeckyMyRig.Lib.Records
import DeckyMyRig.System.Channel
import DeckyMyRig.System.Messages
import DeckyMyRig.System.Pairing

/-!
# Requests of a paired Deck

What a Deck with the host's credential gets for its requests, when the network
delivers them and their answers. The host may be in any state it can reach, and
do anything else in between.
-/

namespace DeckyMyRig.System

open Octets Checked Machine

/-- The reply brings the response of the host as it is. -/
structure Conveys (r : Deck.Reply) (response : Host.Response) : Prop where
  status : r.status = response.status.toNat
  body : r.body = .ok response.body
  signature : r.signature = response.signature

def requestBody : Host.Path → Except Deck.Raised Bytes
  | .status => Deck.Protobuf.statusRequest
  | .shutdown => Deck.Protobuf.shutdownRequest

def signedHeaders (headers : Deck.Auth.AuthHeaders) : List (Text × Text) :=
  ("Content-Type".toList, Host.contentType) :: headers.asHttp

/-- A request that the Deck signs with a credential, as the host receives it. -/
structure Sends (L : Deck.Libraries) (credential : Block 32) (timestamp : UInt64) (nonce : Block 16)
    (path : Host.Path) (signature : Bytes) (http : Host.HttpRequest) : Prop where
  body : requestBody path = .ok http.body
  signed : Deck.Auth.sign L credential.val "POST".toList path.text http.body timestamp.toNat
    nonce.val = .ok ⟨timestamp.toNat, nonce.val, signature⟩
  carried : Carries http.headers (signedHeaders ⟨timestamp.toNat, nonce.val, signature⟩)

def callerOf (credential : Block 32) (timestamp : UInt64) (nonce : Block 16) (path : Host.Path)
    (signature : Bytes) (http : Host.HttpRequest) : Host.Caller :=
  ⟨path, http, ⟨timestamp, nonce.val, signature⟩, ⟨credential, nonce⟩⟩

structure HostName (name : Text) : Prop where
  nonempty : name ≠ []
  short : (utf8 name).length ≤ 255

-- ---------------------------------------------------------------------------
-- From the Deck to the host
-- ---------------------------------------------------------------------------

theorem isProtobuf_of_carries {headers : List (Text × Bytes)}
    (h : Carries headers [("Content-Type".toList, Host.contentType)]) :
    Host.isProtobuf headers = true := by
  have hlookup : headers.lookup "content-type".toList = some (utf8 Host.contentType) :=
    h _ List.mem_cons_self
  have hplain : Plain Host.contentType := by
    have hall : Host.contentType.all (fun c => 32 ≤ c.toNat && c.toNat < 127) = true := by decide
    intro c hc
    simpa using List.all_eq_true.mp hall c hc
  simp only [Host.isProtobuf, Host.header, hlookup, Option.bind_some,
    headerText_utf8 hplain, Option.any_some]
  decide

theorem requestBody_versions {C : Host.Crates} (hC : C.Prost) {path : Host.Path}
    (h : requestBody path = .ok body) :
    Host.AppState.requestVersions C path body = some (Host.protocolVersion,
      Deck.Protobuf.pluginVersion) := by
  cases path with
  | status =>
    obtain rfl := Except.ok.inj (Deck.Protobuf.statusRequest_eq.symm.trans h)
    rw [Host.AppState.requestVersions, hC.decodeStatusRequest ⟨Host.protocolVersion,
      Deck.Protobuf.pluginVersion⟩ _ versions_encode]
    rfl
  | shutdown =>
    obtain rfl := Except.ok.inj (Deck.Protobuf.shutdownRequest_eq.symm.trans h)
    rw [Host.AppState.requestVersions, hC.decodeShutdownRequest ⟨Host.protocolVersion,
      Deck.Protobuf.pluginVersion⟩ _ versions_encode]
    rfl

theorem path_signable (path : Host.Path) :
    Host.isAscii path.text = true ∧ path.text.length ≤ 65535 := by
  cases path <;> decide

section
variable {L : Deck.Libraries} {C : Host.Crates} (hs : SameHashes L C) (hC : C.Prost)
  {credential : Block 32} {timestamp : UInt64} {nonce : Block 16} {path : Host.Path}
  {signature : Bytes} {http : Host.HttpRequest}
include hs

theorem Sends.authentic (h : Sends L credential timestamp nonce path signature http) :
    Host.Authentic C credential.val
      ⟨timestamp, nonce.val, signature, "POST".toList, path.text, http.body⟩ := by
  obtain ⟨m, hdeck, hhost⟩ := canonicalMessage_agree hs timestamp http.body nonce.2
    (show Host.isAscii "POST".toList = true by decide) (path_signable path).1 (by decide)
    (path_signable path).2
  have hsigned := h.signed
  rw [Deck.Auth.sign, hdeck] at hsigned
  have hsignature : L.hmac credential.val m = signature := by
    simpa using congrArg Deck.Auth.AuthHeaders.signature (Except.ok.inj hsigned)
  rw [Host.Authentic, Host.sign, hhost, ← hsignature, hs.hmac]
  rfl

include hC in
theorem Sends.genuine (h : Sends L credential timestamp nonce path signature http) :
    Host.Genuine C (callerOf credential timestamp nonce path signature http) where
  nonce := rfl
  authentic := h.authentic hs
  protobuf := isProtobuf_of_carries fun e he => h.carried e (List.mem_of_mem_take (i := 1) he)
  current := ⟨_, requestBody_versions hC h.body⟩

omit hs in
theorem Sends.parsed (h : Sends L credential timestamp nonce path signature http) :
    Host.authHeaders http.headers = some ⟨timestamp, nonce.val, signature⟩ :=
  authHeaders_asHttp fun e he => h.carried e (List.mem_cons_of_mem _ he)

-- ---------------------------------------------------------------------------
-- From the host to the Deck
-- ---------------------------------------------------------------------------

theorem signed_of_conveys {status : UInt16} {r : Deck.Reply} {context : Host.AuthenticationContext}
    (hstatus : 100 ≤ status.toNat ∧ status.toNat ≤ 999)
    (h : Conveys r (Host.authenticatedProtobuf C status body context path.text)) :
    r.Signed L context.credential.val context.nonce.val path.text body := by
  obtain ⟨m, hdeck, hhost⟩ := responseMessage_agree hs body context.nonce.2 (path_signable path).1
    (path_signable path).2 hstatus
  have hsigned : r.signature = some (hexEncode (C.hmac context.credential.val m)) := by
    rw [h.signature]
    simp only [Host.authenticatedProtobuf, Host.signResponse, hhost]
    rfl
  refine ⟨_, _, m, hsigned, Deck.fromHex_of_hexDecode (hexDecode_hexEncode _), ?_, by rw [hs.hmac]⟩
  have hcode : r.status = status.toNat := h.status
  rw [hcode]
  exact hdeck

end

theorem not_leaves {r : Deck.Reply} (h : Deck.isRedirect r.status = false)
    (U : Deck.Urllib) (url : Text) :
    ¬ r.Leaves U url := by
  rintro ⟨hredirect, -⟩
  rw [h] at hredirect
  cases hredirect

theorem plain_toText (host : Host.Uuid) : Plain host.toText := by
  intro c hc
  simp only [Host.Uuid.toText, List.mem_append, List.mem_cons] at hc
  rcases hc with (((hc | rfl | hc) | rfl | hc) | rfl | hc) | rfl | hc
  all_goals first | exact plain_hexEncode _ c hc | decide

theorem toText_length (host : Host.Uuid) : (utf8 host.toText).length ≤ 255 ∧ host.toText ≠ [] := by
  have hlength : host.toText.length = 36 := by
    simp [Host.Uuid.toText, length_hexEncode, host.2]
  rw [length_utf8_of_ascii fun c hc => (plain_toText host c hc).2.trans (by decide), hlength]
  refine ⟨by decide, fun hnil => ?_⟩
  rw [hnil] at hlength
  cases hlength

theorem status_built (hname : HostName name) (host : Host.Uuid) (paired : Bool) :
    Host.StatusResponse.Built ⟨name, Host.hostVersion, Host.protocolVersion,
      paired, host.toText⟩ where
  hostname := hname.nonempty
  hostVersion := show Host.hostVersion ≠ [] by decide
  hostId := (toText_length host).2
  inMemory := by
    have hshort := hname.short
    have hid := (toText_length host).1
    simp only [List.forall_mem_cons, List.not_mem_nil, false_imp_iff, implies_true,
      and_true, Host.InMemory]
    exact ⟨by omega, by decide, by omega⟩

theorem statusBody_short (hname : HostName name) (host : Host.Uuid) (paired : Bool) :
    (Proto3.encode (Host.StatusResponse.fields
      ⟨name, Host.hostVersion, Host.protocolVersion, paired, host.toText⟩)).length ≤
        Deck.readLimit := by
  have hshort := hname.short
  have hid := (toText_length host).1
  have hversion : (utf8 Host.hostVersion).length ≤ 255 := by decide
  have hpaired : paired.toNat < 2 ^ 64 := paired.toNat_lt.trans (by decide)
  refine (Proto3.length_encode_le (n := 255) ?_).trans
    (show 5 * (255 + 15) ≤ Deck.readLimit by decide)
  simp only [Host.StatusResponse.fields, List.forall_mem_cons, List.not_mem_nil, false_imp_iff,
    implies_true, and_true, Proto3.Field.Fits, Proto3.Payload.Fits, Proto3.Payload.size]
  exact ⟨⟨⟨by decide, by decide, by omega⟩, hshort⟩, ⟨⟨by decide, by decide, by omega⟩, hversion⟩,
    ⟨⟨by decide, by decide, by decide⟩, by decide⟩, ⟨⟨by decide, by decide, hpaired⟩, by decide⟩,
    ⟨by decide, by decide, by omega⟩, hid⟩

theorem acceptedBody_short :
    (Proto3.encode (Host.ShutdownResponse.fields ⟨true⟩)).length ≤ Deck.readLimit := by
  refine (Proto3.length_encode_le (n := 0) ?_).trans (show 1 * (0 + 15) ≤ Deck.readLimit by decide)
  simp only [Host.ShutdownResponse.fields, List.forall_mem_cons, List.not_mem_nil, false_imp_iff,
    implies_true, and_true]
  exact ⟨⟨by decide, by decide, show _ < _ by decide⟩, Nat.le_refl _⟩

theorem errorBody_short {r : Host.ErrorResponse} (h : (utf8 r.message).length ≤ 255) :
    (Proto3.encode r.fields).length ≤ Deck.readLimit := by
  have hcode : r.code.number < 2 ^ 64 := by cases r.code <;> decide
  refine (Proto3.length_encode_le (n := 255) ?_).trans
    (show 2 * (255 + 15) ≤ Deck.readLimit by decide)
  simp only [Host.ErrorResponse.fields, List.forall_mem_cons, List.not_mem_nil, false_imp_iff,
    implies_true, and_true, Proto3.Field.Fits, Proto3.Payload.Fits, Proto3.Payload.size]
  exact ⟨⟨⟨by decide, by decide, hcode⟩, by decide⟩, ⟨by decide, by decide, by omega⟩, h⟩

theorem accepted_status (hname : HostName name) (host : Host.Uuid) (paired : Bool)
    (hdevice : Deck.HostClient.otherHost device host.toText = false) :
    Deck.HostClient.accepted device ⟨Proto3.encode (Host.StatusResponse.fields
        ⟨name, Host.hostVersion, Host.protocolVersion, paired, host.toText⟩), status, signature⟩ =
      .ok ⟨name, Host.hostVersion, Deck.Protobuf.protocolVersion, paired, host.toText⟩ := by
  rw [Deck.HostClient.accepted, statusResponse_decode (status_built hname host paired), ok_bind]
  simp only [hdevice, Bool.false_eq_true, if_false]
  rfl

theorem exchange_conveyed {L : Deck.Libraries} {C : Host.Crates} (hs : SameHashes L C)
    (hL : ∀ key m, (L.hmac key m).length = 32) {status : UInt16} {r : Deck.Reply}
    {context : Host.AuthenticationContext} (path : Host.Path)
    (hstatus : 100 ≤ status.toNat ∧ status.toNat ≤ 999)
    (hfinal : Deck.isRedirect status.toNat = false) (hshort : body.length ≤ Deck.readLimit)
    (h : Conveys r (Host.authenticatedProtobuf C status body context path.text))
    (hn : headers.nonce = context.nonce.val) (U : Deck.Urllib) (device : Deck.Device) :
    Deck.HostClient.exchange L U device path.text
      (some (context.credential.val, headers)) [.reply r] =
      if 200 ≤ status.toNat ∧ status.toNat < 300 then .ok ⟨body, status.toNat, r.signature⟩
      else .error (.host (Deck.HostClient.errorKind status.toNat)
        (Deck.HostClient.errorMessage body) (some status.toNat)) := by
  have hcode : r.status = status.toNat := h.status
  have hbody : r.body = .ok body := h.body
  have htake : body.take Deck.readLimit = body := List.take_of_length_le hshort
  have hpath : Deck.Signable path.text :=
    ⟨ascii_iff.mp (path_signable path).1, Nat.lt_succ_of_le (path_signable path).2⟩
  have hsigned := signed_of_conveys hs hstatus h
  rw [← htake] at hsigned
  rw [(Deck.exchange_stays _ context.nonce hL hpath [] (not_leaves (hcode ▸ hfinal) U _) hbody hn).2
    hsigned, Deck.HostClient.hostReply, htake, hcode]

section
variable {L : Deck.Libraries} {C : Host.Crates} {credential : Block 32} {timestamp : UInt64}
  {nonce : Block 16} {signature : Bytes} {http : Host.HttpRequest} (U : Deck.Urllib)
  {device : Deck.Device}

theorem status_conveyed (hs : SameHashes L C)
    (hL : ∀ key m, (L.hmac key m).length = 32) (hC : C.Prost)
    (hname : HostName name) (hdevice : Deck.HostClient.otherHost device host.toText = false)
    (h : Conveys r (Host.statusAnswer C host name paired
      (callerOf credential timestamp nonce .status signature http)))
        (c : Deck.Controller) (now : Nat) :
    c.status L U device (some credential.val) timestamp.toNat nonce.val [.reply r] now =
      c.result device.id .online .paired "Online".toList := by
  obtain ⟨headers, hn, hstatus⟩ :=
    Deck.status_eq (L := L) credential.val nonce U device timestamp [.reply r]
  simp only [Host.statusAnswer, hC.encodeStatusResponse] at h
  have hexchange : Deck.HostClient.exchange L U device Deck.HostClient.statusPath
      (some (credential.val, headers)) [.reply r] = .ok _ :=
    exchange_conveyed hs hL .status (by decide) (by decide)
      (statusBody_short hname host paired) h hn U device
  rw [Deck.Controller.status, hstatus, hexchange, ok_bind,
    accepted_status hname host paired hdevice]
  rfl

theorem stop_conveyed (hs : SameHashes L C) (hL : ∀ key m, (L.hmac key m).length = 32)
    (hC : C.Prost) (h : Conveys r (Host.shutdownAnswer C powers
      (callerOf credential timestamp nonce .shutdown signature http)))
        (c : Deck.Controller) (now : Nat) :
    c.stop L U device credential.val timestamp.toNat nonce.val [.reply r] now =
      if powers then
        (c.enter device.id .stopping now).result device.id .stopping .paired
          "Shutdown accepted.".toList
      else (c, .error (.host .host "Windows rejected the shutdown request.".toList
        (some 500))) := by
  obtain ⟨headers, hn, hpost⟩ :=
    Deck.post_eq (L := L) credential.val nonce Deck.shutdownPath_signable U device
    (Proto3.encode Deck.Protobuf.versionFields) timestamp [.reply r]
  rw [Deck.Controller.stop, Deck.HostClient.shutdown,
    Deck.Protobuf.shutdownRequest_eq, ok_bind, hpost]
  cases powers with
  | true =>
    simp only [Host.shutdownAnswer, hC.encodeShutdownResponse, if_true] at h
    have hexchange : Deck.HostClient.exchange L U device Deck.HostClient.shutdownPath
        (some (credential.val, headers)) [.reply r] = .ok _ :=
      exchange_conveyed hs hL .shutdown (by decide) (by decide) acceptedBody_short h hn U device
    rw [hexchange]
    rfl
  | false =>
    simp only [Host.shutdownAnswer, Host.authenticatedError, hC.encodeErrorResponse,
      Bool.false_eq_true, if_false] at h
    have hexchange : Deck.HostClient.exchange L U device Deck.HostClient.shutdownPath
        (some (credential.val, headers)) [.reply r] = .error _ :=
      exchange_conveyed hs hL .shutdown (by decide) (by decide)
        (errorBody_short (by decide)) h hn U device
    rw [hexchange, Deck.HostClient.errorMessage, errorResponse_decode (show _ < _ by decide)]
    rfl

/-- A paired Deck that asks a host it can reach finds it online: in every run of
the host, whatever it does besides, a status request signed with its credential
is answered, and the controller takes the answer. -/
theorem genuine_status_is_online (device : Deck.Device) (hs : SameHashes L C)
    (hL : ∀ key m, (L.hmac key m).length = 32) (hC : C.Prost) (hname : HostName name)
    (hboot : Host.AppState.boot name stored nextTask wall env = some start)
    (hreach : Run (Host.hostStep C) P start past s₀)
    (hdevice : Deck.HostClient.otherHost device stored.hostId.toText = false)
    (hsends : Sends L credential timestamp nonce .status signature http)
    (h : Run (Host.hostStep C)
      (Host.Admitted (callerOf credential timestamp nonce .status signature http) s₀.nextTask)
      (s₀.receive C (.authenticated .status http)).1 tr s)
    (hdone : s.tasks s₀.nextTask = none) :
    ∃ response, Host.actsOf s₀.nextTask tr = [.answered s₀.nextTask response] ∧
      ∀ (c : Deck.Controller) now r, Conveys r response →
        c.status L U device (some credential.val) timestamp.toNat nonce.val [.reply r] now =
          c.result device.id .online .paired "Online".toList := by
  have hg : Host.Grounded C stored.hostId name s₀ := (Host.Grounded.boot hboot).run hreach
  have hhandled := Host.handled_run hg (hsends.genuine hs hC) hsends.parsed h hdone
  generalize Host.actsOf s₀.nextTask tr = acts at hhandled
  cases hhandled with
  | status => exact ⟨_, rfl, fun c now r hr => status_conveyed U hs hL hC hname hdevice hr c now⟩
  | shutdown hpath => cases hpath

def servedCrates : Host.Crates := Host.Crates.sample.withProst

def servedLibraries : Deck.Libraries := Deck.Libraries.sample

def pairedRig : Host.AppState := { Host.pairedStart with hostname := "rig".toList }

theorem boot_pairedRig :
    Host.AppState.boot "rig".toList Host.pairedHost 0 0 (.sample []) = some pairedRig := rfl

theorem pairedRig_reached :
    Run (Host.hostStep servedCrates) (fun _ _ => True) pairedRig [] pairedRig := .refl

/-- The signatures of the requests of time 1000 with the nonce `[9; 16]`. -/
def servedSignature : Host.Path → Bytes
  | .status => beBytes 32 0x2fb48972b9b3ca1c03e06aa9c66c7a1712cc153cd7881390898ab913854a8789
  | .shutdown => beBytes 32 0x5715ab3a28a8eca22e9f9576a4d86638a0b19132d851762c5648273d0e6a8a52

def servedHttp (path : Host.Path) : Host.HttpRequest where
  headers := [("content-type".toList, utf8 Host.contentType),
    ("x-decky-timestamp".toList, utf8 "1000".toList),
    ("x-decky-nonce".toList, utf8 (hexEncode (List.replicate 16 9))),
    ("x-decky-signature".toList, utf8 (hexEncode (servedSignature path)))]
  body := [8, 1, 18, 5, 48, 46, 49, 46, 48]

theorem servedHttp_sends (path : Host.Path) :
    Sends servedLibraries (repeated 32 7) 1000 (repeated 16 9) path (servedSignature path)
      (servedHttp path) where
  body := by
    have hbody : Proto3.encode Deck.Protobuf.versionFields = (servedHttp path).body := by
      cases path <;> decide +kernel
    cases path with
    | status => exact Deck.Protobuf.statusRequest_eq.trans (congrArg _ hbody)
    | shutdown => exact Deck.Protobuf.shutdownRequest_eq.trans (congrArg _ hbody)
  signed := by cases path <;> decide +kernel
  carried := by
    unfold Carries
    cases path <;> decide +kernel

/-- The steps of task 0, with the nonce log consulted once. -/
def servedSteps (readings : List (List Nat)) : List Host.Input :=
  readings.map fun wall => .advance 0 (.sample wall)

/-- The rig answers the request of time 1000. -/
theorem rig_is_online :
    ∃ tr s response, Run (Host.hostStep servedCrates)
        (Host.Admitted (callerOf (repeated 32 7) 1000 (repeated 16 9) .status
          (servedSignature .status) (servedHttp .status)) 0)
        (pairedRig.receive servedCrates (.authenticated .status (servedHttp .status))).1 tr s ∧
      Host.actsOf 0 tr = [.answered 0 response] ∧
      ∀ (c : Deck.Controller) now r, Conveys r response →
        c.status servedLibraries noRedirects rig (some (List.replicate 32 7)) 1000
          (List.replicate 16 9)
            [.reply r] now =
          c.result rig.id .online .paired "Online".toList := by
  obtain ⟨tr, s, hrun, hdone⟩ := Run.exists_of_exec (Host.hostStep servedCrates)
    (Host.Admitted (callerOf (repeated 32 7) 1000 (repeated 16 9) .status (servedSignature .status)
      (servedHttp .status)) 0)
    (pairedRig.receive servedCrates (.authenticated .status (servedHttp .status))).1
      (servedSteps [[1000], [], [], []])
    (fun s _ => (s.tasks 0).isNone) (by decide +kernel)
  obtain ⟨response, hacts, hstatus⟩ := genuine_status_is_online noRedirects rig
    ⟨rfl, rfl⟩ Sha256.length_hmac (Host.Crates.prost_withProst _) ⟨by decide, by decide⟩
    boot_pairedRig pairedRig_reached rfl (servedHttp_sends .status) hrun
      (Option.isNone_iff_eq_none.mp hdone)
  exact ⟨tr, s, response, hrun, hacts, hstatus⟩

/-- A paired Deck that shuts a host down does so: the request is handed to
Windows exactly once, and the controller reports what Windows said at that step. -/
theorem genuine_shutdown_is_carried_out (device : Deck.Device) (hs : SameHashes L C)
    (hL : ∀ key m, (L.hmac key m).length = 32) (hC : C.Prost)
    (hboot : Host.AppState.boot name stored nextTask wall env = some start)
    (hreach : Run (Host.hostStep C) P start past s₀)
    (hsends : Sends L credential timestamp nonce .shutdown signature http)
    (h : Run (logged (Host.hostStep C))
      (Host.Admitted (callerOf credential timestamp nonce .shutdown signature http) s₀.nextTask)
      (s₀.receive C (.authenticated .shutdown http)).1 tr s)
    (hdone : s.tasks s₀.nextTask = none) :
    ∃ e ∈ tr, ∃ (env : Host.Env) (response : Host.Response),
      e.input = .advance s₀.nextTask env ∧
      .powerShutdown s₀.nextTask (callerOf credential timestamp nonce .shutdown signature http) ∈
        e.seen ∧
      Host.actsOf s₀.nextTask (tr.flatMap (·.seen)) =
        [.powerShutdown s₀.nextTask (callerOf credential timestamp nonce .shutdown signature http),
          .answered s₀.nextTask response] ∧
      ∀ (c : Deck.Controller) now r, Conveys r response →
        c.stop L U device credential.val timestamp.toNat nonce.val [.reply r] now =
          if env.powers then
            (c.enter device.id .stopping now).result device.id .stopping .paired
              "Shutdown accepted.".toList
          else (c,
            .error (.host .host "Windows rejected the shutdown request.".toList (some 500))) := by
  have hg : Host.Grounded C stored.hostId name s₀ := (Host.Grounded.boot hboot).run hreach
  have hhandled := Host.handled_run hg (hsends.genuine hs hC) hsends.parsed h.unlogged hdone
  generalize hacts : Host.actsOf s₀.nextTask (tr.flatMap (·.seen)) = acts at hhandled
  cases hhandled with
  | status hpath => cases hpath
  | shutdown =>
    have hpower := List.mem_of_mem_filter (hacts.symm ▸ List.mem_cons_self)
    obtain ⟨e, he, hseen⟩ := List.mem_flatMap.mp hpower
    obtain ⟨pre, post, rfl⟩ := List.append_of_mem he
    obtain ⟨-, -, hstep, -⟩ := h.at_logged
    obtain ⟨env, hinput, hanswer⟩ := Host.hostStep_reports hstep hseen
    -- The handler answers once, so its answer is the one of this step.
    have honly : _ ∈ Host.actsOf s₀.nextTask _ :=
      List.mem_filter.mpr ⟨List.mem_flatMap.mpr ⟨e, he, hanswer⟩, decide_eq_true rfl⟩
    rw [hacts] at honly
    simp only [List.mem_cons, reduceCtorEq, Host.Output.answered.injEq, true_and, List.not_mem_nil,
      or_false, false_or] at honly
    rw [← honly]
    exact ⟨e, he, env, _, hinput, hseen, rfl, fun c now r hr => stop_conveyed U hs hL hC hr c now⟩

def poweredAt : Host.Input → Bool
  | .advance _ env => env.powers
  | _ => true

/-- The rig shuts down at 1000. -/
theorem rig_shuts_down :
    ∃ (tr : List (Event Host.AppState Host.Input Host.Output)) (s : Host.AppState)
      (response : Host.Response), Run (logged (Host.hostStep servedCrates))
        (Host.Admitted (callerOf (repeated 32 7) 1000 (repeated 16 9) .shutdown
          (servedSignature .shutdown) (servedHttp .shutdown)) 0)
        (pairedRig.receive servedCrates (.authenticated .shutdown (servedHttp .shutdown))).1 tr s ∧
      Host.actsOf 0 (tr.flatMap (·.seen)) =
        [.powerShutdown 0 (callerOf (repeated 32 7) 1000 (repeated 16 9) .shutdown
          (servedSignature .shutdown) (servedHttp .shutdown)), .answered 0 response] ∧
      ∀ (c : Deck.Controller) now r, Conveys r response →
        c.stop servedLibraries noRedirects rig (List.replicate 32 7) 1000
          (List.replicate 16 9) [.reply r] now =
          (c.enter rig.id .stopping now).result rig.id .stopping .paired
            "Shutdown accepted.".toList := by
  obtain ⟨tr, s, hrun, hp⟩ := Run.exists_of_exec (logged (Host.hostStep servedCrates))
    (Host.Admitted (callerOf (repeated 32 7) 1000 (repeated 16 9) .shutdown
      (servedSignature .shutdown) (servedHttp .shutdown)) 0)
    (pairedRig.receive servedCrates (.authenticated .shutdown (servedHttp .shutdown))).1
      (servedSteps [[1000], [], [], []])
    (fun s tr => (s.tasks 0).isNone && tr.all fun e => poweredAt e.input) (by decide +kernel)
  rw [Bool.and_eq_true, List.all_eq_true] at hp
  obtain ⟨hdone, hpowered⟩ := hp
  obtain ⟨e, he, env, response, hinput, -, hacts, hstop⟩ :=
    genuine_shutdown_is_carried_out noRedirects rig
    ⟨rfl, rfl⟩ Sha256.length_hmac (Host.Crates.prost_withProst _) boot_pairedRig
    pairedRig_reached (servedHttp_sends .shutdown) hrun (Option.isNone_iff_eq_none.mp hdone)
  have hpowers : env.powers = true := by
    have hall := hpowered e he
    rw [hinput] at hall
    exact hall
  rw [hpowers] at hstop
  exact ⟨tr, s, response, hrun, hacts, hstop⟩

end

end DeckyMyRig.System
