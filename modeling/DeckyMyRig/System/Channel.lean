import DeckyMyRig.Deck.AuthLaws
import DeckyMyRig.Deck.Protobuf
import DeckyMyRig.Deck.Contents
import DeckyMyRig.Host.Proto
import DeckyMyRig.Host.Server
import DeckyMyRig.Host.Signing
import DeckyMyRig.Host.VersioningLaws

/-!
# The authenticated channel

`auth.py` and `auth.rs` sign the same bytes, and `protobuf.py` and `pairing.rs`
the same associated data. So the host accepts the headers of a request that the
Deck signs, and the Deck accepts the signature of a response that the host
builds.
-/

namespace DeckyMyRig.System

open Octets Checked

structure SameHashes (L : Deck.Libraries) (C : Host.Crates) : Prop where
  sha256 : L.sha256 = C.sha256
  hmac : L.hmac = C.hmac

-- ---------------------------------------------------------------------------
-- The same bytes
-- ---------------------------------------------------------------------------

theorem ascii_iff {s : Text} : Host.isAscii s = true ↔ ∀ c ∈ s, c.toNat < 128 := by
  simp [Host.isAscii]

section
variable {L : Deck.Libraries} {C : Host.Crates} (hs : SameHashes L C)
include hs

theorem canonicalMessage_agree {nonce : Bytes} {method path : Text} (timestamp : UInt64)
    (body : Bytes) (hnonce : nonce.length = 16) (hmethod : Host.isAscii method = true)
    (hpath : Host.isAscii path = true) (hmlen : method.length ≤ 65535)
    (hplen : path.length ≤ 65535) :
    ∃ m, Deck.Auth.canonicalMessage L timestamp.toNat nonce method path body = .ok m ∧
      Host.canonicalMessage C timestamp nonce method path body = .ok m := by
  have hm := ascii_iff.mp hmethod
  have hp := ascii_iff.mp hpath
  have hupper : ∀ c ∈ Host.upperCase method, c.toNat < 128 := by
    simp only [Host.upperCase, List.mem_map, forall_exists_index, and_imp, forall_apply_eq_imp_iff₂]
    exact fun c hc => Deck.Auth.toUpper_ascii (hm c hc)
  have hfits : ∀ field ∈ [nonce, utf8 (Host.upperCase method), utf8 path],
      field.length < 65536 := by
    simp only [List.forall_mem_cons, List.not_mem_nil, false_imp_iff, implies_true, and_true]
    rw [length_utf8_of_ascii hupper, length_utf8_of_ascii hp, Host.upperCase, List.length_map]
    omega
  refine ⟨_, Deck.Auth.canonicalMessage_eq L timestamp body hnonce hm hp hfits,
    Host.canonicalMessage_ok.mpr ⟨⟨hnonce, hmethod, hpath⟩, hfits, ?_⟩⟩
  rw [hs.sha256]
  rfl

theorem responseMessage_agree {nonce : Bytes} {path : Text} {status : UInt16} (body : Bytes)
    (hnonce : nonce.length = 16) (hpath : Host.isAscii path = true) (hplen : path.length ≤ 65535)
    (hstatus : 100 ≤ status.toNat ∧ status.toNat ≤ 999) :
    ∃ m, Deck.Auth.responseMessage L nonce path status.toNat body = .ok m ∧
      Host.responseMessage C nonce path status body = .ok m := by
  have hp := ascii_iff.mp hpath
  have hfits : ∀ field ∈ [nonce, utf8 path], field.length < 65536 := by
    simp only [List.forall_mem_cons, List.not_mem_nil, false_imp_iff, implies_true, and_true]
    rw [length_utf8_of_ascii hp]
    omega
  refine ⟨_, Deck.Auth.responseMessage_eq L body hnonce hp hstatus hfits,
    Host.responseMessage_ok.mpr ⟨⟨hnonce, hpath⟩, hfits, ?_⟩⟩
  rw [hs.sha256]
  rfl

end

theorem appendFields_ok {fields : List Bytes} {output x : Bytes} {e : Deck.Raised} :
    fields.foldlM (fun output field => if field.length > 65535 then .error e
        else .ok (output ++ beBytes 2 field.length ++ field)) output =
          (.ok x : Except Deck.Raised Bytes) ↔
      (∀ field ∈ fields, field.length < 65536) ∧ output ++ fields.flatMap prefixed = x := by
  induction fields generalizing output with
  | nil =>
    rw [List.foldlM_nil, pure_ok_iff, List.flatMap_nil, List.append_nil]
    exact ⟨fun h => ⟨by simp, h⟩, fun h => h.2⟩
  | cons field fields ih =>
    rw [List.foldlM_cons]
    by_cases h : field.length > 65535
    · rw [if_pos h]
      simp only [List.forall_mem_cons]
      refine iff_of_false (by rintro ⟨⟩) fun hall => ?_
      omega
    · rw [if_neg h, ok_bind, ih]
      simp only [List.forall_mem_cons, List.flatMap_cons, prefixed, List.append_assoc]
      have hlt : field.length < 65536 := by omega
      simp only [hlt, true_and]

theorem pairingCredentialAad_ok {r : Deck.Protobuf.PairResponse} :
    Deck.Protobuf.pairingCredentialAad r = .ok x ↔
      (∀ field ∈ [r.hostMessage, r.sessionId, utf8 r.hostname, utf8 r.hostVersion, utf8 r.hostId],
        field.length < 65536) ∧ r.protocolVersion < 256 ^ 4 ∧
      Host.credentialAadDomain ++ ([r.hostMessage, r.sessionId, utf8 r.hostname, utf8 r.hostVersion,
        utf8 r.hostId].flatMap prefixed ++ beBytes 4 r.protocolVersion) = x := by
  unfold Deck.Protobuf.pairingCredentialAad
  simp only [bind_ok_iff, appendFields_ok]
  constructor
  · rintro ⟨_, ⟨hfits, rfl⟩, h⟩
    split at h
    · rename_i hversion
      refine ⟨hfits, hversion, ?_⟩
      rw [pure_ok_iff, List.append_assoc] at h
      exact h
    · cases h
  · rintro ⟨hfits, hversion, rfl⟩
    refine ⟨_, ⟨hfits, rfl⟩, ?_⟩
    rw [if_pos hversion, List.append_assoc]
    rfl

def credentialContext (r : Deck.Protobuf.PairResponse) : Host.CredentialContext :=
  ⟨r.hostname, r.hostVersion, UInt32.ofNat r.protocolVersion, r.hostId⟩

theorem credentialAad_agree {r : Deck.Protobuf.PairResponse}
    (h : Deck.Protobuf.pairingCredentialAad r = .ok aad) :
    Host.credentialAad r.hostMessage r.sessionId (credentialContext r) = .ok aad := by
  obtain ⟨hfits, hversion, rfl⟩ := pairingCredentialAad_ok.mp h
  refine Host.credentialAad_ok.mpr ⟨hfits, ?_⟩
  have hword : (UInt32.ofNat r.protocolVersion).toNat = r.protocolVersion :=
    UInt32.toNat_ofNat_of_lt' hversion
  rw [credentialContext, hword]

-- ---------------------------------------------------------------------------
-- Headers
-- ---------------------------------------------------------------------------

theorem parseU64_toString (n : UInt64) :
    Host.parseU64 (toString (n.toNat : Int)).toList = some n := by
  rw [Deck.toString_nat]
  exact Host.parseU64_toDigits n

/-- Text that a header value carries unchanged. -/
def Plain (s : Text) : Prop := ∀ c ∈ s, 32 ≤ c.toNat ∧ c.toNat < 127

theorem headerText_utf8 {s : Text} (h : Plain s) : Host.headerText (utf8 s) = some s := by
  have hbyte : ∀ c ∈ s, (UInt8.ofNat c.toNat).toNat = c.toNat := fun c hc => by
    have := (h c hc).2
    rw [UInt8.toNat_ofNat']
    omega
  rw [utf8_of_ascii fun c hc => (h c hc).2.trans (by decide), Host.headerText, if_pos]
  · rw [List.map_map, List.map_congr_left (g := id)]
    · simp
    · intro c hc
      simp [hbyte c hc]
  · rw [List.all_map, List.all_eq_true]
    intro c hc
    have hc' := hbyte c hc
    have := h c hc
    simp only [Function.comp_apply, Bool.or_eq_true, Bool.and_eq_true, decide_eq_true_eq,
      UInt8.le_iff_toNat_le, UInt8.lt_iff_toNat_lt, hc']
    exact .inr ⟨this.1, this.2⟩

theorem plain_digits (n : Nat) : Plain (toString (n : Int)).toList := by
  rw [Deck.toString_nat]
  intro c hc
  have hd := Nat.isDigit_of_mem_toDigits (by decide) (by decide) hc
  simp only [Char.isDigit, Bool.and_eq_true, decide_eq_true_eq, ge_iff_le,
    UInt32.le_iff_toNat_le] at hd
  have hlow : 48 ≤ c.toNat := hd.1
  have hhigh : c.toNat ≤ 57 := hd.2
  omega

theorem plain_hexEncode (b : Bytes) : Plain (hexEncode b) := by
  have hall : ∀ n < 16, 32 ≤ (hexDigit n).toNat ∧ (hexDigit n).toNat < 127 := by decide
  intro c hc
  simp only [hexEncode, List.mem_flatMap, List.mem_cons, List.not_mem_nil, or_false] at hc
  obtain ⟨x, -, rfl | rfl⟩ := hc
  · have := x.toNat_lt
    exact hall _ (by omega)
  · exact hall _ (Nat.mod_lt _ (by decide))

/-- The request arrives with the headers sent; names arrive in lower case. -/
def Carries (received : List (Text × Bytes)) (sent : List (Text × Text)) : Prop :=
  ∀ e ∈ sent, received.lookup (e.1.map Char.toLower) = some (utf8 e.2)

theorem authHeaders_asHttp {headers : List (Text × Bytes)} {timestamp : UInt64}
    {nonce signature : Bytes}
    (h : Carries headers (Deck.Auth.AuthHeaders.asHttp ⟨timestamp.toNat, nonce, signature⟩)) :
    Host.authHeaders headers = some ⟨timestamp, nonce, signature⟩ := by
  simp only [Carries, Deck.Auth.AuthHeaders.asHttp, List.forall_mem_cons, List.not_mem_nil,
    false_imp_iff, implies_true, and_true] at h
  obtain ⟨htime, hnonce, hsignature⟩ := h
  have htime : Host.header headers "x-decky-timestamp".toList =
      some (toString (timestamp.toNat : Int)).toList := by
    rw [Host.header, show headers.lookup "x-decky-timestamp".toList = _ from htime,
      Option.bind_some, headerText_utf8 (plain_digits _)]
  have hnonce : Host.header headers "x-decky-nonce".toList = some (hexEncode nonce) := by
    rw [Host.header, show headers.lookup "x-decky-nonce".toList = _ from hnonce, Option.bind_some,
      headerText_utf8 (plain_hexEncode _)]
  have hsignature : Host.header headers "x-decky-signature".toList =
      some (hexEncode signature) := by
    rw [Host.header, show headers.lookup "x-decky-signature".toList = _ from hsignature,
      Option.bind_some, headerText_utf8 (plain_hexEncode _)]
  simp only [Host.authHeaders, htime, hnonce, hsignature, Option.bind_some, parseU64_toString,
    hexDecode_hexEncode, Option.bind_eq_bind]

-- ---------------------------------------------------------------------------
-- Acceptance
-- ---------------------------------------------------------------------------

/-- `authenticate` passes for the request, whatever happens between its steps:
each step goes on if the credential is the current one, the clock is inside the
window, the nonce is new and the save succeeds. -/
structure Accepts (C : Host.Crates) (path : Host.Path) (http : Host.HttpRequest)
    (auth : Host.AuthHeaders) (context : Host.AuthenticationContext) : Prop where
  routed : Host.AppState.route C (.authenticated path http) = .inr (.credential path http auth)
  credential : ∀ (s : Host.AppState) env id, s.identity.credential = some context.credential →
    s.run C env id (.credential path http auth) =
      (s.goto id (.verify path http auth context.credential (env.wall.headD 0)), [])
  verify : ∀ (s : Host.AppState) env id now,
    Host.absDiff now auth.timestamp.toNat ≤ Host.clockWindow →
    (s.authenticator.live now).lookup context.nonce.val = none →
    ∃ authenticator, s.run C env id (.verify path http auth context.credential now) =
      match path with
      | .shutdown =>
        ({ s with authenticator }.goto id (.persistNonce ⟨path, http, auth, context⟩), [])
      | .status => { s with authenticator }.authenticated C env id ⟨path, http, auth, context⟩
  persist : ∀ (s : Host.AppState) env id,
    (∀ seen ∈ Host.AppState.retainNonces s.identity.acceptedShutdownNonces env.wall,
      seen.nonce ≠ context.nonce) → env.saves = true →
    .accepted id ⟨path, http, auth, context⟩ ∈
      (s.run C env id (.persistNonce ⟨path, http, auth, context⟩)).2

theorem accepts_of_authentic {C : Host.Crates} {path : Host.Path} {http : Host.HttpRequest}
    {auth : Host.AuthHeaders} {context : Host.AuthenticationContext}
    (hparsed : Host.authHeaders http.headers = some auth) (hnonce : auth.nonce = context.nonce.val)
    (hauth : Host.Authentic C context.credential.val
      ⟨auth.timestamp, auth.nonce, auth.signature, "POST".toList, path.text, http.body⟩) :
    Accepts C path http auth context where
  routed := by
    simp only [Host.AppState.route, hparsed]
  credential s env id hc := by
    simp only [Host.AppState.run, hc]
  verify s env id now hwindow hnew := by
    have hw : Host.InWindow ⟨auth.timestamp, auth.nonce, auth.signature,
      "POST".toList, path.text, http.body⟩
        now := Host.absDiff_le_iff.mp hwindow
    have hfresh : (s.authenticator.live now).lookup auth.nonce = none := hnonce ▸ hnew
    have hblock : Block.ofBytes 16 auth.nonce = some context.nonce :=
      Block.ofBytes_eq_some.mpr hnonce
    refine ⟨{ s.authenticator with
      acceptedNonces := (s.authenticator.live now).insert auth.nonce now }, ?_⟩
    simp only [Host.AppState.run, Host.AppState.verify,
      Host.verify_authentic hauth hw, hfresh, hblock]
    cases path <;> rfl
  persist s env id hnew hsaves := by
    have hany : (Host.AppState.retainNonces s.identity.acceptedShutdownNonces env.wall).any
        (fun seen => seen.nonce = context.nonce) = false := by
      simpa [List.any_eq_false] using hnew
    simp [Host.AppState.run, Host.AppState.persistNonce, hany, hsaves]

/-- Both sides sign the same bytes; so the host accepts what the Deck signs, and
the Deck what the host signs. -/
theorem authenticated_channel {L : Deck.Libraries} {C : Host.Crates} (hs : SameHashes L C) :
    (∀ (timestamp : UInt64) (nonce : Block 16) method path body, Host.isAscii method = true →
      Host.isAscii path = true → method.length ≤ 65535 → path.length ≤ 65535 →
      ∃ m, Deck.Auth.canonicalMessage L timestamp.toNat nonce.val method path body = .ok m ∧
        Host.canonicalMessage C timestamp nonce.val method path body = .ok m) ∧
    (∀ (nonce : Block 16) path (status : UInt16) body, Host.isAscii path = true →
      path.length ≤ 65535 → 100 ≤ status.toNat ∧ status.toNat ≤ 999 →
      ∃ m, Deck.Auth.responseMessage L nonce.val path status.toNat body = .ok m ∧
        Host.responseMessage C nonce.val path status body = .ok m) ∧
    (∀ r : Deck.Protobuf.PairResponse,
      (∀ field ∈ [r.hostMessage, r.sessionId, utf8 r.hostname, utf8 r.hostVersion, utf8 r.hostId],
        field.length ≤ 65535) → r.protocolVersion < 2 ^ 32 →
      ∃ aad, Deck.Protobuf.pairingCredentialAad r = .ok aad ∧
        Host.credentialAad r.hostMessage r.sessionId (credentialContext r) = .ok aad) ∧
    (∀ (credential : Block 32) (timestamp : UInt64) (nonce : Block 16) path
      (http : Host.HttpRequest),
      ∃ headers, Deck.Auth.sign L credential.val "POST".toList path.text http.body timestamp.toNat
        nonce.val = .ok headers ∧
        (Carries http.headers headers.asHttp →
          Accepts C path http ⟨timestamp, nonce.val, headers.signature⟩ ⟨credential, nonce⟩)) ∧
    ∀ (credential : Block 32) (nonce : Block 16) path (status : UInt16) body,
    Host.isAscii path = true →
      path.length ≤ 65535 → 100 ≤ status.toNat ∧ status.toNat ≤ 999 →
      Deck.Auth.verifyResponse L credential.val nonce.val path status.toNat body
        (Host.authenticatedProtobuf C status body ⟨credential, nonce⟩ path).signature = .ok () := by
  refine ⟨?_, ?_, ?_, ?_, ?_⟩
  · intro timestamp nonce method path body hmethod hpath hmlen hplen
    exact canonicalMessage_agree hs timestamp body nonce.2 hmethod hpath hmlen hplen
  · intro nonce path status body hpath hplen hstatus
    exact responseMessage_agree hs body nonce.2 hpath hplen hstatus
  · intro r hfits hversion
    have h :=
      pairingCredentialAad_ok.mpr ⟨fun f hf => Nat.lt_succ_of_le (hfits f hf), hversion, rfl⟩
    exact ⟨_, h, credentialAad_agree h⟩
  · intro credential timestamp nonce path http
    have hpath : Host.isAscii path.text = true ∧ path.text.length ≤ 65535 := by
      cases path <;> decide
    have hmethod : Host.isAscii "POST".toList = true := by decide
    obtain ⟨m, hdeck, hhost⟩ :=
      canonicalMessage_agree hs timestamp http.body nonce.2 hmethod hpath.1
      (by decide) hpath.2
    refine ⟨⟨timestamp.toNat, nonce.val, L.hmac credential.val m⟩, ?_, fun hcarries => ?_⟩
    · rw [Deck.Auth.sign, hdeck]
      rfl
    · refine accepts_of_authentic (authHeaders_asHttp hcarries) rfl ?_
      rw [Host.Authentic, Host.sign, hhost, hs.hmac]
      rfl
  · intro credential nonce path status body hpath hplen hstatus
    obtain ⟨m, hdeck, hhost⟩ := responseMessage_agree hs body nonce.2 hpath hplen hstatus
    have hsigned : (Host.authenticatedProtobuf C status body ⟨credential, nonce⟩ path).signature =
        some (hexEncode (C.hmac credential.val m)) := by
      simp only [Host.authenticatedProtobuf, Host.signResponse, hhost]
      rfl
    rw [hsigned, Deck.Auth.verifyResponse_eq hdeck, hs.hmac]
    exact if_pos (Deck.fromHex_of_hexDecode (hexDecode_hexEncode _))

def pairedStatus : Host.StatusResponse where
  hostname := "rig".toList
  hostVersion := Host.hostVersion
  protocolVersion := Host.protocolVersion
  paired := true
  hostId := Host.Uuid.toText (repeated 16 0)

/-- A signed status response. -/
theorem status_response_accepted :
    Deck.Auth.verifyResponse .sample (List.replicate 32 7) (List.replicate 16 9)
      "/v1/status".toList 200 (Proto3.encode pairedStatus.fields)
      (Host.authenticatedProtobuf .sample 200 (Proto3.encode pairedStatus.fields)
        ⟨repeated 32 7, repeated 16 9⟩ "/v1/status".toList).signature = .ok () :=
  (authenticated_channel (L := .sample) (C := .sample) ⟨rfl, rfl⟩).2.2.2.2
    (repeated 32 7) (repeated 16 9) "/v1/status".toList 200 _ (by decide) (by decide) (by decide)

end DeckyMyRig.System
