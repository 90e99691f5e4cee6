import DeckyMyRig.Host.Exchange
import DeckyMyRig.System.Served

/-!
# Pairing with a host that can be reached

A call of `HostClient.pair` against a host that shows the code it was given,
when the network delivers the two requests and their answers. The libraries of
both sides are assumed to implement the same functions.
-/

namespace DeckyMyRig.System

open Octets Checked Machine
open Deck.HostClient (PairCall)

/-- The libraries of both sides work together: what one encrypts the other
decrypts, and SPAKE2 gives both the key if they have the same password. -/
structure Interoperate (L : Deck.Libraries) (C : Host.Crates) : Prop extends SameHashes L C where
  hkdf : L.hkdf = C.hkdf
  decrypt : ∀ (key nonce : Bytes) (message : Block 32) (aad : Bytes),
    L.decrypt key nonce (C.encrypt key nonce message.val aad) aad = .ok message.val
  spake2 : ∀ password a b : Bytes, ∃ shared,
    L.finishA password Host.clientId Host.hostIdentityName a
      (C.startB password Host.clientId Host.hostIdentityName b) = .ok shared ∧
    C.finishB password Host.clientId Host.hostIdentityName b
      (L.startA password Host.clientId Host.hostIdentityName a) = some shared
  tags : ∀ key m, (L.hmac key m).length = 32
  ciphertexts : ∀ key nonce (message : Block 32) aad,
    (C.encrypt key nonce message.val aad).length = 48
  clientMessages : ∀ password a,
    (L.startA password Host.clientId Host.hostIdentityName a).length = 33
  hostMessages : ∀ password b,
    (C.startB password Host.clientId Host.hostIdentityName b).length = 33

structure Posts (call : PairCall) (http : Host.HttpRequest) : Prop where
  body : http.body = call.body
  carried : Carries http.headers [("Content-Type".toList, Host.contentType)]

-- ---------------------------------------------------------------------------
-- Requests
-- ---------------------------------------------------------------------------

def PairCall.Asks (call : PairCall) (clientMessage sessionId confirmation : Bytes) : Prop :=
  call.body = Proto3.encode (pairRequestFields clientMessage sessionId confirmation)

theorem route_posted {C : Host.Crates} (hC : C.Prost) {call : PairCall}
    (hasks : PairCall.Asks call clientMessage sessionId confirmation)
    (hmem : ∀ b ∈ [clientMessage, sessionId, confirmation], Host.InMemory b)
    (hposts : Posts call http)
    (source : Option Host.IpAddr) : Host.AppState.route C (.pair source http) =
      if sessionId.isEmpty then .inr (.pairCheck clientMessage source)
      else .inr (.pairHostId
        ⟨Host.protocolVersion, clientMessage, sessionId, confirmation,
          Deck.Protobuf.pluginVersion⟩) := by
  have hdecode : C.decodePairRequest http.body =
      some ⟨Host.protocolVersion, clientMessage, sessionId, confirmation,
        Deck.Protobuf.pluginVersion⟩ := by
    rw [hposts.body, hasks]
    exact hC.decodePairRequest _ _ (pairRequest_encodes hmem)
  simp only [Host.AppState.route, isProtobuf_of_carries hposts.carried, hdecode, Bool.not_true,
    Bool.false_eq_true, if_false, ne_eq, not_true_eq_false]

theorem pair_ok {L : Deck.Libraries} (h : Deck.HostClient.pair L device typed entropy = .ok call) :
    call.stage = .start ∧ call.entropy = entropy ∧
      PairCall.Asks call (Deck.HostClient.clientMessage L call.code entropy) [] [] := by
  unfold Deck.HostClient.pair at h
  simp only at h
  split at h
  · cases h
  · rw [pairRequest_eq] at h
    cases h
    exact ⟨rfl, rfl, rfl⟩

-- ---------------------------------------------------------------------------
-- Answers
-- ---------------------------------------------------------------------------

theorem inMemory_of_le {b : Bytes} (h : b.length ≤ 255) : Host.InMemory b := by
  unfold Host.InMemory
  omega

theorem pairBody_fits (hname : HostName name) (host : Host.Uuid) (sessionId : Host.SessionId)
    (hmessage : message.length = 33) (hnonce : nonce.length ≤ 255)
    (hciphertext : ciphertext.length ≤ 255) :
    Host.PairResponse.Built
        ⟨message, nonce, ciphertext, name, Host.hostVersion, Host.protocolVersion, host.toText,
          sessionId.val⟩ ∧
      (Proto3.encode (Host.PairResponse.fields
        ⟨message, nonce, ciphertext, name, Host.hostVersion, Host.protocolVersion, host.toText,
          sessionId.val⟩)).length ≤ Deck.readLimit := by
  have hsession : sessionId.val.length = 16 := sessionId.2
  have hversion : (utf8 Host.hostVersion).length ≤ 255 := by decide
  obtain ⟨hid, hidne⟩ := toText_length host
  have hne {b : Bytes} {n : Nat} (h : b.length = n + 1) : b ≠ [] := by
    rintro rfl
    cases h
  constructor
  · refine ⟨hne hmessage, hname.nonempty,
      show Host.hostVersion ≠ [] by decide, hidne, hne hsession, ?_⟩
    simp only [List.forall_mem_cons, List.not_mem_nil, false_imp_iff, implies_true, and_true]
    exact ⟨inMemory_of_le (by omega), inMemory_of_le hnonce, inMemory_of_le hciphertext,
      inMemory_of_le hname.short, inMemory_of_le hversion, inMemory_of_le hid,
      inMemory_of_le (by omega)⟩
  · have hchunk {number : Nat} {b : Bytes} (hnumber : 0 < number ∧ number < 2 ^ 29)
        (hb : b.length ≤ 255) :
          (Proto3.Field.mk number (.chunk b)).Fits ∧ (Proto3.Payload.chunk b).size ≤ 255 :=
      ⟨⟨hnumber.1, hnumber.2, inMemory_of_le hb⟩, hb⟩
    refine (Proto3.length_encode_le (n := 255) ?_).trans
      (show 8 * (255 + 15) ≤ Deck.readLimit by decide)
    simp only [Host.PairResponse.fields, List.forall_mem_cons, List.not_mem_nil, false_imp_iff,
      implies_true, and_true]
    exact ⟨hchunk (by decide) (by omega), hchunk (by decide) hnonce, hchunk (by decide) hciphertext,
      hchunk (by decide) hname.short, hchunk (by decide) hversion,
      ⟨⟨by decide, by decide, show Host.protocolVersion.toNat < 2 ^ 64 by decide⟩, by decide⟩,
      hchunk (by decide) hid, hchunk (by decide) (by omega)⟩

theorem post_conveyed {r : Deck.Reply} (h : Conveys r (Host.protobuf 200 body))
    (hshort : body.length ≤ Deck.readLimit) (L : Deck.Libraries) (U : Deck.Urllib)
    (device : Deck.Device) (path : Text) (posted : Bytes) :
    Deck.HostClient.post L U device path posted none 0 [] [.reply r] =
      .ok ⟨body, 200, r.signature⟩ := by
  have hstatus : r.status = 200 := h.status
  have hbody : r.body = .ok body := h.body
  have hopen :=
    Deck.urlopen_stays [] (not_leaves (by rw [hstatus]; rfl) U (Deck.HostClient.url device path))
  rw [if_pos (by rw [hstatus]; decide)] at hopen
  rw [Deck.HostClient.post, Deck.exchange_returned hopen hbody, Deck.HostClient.hostReply,
    List.take_of_length_le hshort, hstatus]
  rfl

section
variable {L : Deck.Libraries} {C : Host.Crates} {host : Host.Uuid} {name : Text} {x : Host.Exchange}
  {session : Host.PendingPairing}

structure Completes (L : Deck.Libraries) (C : Host.Crates)
    (session : Host.PendingPairing) (call : PairCall) :
    Prop where
  stage : ∃ started again, call.stage = .complete started session.shared again
  asks : PairCall.Asks call [] session.sessionId.val (Host.confirmationTag C session)

theorem hostMessage_length (hi : Interoperate L C) (hagreed : Host.Agreed C x m session) :
    session.hostMessage.length = 33 := by
  obtain ⟨entropy, hmessage, -⟩ := hagreed.keyed
  rw [hmessage, hi.hostMessages]

theorem aadFits (hname : HostName name) (host : Host.Uuid) (hi : Interoperate L C)
    (hagreed : Host.Agreed C x m session) :
    Host.AadFits session.hostMessage session.sessionId.val (Host.contextOf host name) := by
  have hshort := hname.short
  have hid := (toText_length host).1
  have hversion : (utf8 Host.hostVersion).length ≤ 255 := by decide
  have hmessage := hostMessage_length hi hagreed
  have hsession : session.sessionId.val.length = 16 := session.sessionId.2
  simp only [Host.AadFits, Host.contextOf, List.forall_mem_cons, List.not_mem_nil, false_imp_iff,
    implies_true, and_true]
  omega

theorem start_conveyed (U : Deck.Urllib) (hi : Interoperate L C) (hC : C.Prost)
    (hname : HostName name)
    {call : PairCall} (hstage : call.stage = .start) (hcode : x.code.val = call.code)
    (hagreed : Host.Agreed C x (Deck.HostClient.clientMessage L call.code call.entropy) session)
    (h : Conveys r (Host.startResponse C (Host.contextOf host name) session)) :
    ∃ next, call.answered L U [.reply r] = .ok (.inl next) ∧ Completes L C session next := by
  obtain ⟨entropy, hmessage, hkey⟩ := hagreed.keyed
  obtain ⟨hbuilt, hshort⟩ :=
    pairBody_fits hname host session.sessionId (hostMessage_length hi hagreed)
    (show ([] : Bytes).length ≤ 255 by decide) (show ([] : Bytes).length ≤ 255 by decide)
  have hpost := post_conveyed (by simpa only [Host.startResponse, hC.encodePairResponse,
    Host.contextOf] using h) hshort
    L U call.device Deck.HostClient.pairPath call.body
  -- the keys of both sides are the one of the exchange
  obtain ⟨shared, hdeck, hhost⟩ := hi.spake2 (utf8 x.code) call.entropy entropy
  have hsame : session.shared = shared := by
    have hmine : C.finishB (utf8 x.code) Host.clientId Host.hostIdentityName entropy
        (L.startA (utf8 x.code) Host.clientId Host.hostIdentityName call.entropy) =
          some session.shared := by
      rw [← hkey, hcode]
      rfl
    exact Option.some.inj (hmine.symm.trans hhost)
  have hfinish : L.finishA (utf8 call.code) Deck.HostClient.clientId
      Deck.HostClient.hostIdentityName call.entropy
        session.hostMessage = .ok session.shared := by
    rw [hmessage, hsame, ← hcode]
    exact hdeck
  have htag : L.hmac session.shared (Deck.HostClient.confirmationDomain ++
      Deck.HostClient.clientMessage L call.code call.entropy ++ session.hostMessage ++
        session.sessionId.val) = Host.confirmationTag C session := by
    rw [Host.confirmationTag, hagreed.message, hi.hmac]
    rfl
  unfold Deck.HostClient.PairCall.answered
  simp only [hstage, hpost, ok_bind, Deck.HostClient.PairCall.started,
    pairResponse_decode hbuilt, hfinish, htag, pairRequest_eq]
  exact ⟨_, rfl, ⟨⟨_, _, rfl⟩, rfl⟩⟩

theorem completion_conveyed (U : Deck.Urllib) (hi : Interoperate L C) (hC : C.Prost)
    (hname : HostName name) {call : PairCall} (hagreed : Host.Agreed C x m session)
    (hcompletes : Completes L C session call)
    (hissue : Host.issue C session (Host.contextOf host name) result.credential result.nonce =
      .ok result)
    (h : Conveys r (Host.completionResponse C (Host.contextOf host name) session.sessionId.val
      result)) :
    call.answered L U [.reply r] = .ok (.inr (result.credential.val,
      ⟨session.hostMessage, result.nonce.val, result.encryptedCredential, name, Host.hostVersion,
        Deck.Protobuf.protocolVersion, host.toText, session.sessionId.val⟩)) := by
  obtain ⟨-, hmessage, -, aad, haad, hciphertext⟩ := Host.issue_ok hissue
  obtain ⟨started, again, hstage⟩ := hcompletes.stage
  have hlength : result.encryptedCredential.length = 48 := by
    rw [hciphertext, hi.ciphertexts]
  obtain ⟨hbuilt, hshort⟩ :=
    pairBody_fits hname host session.sessionId (hostMessage_length hi hagreed)
    (result.nonce.2.trans_le (by decide)) (hlength.trans_le (by decide))
  have hpost := post_conveyed (by
      simpa only [Host.completionResponse, hC.encodePairResponse, hmessage, Host.contextOf] using h)
        hshort
    L U call.device Deck.HostClient.pairPath call.body
  have hsame : Deck.Protobuf.pairingCredentialAad ⟨session.hostMessage, result.nonce.val,
      result.encryptedCredential, name, Host.hostVersion, Deck.Protobuf.protocolVersion,
      host.toText, session.sessionId.val⟩ = .ok aad :=
    pairingCredentialAad_ok.mpr ⟨(Host.credentialAad_ok.mp haad).1,
      show Deck.Protobuf.protocolVersion < 256 ^ 4 by decide, (Host.credentialAad_ok.mp haad).2⟩
  have hdecrypt : L.decrypt (L.hkdf session.shared Deck.HostClient.credentialInfo) result.nonce.val
      result.encryptedCredential aad = .ok result.credential.val := by
    rw [hciphertext, hi.hkdf]
    exact hi.decrypt ..
  have hcompleted : Deck.HostClient.completed L session.shared
    ⟨Proto3.encode (Host.PairResponse.fields
      ⟨session.hostMessage, result.nonce.val, result.encryptedCredential, name, Host.hostVersion,
        Host.protocolVersion, host.toText, session.sessionId.val⟩), 200, r.signature⟩ =
      .ok (result.credential.val, ⟨session.hostMessage, result.nonce.val,
        result.encryptedCredential, name,
        Host.hostVersion, Deck.Protobuf.protocolVersion, host.toText, session.sessionId.val⟩) := by
    rw [Deck.HostClient.completed, pairResponse_decode hbuilt, ok_bind]
    have hversion : Host.protocolVersion.toNat = Deck.Protobuf.protocolVersion := rfl
    have hcredential : result.credential.val.length = 32 := result.credential.2
    simp only [hversion, ne_eq, not_true_eq_false, if_false, Deck.HostClient.decryptCredential,
      hsame, ok_bind, hdecrypt, hcredential]
    rfl
  unfold Deck.HostClient.PairCall.answered
  simp only [hstage, hpost, hcompleted, ok_bind]
  rfl

end

/-- A Deck that has the code of a host it can reach pairs with it: in every run
of the host in which nothing gets in the way, both requests are answered, and
the call returns the credential that the host has saved. -/
theorem honest_pairing_completes {L : Deck.Libraries} {C : Host.Crates} (U : Deck.Urllib)
    (hi : Interoperate L C) (hC : C.Prost) (hname : HostName name)
    (hboot : Host.AppState.boot name stored nextTask wall env = some start)
    (hreach : Run (Host.hostStep C) P start past s₀)
    (hcall : Deck.HostClient.pair L device typed entropy = .ok call)
    (hcode : x.code.val = call.code) (hposts : Posts call http)
    (h : Run (Host.hostStep C) (Host.Calm x s₀.nextTask) (s₀.receive C (.pair source http)).1 tr s)
    (hdone : s.tasks s₀.nextTask = none) :
    ∃ response, Host.actsOf s₀.nextTask tr = [.answered s₀.nextTask response] ∧
      ∀ r, Conveys r response → ∃ next, call.answered L U [.reply r] = .ok (.inl next) ∧
        ∀ http' source' tr' s', Posts next http' →
          Run (Host.hostStep C) (Host.Calm x s.nextTask)
            (s.receive C (.pair source' http')).1 tr' s' →
          s'.tasks s.nextTask = none →
          ∃ request result response', Host.actsOf s.nextTask tr' =
              [.completed s.nextTask request result response'] ∧ s'.Holds result ∧
            ∀ r', Conveys r' response' → ∃ facts,
              next.answered L U [.reply r'] = .ok (.inr (result.credential.val, facts)) ∧
              facts.hostId = stored.hostId.toText ∧ facts.hostname = name := by
  obtain ⟨hstage, hentropy, hasks⟩ := pair_ok hcall
  rw [← hentropy] at hasks
  have hg : Host.Grounded C stored.hostId name s₀ := (Host.Grounded.boot hboot).run hreach
  have hmessage : (Deck.HostClient.clientMessage L call.code call.entropy).length ≤ 255 :=
    (hi.clientMessages ..).trans_le (by decide)
  have hkey (b : Bytes) : ∃ shared, C.finishB (utf8 x.code) Host.clientId Host.hostIdentityName b
      (Deck.HostClient.clientMessage L call.code call.entropy) = some shared := by
    obtain ⟨shared, -, hhost⟩ := hi.spake2 (utf8 x.code) call.entropy b
    rw [hcode] at hhost ⊢
    exact ⟨shared, hhost⟩
  have hroute := route_posted hC hasks (by
    simp only [List.forall_mem_cons, List.not_mem_nil, false_imp_iff, implies_true, and_true]
    exact ⟨inMemory_of_le hmessage, inMemory_of_le (Nat.zero_le _), inMemory_of_le (Nat.zero_le _)⟩)
      hposts source
  obtain ⟨hg', session, hagreed, hpends, hacts⟩ := Host.opened_run hg hkey hroute h hdone
  refine ⟨_, hacts, fun r hr => ?_⟩
  obtain ⟨next, hnext, hcompletes⟩ := start_conveyed U hi hC hname hstage hcode hagreed hr
  refine ⟨next, hnext, fun http' source' tr' s' hposts' h' hdone' => ?_⟩
  have hsession : session.sessionId.val.length = 16 := session.sessionId.2
  have htag : (Host.confirmationTag C session).length = 32 := by
    rw [Host.confirmationTag, ← hi.hmac, hi.tags]
  have hroute' := route_posted hC hcompletes.asks (by
    simp only [List.forall_mem_cons, List.not_mem_nil, false_imp_iff, implies_true, and_true]
    exact ⟨inMemory_of_le (Nat.zero_le _), inMemory_of_le (by omega), inMemory_of_le (by omega)⟩)
      hposts' source'
  have hnonempty : session.sessionId.val.isEmpty = false := by
    rw [List.isEmpty_eq_false_iff, ne_eq, ← List.length_eq_zero_iff]
    omega
  rw [hnonempty, if_neg (by simp)] at hroute'
  obtain ⟨result, hissue, hholds, hacts'⟩ := Host.closed_run hg' hagreed hpends hroute' rfl rfl
    (aadFits hname stored.hostId hi hagreed) h' hdone'
  exact ⟨_, result, _, hacts', hholds, fun r' hr' =>
    ⟨_, completion_conveyed U hi hC hname hagreed hcompletes hissue hr', rfl, rfl⟩⟩

def sharedTag (key nonce message aad : Bytes) : Bytes :=
  (Sha256.hmac key (nonce ++ aad ++ message)).take 16

/-- A key exchange whose key is the digest of the password and both messages. -/
def sharedLibraries : Deck.Libraries :=
  { Deck.Libraries.sample with
    startA := fun _ _ _ entropy => 65 :: Sha256.digest entropy
    finishA := fun password _ _ entropy message =>
      .ok (Sha256.digest (password ++ 65 :: Sha256.digest entropy ++ message))
    decrypt := fun key nonce ciphertext aad =>
      if ciphertext.drop 32 = sharedTag key nonce (ciphertext.take 32) aad then
        .ok (ciphertext.take 32)
      else .error .invalidTag }

def sharedCrates : Host.Crates :=
  Host.Crates.withProst { Host.Crates.sample with
    startB := fun _ _ _ entropy => 66 :: Sha256.digest entropy
    finishB := fun password _ _ entropy message =>
      some (Sha256.digest (password ++ message ++ 66 :: Sha256.digest entropy))
    encrypt := fun key nonce message aad => message ++ sharedTag key nonce message aad }

theorem shared_interoperate : Interoperate sharedLibraries sharedCrates where
  sha256 := rfl
  hmac := rfl
  hkdf := rfl
  decrypt key nonce message aad := by
    have htake : (message.val ++ sharedTag key nonce message.val aad).take 32 = message.val :=
      List.take_left' message.2
    have hdrop : (message.val ++ sharedTag key nonce message.val aad).drop 32 = sharedTag key nonce
        message.val aad :=
      List.drop_left' message.2
    show (if _ then _ else _) = _
    simp only [sharedCrates, Host.Crates.withProst, htake, hdrop, if_true]
  spake2 password a b := ⟨_, rfl, by simp [sharedCrates, sharedLibraries, Host.Crates.withProst]⟩
  tags := Sha256.length_hmac
  ciphertexts key nonce message aad := by
    show (message.val ++ sharedTag key nonce message.val aad).length = 48
    rw [List.length_append, message.2, sharedTag, List.length_take, Sha256.length_hmac]
    rfl
  clientMessages _ _ := congrArg (· + 1) (Sha256.length_digest _)
  hostMessages _ _ := congrArg (· + 1) (Sha256.length_digest _)

def rigCall : PairCall :=
  ⟨rig, "123456".toList, [],
    Proto3.encode (pairRequestFields (65 :: Sha256.digest []) [] []), .start⟩

theorem pair_rigCall :
    Deck.HostClient.pair sharedLibraries rig "123 456".toList [] = .ok rigCall := by
  rw [Deck.HostClient.pair, pairRequest_eq]
  rfl

def posted (call : PairCall) : Host.HttpRequest :=
  ⟨[("content-type".toList, utf8 Host.contentType)], call.body⟩

theorem posts_posted (call : PairCall) : Posts call (posted call) where
  body := rfl
  carried := show Carries [("content-type".toList, utf8 Host.contentType)] _ by
    unfold Carries
    decide +kernel

def rigExchange : Host.Exchange := ⟨.sample, repeated 16 1, Host.seconds 400⟩

def pairingSteps (id n : Nat) : List Host.Input :=
  List.replicate n (.advance id { Host.Env.sample [] with r := .at (Host.seconds 400) })

theorem final_ok : 100 < 200 ∧ 200 < 1000 := by decide

def conveyed (response : Host.Response) : Deck.Reply := ⟨200, final_ok, [], .ok response.body⟩

theorem conveys_conveyed (h : response.status = 200 ∧ response.signature = none) :
    Conveys (conveyed response) response := by
  obtain ⟨hstatus, hsignature⟩ := h
  refine ⟨by rw [hstatus]; rfl, rfl, ?_⟩
  rw [hsignature]
  rfl

def completesNext (s : Host.AppState) (tr : List Host.Output) : Bool :=
  match Host.actsOf 0 tr with
  | [.answered _ response] =>
    response.status = 200 && response.signature = none && s.nextTask = 1 &&
      match rigCall.answered sharedLibraries noRedirects [.reply (conveyed response)] with
      | .ok (.inl next) => (exec (Host.hostStep sharedCrates) (Host.Calm rigExchange 1)
          (s.receive sharedCrates (.pair none (posted next))).1 (pairingSteps 1 4)).any fun r =>
            (r.1.tasks 1).isNone
      | _ => false
  | _ => false

/-- The call pairs with the rig. -/
theorem rig_pairs :
    ∃ tr s response next tr' s' request result response',
      Run (Host.hostStep sharedCrates) (Host.Calm rigExchange 0)
        ((rigStart 400).receive sharedCrates (.pair none (posted rigCall))).1 tr s ∧
      Host.actsOf 0 tr = [.answered 0 response] ∧
      rigCall.answered sharedLibraries noRedirects [.reply (conveyed response)] = .ok (.inl next) ∧
      Run (Host.hostStep sharedCrates) (Host.Calm rigExchange 1)
        (s.receive sharedCrates (.pair none (posted next))).1 tr' s' ∧
      Host.actsOf 1 tr' = [.completed 1 request result response'] ∧ s'.Holds result ∧
      ∀ r', Conveys r' response' → ∃ facts,
        next.answered sharedLibraries noRedirects [.reply r'] =
          .ok (.inr (result.credential.val, facts)) ∧
        facts.hostId = Host.newHost.hostId.toText ∧ facts.hostname = "rig".toList := by
  obtain ⟨tr, s, hrun, hp⟩ :=
    Run.exists_of_exec (Host.hostStep sharedCrates) (Host.Calm rigExchange 0)
    ((rigStart 400).receive sharedCrates (.pair none (posted rigCall))).1 (pairingSteps 0 3)
    (fun s tr => (s.tasks 0).isNone && completesNext s tr) (by decide +kernel)
  simp only [Bool.and_eq_true] at hp
  obtain ⟨hdone, hnext⟩ := hp
  obtain ⟨nextTask, wall, env, hboot⟩ := boot_rigStart 400
  obtain ⟨response, hacts, hanswer⟩ := honest_pairing_completes noRedirects shared_interoperate
    (Host.Crates.prost_withProst _) ⟨by decide, by decide⟩ hboot
    (Run.refl : Run (Host.hostStep sharedCrates) (fun _ _ => True) _ [] _) pair_rigCall
    (x := rigExchange) rfl (posts_posted rigCall) hrun (Option.isNone_iff_eq_none.mp hdone)
  have hacts : Host.actsOf 0 tr = [.answered 0 response] := hacts
  simp only [completesNext, hacts, Bool.and_eq_true, decide_eq_true_eq] at hnext
  obtain ⟨⟨hplain, hone⟩, hnext⟩ := hnext
  obtain ⟨next, hgoes, hcompletes⟩ := hanswer _ (conveys_conveyed hplain)
  rw [hgoes] at hnext
  obtain ⟨tr', s', hrun', hdone'⟩ :=
    Run.exists_of_exec _ _ _ _ (fun (s : Host.AppState) _ => (s.tasks 1).isNone) hnext
  rw [hone] at hcompletes
  obtain ⟨request, result, response', hacts', hholds, hreturns⟩ :=
    hcompletes _ _ _ _ (posts_posted next) hrun'
    (Option.isNone_iff_eq_none.mp hdone')
  exact ⟨tr, s, response, next, tr', s', request, result, response', hrun, hacts, hgoes, hrun',
    hacts', hholds, hreturns⟩

end DeckyMyRig.System
