import DeckyMyRig.Deck.Client
import DeckyMyRig.Host.Provenance
import DeckyMyRig.System.Bodies
import DeckyMyRig.System.Channel
import Mathlib.Data.Fintype.Basic

/-!
# Pairing over a network

Hosts and calls of `HostClient.pair` over a network that answers what it likes:
a request that reaches a host, and the answer that reaches a call, may be made up,
old, or never sent. What the cryptography gives is assumed of the run, of the
calls that are made in it. A key comes out of an exchange on both sides only if
both have the same code and the messages arrived unaltered. A ciphertext that
decrypts was made by a host with that key, for that credential and that associated
data, and some answer of a host carried it. Confirmations are not needed: they
protect the host.
-/

namespace DeckyMyRig.System

open Octets Machine Checked
open Deck (HostClient.PairCall Raised)
open Deck.Protobuf (PairResponse)

variable {ι κ : Type}

inductive NetworkEvent (ι κ : Type)
  | host (i : ι) (event : Host.PairingEvent)
  | returned (j : κ) (call : HostClient.PairCall) (credential : Bytes) (response : PairResponse)
  | raised (j : κ) (error : Raised)

structure Network (ι κ : Type) where
  hosts : ι → Host.AppState
  calls : κ → Option HostClient.PairCall
  past : List (NetworkEvent ι κ)

inductive NetworkInput (ι κ : Type)
  | host (i : ι) (input : Host.Input)
  | call (j : κ) (device : Deck.Device) (pairingCode : Text) (entropy : Bytes)
  /-- The network answers the request of a call, and redirects it before. -/
  | answer (j : κ) (answers : List Deck.Answer)

def Network.seen (n : Network ι κ) (es : List (NetworkEvent ι κ)) :
    Network ι κ × List (NetworkEvent ι κ) :=
  ({ n with past := n.past ++ es }, es)

section
variable [DecidableEq ι] [DecidableEq κ] (L : Deck.Libraries) (U : Deck.Urllib) (C : Host.Crates)

def Network.setCall (n : Network ι κ) (j : κ) (call : Option HostClient.PairCall) : Network ι κ :=
  { n with calls := Function.update n.calls j call }

def networkStep (n : Network ι κ) :
    NetworkInput ι κ → Option (Network ι κ × List (NetworkEvent ι κ))
  | .host i input =>
    (Host.recordedStep C (n.hosts i) input).map fun r =>
      { n with hosts := Function.update n.hosts i r.1 }.seen (r.2.map (.host i))
  | .call j device pairingCode entropy =>
    match n.calls j, Deck.HostClient.pair L device pairingCode entropy with
    | some _, _ => none
    | none, .ok call => some ((n.setCall j (some call)).seen [])
    | none, .error e => some (n.seen [.raised j e])
  | .answer j answers =>
    match n.calls j with
    | none => none
    | some call =>
      match call.answered L U answers with
      | .ok (.inl next) => some ((n.setCall j (some next)).seen [])
      | .ok (.inr (credential, response)) =>
        some ((n.setCall j none).seen [.returned j call credential response])
      | .error e => some ((n.setCall j none).seen [.raised j e])

inductive NetworkStep (n : Network ι κ) :
    NetworkInput ι κ → Network ι κ → List (NetworkEvent ι κ) → Prop
  | host : Host.recordedStep C (n.hosts i) input = some (s', es) →
      NetworkStep n (.host i input)
        { n with hosts := Function.update n.hosts i s', past := n.past ++ es.map (.host i) }
        (es.map (.host i))
  | waits : NetworkStep n input { n with calls, past := n.past ++ [] } []
  | raised : NetworkStep n input { n with calls, past := n.past ++ [.raised j e] } [.raised j e]
  | returned : n.calls j = some call → call.answered L U answers =
      .ok (.inr (credential, response)) → NetworkStep n (.answer j answers)
        { n with
          calls := Function.update n.calls j none
          past := n.past ++ [.returned j call credential response] }
        [.returned j call credential response]

theorem networkStep_cases {n : Network ι κ} (h : networkStep L U C n input = some (n', es)) :
    NetworkStep L U C n input n' es := by
  cases input with
  | host i input =>
    obtain ⟨⟨s', es'⟩, hs, heq⟩ := Option.map_eq_some_iff.mp h
    cases heq
    exact .host hs
  | call j device pairingCode entropy =>
    simp only [networkStep] at h
    split at h
    · cases h
    · cases h
      exact .waits
    · cases h
      exact .raised
  | answer j answers =>
    simp only [networkStep] at h
    split at h
    · cases h
    · rename_i call hcall
      split at h
      · cases h
        exact .waits
      · rename_i hok
        cases h
        exact .returned hcall hok
      · cases h
        exact .raised

end

-- ---------------------------------------------------------------------------
-- Ideal cryptography
-- ---------------------------------------------------------------------------

/-- If the session of the event has the key, it is of the call's code and of the
messages that the call sent and received. -/
def NetworkEvent.fits (L : Deck.Libraries) (call : HostClient.PairCall)
    (started : PairResponse) (shared : Bytes) :
    NetworkEvent ι κ → Bool
  | .host _ (.opened code session) => session.shared ≠ shared || code.val = call.code &&
      session.clientMessage = Deck.HostClient.clientMessage L call.code call.entropy &&
      session.hostMessage = started.hostMessage
  | _ => true

def NetworkEvent.allFit (L : Deck.Libraries) (call : HostClient.PairCall)
    (past : List (NetworkEvent ι κ)) : Bool :=
  match call.stage with
  | .start => true
  | .complete started shared _ => past.all (·.fits L call started shared)

/-- Host and client have the same key only with the same code and each other's
messages. -/
def SameKeys (L : Deck.Libraries) (n : Network ι κ) : Prop :=
  ∀ j, ∀ call ∈ n.calls j, NetworkEvent.allFit L call n.past = true

structure Decryption where
  shared : Bytes
  response : PairResponse
  aad : Bytes
  credential : Bytes

def Network.decrypts (L : Deck.Libraries) (U : Deck.Urllib) (n : Network ι κ) :
    NetworkInput ι κ → Option Decryption
  | .answer j answers => do
    let call ← n.calls j
    match call.stage with
    | .start => none
    | .complete _ shared _ =>
      let reply ← (Deck.HostClient.post L U call.device Deck.HostClient.pairPath call.body none 0 []
        answers).toOption
      let response ← (PairResponse.decode reply.body).toOption
      let aad ← (Deck.Protobuf.pairingCredentialAad response).toOption
      let credential ← (L.decrypt (L.hkdf shared Deck.HostClient.credentialInfo) response.nonce
        response.ciphertext aad).toOption
      some ⟨shared, response, aad, credential⟩
  | _ => none

def Decryption.of (d : Decryption) (result : Host.PairingResult) : Bool :=
  result.nonce.val = d.response.nonce && result.encryptedCredential = d.response.ciphertext

def NetworkEvent.encrypts (d : Decryption) : NetworkEvent ι κ → Bool
  | .host _ (.issued _ _ result) => d.of result
  | _ => false

def NetworkEvent.makes (d : Decryption) : NetworkEvent ι κ → Bool
  | .host _ (.issued session context result) => !d.of result || session.shared = d.shared &&
      result.credential.val = d.credential &&
      (Host.credentialAad session.hostMessage session.sessionId.val context).toOption = some d.aad
  | _ => true

/-- Any answer of a host, of any status, in which a Deck finds the ciphertext. -/
def NetworkEvent.sends (d : Decryption) : NetworkEvent ι κ → Bool
  | .host _ (.output output) => output.response.any fun answer =>
      (PairResponse.decode answer.body).toOption.any fun response =>
        response.nonce = d.response.nonce && response.ciphertext = d.response.ciphertext
  | _ => false

/-- What decrypts was made by a host with that key, for that credential and those
data. -/
def Made (L : Deck.Libraries) (U : Deck.Urllib) (n : Network ι κ) (input : NetworkInput ι κ) :
    Prop :=
  ∀ d ∈ n.decrypts L U input, (∃ e ∈ n.past, e.encrypts d = true) ∧ ∀ e ∈ n.past, e.makes d = true

def Authenticated (L : Deck.Libraries) (U : Deck.Urllib) (n : Network ι κ)
    (input : NetworkInput ι κ) : Prop :=
  Made L U n input ∧ ∀ d ∈ n.decrypts L U input, ∃ e ∈ n.past, e.sends d = true

/-- No host opens a session under the id of one that it has completed. -/
def freshIds (n : Network ι κ) : NetworkInput ι κ → Bool
  | .host i input => Host.drawsNew (n.hosts i) input
  | _ => true

def Ideal (L : Deck.Libraries) (U : Deck.Urllib) (n : Network ι κ) (input : NetworkInput ι κ) :
    Prop :=
  SameKeys L n ∧ Authenticated L U n input

instance (L : Deck.Libraries) (U : Deck.Urllib) (n : Network ι κ) (input : NetworkInput ι κ) :
    Decidable (Made L U n input) :=
  inferInstanceAs (Decidable (∀ d ∈ n.decrypts L U input,
    (∃ e ∈ n.past, e.encrypts d = true) ∧ ∀ e ∈ n.past, e.makes d = true))

instance (L : Deck.Libraries) (U : Deck.Urllib) (n : Network ι κ) (input : NetworkInput ι κ) :
    Decidable (Authenticated L U n input) :=
  inferInstanceAs (Decidable (Made L U n input ∧ ∀ d ∈ n.decrypts L U input,
    ∃ e ∈ n.past, e.sends d = true))

instance [Fintype κ] (L : Deck.Libraries) (U : Deck.Urllib) (n : Network ι κ)
    (input : NetworkInput ι κ) :
    Decidable (Ideal L U n input) :=
  inferInstanceAs (Decidable ((∀ j, ∀ call ∈ n.calls j, NetworkEvent.allFit L call n.past = true) ∧
    Authenticated L U n input))

-- ---------------------------------------------------------------------------
-- One host
-- ---------------------------------------------------------------------------

section
variable [DecidableEq ι]

def eventsOf (i : ι) (tr : List (NetworkEvent ι κ)) : List Host.PairingEvent :=
  tr.filterMap fun
    | .host i' e => if i' = i then some e else none
    | _ => none

theorem eventsOf_append (i : ι) (a b : List (NetworkEvent ι κ)) :
    eventsOf i (a ++ b) = eventsOf i a ++ eventsOf i b :=
  List.filterMap_append ..

theorem mem_eventsOf {i : ι} {tr : List (NetworkEvent ι κ)} :
    e ∈ eventsOf i tr ↔ .host i e ∈ tr := by
  constructor
  · intro h
    obtain ⟨e', he', heq⟩ := List.mem_filterMap.mp h
    cases e' with
    | host i' e' =>
      simp only [Option.ite_none_right_eq_some, Option.some.injEq] at heq
      obtain ⟨rfl, rfl⟩ := heq
      exact he'
    | _ => cases heq
  · exact fun h => List.mem_filterMap.mpr ⟨_, h, if_pos rfl⟩

theorem eventsOf_host (i : ι) (es : List Host.PairingEvent) :
    eventsOf i (es.map (NetworkEvent.host (κ := κ) i)) = es := by
  simp [eventsOf, List.filterMap_map]

theorem eventsOf_other {i i' : ι} (hne : i' ≠ i) (es : List Host.PairingEvent) :
    eventsOf i (es.map (NetworkEvent.host (κ := κ) i')) = [] := by
  simp [eventsOf, List.filterMap_map, hne]

end

-- ---------------------------------------------------------------------------
-- One call
-- ---------------------------------------------------------------------------

theorem decryptCredential_ok {L : Deck.Libraries}
    (h : Deck.HostClient.decryptCredential L shared response = .ok credential) :
    ∃ aad, Deck.Protobuf.pairingCredentialAad response = .ok aad ∧
      L.decrypt (L.hkdf shared Deck.HostClient.credentialInfo) response.nonce response.ciphertext
        aad = .ok credential := by
  unfold Deck.HostClient.decryptCredential at h
  simp only at h
  split at h
  · rename_i hok
    cases h
    exact bind_eq_ok hok
  · cases h

theorem completed_ok {L : Deck.Libraries}
    (h : Deck.HostClient.completed L shared reply = .ok (credential, response)) :
    PairResponse.decode reply.body = .ok response ∧
      response.protocolVersion = Deck.Protobuf.protocolVersion ∧
      Deck.HostClient.decryptCredential L shared response = .ok credential ∧
      credential.length = 32 := by
  unfold Deck.HostClient.completed at h
  obtain ⟨response', hdecode, h⟩ := bind_eq_ok h
  split at h
  · cases h
  · rename_i hversion
    obtain ⟨credential', hdecrypt, h⟩ := bind_eq_ok h
    split at h
    · cases h
    · rename_i hlength
      obtain ⟨rfl, rfl⟩ := Prod.mk.inj (pure_ok_iff.mp h)
      exact ⟨hdecode, not_not.mp hversion, hdecrypt, not_not.mp hlength⟩

theorem answered_returned {L : Deck.Libraries} {call : HostClient.PairCall}
    (h : call.answered L U answers = .ok (.inr (credential, response))) :
    ∃ started shared again reply, call.stage = .complete started shared again ∧
      Deck.HostClient.post L U call.device Deck.HostClient.pairPath call.body none 0
        [] answers = .ok reply ∧
      Deck.HostClient.completed L shared reply = .ok (credential, response) := by
  unfold HostClient.PairCall.answered at h
  simp only at h
  split at h
  · obtain ⟨reply, -, h⟩ := bind_eq_ok h
    obtain ⟨next, -, h⟩ := bind_eq_ok h
    cases h
  · rename_i started shared again hstage
    split at h
    · rename_i reply hreply
      obtain ⟨result, hdone, h⟩ := bind_eq_ok h
      cases h
      exact ⟨started, shared, again, reply, hstage, hreply, hdone⟩
    · split at h <;> cases h

theorem decrypts_of_returned {L : Deck.Libraries} {n : Network ι κ} {call : HostClient.PairCall}
    (hcall : n.calls j = some call)
    (h : call.answered L U answers = .ok (.inr (credential, response))) :
    ∃ started shared again aad, call.stage = .complete started shared again ∧
      response.protocolVersion = Deck.Protobuf.protocolVersion ∧
      Deck.Protobuf.pairingCredentialAad response = .ok aad ∧
      n.decrypts L U (.answer j answers) = some ⟨shared, response, aad, credential⟩ := by
  obtain ⟨started, shared, again, reply, hstage, hreply, hdone⟩ := answered_returned h
  obtain ⟨hdecode, hversion, hdecrypted, -⟩ := completed_ok hdone
  obtain ⟨aad, haad, hdecrypt⟩ := decryptCredential_ok hdecrypted
  refine ⟨started, shared, again, aad, hstage, hversion, haad, ?_⟩
  simp [Network.decrypts, hcall, hstage, hreply, hdecode, haad, hdecrypt, Except.toOption]

theorem of_iff {d : Decryption} : d.of result = true ↔
    result.nonce.val = d.response.nonce ∧ result.encryptedCredential = d.response.ciphertext := by
  simp [Decryption.of]

theorem encrypts_iff {e : NetworkEvent ι κ} : e.encrypts d = true ↔
    ∃ i session context result, e = .host i (.issued session context result) ∧
    d.of result = true := by
  constructor
  · intro h
    unfold NetworkEvent.encrypts at h
    split at h
    · exact ⟨_, _, _, _, rfl, h⟩
    · cases h
  · rintro ⟨i, session, context, result, rfl, h⟩
    exact h

theorem sends_iff {e : NetworkEvent ι κ} : e.sends d = true ↔
    ∃ i output answer response, e = .host i (.output output) ∧ output.response = some answer ∧
      PairResponse.decode answer.body = .ok response ∧ response.nonce = d.response.nonce ∧
      response.ciphertext = d.response.ciphertext := by
  constructor
  · intro h
    unfold NetworkEvent.sends at h
    split at h
    · rename_i i output
      cases hanswer : output.response with
      | none => simp [hanswer] at h
      | some answer =>
        cases hdecode : PairResponse.decode answer.body with
        | error e => simp [hanswer, hdecode, Except.toOption] at h
        | ok response =>
          simp only [hanswer, hdecode, Except.toOption, Option.any_some, Bool.and_eq_true,
            decide_eq_true_eq] at h
          exact ⟨i, output, answer, response, rfl, hanswer, hdecode, h⟩
    · cases h
  · rintro ⟨i, output, answer, response, rfl, hanswer, hdecode, hnonce, hciphertext⟩
    simp [NetworkEvent.sends, hanswer, hdecode, hnonce, hciphertext, Except.toOption]

theorem makes_issued
    (h : (NetworkEvent.host i (.issued session context result) : NetworkEvent ι κ).makes d = true)
    (hof : d.of result = true) :
    session.shared = d.shared ∧ result.credential.val = d.credential ∧
      Host.credentialAad session.hostMessage session.sessionId.val context = .ok d.aad := by
  simp only [NetworkEvent.makes, hof, Bool.not_true, Bool.false_or, Bool.and_eq_true,
    decide_eq_true_eq] at h
  obtain ⟨⟨hshared, hcredential⟩, haad⟩ := h
  refine ⟨hshared, hcredential, ?_⟩
  cases haad' : Host.credentialAad session.hostMessage session.sessionId.val context with
  | ok aad => simpa [haad', Except.toOption] using haad
  | error e => simp [haad', Except.toOption] at haad

theorem fits_opened {call : HostClient.PairCall}
    (h : (NetworkEvent.host i (.opened code session) : NetworkEvent ι κ).fits L call started
      shared = true)
    (hshared : session.shared = shared) : code.val = call.code := by
  simp only [NetworkEvent.fits, hshared, ne_eq, not_true_eq_false, decide_false, Bool.false_or,
    Bool.and_eq_true, decide_eq_true_eq] at h
  exact h.1.1

-- ---------------------------------------------------------------------------
-- Agreement
-- ---------------------------------------------------------------------------

/-- The host, of the name and identity given, saved the credential in a session
under the code, and after that answered the completion with the response. -/
def Agreed (C : Host.Crates) (name : Text) (stored : Host.HostIdentity)
    (history : List Host.PairingEvent)
    (code : Text) (credential : Bytes) (response : PairResponse) : Prop :=
  ∃ before identity id request result between id' request' answer after,
    history = before ++ .output (.saved identity) :: .output (.paired id request result) ::
      (between ++ .output (.completed id' request' result answer) :: after) ∧
    identity.hostId = stored.hostId ∧ identity.credential = some result.credential ∧
    result.credential.val = credential ∧
    ∃ code' session, .opened code' session ∈ before ∧ code'.val = code ∧
      request.sessionId = session.sessionId.val ∧
      answer = Host.completionResponse C ⟨name, Host.hostVersion, Host.protocolVersion,
        stored.hostId.toText⟩
        session.sessionId.val result ∧
      response = {
        hostMessage := session.hostMessage
        nonce := result.nonce.val
        ciphertext := result.encryptedCredential
        hostname := name
        hostVersion := Host.hostVersion
        protocolVersion := Host.protocolVersion.toNat
        hostId := stored.hostId.toText
        sessionId := session.sessionId.val }

section
variable [DecidableEq ι] [DecidableEq κ] {L : Deck.Libraries} {U : Deck.Urllib} {C : Host.Crates}

theorem run_eventsOf {n n' : Network ι κ} {tr : List (NetworkEvent ι κ)}
    {P : Network ι κ → NetworkInput ι κ → Prop}
    {Q : Host.AppState → Host.Input → Prop} {i : ι} (h : Run (networkStep L U C) P n tr n')
    (hpq : ∀ n input, P n (.host i input) → Q (n.hosts i) input) :
    Run (Host.recordedStep C) Q (n.hosts i) (eventsOf i tr) (n'.hosts i) := by
  refine h.invariant (I := fun tr n' =>
    Run (Host.recordedStep C) Q (n.hosts i) (eventsOf i tr) (n'.hosts i))
    .refl ?_
  intro tr n' input n'' es hrun hp hs
  rw [eventsOf_append]
  cases networkStep_cases L U C hs with
  | @host i' input s' es hstep =>
    by_cases hi : i' = i
    · subst hi
      rw [eventsOf_host]
      simpa using hrun.next (hpq _ _ hp) hstep
    · rw [eventsOf_other hi]
      simpa [Ne.symm hi] using hrun
  | waits | raised | returned => simpa [eventsOf] using hrun

theorem run_past {n n' : Network ι κ} {tr : List (NetworkEvent ι κ)}
    (h : Run (networkStep L U C) P n tr n') :
    n'.past = n.past ++ tr := by
  refine h.invariant (I := fun tr n' => n'.past = n.past ++ tr) (by simp) ?_
  intro tr n' input n'' es hpast _ hs
  rw [← List.append_assoc, ← hpast]
  cases networkStep_cases L U C hs <;> rfl

def Agrees (C : Host.Crates) (name : ι → Text) (stored : ι → Host.HostIdentity)
    (past : List (NetworkEvent ι κ)) : NetworkEvent ι κ → Prop
  | .returned _ call credential response =>
    ∃ i, Agreed C (name i) (stored i) (eventsOf i past) call.code credential response
  | _ => True

omit [DecidableEq ι] [DecidableEq κ] in
theorem completed_of_sends {tr : List (NetworkEvent ι κ)} (hC : C.ProstEncodes)
    (hanswers : ∀ i id answer, .host i (.output (.answered id answer)) ∈ tr → Host.Answer C answer)
    (hresponses : ∀ i id request result answer,
      .host i (.output (.completed id request result answer)) ∈ tr →
      ∃ context sessionId, answer = Host.completionResponse C context sessionId result)
    (hmade : ∃ e ∈ tr, e.encrypts d = true) (hsent : ∃ e ∈ tr, e.sends d = true) :
    ∃ i id request result answer, .host i (.output (.completed id request result answer)) ∈ tr ∧
      d.of result = true := by
  obtain ⟨e, hmem, hsends⟩ := hsent
  obtain ⟨i, output, answer, response, rfl, hanswer, hdecode, hnonce, hciphertext⟩ :=
    sends_iff.mp hsends
  rcases Host.Output.response_eq_some hanswer with ⟨id, rfl⟩ | ⟨id, request, result, rfl⟩
  · obtain ⟨e', -, hencrypts⟩ := hmade
    obtain ⟨_, _, _, result, -, hof⟩ := encrypts_iff.mp hencrypts
    have hempty := nonce_of_answer hC (hanswers i id answer hmem) hdecode
    have hlength := result.nonce.property
    rw [(of_iff.mp hof).1, ← hnonce, hempty] at hlength
    cases hlength
  · refine ⟨i, id, request, result, answer, hmem, ?_⟩
    obtain ⟨context, sessionId, rfl⟩ := hresponses i id request result answer hmem
    obtain ⟨hn, hc⟩ := decode_pairResponse hC hdecode
    exact of_iff.mpr ⟨hn.symm.trans hnonce, hc.symm.trans hciphertext⟩

omit [DecidableEq κ] in
theorem returned_agrees {name : ι → Text} {stored : ι → Host.HostIdentity} {n : Network ι κ}
    {tr : List (NetworkEvent ι κ)} (hC : C.ProstEncodes)
    (hanswers : ∀ i id answer, .host i (.output (.answered id answer)) ∈ tr → Host.Answer C answer)
    (hbacked : ∀ i, Justified (Host.Backed C (stored i).hostId ⟨name i, Host.hostVersion,
      Host.protocolVersion, (stored i).hostId.toText⟩) [] (eventsOf i tr))
    (hpast : n.past = tr) (hideal : Ideal L U n (.answer j answers)) (hcall : n.calls j = some call)
    (h : call.answered L U answers = .ok (.inr (credential, response))) :
    ∃ i, Agreed C (name i) (stored i) (eventsOf i tr) call.code credential response := by
  obtain ⟨started, shared, again, aad, hstage, hversion, haad, hdecrypts⟩ :=
    decrypts_of_returned hcall h
  obtain ⟨hencrypted, hmade⟩ := hideal.2.1 _ hdecrypts
  have hsent := hideal.2.2 _ hdecrypts
  rw [hpast] at hencrypted hsent
  have hresponses : ∀ i id request result answer,
      .host i (.output (.completed id request result answer)) ∈ tr →
        ∃ context sessionId, answer = Host.completionResponse C context sessionId result := by
    intro i id request result answer hmem
    obtain ⟨past, -, hresponse⟩ := (hbacked i).of_mem (mem_eventsOf.mpr hmem)
    exact ⟨_, _, hresponse⟩
  obtain ⟨i, id', request', result, answer, hmem', hof⟩ :=
    completed_of_sends hC hanswers hresponses hencrypted hsent
  obtain ⟨hnonce, hciphertext⟩ := of_iff.mp hof
  -- the host's own history up to its answer
  obtain ⟨a, after, hhistory⟩ := List.append_of_mem (mem_eventsOf.mpr hmem')
  have hb := hbacked i
  rw [hhistory] at hb
  obtain ⟨⟨code, session, hid, before, identity, id, request, between, rfl, hprepared,
    hrequest, hcredential, hhost⟩, rfl⟩ := hb.at
  have hmem {e} (he : e ∈ before) : .host i e ∈ n.past := by
    rw [hpast, ← mem_eventsOf, hhistory]
    simp [he]
  obtain ⟨hshared, hplain, haad'⟩ := makes_issued (hmade _ (hmem hprepared.issued)) hof
  have hcode : code.val = call.code := by
    have hfits := hideal.1 j call hcall
    simp only [NetworkEvent.allFit, hstage, List.all_eq_true] at hfits
    exact fits_opened (hfits _ (hmem hprepared.opened)) hshared
  -- the client compares nothing, but the associated data are the session's
  obtain ⟨hmessage, hsession, hcontext⟩ := Host.credentialAad_inj haad' (credentialAad_agree haad)
  simp only [credentialContext, Host.CredentialContext.mk.injEq] at hcontext
  obtain ⟨hname, hhostVersion, -, hhostId⟩ := hcontext
  refine ⟨i, before, identity, id, request, result, between, id', request', _, after, ?_,
    hhost, hcredential, hplain, code, session, hprepared.opened, hcode, hrequest, by rw [hid], ?_⟩
  · rw [hhistory]
    simp
  · rw [hname, hhostVersion, hhostId, hmessage, hsession, hnonce, hciphertext]
    cases response
    simp only [PairResponse.mk.injEq, true_and, and_true]
    exact hversion

theorem run_agrees {name : ι → Text} {stored : ι → Host.HostIdentity} {hosts : ι → Host.AppState}
    {tr : List (NetworkEvent ι κ)} {n : Network ι κ} (hC : C.ProstEncodes)
    (hboot : ∀ i, ∃ nextTask wall env,
      Host.AppState.boot (name i) (stored i) nextTask wall env = some (hosts i))
    (h : Run (networkStep L U C) (fun n input => Ideal L U n input ∧ freshIds n input = true)
      ⟨hosts, fun _ => none, []⟩ tr n) :
    Justified (Agrees C name stored) [] tr := by
  induction h with
  | refl => trivial
  | @next tr n input n' es hrun hp hs ih =>
    refine justified_append.mpr ⟨ih, ?_⟩
    cases networkStep_cases L U C hs with
    | host =>
      refine justified_of_forall (fun e he past => ?_) _
      obtain ⟨e', -, rfl⟩ := List.mem_map.mp he
      trivial
    | waits => trivial
    | raised => exact ⟨trivial, trivial⟩
    | returned hcall hok =>
      refine ⟨returned_agrees hC (fun i id answer hmem => ?_) (fun i => ?_) (run_past hrun)
        hp.1 hcall hok, trivial⟩
      · exact Host.recorded_answers (run_eventsOf (Q := fun _ _ => True) (i := i) hrun
          fun _ _ _ => trivial)
          (mem_eventsOf.mpr hmem)
      · obtain ⟨nextTask, wall, env, hb⟩ := hboot i
        exact (Host.provenance_run hb (run_eventsOf hrun fun _ _ hp => hp.2)).2

end

def noRedirects : Deck.Urllib := ⟨fun _ _ => .refused⟩

def rigStart (t : Nat) : Host.AppState :=
  { Host.newStart (Host.seconds t) with hostname := "rig".toList }

theorem boot_rigStart (t : Nat) : ∃ nextTask wall env,
    Host.AppState.boot "rig".toList Host.newHost nextTask wall env = some (rigStart t) := by
  obtain ⟨p, hp, heq⟩ := Host.boot_eq_some (Host.boot_newStart (Host.seconds t))
  refine ⟨0, 0, _, (Host.boot_ok rfl hp).trans ?_⟩
  rw [rigStart, heq]

def rig : Deck.Device :=
  { id := "rig".toList, name := "Rig".toList, address := "rig.local".toList, mac := [] }

def rigContext : Host.CredentialContext :=
  ⟨"rig".toList, Host.hostVersion, Host.protocolVersion, Host.newHost.hostId.toText⟩

/-- An exchange of SPAKE2 over Ed25519 from the randomness given, and the credential
that ChaCha20-Poly1305 encrypts with its key. -/
structure PairingVector where
  code : Text
  clientEntropy : Bytes
  hostEntropy : Bytes
  sessionId : Host.SessionId
  credential : Host.Credential
  nonce : Block 12
  clientMessage : Bytes
  hostMessage : Bytes
  shared : Bytes
  confirmation : Bytes
  key : Bytes
  ciphertext : Bytes
  confirmed : Sha256.hmac shared
    (Host.confirmationDomain ++ clientMessage ++ hostMessage ++ sessionId.val) = confirmation
  derived : Sha256.hkdf shared Host.credentialInfo = key

def firstExchange : PairingVector where
  code := "123456".toList
  clientEntropy := List.replicate 64 1
  hostEntropy := List.replicate 64 3
  sessionId := repeated 16 1
  credential := repeated 32 5
  nonce := repeated 12 5
  clientMessage := beBytes 33 0x4184e9372ffa14b4c3a5d8b1dbb86da69dbd72888b7c39dac0f69d5bc7042cba67
  hostMessage := beBytes 33 0x42023dcb5d3553b49eb68c7e18e5910fc0391ada73392b9adf4cecb526c03edd69
  shared := beBytes 32 0x854eba98502a50df3df385ff9034c5065840c2487ea609cd2931b2012eefc6dc
  confirmation := beBytes 32 0xa7e3109c3c7b5eb7b265648f8df4739361583bc6c2e7928fb43e79c7f2e43501
  key := beBytes 32 0xf106926d0a367f16d5a0564a4a663d0df6fedc2dc83a3bf996bb8c1a99eaadf1
  ciphertext := beBytes 48
    0x36bcf17becf997a4cae82a6628d1c32f60a3c9bcf3208e88b57e0c2a1f29c952b4e88c52f9bcf000a72bb51f1e64e5db
  confirmed := by decide +kernel
  derived := by decide +kernel

def collidingExchange : PairingVector where
  code := "123456".toList
  clientEntropy := List.replicate 64 2
  hostEntropy := List.replicate 64 4
  sessionId := repeated 16 1
  credential := repeated 32 6
  nonce := repeated 12 6
  clientMessage := beBytes 33 0x41270495c0b1ad3591d73d6a2340b174c127732e953f6e6620cced5d7a2c634db9
  hostMessage := beBytes 33 0x421e0e0ba363717ddc5d0f4c0f054f11fdf8ef5756d3a01b665592859f7976fa78
  shared := beBytes 32 0xed0c2587ca200e3174d7615ae2c9e823cf99b964d3923fdd993c0b1c0ec6bfcd
  confirmation := beBytes 32 0xe74b284fa0a34b5f9ae390f9c2e06a856a6bcbeea8f44ac4d30313fc74503b07
  key := beBytes 32 0x60764c25251b38d456ad13b15f484f4f063d654ce066d1fde3594962430f5926
  ciphertext := beBytes 48
    0x3badffc16eb24b9f6e28920035c4267a484d07adb250441265d60362c1953d4324322439578fe67e5ba262c79076a46b
  confirmed := by decide +kernel
  derived := by decide +kernel

def secondExchange : PairingVector where
  code := "000000".toList
  clientEntropy := List.replicate 64 2
  hostEntropy := List.replicate 64 4
  sessionId := repeated 16 2
  credential := repeated 32 6
  nonce := repeated 12 6
  clientMessage := beBytes 33 0x417b9af45d2a12e792070bd6a3da75596b844f8e776bda811efc730e9104c3cf07
  hostMessage := beBytes 33 0x42d3666b9fdf92446377b5c20686f969fdc3ec5989dd208b8f84cc606de12e54d5
  shared := beBytes 32 0x294a2778a2955816da586922a4a78ff91864095de3d601b0e76823dc0fe9f85f
  confirmation := beBytes 32 0xa66565ad42e55794c5c9e25475454ec25d8f2783b059d4d81db591060a8b5c89
  key := beBytes 32 0xe89d71db4fed0e69b842423c1712ce0a13b27f25a4adf7991dc3299224e0e214
  ciphertext := beBytes 48
    0xb11d91757abf91c5e7387c2ecfa016f180a25fac68d518f841ec1bd8783338dd6c087f8f117221555af46abca981e182
  confirmed := by decide +kernel
  derived := by decide +kernel

def exchanges : List PairingVector := [firstExchange, collidingExchange, secondExchange]

def PairingVector.transcript (v : PairingVector) : Bytes :=
  Host.confirmationDomain ++ v.clientMessage ++ v.hostMessage ++ v.sessionId.val

def PairingVector.aad (v : PairingVector) : Option Bytes :=
  (Host.credentialAad v.hostMessage v.sessionId.val rigContext).toOption

def PairingVector.result (v : PairingVector) : Host.PairingResult :=
  ⟨v.hostMessage, v.nonce, v.ciphertext, v.credential⟩

/-- What the exchange that passes the test has, or else the value given. -/
def looked (p : PairingVector → Bool) (value : PairingVector → α) (other : α) : α :=
  ((exchanges.find? p).map value).getD other

/-- HMAC, with the tags of the exchanges at hand. -/
def hashed (key message : Bytes) : Bytes :=
  looked (fun v => key = v.shared && message = v.transcript) (·.confirmation)
    (Sha256.hmac key message)

def expanded (secret info : Bytes) : Bytes :=
  looked (fun v => secret = v.shared && info = Host.credentialInfo) (·.key)
    (Sha256.hkdf secret info)

/-- The libraries, as far as they compute the exchanges. -/
def rigLibraries : Deck.Libraries :=
  { Deck.Libraries.sample with
    startA := fun password _ _ entropy =>
      looked (fun v => password = utf8 v.code && entropy = v.clientEntropy) (·.clientMessage) []
    finishA := fun password _ _ entropy inbound =>
      looked (fun v => password = utf8 v.code && entropy = v.clientEntropy &&
        inbound = v.hostMessage) (fun v => .ok v.shared) (.error .spake)
    hmac := hashed
    hkdf := expanded
    decrypt := fun key nonce ciphertext aad =>
      looked (fun v => key = v.key && nonce = v.nonce.val && ciphertext = v.ciphertext &&
        some aad = v.aad) (fun v => .ok v.credential.val) (.error .invalidTag) }

def rigCrates : Host.Crates :=
  Host.Crates.withProst { Host.Crates.sample with
    startB := fun password _ _ entropy =>
      looked (fun v => password = utf8 v.code && entropy = v.hostEntropy) (·.hostMessage) []
    finishB := fun password _ _ entropy inbound =>
      looked (fun v => password = utf8 v.code && entropy = v.hostEntropy &&
        inbound = v.clientMessage) (some ·.shared) none
    hmac := hashed
    hkdf := expanded
    encrypt := fun key nonce message aad =>
      looked (fun v => key = v.key && nonce = v.nonce.val && message = v.credential.val &&
        some aad = v.aad) (·.ciphertext) [] }

theorem looked_eq (h : ∀ v, p v = true → value v = other) : looked p value other = other := by
  unfold looked
  cases hv : exchanges.find? p with
  | none => rfl
  | some v => exact h v (List.find?_some hv)

theorem hashed_eq : hashed = Sha256.hmac := by
  funext key message
  refine looked_eq fun v hv => ?_
  simp only [Bool.and_eq_true, decide_eq_true_eq] at hv
  rw [hv.1, hv.2]
  exact v.confirmed.symm

theorem expanded_eq : expanded = Sha256.hkdf := by
  funext secret info
  refine looked_eq fun v hv => ?_
  simp only [Bool.and_eq_true, decide_eq_true_eq] at hv
  rw [hv.1, hv.2]
  exact v.derived.symm

/-- Both parties hash with SHA-256. -/
theorem rig_hashes :
    (rigLibraries.hmac = Sha256.hmac ∧ rigLibraries.hkdf = Sha256.hkdf) ∧
      rigCrates.hmac = Sha256.hmac ∧ rigCrates.hkdf = Sha256.hkdf :=
  ⟨⟨hashed_eq, expanded_eq⟩, hashed_eq, expanded_eq⟩

def sent (body : Except Raised Bytes) : NetworkInput Unit Bool :=
  .host () (.request (.pair none
    ⟨[("content-type".toList, utf8 Host.contentType)], body.toOption.getD []⟩))

def stepping (t id : Nat) (v : PairingVector) : NetworkInput Unit Bool :=
  .host () (.advance id { Host.Env.sample [] with
    r := .at (Host.seconds t)
    sessionId := v.sessionId
    entropy := v.hostEntropy
    credential := v.credential
    nonce := v.nonce })

def calling (j : Bool) (v : PairingVector) : NetworkInput Unit Bool :=
  .call j rig v.code v.clientEntropy

def startRequest (v : PairingVector) : NetworkInput Unit Bool :=
  sent (Deck.Protobuf.pairRequest v.clientMessage [] [])

def completionRequest (v : PairingVector) : NetworkInput Unit Bool :=
  sent (Deck.Protobuf.pairRequest [] v.sessionId.val v.confirmation)

def relayed (j : Bool) (body : Bytes) : NetworkInput Unit Bool :=
  .answer j [.reply ⟨200, by decide, [], .ok body⟩]

def startedReply (j : Bool) (v : PairingVector) : NetworkInput Unit Bool :=
  relayed j (rigCrates.encodePairResponse ⟨v.hostMessage, [], [], "rig".toList, Host.hostVersion,
    Host.protocolVersion, Host.newHost.hostId.toText, v.sessionId.val⟩)

def completedReply (j : Bool) (v : PairingVector) : NetworkInput Unit Bool :=
  relayed j (Host.completionResponse rigCrates rigContext v.sessionId.val v.result).body

def onePairing : List (NetworkInput Unit Bool) :=
  calling false firstExchange :: startRequest firstExchange ::
    List.replicate 3 (stepping 400 0 firstExchange) ++ startedReply false firstExchange ::
    completionRequest firstExchange :: List.replicate 4 (stepping 400 1 firstExchange) ++
    [completedReply false firstExchange]

/-- At 100 seconds the commit of a pairing panics; the id of its session is drawn
again for one that passed the check before, and this one is completed when the
record of the first is over. -/
def collidingPairings : List (NetworkInput Unit Bool) :=
  calling false firstExchange :: startRequest firstExchange ::
    List.replicate 3 (stepping 100 0 firstExchange) ++ startedReply false firstExchange ::
  calling true collidingExchange :: startRequest collidingExchange ::
    stepping 100 1 collidingExchange ::
  completionRequest firstExchange :: List.replicate 4 (stepping 100 2 firstExchange) ++
  List.replicate 2 (stepping 350 1 collidingExchange) ++ startedReply true collidingExchange ::
  completionRequest collidingExchange :: List.replicate 3 (stepping 450 3 collidingExchange) ++
  [completedReply true collidingExchange]

def savesNot (credential : Bytes) : NetworkEvent ι κ → Bool
  | .host _ (.output (.saved identity)) => identity.credential.map Subtype.val ≠ some credential
  | _ => true

end DeckyMyRig.System
