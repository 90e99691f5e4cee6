import DeckyMyRig.Deck.Representation
import DeckyMyRig.System.Pairing

/-!
# The key on both sides

Calls of `Plugin.pair_device`, of `decky/main.py`, for one device: over the store
of the plugin and over the network, with one host. A call holds no lock while it
waits for the host, so calls need not store what they got in the order in which
the host saved it.
-/

namespace DeckyMyRig.System

open Octets Machine Faults
open Deck (Disk Python Holds)
open Deck.Protobuf (PairResponse)

variable {κ : Type}

structure Deployment (κ : Type) where
  network : Network Unit κ
  disk : Disk

inductive DeploymentEvent (κ : Type)
  | network (event : NetworkEvent Unit κ)
  /-- The call returns ok. -/
  | paired (j : κ) (credential : Bytes)
  | failed (j : κ)

inductive DeploymentInput (κ : Type)
  | host (input : Host.Input)
  | pairDevice (j : κ) (pairingCode : Text) (entropy : Bytes) (fates : List Fate)
  | answer (j : κ) (answers : List Deck.Answer) (fates : List Fate)

section
variable [DecidableEq κ] (py : Python) (deviceId : Text) (L : Deck.Libraries)
  (U : Deck.Urllib) (C : Host.Crates)

def factsOf (response : PairResponse) : Deck.HostFacts :=
  ⟨response.hostId, response.hostVersion, response.protocolVersion⟩

/-- What a call does where `HostClient.pair` has returned or raised. -/
def resumed (disk : Disk) (fates : List Fate) :
    List (NetworkEvent Unit κ) → Disk × List (DeploymentEvent κ)
  | [.returned j call credential response] =>
    match Deck.Store.markPaired py deviceId credential (factsOf response) disk fates with
    | (.ok _, disk, _) => (disk, [.network (.returned j call credential response),
        .paired j credential])
    | (_, disk, _) => (disk, [.network (.returned j call credential response), .failed j])
  | [.raised j e] => (disk, [.network (.raised j e), .failed j])
  | es => (disk, es.map .network)

def Deployment.move (d : Deployment κ) (disk : Disk) (fates : List Fate)
    (input : NetworkInput Unit κ) :
    Option (Deployment κ × List (DeploymentEvent κ)) :=
  (networkStep L U C d.network input).map fun (network, es) =>
    let (disk, seen) := resumed py deviceId disk fates es
    (⟨network, disk⟩, seen)

def deploymentStep (d : Deployment κ) :
    DeploymentInput κ → Option (Deployment κ × List (DeploymentEvent κ))
  | .host input => d.move py deviceId L U C d.disk [] (.host () input)
  | .pairDevice j pairingCode entropy fates =>
    match d.network.calls j, Deck.Store.find py deviceId d.disk fates with
    | some _, _ => none
    | none, (.ok device, disk, fates) =>
      d.move py deviceId L U C disk fates (.call j device pairingCode entropy)
    | none, (_, disk, _) => some (⟨d.network, disk⟩, [.failed j])
  | .answer j answers fates => d.move py deviceId L U C d.disk fates (.answer j answers)

end

-- ---------------------------------------------------------------------------
-- The two sides
-- ---------------------------------------------------------------------------

def DeploymentEvent.network? : DeploymentEvent κ → Option (NetworkEvent Unit κ)
  | .network e => some e
  | _ => none

def hostEvents (tr : List (DeploymentEvent κ)) : List Host.PairingEvent :=
  eventsOf () (tr.filterMap (·.network?))

def DeploymentEvent.returnedCredential : DeploymentEvent κ → Option Bytes
  | .paired _ credential => some credential
  | _ => none

def lastReturned (start : Option Bytes) (tr : List (DeploymentEvent κ)) : Option Bytes :=
  latest (·.returnedCredential) start tr

def deckKey (py : Python) (deviceId : Text) (disk : Disk) : Option Bytes :=
  match (Deck.Store.snapshot py disk []).1 with
  | .ok (_, credentials) => credentials.get? deviceId
  | _ => none

def hostKey (s : Host.AppState) : Option Bytes := s.stored.credential.map Subtype.val

/-- `json` reads the documents that a step writes as they were. -/
def ReadsBack (py : Python) (deviceId : Text) (L : Deck.Libraries)
    (U : Deck.Urllib) (d : Deployment κ) :
    DeploymentInput κ → Prop
  | .answer j answers _ => ∀ call credential response, d.network.calls j = some call →
    call.answered L U answers = .ok (.inr (credential, response)) → ∀ c, Holds py d.disk c →
      Deck.Readable py ((Deck.Commit.markPaired deviceId credential (factsOf response)).settings
        c.settings)
        ((Deck.Commit.markPaired deviceId credential (factsOf response)).credentials c.credentials)
  | _ => True

/-- What decrypts in a step was made by the host, for that credential. -/
def Genuine (L : Deck.Libraries) (U : Deck.Urllib) (d : Deployment κ) : DeploymentInput κ → Prop
  | .answer j answers _ => Made L U d.network (.answer j answers)
  | _ => True

instance (L : Deck.Libraries) (U : Deck.Urllib) (d : Deployment κ) (input : DeploymentInput κ) :
    Decidable (Genuine L U d input) :=
  match input with
  | .answer j answers _ => inferInstanceAs (Decidable (Made L U d.network (.answer j answers)))
  | .host _ | .pairDevice .. => inferInstanceAs (Decidable True)

def DeploymentEvent.response : DeploymentEvent κ → Option PairResponse
  | .network (.returned _ _ _ response) => some response
  | _ => none

def DrawnFor (history : List Host.PairingEvent) (response : PairResponse)
    (credential : Host.Credential) : Prop :=
  ∃ session context result, .issued session context result ∈ history ∧
    result.nonce.val = response.nonce ∧
    result.encryptedCredential = response.ciphertext ∧ result.credential = credential

/-- The credential that the host drew for its last pairing is the one that it had
drawn for the answer to the last call. Where no call has been answered or nothing
was paired, what the side had at the start takes that place. -/
def LastIsLast (deck : Option Bytes) (host : Option Host.Credential)
    (tr : List (DeploymentEvent κ)) : Prop :=
  match lastAt (·.response) tr with
  | none => deck = (Host.lastPaired host (hostEvents tr)).map Subtype.val
  | some (past, response) => ∃ credential, DrawnFor (hostEvents past) response credential ∧
    Host.lastPaired host (hostEvents tr) = some credential

theorem deckKey_holds {c : Deck.Contents py} {disk : Disk} (h : Holds py disk c) (deviceId : Text) :
    deckKey py deviceId disk = c.credentials.get? deviceId := by
  rw [deckKey, Deck.snapshot_holds h]
  rfl

section
variable [DecidableEq κ] {py : Python} {deviceId : Text} {L : Deck.Libraries} {U : Deck.Urllib}
  {C : Host.Crates} {d d' : Deployment κ} {es : List (DeploymentEvent κ)}

omit [DecidableEq κ] in
theorem resumed_network (disk : Disk) (fates : List Fate) (es : List (NetworkEvent Unit κ)) :
    (resumed py deviceId disk fates es).2.filterMap (·.network?) = es := by
  unfold resumed
  split
  · split <;> rfl
  · rfl
  · simp [List.filterMap_map, DeploymentEvent.network?]

theorem move_eq_some {input : NetworkInput Unit κ} {disk : Disk}
    (h : d.move py deviceId L U C disk fates input = some (d', es)) :
    ∃ es', networkStep L U C d.network input = some (d'.network, es') ∧
      d'.disk = (resumed py deviceId disk fates es').1 ∧
      es = (resumed py deviceId disk fates es').2 := by
  obtain ⟨⟨network, es'⟩, hs, heq⟩ := Option.map_eq_some_iff.mp h
  cases heq
  exact ⟨es', hs, rfl, rfl⟩

theorem deploymentStep_network (h : deploymentStep py deviceId L U C d input = some (d', es)) :
    Run (networkStep L U C) (fun _ _ => True) d.network (es.filterMap (·.network?)) d'.network := by
  have hmove {input : NetworkInput Unit κ} {disk fates}
      (h : d.move py deviceId L U C disk fates input = some (d', es)) :
      Run (networkStep L U C) (fun _ _ => True) d.network
        (es.filterMap (·.network?)) d'.network := by
    obtain ⟨es', hs, -, rfl⟩ := move_eq_some h
    rw [resumed_network]
    exact .single trivial hs
  cases input with
  | host input => exact hmove h
  | answer j answers fates => exact hmove h
  | pairDevice j pairingCode entropy fates =>
    simp only [deploymentStep] at h
    split at h
    · cases h
    · exact hmove h
    · cases h
      exact .refl

omit [DecidableEq κ] in
theorem resumed_host (disk : Disk) (fates : List Fate) (i : Unit) (es : List Host.PairingEvent) :
    resumed py deviceId disk fates (es.map (NetworkEvent.host (κ := κ) i)) =
      (disk, es.map fun e => .network (.host i e)) := by
  cases es with
  | nil => rfl
  | cons e es =>
    unfold resumed
    split
    · simp at *
    · simp at *
    · simp

theorem move_cases {input : NetworkInput Unit κ} {disk : Disk}
    (h : d.move py deviceId L U C disk fates input = some (d', es)) (hok : ∀ j, .failed j ∉ es) :
    d'.disk = disk ∧ (∀ e ∈ es, e.response = none ∧ e.returnedCredential = none) ∨
      ∃ j answers call credential response device rest, input = .answer j answers ∧
        d.network.calls j = some call ∧ call.answered L U answers =
          .ok (.inr (credential, response)) ∧
        Deck.Store.markPaired py deviceId credential (factsOf response) disk fates =
          (.ok device, d'.disk, rest) ∧
        es = [.network (.returned j call credential response), .paired j credential] := by
  obtain ⟨es', hs, hdisk, rfl⟩ := move_eq_some h
  have hstep := networkStep_cases L U C hs
  generalize d'.network = network at hstep
  cases hstep with
  | host =>
    rw [resumed_host] at hdisk ⊢
    refine .inl ⟨hdisk, fun e he => ?_⟩
    obtain ⟨e', -, rfl⟩ := List.mem_map.mp he
    exact ⟨rfl, rfl⟩
  | waits => exact .inl ⟨hdisk, by simp [resumed]⟩
  | raised =>
    rename_i j e
    exact absurd (by simp [resumed]) (hok j)
  | @returned j call answers credential response hcall hanswered =>
    rcases hmark : Deck.Store.markPaired py deviceId credential (factsOf response) disk
      fates with ⟨r, disk', rest⟩
    simp only [resumed, hmark] at hok hdisk ⊢
    cases r with
    | ok device =>
      exact .inr ⟨j, answers, call, credential, response, device, rest, rfl, hcall, hanswered,
        by rw [hmark, hdisk], rfl⟩
    | raised e => exact absurd (by simp) (hok j)
    | crashed => exact absurd (by simp) (hok j)

theorem deploymentStep_move (h : deploymentStep py deviceId L U C d input = some (d', es))
    (hok : ∀ j, .failed j ∉ es) :
    ∃ disk fates moved, d.move py deviceId L U C disk fates moved = some (d', es) ∧
      (∀ c, Holds py d.disk c → Holds py disk c) ∧
      ∀ j answers, moved = .answer j answers → ∃ fates,
        input = .answer j answers fates ∧ disk = d.disk := by
  cases input with
  | host input => exact ⟨_, _, _, h, fun _ hd => hd, by rintro _ _ ⟨⟩⟩
  | answer j answers fates =>
    refine ⟨_, _, _, h, fun _ hd => hd, ?_⟩
    rintro _ _ ⟨rfl, rfl⟩
    exact ⟨fates, rfl, rfl⟩
  | pairDevice j pairingCode entropy fates =>
    simp only [deploymentStep] at h
    split at h
    · cases h
    · rename_i heq
      refine ⟨_, _, _, h, fun c hd => ?_, by rintro _ _ ⟨⟩⟩
      have hfind := Deck.find_holds hd deviceId fates
      rwa [heq] at hfind
    · cases h
      exact absurd List.mem_cons_self (hok j)

theorem deploymentStep_disk {c : Deck.Contents py}
    (h : deploymentStep py deviceId L U C d input = some (d', es))
    (hd : Holds py d.disk c) (hok : ∀ j, .failed j ∉ es) (hr : ReadsBack py deviceId L U d input) :
    ∃ c', Holds py d'.disk c' ∧
      c'.credentials.get? deviceId = lastReturned (c.credentials.get? deviceId) es := by
  obtain ⟨disk, fates, moved, hmove, hholds, hinput⟩ := deploymentStep_move h hok
  rcases move_cases hmove hok with ⟨rfl, hnone⟩ | ⟨j, answers, call, credential, response,
    device, rest, hmoved, hcall, hanswered, hmark, rfl⟩
  · exact ⟨c, hholds c hd, (latest_eq_start (fun e he => (hnone e he).2) _).symm⟩
  · obtain ⟨fates', rfl, rfl⟩ := hinput j answers hmoved
    obtain ⟨_, _, _, _, -, -, hdone⟩ := answered_returned hanswered
    obtain ⟨hallowed, hsettled⟩ := Deck.markPaired_ok hd (completed_ok hdone).2.2.2
      (hr call credential response hcall hanswered c hd) hmark
    refine ⟨_, .inl hsettled, ?_⟩
    exact (Dict.get?_set ..).trans (if_pos rfl)

theorem run_network (h : Run (deploymentStep py deviceId L U C) P d tr d') :
    Run (networkStep L U C) (fun _ _ => True) d.network (tr.filterMap (·.network?)) d'.network := by
  induction h with
  | refl => exact .refl
  | next _ _ hs ih =>
    rw [List.filterMap_append]
    exact ih.trans (deploymentStep_network hs)

theorem run_disk {c : Deck.Contents py}
    (h : Run (deploymentStep py deviceId L U C) (ReadsBack py deviceId L U) d tr d')
    (hd : Holds py d.disk c) (hok : ∀ j, .failed j ∉ tr) :
    ∃ c', Holds py d'.disk c' ∧
      c'.credentials.get? deviceId = lastReturned (c.credentials.get? deviceId) tr := by
  induction h with
  | refl => exact ⟨c, hd, rfl⟩
  | next _ hr hs ih =>
    obtain ⟨c1, hd1, hkey1⟩ := ih fun j hj => hok j (List.mem_append_left _ hj)
    obtain ⟨c2, hd2, hkey2⟩ :=
      deploymentStep_disk hs hd1 (fun j hj => hok j (List.mem_append_right _ hj)) hr
    refine ⟨c2, hd2, ?_⟩
    rw [hkey2, hkey1]
    exact (latest_append ..).symm

omit [DecidableEq κ] in
theorem returned_drawn {n : Network Unit κ} {call : Deck.HostClient.PairCall}
    {history : List Host.PairingEvent} (hhistory : eventsOf () n.past = history)
    (hgenuine : Made L U n (.answer j answers)) (hcall : n.calls j = some call)
    (h : call.answered L U answers = .ok (.inr (credential, response))) :
    (∃ drawn, DrawnFor history response drawn) ∧
      ∀ drawn, DrawnFor history response drawn → drawn.val = credential := by
  obtain ⟨_, _, _, _, -, -, -, hdecrypts⟩ := decrypts_of_returned hcall h
  obtain ⟨⟨e, hmem, hencrypts⟩, hmade⟩ := hgenuine _ hdecrypts
  constructor
  · obtain ⟨i, session, context, result, rfl, hof⟩ := encrypts_iff.mp hencrypts
    obtain ⟨hnonce, hciphertext⟩ := of_iff.mp hof
    exact ⟨_, session, context, result, hhistory ▸ mem_eventsOf.mpr hmem, hnonce, hciphertext, rfl⟩
  · rintro drawn ⟨session, context, result', hissued, hnonce, hciphertext, rfl⟩
    rw [← hhistory, mem_eventsOf] at hissued
    exact (makes_issued (hmade _ hissued) (of_iff.mpr ⟨hnonce, hciphertext⟩)).2.1

def Brought (start : Option Bytes) (tr : List (DeploymentEvent κ)) : Prop :=
  match lastAt (·.response) tr with
  | none => lastReturned start tr = start
  | some (past, response) => (∃ drawn, DrawnFor (hostEvents past) response drawn) ∧
    ∀ drawn, DrawnFor (hostEvents past) response drawn → lastReturned start tr = some drawn.val

theorem run_brought (hpast : d.network.past = [])
    (h : Run (deploymentStep py deviceId L U C) (Genuine L U) d tr d')
    (hok : ∀ j, .failed j ∉ tr) (start : Option Bytes) : Brought start tr := by
  induction h with
  | refl => rfl
  | @next tr d' input d'' es hrun hgenuine hs ih =>
    have ih := ih fun j hj => hok j (List.mem_append_left _ hj)
    have hok' : ∀ j, .failed j ∉ es := fun j hj => hok j (List.mem_append_right _ hj)
    obtain ⟨disk, fates, moved, hmove, -, hinput⟩ := deploymentStep_move hs hok'
    rcases move_cases hmove hok' with ⟨-, hnone⟩ | ⟨j, answers, call, credential, response,
      device, rest, hmoved, hcall, hanswered, -, rfl⟩
    · have hreturned : lastReturned start (tr ++ es) = lastReturned start tr := by
        rw [lastReturned, latest_append, latest_eq_start fun e he => (hnone e he).2]
        rfl
      rw [Brought, lastAt_append, lastAt_eq_none fun e he => (hnone e he).1, hreturned]
      exact ih
    · obtain ⟨fates', rfl, -⟩ := hinput j answers hmoved
      have hnetwork := run_network hrun
      have hhistory : eventsOf () d'.network.past = hostEvents tr := by
        rw [run_past hnetwork, hpast]
        rfl
      obtain ⟨hdrawn, honly⟩ := returned_drawn hhistory hgenuine hcall hanswered
      rw [Brought, lastAt_append]
      have hreturned : lastReturned start (tr ++ [.network (.returned j call credential response),
          .paired j credential]) = some credential := by
        rw [lastReturned, latest_append]
        rfl
      simp only [lastAt, DeploymentEvent.response, Option.map_some, Option.map_none,
        List.append_nil, hreturned]
      exact ⟨hdrawn, fun drawn h => congrArg some (honly drawn h).symm⟩

theorem run_host
    (hboot : Host.AppState.boot name stored nextTask wall env = some (d.network.hosts ()))
    (h : Run (deploymentStep py deviceId L U C) P d tr d') :
    hostKey (d'.network.hosts ()) =
      (Host.lastPaired stored.credential (hostEvents tr)).map Subtype.val := by
  have hrun := run_eventsOf (Q := fun _ _ => True) (i := ()) (run_network h) fun _ _ _ => trivial
  exact congrArg (Option.map Subtype.val) (Host.lastPaired_run hboot hrun)

end

-- ---------------------------------------------------------------------------
-- The same key
-- ---------------------------------------------------------------------------

def rigFacts : Deck.HostFacts :=
  ⟨Host.newHost.hostId.toText, Host.hostVersion, Host.protocolVersion.toNat⟩

def pairRig (credential : Bytes) : Deck.Commit := .markPaired "pc".toList credential rigFacts

def pairedPc : Deck.Settings := (pairRig []).settings Deck.onePc

def credentialsOf (v : PairingVector) : Deck.Credentials :=
  (pairRig v.credential.val).credentials []

def rigDocuments : List Deck.Json :=
  [Deck.onePc.publicDict, pairedPc.publicDict, (credentialsOf firstExchange).document,
    (credentialsOf secondExchange).document, Deck.transactionDocument pairedPc
    (credentialsOf firstExchange), Deck.transactionDocument pairedPc (credentialsOf secondExchange)]

def rigPython : Python := .reading rigDocuments

theorem rig_reads (h : document ∈ rigDocuments) : rigPython.Readable document :=
  Deck.Python.readable_reading (by decide +kernel) h

theorem rig_readable (hv : v = firstExchange ∨ v = secondExchange) :
    Deck.Readable rigPython pairedPc (credentialsOf v) := by
  rcases hv with rfl | rfl
  · exact ⟨rig_reads (by simp [rigDocuments]), rig_reads (by simp [rigDocuments]),
      rig_reads (by simp [rigDocuments])⟩
  · exact ⟨rig_reads (by simp [rigDocuments]), rig_reads (by simp [rigDocuments]),
      rig_reads (by simp [rigDocuments])⟩

def rigContents : Deck.Contents rigPython :=
  .of Deck.onePc.devices [] (Deck.onePc_normal rigPython) Deck.onePc_identified Deck.keyed_nil

theorem rig_settled : Deck.Settled rigPython Deck.onePcDisk rigContents :=
  .of_saved _ _ _ rfl rfl (rig_reads List.mem_cons_self) rfl

theorem pairRig_allowed (v : PairingVector) :
    (pairRig v.credential.val).Allowed rigContents.settings :=
  ⟨⟨_, List.mem_singleton_self _, rfl⟩, v.credential.property⟩

def pairedDisk : Disk where
  settings := some pairedPc.publicDict.text
  credentials := some (credentialsOf secondExchange).document.text

def pairedContents : Deck.Contents rigPython :=
  (pairRig secondExchange.credential.val).after rigContents (pairRig_allowed secondExchange)

theorem paired_settled : Deck.Settled rigPython pairedDisk pairedContents := by
  have hreads :=
    rig_readable (.inr rfl : secondExchange = firstExchange ∨ secondExchange = secondExchange)
  exact .of_saved (Deck.Commit.settings_normal _ rigContents)
    (Deck.Commit.settings_identified _ rigContents)
    pairedContents.keyed rfl rfl hreads.settings
    (Deck.readCredentials_dumps hreads.credentials
      (Deck.decodeCredentials_document pairedContents.keyed))

/-- A call that returns finds the PC not paired yet, or paired by the second call. -/
def pairsKnown (d : Deployment Bool) : DeploymentInput Bool → Bool
  | .answer j answers _ =>
    match (d.network.calls j).map (Deck.HostClient.PairCall.answered rigLibraries noRedirects
      · answers) with
    | some (.ok (.inr (credential, response))) =>
      (d.disk = Deck.onePcDisk || d.disk = pairedDisk) && factsOf response = rigFacts &&
        (credential = firstExchange.credential.val || credential = secondExchange.credential.val)
    | _ => true
  | _ => true

theorem readsBack_of_pairsKnown (h : pairsKnown d input = true) :
    ReadsBack rigPython "pc".toList rigLibraries noRedirects d input := by
  cases input with
  | host | pairDevice => trivial
  | answer j answers fates =>
    intro call credential response hcall hanswered c hc
    simp only [pairsKnown, hcall, Option.map_some, hanswered, Bool.and_eq_true, Bool.or_eq_true,
      decide_eq_true_eq] at h
    obtain ⟨⟨hdisk, hfacts⟩, hcredential⟩ := h
    obtain ⟨v, hv, rfl⟩ : ∃ v, (v = firstExchange ∨ v = secondExchange) ∧
        credential = v.credential.val := by
      rcases hcredential with h | h
      · exact ⟨_, .inl rfl, h⟩
      · exact ⟨_, .inr rfl, h⟩
    rw [hfacts]
    rcases hdisk with hdisk | hdisk
    · rw [hdisk] at hc
      obtain rfl := hc.unique (.inl rig_settled)
      exact rig_readable hv
    · rw [hdisk] at hc
      obtain rfl := hc.unique (.inl paired_settled)
      exact rig_readable hv

def DeploymentInput.of : NetworkInput Unit κ → DeploymentInput κ
  | .host _ input => .host input
  | .call j _ pairingCode entropy => .pairDevice j pairingCode entropy []
  | .answer j answers => .answer j answers []

def rigDeployment : Deployment Bool := ⟨⟨fun _ => rigStart 400, fun _ => none, []⟩, Deck.onePcDisk⟩

def NetworkEvent.passes (reply : Deck.Reply) : NetworkEvent Unit κ → Bool
  | .host _ (.output (.answered _ response)) | .host _ (.output (.completed _ _ _ response)) =>
    reply.status = response.status.toNat && reply.body.toOption = some response.body
  | _ => false

/-- The network alters nothing. -/
def relays (d : Deployment Bool) : DeploymentInput Bool → Bool
  | .host (.request (.pair _ http)) =>
    [false, true].any fun j => (d.network.calls j).any (·.body = http.body)
  | .answer _ [.reply reply] _ => d.network.past.any (·.passes reply)
  | .answer .. => false
  | _ => true

/-- The answer to the first call arrives when the second one is paired. -/
def overtakenPairing : List (NetworkInput Unit Bool) :=
  onePairing.dropLast ++ (Host.generateAt 400 2).map (.host ()) ++
  calling true secondExchange :: startRequest secondExchange ::
    List.replicate 3 (stepping 400 3 secondExchange) ++ startedReply true secondExchange ::
  completionRequest secondExchange :: List.replicate 4 (stepping 400 4 secondExchange) ++
  [completedReply true secondExchange, completedReply false firstExchange]

def DeploymentEvent.fine : DeploymentEvent κ → Bool
  | .failed _ => false
  | _ => true

theorem not_failed {tr : List (DeploymentEvent κ)} (h : tr.all (·.fine) = true) (j : κ) :
    .failed j ∉ tr :=
  fun hj => nomatch List.all_eq_true.mp h _ hj

def DeploymentEvent.pairs (j : Bool) (z : UInt8) : DeploymentEvent Bool → Bool
  | .paired j' credential => j' = j && credential = List.replicate 32 z
  | _ => false

theorem mem_of_pairs {tr : List (DeploymentEvent Bool)} (h : tr.any (·.pairs j z) = true) :
    .paired j (List.replicate 32 z) ∈ tr := by
  obtain ⟨e, he, hpairs⟩ := List.any_eq_true.mp h
  unfold DeploymentEvent.pairs at hpairs
  split at hpairs
  · simp only [Bool.and_eq_true, decide_eq_true_eq] at hpairs
    obtain ⟨rfl, rfl⟩ := hpairs
    exact he
  · cases hpairs

end DeckyMyRig.System
