import DeckyMyRig.Host.Provenance
import DeckyMyRig.Host.Serving

/-!
# A pairing that is left alone

The two requests of a pairing, each followed through a run in which other
handlers step in between. Others may start, fail and complete what they like,
but no other pairing is saved, no new code is installed, the process stays and
the exchange ends within its five minutes. Then the session that the start
opens is still pending when the completion comes, and the completion is saved
and answered.
-/

namespace DeckyMyRig.Host

open Octets Machine

structure Exchange where
  code : Code
  sessionId : SessionId
  opened : Nat

structure Agreed (C : Crates) (x : Exchange) (clientMessage : Bytes) (session : PendingPairing) :
    Prop where
  sessionId : session.sessionId = x.sessionId
  created : session.created = x.opened
  message : session.clientMessage = clientMessage
  keyed : ∃ entropy, session.hostMessage = C.startB (utf8 x.code) clientId hostIdentityName
    entropy ∧
    C.finishB (utf8 x.code) clientId hostIdentityName entropy clientMessage = some session.shared

structure PairingCode.Pends (p : PairingCode) (session : PendingPairing) : Prop where
  pending : p.pending.lookup session.sessionId = some session
  uncompleted : p.completed.lookup session.sessionId = none

/-- What the steps of the exchange find: a host that takes a pairing, a code
that is neither expired nor exhausted, and a store that takes the credential. -/
def Welcomes (x : Exchange) (s : AppState) (env : Env) : Task → Prop
  | .pairCheck .. => ¬ (s.identity.credential.isSome ∧ s.identity.pairingCode.isNone)
  | .pairStart _ source =>
    s.pairing.code = x.code ∧ elapsed s.pairing.created env.r.first ≤ pairingLifetime ∧
      (s.pairing.pruneSessions env.r).limited source = false ∧
      s.pairing.completed.lookup x.sessionId = none ∧
      env.sessionId = x.sessionId ∧ env.r.last = x.opened
  | .pairSave .. => env.saves = true
  | .pairCommit .. => seconds 301 ≤ env.r.last
  | _ => True

def Bypasses (x : Exchange) (env : Env) : Task → Prop
  | .pairStart .. => env.sessionId ≠ x.sessionId
  | .pairFinish request _ => request.sessionId ≠ x.sessionId.val
  | .pairSave .. | .pairCommit .. | .genInstall .. => False
  | _ => True

def Calm (x : Exchange) (id : Nat) (s : AppState) : Input → Prop
  | .advance i env => elapsed x.opened env.r.last ≤ pairingLifetime ∧
      ∀ t ∈ s.tasks i, if i = id then Welcomes x s env t else Bypasses x env t
  | .cancel i => i ≠ id
  | .restart _ => False
  | .request _ => True

theorem Calm.lives {id : Nat} (h : Calm x id s i) : i ≠ .cancel id ∧ ∀ env, i ≠ .restart env := by
  cases i with
  | cancel i => exact ⟨fun heq => h (by cases heq; rfl), by simp⟩
  | restart => exact h.elim
  | request | advance => simp

instance decidableWelcomes : (t : Task) → Decidable (Welcomes x s env t)
  | .pairCheck .. => instDecidableNot
  | .pairStart .. => instDecidableAnd
  | .pairSave .. => instDecidableEqBool _ _
  | .pairCommit .. => Nat.decLe _ _
  | .credential .. | .verify .. | .persistNonce .. | .latestVersion .. | .identityVersion ..
  | .setLatest ..
  | .statusReply .. | .pairReply .. | .pairHostId .. | .pairFinish .. | .pairRepeat .. | .genPairing
  | .genIdentity
  | .genInstall .. => isTrue trivial

instance decidableBypasses : (t : Task) → Decidable (Bypasses x env t)
  | .pairStart .. | .pairFinish .. => instDecidableNot
  | .pairSave .. | .pairCommit .. | .genInstall .. => isFalse not_false
  | .credential .. | .verify .. | .persistNonce .. | .latestVersion .. | .identityVersion ..
  | .setLatest ..
  | .statusReply .. | .pairCheck .. | .pairReply .. | .pairHostId .. | .pairRepeat .. | .genPairing
  | .genIdentity => isTrue trivial

instance decidableCalm {id : Nat} : (i : Input) → Decidable (Calm x id s i)
  | .advance .. => instDecidableAnd
  | .cancel _ => instDecidableNot
  | .restart _ => isFalse not_false
  | .request _ => isTrue trivial

-- ---------------------------------------------------------------------------
-- The session
-- ---------------------------------------------------------------------------

namespace PairingCode.Pends

variable {p p' : PairingCode} {session : PendingPairing}

theorem prune (h : p.Pends session) (hage : elapsed session.created r.last ≤ pairingLifetime) :
    (p.pruneSessions r).Pends session where
  pending := pending_pruneSessions.mpr
    ⟨h.pending, (elapsed_mono _ (r.le_last session.sessionId).1).trans hage⟩
  uncompleted := by
    rw [Option.eq_none_iff_forall_ne_some]
    intro c hc
    cases h.uncompleted.symm.trans (completed_pruneSessions.mp hc).1

theorem startForSource (h : p.Pends session)
    (hage : elapsed session.created r.last ≤ pairingLifetime) (hne : sessionId ≠ session.sessionId)
    (hs : p.startForSource C clientMessage source r entropy sessionId = (p', answer)) : p'.Pends
      session := by
  cases answer with
  | error e =>
    obtain rfl | rfl := startForSource_error hs
    · exact h
    · exact h.prune hage
  | ok started =>
    obtain ⟨shared, -, rfl, -⟩ := startForSource_ok hs
    refine ⟨?_, (h.prune hage).uncompleted⟩
    rw [AList.lookup_insert_ne (Ne.symm hne)]
    exact (h.prune hage).pending

theorem finish (h : p.Pends session) (hage : elapsed session.created r.last ≤ pairingLifetime)
    (hne : sessionId ≠ session.sessionId.val)
    (hf : p.finish C sessionId confirmation context r credential nonce = (p', answer)) : p'.Pends
      session := by
  cases hch : p.checking sessionId r with
  | none =>
    obtain ⟨⟨-, rfl⟩ | rfl, -⟩ := finish_not_checking hch hf
    · exact h
    · exact h.prune hage
  | some e =>
    obtain ⟨s, rfl, heq⟩ := finish_checking C confirmation context credential nonce hch
    rw [heq] at hf
    split at hf <;> obtain ⟨rfl, -⟩ := Prod.mk.inj hf
    · exact h.prune hage
    · refine ⟨?_, (h.prune hage).uncompleted⟩
      have hother : session.sessionId ≠ s := fun heq => hne (congrArg Subtype.val heq.symm)
      simpa only [charged, AList.lookup_erase_ne hother] using (h.prune hage).pending

theorem checking (h : p.Pends session) (hage : elapsed session.created r.last ≤ pairingLifetime) :
    p.checking session.sessionId.val r = some session :=
  checking_eq_some.mpr ⟨_, rfl, (h.prune hage).uncompleted, (h.prune hage).pending, hage⟩

end PairingCode.Pends

theorem AppState.Advance.pends {id : Nat} {session : PendingPairing}
    (h : AppState.Advance C s env id t s' out)
    (hsession : session.sessionId = x.sessionId) (hbypasses : Bypasses x env t)
    (hage : elapsed session.created env.r.last ≤ pairingLifetime) (hp : s.pairing.Pends session) :
    s'.pairing.Pends session := by
  cases h with
  | statusVerified _ h | nonceSaved _ _ h | versionKnown h | versionSet h =>
    obtain ⟨tasks, rfl⟩ := h.frame
    exact hp
  | notStarted hs | started hs => exact hp.startForSource hage (hsession ▸ hbypasses) hs
  | notFinished hf | finished hf => exact hp.finish hage (hsession ▸ hbypasses) hf
  | committed | notCommitted | panicked | genInstalled => exact hbypasses.elim
  | _ => exact hp

theorem HostStep.bypasses {id : Nat} (hg : Grounded C host name s) (hcalm : Calm x id s i)
    (hadvance : ∀ env, i ≠ .advance id env) (h : HostStep C s i s' out) :
    (∀ session : PendingPairing, session.sessionId = x.sessionId → session.created = x.opened →
      s.pairing.Pends session → s'.pairing.Pends session) ∧
    (s.stored.credential = s.identity.credential → s'.identity.credential = s.identity.credential ∧
      s'.stored.credential = s.stored.credential) := by
  cases h with
  | answered | spawned | cancelled => exact ⟨fun _ _ _ hp => hp, fun _ => ⟨rfl, rfl⟩⟩
  | @advanced j t env _ _ ht _ _ _ ha =>
    have hne : j ≠ id := fun heq => hadvance env (by rw [heq])
    obtain ⟨hage, hbypasses⟩ := hcalm
    have hbypasses : Bypasses x env t := by simpa only [if_neg hne] using hbypasses t ht
    refine ⟨fun session hid hcreated hp =>
      ha.pends hid hbypasses (hcreated ▸ hage) hp, fun hst => ?_⟩
    obtain ⟨hsame, hkept | ⟨request, result, rfl, -⟩⟩ := ha.credential (s := s.tick env) hst (by
      rintro generated updated rfl
      exact (hg.installs ht).stored)
    · exact ⟨hkept, (hsame.trans hkept).trans hst.symm⟩
    · exact hbypasses.elim
  | restarted => exact hcalm.elim

-- ---------------------------------------------------------------------------
-- The start
-- ---------------------------------------------------------------------------

def startResponse (C : Crates) (context : CredentialContext) (session : PendingPairing) :
    Response :=
  protobuf 200 (C.encodePairResponse {
    hostSpake2Message := session.hostMessage
    encryptionNonce := []
    encryptedCredential := []
    hostname := context.hostname
    hostVersion := context.hostVersion
    protocolVersion := context.protocolVersion
    hostId := context.hostId
    sessionId := session.sessionId.val })

def contextOf (host : Uuid) (name : Text) : CredentialContext :=
  ⟨name, hostVersion, protocolVersion, host.toText⟩

section
variable {C : Crates} {host : Uuid} {name : Text} {x : Exchange} {clientMessage : Bytes}
  {s s' : AppState} {env : Env} {id : Nat}

/-- The tasks of a start that is going to succeed. -/
inductive Opening (C : Crates) (x : Exchange) (clientMessage : Bytes) (s : AppState) : Task → Prop
  | check : Opening C x clientMessage s (.pairCheck clientMessage source)
  | start : Opening C x clientMessage s (.pairStart clientMessage source)
  | reply {session : PendingPairing} : Agreed C x clientMessage session → s.pairing.Pends session →
      Opening C x clientMessage s (.pairReply ⟨session.hostMessage, session.sessionId⟩)

def Opened (C : Crates) (host : Uuid) (name : Text) (x : Exchange) (clientMessage : Bytes)
    (id : Nat) (s : AppState) (acts : List Output) : Prop :=
  ∃ session, Agreed C x clientMessage session ∧ s.pairing.Pends session ∧
    acts = [.answered id (startResponse C (contextOf host name) session)]

theorem start_agreed (hkey : ∀ entropy, ∃ shared,
      C.finishB (utf8 x.code) clientId hostIdentityName entropy clientMessage = some shared)
    (hw : Welcomes x s env (.pairStart clientMessage source)) :
    ∃ session p, s.pairing.startForSource C clientMessage source env.r env.entropy env.sessionId =
        (p, .ok ⟨session.hostMessage, session.sessionId⟩) ∧
      Agreed C x clientMessage session ∧ p.Pends session := by
  obtain ⟨hcode, hage, hlimited, hfresh, hid, hopened⟩ := hw
  have hcode : (s.pairing.pruneSessions env.r).code = x.code := hcode
  obtain ⟨shared, hshared⟩ := hkey env.entropy
  let session :=
    PairingCode.startedSession C x.code clientMessage source env.r env.entropy x.sessionId shared
  let pruned := s.pairing.pruneSessions env.r
  refine ⟨session, { pruned with pending := pruned.pending.insert x.sessionId session }, ?_,
    ⟨rfl, hopened, rfl, env.entropy, rfl, hshared⟩, ?_⟩
  · unfold PairingCode.startForSource
    rw [if_neg (Nat.not_lt.mpr hage)]
    simp only [hlimited, Bool.false_eq_true, if_false, hcode, hshared, hid, pruned]
    rfl
  · refine ⟨AList.lookup_insert _, ?_⟩
    rw [Option.eq_none_iff_forall_ne_some]
    intro c hc
    cases hfresh.symm.trans (PairingCode.completed_pruneSessions.mp hc).1

theorem opening_step (hkey : ∀ entropy, ∃ shared,
      C.finishB (utf8 x.code) clientId hostIdentityName entropy clientMessage = some shared)
    (hg : Grounded C host name s) (ht : s.tasks id = some t) (hat : Opening C x clientMessage s t)
    (hw : Welcomes x s env t) (h : hostStep C s (.advance id env) = some (s', out)) :
    Followed id (Opening C x clientMessage) (Opened C host name x clientMessage id) out s' := by
  have hrun := hostStep_run h ht
  cases hat with
  | check =>
    have hopen : ¬ ((s.tick env).identity.credential.isSome ∧
      (s.tick env).identity.pairingCode.isNone) := hw
    simp only [AppState.run, AppState.pairCheck, if_neg hopen] at hrun
    cases hrun
    exact .inl ⟨_, if_pos rfl, .start, rfl⟩
  | start =>
    obtain ⟨session, p, hstart, hagreed, hp⟩ := start_agreed hkey hw
    have hstart : (s.tick env).pairing.startForSource C clientMessage _ env.r env.entropy
      env.sessionId = (p, .ok ⟨session.hostMessage, session.sessionId⟩) := hstart
    simp only [AppState.run, AppState.pairStart, hstart] at hrun
    cases hrun
    exact .inl ⟨_, if_pos rfl, .reply hagreed hp, rfl⟩
  | @reply session hagreed hp =>
    simp only [AppState.run, AppState.pairReply, AppState.answer] at hrun
    cases hrun
    refine .inr ⟨if_pos rfl, session, hagreed, hp, ?_⟩
    have hname : (s.tick env).hostname = name := hg.identified.hostname
    have hid : (s.tick env).identity.hostId = host := hg.identified.identity
    rw [hname, hid]
    simp [actsOf, Output.actOf, startResponse, contextOf]

theorem opened_run (hg : Grounded C host name s₀) (hkey : ∀ entropy, ∃ shared,
      C.finishB (utf8 x.code) clientId hostIdentityName entropy clientMessage = some shared)
    (hroute : AppState.route C request = .inr (.pairCheck clientMessage source))
    (h : Run (hostStep C) (Calm x s₀.nextTask) (s₀.receive C request).1 tr s)
    (hdone : s.tasks s₀.nextTask = none) :
    Grounded C host name s ∧ Opened C host name x clientMessage s₀.nextTask s
      (actsOf s₀.nextTask tr) := by
  simp only [AppState.receive, hroute] at h
  have hspawn : HostStep C s₀ (.request request)
      ({ s₀ with nextTask := s₀.nextTask + 1 }.goto s₀.nextTask (.pairCheck clientMessage source))
      [] :=
    .spawned rfl
  obtain ⟨hg', ⟨t, ht, -, -⟩ | ⟨-, hopened⟩⟩ := followed_run (hg.next hspawn) (Nat.lt_succ_self _)
    (.inl ⟨_, if_pos rfl, .check, rfl⟩) (fun _ _ hp => hp.lives)
    (fun hg hp ht hat hs => opening_step hkey hg ht hat (by simpa using hp.2 _ ht) hs)
    (fun hg hp hadvance hs => by
      obtain ⟨hpends, -⟩ := hs.bypasses hg hp hadvance
      constructor
      · intro t _ hat
        cases hat with
        | check => exact .check
        | start => exact .start
        | reply hagreed hp => exact .reply hagreed (hpends _ hagreed.sessionId hagreed.created hp)
      · rintro acts ⟨session, hagreed, hp, hacts⟩
        exact ⟨session, hagreed, hpends _ hagreed.sessionId hagreed.created hp, hacts⟩) h
  · rw [ht] at hdone
    cases hdone
  · exact ⟨hg', hopened⟩

-- ---------------------------------------------------------------------------
-- The completion
-- ---------------------------------------------------------------------------

variable {session : PendingPairing} {request : PairRequest}

def AppState.Holds (s : AppState) (result : PairingResult) : Prop :=
  s.identity.credential = some result.credential ∧ s.stored.credential = some result.credential

inductive Closing (C : Crates) (context : CredentialContext) (session : PendingPairing)
    (request : PairRequest) (s : AppState) : Task → Prop
  | hostId : s.pairing.Pends session → Closing C context session request s (.pairHostId request)
  | finish : s.pairing.Pends session → Closing C context session request s
      (.pairFinish request context.hostId)
  | save : issue C session context result.credential result.nonce = .ok result →
      Closing C context session request s (.pairSave request result)
  | commit : issue C session context result.credential result.nonce = .ok result → s.Holds result →
      Closing C context session request s (.pairCommit request result)

def Closed (C : Crates) (context : CredentialContext) (session : PendingPairing)
    (request : PairRequest) (id : Nat) (s : AppState) (acts : List Output) : Prop :=
  ∃ result, issue C session context result.credential result.nonce = .ok result ∧ s.Holds result ∧
    acts = [.completed id request result (completionResponse C context request.sessionId result)]

theorem closing_step (hagreed : Agreed C x clientMessage session)
    (hsession : request.sessionId = session.sessionId.val)
    (htag : request.clientConfirmation = confirmationTag C session)
    (hfits : AadFits session.hostMessage session.sessionId.val (contextOf host name))
    (hg : Grounded C host name s) (ht : s.tasks id = some t)
    (hat : Closing C (contextOf host name) session request s t) (hw : Welcomes x s env t)
    (hage : elapsed x.opened env.r.last ≤ pairingLifetime)
    (h : hostStep C s (.advance id env) = some (s', out)) :
    Followed id (Closing C (contextOf host name) session request)
      (Closed C (contextOf host name) session request id) out s' := by
  have hrun := hostStep_run h ht
  have hname : (s.tick env).hostname = name := hg.identified.hostname
  have hid : (s.tick env).identity.hostId = host := hg.identified.identity
  cases hat with
  | hostId hp =>
    simp only [AppState.run, hid] at hrun
    cases hrun
    exact .inl ⟨_, if_pos rfl, .finish hp, rfl⟩
  | finish hp =>
    have hchecking : (s.tick env).pairing.checking request.sessionId env.r = some session := by
      rw [hsession]
      exact hp.checking (hagreed.created ▸ hage)
    have hfresh : (s.tick env).pairing.isCompleted request.sessionId = false := by
      rw [hsession, PairingCode.isCompleted_val]
      exact Option.isSome_eq_false_iff.mpr (Option.isNone_iff_eq_none.mpr hp.uncompleted)
    obtain ⟨result, hissue⟩ := issue_fits C env.credential env.nonce hfits
    have hcontext : (s.tick env).credentialContext (contextOf host name).hostId =
        contextOf host name := by
      rw [AppState.credentialContext, hname]
      rfl
    obtain ⟨hcredential, -, hnonce, -⟩ := issue_ok hissue
    simp only [AppState.run, AppState.pairFinish, hcontext, hfresh,
      PairingCode.finish_right _ _ _ hchecking htag, hissue, Bool.false_eq_true, if_false] at hrun
    cases hrun
    refine .inl ⟨_, if_pos rfl, .save ?_, rfl⟩
    rw [hcredential, hnonce]
    exact hissue
  | save hissue =>
    have hsaves : env.saves = true := hw
    simp only [AppState.run, AppState.pairSave, hsaves, if_true] at hrun
    cases hrun
    exact .inl ⟨_, if_pos rfl, .commit hissue ⟨rfl, rfl⟩, rfl⟩
  | @commit result hissue hholds =>
    -- the locks have kept the session since it was confirmed
    obtain ⟨k, e, hk, hp, -⟩ := hg.tasks ht rfl
    have hpending : (s.tick env).pairing.pending.lookup k ≠ none := by
      rw [show (s.tick env).pairing = s.pairing from rfl, hp]
      simp
    have hlate : seconds 301 ≤ env.r.last := hw
    have hcommit : ∃ p, (s.tick env).pairing.commit request.sessionId request.clientConfirmation
        result env.r =
          (p, .ok ()) := by
      rw [hk, PairingCode.commit_pending hpending, if_pos hlate]
      exact ⟨_, rfl⟩
    obtain ⟨p, hcommit⟩ := hcommit
    simp only [AppState.run, AppState.pairCommit, hcommit] at hrun
    cases hrun
    refine .inr ⟨if_pos rfl, result, hissue, hholds, ?_⟩
    simp only [AppState.pairingResponse, AppState.finish, hname, hid]
    simp [actsOf, Output.actOf, completionResponse, contextOf]

theorem closed_run (hg : Grounded C host name s₀) (hagreed : Agreed C x clientMessage session)
    (hp : s₀.pairing.Pends session) (hroute : AppState.route C posted = .inr (.pairHostId request))
    (hsession : request.sessionId = session.sessionId.val)
    (htag : request.clientConfirmation = confirmationTag C session)
    (hfits : AadFits session.hostMessage session.sessionId.val (contextOf host name))
    (h : Run (hostStep C) (Calm x s₀.nextTask) (s₀.receive C posted).1 tr s)
    (hdone : s.tasks s₀.nextTask = none) :
    Closed C (contextOf host name) session request s₀.nextTask s (actsOf s₀.nextTask tr) := by
  simp only [AppState.receive, hroute] at h
  have hspawn : HostStep C s₀ (.request posted)
      ({ s₀ with nextTask := s₀.nextTask + 1 }.goto s₀.nextTask (.pairHostId request)) [] :=
        .spawned rfl
  obtain ⟨-, ⟨t, ht, -, -⟩ | ⟨-, hclosed⟩⟩ := followed_run (hg.next hspawn) (Nat.lt_succ_self _)
    (.inl ⟨_, if_pos rfl, .hostId hp, rfl⟩) (fun _ _ hp => hp.lives)
    (fun hg hp ht hat hs => closing_step hagreed hsession htag hfits hg ht hat
      (by simpa using hp.2 _ ht)
      hp.1 hs)
    (fun hg hcalm hadvance hs => by
      obtain ⟨hpends, hcredential⟩ := hs.bypasses hg hcalm hadvance
      have hpends := hpends session hagreed.sessionId hagreed.created
      have hkeeps {result : PairingResult} {s s' : AppState} (hh : s.Holds result)
          (hcredential : s.stored.credential = s.identity.credential →
            s'.identity.credential = s.identity.credential ∧ s'.stored.credential =
              s.stored.credential) :
          s'.Holds result := by
        obtain ⟨hidentity, hstored⟩ := hcredential (hh.2.trans hh.1.symm)
        exact ⟨hidentity.trans hh.1, hstored.trans hh.2⟩
      constructor
      · intro t _ hat
        cases hat with
        | hostId hp => exact .hostId (hpends hp)
        | finish hp => exact .finish (hpends hp)
        | save hissue => exact .save hissue
        | commit hissue hh => exact .commit hissue (hkeeps hh hcredential)
      · rintro acts ⟨result, hissue, hh, hacts⟩
        exact ⟨result, hissue, hkeeps hh hcredential, hacts⟩) h
  · rw [ht] at hdone
    cases hdone
  · exact hclosed

end

end DeckyMyRig.Host
