import DeckyMyRig.Host.ServerLaws

/-!
# What pairing tasks know

Between the steps of a pairing handler or of `generate_pairing_code` the locks
it holds keep what it found in place: the session it confirmed is still
pending, the code it saved is still the stored one.
-/

namespace DeckyMyRig.Host

open Octets Machine

structure Generated (generated : PairingCode) (updated stored : HostIdentity) : Prop where
  stored : updated = stored
  code : updated.pairingCode = some generated.code.val
  fresh : ∃ created, generated = .fresh generated.code created

def InstallsStored (s : AppState) : Prop :=
  ∀ {id : Nat} {generated updated}, s.tasks id = some (.genInstall generated updated) →
    Generated generated updated s.stored

def Output.pairedCredential : Output → Option Credential
  | .paired _ _ result => some result.credential
  | _ => none

theorem InstallsStored.next (hl : Locks s) (hg : InstallsStored s) (h : HostStep C s i s' out) :
    InstallsStored s' := by
  intro j generated updated hj
  rcases h.task_cases hl hj with ⟨hj, hu⟩ | hinit | ⟨env, u, -, -, -, -, -, ha⟩
  · rw [(hu.identity rfl).2]
    exact hg hj
  · cases hinit
  · cases ha.enters hj with
    | serving h => cases h
    | genInstall hgen hcode hstored => exact ⟨hstored.symm, hcode, _, by rw [hgen]; rfl⟩

-- ---------------------------------------------------------------------------
-- The host's own values
-- ---------------------------------------------------------------------------

structure Identified (host : Uuid) (name : Text) (s : AppState) : Prop where
  hostname : s.hostname = name
  identity : s.identity.hostId = host
  stored : s.stored.hostId = host
  finishing : ∀ {id : Nat} {request hostId}, s.tasks id = some (.pairFinish request hostId) →
    hostId = host.toText

theorem AppState.Advance.identified {id : Nat} (h : AppState.Advance C s env id t s' out)
    (hid : s.identity.hostId = host) (hst : s.stored.hostId = host)
    (hinst : ∀ generated updated, t = .genInstall generated updated → updated.hostId = host) :
    s'.identity.hostId = host ∧ s'.stored.hostId = host := by
  cases h with
  | statusVerified _ h | versionKnown h | versionSet h =>
    obtain ⟨tasks, rfl⟩ := h.frame
    exact ⟨hid, hst⟩
  | nonceSaved _ hu h =>
    obtain ⟨tasks, rfl⟩ := h.frame
    subst hu
    exact ⟨hid, hid⟩
  | versionSaved hu | pairSaved hu =>
    subst hu
    exact ⟨hid, hid⟩
  | genSaved _ hu =>
    subst hu
    exact ⟨hid, hid⟩
  | genInstalled => exact ⟨hinst _ _ rfl, hst⟩
  | _ => exact ⟨hid, hst⟩

theorem Identified.next (hl : Locks s) (hg : InstallsStored s) (hi : Identified host name s)
    (h : HostStep C s i s' out) : Identified host name s' := by
  have hfinish : ∀ {j : Nat} {request hostId}, s'.tasks j = some (.pairFinish request hostId) →
      hostId = host.toText := by
    intro j request hostId hj
    rcases h.task_cases hl hj with ⟨hj, -⟩ | hinit | ⟨env, u, -, -, -, -, -, ha⟩
    · exact hi.finishing hj
    · cases hinit
    · cases ha.enters hj with
      | serving h => cases h
      | pairFinish => exact congrArg Uuid.toText hi.identity
  cases h with
  | answered | spawned | cancelled => exact ⟨hi.hostname, hi.identity, hi.stored, hfinish⟩
  | @advanced id t env _ _ ht _ _ _ ha =>
    obtain ⟨hid, hst⟩ := ha.identified hi.identity hi.stored (by
      rintro generated updated rfl
      rw [(hg ht).stored]
      exact hi.stored)
    exact ⟨ha.clocks.2.2.trans hi.hostname, hid, hst, hfinish⟩
  | restarted hb =>
    obtain ⟨p, -, rfl⟩ := boot_eq_some hb
    exact ⟨hi.hostname, hi.stored, hi.stored, hfinish⟩

-- ---------------------------------------------------------------------------
-- Completions in progress
-- ---------------------------------------------------------------------------

def Task.completing : Task → Option (PairRequest × PairingResult)
  | .pairSave request result | .pairCommit request result => some (request, result)
  | _ => none

theorem completing_none {t : Task} (h : t.initial = true ∨ t.serving = true) :
    t.completing = none := by
  rcases h with h | h <;> cases t <;> first | rfl | cases h

/-- The session of a completion is pending, its confirmation is the right one
and its result was issued for it. -/
def Confirmed (C : Crates) (context : CredentialContext) (p : PairingCode) (request : PairRequest)
    (result : PairingResult) : Prop :=
  ∃ (k : SessionId) (e : PendingPairing), request.sessionId = k.val ∧ p.pending.lookup k = some e ∧
    request.clientConfirmation = confirmationTag C e ∧
    issue C e context result.credential result.nonce = .ok result

def PairTasks (C : Crates) (context : CredentialContext) (s : AppState) : Prop :=
  ∀ {id : Nat} {t request result}, s.tasks id = some t → t.completing = some (request, result) →
    Confirmed C context s.pairing request result

theorem finish_confirmed {p : PairingCode} {request : PairRequest}
    (h : p.finish C request.sessionId request.clientConfirmation context r credential nonce =
      (p', .ok result)) (hc : p.isCompleted request.sessionId = false) :
    Confirmed C context p' request result := by
  obtain ⟨rfl, e, hch, htag, hi⟩ := PairingCode.finish_new h hc
  obtain ⟨k, hk, -, hp, -⟩ := PairingCode.checking_eq_some.mp hch
  obtain ⟨rfl, -, rfl, -⟩ := issue_ok hi
  exact ⟨k, e, hk, hp, htag, hi⟩

theorem AppState.Advance.completing {id : Nat} (h : AppState.Advance C s env id t s' out)
    (ht : s'.tasks id = some t') (hc : t'.completing = some (request, result)) :
    t.completing = some (request, result) ∧ s'.pairing = s.pairing ∨
      ∃ hostId, t = .pairFinish request hostId ∧
        Confirmed C (s.credentialContext hostId) s'.pairing request result := by
  cases h.enters ht with
  | serving h =>
    rw [completing_none (.inr h)] at hc
    cases hc
  | pairSave hcomp hf =>
    cases hc
    exact .inr ⟨_, rfl, finish_confirmed hf hcomp⟩
  | pairCommit _ hpairing => exact .inl ⟨hc, hpairing⟩
  | _ => cases hc

theorem PairTasks.next (hl : Locks s) (hi : Identified host name s)
    (hp : PairTasks C ⟨name, hostVersion, protocolVersion, host.toText⟩ s)
    (h : HostStep C s i s' out) :
    PairTasks C ⟨name, hostVersion, protocolVersion, host.toText⟩ s' := by
  intro j t request result hj hc
  rcases h.task_cases hl hj with ⟨hj, hu⟩ | hinit | ⟨env, u, -, hu, -, -, -, ha⟩
  · have hold : t.holds .pairing = true := by
      cases t <;> first | rfl | cases hc
    rw [hu.pairing hold]
    exact hp hj hc
  · rw [completing_none (.inl hinit)] at hc
    cases hc
  · rcases ha.completing hj hc with ⟨hc, heq⟩ | ⟨hostId, rfl, hconf⟩
    · rw [heq]
      exact hp hu hc
    · rw [hi.finishing hu] at hconf
      simpa only [AppState.credentialContext, AppState.tick, hi.hostname] using hconf

-- ---------------------------------------------------------------------------
-- The pairing state from step to step
-- ---------------------------------------------------------------------------

structure Grounded (C : Crates) (host : Uuid) (name : Text) (s : AppState) : Prop where
  locks : Locks s
  installs : InstallsStored s
  identified : Identified host name s
  tasks : PairTasks C ⟨name, hostVersion, protocolVersion, host.toText⟩ s

theorem Grounded.boot (h : AppState.boot hostname stored nextTask wall env = some s) :
    Grounded C stored.hostId hostname s := by
  have hl := Locks.boot h
  obtain ⟨p, -, rfl⟩ := boot_eq_some h
  exact ⟨hl, by rintro _ _ _ ⟨⟩, ⟨rfl, rfl, rfl, by rintro _ _ _ ⟨⟩⟩, by rintro _ _ _ _ ⟨⟩⟩

theorem Grounded.next (hi : Grounded C host name s) (h : HostStep C s i s' out) :
    Grounded C host name s' := by
  obtain ⟨hl, hg, hid, hp⟩ := hi
  exact ⟨hl.next h, hg.next hl h, hid.next hl hg h, hp.next hl hid h⟩

theorem Grounded.clock (h : Grounded C host name s) (now : Nat) :
    Grounded C host name { s with clock := now } :=
  ⟨⟨h.locks.holder, h.locks.unborn⟩, h.installs, ⟨h.identified.hostname, h.identified.identity,
    h.identified.stored, h.identified.finishing⟩, h.tasks⟩

theorem startPairing_fresh {identity : HostIdentity}
    (h : identity.startPairing now m value = .ok p) : ∃ created, p = .fresh p.code created := by
  unfold HostIdentity.startPairing at h
  split at h
  · unfold PairingCode.fromCodeWithAge at h
    split at h
    · split at h
      · cases h
        exact ⟨_, rfl⟩
      · cases h
    · cases h
  · cases h
    exact ⟨_, rfl⟩

/-- The pairing state loses sessions in a step, unless the step starts one,
commits one or installs a new code. -/
inductive AppState.Advance.PairingMoves (C : Crates) (s : AppState) (env : Env) (id : Nat) :
    Task → PairingCode → List Output → Prop
  | within : p.Within env.r s.pairing → task.saved = false → (∀ j start, .started j start ∉ out) →
      PairingMoves C s env id task p out
  | started : s.pairing.startForSource C clientMessage source env.r env.entropy env.sessionId =
        (p, .ok start) →
      PairingMoves C s env id (.pairStart clientMessage source) p [.started id start]
  | committed : s.pairing.commit request.sessionId request.clientConfirmation result env.r =
      (p, a) →
      (∀ j start, .started j start ∉ out) → PairingMoves C s env id
      (.pairCommit request result) p out
  | installed : PairingMoves C s env id (.genInstall generated updated) generated
      [.generated id state]

theorem AppState.Continues.not_pairing {id : Nat} (h : AppState.Continues s id c s' out) :
    (∀ j start, .started j start ∉ out) ∧ ∀ j request result, .paired j request result ∉ out := by
  cases h <;> simp

theorem AppState.Advance.pairingMoves {id : Nat} (h : AppState.Advance C s env id t s' out) :
    PairingMoves C s env id t s'.pairing out := by
  cases h with
  | answered hp => exact .within (.refl _) (by cases t <;> first | rfl | cases hp) (by simp)
  | statusVerified _ h | versionKnown h | versionSet h =>
    have hn := h.not_pairing.1
    obtain ⟨tasks, rfl⟩ := h.frame
    exact .within (.refl _) rfl hn
  | nonceSaved _ _ h =>
    have hn := h.not_pairing.1
    obtain ⟨tasks, rfl⟩ := h.frame
    exact .within (.refl _) rfl (by simpa using hn)
  | notStarted hf => exact .within (PairingCode.startForSource_within hf) rfl (by simp)
  | started hf => exact .started hf
  | notFinished hf | finished hf => exact .within (PairingCode.finish_within hf) rfl (by simp)
  | committed hf | notCommitted hf | panicked hf => exact .committed hf (by simp)
  | genInstalled => exact .installed
  | _ => exact .within (.refl _) rfl (by simp)

theorem AppState.Advance.started_task {id : Nat} (h : AppState.Advance C s env id t s' out)
    (ho : .started j start ∈ out) :
    ∃ clientMessage source, t = .pairStart clientMessage source := by
  cases h.pairingMoves with
  | within _ _ hn | committed _ hn => exact absurd ho (hn j start)
  | started => exact ⟨_, _, rfl⟩
  | installed => simp at ho

theorem AppState.Advance.paired {id : Nat} (h : AppState.Advance C s env id t s' out)
    (ho : .paired j request result ∈ out) :
    j = id ∧ t = .pairSave request result ∧ s'.tasks id = some (.pairCommit request result) ∧
      s'.pairing = s.pairing ∧ s'.identity = AppState.pairedIdentity s.identity result.credential ∧
      s'.stored = s'.identity ∧ out = [.saved s'.identity, .paired id request result] := by
  cases h with
  | statusVerified _ h | versionKnown h | versionSet h => exact absurd ho (h.not_pairing.2 _ _ _)
  | nonceSaved _ _ h => exact absurd (by simpa using ho) (h.not_pairing.2 j request result)
  | pairSaved hu =>
    simp only [List.mem_cons, reduceCtorEq, Output.paired.injEq, List.not_mem_nil, or_false,
      false_or] at ho
    obtain ⟨rfl, rfl, rfl⟩ := ho
    exact ⟨rfl, rfl, by simp [AppState.goto], rfl, hu, rfl, rfl⟩
  | _ => simp at ho

end DeckyMyRig.Host
