import DeckyMyRig.Host.ShutdownReplay

/-!
# Memory and store

Four writers change the identity: they save a changed copy and install it, or
change it and put it back when the save fails. Whenever the identity's lock is
free, memory agrees with the last record that was saved, apart from shutdown
nonces that are past their window.
-/

namespace DeckyMyRig.Host

open Octets Machine

def Output.savedIdentity : Output → Option HostIdentity
  | .saved identity => some identity
  | _ => none

/-- The identity of the last save, or else the one the service started with. -/
def lastSaved (start : AppState) (tr : List Output) : HostIdentity :=
  ((tr.filterMap (·.savedIdentity)).getLast?).getD start.stored

structure Agree (memory saved : HostIdentity) (reading : Nat) : Prop where
  hostId : memory.hostId = saved.hostId
  credential : memory.credential = saved.credential
  pairingCode : memory.pairingCode = saved.pairingCode
  pairingCreatedAt : memory.pairingCreatedAt = saved.pairingCreatedAt
  lastClientVersion : memory.lastClientVersion = saved.lastClientVersion
  nonces : Pruned (fun e => e.timestamp.toNat + clockWindow < reading) saved.acceptedShutdownNonces
    memory.acceptedShutdownNonces

theorem Agree.refl (identity : HostIdentity) (reading : Nat) : Agree identity identity reading :=
  ⟨rfl, rfl, rfl, rfl, rfl, .refl _ _⟩

theorem Agree.later (h : Agree memory saved reading) (hle : reading ≤ reading') :
    Agree memory saved reading' :=
  ⟨h.hostId, h.credential, h.pairingCode, h.pairingCreatedAt, h.lastClientVersion,
    h.nonces.mono fun _ hold => Nat.lt_of_lt_of_le hold hle⟩

-- ---------------------------------------------------------------------------
-- The last save
-- ---------------------------------------------------------------------------

theorem AppState.Continues.savedIdentity {id : Nat} (h : AppState.Continues s id c s' out) :
    out.filterMap (·.savedIdentity) = [] := by
  cases h <;> rfl

theorem AppState.Advance.saves {id : Nat} (h : AppState.Advance C s env id t s' out) :
    out.filterMap (·.savedIdentity) = [] ∧ s'.stored = s.stored ∨
      out.filterMap (·.savedIdentity) = [s'.stored] := by
  cases h with
  | statusVerified _ h | versionKnown h | versionSet h =>
    have hnone := h.savedIdentity
    obtain ⟨tasks, rfl⟩ := h.frame
    exact .inl ⟨hnone, rfl⟩
  | nonceSaved _ _ h =>
    have hnone := h.savedIdentity
    obtain ⟨tasks, rfl⟩ := h.frame
    exact .inr (congrArg (List.cons _) hnone)
  | versionSaved | pairSaved | genSaved => exact .inr rfl
  | _ => exact .inl ⟨rfl, rfl⟩

theorem HostStep.saves (h : HostStep C s i s' out) :
    out.filterMap (·.savedIdentity) = [] ∧ s'.stored = s.stored ∨
      out.filterMap (·.savedIdentity) = [s'.stored] := by
  cases h with
  | answered | spawned | cancelled => exact .inl ⟨rfl, rfl⟩
  | advanced _ _ _ _ ha => exact ha.saves
  | restarted hb =>
    obtain ⟨p, -, rfl⟩ := boot_eq_some hb
    exact .inl ⟨rfl, rfl⟩

theorem HostStep.lastSaved (h : HostStep C s i s' out) (hs : s.stored = lastSaved start tr) :
    s'.stored = Host.lastSaved start (tr ++ out) := by
  unfold Host.lastSaved at hs ⊢
  rcases h.saves with ⟨hnone, heq⟩ | hone
  · simp [hnone, heq, hs]
  · simp [hone]

-- ---------------------------------------------------------------------------
-- Steps
-- ---------------------------------------------------------------------------

def Installing (s : AppState) : Prop :=
  ∃ (id : Nat) (generated : PairingCode) (updated : HostIdentity),
    s.tasks id = some (.genInstall generated updated)

theorem Agree.advance {id : Nat} (h : Agree s.identity s.stored reading) (hg : InstallsStored s)
    (ht : s.tasks id = some t) (hw : env.wall.length = s.wallReadings t)
    (hmono : (reading :: env.wall).Pairwise (· ≤ ·))
    (ha : AppState.Advance C s env id t s' out) :
    Installing s' ∨ Agree s'.identity s'.stored ((env.wall.getLast?).getD reading) := by
  have hlater := h.later (le_getLast hmono List.mem_cons_self)
  cases ha with
  | statusVerified _ h | versionKnown h | versionSet h =>
    obtain ⟨tasks, rfl⟩ := h.frame
    exact .inr hlater
  | nonceRefused =>
    have hpruned := hlater.nonces.trans (retainNonces_pruned hw hmono)
    exact .inr ⟨h.hostId, h.credential, h.pairingCode, h.pairingCreatedAt,
      h.lastClientVersion, hpruned⟩
  | nonceSaved _ _ h =>
    obtain ⟨tasks, rfl⟩ := h.frame
    exact .inr (.refl _ _)
  | versionSaved | pairSaved => exact .inr (.refl _ _)
  | genSaved => exact .inl ⟨id, _, _, if_pos rfl⟩
  | genInstalled =>
    have hstored := (hg ht).stored
    exact .inr (hstored ▸ .refl _ _)
  | _ => exact .inr hlater

def Synced (s : AppState) : Prop := Installing s ∨ Agree s.identity s.stored s.wall

theorem AppState.Advance.installed {id : Nat} (hg : InstallsStored s)
    (ht : s.tasks id = some (.genInstall generated updated))
    (ha : AppState.Advance C s env id (.genInstall generated updated) s' out) :
    s'.identity = s'.stored := by
  cases ha with
  | answered hplain => cases hplain
  | genInstalled => exact (hg ht).stored

theorem Synced.next (hl : Locks s) (hg : InstallsStored s) (hs : Synced s)
    (h : HostStep C s i s' out) (hw : wallMonotone s i = true) : Synced s' := by
  rcases hs with ⟨j, generated, updated, hj⟩ | hagree
  · rcases h.keeps_saved hl hj rfl with hj' | ⟨env, rfl⟩ | ⟨env, rfl⟩
    · exact .inl ⟨j, generated, updated, hj'⟩
    · cases h with
      | advanced ht _ _ _ ha =>
        cases ht.symm.trans hj
        have heq := AppState.Advance.installed (s := s.tick env) (fun h => hg h) hj ha
        exact .inr (heq ▸ .refl _ _)
    · cases h with
      | restarted hb =>
        obtain ⟨p, -, rfl⟩ := boot_eq_some hb
        exact .inr (.refl _ _)
  · cases h with
    | answered | spawned | cancelled => exact .inr hagree
    | @advanced id t env _ _ ht _ hlen _ ha =>
      have hstep := Agree.advance (s := s.tick env) hagree (fun h => hg h) ht hlen
        (of_decide_eq_true hw) ha
      have hwall : s'.wall = (env.wall.getLast?).getD s.wall := ha.clocks.2.1
      unfold Synced
      rw [hwall]
      exact hstep
    | restarted hb =>
      obtain ⟨p, -, rfl⟩ := boot_eq_some hb
      exact .inr (.refl _ _)

theorem synced_run (hboot : AppState.boot hostname stored nextTask wall env = some start)
    (h : Run (hostStep C) (fun s i => wallMonotone s i = true) start tr s) :
    Grounded C stored.hostId hostname s ∧ Synced s ∧ s.stored = lastSaved start tr := by
  refine h.invariant (I := fun tr s => Grounded C stored.hostId hostname s ∧ Synced s ∧
    s.stored = lastSaved start tr) ?_ ?_
  · refine ⟨.boot hboot, ?_⟩
    obtain ⟨p, -, rfl⟩ := boot_eq_some hboot
    exact ⟨.inr (.refl _ _), rfl⟩
  · rintro tr s i s' out ⟨hg, hs, hlast⟩ hw hstep
    have hstep := hostStep_iff_cases hstep
    exact ⟨hg.next hstep, hs.next hg.locks hg.installs hstep hw, hstep.lastSaved hlast⟩

/-- Whenever no handler holds the identity's lock, memory agrees with the last
save. A restart then finds the credential and the code that were in memory, and
every nonce. -/
theorem memory_agrees_with_last_save
    (hboot : AppState.boot hostname stored nextTask wall env = some start)
    (h : Run (hostStep C) (fun s i => wallMonotone s i = true) start tr s)
    (hfree : s.identityLock = none) :
    Agree s.identity (lastSaved start tr) s.wall ∧
      ∀ env s' out, hostStep C s (.restart env) = some (s', out) →
        s'.identity.credential = s.identity.credential ∧
        s'.identity.pairingCode = s.identity.pairingCode ∧
        s.identity.acceptedShutdownNonces ⊆ s'.identity.acceptedShutdownNonces := by
  obtain ⟨hg, hs, hlast⟩ := synced_run hboot h
  have hagree : Agree s.identity s.stored s.wall := by
    refine hs.resolve_left ?_
    rintro ⟨id, generated, updated, ht⟩
    have hheld : s.identityLock = some id := (hg.locks.holder .identity id).mpr ⟨_, ht, rfl⟩
    rw [hfree] at hheld
    cases hheld
  refine ⟨hlast ▸ hagree, fun env s' out hrestart => ?_⟩
  obtain ⟨_, hb, heq⟩ := Option.map_eq_some_iff.mp hrestart
  cases heq
  obtain ⟨p, -, rfl⟩ := boot_eq_some hb
  exact ⟨hagree.credential.symm, hagree.pairingCode.symm, hagree.nonces.subset⟩

def loggedStart : AppState :=
  let identity := { pairedHost with acceptedShutdownNonces := [⟨100, ⟨List.replicate 16 8, rfl⟩⟩] }
  { pairedStart with identity, stored := identity }

/-- The save of a shutdown request fails at 1000, after the old nonce was
dropped from memory. -/
theorem failed_save_drops_old_nonce :
    ∃ tr s, Run (hostStep shutdownCrates) (fun s i => wallMonotone s i = true) loggedStart tr s ∧
      s.identity.acceptedShutdownNonces = [] ∧
      (lastSaved loggedStart tr).acceptedShutdownNonces.length = 1 ∧
      Agree s.identity (lastSaved loggedStart tr) s.wall := by
  obtain ⟨tr, s, hrun, hp⟩ := Run.exists_of_exec (hostStep shutdownCrates)
    (fun s i => wallMonotone s i = true) loggedStart
    ((shutdownAttempt 0 1000 []).take 3 ++ [.advance 0 { Env.sample [1000] with saves := false }])
    (fun s tr => s.identity.acceptedShutdownNonces = [] &&
      (lastSaved loggedStart tr).acceptedShutdownNonces.length = 1 && s.identityLock = none)
    (by decide +kernel)
  simp only [Bool.and_eq_true, decide_eq_true_eq] at hp
  have hboot : AppState.boot [] loggedStart.stored 0 0 (.sample []) = some loggedStart := rfl
  exact ⟨tr, s, hrun, hp.1.1, hp.1.2, (memory_agrees_with_last_save hboot hrun hp.2).1⟩

end DeckyMyRig.Host
