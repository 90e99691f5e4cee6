import DeckyMyRig.Host.Agreement

/-!
# The last plugin version

`record_client_version` leaves early when the version is the cached one. The
cache is also set when the save fails, and set after the save when it succeeds,
so a version can be cached and not stored. A request that finds it so passes
without storing it.
-/

namespace DeckyMyRig.Host

open Octets Machine

def Task.recordedVersion : Task → Option Text
  | .latestVersion _ version | .identityVersion _ version | .setLatest _ version => some version
  | _ => none

def Recording (s : AppState) (id : Nat) (version : Text) : Prop :=
  (s.tasks id).bind (·.recordedVersion) = some version

instance {id : Nat} : Decidable (Recording s id version) := inferInstanceAs (Decidable (_ = _))

/-- The store accepts saves, and neither the handler nor the process ends. -/
def Input.steady (id : Nat) : Input → Bool
  | .request _ => true
  | .advance _ env => env.saves
  | .cancel id' => id' ≠ id
  | .restart _ => false

/-- From the check of the cache on, the handler passes `record_client_version`
while the store accepts saves. Other handlers go on in between. -/
structure Passes (C : Crates) (id : Nat) (version : Text) (s s' : AppState) : Prop where
  waiting : ∃ caller, s.tasks id = some (.latestVersion caller version)
  runs : ∃ env s1 out tr, env.saves = true ∧ hostStep C s (.advance id env) = some (s1, out) ∧
    Run (hostStep C) (fun s i => Recording s id version ∧ i.steady id = true) s1 tr s'
  passed : ¬ Recording s' id version

structure Survives (C : Crates) (s : AppState) (version : Text) : Prop where
  stored : s.stored.lastClientVersion = some version
  restored : ∀ env s' out, hostStep C s (.restart env) = some (s', out) →
    s'.latestClientVersion = some version

-- ---------------------------------------------------------------------------
-- Memory and store
-- ---------------------------------------------------------------------------

theorem restart_latest (h : hostStep C s (.restart env) = some (s', out)) :
    s'.latestClientVersion = s.stored.lastClientVersion := by
  obtain ⟨_, hb, heq⟩ := Option.map_eq_some_iff.mp h
  cases heq
  obtain ⟨p, -, rfl⟩ := boot_eq_some hb
  rfl

theorem survives_iff : Survives C s version ↔ s.stored.lastClientVersion = some version :=
  ⟨fun h => h.stored, fun h => ⟨h, fun _ _ _ hrestart => (restart_latest hrestart).trans h⟩⟩

/-- Every writer takes the version over, so memory and store have the same. -/
def SameVersion (s : AppState) : Prop := s.identity.lastClientVersion = s.stored.lastClientVersion

theorem SameVersion.advance {id : Nat} (h : SameVersion s) (hg : InstallsStored s)
    (ht : s.tasks id = some t) (ha : AppState.Advance C s env id t s' out) : SameVersion s' := by
  cases ha with
  | statusVerified _ hc | versionKnown hc | versionSet hc =>
    obtain ⟨tasks, rfl⟩ := hc.frame
    exact h
  | nonceSaved _ _ hc =>
    obtain ⟨tasks, rfl⟩ := hc.frame
    rfl
  | versionSaved | pairSaved => rfl
  | genSaved _ hupdated =>
    subst hupdated
    rfl
  | genInstalled =>
    have hstored := (hg ht).stored
    simp [SameVersion, AppState.finish, hstored]
  | _ => exact h

theorem SameVersion.next (h : SameVersion s) (hg : InstallsStored s) (hs : HostStep C s i s' out) :
    SameVersion s' := by
  cases hs with
  | answered | spawned | cancelled => exact h
  | @advanced id t env _ _ ht _ _ _ ha =>
    exact SameVersion.advance (s := s.tick env) h (fun h => hg h) ht ha
  | restarted hb =>
    obtain ⟨p, -, rfl⟩ := boot_eq_some hb
    rfl

structure Consistent (s : AppState) : Prop where
  locks : Locks s
  installs : InstallsStored s
  same : SameVersion s

theorem Consistent.next (h : Consistent s) (hs : HostStep C s i s' out) : Consistent s' :=
  ⟨h.locks.next hs, InstallsStored.next h.locks h.installs hs, h.same.next h.installs hs⟩

theorem consistent_run {P : AppState → Input → Prop}
    (hboot : AppState.boot hostname stored nextTask wall env = some start)
    (h : Run (hostStep C) P start tr s) : Consistent s := by
  refine h.invariant (I := fun _ s => Consistent s) ?_ fun hi _ hs =>
    hi.next (hostStep_iff_cases hs)
  have hg : Grounded C stored.hostId hostname start := .boot hboot
  obtain ⟨p, -, rfl⟩ := boot_eq_some hboot
  exact ⟨hg.locks, hg.installs, rfl⟩

-- ---------------------------------------------------------------------------
-- Passing
-- ---------------------------------------------------------------------------

section
variable {s s' : AppState} {id : Nat}

theorem served_not_recording (C : Crates) (s : AppState) (env : Env) (id : Nat)
    (caller : Caller) (version : Text) :
    ¬ Recording (s.served C env id caller).1 id version := by
  unfold AppState.served
  split <;> simp [Recording, AppState.goto, AppState.finish, Task.recordedVersion]

theorem served_stored (C : Crates) (s : AppState) (env : Env) (id : Nat) (caller : Caller) :
    (s.served C env id caller).1.stored = s.stored := by
  obtain ⟨tasks, heq⟩ := (AppState.served_continues C s env id caller).frame
  rw [heq]

theorem latestVersion_step (ht : s.tasks id = some (.latestVersion caller version))
    (h : hostStep C s (.advance id env) = some (s', out)) :
    s.latestClientVersion = some version ∧ s'.stored = s.stored ∧ ¬ Recording s' id version ∨
      s.latestClientVersion ≠ some version ∧
      s'.tasks id = some (.identityVersion caller version) := by
  have hrun := hostStep_run h ht
  simp only [AppState.run] at hrun
  split at hrun
  · rename_i hlatest
    have hserved := congrArg Prod.fst hrun
    subst hserved
    exact .inl ⟨hlatest, served_stored .., served_not_recording C
      (s.tick env) env id caller version⟩
  · rename_i hlatest
    cases hrun
    exact .inr ⟨hlatest, if_pos rfl⟩

theorem identityVersion_step (hsame : SameVersion s)
    (ht : s.tasks id = some (.identityVersion caller version))
    (hsaves : env.saves = true) (h : hostStep C s (.advance id env) = some (s', out)) :
    s'.tasks id = some (.setLatest caller version) ∧
      s'.stored.lastClientVersion = some version := by
  have hrun := hostStep_run h ht
  simp only [AppState.run, AppState.identityVersion, hsaves, and_true] at hrun
  split at hrun
  · cases hrun
    exact ⟨if_pos rfl, rfl⟩
  · rename_i hkept
    cases hrun
    exact ⟨if_pos rfl, hsame.symm.trans (not_not.mp hkept)⟩

theorem setLatest_step (ht : s.tasks id = some (.setLatest caller version))
    (h : hostStep C s (.advance id env) = some (s', out)) :
    s'.stored = s.stored ∧ ¬ Recording s' id version := by
  have hserved := congrArg Prod.fst (hostStep_run h ht)
  subst hserved
  exact ⟨served_stored .., served_not_recording C _ env id caller version⟩

def Underway (id : Nat) (caller : Caller) (version : Text) (s : AppState) : Prop :=
  s.tasks id = some (.identityVersion caller version) ∨
    s.tasks id = some (.setLatest caller version) ∧ s.stored.lastClientVersion = some version ∨
      ¬ Recording s id version ∧ s.stored.lastClientVersion = some version

theorem Underway.next (hu : Underway id caller version s) (hc : Consistent s)
    (hrecording : Recording s id version)
    (hsteady : i.steady id = true) (h : hostStep C s i = some (s', out)) : Underway id caller
      version s' := by
  have hstep := hostStep_iff_cases h
  rcases hu with ht | ⟨ht, hstored⟩ | ⟨hnot, -⟩
  · rcases hstep.keeps_task hc.locks ht with ⟨ht', -⟩ | ⟨env, rfl⟩ | rfl | ⟨env, rfl⟩
    · exact .inl ht'
    · exact .inr (.inl (identityVersion_step hc.same ht hsteady h))
    · simp [Input.steady] at hsteady
    · cases hsteady
  · -- the lock on the identity is held, so nothing else is stored
    rcases hstep.keeps_task hc.locks ht with ⟨ht', hundisturbed⟩ | ⟨env, rfl⟩ | rfl | ⟨env, rfl⟩
    · obtain ⟨-, heq⟩ := hundisturbed.identity rfl
      exact .inr (.inl ⟨ht', heq ▸ hstored⟩)
    · obtain ⟨heq, hnot⟩ := setLatest_step ht h
      exact .inr (.inr ⟨hnot, heq ▸ hstored⟩)
    · simp [Input.steady] at hsteady
    · cases hsteady
  · exact absurd hrecording hnot

end

theorem passes_cached {id : Nat} (ht : s.tasks id = some (.latestVersion caller version))
    (hcached : s.latestClientVersion = some version) (hsaves : env.saves = true)
    (h : hostStep C s (.advance id env) = some (s', out)) : Passes C id version s s' := by
  refine ⟨⟨caller, ht⟩, ⟨env, s', out, [], hsaves, h, .refl⟩, ?_⟩
  rcases latestVersion_step ht h with ⟨-, -, hnot⟩ | ⟨hnew, -⟩
  · exact hnot
  · exact absurd hcached hnew

def unseenHost : HostIdentity := { pairedHost with lastClientVersion := none }

def unseenStart : AppState :=
  { pairedStart with identity := unseenHost, stored := unseenHost, latestClientVersion := none }

def secondHttp : HttpRequest :=
  { shutdownHttp with
    headers := shutdownHttp.headers.set 2
      ("x-decky-nonce".toList, utf8 "0a0a0a0a0a0a0a0a0a0a0a0a0a0a0a0a".toList) }

def statusAttempt (id : Nat) (http : HttpRequest) : List Input :=
  [.request (.authenticated .status http), .advance id (.sample [1000]), .advance id (.sample [])]

def waitsFor (id : Nat) (version : Text) (s : AppState) : Bool :=
  match s.tasks id with
  | some (.latestVersion _ v) => v = version
  | _ => false

theorem waitsFor_eq_true {id : Nat} (h : waitsFor id version s = true) :
    ∃ caller, s.tasks id = some (.latestVersion caller version) := by
  unfold waitsFor at h
  split at h
  · rename_i caller v ht
    obtain rfl := of_decide_eq_true h
    exact ⟨caller, ht⟩
  · cases h

/-- In every run, a version survives a request that passes
`record_client_version` with it while the store accepts saves, unless the
request found the version in the cache and not in the store. -/
theorem version_survives_iff {id : Nat}
    (hboot : AppState.boot hostname stored nextTask wall env = some start)
    (h : Run (hostStep C) (fun _ _ => True) start tr s) (hpass : Passes C id version s s') :
    Survives C s' version ↔
      (s.latestClientVersion = some version → s.stored.lastClientVersion = some version) := by
  obtain ⟨⟨caller, ht⟩, ⟨env, s1, out, tr', hsaves, hcheck, hrun⟩, hpassed⟩ := hpass
  have hc := (consistent_run hboot h).next (hostStep_iff_cases hcheck)
  rw [survives_iff]
  rcases latestVersion_step ht hcheck with ⟨hcached, hstored, hnot⟩ | ⟨hnew, ht1⟩
  · obtain rfl := hrun.eq_of_blocked fun i hp => hnot hp.1
    rw [hstored]
    simp [hcached]
  · refine iff_of_true ?_ fun hcached => absurd hcached hnew
    have hinv : Consistent s' ∧ Underway id caller version s' := by
      refine hrun.invariant (I := fun _ s => Consistent s ∧ Underway id caller version s)
        ⟨hc, .inl ht1⟩ ?_
      rintro _ _ _ _ _ ⟨hc, hu⟩ ⟨hrecording, hsteady⟩ hs
      exact ⟨hc.next (hostStep_iff_cases hs), hu.next hc hrecording hsteady hs⟩
    rcases hinv.2 with ht' | ⟨ht', -⟩ | ⟨-, hlast⟩
    · exact absurd (by simp [Recording, ht', Task.recordedVersion]) hpassed
    · exact absurd (by simp [Recording, ht', Task.recordedVersion]) hpassed
    · exact hlast

/-- The first status request finds no version and a store that accepts saves. -/
theorem first_version_survives :
    ∃ tr s s', Run (hostStep shutdownCrates) (fun _ _ => True) unseenStart tr s ∧
    Passes shutdownCrates 0 hostVersion s s' ∧ Survives shutdownCrates s' hostVersion := by
  obtain ⟨tr, s, hrun, hp⟩ :=
    Run.exists_of_exec (hostStep shutdownCrates) (fun _ _ => True) unseenStart
    (statusAttempt 0 shutdownHttp)
    (fun s _ => waitsFor 0 hostVersion s && s.latestClientVersion.isNone &&
      (hostStep shutdownCrates s (.advance 0 (.sample []))).any fun r =>
        (exec (hostStep shutdownCrates) (fun s i => Recording s 0 hostVersion ∧ i.steady 0 = true)
          r.1 [.advance 0 (.sample []), .advance 0 (.sample [])]).any fun r' =>
            !decide (Recording r'.1 0 hostVersion))
    (by decide +kernel)
  simp only [Bool.and_eq_true, Option.any_eq_true, Option.isNone_iff_eq_none, Bool.not_eq_true',
    decide_eq_false_iff_not] at hp
  obtain ⟨⟨hwaits, hnone⟩, ⟨s1, out⟩, hcheck, ⟨s', tr'⟩, hexec, hpassed⟩ := hp
  have hpass : Passes shutdownCrates 0 hostVersion s s' :=
    ⟨waitsFor_eq_true hwaits, ⟨_, s1, out, tr', rfl, hcheck, Run.of_exec hexec⟩, hpassed⟩
  have hboot : AppState.boot [] unseenHost 0 0 (.sample []) = some unseenStart := rfl
  refine ⟨tr, s, s', hrun, hpass, (version_survives_iff hboot hrun hpass).mpr ?_⟩
  simp [hnone]

/-- The save of the first status request fails, and the second finds the
version in the cache. -/
theorem cached_version_lost : AppState.boot [] unseenHost 0 0 (.sample []) = some unseenStart ∧
    ∃ tr s s', Run (hostStep shutdownCrates) (fun _ _ => True) unseenStart tr s ∧
      Passes shutdownCrates 1 hostVersion s s' ∧ ¬ Survives shutdownCrates s' hostVersion := by
  obtain ⟨tr, s, hrun, hp⟩ :=
    Run.exists_of_exec (hostStep shutdownCrates) (fun _ _ => True) unseenStart
    (statusAttempt 0 shutdownHttp ++ [.advance 0 (.sample []),
      .advance 0 { Env.sample [] with saves := false }, .advance 0 (.sample [])] ++
        statusAttempt 1 secondHttp)
    (fun s _ => waitsFor 1 hostVersion s && s.latestClientVersion = some hostVersion &&
      (hostStep shutdownCrates s (.advance 1 (.sample []))).any fun r =>
        r.1.stored.lastClientVersion.isNone)
    (by decide +kernel)
  simp only [Bool.and_eq_true, Option.any_eq_true, Option.isNone_iff_eq_none,
    decide_eq_true_eq] at hp
  obtain ⟨⟨hwaits, hcached⟩, ⟨s', out⟩, hcheck, hlost⟩ := hp
  obtain ⟨caller, ht⟩ := waitsFor_eq_true hwaits
  refine ⟨rfl, tr, s, s', hrun, passes_cached ht hcached rfl hcheck, fun hsurvives => ?_⟩
  rw [survives_iff, hlost] at hsurvives
  cases hsurvives

end DeckyMyRig.Host
