import DeckyMyRig.Host.Agreement
import DeckyMyRig.Host.CredentialStore

/-!
# The host on its files

`hostStep` keeps one record in `stored`, which a save that fails leaves as it
is. Here the host runs on the files of a store: each of its saves is a program
on them that can fail or end the process, and each start loads what they hold.
With a store that keeps its last save, such as the service's own, this is a run
of `hostStep` with the same outputs.
-/

namespace DeckyMyRig.Host

open Octets Machine Faults

/-- The host with its files. A process that is not running leaves the state it
ended with. -/
structure Installed where
  app : AppState
  running : Bool
  files : Files

inductive InstalledInput
  /-- A step of the process, with the fates of the calls of its save. -/
  | host (input : Input) (draw : Bytes) (fates : List Fate)
  /-- The process ends. -/
  | stop
  /-- The service is started. -/
  | start (fresh : HostIdentity) (draw : Bytes) (fates : List Fate) (env : Env)

def Input.withSaves (saves : Bool) : Input → Input
  | .advance id env => .advance id { env with saves }
  | i => i

def Input.restarts : Input → Bool
  | .restart _ => true
  | _ => false

def savingStep (C : Crates) (store : CredentialStore) (m : Installed) (i : Input) (draw : Bytes)
    (fates : List Fate) : Option (Installed × List Output) :=
  match hostStep C m.app (i.withSaves true) with
  | none => none
  | some (app, out) =>
    match out.findSome? (·.savedIdentity) with
    | none => some ({ m with app }, out)
    | some updated =>
      match store.save updated draw m.files fates with
      | (.ok (), files, _) => some ({ m with app, files }, out)
      | (.raised _, files, _) =>
        (hostStep C m.app (i.withSaves false)).map fun r => ({ m with app := r.1, files }, r.2)
      | (.crashed, files, _) => some ({ m with running := false, files }, [])

def installedStep (C : Crates) (store : CredentialStore) (m : Installed) :
    InstalledInput → Option (Installed × List Output)
  | .host i draw fates => if m.running ∧ ¬ i.restarts then savingStep C store m i draw fates
      else none
  | .stop => some ({ m with running := false }, [])
  | .start fresh draw fates env =>
    if m.running then none
    else
      match store.loadOrCreate fresh draw m.files fates with
      | (.ok identity, files, _) =>
        match AppState.boot m.app.hostname identity m.app.nextTask m.app.wall env with
        | some app => some (⟨app, true, files⟩, [.restarted])
        | none => some ({ m with files }, [])
      | (_, files, _) => some ({ m with files }, [])

def Input.Timely : Input → Prop
  | .advance _ env => ∀ w ∈ env.wall, w < 2 ^ 64
  | _ => True

def InstalledInput.Sound : InstalledInput → Prop
  | .host i _ _ => i.Timely
  | .stop => True
  | .start _ _ fates _ => fates.head? ≠ some .raises

instance decidableTimely : (i : Input) → Decidable i.Timely
  | .advance _ env => List.decidableBAll _ env.wall
  | .request _ | .cancel _ | .restart _ => isTrue trivial

instance decidableSound : (i : InstalledInput) → Decidable i.Sound
  | .host i _ _ => decidableTimely i
  | .stop => isTrue trivial
  | .start .. => instDecidableNot

-- ---------------------------------------------------------------------------
-- What the host saves
-- ---------------------------------------------------------------------------

theorem Input.Timely.withSaves {i : Input} (h : i.Timely) (saves : Bool) :
    (i.withSaves saves).Timely := by
  cases i <;> exact h

theorem hostStep_unsaved {i : Input} (h : hostStep C s (i.withSaves false) = some (s', out)) :
    s'.stored = s.stored := by
  have hstep := hostStep_iff_cases h
  rcases hstep.saves with ⟨-, heq⟩ | hone
  · exact heq
  · exfalso
    cases i with
    | request | cancel | restart => cases hstep <;> cases hone
    | advance id env =>
      cases hstep with
      | advanced ht _ _ _ ha =>
        have hrun := hostStep_run h ht
        cases ha with
        | statusVerified _ h | versionKnown h | versionSet h =>
          rw [h.savedIdentity] at hone
          cases hone
        | nonceSaved =>
          simp only [AppState.run, AppState.persistNonce, AppState.answer] at hrun
          split at hrun <;> simp at hrun
        | versionSaved | pairSaved | genSaved =>
          simp [AppState.run, AppState.identityVersion, AppState.pairSave, AppState.genIdentity,
            AppState.answer] at hrun
        | _ => cases hone

structure Dated (s : AppState) : Prop where
  identity : s.identity.pairingCreatedAt < 2 ^ 64
  stored : s.stored.pairingCreatedAt < 2 ^ 64

theorem AppState.Advance.dated {id : Nat} (h : AppState.Advance C s env id t s' out) (hd : Dated s)
    (hinst : ∀ generated updated, t = .genInstall generated updated →
      updated.pairingCreatedAt < 2 ^ 64)
    (hwall : ∀ w ∈ env.wall, w < 2 ^ 64) : Dated s' := by
  cases h with
  | statusVerified _ h | versionKnown h | versionSet h =>
    obtain ⟨tasks, rfl⟩ := h.frame
    exact ⟨hd.identity, hd.stored⟩
  | nonceSaved _ hu h =>
    obtain ⟨tasks, rfl⟩ := h.frame
    subst hu
    exact ⟨hd.identity, hd.identity⟩
  | versionSaved hu =>
    subst hu
    exact ⟨hd.identity, hd.identity⟩
  | pairSaved hu =>
    subst hu
    have hzero : 0 < 2 ^ 64 := by decide
    exact ⟨hzero, hzero⟩
  | genSaved _ hu =>
    subst hu
    refine ⟨hd.identity, ?_⟩
    show env.wall.headD 0 < 2 ^ 64
    cases hw : env.wall with
    | nil => decide
    | cons w rest => exact hwall w (hw ▸ List.mem_cons_self)
  | genInstalled => exact ⟨hinst _ _ rfl, hd.stored⟩
  | _ => exact ⟨hd.identity, hd.stored⟩

theorem Dated.next (hd : Dated s) (hg : InstallsStored s) (h : HostStep C s i s' out)
    (ht : i.Timely) : Dated s' := by
  cases h with
  | answered | spawned | cancelled => exact ⟨hd.identity, hd.stored⟩
  | @advanced id t env _ _ htask _ _ _ ha =>
    refine ha.dated ⟨hd.identity, hd.stored⟩ ?_ ht
    rintro generated updated rfl
    rw [(hg htask).stored]
    exact hd.stored
  | restarted hb =>
    obtain ⟨p, -, rfl⟩ := boot_eq_some hb
    exact ⟨hd.stored, hd.stored⟩

-- ---------------------------------------------------------------------------
-- Steps
-- ---------------------------------------------------------------------------

section
variable {store : CredentialStore} {Holds : Files → HostIdentity → Prop}

theorem savingStep_refines (hk : store.Keeps Holds) (hg : InstallsStored m.app) (hd : Dated m.app)
    (hm : Holds m.files m.app.stored) (hi : i.Timely)
    (h : savingStep C store m i draw fates = some (m', out)) :
    Holds m'.files m'.app.stored ∧
      (m'.app = m.app ∧ out = [] ∨ ∃ j, j.Timely ∧ hostStep C m.app j = some (m'.app, out)) := by
  unfold savingStep at h
  split at h
  · cases h
  rename_i app out' hstep
  have hhost := hostStep_iff_cases hstep
  have hown : ∃ j, j.Timely ∧ hostStep C m.app j = some (app, out') := ⟨_, hi.withSaves true, hstep⟩
  split at h
  · rename_i hnone
    obtain ⟨rfl, rfl⟩ := Prod.mk.inj (Option.some.inj h)
    rcases hhost.saves with ⟨-, heq⟩ | hone
    · exact ⟨heq ▸ hm, .inr hown⟩
    · rw [← List.head?_filterMap, hone] at hnone
      cases hnone
  · rename_i updated hsaved
    obtain rfl : updated = app.stored := by
      rw [← List.head?_filterMap] at hsaved
      rcases hhost.saves with ⟨hnone, -⟩ | hone
      · rw [hnone] at hsaved
        cases hsaved
      · rw [hone] at hsaved
        exact (Option.some.inj hsaved).symm
    have hdated := (hd.next hg hhost (hi.withSaves true)).stored
    split at h
    · rename_i files rest hsave
      obtain ⟨rfl, rfl⟩ := Prod.mk.inj (Option.some.inj h)
      exact ⟨hk.saved hm hdated hsave, .inr hown⟩
    · rename_i e files rest hsave
      obtain ⟨⟨app', out''⟩, hfailed, hr⟩ := Option.map_eq_some_iff.mp h
      obtain ⟨rfl, rfl⟩ := Prod.mk.inj hr
      refine ⟨?_, .inr ⟨_, hi.withSaves false, hfailed⟩⟩
      show Holds files app'.stored
      rw [hostStep_unsaved hfailed]
      exact hk.saved hm hdated hsave
    · rename_i files rest hsave
      obtain ⟨rfl, rfl⟩ := Prod.mk.inj (Option.some.inj h)
      exact ⟨hk.saved hm hdated hsave, .inl ⟨rfl, rfl⟩⟩

theorem installedStep_refines (hk : store.Keeps Holds) (hg : InstallsStored m.app)
    (hd : Dated m.app) (hm : Holds m.files m.app.stored) (hi : i.Sound)
    (h : installedStep C store m i = some (m', out)) :
    Holds m'.files m'.app.stored ∧
      (m'.app = m.app ∧ out = [] ∨ ∃ j, j.Timely ∧ hostStep C m.app j = some (m'.app, out)) := by
  cases i with
  | stop =>
    obtain ⟨rfl, rfl⟩ := Prod.mk.inj (Option.some.inj h)
    exact ⟨hm, .inl ⟨rfl, rfl⟩⟩
  | start fresh draw fates env =>
    simp only [installedStep] at h
    split at h
    · cases h
    split at h
    · rename_i identity files rest hload
      obtain ⟨rfl, hidentity⟩ := hk.reopened hm hi hload
      obtain rfl := hidentity identity rfl
      split at h
      · rename_i app hboot
        obtain ⟨rfl, rfl⟩ := Prod.mk.inj (Option.some.inj h)
        obtain ⟨p, -, rfl⟩ := boot_eq_some hboot
        exact ⟨hm, .inr ⟨.restart env, trivial, by rw [hostStep, hboot]; rfl⟩⟩
      · obtain ⟨rfl, rfl⟩ := Prod.mk.inj (Option.some.inj h)
        exact ⟨hm, .inl ⟨rfl, rfl⟩⟩
    · rename_i files rest hload
      obtain ⟨rfl, -⟩ := hk.reopened hm hi hload
      obtain ⟨rfl, rfl⟩ := Prod.mk.inj (Option.some.inj h)
      exact ⟨hm, .inl ⟨rfl, rfl⟩⟩
  | host i draw fates =>
    simp only [installedStep] at h
    split at h
    · exact savingStep_refines hk hg hd hm hi h
    · cases h

structure Carried (C : Crates) (Holds : Files → HostIdentity → Prop) (host : Uuid) (name : Text)
    (s₀ : AppState) (tr : List Output) (m : Installed) : Prop where
  run : Run (hostStep C) (fun _ _ => True) s₀ tr m.app
  grounded : Grounded C host name m.app
  dated : Dated m.app
  holds : Holds m.files m.app.stored

theorem Carried.next (hk : store.Keeps Holds) (hc : Carried C Holds host name s₀ tr m)
    (hi : i.Sound) (h : installedStep C store m i = some (m', out)) :
      Carried C Holds host name s₀ (tr ++ out) m' := by
  obtain ⟨hholds, ⟨happ, rfl⟩ | ⟨j, hj, hstep⟩⟩ :=
    installedStep_refines hk hc.grounded.installs hc.dated hc.holds hi h
  · rw [List.append_nil]
    exact ⟨happ ▸ hc.run, happ ▸ hc.grounded, happ ▸ hc.dated, hholds⟩
  · have hhost := hostStep_iff_cases hstep
    exact ⟨hc.run.next trivial hstep, hc.grounded.next hhost,
      hc.dated.next hc.grounded.installs hhost hj, hholds⟩

theorem carried_run (hk : store.Keeps Holds)
    (hboot : AppState.boot hostname identity nextTask wall env = some s₀)
    (hfiles : Holds files identity) (h : Run (installedStep C store) (fun _ i => i.Sound)
      ⟨s₀, true, files⟩ tr m) :
    Carried C Holds identity.hostId hostname s₀ tr m := by
  have hcreated := hk.created hfiles
  have hdated : Dated s₀ ∧ Holds files s₀.stored := by
    obtain ⟨p, -, rfl⟩ := boot_eq_some hboot
    exact ⟨⟨hcreated, hcreated⟩, hfiles⟩
  exact h.invariant ⟨.refl, .boot hboot, hdated.1, hdated.2⟩ fun hc hi hstep => hc.next hk hi hstep

end

/-- The service on its files, whose saves can fail or be cut short at any call,
is the host as `hostStep` has it, and its record can always be loaded. -/
theorem installed_service_refines {S : SerdeJson} {D : Dpapi}
    (hfresh : fresh.pairingCreatedAt < 2 ^ 64)
    (hload : (WindowsCredentialStore.store S D).loadOrCreate fresh draw files₀ fates =
      (.ok identity, files, rest))
    (hboot : AppState.boot hostname identity 0 wall env = some s₀)
    (h : Run (installedStep C (WindowsCredentialStore.store S D)) (fun _ i => i.Sound)
      ⟨s₀, true, files⟩ tr m) :
    Run (hostStep C) (fun _ _ => True) s₀ tr m.app ∧
      ∀ fresh draw, (WindowsCredentialStore.store S D).loadOrCreate fresh draw m.files [] =
        (.ok m.app.stored, m.files, []) := by
  have hk := WindowsCredentialStore.store_keeps S D
  have hcarried := carried_run hk hboot (hk.opened hfresh hload) h
  exact ⟨hcarried.run, fun _ _ => hk.readable hcarried.holds⟩

def crashedSave : List InstalledInput :=
  [.host (.request .generate) [] [], .host (.advance 0 (.sample [])) [] [],
    .host (.advance 0 { Env.sample [1000] with value := 7 }) [] (plan 9 .crashes),
    .start (.new (repeated 16 2) 1 1) [] [] (.sample [1000])]

def firstFiles : Files :=
  ⟨true, some (SerdeJson.packed.toVec (.new (repeated 16 1) 123456 1000)), none⟩

def Installed.runsAsBefore (m : Installed) : Bool :=
  m.running && m.files.temporary.isSome && m.app.stored = .new (repeated 16 1) 123456 1000

theorem crashed_save_restarts :
    ∃ (s₀ : AppState) (tr : List Output) (m : Installed), m.runsAsBefore = true ∧
      Run (hostStep .sample) (fun _ _ => True) s₀ tr m.app ∧
      ∀ fresh draw, (WindowsCredentialStore.store .packed .plain).loadOrCreate fresh draw m.files
        [] = (.ok m.app.stored, m.files, []) := by
  have hload : (WindowsCredentialStore.store .packed .plain).loadOrCreate
      (.new (repeated 16 1) 123456 1000) []
        ⟨false, none, none⟩ [] = (.ok (.new (repeated 16 1) 123456 1000), firstFiles, []) := by
    decide +kernel
  have hruns : (AppState.boot [] (.new (repeated 16 1) 123456 1000) 0 0 (.sample [1000])).any
      (fun s₀ =>
        (exec (installedStep .sample (WindowsCredentialStore.store .packed .plain))
          (fun _ i => i.Sound)
          ⟨s₀, true, firstFiles⟩ crashedSave).any fun r => r.1.runsAsBefore) = true := by
    decide +kernel
  obtain ⟨s₀, hboot, hexec⟩ := Option.any_eq_true _ _ |>.mp hruns
  obtain ⟨tr, m, hrun, hp⟩ :=
    Run.exists_of_exec _ _ _ _ (fun (m : Installed) _ => m.runsAsBefore) hexec
  exact ⟨s₀, tr, m, hp, installed_service_refines (show 1000 < 2 ^ 64 by decide) hload hboot hrun⟩

end DeckyMyRig.Host
