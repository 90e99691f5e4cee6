import DeckyMyRig.Host.SingleUse

/-!
# Replaced codes

`generate_pairing_code` draws a code without looking at the one it replaces. If
it draws another one, then from its return on neither a session that was open
nor a client with the old code makes the host save a credential. If it draws the
same one, nothing was replaced.
-/

namespace DeckyMyRig.Host

open Octets Machine

def AppState.displayed (s : AppState) : Option Text :=
  s.identity.pairingCode.map fun _ => s.pairing.code.val

def drawsOther (c : Text) (s : AppState) : Input → Bool
  | .advance id env =>
    match s.tasks id with
    | some .genIdentity => formatCode env.value ≠ c
    | _ => true
  | .restart env => s.stored.pairingCode.isSome || formatCode env.value ≠ c
  | _ => true

/-- A client's confirmation is that of an open session only if the client used
the session's code. `confirms code tag`: a client that runs an exchange with
the code sends the tag. -/
def Matching (C : Crates) (confirms : Text → Bytes → Prop) (s : AppState) : Prop :=
  ∀ k e, s.pairing.pending.lookup k = some e →
    ∀ code, confirms code (confirmationTag C e) → code = s.pairing.code.val

def PairedSince (past : List Output) : Output → Prop
  | .paired _ request _ =>
    ∃ id start, .started id start ∈ past ∧ request.sessionId = start.sessionId.val
  | _ => True

-- ---------------------------------------------------------------------------
-- From the draw to the return
-- ---------------------------------------------------------------------------

def Drawn (id : Nat) (code : Text) (s : AppState) : Prop :=
  (∃ generated updated, s.tasks id = some (.genInstall generated updated) ∧
    generated.code.val = code) ∨ s.tasks id = none ∧ id < s.nextTask

theorem Locks.born {id : Nat} (hl : Locks s) (ht : s.tasks id = some t) : id < s.nextTask :=
  Nat.lt_of_not_le fun hle => by
    rw [hl.unborn id hle] at ht
    cases ht

theorem Drawn.next {id : Nat} (hl : Locks s) (hd : Drawn id code s) (h : HostStep C s i s' out) :
    Drawn id code s' := by
  rcases hd with ⟨generated, updated, ht, hcode⟩ | ⟨hnone, hborn⟩
  · rcases h.keeps_saved hl ht rfl with ht' | ⟨env, rfl⟩ | ⟨env, rfl⟩
    · exact .inl ⟨generated, updated, ht', hcode⟩
    · cases h with
      | advanced ht' _ _ _ ha =>
        cases ht'.symm.trans ht
        cases ha with
        | answered hplain => cases hplain
        | genInstalled => exact .inr ⟨if_pos rfl, hl.born ht⟩
    · cases h with
      | restarted hb =>
        have hborn := hl.born ht
        obtain ⟨p, -, rfl⟩ := boot_eq_some hb
        exact .inr ⟨rfl, hborn⟩
  · refine .inr ?_
    cases h with
    | answered => exact ⟨hnone, Nat.lt_succ_of_lt hborn⟩
    | spawned =>
      refine ⟨?_, Nat.lt_succ_of_lt hborn⟩
      simpa [AppState.goto, Nat.ne_of_lt hborn] using hnone
    | @advanced j t env _ _ ht _ _ _ ha =>
      have hne : id ≠ j := by
        rintro rfl
        rw [hnone] at ht
        cases ht
      obtain ⟨t', hm⟩ := ha.moves
      rw [hm.tasks, hm.nextTask]
      exact ⟨by simpa [hne, AppState.tick] using hnone, hborn⟩
    | cancelled =>
      refine ⟨?_, hborn⟩
      simp [AppState.dropped, AppState.finish, hnone]
    | restarted hb =>
      obtain ⟨p, -, rfl⟩ := boot_eq_some hb
      exact ⟨rfl, hborn⟩

-- ---------------------------------------------------------------------------
-- After the return
-- ---------------------------------------------------------------------------

structure Replaced (c : Text) (s : AppState) : Prop where
  memory : s.pairing.code.val ≠ c
  identity : s.identity.pairingCode ≠ some c
  stored : s.stored.pairingCode ≠ some c
  installing : ∀ {id generated updated}, s.tasks id = some (.genInstall generated updated) →
    generated.code.val ≠ c

def Since (tr : List Output) (s : AppState) : Prop :=
  ∀ {k e}, s.pairing.pending.lookup k = some e → ∃ id start,
    .started id start ∈ tr ∧ start.sessionId = k

theorem AppState.Advance.codes {P : Option Text → Prop} {id : Nat}
    (h : AppState.Advance C s env id t s' out) (hnone : P none) (hid : P s.identity.pairingCode)
    (hst : P s.stored.pairingCode) (hdraw : t = .genIdentity → P (some (formatCode env.value)))
    (hinst : ∀ generated updated, t = .genInstall generated updated → updated = s.stored) :
    P s'.identity.pairingCode ∧ P s'.stored.pairingCode := by
  cases h with
  | statusVerified _ h | versionKnown h | versionSet h =>
    obtain ⟨tasks, rfl⟩ := h.frame
    exact ⟨hid, hst⟩
  | nonceSaved _ hu h =>
    obtain ⟨tasks, rfl⟩ := h.frame
    subst hu
    exact ⟨hid, hid⟩
  | versionSaved hu =>
    subst hu
    exact ⟨hid, hid⟩
  | pairSaved hu =>
    subst hu
    exact ⟨hnone, hnone⟩
  | genSaved hg hu =>
    subst hg hu
    exact ⟨hid, hdraw rfl⟩
  | genInstalled =>
    obtain rfl := hinst _ _ rfl
    exact ⟨hst, hst⟩
  | _ => exact ⟨hid, hst⟩

theorem startPairing_code {identity : HostIdentity}
    (h : identity.startPairing now m value = .ok p) :
    identity.pairingCode = some p.code.val ∨
      identity.pairingCode = none ∧ p.code.val = formatCode value := by
  unfold HostIdentity.startPairing at h
  split at h
  · rename_i code hcode
    unfold PairingCode.fromCodeWithAge at h
    split at h
    · split at h
      · cases h
        exact .inl hcode
      · cases h
    · cases h
  · rename_i hcode
    cases h
    exact .inr ⟨hcode, rfl⟩

section
variable {C : Crates} {host : Uuid} {name c code : Text} {s s' : AppState} {tr out : List Output}

theorem AppState.Advance.code_cases {id : Nat} (h : AppState.Advance C s env id t s' out) :
    s'.pairing.code = s.pairing.code ∨
      ∃ generated updated, t = .genInstall generated updated ∧ s'.pairing = generated := by
  generalize hp : s'.pairing = p
  cases hp ▸ h.pairingMoves with
  | within hw => exact .inl hw.code
  | started hok =>
    obtain ⟨shared, -, rfl, -⟩ := PairingCode.startForSource_ok hok
    exact .inl rfl
  | committed hcom =>
    rcases PairingCode.commit_cases hcom with ⟨rfl, -⟩ | ⟨_, _, -, -, hcode, -⟩
    · exact .inl rfl
    · exact .inl hcode
  | installed => exact .inr ⟨_, _, rfl, rfl⟩

theorem Replaced.next (hg : Grounded C host name s) (hi : Replaced c s) (h : HostStep C s i s' out)
    (hdraw : drawsOther c s i = true) : Replaced c s' := by
  have hinstalling : ∀ {j generated updated}, s'.tasks j = some (.genInstall generated updated) →
      generated.code.val ≠ c := by
    intro j generated updated hj
    rcases h.task_cases hg.locks hj with ⟨hj, -⟩ | hinit | ⟨env, u, rfl, hu, -, -, -, ha⟩
    · exact hi.installing hj
    · cases hinit
    · cases ha.enters hj with
      | serving h => cases h
      | genInstall hgen =>
        have hother : formatCode env.value ≠ c := by simpa [drawsOther, hu] using hdraw
        rw [hgen]
        exact hother
  cases h with
  | answered | spawned | cancelled => exact ⟨hi.memory, hi.identity, hi.stored, hinstalling⟩
  | @advanced id t env _ _ ht _ _ _ ha =>
    obtain ⟨hidentity, hstored⟩ := ha.codes (P := (· ≠ some c)) (by simp) hi.identity hi.stored
      (by rintro rfl; simpa [drawsOther, ht] using hdraw)
      (by rintro generated updated rfl; exact (hg.installs ht).stored)
    refine ⟨?_, hidentity, hstored, hinstalling⟩
    rcases ha.code_cases with hcode | ⟨generated, updated, rfl, hnew⟩
    · rw [hcode]
      exact hi.memory
    · rw [hnew]
      exact hi.installing ht
  | @restarted env _ hb =>
    obtain ⟨p, hp, rfl⟩ := boot_eq_some hb
    refine ⟨fun hc => ?_, hi.stored, hi.stored, hinstalling⟩
    rcases startPairing_code hp with hcode | ⟨hnone, hcode⟩
    · exact hi.stored (hcode.trans (congrArg some hc))
    · simp [drawsOther, hnone, ← hc, ← hcode] at hdraw

theorem Since.next (hg : Grounded C host name s) (hi : Since tr s) (h : HostStep C s i s' out) :
    Since (tr ++ out) s' := by
  have hkept {k e} (hk : s.pairing.pending.lookup k = some e) :
      ∃ j start, .started j start ∈ tr ++ out ∧ start.sessionId = k := by
    obtain ⟨j, start, hs, rfl⟩ := hi hk
    exact ⟨j, start, List.mem_append_left _ hs, rfl⟩
  intro k e hk
  cases h with
  | answered | spawned | cancelled => exact hkept hk
  | @advanced id t env _ _ ht _ _ _ ha =>
    generalize hp : s'.pairing = p at hk
    cases hp ▸ ha.pairingMoves with
    | within hw => exact hkept (hw.pending hk)
    | started hok =>
      obtain ⟨shared, -, rfl, rfl, -⟩ := PairingCode.startForSource_ok hok
      rw [AList.lookup_insert'] at hk
      split at hk
      · rename_i heq
        exact ⟨id, _, List.mem_append_right _ (List.mem_singleton.mpr rfl), heq.symm⟩
      · exact hkept (PairingCode.pending_pruneSessions.mp hk).1
    | committed hcom =>
      rcases PairingCode.commit_cases hcom with ⟨rfl, -⟩ | ⟨_, _, -, -, -, hempty, -⟩
      · exact hkept hk
      · rw [hempty] at hk
        cases hk
    | installed =>
      obtain ⟨created, heq⟩ := (hg.installs ht).fresh
      rw [heq] at hk
      cases hk
  | restarted hb =>
    obtain ⟨p, hp, rfl⟩ := boot_eq_some hb
    obtain ⟨created, hfresh⟩ := startPairing_fresh hp
    rw [show p = _ from hfresh] at hk
    cases hk

theorem HostStep.paired_cases {j : Nat} (hg : Grounded C host name s) (h : HostStep C s i s' out)
    (hp : .paired j request result ∈ out) :
    out = [.saved s'.identity, .paired j request result] ∧
      Confirmed C ⟨name, hostVersion, protocolVersion, host.toText⟩ s.pairing request result := by
  cases h with
  | @advanced id t env _ _ ht _ _ _ ha =>
    obtain ⟨rfl, rfl, -, -, -, -, hout⟩ := ha.paired hp
    exact ⟨hout, hg.tasks ht rfl⟩
  | _ => simp at hp

theorem Since.paired (hg : Grounded C host name s) (hi : Since tr s) (h : HostStep C s i s' out) :
    Justified PairedSince tr out := by
  by_cases hp : ∃ j request result, .paired j request result ∈ out
  · obtain ⟨j, request, result, hp⟩ := hp
    obtain ⟨rfl, k, e, hk, he, -⟩ := h.paired_cases hg hp
    obtain ⟨j', start, hs, rfl⟩ := hi he
    exact ⟨trivial, ⟨j', start, List.mem_append_left _ hs, hk⟩, trivial⟩
  · refine justified_of_forall (fun o ho past => ?_) tr
    cases o with
    | paired j request result => exact absurd ⟨j, request, result, ho⟩ hp
    | _ => trivial

theorem Replaced.paired {j : Nat} (hg : Grounded C host name s) (hi : Replaced c s)
    (hm : Matching C confirms s) (h : HostStep C s i s' out) (hp : .paired j request result ∈ out) :
    ¬ confirms c request.clientConfirmation := by
  obtain ⟨-, k, e, -, he, htag, -⟩ := h.paired_cases hg hp
  intro hc
  rw [htag] at hc
  exact hi.memory (hm k e he c hc).symm

theorem Replaced.installed {id : Nat} (hg : Grounded C host name s) (hd : Drawn id code s)
    (hne : code ≠ c) (h : HostStep C s (.advance id env) s' out) : Replaced c s' ∧ Since [] s' := by
  have hl' := hg.locks.next h
  rcases hd with ⟨generated, updated, ht, rfl⟩ | ⟨hnone, -⟩
  · cases h with
    | advanced ht' _ _ _ ha =>
      cases ht'.symm.trans ht
      cases ha with
      | answered hplain => cases hplain
      | genInstalled =>
        obtain ⟨hstored, hcode, created, hfresh⟩ := hg.installs ht
        have hold : updated.pairingCode ≠ some c := by
          rw [hcode]
          exact fun heq => hne (Option.some.inj heq)
        refine ⟨⟨hne, hold, hstored ▸ hold, fun {j _ _} hj => ?_⟩, fun {k e} hk => ?_⟩
        · have hlock := (hl'.holder .identity j).mpr ⟨_, hj, rfl⟩
          cases hlock
        · rw [show generated = _ from hfresh] at hk
          cases hk
  · cases h with
    | advanced ht =>
      rw [hnone] at ht
      cases ht

-- ---------------------------------------------------------------------------
-- Whole runs
-- ---------------------------------------------------------------------------

/-- Once the call `id` has returned, no credential is saved for a session that
was started before; and until `c` is drawn again, it is not displayed and no
credential is saved for a client that used it. -/
def Invalidates (C : Crates) (confirms : Text → Bytes → Prop) (id : Nat) (c : Text) (s : AppState) :
    Prop :=
  ∀ mid called env returned out state, Run (hostStep C) (fun _ _ => True) s mid called →
    hostStep C called (.advance id env) = some (returned, out) → .generated id state ∈ out →
      (∀ post s', Run (hostStep C) (fun _ _ => True) returned post s' →
        Justified PairedSince [] post) ∧
      ∀ post s', Run (hostStep C) (fun s i => drawsOther c s i = true ∧ Matching C confirms s)
          returned post s' →
        s'.displayed ≠ some c ∧ ∀ j request result, .paired j request result ∈ post →
          ¬ confirms c request.clientConfirmation

theorem Grounded.run (hg : Grounded C host name s) (h : Run (hostStep C) P s tr s') :
    Grounded C host name s' :=
  h.invariant (I := fun _ s => Grounded C host name s) hg fun hi _ hs =>
    hi.next (hostStep_iff_cases hs)

theorem Drawn.run {id : Nat} (hg : Grounded C host name s) (hd : Drawn id code s)
    (h : Run (hostStep C) P s tr s') : Drawn id code s' := by
  refine (h.invariant (I := fun _ s => Grounded C host name s ∧ Drawn id code s) ⟨hg, hd⟩ ?_).2
  rintro tr s i s' out ⟨hg, hd⟩ - hs
  have hstep := hostStep_iff_cases hs
  exact ⟨hg.next hstep, hd.next hg.locks hstep⟩

theorem Since.run (hg : Grounded C host name s) (hi : Since [] s) (h : Run (hostStep C) P s tr s') :
    Justified PairedSince [] tr := by
  refine (h.invariant (I := fun tr s => Grounded C host name s ∧ Since tr s ∧
    Justified PairedSince [] tr) ⟨hg, hi, trivial⟩ ?_).2.2
  rintro tr s i s' out ⟨hg, hi, hj⟩ - hs
  have hstep := hostStep_iff_cases hs
  exact ⟨hg.next hstep, hi.next hg hstep, justified_append.mpr ⟨hj, hi.paired hg hstep⟩⟩

theorem Replaced.run (hg : Grounded C host name s) (hi : Replaced c s)
    (h : Run (hostStep C) (fun s i => drawsOther c s i = true ∧ Matching C confirms s) s tr s') :
    Replaced c s' ∧ ∀ j request result, .paired j request result ∈ tr →
      ¬ confirms c request.clientConfirmation := by
  refine (h.invariant (I := fun tr s => Grounded C host name s ∧ Replaced c s ∧
    ∀ j request result, .paired j request result ∈ tr → ¬ confirms c request.clientConfirmation)
    ⟨hg, hi, by simp⟩ ?_).2
  rintro tr s i s' out ⟨hg, hi, hpaired⟩ ⟨hdraw, hm⟩ hs
  have hstep := hostStep_iff_cases hs
  refine ⟨hg.next hstep, hi.next hg hstep hdraw, fun j request result hp => ?_⟩
  rcases List.mem_append.mp hp with hp | hp
  · exact hpaired j request result hp
  · exact hi.paired hg hm hstep hp

theorem Replaced.displayed (hi : Replaced c s) : s.displayed ≠ some c := by
  intro h
  obtain ⟨_, -, hc⟩ := Option.map_eq_some_iff.mp h
  exact hi.memory hc

end

theorem draw_cases {id : Nat} (ht : s.tasks id = some .genIdentity)
    (h : hostStep C s (.advance id env) = some (s', out)) :
    if env.saves then
      ∃ generated updated, s'.tasks id = some (.genInstall generated updated) ∧
        generated.code.val = formatCode env.value ∧
        updated.pairingCode = some (formatCode env.value)
    else s'.tasks id = none ∧ s'.nextTask = s.nextTask := by
  have h := hostStep_run h ht
  simp only [AppState.run, AppState.genIdentity] at h
  split at h
  · rename_i hs
    obtain ⟨rfl, -⟩ := Prod.mk.inj h
    rw [if_pos hs]
    exact ⟨_, _, if_pos rfl, rfl, rfl⟩
  · rename_i hs
    obtain ⟨rfl, -⟩ := Prod.mk.inj h
    rw [if_neg hs]
    exact ⟨if_pos rfl, rfl⟩

theorem install_displays {id : Nat} (ht : s.tasks id = some (.genInstall generated updated))
    (hcode : updated.pairingCode = some generated.code.val) :
    ∃ env s' state, hostStep C s (.advance id env) = some (s', [.generated id state]) ∧
      s'.displayed = some generated.code.val := by
  let env : Env := { Env.sample [] with r := .at s.clock }
  have h : hostStep C s (.advance id env) =
      some ((s.tick env).genInstall env id generated updated) := by
    simp only [hostStep, AppState.advance, ht]
    exact if_pos ⟨trivial, rfl, Nat.le_refl _⟩
  exact ⟨env, _, _, h, by simp [AppState.displayed, AppState.finish, hcode]⟩

/-- For every reachable state in which `generate_pairing_code` draws, whatever
the random generator gives: the call replaces the code `c` exactly if it fails
or draws another one. -/
theorem generated_code_replaces {id : Nat}
    (hboot : AppState.boot hostname stored nextTask wall env0 = some start)
    (hrun : Run (hostStep C) (fun _ _ => True) start tr s) (ht : s.tasks id = some .genIdentity)
    (hs : hostStep C s (.advance id env) = some (s', out)) :
    Invalidates C confirms id c s' ↔ (env.saves = true → formatCode env.value ≠ c) := by
  have hg := (Grounded.boot (C := C) hboot).run hrun
  have hstep := hostStep_iff_cases hs
  have hg' := hg.next hstep
  have hdraw := draw_cases ht hs
  constructor
  · rintro hinv hsaves rfl
    rw [if_pos hsaves] at hdraw
    obtain ⟨generated, updated, ht', hcode, hupdated⟩ := hdraw
    obtain ⟨env', s'', state, hinstall, hshown⟩ := install_displays (C := C) ht' (hcode ▸ hupdated)
    refine ((hinv _ _ _ _ _ state .refl hinstall (by simp)).2 _ _ .refl).1 ?_
    rw [hshown, hcode]
  · intro hne mid called env' returned out' state hmid hcall _
    have hd : ∃ code, Drawn id code s' ∧ code ≠ c := by
      split at hdraw
      · rename_i hsaves
        obtain ⟨generated, updated, ht', hcode, -⟩ := hdraw
        exact ⟨_, .inl ⟨generated, updated, ht', hcode⟩, hne hsaves⟩
      · -- The call is over: whatever it would have drawn is never installed.
        exact ⟨'0' :: c, .inr ⟨hdraw.1, hdraw.2 ▸ hg.locks.born ht⟩, List.cons_ne_self _ _⟩
    obtain ⟨code, hd, hcode⟩ := hd
    have hcalled := hg'.run hmid
    have hcstep := hostStep_iff_cases hcall
    obtain ⟨hi, hsince⟩ := Replaced.installed hcalled (hd.run hg' hmid) hcode hcstep
    refine ⟨fun post s4 hpost => hsince.run (hcalled.next hcstep) hpost, fun post s4 hpost => ?_⟩
    obtain ⟨hi4, hpaired⟩ := hi.run (hcalled.next hcstep) hpost
    exact ⟨hi4.displayed, hpaired⟩

/-- The host shows 123456, and a call draws 000000. -/
theorem code_replaced_by_zeros :
    ∃ tr s s' out, Run (hostStep pairingCrates) (fun _ _ => True) (newStart (seconds 400)) tr s ∧
      s.displayed = some (formatCode 123456) ∧
      hostStep pairingCrates s (stepAt 400 [1000] 0) = some (s', out) ∧
      Invalidates pairingCrates (fun code _ => code = formatCode 123456) 0
        (formatCode 123456) s' := by
  obtain ⟨tr, s, hrun, hp⟩ := Run.exists_of_exec (hostStep pairingCrates) (fun _ _ => True)
    (newStart (seconds 400)) [.request .generate, stepAt 400 [] 0]
    (fun s _ => decide (s.displayed = some (formatCode 123456) ∧
      (s.tasks 0 matches some .genIdentity) ∧
      (hostStep pairingCrates s (stepAt 400 [1000] 0)).isSome)) (by decide +kernel)
  obtain ⟨hshown, ht, hsome⟩ := of_decide_eq_true hp
  have ht : s.tasks 0 = some .genIdentity := by
    split at ht
    · assumption
    · cases ht
  obtain ⟨⟨s', out⟩, hs⟩ := Option.isSome_iff_exists.mp hsome
  exact ⟨tr, s, s', out, hrun, hshown, hs,
    (generated_code_replaces (boot_newStart _) hrun ht hs).mpr fun _ => by decide +kernel⟩

def drawsSame : List Input :=
  [.request .generate, stepAt 400 [] 0,
    .advance 0 { Env.sample [1000] with r := .at (seconds 400), value := 123456 }, stepAt 400 [] 0]

/-- The host shows 123456, a call draws it again and returns, and a client with
the old code is paired. -/
theorem old_code_pairs_after_replacement :
    (newStart (seconds 400)).displayed = some (formatCode 123456) ∧
    ∃ tr s, Run (hostStep pairingCrates) (fun _ _ => True) (newStart (seconds 400)) tr s ∧
      (∃ state, .generated 0 state ∈ tr) ∧ s.displayed = some (formatCode 123456) ∧
      ∃ post s', Run (hostStep pairingCrates)
        (fun s i => drawsOther (formatCode 123456) s i = true ∧
          Matching pairingCrates (fun code _ => code = formatCode 123456) s) s post s' ∧
        ∃ j request result, .paired j request result ∈ post := by
  refine ⟨rfl, ?_⟩
  obtain ⟨tr, s, hrun, hp⟩ := Run.exists_of_exec (hostStep pairingCrates) (fun _ _ => True)
    (newStart (seconds 400)) drawsSame
    (fun s tr => decide (tr.any (fun o => o matches .generated 0 _) ∧
      s.displayed = some (formatCode 123456) ∧
      ((exec (hostStep pairingCrates) (fun s i => drawsOther (formatCode 123456) s i = true ∧
          s.pairing.code.val = formatCode 123456) s (pairAt 400 1)).any
        fun r => r.2.any (·.isPaired)) = true)) (by decide +kernel)
  obtain ⟨hgen, hshown, hpair⟩ := of_decide_eq_true hp
  obtain ⟨post, s', hpost, hpaired⟩ := Run.exists_of_exec _ _ s (pairAt 400 1)
    (fun _ tr => tr.any Output.isPaired) hpair
  have hgen : ∃ state, .generated 0 state ∈ tr := by
    obtain ⟨o, ho, hm⟩ := List.any_eq_true.mp hgen
    split at hm
    · exact ⟨_, ho⟩
    · cases hm
  have hpaired : ∃ j request result, .paired j request result ∈ post := by
    obtain ⟨o, ho, hm⟩ := List.any_eq_true.mp hpaired
    obtain ⟨j, request, result, rfl⟩ := Output.isPaired_iff.mp hm
    exact ⟨j, request, result, ho⟩
  exact ⟨tr, s, hrun, hgen, hshown, post, s',
    hpost.mono fun s i h => ⟨h.1, fun _ _ _ code hcode => hcode.trans h.2.symm⟩, hpaired⟩

end DeckyMyRig.Host
