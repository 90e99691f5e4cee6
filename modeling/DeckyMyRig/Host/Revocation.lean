import DeckyMyRig.Host.Replacement
import DeckyMyRig.Host.Completion
import DeckyMyRig.Host.ShutdownReplay

/-!
# A new pairing revokes the old one

A handler works with the credential it read when it began to authenticate its
request. Once a pairing is saved, every handler that begins reads its
credential, or that of a later pairing, in every run and across restarts.
-/

namespace DeckyMyRig.Host

open Octets Machine

def Task.key : Task → Option Credential
  | .verify _ _ _ key _ => some key
  | .persistNonce c | .latestVersion c _ | .identityVersion c _ | .setLatest c _ | .statusReply c =>
    some c.context.credential
  | _ => none

theorem initial_key (h : Task.initial t = true) : t.key = none := by
  cases t <;> first | rfl | cases h

-- ---------------------------------------------------------------------------
-- One step
-- ---------------------------------------------------------------------------

structure Keyed (key : Credential) (id : Nat) (s' : AppState) (out : List Output) : Prop where
  task : ∀ {t}, s'.tasks id = some t → t.key = some key
  powers : ∀ {j c}, .powerShutdown j c ∈ out → j = id ∧ c.context.credential = key

theorem Keyed.finished {id : Nat} (h : s'.tasks id = none)
    (hout : ∀ j c, .powerShutdown j c ∉ out) :
    Keyed key id s' out :=
  ⟨fun ht => by simp [h] at ht, fun hmem => absurd hmem (hout _ _)⟩

theorem Keyed.goto {s : AppState} {t : Task} {id : Nat} (h : t.key = some key)
    (hout : ∀ j c, .powerShutdown j c ∉ out) : Keyed key id (s.goto id t) out :=
  ⟨fun ht => by rw [← AppState.goto_task ht]; exact h, fun hmem => absurd hmem (hout _ _)⟩

theorem AppState.answer_keyed (s : AppState) (id : Nat) (response : Response) (key : Credential) :
    Keyed key id (s.answer id response).1 (s.answer id response).2 :=
  .finished (if_pos rfl) (by simp [AppState.answer])

theorem AppState.Continues.keyed {id : Nat} (h : AppState.Continues s id c s' out) :
    Keyed c.context.credential id s' out := by
  cases h with
  | answered => exact .finished (if_pos rfl) (by simp)
  | powered =>
    refine ⟨fun ht => by simp [AppState.finish] at ht, fun hmem => ?_⟩
    simp only [List.mem_cons, Output.powerShutdown.injEq, reduceCtorEq,
      List.not_mem_nil, or_false] at hmem
    exact ⟨hmem.1, by rw [hmem.2]⟩
  | version | reply => exact .goto rfl (by simp)

theorem verify_keyed (C : Crates) (s : AppState) (env : Env) (id : Nat) (path : Path)
    (http : HttpRequest) (auth : AuthHeaders) (credential : Credential) (now : Nat) :
    Keyed credential id (s.verify C env id path http auth credential now).1
      (s.verify C env id path http auth credential now).2 := by
  unfold AppState.verify
  simp only
  split
  · exact AppState.answer_keyed ..
  · split
    · exact AppState.answer_keyed ..
    · rename_i nonce _
      split
      · exact .goto rfl (by simp)
      · exact AppState.Continues.keyed (c := ⟨.status, http, auth, ⟨credential, nonce⟩⟩)
          (AppState.authenticated_continues ..)

theorem AppState.Advance.keyed {id : Nat} {env : Env} {s : AppState} (hkey : t.key = some key)
    (h : AppState.Advance C s env id t s' out) (hrun : s.run C env id t = (s', out)) :
    Keyed key id s' out := by
  cases t with
  | verify path http auth key' now =>
    cases hkey
    have hverify := verify_keyed C s env id path http auth key now
    simp only [AppState.run] at hrun
    rwa [hrun] at hverify
  | persistNonce caller =>
    cases hkey
    cases h with
    | answered h => cases h
    | nonceRefused => exact .finished (if_pos rfl) (by simp)
    | nonceSaved _ _ h => exact ⟨h.keyed.task, fun hmem => h.keyed.powers (by simpa using hmem)⟩
  | latestVersion caller version =>
    cases hkey
    cases h with
    | answered h => cases h
    | versionKnown h => exact h.keyed
    | versionNew => exact .goto rfl (by simp)
  | identityVersion caller version =>
    cases hkey
    cases h with
    | answered h => cases h
    | versionKept => exact .goto rfl (by simp)
    | versionSaved => exact .goto rfl (by simp)
  | setLatest caller version =>
    cases hkey
    cases h with
    | answered h => cases h
    | versionSet h => exact h.keyed
  | statusReply caller =>
    cases h with
    | answered => exact .finished (if_pos rfl) (by simp)
  | _ => cases hkey

theorem AppState.Advance.unkeyed {id : Nat} {env : Env} {s : AppState} (hkey : t.key = none)
    (h : AppState.Advance C s env id t s' out) :
    (∀ t', s'.tasks id = some t' → t'.key = none ∨ t'.key = s.identity.credential) ∧
      ∀ j c, .powerShutdown j c ∉ out := by
  cases h with
  | notVerified | verified | statusVerified | nonceRefused | nonceSaved | versionKnown | versionNew
  | versionKept
  | versionSaved | versionSet => cases hkey
  | credentialRead hc =>
    refine ⟨fun t' ht => ?_, by simp⟩
    rw [← goto_task ht, hc]
    exact .inr rfl
  | pairChecked | started | hostIdRead | pairSaved | genLocked | genSaved =>
    refine ⟨fun t' ht => ?_, by simp⟩
    rw [← goto_task ht]
    exact .inl rfl
  | finished =>
    refine ⟨fun t' ht => ?_, by simp⟩
    rw [← goto_task ht]
    split <;> exact .inl rfl
  | _ => exact ⟨fun t' ht => by simp [finish] at ht, by simp⟩

-- ---------------------------------------------------------------------------
-- Runs
-- ---------------------------------------------------------------------------

def Standing (first : Credential) (past : List Output) (credential : Credential) : Prop :=
  credential = first ∨ ∃ j request result, .paired j request result ∈ past ∧
    credential = result.credential

theorem Standing.mono (h : Standing first past credential) (out : List Output) :
    Standing first (past ++ out) credential := by
  rcases h with h | ⟨j, request, result, hmem, h⟩
  · exact .inl h
  · exact .inr ⟨j, request, result, List.mem_append_left _ hmem, h⟩

/-- Handlers from number `n` on work with standing credentials. -/
structure Revoked (first : Credential) (n : Nat) (past : List Output) (s : AppState) : Prop where
  stored : s.stored.credential = s.identity.credential
  identity : ∀ {c}, s.identity.credential = some c → Standing first past c
  tasks : ∀ {id t c}, n ≤ id → s.tasks id = some t → t.key = some c → Standing first past c
  powers : Justified (fun past e => ∀ id caller, e = .powerShutdown id caller → n ≤ id →
    Standing first past caller.context.credential) [] past

theorem Revoked.quiet (hr : Revoked first n past s)
    (hstored : s'.stored.credential = s'.identity.credential)
    (hidentity : s'.identity.credential = s.identity.credential)
    (htasks : ∀ {id t c}, n ≤ id → s'.tasks id = some t → t.key = some c → s.tasks id = some t)
    (hout : ∀ j c, .powerShutdown j c ∉ out) : Revoked first n (past ++ out) s' where
  stored := hstored
  identity hc := (hr.identity (hidentity ▸ hc)).mono out
  tasks hn ht hk := (hr.tasks hn (htasks hn ht hk) hk).mono out
  powers := by
    refine justified_append.mpr ⟨hr.powers, justified_of_forall (fun e he past => ?_) _⟩
    rintro id caller rfl
    exact absurd he (hout _ _)

theorem Revoked.advance {id : Nat} {env : Env} (hg : Grounded C host name s)
    (hr : Revoked first n past s)
    (ht : s.tasks id = some t) (ha : AppState.Advance C (s.tick env) env id t s' out)
    (hrun : (s.tick env).run C env id t = (s', out)) : Revoked first n (past ++ out) s' := by
  obtain ⟨t', hm⟩ := ha.moves
  have hothers {j : Nat} (hne : j ≠ id) : s'.tasks j = s.tasks j := by
    simp [hm.tasks, hne, AppState.tick]
  obtain ⟨hstored, hcredential⟩ := ha.credential (s := s.tick env) hr.stored (by
    rintro generated updated rfl
    exact (hg.installs ht).stored)
  refine ⟨hstored, fun {c} hc => ?_, fun {j u c} hn hj hk => ?_,
    justified_append.mpr ⟨hr.powers, ?_⟩⟩
  · rcases hcredential with hsame | ⟨request, result, rfl, hcommit⟩
    · exact (hr.identity (hsame.symm.trans hc)).mono out
    · -- the pairing that is saved here
      cases ha with
      | answered h => cases h
      | pairSaved hu =>
        subst hu
        exact .inr ⟨id, request, result, List.mem_append_right _ (by simp),
          (Option.some.inj hc).symm⟩
      | pairNotSaved => simp [AppState.finish] at hcommit
  · by_cases hne : j = id
    · subst hne
      cases hkey : t.key with
      | some credential =>
        have := (ha.keyed hkey hrun).task hj
        rw [hk] at this
        cases this
        exact (hr.tasks hn ht hkey).mono out
      | none =>
        rcases (ha.unkeyed hkey).1 u hj with hnone | hread
        · rw [hk] at hnone
          cases hnone
        · exact (hr.identity (hread.symm.trans hk)).mono out
    · exact (hr.tasks hn (hothers hne ▸ hj) hk).mono out
  · refine justified_of_extended fun e he more => ?_
    rintro j caller rfl hn
    cases hkey : t.key with
    | none => exact absurd he ((ha.unkeyed hkey).2 _ _)
    | some credential =>
      obtain ⟨rfl, rfl⟩ := (ha.keyed hkey hrun).powers he
      exact (hr.tasks hn ht hkey).mono more

theorem Revoked.next (hg : Grounded C host name s) (hr : Revoked first n past s)
    (h : hostStep C s i = some (s', out)) : Revoked first n (past ++ out) s' := by
  cases hostStep_iff_cases h with
  | answered => exact hr.quiet hr.stored rfl (fun _ ht _ => ht) (by simp)
  | spawned hinit =>
    refine hr.quiet hr.stored rfl (fun {id t c} _ ht hk => ?_) (by simp)
    simp only [AppState.goto] at ht
    split at ht
    · cases ht
      rw [initial_key hinit] at hk
      cases hk
    · exact ht
  | advanced ht _ _ _ ha => exact hr.advance hg ht ha (hostStep_run h ht)
  | cancelled =>
    refine hr.quiet hr.stored rfl (fun {id t c} _ ht hk => ?_) (by simp)
    simp only [AppState.dropped, AppState.finish] at ht
    split at ht
    · cases ht
    · exact ht
  | restarted hb =>
    obtain ⟨p, -, rfl⟩ := boot_eq_some hb
    exact hr.quiet rfl hr.stored (fun _ ht _ => by cases ht) (by simp)

/-- Once a pairing is saved, no handler of a later request works with a
credential that was replaced, and none shuts the machine down for one: in every
run after it, whatever fails or restarts. -/
theorem replaced_credential_is_revoked
    (hboot : AppState.boot hostname stored nextTask wall env = some start)
    (hreach : Run (hostStep C) P start past s₀) (hstep : hostStep C s₀ i = some (s₁, out))
    (hpaired : .paired j request result ∈ out) (h : Run (hostStep C) Q s₁ tr s) :
    (∀ id t key, s₁.nextTask ≤ id → s.tasks id = some t → t.key = some key →
      Standing result.credential tr key) ∧
    ∀ pre id caller post, tr = pre ++ .powerShutdown id caller :: post → s₁.nextTask ≤ id →
      Standing result.credential pre caller.context.credential := by
  have hg₀ : Grounded C stored.hostId hostname s₀ := (Grounded.boot hboot).run hreach
  have hcases := hostStep_iff_cases hstep
  have hg₁ := hg₀.next hcases
  have hstart : Revoked result.credential s₁.nextTask [] s₁ := by
    cases hcases with
    | advanced _ _ _ _ ha =>
      obtain ⟨-, -, -, -, hidentity, hstored, -⟩ := ha.paired hpaired
      refine ⟨by rw [hstored], fun hc => .inl ?_, fun hn hj _ => ?_, trivial⟩
      · rw [hidentity] at hc
        exact (Option.some.inj hc).symm
      · rw [hg₁.locks.unborn _ hn] at hj
        cases hj
    | _ => simp at hpaired
  have hrevoked := (h.invariant
    (I := fun tr s => Grounded C stored.hostId hostname s ∧
      Revoked result.credential s₁.nextTask tr s)
    ⟨hg₁, hstart⟩ fun hi _ hs => ⟨hi.1.next (hostStep_iff_cases hs), hi.2.next hi.1 hs⟩).2
  refine ⟨fun id t key hn ht hk => hrevoked.tasks hn ht hk, ?_⟩
  rintro pre id caller post rfl hn
  exact hrevoked.powers.at id caller rfl hn

def revokingCrates : Crates :=
  { shutdownCrates with decodePairRequest := pairingCrates.decodePairRequest }

def confirmedAt400 : List Input :=
  pairBody [] :: List.replicate 3 (stepAt 400 [] 0) ++
    pairBody (1 :: shutdownCrates.hmac [] []) :: List.replicate 2 (stepAt 400 [] 1)

def shutDownAt400 : List Input :=
  [stepAt 400 [] 1, .request (.authenticated .shutdown shutdownHttp), stepAt 400 [1000] 2] ++
    List.replicate 5 (stepAt 400 [] 2)

def pairsAndPowers (s : AppState) : Bool :=
  (hostStep revokingCrates s (stepAt 400 [] 1)).any fun r =>
    r.2.any Output.isPaired && r.1.nextTask = 2 &&
    (exec (hostStep revokingCrates) (fun _ _ => True) r.1 shutDownAt400).any fun r' =>
      r'.2.any (Output.shutdownBy 2)

/-- A shutdown after a pairing is one for its credential. -/
theorem shutdown_with_new_credential :
    ∃ past s₀ s₁ out j request result tr s, Run (hostStep revokingCrates) (fun _ _ => True)
        (newStart (seconds 400)) past s₀ ∧
      hostStep revokingCrates s₀ (stepAt 400 [] 1) = some (s₁, out) ∧
      .paired j request result ∈ out ∧ Run (hostStep revokingCrates) (fun _ _ => True) s₁ tr s ∧
      ∃ pre id caller post, tr = pre ++ .powerShutdown id caller :: post ∧ s₁.nextTask ≤ id ∧
        Standing result.credential pre caller.context.credential := by
  obtain ⟨past, s₀, hreach, hp⟩ := Run.exists_of_exec (hostStep revokingCrates) (fun _ _ => True)
    (newStart (seconds 400)) confirmedAt400 (fun s _ => pairsAndPowers s) (by decide +kernel)
  obtain ⟨⟨s₁, out⟩, hstep, hp⟩ := Option.any_eq_true _ _ |>.mp hp
  simp only [Bool.and_eq_true, decide_eq_true_eq] at hp
  obtain ⟨⟨hpaired, hnext⟩, hp⟩ := hp
  obtain ⟨tr, s, hrun, hpowers⟩ :=
    Run.exists_of_exec _ _ _ _ (fun _ tr => tr.any (Output.shutdownBy 2)) hp
  obtain ⟨o, ho, hpaired⟩ := List.any_eq_true.mp hpaired
  obtain ⟨e, he, hpower⟩ := List.any_eq_true.mp hpowers
  cases o with
  | paired j request result =>
    cases e with
    | powerShutdown id caller =>
      obtain ⟨pre, post, rfl⟩ := List.append_of_mem he
      have hid : s₁.nextTask ≤ id := by
        have : id = 2 := of_decide_eq_true hpower
        omega
      exact ⟨past, s₀, s₁, out, j, request, result, _, s, hreach, hstep, ho, hrun, pre, id,
        caller, post, rfl, hid,
        (replaced_credential_is_revoked (boot_newStart _) hreach hstep ho hrun).2 pre id caller post
          rfl hid⟩
    | _ => cases hpower
  | _ => cases hpaired

end DeckyMyRig.Host
