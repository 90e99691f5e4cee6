import DeckyMyRig.Host.Completion

/-!
# Saves that fail during a pairing

A completion checks its session (`pairFinish`), saves the new credential
(`pairSave`) and commits (`pairCommit`), with other handlers in between. When
the save fails, neither the check nor the save has changed anything but for
sessions that were past their lifetime, so the same request can be sent again
for as long as the session lives. What is carried from one attempt to the next
is `Kept`: the session is pending, or past its lifetime.
-/

namespace DeckyMyRig.Host

open Octets Machine

/-- What a completion leaves as it was when it is not committed; sessions past
their lifetime at `r` apart. -/
structure Untouched (r : Readings) (s s' : AppState) : Prop where
  identity : s'.identity = s.identity
  stored : s'.stored = s.stored
  code : s'.pairing.code = s.pairing.code
  created : s'.pairing.created = s.pairing.created
  failures : s'.pairing.confirmationFailures = s.pairing.confirmationFailures
  pending : ∀ {k e}, elapsed e.created r.last ≤ pairingLifetime →
    (s'.pairing.pending.lookup k = some e ↔ s.pairing.pending.lookup k = some e)

def Input.leaves (id : Nat) : Input → Prop
  | .request _ => True
  | .advance j _ | .cancel j => j ≠ id
  | .restart _ => False

/-- Inputs that do not end the session `k`: a restart does, a new code, a
commit, a wrong confirmation for it, or a new session that draws its id. -/
def Spares (C : Crates) (k : SessionId) (e : PendingPairing) (s : AppState) : Input → Prop
  | .advance id env =>
    match s.tasks id with
    | some (.pairFinish request _) =>
      request.sessionId = k.val → request.clientConfirmation = confirmationTag C e
    | some (.pairStart ..) => env.sessionId ≠ k
    | some (.pairCommit ..) | some (.genInstall ..) => False
    | _ => True
  | .restart _ => False
  | _ => True

structure Kept (k : SessionId) (e : PendingPairing) (s : AppState) : Prop where
  pending : s.pairing.pending.lookup k = some e ∨ pairingLifetime < elapsed e.created s.clock
  completed : s.pairing.completed.lookup k = none

-- ---------------------------------------------------------------------------
-- The pairing state
-- ---------------------------------------------------------------------------

section
variable {p p' : PairingCode} {k : SessionId}

theorem pruneSessions_keeps (he : p.pending.lookup k = some e)
    (hage : elapsed e.created r.last ≤ pairingLifetime) :
    (p.pruneSessions r).pending.lookup k = some e :=
  PairingCode.pending_pruneSessions.mpr ⟨he, (elapsed_mono _ (r.le_last k).1).trans hage⟩

theorem pruneSessions_not_completed (h : p.completed.lookup k = none) :
    (p.pruneSessions r).completed.lookup k = none := by
  simp [PairingCode.pruneSessions, AList.lookup_retain, h]

theorem finish_prunes (he : p.pending.lookup k = some e) (htag : confirmation = confirmationTag C e)
    (h : p.finish C k.val confirmation context r credential nonce = (p', answer)) :
    p' = p.pruneSessions r := by
  cases hch : p.checking k.val r with
  | none =>
    obtain ⟨⟨hbad, -⟩ | hp, -⟩ := PairingCode.finish_not_checking hch h
    · simp at hbad
    · exact hp
  | some e' =>
    obtain ⟨k', hk, -, he', -⟩ := PairingCode.checking_eq_some.mp hch
    obtain rfl : k = k' := Subtype.ext hk
    obtain rfl : e = e' :=
      Option.some.inj (he.symm.trans (PairingCode.pending_pruneSessions.mp he').1)
    rw [PairingCode.finish_right context credential nonce hch htag] at h
    exact (Prod.mk.inj h).1.symm

theorem finish_pending (he : p.pending.lookup k = some e)
    (hright : sessionId = k.val → confirmation = confirmationTag C e)
    (hage : elapsed e.created r.last ≤ pairingLifetime)
    (h : p.finish C sessionId confirmation context r credential nonce = (p', answer)) :
    p'.pending.lookup k = some e := by
  by_cases hs : sessionId = k.val
  · subst hs
    rw [finish_prunes he (hright rfl) h]
    exact pruneSessions_keeps he hage
  · cases hch : p.checking sessionId r with
    | none =>
      obtain ⟨⟨-, rfl⟩ | rfl, -⟩ := PairingCode.finish_not_checking hch h
      · exact he
      · exact pruneSessions_keeps he hage
    | some e' =>
      obtain ⟨k', rfl, heq⟩ :=
        PairingCode.finish_checking C confirmation context credential nonce hch
      have hne : k ≠ k' := fun heq => hs (heq ▸ rfl)
      rw [heq] at h
      split at h
      · rw [← (Prod.mk.inj h).1]
        exact pruneSessions_keeps he hage
      · rw [← (Prod.mk.inj h).1]
        simpa [PairingCode.charged, AList.lookup_erase', hne] using pruneSessions_keeps he hage

theorem start_pending (he : p.pending.lookup k = some e) (hne : sessionId ≠ k)
    (hage : elapsed e.created r.last ≤ pairingLifetime)
    (h : p.startForSource C clientMessage source r entropy sessionId = (p', answer)) :
    p'.pending.lookup k = some e := by
  cases answer with
  | error err =>
    obtain rfl | rfl := PairingCode.startForSource_error h
    · exact he
    · exact pruneSessions_keeps he hage
  | ok start =>
    obtain ⟨shared, -, rfl, -⟩ := PairingCode.startForSource_ok h
    simpa [AList.lookup_insert', Ne.symm hne] using pruneSessions_keeps he hage

end

theorem Untouched.pruned {s s' : AppState} (hidentity : s'.identity = s.identity)
    (hstored : s'.stored = s.stored) (hp : s'.pairing = s.pairing.pruneSessions r) :
    Untouched r s s' := by
  refine ⟨hidentity, hstored, by rw [hp]; rfl, by rw [hp]; rfl, by rw [hp]; rfl, fun hage => ?_⟩
  rw [hp]
  exact ⟨fun h => (PairingCode.pending_pruneSessions.mp h).1, fun h => pruneSessions_keeps h hage⟩

-- ---------------------------------------------------------------------------
-- Between the steps of a task
-- ---------------------------------------------------------------------------

section
variable {s s' : AppState} {C : Crates} {host : Uuid} {name : Text}

theorem HostStep.left {id : Nat} (hl : Locks s) (h : HostStep C s i s' out) (hi : i.leaves id)
    (ht : s.tasks id = some t) : s'.tasks id = some t ∧ Undisturbed s s' t := by
  have ht' : s'.tasks id = some t := by
    cases h with
    | answered => exact ht
    | spawned =>
      have hne : id ≠ s.nextTask := by
        rintro rfl
        rw [hl.unborn _ (Nat.le_refl _)] at ht
        cases ht
      simpa [AppState.goto, hne] using ht
    | advanced _ _ _ _ ha =>
      obtain ⟨t', hm⟩ := ha.moves
      simpa [hm.tasks, Ne.symm hi, AppState.tick] using ht
    | cancelled => simpa [AppState.dropped, AppState.finish, Ne.symm hi] using ht
    | restarted => exact hi.elim
  refine ⟨ht', ?_⟩
  rcases h.task_cases hl ht' with ⟨-, hu⟩ | hinit | ⟨env, u, rfl, -⟩
  · exact hu
  · refine ⟨fun hh => ?_, fun hh => ?_⟩
    all_goals
      rw [initial_holds hinit] at hh
      cases hh
  · exact absurd rfl hi

theorem Grounded.meanwhile {id : Nat} (hg : Grounded C host name s) (ht : s.tasks id = some t)
    (h : Run (hostStep C) (fun _ i => i.leaves id) s tr s') :
    Grounded C host name s' ∧ s'.tasks id = some t ∧ Undisturbed s s' t := by
  refine h.invariant (I := fun _ u =>
    Grounded C host name u ∧ u.tasks id = some t ∧ Undisturbed s u t)
    ⟨hg, ht, fun _ => ⟨rfl, rfl⟩, fun _ => rfl⟩ ?_
  rintro tr u i u' out ⟨hg, ht, hu⟩ hi hs
  have hs := hostStep_iff_cases hs
  obtain ⟨ht', hu'⟩ := hs.left hg.locks hi ht
  refine ⟨hg.next hs, ht', fun hh => ?_, fun hh => (hu'.pairing hh).trans (hu.pairing hh)⟩
  exact ⟨(hu'.identity hh).1.trans (hu.identity hh).1, (hu'.identity hh).2.trans (hu.identity hh).2⟩

theorem Kept.advance {id : Nat} (hk : Kept k e s) (hc : s.clock ≤ env.r.first)
    (ht : s.tasks id = some t) (ha : AppState.Advance C (s.tick env) env id t s' out)
    (hs : Spares C k e s (.advance id env)) : Kept k e s' := by
  have hclock : s'.clock = env.r.last := ha.clocks.1
  simp only [Spares, ht] at hs
  have hlater (h : ∀ hage : elapsed e.created env.r.last ≤ pairingLifetime,
      s.pairing.pending.lookup k = some e → s'.pairing.pending.lookup k = some e) :
      s'.pairing.pending.lookup k = some e ∨ pairingLifetime < elapsed e.created s'.clock := by
    rw [hclock]
    rcases Nat.lt_or_ge pairingLifetime (elapsed e.created env.r.last) with hold | hage
    · exact .inr hold
    · rcases hk.pending with he | hold
      · exact .inl (h hage he)
      · exact .inr (hold.trans_le (elapsed_mono _ (hc.trans env.r.first_le_last)))
  have hcompleted (hw : s'.pairing.Within env.r s.pairing) :
      s'.pairing.completed.lookup k = none := by
    refine Option.eq_none_iff_forall_ne_some.mpr fun c hlook => ?_
    cases hk.completed.symm.trans (hw.completed hlook)
  cases ha with
  | statusVerified _ h | nonceSaved _ _ h | versionKnown h | versionSet h =>
    obtain ⟨tasks, rfl⟩ := h.frame
    exact ⟨hlater fun _ he => he, hk.completed⟩
  | notStarted hf =>
    exact ⟨hlater fun hage he => start_pending he hs hage hf,
      hcompleted (PairingCode.startForSource_within hf)⟩
  | started hf =>
    refine ⟨hlater fun hage he => start_pending he hs hage hf, ?_⟩
    obtain ⟨shared, -, rfl, -⟩ := PairingCode.startForSource_ok hf
    exact pruneSessions_not_completed hk.completed
  | notFinished hf | finished hf =>
    exact ⟨hlater fun hage he =>
      finish_pending he hs hage hf, hcompleted (PairingCode.finish_within hf)⟩
  | committed | notCommitted | panicked | genInstalled => exact hs.elim
  | _ => exact ⟨hlater fun _ he => he, hk.completed⟩

theorem Kept.next (hk : Kept k e s) (h : HostStep C s i s' out) (hs : Spares C k e s i) :
    Kept k e s' := by
  cases h with
  | answered | spawned | cancelled => exact ⟨hk.pending, hk.completed⟩
  | advanced ht _ _ hc ha => exact hk.advance hc ht ha hs
  | restarted => exact hs.elim

-- ---------------------------------------------------------------------------
-- The steps of a completion
-- ---------------------------------------------------------------------------

theorem HostStep.check_untouched {id : Nat} (h : HostStep C s (.advance id env) s' out)
    (ht : s.tasks id = some (.pairFinish request hostId)) {k : SessionId}
    (hk : request.sessionId = k.val) (he : s.pairing.pending.lookup k = some e)
    (htag : request.clientConfirmation = confirmationTag C e) : Untouched env.r s s' := by
  obtain ⟨t, ht', -, -, ha⟩ := h.advance_inv
  cases ht'.symm.trans ht
  cases ha with
  | answered hp => cases hp
  | notFinished hf | finished hf => exact .pruned rfl rfl (finish_prunes he htag (hk ▸ hf))

theorem HostStep.check_within {id : Nat} (h : HostStep C s (.advance id env) s' out)
    (ht : s.tasks id = some (.pairFinish request hostId)) : s'.pairing.Within env.r s.pairing := by
  obtain ⟨t, ht', -, -, ha⟩ := h.advance_inv
  cases ht'.symm.trans ht
  cases ha with
  | answered hp => cases hp
  | notFinished hf | finished hf => exact PairingCode.finish_within hf

theorem HostStep.check_kept {id : Nat} (h : HostStep C s (.advance id env) s' out)
    (ht : s.tasks id = some (.pairFinish request hostId)) {k : SessionId}
    (hk : request.sessionId = k.val) (he : s.pairing.pending.lookup k = some e)
    (htag : request.clientConfirmation = confirmationTag C e)
    (ht' : s'.tasks id = some (.pairSave request result)) : Kept k e s' := by
  obtain ⟨t, htask, -, hc, ha⟩ := h.advance_inv
  cases htask.symm.trans ht
  refine Kept.advance ⟨.inl he, ?_⟩ hc ht ha ?_
  · -- A completed session would go on to `pairRepeat`.
    rcases ha.finish_cases with ⟨_, -, rfl, -⟩ | ⟨x, -, -, htask'⟩
    · simp [AppState.finish] at ht'
    · rw [ht', Option.some.injEq] at htask'
      split at htask'
      · cases htask'
      · rename_i hnot
        rw [hk, PairingCode.isCompleted_val, Bool.not_eq_true, Option.isSome_eq_false_iff,
          Option.isNone_iff_eq_none] at hnot
        exact hnot
  · simp only [Spares, ht]
    exact fun _ => htag

theorem save_fails {id : Nat} (h : hostStep C s (.advance id env) = some (s', out))
    (ht : s.tasks id = some (.pairSave request result)) (hfail : env.saves = false) :
    s'.identity = s.identity ∧ s'.stored = s.stored ∧ s'.pairing = s.pairing := by
  have h := hostStep_run h ht
  simp only [AppState.run, AppState.pairSave, hfail, Bool.false_eq_true, ↓reduceIte] at h
  obtain ⟨rfl, -⟩ := Prod.mk.inj h
  exact ⟨rfl, rfl, rfl⟩

theorem save_succeeds {id : Nat} (h : hostStep C s (.advance id env) = some (s', out))
    (ht : s.tasks id = some (.pairSave request result)) (hok : env.saves = true) :
    s'.tasks id = some (.pairCommit request result) ∧ s'.stored.credential =
      some result.credential ∧ s'.identity = s'.stored := by
  have h := hostStep_run h ht
  simp only [AppState.run, AppState.pairSave, hok, ↓reduceIte] at h
  obtain ⟨rfl, -⟩ := Prod.mk.inj h
  exact ⟨if_pos rfl, rfl, rfl⟩

theorem Grounded.commit_answers {id : Nat} (hg : Grounded C host name s)
    (h : hostStep C s (.advance id env) = some (s', out))
    (ht : s.tasks id = some (.pairCommit request result)) :
    s'.stored = s.stored ∧
      (out = [.completed id request result (s'.pairingResponse C request.sessionId result)] ↔
        seconds 301 ≤ env.r.last) := by
  obtain ⟨t, ht', -, -, ha⟩ := (hostStep_iff_cases h).advance_inv
  cases ht'.symm.trans ht
  have hfound : .expectFailed id ∉ out := PairTasks.not_expectFailed hg.tasks ht ha
  cases ha with
  | answered hp => cases hp
  | notCommitted => simp at hfound
  | committed hcom =>
    rcases PairingCode.commit_cases hcom with ⟨-, hbad⟩ |
      ⟨_, _, -, -, -, -, -, ⟨-, hlate, -⟩ | ⟨hbad, -⟩⟩
    · cases hbad
    · exact ⟨rfl, iff_of_true rfl hlate⟩
    · cases hbad
  | panicked hcom =>
    rcases PairingCode.commit_cases hcom with ⟨-, hbad⟩ |
      ⟨_, _, -, -, -, -, -, ⟨hbad, -⟩ | ⟨-, hearly, -⟩⟩
    · cases hbad
    · cases hbad
    · exact ⟨rfl, iff_of_false (by simp) (Nat.not_le.mpr hearly)⟩

def EncryptedFor (C : Crates) (e : PendingPairing) (result : PairingResult) : Prop :=
  ∃ aad, result.encryptedCredential =
    C.encrypt (C.hkdf e.shared credentialInfo) result.nonce.val result.credential.val aad

theorem Kept.check {id : Nat} {request : PairRequest} {k : SessionId} (hkept : Kept k e s)
    (h : HostStep C s (.advance id env) s' out)
    (ht : s.tasks id = some (.pairFinish request hostId))
    (hk : request.sessionId = k.val) (htag : request.clientConfirmation = confirmationTag C e)
    (hfits : AadFits e.hostMessage e.sessionId.val (s.credentialContext hostId))
    (hage : elapsed e.created env.r.last ≤ pairingLifetime) :
    ∃ result, s'.tasks id = some (.pairSave request result) ∧ EncryptedFor C e result := by
  obtain ⟨t, htask, -, hclock, ha⟩ := h.advance_inv
  cases htask.symm.trans ht
  have he : s.pairing.pending.lookup k = some e := by
    refine hkept.pending.resolve_right (Nat.not_lt.mpr ?_)
    exact (elapsed_mono _ (hclock.trans env.r.first_le_last)).trans hage
  have hch : s.pairing.checking request.sessionId env.r = some e :=
    PairingCode.checking_eq_some.mpr
      ⟨k, hk, pruneSessions_not_completed hkept.completed, pruneSessions_keeps he hage, hage⟩
  obtain ⟨result, hresult⟩ := issue_fits C env.credential env.nonce hfits
  have hfinish : (s.tick env).pairing.finish C request.sessionId request.clientConfirmation
      ((s.tick env).credentialContext hostId) env.r env.credential env.nonce =
        (s.pairing.pruneSessions env.r, .ok result) := by
    rw [← hresult]
    exact PairingCode.finish_right (s.credentialContext hostId) env.credential env.nonce hch htag
  have hnot : s.pairing.isCompleted request.sessionId = false := by
    rw [hk, PairingCode.isCompleted_val, hkept.completed]
    rfl
  have henc : EncryptedFor C e result := by
    obtain ⟨hcredential, -, hnonce, aad, -, hcipher⟩ := issue_ok hresult
    exact ⟨aad, by rw [hcipher, hcredential, hnonce]⟩
  refine ⟨result, ?_, henc⟩
  rcases ha.finish_cases with ⟨err, herr, -⟩ | ⟨x, hx, -, hgoes⟩
  · rw [hfinish] at herr
    cases herr
  · rw [hfinish] at hx
    cases hx
    rw [hgoes, show (s.tick env).pairing.isCompleted _ = _ from hnot]
    rfl

/-- After `s` the handler `j` of the same request checks its session in its
lifetime. It then saves the credential that it has encrypted as soon as a save
succeeds, and answers with it if the clock allows `commit`. -/
def Recovers (C : Crates) (request : PairRequest) (k : SessionId) (e : PendingPairing)
    (s : AppState) : Prop :=
  ∀ tr again j hostId check checked out, Run (hostStep C) (Spares C k e) s tr again →
    again.tasks j = some (.pairFinish request hostId) →
    hostStep C again (.advance j check) = some (checked, out) →
    elapsed e.created check.r.last ≤ pairingLifetime →
    ∃ result, checked.tasks j = some (.pairSave request result) ∧ EncryptedFor C e result ∧
      ∀ tr saving save saved out, Run (hostStep C) (fun _ i => i.leaves j) checked tr saving →
        save.saves = true → hostStep C saving (.advance j save) = some (saved, out) →
        saved.stored.credential = some result.credential ∧ saved.identity = saved.stored ∧
        ∀ tr committing commit last out,
          Run (hostStep C) (fun _ i => i.leaves j) saved tr committing →
          hostStep C committing (.advance j commit) = some (last, out) →
          last.stored.credential = some result.credential ∧
          (out = [.completed j request result (last.pairingResponse C request.sessionId result)] ↔
            seconds 301 ≤ commit.r.last)

theorem Kept.recovers {request : PairRequest} {k : SessionId} (hg : Grounded C host name s)
    (hkept : Kept k e s) (hk : request.sessionId = k.val)
    (htag : request.clientConfirmation = confirmationTag C e)
    (hfits : AadFits e.hostMessage e.sessionId.val ⟨name, hostVersion,
      protocolVersion, host.toText⟩) :
    Recovers C request k e s := by
  intro tr again j hostId check checked out hrun ht hcheck hage
  obtain ⟨hg, hkept⟩ :=
    hrun.invariant (I := fun _ s => Grounded C host name s ∧ Kept k e s) ⟨hg, hkept⟩
    fun hi hp hs => ⟨hi.1.next (hostStep_iff_cases hs), hi.2.next (hostStep_iff_cases hs) hp⟩
  have hcheck := hostStep_iff_cases hcheck
  have hcontext : again.credentialContext hostId = ⟨name, hostVersion,
      protocolVersion, host.toText⟩ := by
    rw [hg.identified.finishing ht, AppState.credentialContext, hg.identified.hostname]
  obtain ⟨result, hsave, henc⟩ := hkept.check hcheck ht hk htag (hcontext ▸ hfits) hage
  refine ⟨result, hsave, henc, fun tr saving save saved out hrun hok hs => ?_⟩
  obtain ⟨hg, ht, -⟩ := (hg.next hcheck).meanwhile hsave hrun
  obtain ⟨hcommit, hstored, hsame⟩ := save_succeeds hs ht hok
  refine ⟨hstored, hsame, fun tr committing commit last out hrun hc => ?_⟩
  obtain ⟨hg, ht, hu⟩ := (hg.next (hostStep_iff_cases hs)).meanwhile hcommit hrun
  obtain ⟨hlast, hanswer⟩ := hg.commit_answers hc ht
  refine ⟨?_, hanswer⟩
  rw [hlast, (hu.identity rfl).2]
  exact hstored

end

def failAt (t id : Nat) : Input :=
  .advance id { Env.sample [] with r := .at (seconds t), saves := false }

def completionAt (t : Nat) : List Input :=
  pairBody [] :: List.replicate 3 (stepAt t [] 0) ++
    [pairBody (1 :: List.replicate 32 5), stepAt t [] 1]

def failsNext (t : Nat) (k : SessionId) (s : AppState) : Bool :=
  match s.tasks 1, s.pairing.pending.lookup k, hostStep pairingCrates s (stepAt t [] 1) with
  | some (.pairFinish request _), some e, some (checked, _) =>
    request.sessionId = k.val && request.clientConfirmation = confirmationTag pairingCrates e &&
      (match checked.tasks 1 with
      | some (.pairSave request' _) => request' = request
      | _ => false) && (hostStep pairingCrates checked (failAt t 1)).isSome
  | _, _, _ => false

/-- In every reachable state, the check of a completion with the right
confirmation leaves everything as it was, and so does its save if it fails,
whatever other handlers do meanwhile. Later the same request saves the
credential that it answers with; the answer comes exactly if the monotonic
clock has reached 301 s when the pairing is committed. -/
theorem failed_save_changes_nothing
    (hboot : AppState.boot hostname stored nextTask wall env = some start)
    (h : Run (hostStep C) (fun _ _ => True) start tr s) {id : Nat} {request : PairRequest}
    (ht : s.tasks id = some (.pairFinish request hostId)) {k : SessionId}
    (hk : request.sessionId = k.val) (he : s.pairing.pending.lookup k = some e)
    (htag : request.clientConfirmation = confirmationTag C e)
    (hcheck : hostStep C s (.advance id check) = some (checked, out)) :
    Untouched check.r s checked ∧
      ∀ result tr saving save failed out, checked.tasks id = some (.pairSave request result) →
        Run (hostStep C) (fun _ i => i.leaves id) checked tr saving → save.saves = false →
        hostStep C saving (.advance id save) = some (failed, out) →
        failed.identity = saving.identity ∧ failed.stored = saving.stored ∧
          failed.pairing = checked.pairing ∧ Recovers C request k e failed := by
  have hg : Grounded C stored.hostId hostname s :=
    h.invariant (I := fun _ s => Grounded C stored.hostId hostname s) (.boot hboot)
      fun hi _ hs => hi.next (hostStep_iff_cases hs)
  have hstep := hostStep_iff_cases hcheck
  refine ⟨hstep.check_untouched ht hk he htag, ?_⟩
  intro result tr saving save failed out hsave hrun hfail hs
  have hkept := hstep.check_kept ht hk he htag hsave
  obtain ⟨hg, ht', hu⟩ := (hg.next hstep).meanwhile hsave hrun
  obtain ⟨hidentity, hstored, hpairing⟩ := save_fails hs ht' hfail
  have hsame : failed.pairing = checked.pairing := hpairing.trans (hu.pairing rfl)
  refine ⟨hidentity, hstored, hsame, ?_⟩
  -- The task still knows its session, which is the one of the check.
  obtain ⟨k', e', hk', he', -, hissue⟩ := hg.tasks ht' rfl
  obtain rfl : k = k' := Subtype.ext (hk.symm.trans hk')
  have hbefore : s.pairing.pending.lookup k = some e' := by
    rw [hu.pairing rfl] at he'
    exact (hstep.check_within ht).pending he'
  obtain rfl : e = e' := Option.some.inj (he.symm.trans hbefore)
  have hfits : AadFits e.hostMessage e.sessionId.val
      ⟨hostname, hostVersion, protocolVersion, stored.hostId.toText⟩ := by
    by_contra hnot
    rw [issue_unfit hnot] at hissue
    cases hissue
  refine Kept.recovers (hg.next (hostStep_iff_cases hs)) ⟨.inl ?_, ?_⟩ hk htag hfits
  · rw [hpairing]
    exact he'
  · rw [hsame]
    exact hkept.completed

/-- At 400 s a save fails, and the request can be sent again. -/
theorem retried_after_400_seconds :
    ∃ tr s checked failed out out' request e, Run (hostStep pairingCrates) (fun _ _ => True)
        (newStart (seconds 400)) tr s ∧
      hostStep pairingCrates s (stepAt 400 [] 1) = some (checked, out) ∧
      hostStep pairingCrates checked (failAt 400 1) = some (failed, out') ∧
      failed.stored = s.stored ∧ Recovers pairingCrates request
        ⟨List.replicate 16 1, rfl⟩ e failed := by
  obtain ⟨tr, s, hrun, hp⟩ := Run.exists_of_exec (hostStep pairingCrates) (fun _ _ => True)
    (newStart (seconds 400)) (completionAt 400)
    (fun s _ => failsNext 400 ⟨List.replicate 16 1, rfl⟩ s)
    (by decide +kernel)
  unfold failsNext at hp
  split at hp
  · rename_i request hostId e checked out ht he hcheck
    simp only [Bool.and_eq_true, decide_eq_true_eq] at hp
    obtain ⟨⟨⟨hk, htag⟩, hsave⟩, hfail⟩ := hp
    split at hsave
    · rename_i request' result ht'
      obtain rfl := of_decide_eq_true hsave
      obtain ⟨⟨failed, out'⟩, hfail⟩ := Option.isSome_iff_exists.mp hfail
      obtain ⟨huntouched, hrest⟩ :=
        failed_save_changes_nothing (boot_newStart _) hrun ht hk he htag hcheck
      obtain ⟨-, hstored, -, hrec⟩ := hrest result [] checked _ failed out' ht' .refl rfl hfail
      exact ⟨tr, s, checked, failed, out, out', _, e, hrun, hcheck, hfail,
        hstored.trans huntouched.stored, hrec⟩
    · cases hsave
  · cases hp

/-- Task 2 saved a credential, and ended in a panic without an answer. -/
def unanswered (s : AppState) (tr : List Output) : Bool :=
  (s.tasks 2).isNone && tr.any (fun o => o matches .paired 2 ..) &&
    tr.any (fun o => o matches .panicked 2) && tr.all (fun o => !(o matches .completed 2 ..))

/-- At 100 s a save fails; the same request is sent again, its save succeeds
and it gets no answer. -/
theorem no_answer_after_100_seconds :
    AppState.boot [] newHost 0 0 { Env.sample [1000] with r := .at (seconds 100) } =
      some (newStart (seconds 100)) ∧
    ∃ tr s, Run (hostStep pairingCrates) (fun _ _ => True) (newStart (seconds 100)) tr s ∧
      s.tasks 2 = none ∧ (∃ request result, .paired 2 request result ∈ tr) ∧ .panicked 2 ∈ tr ∧
      ∀ request result response, .completed 2 request result response ∉ tr := by
  refine ⟨boot_newStart _, ?_⟩
  obtain ⟨tr, s, hrun, hp⟩ := Run.exists_of_exec (hostStep pairingCrates) (fun _ _ => True)
    (newStart (seconds 100))
    (completionAt 100 ++ stepAt 100 [] 1 :: failAt 100 1 :: pairBody (1 :: List.replicate 32 5) ::
      List.replicate 4 (stepAt 100 [] 2))
    unanswered (by decide +kernel)
  simp only [unanswered, Bool.and_eq_true, Option.isNone_iff_eq_none, List.any_eq_true,
    List.all_eq_true] at hp
  obtain ⟨⟨⟨hnone, o, ho, hpaired⟩, o', ho', hpanic⟩, hnot⟩ := hp
  refine ⟨tr, s, hrun, hnone, ?_, ?_, fun request result response hc => ?_⟩
  · split at hpaired
    · exact ⟨_, _, ho⟩
    · cases hpaired
  · split at hpanic
    · exact ho'
    · cases hpanic
  · cases hnot _ hc

end DeckyMyRig.Host
