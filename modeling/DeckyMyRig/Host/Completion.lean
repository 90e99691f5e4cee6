import DeckyMyRig.Host.Responses
import DeckyMyRig.Host.SingleUse

/-!
# Completions

What the answer to a completion says, and what becomes of its repetition. The
completed table holds at most one session, whose credential is the host's own
in memory and in the store; while it holds one, no session is pending and the
code is over, as long as no commit underflows the clock.
-/

namespace DeckyMyRig.Host

open Octets Machine

def Issued (C : Crates) (context : CredentialContext) (result : PairingResult) : Prop :=
  ∃ e, issue C e context result.credential result.nonce = .ok result

structure Truthful (C : Crates) (context : CredentialContext) (s : AppState) : Prop where
  stored : s.stored.credential = s.identity.credential
  committing : ∀ {id : Nat} {request result}, s.tasks id = some (.pairCommit request result) →
    s.identity.credential = some result.credential
  repeating : ∀ {id : Nat} {request result}, s.tasks id = some (.pairRepeat request result) →
    ∃ (k : SessionId) (c : CompletedPairing), request.sessionId = k.val ∧
      s.pairing.completed.lookup k = some c ∧ c.confirmation = request.clientConfirmation ∧
      c.result = result
  single : ∀ {k k' c c'}, s.pairing.completed.lookup k = some c →
    s.pairing.completed.lookup k' = some c' → k = k'
  issued : ∀ {k c}, s.pairing.completed.lookup k = some c → Issued C context c.result
  current : ∀ {k c}, s.pairing.completed.lookup k = some c →
    Committing s ∨ s.identity.credential = some c.result.credential
  spent : ∀ {k c}, s.pairing.completed.lookup k = some c → Spent s

theorem Grounded.not_committing (hg : Grounded C host name s) {id : Nat} (ht : s.tasks id = some t)
    (hf : s.free t.awaits) (hp : t.awaits = some .pairing ∨ t.holds .pairing = true)
    (hn : ∀ request result, t ≠ .pairCommit request result) : ¬ Committing s := by
  rintro ⟨j, request, result, hj⟩
  have hne : j ≠ id := by
    rintro rfl
    exact hn _ _ (Option.some.inj (ht.symm.trans hj))
  obtain ⟨hw, hh⟩ := hg.locks.excludes (l := .pairing) hj rfl ht hf hne
  rcases hp with hp | hp
  · exact hw hp
  · rw [hp] at hh
    cases hh

theorem Spent.expired (hs : Spent s) (hn : ¬ Committing s) :
    (∀ k, s.pairing.pending.lookup k = none) ∧
    pairingLifetime < elapsed s.pairing.created s.clock :=
  hs.resolve_left hn

-- ---------------------------------------------------------------------------
-- One step
-- ---------------------------------------------------------------------------

theorem AppState.Advance.credential {id : Nat} (h : AppState.Advance C s env id t s' out)
    (hst : s.stored.credential = s.identity.credential)
    (hinst : ∀ generated updated, t = .genInstall generated updated → updated = s.stored) :
    s'.stored.credential = s'.identity.credential ∧
      (s'.identity.credential = s.identity.credential ∨ ∃ request result,
        t = .pairSave request result ∧ s'.tasks id = some (.pairCommit request result)) := by
  cases h with
  | statusVerified _ h | versionKnown h | versionSet h =>
    obtain ⟨tasks, rfl⟩ := h.frame
    exact ⟨hst, .inl rfl⟩
  | nonceSaved _ hu h =>
    obtain ⟨tasks, rfl⟩ := h.frame
    subst hu
    exact ⟨rfl, .inl rfl⟩
  | versionSaved hu =>
    subst hu
    exact ⟨rfl, .inl rfl⟩
  | pairSaved hu => exact ⟨rfl, .inr ⟨_, _, rfl, if_pos rfl⟩⟩
  | genSaved _ hu =>
    subst hu
    exact ⟨rfl, .inl rfl⟩
  | genInstalled =>
    obtain rfl := hinst _ _ rfl
    exact ⟨rfl, .inl hst⟩
  | _ => exact ⟨hst, .inl rfl⟩

theorem AppState.Advance.completed_cases {id : Nat} (hg : Grounded C host name s)
    (ht : s.tasks id = some t) (h : AppState.Advance C (s.tick env) env id t s' out) :
    (∀ {k c}, s'.pairing.completed.lookup k = some c →
        s.pairing.completed.lookup k = some c ∧ t.saved = false) ∨
      ∃ request result a, t = .pairCommit request result ∧
        s.pairing.commit request.sessionId request.clientConfirmation result env.r =
          (s'.pairing, a) := by
  cases hm : h.pairingMoves with
  | within hw hsaved => exact .inl fun hk => ⟨hw.completed hk, hsaved⟩
  | started hok =>
    obtain ⟨shared, -, hp, -⟩ := PairingCode.startForSource_ok hok
    refine .inl fun hk => ?_
    rw [hp] at hk
    exact ⟨(PairingCode.completed_pruneSessions.mp hk).1, rfl⟩
  | committed hcom => exact .inr ⟨_, _, _, rfl, hcom⟩
  | installed =>
    refine .inl fun hk => ?_
    obtain ⟨created, heq⟩ := (hg.installs ht).fresh
    rw [heq] at hk
    cases hk

theorem Confirmed.commit {p p' : PairingCode} {request : PairRequest}
    (hc : Confirmed C context p request result)
    (h : p.commit request.sessionId request.clientConfirmation result r = (p', a))
    (hr : seconds 301 ≤ r.last) :
    ∃ k : SessionId, request.sessionId = k.val ∧ a = .ok () ∧ ∀ {j c},
      p'.completed.lookup j = some c ↔
      j = k ∧ c = ⟨request.clientConfirmation, result, r.first⟩ := by
  obtain ⟨k, e, hk, he, -⟩ := hc
  rw [hk, PairingCode.commit_pending (by simp [he]), if_pos hr] at h
  obtain ⟨rfl, rfl⟩ := Prod.mk.inj h
  refine ⟨k, hk, rfl, fun {j c} => ?_⟩
  rw [PairingCode.committed, AList.lookup_insert']
  by_cases hj : j = k
  · simp [hj, eq_comm]
  · simp [hj]

theorem Truthful.advance {id : Nat} (hg : Grounded C host name s)
    (hi : Truthful C ⟨name, hostVersion, protocolVersion, host.toText⟩ s) (ht : s.tasks id = some t)
    (hf : s.free t.awaits) (hc : s.clock ≤ env.r.first)
    (ha : AppState.Advance C (s.tick env) env id t s' out)
    (hlate : ∀ request result, t = .pairCommit request result → seconds 301 ≤ env.r.last) :
    (∀ {k k' c c'}, s'.pairing.completed.lookup k = some c →
      s'.pairing.completed.lookup k' = some c' → k = k') ∧
    ∀ {k c}, s'.pairing.completed.lookup k = some c →
      Issued C ⟨name, hostVersion, protocolVersion, host.toText⟩ c.result ∧
      (Committing s' ∨ s'.identity.credential = some c.result.credential) ∧ Spent s' := by
  obtain ⟨-, hcred⟩ := ha.credential hi.stored (by
    rintro generated updated rfl
    exact (hg.installs ht).stored)
  rcases ha.completed_cases hg ht with hsub | ⟨request, result, a, rfl, hcom⟩
  · refine ⟨fun hk hk' => hi.single (hsub hk).1 (hsub hk').1, fun {k c} hk => ?_⟩
    obtain ⟨hk, hsaved⟩ := hsub hk
    refine ⟨hi.issued hk, ?_, ?_⟩
    · rcases hi.current hk with hcom | heq
      · exact .inl (hcom.advance ht hsaved ha)
      · rcases hcred with hsame | ⟨request, result, -, htask⟩
        · exact .inr (hsame.trans heq)
        · exact .inl ⟨_, _, _, htask⟩
    · refine (hi.spent hk).advance hg ht hf hc ha hlate ?_
      rintro generated updated rfl
      cases hsaved
  · have hconf := hg.tasks ht rfl
    obtain ⟨k, hk, rfl, hlook⟩ := hconf.commit hcom (hlate _ _ rfl)
    refine ⟨fun hj hj' => ?_, fun {j c} hj => ?_⟩
    · rw [(hlook.mp hj).1, (hlook.mp hj').1]
    · obtain ⟨rfl, rfl⟩ := hlook.mp hj
      refine ⟨?_, .inr ?_, .inr ?_⟩
      · obtain ⟨_, e, -, -, -, hissue⟩ := hconf
        exact ⟨e, hissue⟩
      · rcases hcred with hsame | ⟨_, _, ⟨⟩, -⟩
        exact hsame.trans (hi.committing ht)
      · rw [ha.clocks.1]
        exact commit_spends hconf hcom (hlate _ _ rfl)

theorem Truthful.repeating_next (hg : Grounded C host name s) (hi : Truthful C context s)
    (h : HostStep C s i s' out) {j : Nat} (hj : s'.tasks j = some (.pairRepeat request result)) :
    ∃ (k : SessionId) (c : CompletedPairing), request.sessionId = k.val ∧
      s'.pairing.completed.lookup k = some c ∧ c.confirmation = request.clientConfirmation ∧
      c.result = result := by
  rcases h.task_cases hg.locks hj with ⟨hj, hu⟩ | hinit | ⟨env, u, -, hu, hf, -, -, ha⟩
  · rw [hu.pairing rfl]
    exact hi.repeating hj
  · cases hinit
  · cases ha.enters hj with
    | serving h => cases h
    | pairRepeat hcomp hfin =>
      have hn := hg.not_committing hu hf (.inl rfl) (by simp)
      have hapart : ∀ k c, s.pairing.completed.lookup k = some c → s.pairing.pending.lookup k =
          none :=
        fun k _ hlook => ((hi.spent hlook).expired hn).1 k
      obtain ⟨hp', k, c, hk, hlook, hconf, hres⟩ := PairingCode.finish_repeated hfin hcomp hapart
      exact ⟨k, c, hk, hp' ▸ hlook, hconf, hres⟩

theorem Truthful.next (hg : Grounded C host name s)
    (hi : Truthful C ⟨name, hostVersion, protocolVersion, host.toText⟩ s)
    (h : HostStep C s i s' out) (hlate : commitsLate s i = true) :
    Truthful C ⟨name, hostVersion, protocolVersion, host.toText⟩ s' := by
  have hrep {j : Nat} {request result} (hj : s'.tasks j = some (.pairRepeat request result)) :=
    hi.repeating_next hg h hj
  have hcom {j : Nat} {request result} (hj : s'.tasks j = some (.pairCommit request result)) :
      s'.identity.credential = some result.credential := by
    rcases h.task_cases hg.locks hj with ⟨hj, hu⟩ | hinit | ⟨env, u, -, -, -, -, -, ha⟩
    · rw [(hu.identity rfl).1]
      exact hi.committing hj
    · cases hinit
    · cases ha.enters hj with
      | serving h => cases h
      | pairCommit hidentity =>
        rw [hidentity]
        rfl
  cases h with
  | answered => exact ⟨hi.stored, hcom, hrep, hi.single, hi.issued, hi.current, hi.spent⟩
  | spawned =>
    exact ⟨hi.stored, hcom, hrep, hi.single, hi.issued,
      fun hk => (hi.current hk).imp_left (·.spawn hg.locks),
      fun hk => (hi.spent hk).imp_left (·.spawn hg.locks)⟩
  | @advanced id t env _ _ ht hf _ hc ha =>
    obtain ⟨hst, -⟩ := ha.credential hi.stored (by
      rintro generated updated rfl
      exact (hg.installs ht).stored)
    obtain ⟨hsingle, hrest⟩ := hi.advance hg ht hf hc ha (by
      rintro request result rfl
      simpa [commitsLate, ht] using hlate)
    exact ⟨hst, hcom, hrep, hsingle, fun hk => (hrest hk).1, fun hk => (hrest hk).2.1,
      fun hk => (hrest hk).2.2⟩
  | cancelled ht hsaved =>
    exact ⟨hi.stored, hcom, hrep, hi.single, hi.issued,
      fun hk => (hi.current hk).imp_left (·.drop ht hsaved),
      fun hk => (hi.spent hk).imp_left (·.drop ht hsaved)⟩
  | restarted hb =>
    obtain ⟨p, hp, rfl⟩ := boot_eq_some hb
    obtain ⟨created, hfresh⟩ := startPairing_fresh hp
    have hempty {k} : p.completed.lookup k = none := by
      rw [hfresh]
      rfl
    exact ⟨rfl, hcom, hrep, by simp [hempty], by simp [hempty], by simp [hempty], by simp [hempty]⟩

theorem Truthful.boot {stored : HostIdentity}
    (h : AppState.boot hostname stored nextTask wall env = some s) :
    Truthful C context s := by
  obtain ⟨p, hp, rfl⟩ := boot_eq_some h
  obtain ⟨created, hfresh⟩ := startPairing_fresh hp
  have hempty {k} : p.completed.lookup k = none := by
    rw [hfresh]
    rfl
  exact ⟨rfl, by rintro _ _ _ ⟨⟩, by rintro _ _ _ ⟨⟩, by simp [hempty], by simp [hempty],
    by simp [hempty], by simp [hempty]⟩

-- ---------------------------------------------------------------------------
-- The record of a completed session
-- ---------------------------------------------------------------------------

/-- The record of a completed session, from its commit on: it stays until it is
past its lifetime. -/
structure Settled (k : SessionId) (c : CompletedPairing) (s : AppState) : Prop where
  pending : ∀ j, s.pairing.pending.lookup j = none
  expired : pairingLifetime < elapsed s.pairing.created s.clock
  record : s.pairing.completed.lookup k = some c ∨ pairingLifetime < elapsed c.created s.clock
  only : ∀ {j c'}, s.pairing.completed.lookup j = some c' → j = k ∧ c' = c

theorem AppState.Advance.completed {id : Nat} (h : AppState.Advance C s env id t s' out)
    (ho : .completed j request result response ∈ out) :
    j = id ∧ out = [.completed id request result response] ∧
      response = s.pairingResponse C request.sessionId result ∧ s'.identity = s.identity ∧
      s'.stored = s.stored ∧
      (t = .pairRepeat request result ∧ s'.pairing = s.pairing ∨ t = .pairCommit request result ∧
        s.pairing.commit request.sessionId request.clientConfirmation result env.r =
          (s'.pairing, .ok ())) := by
  cases h with
  | statusVerified _ h | versionKnown h | versionSet h => cases h <;> simp at ho
  | nonceSaved _ _ h => cases h <;> simp at ho
  | repeated =>
    obtain ⟨rfl, rfl, rfl, rfl⟩ : j = id ∧ request = _ ∧ result = _ ∧ response = _ := by
      simpa using ho
    exact ⟨rfl, rfl, rfl, rfl, rfl, .inl ⟨rfl, rfl⟩⟩
  | committed hcom =>
    obtain ⟨rfl, rfl, rfl, rfl⟩ : j = id ∧ request = _ ∧ result = _ ∧ response = _ := by
      simpa using ho
    exact ⟨rfl, rfl, rfl, rfl, rfl, .inr ⟨rfl, hcom⟩⟩
  | _ => simp at ho

theorem Truthful.settled {id : Nat} (hg : Grounded C host name s)
    (hi : Truthful C ⟨name, hostVersion, protocolVersion, host.toText⟩ s) (ht : s.tasks id = some t)
    (hf : s.free t.awaits) (hc : s.clock ≤ env.r.first)
    (ha : AppState.Advance C (s.tick env) env id t s' out)
    (hlate : ∀ request result, t = .pairCommit request result → seconds 301 ≤ env.r.last)
    (ho : .completed j request result response ∈ out) :
    ∃ (k : SessionId) (c : CompletedPairing), request.sessionId = k.val ∧
      s'.pairing.completed.lookup k = some c ∧ c.confirmation = request.clientConfirmation ∧
      c.result = result ∧ s'.identity.credential = some result.credential ∧ Settled k c s' := by
  obtain ⟨-, -, -, hident, -, ⟨rfl, hpairing⟩ | ⟨rfl, hcom⟩⟩ := ha.completed ho
  · obtain ⟨k, c, hk, hlook, hconf, rfl⟩ := hi.repeating ht
    have hn := hg.not_committing ht hf (.inr rfl) (by simp)
    obtain ⟨hpend, hover⟩ := (hi.spent hlook).expired hn
    have hlook' : s'.pairing.completed.lookup k = some c := by
      rw [hpairing]
      exact hlook
    refine ⟨k, c, hk, hlook', hconf, rfl, ?_, ⟨?_, ?_, .inl hlook', fun {j c'} hj => ?_⟩⟩
    · rw [hident]
      exact (hi.current hlook).resolve_left hn
    · rw [hpairing]
      exact hpend
    · rw [hpairing, ha.clocks.1]
      exact Nat.lt_of_lt_of_le hover (elapsed_mono _ (hc.trans env.r.first_le_last))
    · have hj : s.pairing.completed.lookup j = some c' := hpairing ▸ hj
      obtain rfl := hi.single hj hlook
      exact ⟨rfl, Option.some.inj (hj.symm.trans hlook)⟩
  · have hconf := hg.tasks ht rfl
    obtain ⟨k, hk, -, hlook⟩ := hconf.commit hcom (hlate _ _ rfl)
    obtain ⟨hpend, hover⟩ := commit_spends hconf hcom (hlate _ _ rfl)
    refine ⟨k, _, hk, hlook.mpr ⟨rfl, rfl⟩, rfl, rfl, ?_,
      ⟨hpend, ?_, .inl (hlook.mpr ⟨rfl, rfl⟩), hlook.mp⟩⟩
    · rw [hident]
      exact hi.committing ht
    · rw [ha.clocks.1]
      exact hover

def Output.renews : Output → Bool
  | .generated .. | .restarted => true
  | _ => false

theorem Settled.congr (hs : Settled k c s) (hp : s'.pairing = s.pairing) (hc : s'.clock = s.clock) :
    Settled k c s' :=
  ⟨hp ▸ hs.pending, hp ▸ hc ▸ hs.expired, hp ▸ hc ▸ hs.record, fun hj => hs.only (hp ▸ hj)⟩

theorem Settled.next (hg : Grounded C host name s) (hs : Settled k c s) (h : HostStep C s i s' out)
    (hcalm : ∀ o ∈ out, o.renews = false) : Settled k c s' := by
  cases h with
  | answered | spawned | cancelled => exact hs.congr rfl rfl
  | @advanced id t env _ _ ht hf _ hc ha =>
    have hlast : s'.clock = env.r.last := ha.clocks.1
    have hle : s.clock ≤ env.r.last := hc.trans env.r.first_le_last
    cases ha.pairingMoves with
    | within hw =>
      refine ⟨fun j => ?_, ?_, ?_, fun hj => hs.only (hw.completed hj)⟩
      · cases hj : s'.pairing.pending.lookup j with
        | none => rfl
        | some e => cases (hw.pending hj).symm.trans (hs.pending j)
      · rw [hw.created, hlast]
        exact Nat.lt_of_lt_of_le hs.expired (elapsed_mono _ hle)
      · rw [hlast]
        rcases hs.record with hlook | hold
        · exact hw.kept hlook
        · exact .inr (Nat.lt_of_lt_of_le hold (elapsed_mono _ hle))
    | started hok =>
      obtain ⟨_, -, -, -, hage, -⟩ := PairingCode.startForSource_ok hok
      exact absurd hage (Nat.not_le.mpr (Nat.lt_of_lt_of_le hs.expired (elapsed_mono _ hc)))
    | committed =>
      obtain ⟨j, e, -, he, -⟩ := hg.tasks ht rfl
      rw [hs.pending j] at he
      cases he
    | installed => cases hcalm _ (List.mem_singleton.mpr rfl)
  | restarted => cases hcalm _ (List.mem_singleton.mpr rfl)

/-- `finish` on a settled session: the record's result for its confirmation,
and nothing for another. -/
theorem Settled.finish (C : Crates) (confirmation : Bytes) (context : CredentialContext)
    (credential : Credential) (nonce : Block 12) (hs : Settled k c s) (hclock : s.clock ≤ r.last) :
    ∃ answer, s.pairing.finish C k.val confirmation context r credential nonce =
        (s.pairing.pruneSessions r, answer) ∧
      (answer = .error .invalid ∧ (c.confirmation = confirmation → c.created +
        pairingLifetime < r.last) ∨
        answer = .ok c.result ∧ c.confirmation = confirmation ∧
          s.pairing.isCompleted k.val = true) := by
  cases hlook : (s.pairing.pruneSessions r).completed.lookup k with
  | some c' =>
    have hbefore := (PairingCode.completed_pruneSessions.mp hlook).1
    obtain ⟨-, rfl⟩ := hs.only hbefore
    refine ⟨_, PairingCode.finish_completed hlook, ?_⟩
    by_cases heq : c'.confirmation = confirmation
    · exact .inr ⟨if_pos heq, heq, by simp [PairingCode.isCompleted_val, hbefore]⟩
    · exact .inl ⟨if_neg heq, fun h => absurd h heq⟩
  | none =>
    have hch : s.pairing.checking k.val r = none := by
      cases hch : s.pairing.checking k.val r with
      | none => rfl
      | some e =>
        obtain ⟨j, -, -, hpend, -⟩ := PairingCode.checking_eq_some.mp hch
        cases (PairingCode.pending_pruneSessions.mp hpend).1.symm.trans (hs.pending j)
    obtain ⟨hstate, hanswer⟩ := PairingCode.finish_not_checking hch
      (Prod.eta (s.pairing.finish C k.val confirmation context r credential nonce)).symm
    refine ⟨_, Prod.ext (hstate.resolve_left (by simp)) rfl, .inl ⟨?_, fun _ => ?_⟩⟩
    · refine hanswer.resolve_right ?_
      rintro ⟨j, c', hj, -, hc', -⟩
      obtain rfl := Subtype.ext hj
      cases hc'.symm.trans hlook
    · have hold : pairingLifetime < elapsed c.created r.last := by
        rcases hs.record with hrec | hold
        · refine ((PairingCode.pruneSessions_within _).kept hrec).resolve_left fun hk => ?_
          cases hk.symm.trans hlook
        · exact Nat.lt_of_lt_of_le hold (elapsed_mono _ hclock)
      unfold elapsed at hold
      omega

theorem Settled.pruneSessions (hs : Settled k c s) (hage : r.last ≤ c.created + pairingLifetime) :
    s.pairing.pruneSessions r = s.pairing := by
  have hp : s.pairing.pending.retain
    (fun s e => elapsed e.created (r.pendingAt s) ≤ pairingLifetime) =
      s.pairing.pending := AList.retain_eq_self fun j e he => by cases he.symm.trans (hs.pending j)
  have hc : s.pairing.completed.retain
    (fun s e => elapsed e.created (r.completedAt s) ≤ pairingLifetime) =
      s.pairing.completed := AList.retain_eq_self fun j c' hj => by
    obtain ⟨-, rfl⟩ := hs.only hj
    have := (r.le_last j).2
    unfold elapsed
    rw [decide_eq_true_eq]
    omega
  unfold PairingCode.pruneSessions
  rw [hp, hc]

-- ---------------------------------------------------------------------------
-- Repetitions
-- ---------------------------------------------------------------------------

abbrev HostEvent := Event AppState Input Output

def Finishes (e : HostEvent) (id : Nat) (request : PairRequest) (r : Readings) : Prop :=
  ∃ env hostId, e.input = .advance id env ∧ env.r = r ∧
    e.before.tasks id = some (.pairFinish request hostId)

/-- A completion that is answered with a credential gives the host's own, in memory
and in the store, and leaves a record of the session. No other answer to a
completion has status 200. -/
structure SaysTrue (C : Crates) (e : HostEvent) : Prop where
  completed : ∀ {id request result response}, .completed id request result response ∈ e.seen →
    e.after.identity.credential = some result.credential ∧
    e.after.stored.credential = some result.credential ∧
    Issued C (e.after.credentialContext e.after.identity.hostId.toText) result ∧
    response = e.after.pairingResponse C request.sessionId result ∧
    ∃ (k : SessionId) (c : CompletedPairing), request.sessionId = k.val ∧
      e.after.pairing.completed.lookup k = some c ∧ c.confirmation = request.clientConfirmation ∧
      c.result = result
  answered : ∀ {id env task request o response}, e.input = .advance id env →
    e.before.tasks id = some task →
    task.completes = some request → o ∈ e.seen → o.response = some response →
    response.status = 200 → ∃ result, o = .completed id request result response
  received : ∀ {request o response}, e.input = .request request → o ∈ e.seen →
    o.response = some response → response.status ≠ 200

/-- After an answer with a credential, `again` is a completion of the same
session, with neither a new code nor a restart in between. `c` is the record of
the session. -/
structure Repetition (tr : List HostEvent) (first again : HostEvent) (future : List HostEvent)
    (c : CompletedPairing) (response : Response) (id : Nat) (request : PairRequest) (r : Readings) :
    Prop where
  split : ∃ past mid, tr = past ++ first :: (mid ++ again :: future) ∧
    ∀ e ∈ mid, ∀ o ∈ e.seen, o.renews = false
  finishes : Finishes again id request r
  answered : ∃ (k : SessionId) (id' : Nat) (request' : PairRequest),
    .completed id' request' c.result response ∈ first.seen ∧ request'.sessionId = k.val ∧
    request.sessionId = k.val ∧ first.after.pairing.completed.lookup k = some c

/-- An identical completion within the lifetime of the commit gets the same
answer, and nothing is saved for it. -/
def RepeatsAlike (tr : List HostEvent) : Prop :=
  ∀ {first again future c response id request r},
    Repetition tr first again future c response id request r →
    request.clientConfirmation = c.confirmation → r.last ≤ c.created + pairingLifetime →
    again.seen = [] ∧ ∀ e ∈ future, ∀ env, e.input = .advance id env →
      e.seen = [.completed id request c.result response]

/-- A completion with another confirmation is refused. It changes nothing, but
for a record that is past its lifetime. -/
def RefusesOthers (C : Crates) (tr : List HostEvent) : Prop :=
  ∀ {first again future c response id request r},
    Repetition tr first again future c response id request r →
    request.clientConfirmation ≠ c.confirmation →
    again.seen = [.answered id (pairingFailed C .invalid)] ∧
    again.after.identity = again.before.identity ∧ again.after.stored = again.before.stored ∧
    again.after.pairing.Within r again.before.pairing ∧
    (r.last ≤ c.created + pairingLifetime → again.after.pairing = again.before.pairing)

theorem AppState.Advance.finish_cases {id : Nat}
    (h : AppState.Advance C s env id (.pairFinish request hostId) s' out) :
    let result := s.pairing.finish C request.sessionId request.clientConfirmation
      (s.credentialContext hostId) env.r env.credential env.nonce
    (∃ e, result.2 = .error e ∧ s' = ({ s with pairing := result.1 }.finish id) ∧
      out = [.answered id (pairingFailed C e)]) ∨
    ∃ x, result.2 = .ok x ∧ out = [] ∧
      s'.tasks id = some (if s.pairing.isCompleted request.sessionId then .pairRepeat request x
        else .pairSave request x) := by
  intro result
  cases h with
  | answered hp => cases hp
  | notFinished hf =>
    rw [show result = _ from hf]
    exact .inl ⟨_, rfl, rfl, rfl⟩
  | finished hf =>
    rw [show result = _ from hf]
    exact .inr ⟨_, rfl, rfl, if_pos rfl⟩

theorem HostStep.advance_inv {id : Nat} (h : HostStep C s (.advance id env) s' out) :
    ∃ t, s.tasks id = some t ∧ s.free t.awaits ∧ s.clock ≤ env.r.first ∧
      AppState.Advance C (s.tick env) env id t s' out := by
  cases h with
  | advanced ht hf _ hc ha => exact ⟨_, ht, hf, hc, ha⟩

theorem Settled.repeats {id : Nat} {k : SessionId} (hs : Settled k c s)
    (h : HostStep C s (.advance id env) s' out)
    (ht : s.tasks id = some (.pairFinish request hostId)) (hk : request.sessionId = k.val)
    (hconf : request.clientConfirmation = c.confirmation)
    (hage : env.r.last ≤ c.created + pairingLifetime) :
    out = [] ∧ s'.tasks id = some (.pairRepeat request c.result) := by
  obtain ⟨t, ht', hf, hc, ha⟩ := h.advance_inv
  cases ht.symm.trans ht'
  obtain ⟨answer, hfin, ⟨-, hold⟩ | ⟨rfl, -, hcomp⟩⟩ := hs.finish C request.clientConfirmation
    (s.credentialContext hostId) env.credential env.nonce (hc.trans env.r.first_le_last)
  · exact absurd (hold hconf.symm) (Nat.not_lt.mpr hage)
  · rw [← hk] at hfin hcomp
    rcases ha.finish_cases with ⟨e, he, -⟩ | ⟨x, hx, hout, htask⟩
    · cases he.symm.trans (congrArg Prod.snd hfin)
    · cases hx.symm.trans (congrArg Prod.snd hfin)
      refine ⟨hout, htask.trans ?_⟩
      rw [show (s.tick env).pairing = s.pairing from rfl, hcomp]
      rfl

theorem Settled.refuses {id : Nat} {k : SessionId} (hs : Settled k c s)
    (h : HostStep C s (.advance id env) s' out)
    (ht : s.tasks id = some (.pairFinish request hostId)) (hk : request.sessionId = k.val)
    (hconf : request.clientConfirmation ≠ c.confirmation) :
    out = [.answered id (pairingFailed C .invalid)] ∧ s'.identity = s.identity ∧
      s'.stored = s.stored ∧ s'.pairing.Within env.r s.pairing ∧
      (env.r.last ≤ c.created + pairingLifetime → s'.pairing = s.pairing) := by
  obtain ⟨t, ht', hf, hc, ha⟩ := h.advance_inv
  cases ht.symm.trans ht'
  obtain ⟨answer, hfin, ⟨rfl, -⟩ | ⟨-, heq, -⟩⟩ := hs.finish C request.clientConfirmation
    (s.credentialContext hostId) env.credential env.nonce (hc.trans env.r.first_le_last)
  · rw [← hk] at hfin
    rcases ha.finish_cases with ⟨e, he, rfl, rfl⟩ | ⟨x, hx, -⟩
    · cases he.symm.trans (congrArg Prod.snd hfin)
      have hp := congrArg Prod.fst hfin
      refine ⟨rfl, rfl, rfl, ?_, fun hage => ?_⟩
      · exact PairingCode.finish_within (Prod.eta _).symm
      · exact hp.trans (hs.pruneSessions hage)
    · cases hx.symm.trans (congrArg Prod.snd hfin)
  · exact absurd heq.symm hconf

theorem HostStep.repeating {j : Nat} (hl : Locks s)
    (hj : s.tasks j = some (.pairRepeat request result) ∨ s.tasks j = none ∧ j < s.nextTask)
    (h : HostStep C s i s' out) :
    (s'.tasks j = some (.pairRepeat request result) ∨ s'.tasks j = none ∧ j < s'.nextTask) ∧
      ∀ env, i = .advance j env →
        out = [.completed j request result (s.pairingResponse C request.sessionId result)] := by
  have hborn : j < s.nextTask := by
    rcases hj with hj | ⟨-, hj⟩
    · refine Nat.lt_of_not_le fun hle => ?_
      cases (hl.unborn j hle).symm.trans hj
    · exact hj
  cases h with
  | answered => exact ⟨hj.imp_right fun h => ⟨h.1, Nat.lt_succ_of_lt h.2⟩, by simp⟩
  | spawned =>
    have hne : j ≠ s.nextTask := Nat.ne_of_lt hborn
    refine ⟨?_, by simp⟩
    simp only [AppState.goto, hne, ↓reduceIte]
    exact hj.imp_right fun h => ⟨h.1, Nat.lt_succ_of_lt h.2⟩
  | @advanced id t env _ _ ht _ _ _ ha =>
    obtain ⟨t', hm⟩ := ha.moves
    by_cases hne : j = id
    · subst hne
      rcases hj with hj | ⟨hj, -⟩
      · cases ht.symm.trans hj
        cases ha with
        | answered hp => cases hp
        | repeated => exact ⟨.inr ⟨if_pos rfl, hborn⟩, fun _ _ => rfl⟩
      · cases ht.symm.trans hj
    · refine ⟨?_, fun env h => ?_⟩
      · rw [hm.tasks, hm.nextTask]
        simpa [hne, AppState.tick] using hj
      · exact absurd (Input.advance.inj h).1.symm hne
  | @cancelled id =>
    refine ⟨?_, by simp⟩
    by_cases hne : j = id
    · exact .inr ⟨if_pos hne, hborn⟩
    · simpa [AppState.dropped, AppState.finish, hne] using hj
  | restarted hb =>
    obtain ⟨p, -, rfl⟩ := boot_eq_some hb
    exact ⟨.inr ⟨rfl, hborn⟩, by simp⟩

theorem Identified.pairingResponse (hi : Identified host name s) (hi' : Identified host name s') :
    s.pairingResponse C sessionId result = s'.pairingResponse C sessionId result := by
  unfold AppState.pairingResponse
  rw [hi.hostname, hi.identity, hi'.hostname, hi'.identity]

theorem PairTasks.not_expectFailed {id j : Nat} (hp : PairTasks C context s)
    (ht : s.tasks id = some t)
    (ha : AppState.Advance C (s.tick env) env id t s' out) : .expectFailed j ∉ out := by
  intro ho
  cases ha with
  | statusVerified _ h | versionKnown h | versionSet h => cases h <;> simp at ho
  | nonceSaved _ _ h => cases h <;> simp at ho
  | notCommitted hcom =>
    obtain ⟨k, e, hk, he, -⟩ := hp ht rfl
    rw [hk, show (s.tick env).pairing = s.pairing from rfl,
      PairingCode.commit_pending (by simp [he])] at hcom
    split at hcom <;> cases hcom
  | _ => simp at ho

-- ---------------------------------------------------------------------------
-- Runs
-- ---------------------------------------------------------------------------

def Sound (C : Crates) (host : Uuid) (name : Text) (s : AppState) : Prop :=
  Grounded C host name s ∧ Truthful C ⟨name, hostVersion, protocolVersion, host.toText⟩ s

theorem Sound.next (hi : Sound C host name s) (h : HostStep C s i s' out)
    (hlate : commitsLate s i = true) : Sound C host name s' :=
  ⟨hi.1.next h, hi.2.next hi.1 h hlate⟩

theorem commitsLate_commit {id : Nat} (hlate : commitsLate s (.advance id env) = true)
    (ht : s.tasks id = some t) :
    ∀ request result, t = .pairCommit request result → seconds 301 ≤ env.r.last := by
  rintro request result rfl
  simpa [commitsLate, ht] using hlate

theorem Sound.completed {id : Nat} (hi : Sound C host name s) (h : HostStep C s i s' out)
    (hlate : commitsLate s i = true) (ho : .completed id request result response ∈ out) :
    ∃ (k : SessionId) (c : CompletedPairing), request.sessionId = k.val ∧
      s'.pairing.completed.lookup k = some c ∧ c.confirmation = request.clientConfirmation ∧
      c.result = result ∧ s'.identity.credential = some result.credential ∧
      response = s'.pairingResponse C request.sessionId result ∧ Settled k c s' := by
  obtain ⟨hg, ht⟩ := hi
  have hid' := (hg.next h).identified
  cases h with
  | answered => simp at ho
  | spawned | cancelled => cases ho
  | advanced htask hf _ hc ha =>
    obtain ⟨k, c, hk, hlook, hconf, hres, hcred, hs⟩ :=
      ht.settled hg htask hf hc ha (commitsLate_commit hlate htask) ho
    obtain ⟨-, -, hresp, -⟩ := ha.completed ho
    exact ⟨k, c, hk, hlook, hconf, hres, hcred,
      hresp.trans (hg.identified.pairingResponse hid'), hs⟩
  | restarted => simp at ho

theorem AppState.Advance.completes {id j : Nat} (h : AppState.Advance C s env id t s' out)
    (ho : .completed j request result response ∈ out) : j = id ∧ t.completes = some request := by
  cases h with
  | repeated | committed =>
    cases List.mem_singleton.mp ho
    exact ⟨rfl, rfl⟩
  | statusVerified _ h | versionKnown h | versionSet h | nonceSaved _ _ h => cases h <;> simp at ho
  | _ => simp at ho

theorem Sound.saysTrue (hi : Sound C host name s) (hstep : hostStep C s i = some (s', out))
    (hlate : commitsLate s i = true) : SaysTrue C ⟨s, i, s', out⟩ where
  completed ho := by
    have h := hostStep_iff_cases hstep
    obtain ⟨k, c, hk, hlook, hconf, rfl, hcred, hresp, -⟩ := Sound.completed hi h hlate ho
    obtain ⟨hg', ht'⟩ := hi.next h hlate
    refine ⟨hcred, ht'.stored.trans hcred, ?_, hresp, k, c, hk, hlook, hconf, rfl⟩
    have := ht'.issued hlook
    rwa [← hg'.identified.hostname, ← hg'.identified.identity] at this
  answered := by
    rintro id env task request o response rfl ht hcompletes ho hresponse hstatus
    rcases Output.response_eq_some hresponse with ⟨j, rfl⟩ | ⟨j, request', result, rfl⟩
    · exact absurd hstatus (completion_refusals hstep ht hcompletes j response ho).status
    · obtain ⟨t, ht', -, -, ha⟩ := (hostStep_iff_cases hstep).advance_inv
      cases ht.symm.trans ht'
      obtain ⟨rfl, hcompletes'⟩ := ha.completes ho
      cases hcompletes.symm.trans hcompletes'
      exact ⟨result, rfl⟩
  received := by
    rintro request o response rfl ho hresponse
    rcases Output.response_eq_some hresponse with ⟨j, rfl⟩ | ⟨j, request', result, rfl⟩
    · exact (request_refusals hstep j response ho).status
    · cases hostStep_iff_cases hstep <;> simp at ho

theorem Sound.not_expectFailed (hi : Sound C host name s) (h : HostStep C s i s' out) (id : Nat) :
    .expectFailed id ∉ out := by
  intro ho
  cases h with
  | answered => simp at ho
  | spawned | cancelled => cases ho
  | advanced htask _ _ _ ha => exact PairTasks.not_expectFailed hi.1.tasks htask ha ho
  | restarted => simp at ho

theorem Settled.run (h : Run (logged (hostStep C)) (fun s i => commitsLate s i = true) s tr s')
    (hi : Sound C host name s) (hs : Settled k c s)
    (hcalm : ∀ e ∈ tr, ∀ o ∈ e.seen, o.renews = false) : Sound C host name s' ∧ Settled k c s' := by
  induction h with
  | refl => exact ⟨hi, hs⟩
  | next _ hp hlog ih =>
    obtain ⟨out, hstep, rfl⟩ := logged_eq_some hlog
    obtain ⟨hi, hs⟩ := ih fun e he => hcalm e (List.mem_append_left _ he)
    have hstep := hostStep_iff_cases hstep
    have hcalm := hcalm _ (List.mem_append_right _ (List.mem_singleton.mpr rfl))
    exact ⟨hi.next hstep hp, hs.next hi.1 hstep hcalm⟩

theorem Repetition.settled {id : Nat}
    (hr : Repetition tr first again future c response id request r)
    (h : Run (logged (hostStep C)) (fun s i => commitsLate s i = true) start tr s)
    (hi : Sound C host name start) :
    ∃ (k : SessionId) (env : Env) (hostId : Text), request.sessionId = k.val ∧ env.r = r ∧
      again.before.tasks id = some (.pairFinish request hostId) ∧ Settled k c again.before ∧
      Sound C host name again.before ∧ HostStep C again.before (.advance id env) again.after
        again.seen ∧
      response = again.before.pairingResponse C request.sessionId c.result ∧
      Run (logged (hostStep C)) (fun s i => commitsLate s i = true) again.after future s := by
  obtain ⟨⟨past, mid, rfl, hcalm⟩, ⟨env, hostId, hin, hr, ht⟩, k, id', request',
    ho, hk', hk, hlook⟩ := hr
  obtain ⟨hpast, hlate, hstep, hrest⟩ := h.at_logged
  obtain ⟨hmid, -, hagain, hfuture⟩ := hrest.at_logged
  have hi₁ : Sound C host name first.before := (hpast.forall_logged (Q := fun _ => True) hi
    fun hi hlate hs => ⟨hi.next (hostStep_iff_cases hs) hlate, trivial⟩).1
  have hfirst := hostStep_iff_cases hstep
  obtain ⟨j, c', hj, hlook', -, -, -, hresp, hs⟩ := hi₁.completed hfirst hlate ho
  obtain rfl : k = j := Subtype.ext (hk'.symm.trans hj)
  obtain rfl : c = c' := Option.some.inj (hlook.symm.trans hlook')
  have hi₂ := hi₁.next hfirst hlate
  obtain ⟨hi₃, hs⟩ := hs.run hmid hi₂ hcalm
  rw [hin] at hagain
  refine ⟨k, env, hostId, hk, hr, ht, hs, hi₃, hostStep_iff_cases hagain, ?_, hfuture⟩
  rw [hresp, hk, hk']
  exact hi₂.1.identified.pairingResponse hi₃.1.identified

/-- In every run in which no commit underflows the clock, every completion that
is answered with 200 is answered with the host's own credential, its repetitions
are answered alike, others are refused, and the `expect` never fires. -/
theorem completion_truthful_and_idempotent
    (hboot : AppState.boot hostname stored nextTask wall env = some start)
    (h : Run (logged (hostStep C)) (fun s i => commitsLate s i = true) start tr s) :
    (∀ e ∈ tr, SaysTrue C e) ∧ RepeatsAlike tr ∧ RefusesOthers C tr ∧
      ∀ e ∈ tr, ∀ id, .expectFailed id ∉ e.seen := by
  have hi : Sound C stored.hostId hostname start := ⟨.boot hboot, .boot hboot⟩
  have hall := (h.forall_logged (Q := fun e => SaysTrue C e ∧ ∀ id, .expectFailed id ∉ e.seen) hi
    fun hi hlate hs => ⟨hi.next (hostStep_iff_cases hs) hlate, hi.saysTrue hs hlate,
      hi.not_expectFailed (hostStep_iff_cases hs)⟩).2
  refine ⟨fun e he => (hall e he).1, ?_, ?_, fun e he => (hall e he).2⟩
  · intro first again future c response id request r hr hconf hage
    obtain ⟨k, env, hostId, hk, rfl, ht, hs, hi', hstep, hresp, hfuture⟩ := hr.settled h hi
    obtain ⟨hseen, htask⟩ := hs.repeats hstep ht hk hconf hage
    have hg := hi'.1.next hstep
    have hlater := hfuture.forall_logged
      (I := fun s => Grounded C stored.hostId hostname s ∧
        (s.tasks id = some (.pairRepeat request c.result) ∨ s.tasks id = none ∧ id < s.nextTask))
      (Q := fun e => ∀ env, e.input = .advance id env →
        e.seen = [.completed id request c.result response])
      ⟨hg, .inl htask⟩ fun {s i s' out} ⟨hg, hj⟩ _ hs => by
        have hs := hostStep_iff_cases hs
        obtain ⟨hj', hout⟩ := hs.repeating hg.locks hj
        rw [hi'.1.identified.pairingResponse hg.identified] at hresp
        exact ⟨⟨hg.next hs, hj'⟩, fun env heq => hresp ▸ hout env heq⟩
    exact ⟨hseen, hlater.2⟩
  · intro first again future c response id request r hr hconf
    obtain ⟨k, env, hostId, hk, rfl, ht, hs, hi', hstep, -⟩ := hr.settled h hi
    exact hs.refuses hstep ht hk hconf

/-- A completion and its repetition, 400 s after the clock's epoch. -/
theorem repeated_alike_after_400_seconds :
    ∃ tr s, Run (logged (hostStep pairingCrates)) (fun s i => commitsLate s i = true)
        (newStart (seconds 400)) tr s ∧
      tr.countP (fun e => e.seen.any (fun o => o matches .completed ..)) = 2 ∧
      (∀ e ∈ tr, SaysTrue pairingCrates e) ∧ RepeatsAlike tr := by
  obtain ⟨tr, s, hrun, hp⟩ := Run.exists_of_exec (logged (hostStep pairingCrates))
    (fun s i => commitsLate s i = true) (newStart (seconds 400))
    (pairAt 400 0 ++ pairBody (1 :: List.replicate 32 5) :: List.replicate 3 (stepAt 400 [] 2))
    (fun _ tr => tr.countP (fun e => e.seen.any (fun o => o matches .completed ..)) = 2)
      (by decide +kernel)
  obtain ⟨htrue, halike, -⟩ := completion_truthful_and_idempotent (boot_newStart _) hrun
  exact ⟨tr, s, hrun, of_decide_eq_true hp, htrue, halike⟩

/-- At 100 s a session is completed, with a panic in `commit`, while a start of
another one waits for the lock; the completion is repeated, the other session
is started and completed, and the completion is repeated once more. -/
def overtakenCompletion : List Input :=
  pairBody [] :: List.replicate 3 (stepAt 100 [] 0) ++
  pairBody [] :: stepAt 100 [] 1 ::
  pairBody (1 :: List.replicate 32 5) :: List.replicate 4 (stepAt 100 [] 2) ++
  pairBody (1 :: List.replicate 32 5) :: List.replicate 3 (stepAt 100 [] 3) ++
  .advance 1 { Env.sample [] with r := .at (seconds 100), sessionId := repeated 16 2 } ::
  pairBody (2 :: List.replicate 32 5) :: List.replicate 4 (stepAt 100 [] 4) ++
  pairBody (1 :: List.replicate 32 5) :: List.replicate 2 (stepAt 100 [] 5)

/-- Does `again` get no repetition of what `first` answered for the session
`k`, in its time? -/
def notRepeated (k : SessionId) (first again : HostEvent) : Bool :=
  match first.seen, first.after.pairing.completed.lookup k, again.input with
  | [.completed _ request result _], some c, .advance id env =>
    match again.before.tasks id with
    | some (.pairFinish request' _) =>
      result = c.result && request.sessionId = k.val && request'.sessionId = k.val &&
        request'.clientConfirmation = c.confirmation && env.r.last ≤ c.created + pairingLifetime &&
        !again.seen.isEmpty
    | _ => false
  | _, _, _ => false

theorem not_repeatsAlike {first again : HostEvent}
    (hcalm : ∀ e ∈ mid, ∀ o ∈ e.seen, o.renews = false) (h : notRepeated k first again = true) :
    ¬ RepeatsAlike (past ++ first :: (mid ++ [again])) := by
  intro halike
  unfold notRepeated at h
  split at h
  · rename_i id request result response c id' env hseen hlook hin
    split at h
    · rename_i request' hostId ht
      simp only [Bool.and_eq_true, decide_eq_true_eq, Bool.not_eq_true'] at h
      obtain ⟨⟨⟨⟨⟨rfl, hk⟩, hk'⟩, hconf⟩, hage⟩, hnot⟩ := h
      have hrep : Repetition (past ++ first :: (mid ++ [again])) first again [] c response id'
          request' env.r :=
        ⟨⟨past, mid, rfl, hcalm⟩, ⟨env, hostId, hin, rfl, ht⟩,
          ⟨k, id, request, by simp [hseen], hk, hk', hlook⟩⟩
      rw [(halike hrep hconf hage).1] at hnot
      cases hnot
    · cases h
  · cases h

/-- The fifteenth event completes the session `[1; 16]`, eight events renew
nothing, and the last one does not repeat the completion. -/
def endsRefused (tr : List HostEvent) : Bool :=
  match tr.drop 14 with
  | first :: rest => match rest.drop 8 with
    | [again] => (rest.take 8).all (fun e => e.seen.all fun o => !o.renews) &&
        notRepeated (repeated 16 1) first again
    | _ => false
  | [] => false

/-- Another session overtakes a completed one, whose repetition is refused. -/
theorem repetition_refused_after_100_seconds :
    AppState.boot [] newHost 0 0 { Env.sample [1000] with r := .at (seconds 100) } =
      some (newStart (seconds 100)) ∧
    ∃ tr s, Run (logged (hostStep pairingCrates)) (fun _ _ => True) (newStart (seconds 100)) tr s ∧
      ¬ RepeatsAlike tr := by
  obtain ⟨tr, s, hrun, hp⟩ := Run.exists_of_exec (logged (hostStep pairingCrates)) (fun _ _ => True)
    (newStart (seconds 100)) overtakenCompletion (fun _ tr => endsRefused tr) (by decide +kernel)
  refine ⟨boot_newStart _, tr, s, hrun, ?_⟩
  unfold endsRefused at hp
  split at hp
  · rename_i first rest hfirst
    split at hp
    · rename_i again hagain
      simp only [Bool.and_eq_true, List.all_eq_true, Bool.not_eq_true'] at hp
      rw [← List.take_append_drop 14 tr, hfirst, ← List.take_append_drop 8 rest, hagain]
      exact not_repeatsAlike hp.1 hp.2
    · cases hp
  · cases hp

end DeckyMyRig.Host
