import DeckyMyRig.Host.Capacity

/-!
# Sources with failures

The table of failures is held to 256 sources exactly when no session of a new
source fails while the table is full. In any case it holds fewer sources than
the two limits together, since no session of a new source is started any more
once it is full.
-/

namespace DeckyMyRig.Host

open Octets Machine

/-- If the call makes a session of a source without failures fail, there is
room for the source. -/
def PairingCall.HasRoom (C : Crates) (call : PairingCall) : Prop :=
  ∀ sessionId confirmation context r credential nonce e,
    call.op = .finish sessionId confirmation context r credential nonce →
    call.before.checking sessionId r = some e → confirmation ≠ confirmationTag C e →
    call.before.confirmationFailures.lookup e.source = none →
    call.before.confirmationFailures.len < maxFailureSources

theorem failures_len_cases {op : PairingOp} (he : op.exchanges = true)
    (ha : op.apply C p = some (p', answer)) :
    p'.confirmationFailures.len = p.confirmationFailures.len ∧
      PairingCall.HasRoom C ⟨p, op, answer⟩ ∨
      p'.confirmationFailures.len = p.confirmationFailures.len + 1 ∧
        (PairingCall.HasRoom C ⟨p, op, answer⟩ ↔ p.confirmationFailures.len <
          maxFailureSources) := by
  cases op with
  | start =>
    obtain ⟨a, hs, rfl⟩ := PairingOp.apply_start ha
    refine .inl ⟨?_, by rintro _ _ _ _ _ _ _ ⟨⟩⟩
    cases a with
    | error e => obtain rfl | rfl := PairingCode.startForSource_error hs <;> rfl
    | ok started =>
      obtain ⟨shared, -, rfl, -⟩ := PairingCode.startForSource_ok hs
      rfl
  | finish sessionId confirmation context r credential nonce =>
    obtain ⟨a, hf, rfl⟩ := PairingOp.apply_finish ha
    rcases PairingCode.finish_state hf with ⟨hstate, hright⟩ | ⟨s, e, hch, hwrong, -, rfl⟩
    · refine .inl ⟨by rcases hstate with rfl | rfl <;> rfl, ?_⟩
      rintro _ _ _ _ _ _ e ⟨⟩ hch hwrong
      exact absurd (hright e hch) hwrong
    · cases hl : p.confirmationFailures.lookup e.source with
      | some n =>
        refine .inl ⟨AList.len_insert_of_some hl _, ?_⟩
        rintro _ _ _ _ _ _ e' ⟨⟩ hch' - hnew
        obtain rfl : e = e' := Option.some.inj (hch.symm.trans hch')
        rw [hl] at hnew
        cases hnew
      | none =>
        refine .inr ⟨AList.len_insert_of_none hl _, fun hroom => ?_, ?_⟩
        · exact hroom _ _ _ _ _ _ e rfl hch hwrong hl
        · rintro hlt _ _ _ _ _ _ e' ⟨⟩ - - -
          exact hlt
  | commit => cases he
  | regenerate => cases he

-- ---------------------------------------------------------------------------
-- How far the table can grow
-- ---------------------------------------------------------------------------

def PairingCode.newPending (p : PairingCode) : Nat :=
  p.pending.tally fun e => (p.confirmationFailures.lookup e.source).isNone

theorem newPending_insert_le (p : PairingCode) (k : SessionId) (e : PendingPairing) :
    { p with pending := p.pending.insert k e }.newPending ≤
      p.newPending + if (p.confirmationFailures.lookup e.source).isNone then 1 else 0 :=
  AList.tally_insert_le k e

/-- While the table is full, its sources and the open sessions that can still
add one stay below the two limits together. -/
structure Crowded (p : PairingCode) : Prop where
  pending : p.pending.len ≤ maxPendingSessions
  sources : p.confirmationFailures.len < maxFailureSources ∨
    p.confirmationFailures.len + p.newPending < maxFailureSources + maxPendingSessions

theorem crowded_fresh (code : Code) (created : Nat) : Crowded (.fresh code created) :=
  ⟨Nat.zero_le _, .inl (show 0 < 256 by decide)⟩

theorem Crowded.prune (h : Crowded p) : Crowded (p.pruneSessions r) := by
  refine ⟨(p.pending_len_pruneSessions_le).trans h.pending, h.sources.imp_right fun hlt => ?_⟩
  have hle : (p.pruneSessions r).newPending ≤ p.newPending := AList.tally_retain_le _
  have hlen : (p.pruneSessions r).confirmationFailures.len = p.confirmationFailures.len := rfl
  omega

theorem Crowded.start (h : Crowded p) (hb : Bounded p)
    (hs : p.startForSource C clientMessage source r entropy sessionId = (p', answer)) :
    Crowded p' := by
  have hb' := hb.start hs
  cases answer with
  | error e =>
    obtain rfl | rfl := PairingCode.startForSource_error hs
    · exact h
    · exact h.prune
  | ok started =>
    obtain ⟨shared, -, rfl, -, -, hlimited⟩ := PairingCode.startForSource_ok hs
    obtain ⟨-, hroom, -, -⟩ := PairingCode.limited_eq_false.mp hlimited
    refine ⟨hb'.pending, ?_⟩
    rcases h.prune.sources with hlt | hlt
    · exact .inl hlt
    · -- a full table admits sources that are in it
      cases hl : p.confirmationFailures.lookup source with
      | none => exact .inl (hroom hl)
      | some n =>
        refine .inr (Nat.lt_of_le_of_lt (Nat.add_le_add_left ?_ _) hlt)
        refine Nat.le_trans (newPending_insert_le ..) (Nat.le_of_eq ?_)
        rw [if_neg]
        · rfl
        · intro hnone
          have hnone : (p.confirmationFailures.lookup source).isNone = true := hnone
          rw [hl] at hnone
          cases hnone

theorem newPending_charged {p : PairingCode} (he : p.pending.lookup s = some e) :
    (p.charged s e.source).newPending + (if (p.confirmationFailures.lookup e.source).isNone then
      1 else 0) ≤ p.newPending := by
  have herase :=
    AList.tally_erase_add (p := fun e => (p.confirmationFailures.lookup e.source).isNone) he
  rw [show p.newPending = _ from herase.symm]
  refine Nat.add_le_add_right (AList.tally_mono fun e' he' => ?_) _
  simp only [PairingCode.charged, AList.lookup_insert'] at he'
  split at he'
  · cases he'
  · exact he'

theorem Crowded.charged (h : Crowded p) (he : p.pending.lookup s = some e) :
    Crowded (p.charged s e.source) := by
  have hpending := AList.tally_erase_add (p := fun _ => true) he
  have hnew := newPending_charged he
  have hle : p.newPending ≤ p.pending.len := AList.tally_le_len
  have hp := h.pending
  simp only [AList.tally_true, ↓reduceIte] at hpending
  refine ⟨show (p.pending.erase s).len ≤ _ by omega, ?_⟩
  cases hl : p.confirmationFailures.lookup e.source with
  | none =>
    have hlen : (p.charged s e.source).confirmationFailures.len = p.confirmationFailures.len + 1 :=
      AList.len_insert_of_none hl _
    simp only [hl, Option.isNone_none, ↓reduceIte] at hnew
    rcases h.sources with hlt | hlt <;> omega
  | some n =>
    have hlen : (p.charged s e.source).confirmationFailures.len = p.confirmationFailures.len :=
      AList.len_insert_of_some hl _
    rcases h.sources with hlt | hlt <;> omega

theorem Crowded.apply {op : PairingOp} (h : Crowded p) (hb : Bounded p) (he : op.exchanges = true)
    (ha : op.apply C p = some (p', answer)) : Crowded p' := by
  cases op with
  | start =>
    obtain ⟨a, hs, -⟩ := PairingOp.apply_start ha
    exact h.start hb hs
  | finish =>
    obtain ⟨a, hf, -⟩ := PairingOp.apply_finish ha
    obtain ⟨rfl | rfl, -⟩ | ⟨s, e, -, -, he, rfl⟩ := PairingCode.finish_state hf
    · exact h
    · exact h.prune
    · exact h.prune.charged he
  | commit => cases he
  | regenerate => cases he

-- ---------------------------------------------------------------------------
-- Filling the table
-- ---------------------------------------------------------------------------

def address (n : Nat) : Option IpAddr := some (.v4 (.ofNat n))

def session (n : Nat) : SessionId := ⟨beBytes 16 n, length_beBytes 16 n⟩

def openFrom (n : Nat) : PairingOp := .start [] (address n) (.at 0) [] (session n)

def failFrom (n : Nat) : PairingOp :=
  .finish (session n).val [] ⟨[], [], 1, []⟩ (.at 0) (repeated 32 0) (repeated 12 0)

def sessionFrom (n : Nat) : PendingPairing where
  sessionId := session n
  shared := List.replicate 32 1
  clientMessage := []
  hostMessage := []
  created := 0
  source := address n

theorem address_inj (hn : n < 2 ^ 32) (hk : k < 2 ^ 32) (h : address n = address k) : n = k := by
  simp only [address, Option.some.injEq, IpAddr.v4.injEq] at h
  have h := congrArg UInt32.toNat h
  simp only [UInt32.toNat_ofNat'] at h
  rwa [Nat.mod_eq_of_lt hn, Nat.mod_eq_of_lt hk] at h

theorem pruneSessions_zero (p : PairingCode) : p.pruneSessions (.at 0) = p := by
  have hzero (since : Nat) : elapsed since 0 = 0 := Nat.zero_sub since
  simp only [PairingCode.pruneSessions, Readings.at, hzero, Nat.zero_le, decide_true]
  rw [AList.retain_eq_self fun _ _ _ => rfl, AList.retain_eq_self fun _ _ _ => rfl]

def PairingCode.openedFrom (p : PairingCode) (n : Nat) : PairingCode :=
  { p with pending := p.pending.insert (session n) (sessionFrom n) }

theorem openFrom_apply {p : PairingCode} (hfree : p.limited (address n) = false) :
    ∃ answer, (openFrom n).apply sampleCrates p = some (p.openedFrom n, answer) := by
  have hage : ¬ elapsed p.created (Readings.at 0).first > pairingLifetime := by
    simp [elapsed, Readings.at]
  simp only [openFrom, PairingOp.apply]
  rw [PairingCode.startForSource, if_neg hage]
  simp only [pruneSessions_zero, hfree, Bool.false_eq_true, ↓reduceIte]
  exact ⟨_, rfl⟩

theorem failFrom_apply {p : PairingCode} (hcompleted : p.completed = ∅)
    (hpending : p.pending.lookup (session n) = some (sessionFrom n)) :
    ∃ answer, (failFrom n).apply sampleCrates p = some
      (p.charged (session n) (address n), answer) := by
  have hch : p.checking (session n).val (.at 0) = some (sessionFrom n) := by
    refine PairingCode.checking_eq_some.mpr ⟨session n, rfl, ?_, ?_, Nat.zero_le _⟩
    · rw [pruneSessions_zero, hcompleted]
      rfl
    · rw [pruneSessions_zero, hpending]
  obtain ⟨s, hs, hfinish⟩ := PairingCode.finish_checking sampleCrates [] ⟨[], [], 1, []⟩
    (repeated 32 0) (repeated 12 0) hch
  obtain rfl : session n = s := Subtype.ext hs
  have hwrong : ¬ ([] : Bytes) = confirmationTag sampleCrates (sessionFrom n) := by
    intro h
    cases h
  rw [if_neg hwrong, pruneSessions_zero] at hfinish
  simp only [failFrom, PairingOp.apply, hfinish]
  exact ⟨_, rfl⟩

theorem step_at_zero {s : CodeState} {op : PairingOp} (hclock : s.clock = 0)
    (hop : op.readings = [0, 0])
    (ha : ∃ answer, op.apply sampleCrates s.pairing = some (p, answer)) :
    ∃ s' es, pairingStep sampleCrates s op = some (s', es) ∧ s'.pairing = p ∧ s'.clock = 0 := by
  obtain ⟨answer, ha⟩ := ha
  rw [pairingStep_of_apply (by simp [hclock, hop]) ha, hop]
  exact ⟨_, _, rfl, rfl, rfl⟩

theorem limited_of_new {p : PairingCode} (hnew : p.confirmationFailures.lookup source = none)
    (hlen : p.confirmationFailures.len < maxFailureSources)
    (hpending : p.pending.len < maxPendingSessionsPerSource) :
    p.limited source = false := by
  have hfailures : p.failuresOf source = 0 := by rw [PairingCode.failuresOf, hnew]; rfl
  have htally : p.pendingOf source ≤ p.pending.len := AList.tally_le_len
  refine PairingCode.limited_eq_false.mpr ⟨?_, fun _ => hlen, ?_, fun _ => ?_⟩
  · rw [hfailures]
    decide
  · exact Nat.lt_trans hpending (by decide)
  · exact Nat.lt_of_le_of_lt htally hpending

/-- The first `n` addresses have failed, and no session is open. -/
structure Filled (n : Nat) (s : CodeState) : Prop where
  clock : s.clock = 0
  pending : s.pairing.pending = ∅
  completed : s.pairing.completed = ∅
  len : s.pairing.confirmationFailures.len = n
  new : ∀ k, n ≤ k → k < 2 ^ 32 → s.pairing.confirmationFailures.lookup (address k) = none

theorem filled (hn : n < maxFailureSources) :
    ∃ tr s, Run (pairingStep sampleCrates) (fun _ op => op.exchanges = true)
      (.new .sample 0 0) tr s ∧ Filled n s := by
  induction n with
  | zero => exact ⟨[], _, .refl, rfl, rfl, rfl, rfl, fun _ _ _ => rfl⟩
  | succ n ih =>
    obtain ⟨tr, s, hrun, hs⟩ := ih (Nat.lt_of_succ_lt hn)
    have hsmall : n < 256 ∧ n < 2 ^ 32 := by
      unfold maxFailureSources at hn
      omega
    have hnew := hs.new n (Nat.le_refl n) hsmall.2
    have hfree : s.pairing.limited (address n) = false :=
      limited_of_new hnew (by rw [hs.len]; exact hsmall.1) (by rw [hs.pending]; decide)
    obtain ⟨s₁, es₁, hopen, hp₁, hclock₁⟩ := step_at_zero hs.clock rfl (openFrom_apply hfree)
    have hcompleted : s₁.pairing.completed = ∅ := by rw [hp₁]; exact hs.completed
    have hpending : s₁.pairing.pending.lookup (session n) = some (sessionFrom n) := by
      rw [hp₁]
      exact AList.lookup_insert _
    obtain ⟨s₂, es₂, hfail, hp₂, hclock₂⟩ :=
      step_at_zero hclock₁ rfl (failFrom_apply hcompleted hpending)
    refine ⟨_, s₂, (hrun.next rfl hopen).next rfl hfail, hclock₂, ?_, ?_, ?_, fun k hk hk' => ?_⟩
    · rw [hp₂, hp₁]
      show (s.pairing.pending.insert (session n) (sessionFrom n)).erase (session n) = ∅
      rw [hs.pending]
      exact AList.erase_insert_empty _ _
    · rw [hp₂]
      exact hcompleted
    · rw [hp₂, hp₁]
      exact (AList.len_insert_of_none hnew _).trans (congrArg (· + 1) hs.len)
    · have hne : address k ≠ address n := fun h => by
        have := address_inj hk' hsmall.2 h
        omega
      rw [hp₂, hp₁]
      exact (AList.lookup_insert_ne hne).trans (hs.new k (Nat.le_of_succ_le hk) hk')

-- ---------------------------------------------------------------------------
-- Runs
-- ---------------------------------------------------------------------------

/-- The table is held to 256 sources exactly when there is room for every
source that enters it; it never holds 384. -/
theorem failure_sources_bounded_iff
    (h : Run (pairingStep C) (fun _ op => op.exchanges = true) (.new code created clock) tr s) :
    (s.pairing.confirmationFailures.len ≤ maxFailureSources ↔ ∀ call ∈ tr, call.HasRoom C) ∧
      s.pairing.confirmationFailures.len < maxFailureSources + maxPendingSessions := by
  constructor
  · refine Run.invariant (I := fun tr s => s.pairing.confirmationFailures.len ≤ maxFailureSources ↔
      ∀ call ∈ tr, call.HasRoom C) h (iff_of_true (Nat.zero_le _) (by simp)) ?_
    intro tr s op s' es ih he hs
    obtain ⟨-, p, answer, ha, rfl, rfl⟩ := pairingStep_eq_some hs
    simp only [List.forall_mem_append, List.forall_mem_singleton, ← ih]
    rcases failures_len_cases he ha with ⟨hlen, hroom⟩ | ⟨hlen, hroom⟩
    · simp [hlen, hroom]
    · simp only [hlen, hroom]
      omega
  · have hboth : Bounded s.pairing ∧ Crowded s.pairing := by
      refine Run.invariant (I := fun _ s => Bounded s.pairing ∧ Crowded s.pairing) h
        ⟨bounded_fresh code created, crowded_fresh code created⟩ ?_
      rintro tr s op s' es ⟨hb, hc⟩ he hs
      obtain ⟨-, p, answer, ha, rfl, rfl⟩ := pairingStep_eq_some hs
      exact ⟨hb.apply ha, hc.apply hb he ha⟩
    rcases hboth.2.sources with hlt | hlt
    · exact Nat.lt_of_lt_of_le hlt (Nat.le_add_right _ _)
    · exact Nat.lt_of_le_of_lt (Nat.le_add_right _ _) hlt

/-- One session fails. -/
theorem one_failure_has_room :
    ∃ tr s, Run (pairingStep sampleCrates) (fun _ op => op.exchanges = true)
      (.new .sample 0 0) tr s ∧
      (∀ call ∈ tr, call.HasRoom sampleCrates) ∧ s.pairing.confirmationFailures.len = 1 := by
  obtain ⟨tr, s, hrun, hs⟩ := filled (n := 1) (by decide)
  refine ⟨tr, s, hrun, (failure_sources_bounded_iff hrun).1.mp ?_, hs.len⟩
  rw [hs.len]
  decide

/-- 255 sources have failed, and two more have open sessions: both fail. -/
theorem failures_of_257_sources :
    ∃ tr s, Run (pairingStep sampleCrates) (fun _ op => op.exchanges = true)
      (.new .sample 0 0) tr s ∧ s.pairing.confirmationFailures.len = 257 := by
  obtain ⟨tr, s, hrun, hs⟩ := filled (n := 255) (by decide)
  have hnew (k : Nat) (hk : k = 255 ∨ k = 256) : s.pairing.confirmationFailures.lookup (address k) =
      none :=
    hs.new k (by omega) (by omega)
  have hlen : s.pairing.confirmationFailures.len < maxFailureSources := by
    rw [hs.len]
    decide
  obtain ⟨s₁, es₁, hopen₁, hp₁, hclock₁⟩ := step_at_zero hs.clock rfl (openFrom_apply (n := 255)
    (limited_of_new (hnew 255 (.inl rfl)) hlen (by rw [hs.pending]; decide)))
  have hfree : s₁.pairing.limited (address 256) = false := by
    rw [hp₁]
    refine limited_of_new (hnew 256 (.inr rfl)) hlen ?_
    show (s.pairing.pending.insert (session 255) (sessionFrom 255)).len < _
    rw [hs.pending]
    decide
  obtain ⟨s₂, es₂, hopen₂, hp₂, hclock₂⟩ := step_at_zero hclock₁ rfl (openFrom_apply hfree)
  have hcompleted : s₂.pairing.completed = ∅ := by
    rw [hp₂, hp₁]
    exact hs.completed
  have hpending : s₂.pairing.pending.lookup (session 255) = some (sessionFrom 255) := by
    rw [hp₂, hp₁]
    exact (AList.lookup_insert_ne (by decide)).trans (AList.lookup_insert _)
  obtain ⟨s₃, es₃, hfail₁, hp₃, hclock₃⟩ :=
    step_at_zero hclock₂ rfl (failFrom_apply hcompleted hpending)
  have hcompleted' : s₃.pairing.completed = ∅ := by
    rw [hp₃]
    exact hcompleted
  have hpending' : s₃.pairing.pending.lookup (session 256) = some (sessionFrom 256) := by
    rw [hp₃, hp₂]
    exact (AList.lookup_erase_ne (by decide)).trans (AList.lookup_insert _)
  obtain ⟨s₄, es₄, hfail₂, hp₄, -⟩ :=
    step_at_zero hclock₃ rfl (failFrom_apply hcompleted' hpending')
  have hrun₂ := (hrun.next rfl hopen₁).next rfl hopen₂
  refine ⟨_, s₄, (hrun₂.next rfl hfail₁).next rfl hfail₂, ?_⟩
  have hstill : s₃.pairing.confirmationFailures.lookup (address 256) = none := by
    rw [hp₃, hp₂, hp₁]
    exact (AList.lookup_insert_ne (by decide)).trans (hnew 256 (.inr rfl))
  have hlen₃ : s₃.pairing.confirmationFailures.len = 256 := by
    rw [hp₃, hp₂, hp₁]
    exact (AList.len_insert_of_none (hnew 255 (.inl rfl)) _).trans (congrArg (· + 1) hs.len)
  rw [hp₄]
  exact (AList.len_insert_of_none hstill _).trans (congrArg (· + 1) hlen₃)

end DeckyMyRig.Host
