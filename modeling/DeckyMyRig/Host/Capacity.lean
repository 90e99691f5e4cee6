import DeckyMyRig.Host.PairingRuns
import DeckyMyRig.Lib.Lists

/-!
# The tables of a pairing code

How many sessions, completed pairings and sources with failures a `PairingCode`
holds. Sessions are admitted against the limits on sessions. The limit on
sources with failures is also tested when a session is admitted, but a source
enters that table when its session fails, so the sessions that are open when the
table fills up can still enter it.
-/

namespace DeckyMyRig.Host

open Octets Machine

namespace PairingCode

def pendingOf (p : PairingCode) (source : Option IpAddr) : Nat :=
  p.pending.tally (·.source = source)

theorem pendingOf_pruneSessions_le (p : PairingCode) :
    (p.pruneSessions r).pendingOf source ≤ p.pendingOf source :=
  AList.tally_retain_le _

theorem pending_len_pruneSessions_le (p : PairingCode) :
    (p.pruneSessions r).pending.len ≤ p.pending.len := by
  rw [← AList.tally_true, ← AList.tally_true]
  exact AList.tally_retain_le _

theorem pendingOf_insert_le (p : PairingCode) (k : SessionId) (e : PendingPairing)
    (source : Option IpAddr) :
    { p with pending := p.pending.insert k e }.pendingOf source ≤
      p.pendingOf source + if e.source = source then 1 else 0 := by
  have h := AList.tally_insert_le (p := (·.source = source)) (s := p.pending) k e
  simp only [decide_eq_true_eq] at h
  exact h

theorem limited_eq_false {p : PairingCode} : p.limited source = false ↔
    p.failuresOf source < maxConfirmationFailures ∧
      (p.confirmationFailures.lookup source = none →
        p.confirmationFailures.len < maxFailureSources) ∧
      p.pending.len < maxPendingSessions ∧
      (source ≠ none → p.pendingOf source < maxPendingSessionsPerSource) := by
  have hsource : (source.isSome && decide (p.pendingOf source ≥ maxPendingSessionsPerSource)) =
      false ↔
        (source ≠ none → p.pendingOf source < maxPendingSessionsPerSource) := by
    cases source <;> simp
  have hfailures : ((p.confirmationFailures.lookup source).isNone &&
      decide (p.confirmationFailures.len ≥ maxFailureSources)) = false ↔
      (p.confirmationFailures.lookup source = none → p.confirmationFailures.len <
        maxFailureSources) := by
    cases p.confirmationFailures.lookup source <;> simp
  rw [← hsource, ← hfailures]
  simp only [limited, Bool.or_eq_false_iff, decide_eq_false_iff_not, Nat.not_le, and_assoc]
  rfl

theorem finish_state {p : PairingCode}
    (h : p.finish C sessionId confirmation context r credential nonce = (p', answer)) :
    (p' = p ∨ p' = p.pruneSessions r) ∧
        (∀ e, p.checking sessionId r = some e → confirmation = confirmationTag C e) ∨
      ∃ s e, p.checking sessionId r = some e ∧ confirmation ≠ confirmationTag C e ∧
        (p.pruneSessions r).pending.lookup s = some e ∧
          p' = (p.pruneSessions r).charged s e.source := by
  cases hch : p.checking sessionId r with
  | none =>
    refine .inl ⟨?_, by simp⟩
    obtain ⟨⟨-, rfl⟩ | rfl, -⟩ := finish_not_checking hch h
    · exact .inl rfl
    · exact .inr rfl
  | some e =>
    obtain ⟨s, hs, heq⟩ := finish_checking C confirmation context credential nonce hch
    rw [heq] at h
    split at h
    · rename_i ht
      refine .inl ⟨.inr (Prod.mk.inj h).1.symm, ?_⟩
      rintro e' ⟨⟩
      exact ht
    · rename_i ht
      obtain ⟨s', hs', -, hp, -⟩ := checking_eq_some.mp hch
      obtain rfl : s = s' := Subtype.ext (hs.symm.trans hs')
      exact .inr ⟨s, e, rfl, ht, hp, (Prod.mk.inj h).1.symm⟩

theorem commit_failures {p : PairingCode}
    (h : p.commit sessionId confirmation result r = (p', answer)) :
    p'.confirmationFailures = p.confirmationFailures := by
  unfold commit at h
  split at h
  · cases h
    rfl
  · split at h
    · cases h
      rfl
    · simp only at h
      split at h <;> cases h <;> rfl

end PairingCode

-- ---------------------------------------------------------------------------
-- Sessions
-- ---------------------------------------------------------------------------

structure Bounded (p : PairingCode) : Prop where
  pending : p.pending.len ≤ maxPendingSessions
  perSource : ∀ a : IpAddr, p.pendingOf (some a) ≤ maxPendingSessionsPerSource
  completed : p.completed.len ≤ 1

theorem bounded_fresh (code : Code) (created : Nat) : Bounded (.fresh code created) :=
  ⟨Nat.zero_le _, fun _ => Nat.zero_le _, Nat.zero_le _⟩

theorem Bounded.prune (h : Bounded p) : Bounded (p.pruneSessions r) := by
  refine ⟨(p.pending_len_pruneSessions_le).trans h.pending,
    fun a => (p.pendingOf_pruneSessions_le).trans (h.perSource a), ?_⟩
  refine Nat.le_trans ?_ h.completed
  rw [← AList.tally_true, ← AList.tally_true]
  exact AList.tally_retain_le _

theorem Bounded.start (h : Bounded p)
    (hs : p.startForSource C clientMessage source r entropy sessionId = (p', answer)) :
    Bounded p' := by
  cases answer with
  | error e =>
    obtain rfl | rfl := PairingCode.startForSource_error hs
    · exact h
    · exact h.prune
  | ok started =>
    obtain ⟨shared, -, rfl, -, -, hlimited⟩ := PairingCode.startForSource_ok hs
    have hp : Bounded (p.pruneSessions r) := h.prune
    obtain ⟨-, -, hpending, hsource⟩ := PairingCode.limited_eq_false.mp hlimited
    refine ⟨?_, fun a => ?_, hp.completed⟩
    · have hinsert :=
        AList.tally_insert_le (p := fun _ => true) (s := (p.pruneSessions r).pending) sessionId
        (PairingCode.startedSession C p.code clientMessage source r entropy sessionId shared)
      simp only [AList.tally_true, ↓reduceIte] at hinsert
      exact Nat.le_trans hinsert hpending
    · refine Nat.le_trans (PairingCode.pendingOf_insert_le ..) ?_
      split
      · rename_i ha
        have ha : source = some a := ha
        subst ha
        exact hsource (Option.some_ne_none a)
      · exact hp.perSource a

theorem Bounded.charged (h : Bounded p) : Bounded (p.charged s source) := by
  refine ⟨Nat.le_trans ?_ h.pending, fun a => Nat.le_trans ?_ (h.perSource a), h.completed⟩
  · rw [← AList.tally_true, ← AList.tally_true]
    exact AList.tally_erase_le _
  · exact AList.tally_erase_le _

theorem Bounded.finish (h : Bounded p)
    (hf : p.finish C sessionId confirmation context r credential nonce = (p', answer)) :
    Bounded p' := by
  obtain ⟨rfl | rfl, -⟩ | ⟨s, e, -, -, -, rfl⟩ := PairingCode.finish_state hf
  · exact h
  · exact h.prune
  · exact h.prune.charged

theorem Bounded.commit (h : Bounded p)
    (hc : p.commit sessionId confirmation result r = (p', answer)) :
    Bounded p' := by
  obtain ⟨rfl, -⟩ | ⟨s, e, -, -, -, hpending, hcompleted, -⟩ := PairingCode.commit_cases hc
  · exact h
  · refine ⟨?_, fun a => ?_, ?_⟩
    · rw [hpending]
      exact Nat.zero_le _
    · rw [PairingCode.pendingOf, hpending]
      exact Nat.zero_le _
    · rw [hcompleted]
      exact Nat.le_refl 1

theorem Bounded.apply {op : PairingOp} (h : Bounded p) (ha : op.apply C p = some (p', answer)) :
    Bounded p' := by
  cases op with
  | start =>
    obtain ⟨a, hs, -⟩ := PairingOp.apply_start ha
    exact h.start hs
  | finish =>
    obtain ⟨a, hf, -⟩ := PairingOp.apply_finish ha
    exact h.finish hf
  | commit =>
    obtain ⟨a, hc, -⟩ := PairingOp.apply_commit ha
    exact h.commit hc
  | regenerate =>
    obtain ⟨hr, -⟩ := PairingOp.apply_regenerate ha
    obtain ⟨d, -, rfl, -⟩ := PairingCode.regenerate_eq_some hr
    exact bounded_fresh _ _

-- ---------------------------------------------------------------------------
-- Sources
-- ---------------------------------------------------------------------------

def PairingCall.opened (call : PairingCall) : Option (Option IpAddr) :=
  match call.op, call.answer with
  | .start _ source _ _ _, .started (.ok _) => some source
  | _, _ => none

structure Listed (sources : List (Option IpAddr)) (p : PairingCode) : Prop where
  pending : ∀ s e, p.pending.lookup s = some e → e.source ∈ sources
  failures : ∀ source n, p.confirmationFailures.lookup source = some n → source ∈ sources

theorem Listed.prune (h : Listed sources p) : Listed sources (p.pruneSessions r) :=
  ⟨fun s e he => h.pending s e (PairingCode.pending_pruneSessions.mp he).1, h.failures⟩

theorem Listed.apply {op : PairingOp} (h : Listed sources p) (ha : op.apply C p = some (p', answer))
    (hopened : ∀ source, PairingCall.opened ⟨p, op, answer⟩ = some source → source ∈ sources) :
    Listed sources p' := by
  cases op with
  | start clientMessage source r entropy sessionId =>
    obtain ⟨a, hs, rfl⟩ := PairingOp.apply_start ha
    cases a with
    | error e =>
      obtain rfl | rfl := PairingCode.startForSource_error hs
      · exact h
      · exact h.prune
    | ok started =>
      obtain ⟨shared, -, rfl, -⟩ := PairingCode.startForSource_ok hs
      refine ⟨fun s e he => ?_, h.failures⟩
      simp only [AList.lookup_insert'] at he
      split at he
      · cases he
        exact hopened source rfl
      · exact h.prune.pending s e he
  | finish =>
    obtain ⟨a, hf, -⟩ := PairingOp.apply_finish ha
    obtain ⟨rfl | rfl, -⟩ | ⟨s, e, -, -, he, rfl⟩ := PairingCode.finish_state hf
    · exact h
    · exact h.prune
    · refine ⟨fun s' e' he' => ?_, fun source n hn => ?_⟩
      · exact h.prune.pending s' e'
          ((PairingCode.charged_within (r := Readings.at 0) _).pending he')
      · simp only [PairingCode.charged, AList.lookup_insert'] at hn
        split at hn
        · rename_i hsource
          rw [hsource]
          exact h.prune.pending s e he
        · exact h.failures source n hn
  | commit =>
    obtain ⟨a, hc, -⟩ := PairingOp.apply_commit ha
    obtain ⟨rfl, -⟩ | ⟨s, e, -, -, -, hpending, -, -⟩ := PairingCode.commit_cases hc
    · exact h
    · refine ⟨fun s e he => ?_, ?_⟩
      · rw [hpending] at he
        cases he
      · rw [PairingCode.commit_failures hc]
        exact h.failures
  | regenerate =>
    obtain ⟨hr, -⟩ := PairingOp.apply_regenerate ha
    obtain ⟨d, -, rfl, -⟩ := PairingCode.regenerate_eq_some hr
    refine ⟨fun _ _ he => ?_, fun _ _ hn => ?_⟩
    · cases he
    · cases hn

/-- With at most fifteen other sources, all of them addresses, a source is
limited by its own sessions and failures only. -/
theorem limited_eq_false_of_listed {others : List IpAddr} (hb : Bounded p)
    (hl : Listed (source :: others.map some) p) (hothers : others.length ≤ 15)
    (hpending : p.pendingOf source < maxPendingSessionsPerSource)
    (hfailures : p.failuresOf source < maxConfirmationFailures) : p.limited source = false := by
  refine PairingCode.limited_eq_false.mpr ⟨hfailures, fun _ => ?_, ?_, fun _ => hpending⟩
  · have hlen := AList.len_le_of_keys hl.failures
    simp only [List.length_cons, List.length_map] at hlen
    unfold maxFailureSources
    omega
  · have hvalues : ∀ e ∈ p.pending.values, e.source ∈ source :: others.map some := by
      intro e he
      obtain ⟨entry, hentry, rfl⟩ := List.mem_map.mp he
      exact hl.pending entry.1 entry.2 (AList.lookup_eq_some_iff.mpr hentry)
    have hsplit := List.length_eq_length_filter_add (l := p.pending.values) (·.source = source)
    have hothers' : (p.pending.values.filter (fun e => !decide (e.source = source))).length ≤
        (others.map some).length * 8 := by
      refine length_le_mul_of_filter_le (f := PendingPairing.source) ?_ ?_
      · intro e he
        simp only [List.mem_filter, Bool.not_eq_true', decide_eq_false_iff_not] at he
        exact (List.mem_cons.mp (hvalues e he.1)).resolve_left he.2
      · intro k hk
        obtain ⟨a, -, rfl⟩ := List.mem_map.mp hk
        exact Nat.le_trans (List.filter_sublist.filter _).length_le (hb.perSource a)
    rw [List.length_map] at hothers'
    have hown : (p.pending.values.filter (fun e => decide (e.source = source))).length < 8 :=
      hpending
    have hlen : p.pending.values.length = p.pending.len := List.length_map _
    show p.pending.len < 128
    omega

/-- The tables stay within their limits in every run, and while all sessions
come from a source and at most fifteen addresses besides, the source is not
rate limited before it has eight unexpired sessions or five failures. -/
theorem sessions_bounded_and_sources_isolated
    (h : Run (pairingStep C) (fun _ _ => True) (.new code created clock) tr s) :
    Bounded s.pairing ∧ ∀ (source : Option IpAddr) (others : List IpAddr), others.length ≤ 15 →
      (∀ call ∈ tr, ∀ source', call.opened = some source' → source' ∈ source :: others.map some) →
      ∀ clientMessage r entropy sessionId,
        (s.pairing.pruneSessions r).pendingOf source < maxPendingSessionsPerSource →
        s.pairing.failuresOf source < maxConfirmationFailures →
        (s.pairing.startForSource C clientMessage source r entropy sessionId).2 ≠
          .error .rateLimited := by
  have hbounded : Bounded s.pairing := by
    refine Run.invariant (I := fun _ s => Bounded s.pairing) h (bounded_fresh code created) ?_
    intro tr s op s' es hi _ hs
    obtain ⟨-, p, answer, ha, rfl, rfl⟩ := pairingStep_eq_some hs
    exact hi.apply ha
  refine ⟨hbounded, fun source others hothers hsources clientMessage r entropy sessionId hpending
    hfailures => ?_⟩
  have hlisted : Listed (source :: others.map some) s.pairing := by
    refine Run.invariant (I := fun tr s => (∀ call ∈ tr, ∀ source', call.opened = some source' →
      source' ∈ source :: others.map some) → Listed (source :: others.map some) s.pairing) h
        ?_ ?_ hsources
    · exact fun _ => ⟨fun _ _ he => (nomatch he), fun _ _ hn => (nomatch hn)⟩
    · intro tr s op s' es hi _ hs hall
      obtain ⟨-, p, answer, ha, rfl, rfl⟩ := pairingStep_eq_some hs
      simp only [List.forall_mem_append, List.forall_mem_singleton] at hall
      exact (hi hall.1).apply ha hall.2
  intro hlimit
  have hfree := limited_eq_false_of_listed hbounded.prune hlisted.prune hothers hpending hfailures
  unfold PairingCode.startForSource at hlimit
  split at hlimit
  · cases hlimit
  · simp only [hfree, Bool.false_eq_true, ↓reduceIte] at hlimit
    split at hlimit <;> cases hlimit

/-- Another address while one has a session. -/
theorem second_source_not_limited :
    ∃ tr s, Run (pairingStep sampleCrates) (fun _ _ => True) (.new .sample 0 0) tr s ∧
      s.pairing.pending.len = 1 ∧
      (s.pairing.startForSource sampleCrates [] (some (.v4 2)) (.at 0) [] ⟨List.replicate 16 2,
        rfl⟩).2 ≠ .error .rateLimited := by
  obtain ⟨tr, s, hrun, hp⟩ := Run.exists_of_exec (pairingStep sampleCrates) (fun _ _ => True)
    (.new .sample 0 0) [openSession 1]
    (fun s tr => s.pairing.pending.len = 1 && tr.all (fun call =>
      call.opened = some (some (.v4 1))) &&
      (s.pairing.pruneSessions (.at 0)).pendingOf (some (.v4 2)) < maxPendingSessionsPerSource &&
      s.pairing.failuresOf (some (.v4 2)) < maxConfirmationFailures) (by decide)
  simp only [Bool.and_eq_true, decide_eq_true_eq, List.all_eq_true] at hp
  obtain ⟨⟨⟨hlen, hopened⟩, hpending⟩, hfailures⟩ := hp
  refine ⟨tr, s, hrun, hlen, (sessions_bounded_and_sources_isolated hrun).2
    (some (.v4 2)) [.v4 1] (by decide) ?_
    [] (.at 0) [] _ hpending hfailures⟩
  intro call hcall source' hsource
  rw [hopened call hcall] at hsource
  cases hsource
  exact List.mem_cons_of_mem _ List.mem_cons_self

end DeckyMyRig.Host
