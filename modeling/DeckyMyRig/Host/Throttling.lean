import DeckyMyRig.Host.AuthReplay
import DeckyMyRig.Lib.Windows

/-!
# Throttling of failed checks

`failed` keeps the readings of recent failures in a queue and drops old ones from
its front, but only when another check fails. In a run with readings that never
decrease, a failing check is refused as one too many exactly when twenty failures
of the last window were answered as what they are.
-/

namespace DeckyMyRig.Host

open Octets Machine Windows

/-- The length of `failures` from which on `failed` answers `RateLimited`. -/
def maxAuthFailures : Nat := 20

def AuthError.recorded : AuthError → Bool
  | .stale | .malformed | .invalid => true
  | .replay | .rateLimited | .persistence => false

def Verified.failedAt (e : Verified) : Option Nat :=
  match e.answer with
  | .error error => if error.recorded then some e.call.now else none
  | .ok () => none

def failureTimes (tr : List Verified) : List Nat := tr.filterMap (·.failedAt)

def VerifyCall.Fails (C : Crates) (call : VerifyCall) : Prop :=
  ¬ (Authentic C call.signed.secret call.signed.request ∧ InWindow call.signed.request call.now)

/-- The queue holds the failures of the window, and no window holds more than
twenty. -/
structure Throttled (tr : List Verified) (s : VerifyState) : Prop where
  tracks : Tracks clockWindow s.clock (failureTimes tr) s.auth.failures
  bounded : s.auth.failures.length ≤ maxAuthFailures
  windows : ∀ start, (within clockWindow start (failureTimes tr)).length ≤ maxAuthFailures

-- ---------------------------------------------------------------------------
-- One call
-- ---------------------------------------------------------------------------

theorem verify_failures {a : Authenticator} (ha : Authentic C secret r) (hw : InWindow r now) :
    (a.verify C secret r now).1.failures = a.failures ∧
      ∀ error, (a.verify C secret r now).2 = .error error → error.recorded = false := by
  rw [verify_authentic ha hw]
  refine ⟨rfl, ?_⟩
  intro error h
  simp only at h
  split at h
  · cases h
    rfl
  · cases h

theorem reject_cases {a : Authenticator} (hlog : Tracks clockWindow now log a.failures)
    (error : AuthError) :
    maxAuthFailures ≤ (recent clockWindow now log).length ∧ (a.reject now error).2 =
      .error .rateLimited ∧
        (a.reject now error).1.failures = recent clockWindow now log ∨
      (recent clockWindow now log).length < maxAuthFailures ∧ (a.reject now error).2 =
        .error error ∧ (a.reject now error).1.failures = recent clockWindow now log ++ [now] := by
  simp only [Authenticator.reject, Authenticator.failed, hlog.prune]
  split
  · exact .inl ⟨‹_›, rfl, rfl⟩
  · exact .inr ⟨Nat.lt_of_not_le ‹_›, rfl, rfl⟩

theorem failureTimes_append (tr : List Verified) (e : Verified) :
    failureTimes (tr ++ [e]) = failureTimes tr ++ e.failedAt.toList := by
  rw [failureTimes, List.filterMap_append, failureTimes]
  cases h : e.failedAt <;> simp [h]

theorem failedAt_eq_none {call : VerifyCall}
    (h : ∀ error, answer = .error error → error.recorded = false) :
    (Verified.mk call answer).failedAt = none := by
  cases answer with
  | ok => rfl
  | error error => simp [Verified.failedAt, h error rfl]

theorem Throttled.next {C : Crates} (hi : Throttled tr s)
    (h : verifyStep C s call = some (s', [e])) :
    Throttled (tr ++ [e]) s' ∧ (call.Fails C → (e.answer = .error .rateLimited ↔
      maxAuthFailures ≤ (recent clockWindow call.now (failureTimes tr)).length)) := by
  obtain ⟨hle, rfl, he⟩ := verifyStep_eq_some.mp h
  obtain rfl := List.singleton_injective he
  have htracks := hi.tracks.later hle
  by_cases hfails : call.Fails C
  · obtain ⟨error, herror, heq⟩ := verify_eq_reject (a := s.auth) hfails
    have herror : error.recorded = true := by
      rcases herror with rfl | rfl | rfl <;> rfl
    rw [heq]
    rcases reject_cases htracks error with ⟨hmany, hanswer, hqueue⟩ | ⟨hfew, hanswer, hqueue⟩
    · -- refused: the queue only loses what the window has passed
      have hlog : failureTimes (tr ++ [⟨call, (s.auth.reject call.now error).2⟩]) =
          failureTimes tr := by
        rw [failureTimes_append, hanswer]
        exact List.append_nil _
      refine ⟨⟨?_, ?_, ?_⟩, fun _ => iff_of_true hanswer hmany⟩
      · rw [hlog, hqueue]
        exact htracks.pruned
      · rw [hqueue, ← htracks.prune]
        exact (List.dropWhile_sublist _).length_le.trans hi.bounded
      · rw [hlog]
        exact hi.windows
    · -- recorded: the reading is the last one of every window that it is in
      have hlog : failureTimes (tr ++ [⟨call, (s.auth.reject call.now error).2⟩]) =
          failureTimes tr ++ [call.now] := by
        rw [failureTimes_append, hanswer]
        simp [Verified.failedAt, herror]
      refine ⟨⟨?_, ?_, fun start => ?_⟩, fun _ => iff_of_false ?_ (Nat.not_le_of_lt hfew)⟩
      · rw [hlog, hqueue]
        exact htracks.pruned.push
      · rw [hqueue, List.length_append]
        exact hfew
      · rw [hlog]
        exact (length_within_push ..).trans (Nat.max_le.mpr ⟨hi.windows start, hfew⟩)
      · rw [hanswer]
        rintro ⟨⟩
        cases herror
  · obtain ⟨ha, hw⟩ := not_not.mp hfails
    obtain ⟨hqueue, hanswer⟩ := verify_failures (a := s.auth) ha hw
    have hlog : failureTimes (tr ++ [⟨call,
        (s.auth.verify C call.signed.secret call.signed.request call.now).2⟩]) =
          failureTimes tr := by
      rw [failureTimes_append, failedAt_eq_none hanswer]
      exact List.append_nil _
    refine ⟨⟨?_, ?_, ?_⟩, fun h => absurd h hfails⟩
    · rw [hlog, hqueue]
      exact htracks
    · rw [hqueue]
      exact hi.bounded
    · rw [hlog]
      exact hi.windows

-- ---------------------------------------------------------------------------
-- Runs
-- ---------------------------------------------------------------------------

theorem verifyStep_one {C : Crates} {s : VerifyState} (h : verifyStep C s call = some (s', es)) :
    ∃ e, es = [e] :=
  ⟨_, (verifyStep_eq_some.mp h).2.2⟩

theorem throttled_run {C : Crates} (h : Run (verifyStep C) (fun _ _ => True) .new tr s) :
    Throttled tr s := by
  refine h.invariant (I := Throttled) ⟨.nil .., by decide, fun _ => Nat.zero_le _⟩ ?_
  intro tr s call s' es hi _ hs
  obtain ⟨e, rfl⟩ := verifyStep_one hs
  exact (hi.next hs).1

/-- In every run of `verify` calls, a call that fails before the nonce check is
answered `RateLimited` exactly when at least twenty earlier calls of the last
window were answered `Stale`, `Malformed` or `Invalid`. No window holds more than
twenty such answers, and neither does the queue. -/
theorem failures_throttled (C : Crates) (h : Run (verifyStep C) (fun _ _ => True) .new tr s) :
    (∀ pre e post, tr = pre ++ e :: post → e.call.Fails C → (e.answer = .error .rateLimited ↔
      maxAuthFailures ≤ (recent clockWindow e.call.now (failureTimes pre)).length)) ∧
    (∀ start, (within clockWindow start (failureTimes tr)).length ≤ maxAuthFailures) ∧
    s.auth.failures.length ≤ maxAuthFailures := by
  have hi := throttled_run h
  refine ⟨?_, hi.windows, hi.bounded⟩
  intro pre e post htr hfails
  obtain ⟨before, call, after, hbefore, -, hs, -⟩ := h.at_event verifyStep_one htr
  have hcall : e.call = call := by
    obtain ⟨-, -, he⟩ := verifyStep_eq_some.mp hs
    rw [List.singleton_injective he]
  rw [hcall] at hfails ⊢
  exact ((throttled_run hbefore).next hs).2 hfails

def staleRequest : Signed where
  secret := List.replicate 32 7
  request := {
    timestamp := 1
    nonce := List.replicate 16 9
    signature := []
    method := "POST".toList
    path := "/v1/status".toList
    body := [] }

/-- Twenty-one stale calls at 100: the last is one too many. -/
theorem twenty_first_failure_throttled :
    ∃ pre last s, Run (verifyStep aheadCrates) (fun _ _ => True) .new (pre ++ [last]) s ∧
      last.answer = .error .rateLimited ∧ s.auth.failures.length ≤ maxAuthFailures := by
  obtain ⟨tr, s, hrun, hp⟩ := Run.exists_of_exec (verifyStep aheadCrates) (fun _ _ => True) .new
    (List.replicate 21 ⟨staleRequest, 100⟩)
    (fun _ tr => tr.getLast?.any fun last => last.call.signed = staleRequest &&
      last.call.now = 100 &&
      maxAuthFailures ≤ (recent clockWindow last.call.now (failureTimes tr.dropLast)).length)
        (by decide +kernel)
  obtain ⟨last, hlast, hp⟩ := (Option.any_eq_true _ _).mp hp
  obtain ⟨pre, rfl⟩ := List.getLast?_eq_some_iff.mp hlast
  rw [List.dropLast_concat] at hp
  simp only [Bool.and_eq_true, decide_eq_true_eq] at hp
  obtain ⟨⟨hsigned, hnow⟩, hmany⟩ := hp
  obtain ⟨hexact, -, hqueue⟩ := failures_throttled aheadCrates hrun
  have hfails : last.call.Fails aheadCrates := by
    rintro ⟨-, hw⟩
    rw [hsigned, hnow] at hw
    exact absurd hw.1 (by decide)
  exact ⟨pre, last, s, hrun, (hexact pre last [] rfl hfails).mpr hmany, hqueue⟩

end DeckyMyRig.Host
