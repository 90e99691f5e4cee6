import DeckyMyRig.Host.Auth
import DeckyMyRig.Lib.Runs

/-!
# Replays at one authenticator

A run of `Authenticator::verify` calls with readings that never decrease. The
acceptance window is two-sided around the request's timestamp, while a nonce
is kept for the window after the reading that accepted it. The two agree for a
request that was not ahead of the clock; one that was ahead is accepted again
once its nonce has been dropped.
-/

namespace DeckyMyRig.Host

open Octets Machine

structure Signed where
  secret : Bytes
  request : AuthenticatedRequest
  deriving DecidableEq

structure VerifyCall where
  signed : Signed
  now : Nat

structure Verified where
  call : VerifyCall
  answer : Except AuthError Unit

def Verified.accepts (e : Verified) (q : Signed) : Bool :=
  e.call.signed = q && e.answer.isOk

structure VerifyState where
  auth : Authenticator
  clock : Nat

def VerifyState.new : VerifyState := ⟨.new, 0⟩

def verifyStep (C : Crates) (s : VerifyState) (call : VerifyCall) :
    Option (VerifyState × List Verified) :=
  if s.clock ≤ call.now then
    let (auth, answer) := s.auth.verify C call.signed.secret call.signed.request call.now
    some (⟨auth, call.now⟩, [⟨call, answer⟩])
  else none

theorem verifyStep_eq_some {C : Crates} {s : VerifyState} {call : VerifyCall} :
    verifyStep C s call = some (s', es) ↔
      s.clock ≤ call.now ∧
        s' = ⟨(s.auth.verify C call.signed.secret call.signed.request call.now).1, call.now⟩ ∧
        es = [⟨call, (s.auth.verify C call.signed.secret call.signed.request call.now).2⟩] := by
  unfold verifyStep
  split
  · simp [*, eq_comm]
  · simp [*]

theorem accepts_iff {e : Verified} :
    e.accepts q = true ↔ e.call.signed = q ∧ e.answer = .ok () := by
  unfold Verified.accepts
  cases h : e.answer <;> simp [Except.isOk, Except.toBool]

/-- What a later reading still knows about a nonce seen at `at_`: it is kept
with a reading at least as late, or the window after it is over. -/
def Remembers (a : Authenticator) (nonce : Bytes) (at_ clock : Nat) : Prop :=
  (∃ seen, a.acceptedNonces.lookup nonce = some seen ∧ at_ ≤ seen) ∨ at_ + clockWindow < clock

theorem remembers_verify {C : Crates} {a : Authenticator} (hle : clock ≤ now) (hat : at_ ≤ now)
    (h : Remembers a nonce at_ clock) :
    Remembers (a.verify C secret r now).1 nonce at_ now := by
  by_cases hv : Authentic C secret r ∧ InWindow r now
  · rw [verify_authentic hv.1 hv.2]
    rcases h with ⟨seen, hs, hle'⟩ | h
    · by_cases hn : nonce = r.nonce
      · subst hn
        exact .inl ⟨now, AList.lookup_insert _, hat⟩
      · by_cases hk : now - seen ≤ clockWindow
        · refine .inl ⟨seen, ?_, hle'⟩
          rw [AList.lookup_insert_ne hn, Authenticator.live, AList.lookup_retain_some]
          exact ⟨hs, by simpa using hk⟩
        · exact .inr (by omega)
    · exact .inr (by omega)
  · unfold Remembers
    rw [(verify_rejected hv).1]
    exact h.imp_right fun h => by omega

theorem remembers_lost {a : Authenticator} (hle : clock ≤ now)
    (h : Remembers a nonce at_ clock) (hl : (a.live now).lookup nonce = none) :
    at_ + clockWindow < now := by
  rcases h with ⟨seen, hs, hle'⟩ | h
  · by_cases hk : now - seen ≤ clockWindow
    · have : (a.live now).lookup nonce = some seen :=
        AList.lookup_retain_some.mpr ⟨hs, by simpa using hk⟩
      rw [this] at hl
      cases hl
    · omega
  · omega

/-- The invariant of a run: every acceptance of `q` is remembered, and there
is at most one. -/
structure AcceptedOnce (q : Signed) (tr : List Verified) (s : VerifyState) : Prop where
  past : ∀ e ∈ tr, e.call.now ≤ s.clock
  kept : ∀ e ∈ tr, e.accepts q = true → Remembers s.auth q.request.nonce e.call.now s.clock
  once : (tr.filter (·.accepts q)).length ≤ 1

theorem accepted_remembers {C : Crates} {a : Authenticator}
    (h : (a.verify C secret r now).2 = .ok ()) :
    Remembers (a.verify C secret r now).1 r.nonce now now := by
  obtain ⟨ha, hw, -⟩ := verify_ok_iff.mp h
  rw [verify_authentic ha hw]
  exact .inl ⟨now, by simp, Nat.le_refl _⟩

theorem AcceptedOnce.next {C : Crates} (hi : AcceptedOnce q tr s)
    (hs : verifyStep C s call = some (s', es))
    (hq : ∀ e ∈ tr, e.call.signed = q → q.request.timestamp.toNat ≤ e.call.now) :
    AcceptedOnce q (tr ++ es) s' := by
  obtain ⟨hle, rfl, rfl⟩ := verifyStep_eq_some.mp hs
  have hpast : ∀ e ∈ tr, e.call.now ≤ call.now := fun e he => (hi.past e he).trans hle
  refine ⟨?_, ?_, ?_⟩
  · intro e he
    rcases List.mem_append.mp he with he | he
    · exact hpast e he
    · simp only [List.mem_singleton] at he
      simp [he]
  · intro e he hacc
    rcases List.mem_append.mp he with he | he
    · exact remembers_verify hle (hpast e he) (hi.kept e he hacc)
    · simp only [List.mem_singleton] at he
      subst he
      obtain ⟨rfl, hok⟩ := accepts_iff.mp hacc
      exact accepted_remembers hok
  · rw [List.filter_append, List.length_append]
    by_cases hacc : Verified.accepts ⟨call, (s.auth.verify C call.signed.secret call.signed.request
        call.now).2⟩ q = true
    · -- a second acceptance would come after the request's own window
      obtain ⟨hsig, hok⟩ := accepts_iff.mp hacc
      simp only at hsig hok
      obtain ⟨-, hw, hl⟩ := verify_ok_iff.mp hok
      have hnone : tr.filter (·.accepts q) = [] := by
        rw [List.filter_eq_nil_iff]
        intro e he h
        have hlost := remembers_lost hle (hi.kept e he h) (by rw [← hsig]; exact hl)
        have hts := hq e he (accepts_iff.mp h).1
        rw [hsig] at hw
        have := hw.1
        omega
      simp [hnone, hacc]
    · simpa [hacc] using hi.once

/-- Every signed request is answered `Ok` at most once when no call for it has
a timestamp ahead of the reading; and a request accepted with its timestamp
ahead of the reading is accepted a second time 61 seconds later. -/
theorem accepted_at_most_once_unless_ahead (C : Crates) :
    (∀ tr s q, Run (verifyStep C) (fun _ _ => True) .new tr s →
      (∀ e ∈ tr, e.call.signed = q → q.request.timestamp.toNat ≤ e.call.now) →
      (tr.filter (·.accepts q)).length ≤ 1) ∧
    (∀ tr s call s', Run (verifyStep C) (fun _ _ => True) .new tr s →
      verifyStep C s call = some (s', [⟨call, .ok ()⟩]) →
      call.now < call.signed.request.timestamp.toNat →
      ∃ s'', verifyStep C s' ⟨call.signed, call.now + 61⟩ =
        some (s'', [⟨⟨call.signed, call.now + 61⟩, .ok ()⟩])) := by
  refine ⟨?_, ?_⟩
  · intro tr s q hrun
    refine fun hq => (Run.invariant (I := fun tr s =>
      (∀ e ∈ tr, e.call.signed = q → q.request.timestamp.toNat ≤ e.call.now) →
        AcceptedOnce q tr s) hrun ?_ ?_ hq).once
    · exact fun _ => ⟨by simp, by simp, by simp⟩
    · intro tr s i s' es ih _ hs hq
      have hpre := fun e he => hq e (List.mem_append_left _ he)
      exact (ih hpre).next hs hpre
  · intro tr s call s' _ hs hahead
    obtain ⟨-, rfl, hes⟩ := verifyStep_eq_some.mp hs
    have hok : (s.auth.verify C call.signed.secret call.signed.request call.now).2 = .ok () := by
      simpa [eq_comm] using hes
    obtain ⟨ha, hw, -⟩ := verify_ok_iff.mp hok
    refine ⟨_, verifyStep_eq_some.mpr ⟨by simp, rfl, ?_⟩⟩
    have hagain : ((s.auth.verify C call.signed.secret call.signed.request call.now).1.verify C
        call.signed.secret call.signed.request (call.now + 61)).2 = .ok () := by
      rw [verify_ok_iff, verify_authentic ha hw]
      refine ⟨ha, ?_, ?_⟩
      · simp only [InWindow, clockWindow] at hw ⊢
        omega
      · -- the nonce was last seen 61 seconds ago
        rw [Authenticator.live, AList.lookup_retain, AList.lookup_insert,
          Option.filter_some, if_neg]
        intro hk
        have hk : call.now + 61 - call.now ≤ 60 := of_decide_eq_true hk
        omega
    simp [hagain]

def aheadRequest : Signed where
  secret := List.replicate 32 7
  request := {
    timestamp := 101
    nonce := List.replicate 16 9
    signature := [13, 12, 219, 145, 250, 124, 144, 95, 0, 156, 18, 250, 123, 1, 125, 120, 191, 198,
      130, 56, 176, 179, 255, 22, 140, 137, 234, 89, 70, 47, 245, 211]
    method := "POST".toList
    path := "/v1/status".toList
    body := utf8 "body".toList }

def aheadCrates : Crates :=
  .fixed [35, 13, 131, 88, 220, 142, 136, 144, 180, 197, 141, 238, 182, 41, 18, 238, 47, 32, 53,
    122, 233, 42, 92, 200, 97, 185, 142, 104, 254, 49, 172, 181] aheadRequest.request.signature

theorem ahead_request_accepted_twice :
    ∃ tr s, Run (verifyStep aheadCrates) (fun _ _ => True) .new tr s ∧
      (tr.filter (·.accepts aheadRequest)).length = 2 := by
  obtain ⟨tr, s, hrun, hp⟩ := Run.exists_of_exec (verifyStep aheadCrates) (fun _ _ => True) .new
    [⟨aheadRequest, 100⟩, ⟨aheadRequest, 161⟩]
    (fun _ tr => (tr.filter (·.accepts aheadRequest)).length = 2) (by decide)
  exact ⟨tr, s, hrun, by simpa using hp⟩

/-- The same request at 101 and 102, when it is no longer ahead; and at 100. -/
theorem ahead_request_both_ways :
    (∃ tr s, Run (verifyStep aheadCrates) (fun _ _ => True) .new tr s ∧ tr.length = 2 ∧
      (tr.filter (·.accepts aheadRequest)).length ≤ 1) ∧
    ∃ s s', verifyStep aheadCrates .new ⟨aheadRequest, 100⟩ =
        some (s, [⟨⟨aheadRequest, 100⟩, .ok ()⟩]) ∧
      verifyStep aheadCrates s ⟨aheadRequest, 161⟩ =
        some (s', [⟨⟨aheadRequest, 161⟩, .ok ()⟩]) := by
  refine ⟨?_, ?_⟩
  · obtain ⟨tr, s, hrun, hp⟩ := Run.exists_of_exec (verifyStep aheadCrates) (fun _ _ => True) .new
      [⟨aheadRequest, 101⟩, ⟨aheadRequest, 102⟩]
      (fun _ tr => tr.length = 2 && tr.all fun e =>
        aheadRequest.request.timestamp.toNat ≤ e.call.now)
      (by decide)
    simp only [Bool.and_eq_true, decide_eq_true_eq, List.all_eq_true] at hp
    exact ⟨tr, s, hrun, hp.1, (accepted_at_most_once_unless_ahead aheadCrates).1 tr s aheadRequest
      hrun fun e he _ => hp.2 e he⟩
  · have hok : (Authenticator.new.verify aheadCrates aheadRequest.secret aheadRequest.request
      100).2 =
        .ok () := by decide
    have hs : verifyStep aheadCrates .new ⟨aheadRequest, 100⟩ =
        some (_, [⟨⟨aheadRequest, 100⟩, .ok ()⟩]) :=
      verifyStep_eq_some.mpr ⟨by decide, rfl, by simp [VerifyState.new, hok]⟩
    obtain ⟨s', hs'⟩ :=
      (accepted_at_most_once_unless_ahead aheadCrates).2 [] .new ⟨aheadRequest, 100⟩ _
      .refl hs (by decide)
    exact ⟨_, s', hs, hs'⟩

end DeckyMyRig.Host
