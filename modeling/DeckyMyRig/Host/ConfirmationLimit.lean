import DeckyMyRig.Host.PairingRuns

/-!
# Wrong confirmations of one source

The limit of five failures is tested when a session is started, and failures
are charged when one is finished. A source that opened several sessions first
is held to the limit exactly when each of its confirmations is evaluated while
fewer than five failures are recorded for it.
-/

namespace DeckyMyRig.Host

open Octets Machine

theorem failuresOf_charged (p : PairingCode) (source' : Option IpAddr) :
    (p.charged s source).failuresOf source' =
      if source' = source then min (p.failuresOf source + 1) 255 else p.failuresOf source' := by
  unfold PairingCode.charged PairingCode.failuresOf
  simp only [AList.lookup_insert']
  split <;> rfl

/-- What an exchange keeps: nothing is completed, and the failures recorded are
the wrong confirmations so far, as a `u8` counts them. -/
structure Charged (C : Crates) (tr : List PairingCall) (s : CodeState) : Prop where
  completed : s.pairing.completed = ∅
  failures : ∀ source, s.pairing.failuresOf source = min (wrongs C source tr) 255

theorem charged_start {p p' : PairingCode}
    (h : p.startForSource C clientMessage source r entropy sessionId = (p', answer))
    (hc : p.completed = ∅) :
    p'.completed = ∅ ∧ ∀ x, p'.failuresOf x = p.failuresOf x := by
  cases answer with
  | error e =>
    obtain rfl | rfl := PairingCode.startForSource_error h
    · exact ⟨hc, fun _ => rfl⟩
    · exact ⟨PairingCode.pruneSessions_completed_empty hc, fun _ => rfl⟩
  | ok started =>
    obtain ⟨shared, -, rfl, -⟩ := PairingCode.startForSource_ok h
    exact ⟨PairingCode.pruneSessions_completed_empty hc, fun _ => rfl⟩

theorem charged_finish {p p' : PairingCode}
    (h : p.finish C sessionId confirmation context r credential nonce = (p', answer))
    (hc : p.completed = ∅) :
    p'.completed = ∅ ∧ ∀ x, p'.failuresOf x =
      match p.checking sessionId r with
      | some e => if e.source = x ∧ confirmation ≠ confirmationTag C e
          then min (p.failuresOf x + 1) 255 else p.failuresOf x
      | none => p.failuresOf x := by
  have hp := PairingCode.pruneSessions_completed_empty (r := r) hc
  cases hch : p.checking sessionId r with
  | none =>
    obtain ⟨⟨-, rfl⟩ | rfl, -⟩ := PairingCode.finish_not_checking hch h
    · exact ⟨hc, fun _ => rfl⟩
    · exact ⟨hp, fun _ => rfl⟩
  | some e =>
    obtain ⟨s, -, heq⟩ := PairingCode.finish_checking C confirmation context credential nonce hch
    rw [heq] at h
    split at h
    · rename_i ht
      obtain ⟨rfl, -⟩ := Prod.mk.inj h
      exact ⟨hp, fun x => by simp [ht]⟩
    · rename_i ht
      obtain ⟨rfl, -⟩ := Prod.mk.inj h
      refine ⟨hp, fun x => ?_⟩
      rw [failuresOf_charged]
      by_cases hx : x = e.source
      · simp [hx, ht]
      · simp [hx, Ne.symm hx]

theorem Charged.next (hi : Charged C tr s) (he : op.exchanges = true)
    (hs : pairingStep C s op = some (s', es)) : Charged C (tr ++ es) s' := by
  obtain ⟨-, p, answer, ha, rfl, rfl⟩ := pairingStep_eq_some hs
  cases op with
  | start clientMessage source r entropy sessionId =>
    obtain ⟨a, hst, rfl⟩ := PairingOp.apply_start ha
    obtain ⟨hc, hf⟩ := charged_start hst hi.completed
    refine ⟨hc, fun x => ?_⟩
    rw [wrongs_append, wrongs_single, PairingCall.wrongFor_none rfl]
    simp [hf, hi.failures]
  | finish sessionId confirmation context r credential nonce =>
    obtain ⟨a, hfin, rfl⟩ := PairingOp.apply_finish ha
    obtain ⟨hc, hf⟩ := charged_finish hfin hi.completed
    refine ⟨hc, fun x => ?_⟩
    rw [hf, hi.failures, wrongs_append, wrongs_single]
    cases hch : s.pairing.checking sessionId r with
    | none =>
      rw [PairingCall.wrongFor_none (PairingCall.checked_none hch)]
      rfl
    | some e =>
      simp only [PairingCall.wrongFor_some (PairingCall.checked_some hch)]
      split <;> omega
  | commit => cases he
  | regenerate => cases he

theorem finish_answer {p p' : PairingCode}
    (h : p.finish C sessionId confirmation context r credential nonce = (p', answer))
    (hc : p.completed = ∅) :
    match p.checking sessionId r with
    | some e =>
        if confirmation = confirmationTag C e then answer = issue C e context credential nonce
        else ∃ error, answer = .error error
    | none => answer = .error .invalid := by
  cases hch : p.checking sessionId r with
  | none =>
    obtain ⟨-, hbad | ⟨s, c, -, -, hl, -⟩⟩ := PairingCode.finish_not_checking hch h
    · exact hbad
    · rw [PairingCode.pruneSessions_completed_empty hc] at hl
      cases hl
  | some e =>
    obtain ⟨s, -, heq⟩ := PairingCode.finish_checking C confirmation context credential nonce hch
    rw [heq] at h
    simp only
    split at h
    · rename_i ht
      rw [if_pos ht]
      exact (Prod.mk.inj h).2.symm
    · rename_i ht
      rw [if_neg ht]
      exact ⟨_, (Prod.mk.inj h).2.symm⟩

/-- The confirmation is evaluated while fewer than five failures are recorded
for the source of its session, or it is right and issuing fails on a field that
is too long. -/
def PairingCall.WithinLimit (C : Crates) (call : PairingCall) : Prop :=
  ∀ sessionId confirmation context r credential nonce e,
    call.op = .finish sessionId confirmation context r credential nonce →
    call.before.checking sessionId r = some e →
    call.before.failuresOf e.source < maxConfirmationFailures ∨
      confirmation = confirmationTag C e ∧ ¬ AadFits e.hostMessage e.sessionId.val context

theorem failuresLimited_snoc :
    FailuresLimited C (tr ++ [call]) source ↔ FailuresLimited C tr source ∧
      wrongs C source (tr ++ [call]) ≤ maxConfirmationFailures ∧
      (maxConfirmationFailures ≤ wrongs C source tr → call.okFor source = false) := by
  constructor
  · rintro ⟨hle, hok⟩
    refine ⟨⟨?_, ?_⟩, hle, hok tr call [] rfl⟩
    · rw [wrongs_append] at hle
      omega
    · rintro pre c post rfl
      exact hok pre c (post ++ [call]) (by simp)
  · rintro ⟨⟨-, hok⟩, hle, hlast⟩
    refine ⟨hle, fun pre c post heq => ?_⟩
    rcases List.eq_nil_or_concat post with rfl | ⟨post', last, rfl⟩
    · obtain ⟨rfl, hc⟩ := List.append_inj' heq rfl
      obtain rfl := List.singleton_injective hc
      exact hlast
    · rw [List.concat_eq_append, ← List.cons_append, ← List.append_assoc] at heq
      exact hok pre c post' (List.append_inj' heq rfl).1

section
variable {p : PairingCode} {e : PendingPairing} {answer : Except PairingError PairingResult}
  (hch : p.checking sessionId r = some e)
  (hans : if confirmation = confirmationTag C e then answer = issue C e context credential nonce
    else ∃ error, answer = .error error)
include hch hans

theorem within_of_limited
    (h : wrongs C e.source (tr ++ [⟨p, .finish sessionId confirmation context r credential nonce,
          .finished answer⟩]) ≤ maxConfirmationFailures ∧
        (maxConfirmationFailures ≤ wrongs C e.source tr → PairingCall.okFor e.source
          ⟨p, .finish sessionId confirmation context r credential nonce, .finished answer⟩ =
            false)) :
    wrongs C e.source tr < maxConfirmationFailures ∨
      confirmation = confirmationTag C e ∧ ¬ AadFits e.hostMessage e.sessionId.val context := by
  obtain ⟨hle, hok⟩ := h
  rcases Nat.lt_or_ge (wrongs C e.source tr) maxConfirmationFailures with hless | hfull
  · exact .inl hless
  · by_cases ht : confirmation = confirmationTag C e
    · refine .inr ⟨ht, fun hfit => ?_⟩
      obtain ⟨result, hres⟩ := issue_fits C credential nonce hfit
      rw [if_pos ht, hres] at hans
      subst hans
      simpa [PairingCall.okFor, PairingCall.checked_some hch] using hok hfull
    · simp only [wrongs_append, wrongs_single, PairingCall.wrongFor_some
        (PairingCall.checked_some hch), ht, ne_eq, not_false_eq_true, and_self, ↓reduceIte] at hle
      omega

theorem limited_of_within (hle : ∀ source, wrongs C source tr ≤ maxConfirmationFailures)
    (h : wrongs C e.source tr < maxConfirmationFailures ∨
      confirmation = confirmationTag C e ∧ ¬ AadFits e.hostMessage e.sessionId.val context)
    (source : Option IpAddr) :
    wrongs C source (tr ++ [⟨p, .finish sessionId confirmation context r credential nonce,
        .finished answer⟩]) ≤ maxConfirmationFailures ∧
      (maxConfirmationFailures ≤ wrongs C source tr → PairingCall.okFor source
        ⟨p, .finish sessionId confirmation context r credential nonce, .finished answer⟩ =
          false) := by
  simp only [wrongs_append, wrongs_single, PairingCall.wrongFor_some (PairingCall.checked_some hch)]
  by_cases hx : e.source = source
  · subst hx
    rcases h with h | ⟨ht, hfit⟩
    · refine ⟨?_, fun hge => by omega⟩
      have h : wrongs C e.source tr < 5 := h
      show _ ≤ 5
      split <;> omega
    · rw [if_pos ht, issue_unfit hfit] at hans
      subst hans
      exact ⟨by simpa [ht] using hle _, fun _ => rfl⟩
  · refine ⟨by simpa [hx] using hle source, fun _ => ?_⟩
    cases answer with
    | error _ => rfl
    | ok result => simpa [PairingCall.okFor, PairingCall.checked_some hch] using hx

end

theorem withinLimit_iff (hi : Charged C tr s) (he : op.exchanges = true)
    (hle : ∀ source, wrongs C source tr ≤ maxConfirmationFailures)
    (ha : op.apply C s.pairing = some (p, answer)) :
    (∀ source, wrongs C source (tr ++ [⟨s.pairing, op, answer⟩]) ≤ maxConfirmationFailures ∧
        (maxConfirmationFailures ≤ wrongs C source tr →
          PairingCall.okFor source ⟨s.pairing, op, answer⟩ = false)) ↔
      PairingCall.WithinLimit C ⟨s.pairing, op, answer⟩ := by
  cases op with
  | commit => cases he
  | regenerate => cases he
  | start clientMessage source r entropy sessionId =>
    obtain ⟨a, -, rfl⟩ := PairingOp.apply_start ha
    refine iff_of_true (fun x => ?_) (by rintro _ _ _ _ _ _ _ ⟨⟩)
    rw [wrongs_append, wrongs_single, PairingCall.wrongFor_none rfl]
    exact ⟨hle x, fun _ => rfl⟩
  | finish sessionId confirmation context r credential nonce =>
    obtain ⟨a, hfin, rfl⟩ := PairingOp.apply_finish ha
    have hans := finish_answer hfin hi.completed
    cases hch : s.pairing.checking sessionId r with
    | none =>
      simp only [hch] at hans
      subst hans
      refine iff_of_true (fun x => ?_) ?_
      · rw [wrongs_append, wrongs_single, PairingCall.wrongFor_none (PairingCall.checked_none hch)]
        exact ⟨hle x, fun _ => rfl⟩
      · rintro _ _ _ _ _ _ e ⟨⟩ h
        rw [hch] at h
        cases h
    | some e =>
      simp only [hch] at hans
      have hrec : s.pairing.failuresOf e.source = wrongs C e.source tr := by
        have hx : wrongs C e.source tr ≤ 5 := hle e.source
        rw [hi.failures]
        omega
      constructor
      · intro h _ _ _ _ _ _ e' heq he'
        cases heq
        obtain rfl : e = e' := Option.some.inj (hch.symm.trans he')
        rw [hrec]
        exact within_of_limited hch hans (h e.source)
      · intro h
        have h := h _ _ _ _ _ _ e rfl hch
        rw [hrec] at h
        exact limited_of_within hch hans hle h

/-- In a run of starts and finishes every source is held to the limit exactly
when every confirmation is evaluated within it. -/
theorem failures_limited_iff_within
    (h : Run (pairingStep C) (fun _ op => op.exchanges = true) (.new code created clock) tr s) :
    (∀ source, FailuresLimited C tr source) ↔ ∀ call ∈ tr, call.WithinLimit C := by
  suffices Charged C tr s ∧
      ((∀ source, FailuresLimited C tr source) ↔ ∀ call ∈ tr, call.WithinLimit C) from this.2
  refine Run.invariant (I := fun tr s => Charged C tr s ∧
    ((∀ source, FailuresLimited C tr source) ↔ ∀ call ∈ tr, call.WithinLimit C)) h ?_ ?_
  · refine ⟨⟨rfl, fun _ => rfl⟩,
      iff_of_true (fun _ => ⟨by simp [maxConfirmationFailures], ?_⟩) (by simp)⟩
    intro pre call post h
    simp at h
  · rintro tr s op s' es ⟨hi, ih⟩ he hs
    refine ⟨hi.next he hs, ?_⟩
    obtain ⟨-, p, answer, ha, rfl, rfl⟩ := pairingStep_eq_some hs
    simp only [failuresLimited_snoc, List.forall_mem_append, forall_and, List.forall_mem_singleton]
    rw [← forall_and, ih]
    refine and_congr_right fun hin => ?_
    exact withinLimit_iff hi he (fun x => (ih.mpr hin x).1) ha

/-- Six sessions opened first: six wrong confirmations are evaluated, and a
right one after five wrong ones still returns the credential. -/
theorem six_open_sessions_pass_the_limit :
    (∃ tr s, Run (pairingStep sampleCrates) (fun _ op => op.exchanges = true)
      (.new .sample 0 0) tr s ∧ wrongs sampleCrates (some (.v4 1)) tr = 6) ∧
    ∃ pre call s, Run (pairingStep sampleCrates) (fun _ op => op.exchanges = true)
      (.new .sample 0 0)
        (pre ++ [call]) s ∧
      wrongs sampleCrates (some (.v4 1)) pre = 5 ∧ call.okFor (some (.v4 1)) = true := by
  refine ⟨?_, ?_⟩
  · obtain ⟨tr, s, hrun, hp⟩ := Run.exists_of_exec (pairingStep sampleCrates)
      (fun _ op => op.exchanges = true) (.new .sample 0 0)
      ([1, 2, 3, 4, 5, 6].map openSession ++ [1, 2, 3, 4, 5, 6].map (closeSession · [] []))
      (fun _ tr => wrongs sampleCrates (some (.v4 1)) tr = 6) (by decide)
    exact ⟨tr, s, hrun, of_decide_eq_true hp⟩
  · obtain ⟨tr, s, hrun, hp⟩ := Run.exists_of_exec (pairingStep sampleCrates)
      (fun _ op => op.exchanges = true) (.new .sample 0 0)
      ([1, 2, 3, 4, 5, 6].map openSession ++ [1, 2, 3, 4, 5].map (closeSession · [] []) ++
        [closeSession 6 (List.replicate 32 5) []])
      (fun _ tr => wrongs sampleCrates (some (.v4 1)) tr.dropLast = 5 &&
        tr.getLast?.any (·.okFor (some (.v4 1)))) (by decide)
    simp only [Bool.and_eq_true, decide_eq_true_eq, Option.any_eq_true] at hp
    obtain ⟨hw, call, hl, hok⟩ := hp
    refine ⟨tr.dropLast, call, s, ?_, hw, hok⟩
    rwa [List.dropLast_append_getLast? call hl]

/-- Two sessions, one wrong confirmation, one right. -/
theorem two_sessions_keep_the_limit :
    ∃ tr s, Run (pairingStep sampleCrates) (fun _ op => op.exchanges = true)
      (.new .sample 0 0) tr s ∧ (∀ call ∈ tr, call.WithinLimit sampleCrates) ∧
      ∀ source, FailuresLimited sampleCrates tr source := by
  obtain ⟨tr, s, hrun, hp⟩ := Run.exists_of_exec (pairingStep sampleCrates)
    (fun _ op => op.exchanges = true) (.new .sample 0 0)
    [openSession 1, openSession 2, closeSession 1 [] [], closeSession 2 (List.replicate 32 5) []]
    (fun _ tr => tr.all fun call => call.before.failuresOf (some
      (.v4 1)) < maxConfirmationFailures &&
      call.checked.all fun e => e.1.source = some (.v4 1)) (by decide)
  have hin : ∀ call ∈ tr, call.WithinLimit sampleCrates := by
    intro call hcall sessionId confirmation context r credential nonce e hop hch
    have hc := List.all_eq_true.mp hp call hcall
    obtain ⟨before, op, answer⟩ := call
    subst hop
    rw [PairingCall.checked_some hch] at hc
    simp only [Option.all_some, Bool.and_eq_true, decide_eq_true_eq] at hc
    rw [hc.2]
    exact .inl hc.1
  exact ⟨tr, s, hrun, hin, (failures_limited_iff_within hrun).mpr hin⟩

end DeckyMyRig.Host
