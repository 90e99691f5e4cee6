import DeckyMyRig.Host.AuthReplay

/-!
# Requests that are rejected

A sequence of `Authenticator::verify` calls at any readings. What a rejected
call leaves behind, the time of a failure, only decides how later rejections
are answered: without the rejected calls, the others get the same answers.
-/

namespace DeckyMyRig.Host

open Octets

def Authenticator.answers (C : Crates) : Authenticator → List VerifyCall → List Verified
  | _, [] => []
  | a, call :: calls =>
    let (a, answer) := a.verify C call.signed.secret call.signed.request call.now
    ⟨call, answer⟩ :: a.answers C calls

/-- The answer was `Stale`, `Malformed`, `Invalid` or `RateLimited`. -/
def Verified.rejected (e : Verified) : Bool :=
  match e.answer with
  | .error .stale | .error .malformed | .error .invalid | .error .rateLimited => true
  | _ => false

-- ---------------------------------------------------------------------------
-- Which calls are rejected
-- ---------------------------------------------------------------------------

theorem reject_answer (a : Authenticator) (now : Nat) (error : AuthError) :
    (a.reject now error).2 = .error error ∨ (a.reject now error).2 = .error .rateLimited := by
  simp only [Authenticator.reject, Authenticator.failed]
  split
  · exact .inr rfl
  · exact .inl rfl

theorem reject_rejected {a : Authenticator} {call : VerifyCall} {error : AuthError}
    (he : error = .stale ∨ error = .malformed ∨ error = .invalid) :
    (Verified.mk call (a.reject now error).2).rejected = true := by
  rcases reject_answer a now error with h | h
  · rw [h]
    rcases he with rfl | rfl | rfl <;> rfl
  · rw [h]
    rfl

theorem rejected_iff {a : Authenticator} {call : VerifyCall} :
    (Verified.mk call (a.verify C secret r now).2).rejected = true ↔
      ¬ (Authentic C secret r ∧ InWindow r now) := by
  constructor
  · rintro h ⟨ha, hw⟩
    rw [verify_authentic ha hw] at h
    simp only [Verified.rejected] at h
    split at h <;> rename_i heq <;> first | (split at heq <;> cases heq) | cases h
  · intro h
    obtain ⟨error, herror, heq⟩ := verify_eq_reject (a := a) h
    rw [heq]
    exact reject_rejected herror

-- ---------------------------------------------------------------------------
-- Leaving them out
-- ---------------------------------------------------------------------------

/-- Only the accepted nonces count for a call that is not rejected. -/
theorem verify_congr {a b : Authenticator} (h : a.acceptedNonces = b.acceptedNonces)
    (hv : Authentic C secret r ∧ InWindow r now) :
    (b.verify C secret r now).2 = (a.verify C secret r now).2 ∧
      (a.verify C secret r now).1.acceptedNonces = (b.verify C secret r now).1.acceptedNonces := by
  have hlive : a.live now = b.live now := by
    unfold Authenticator.live
    rw [h]
  rw [verify_authentic hv.1 hv.2, verify_authentic hv.1 hv.2, hlive]
  exact ⟨rfl, rfl⟩

theorem answers_without_rejected {a b : Authenticator} (h : a.acceptedNonces = b.acceptedNonces)
    (calls : List VerifyCall) :
    b.answers C (((a.answers C calls).filter (!·.rejected)).map (·.call)) =
      (a.answers C calls).filter (!·.rejected) := by
  induction calls generalizing a b with
  | nil => rfl
  | cons call calls ih =>
    simp only [Authenticator.answers]
    by_cases hv : Authentic C call.signed.secret call.signed.request ∧
      InWindow call.signed.request call.now
    · have hkept : (Verified.mk call
          (a.verify C call.signed.secret call.signed.request call.now).2).rejected = false :=
        Bool.eq_false_iff.mpr fun hr => rejected_iff.mp hr hv
      obtain ⟨hanswer, hnonces⟩ := verify_congr h hv
      simp [hkept, Authenticator.answers, hanswer, ih hnonces]
    · have hrejected : (Verified.mk call
          (a.verify C call.signed.secret call.signed.request call.now).2).rejected = true :=
        rejected_iff.mpr hv
      have hnonces := (verify_rejected (a := a) hv).1
      simp [hrejected, ih (hnonces.trans h)]

/-- Without the calls that an authenticator rejects, it answers the others as
before. -/
theorem rejected_calls_do_not_interfere (C : Crates) (a : Authenticator) (calls : List VerifyCall) :
    a.answers C (((a.answers C calls).filter (!·.rejected)).map (·.call)) =
      (a.answers C calls).filter (!·.rejected) :=
  answers_without_rejected rfl calls

end DeckyMyRig.Host
