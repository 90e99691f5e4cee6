import DeckyMyRig.Host.ServerLaws

/-!
# What the host answers

Every response is an error, the answer to a shutdown, a status, the start of a
pairing, or the completion of one. Only the last carries a nonce and a
ciphertext, and only a status or a pairing is answered with 200.
-/

namespace DeckyMyRig.Host

open Octets

def Output.response : Output → Option Response
  | .answered _ response | .completed _ _ _ response => some response
  | _ => none

theorem Output.response_eq_some {o : Output} {response : Response}
    (h : o.response = some response) :
    (∃ id, o = .answered id response) ∨
      ∃ id request result, o = .completed id request result response := by
  cases o with
  | answered id =>
    cases h
    exact .inl ⟨id, rfl⟩
  | completed id request result =>
    cases h
    exact .inr ⟨id, request, result, rfl⟩
  | _ => cases h

def Task.completes : Task → Option PairRequest
  | .pairHostId request | .pairFinish request _ | .pairRepeat request _ | .pairSave request _
  | .pairCommit request _ => some request
  | _ => none

structure Refusal (C : Crates) (response : Response) : Prop where
  status : response.status ≠ 200
  body : ∃ e, response.body = C.encodeErrorResponse e

/-- A response that completes no pairing. -/
inductive Answer (C : Crates) (response : Response) : Prop
  | refused (h : Refusal C response)
  | shutdown (r : ShutdownResponse) (h : response.body = C.encodeShutdownResponse r)
  | status (r : StatusResponse) (h : response.body = C.encodeStatusResponse r)
  | started (r : PairResponse) (h : response.body = C.encodePairResponse r)
      (hnonce : r.encryptionNonce = [])

def Answers (P : Response → Prop) (out : List Output) : Prop :=
  ∀ id response, .answered id response ∈ out → P response

section
variable {C : Crates} {P : Response → Prop} {s : AppState} {env : Env} {id : Nat} {caller : Caller}

theorem Answers.of_none (h : ∀ o ∈ out, ∀ id response, o ≠ .answered id response) : Answers P out :=
  fun _ _ hmem => absurd rfl (h _ hmem _ _)

theorem Answers.nil : Answers P [] := .of_none (by simp)

theorem Answers.answer (h : P response) : Answers P (s.answer id response).2 := by
  intro j response' hmem
  cases List.mem_singleton.mp hmem
  exact h

theorem Answers.cons (h : Answers P out) (ho : ∀ id response, o ≠ .answered id response) :
    Answers P (o :: out) := by
  intro j response hmem
  rcases List.mem_cons.mp hmem with heq | hmem
  · exact absurd heq.symm (ho j response)
  · exact h j response hmem

theorem Answers.mono {Q : Response → Prop} (h : Answers P out)
    (hpq : ∀ response, P response → Q response) :
    Answers Q out :=
  fun id response hmem => hpq _ (h id response hmem)

-- ---------------------------------------------------------------------------
-- Refusals
-- ---------------------------------------------------------------------------

theorem error_refusal (h : status ≠ 200) : Refusal C (error C status code message) := ⟨h, _, rfl⟩

theorem authenticatedError_refusal (h : status ≠ 200) :
    Refusal C (authenticatedError C status code message context path) :=
  ⟨h, _, rfl⟩

theorem unauthorized_refusal (C : Crates) (reason : AuthError) :
    Refusal C (unauthorized C reason) := by
  unfold unauthorized
  repeat' split
  all_goals exact error_refusal (by decide)

theorem pairingFailed_refusal (C : Crates) (e : PairingError) : Refusal C (pairingFailed C e) := by
  cases e <;> exact error_refusal (by decide)

theorem route_refusal (h : AppState.route C request = .inl response) : Refusal C response := by
  cases request with
  | authenticated path http =>
    simp only [AppState.route] at h
    split at h
    · cases h
      exact unauthorized_refusal C _
    · cases h
  | pair source http =>
    simp only [AppState.route, protocolMismatch] at h
    repeat' split at h
    all_goals
      cases h
      try exact error_refusal (by decide)
  | generate => cases h

-- ---------------------------------------------------------------------------
-- Steps
-- ---------------------------------------------------------------------------

theorem served_answers : Answers (Answer C) (s.served C env id caller).2 := by
  unfold AppState.served
  split
  · exact .nil
  · refine Answers.cons ?_ (by simp)
    by_cases hpowers : env.powers = true
    · rw [if_pos hpowers]
      exact Answers.answer (s := s) (.shutdown _ rfl)
    · rw [if_neg hpowers]
      exact Answers.answer (s := s) (.refused (authenticatedError_refusal (by decide)))

theorem authenticated_answers : Answers (Answer C) (s.authenticated C env id caller).2 := by
  unfold AppState.authenticated
  simp only [authenticatedProtocolMismatch]
  repeat' split
  · exact .answer (.refused (authenticatedError_refusal (by decide)))
  · exact .answer (.refused (authenticatedError_refusal (by decide)))
  · exact .answer (.refused (authenticatedError_refusal (by decide)))
  · exact served_answers
  · exact .nil

theorem verify_answers :
    Answers (Answer C) (s.verify C env id path http auth credential now).2 := by
  unfold AppState.verify
  simp only
  split
  · exact .answer (.refused (unauthorized_refusal C _))
  · split
    · exact .answer (.refused (unauthorized_refusal C _))
    · split
      · exact .nil
      · exact authenticated_answers

theorem persistNonce_answers : Answers (Answer C) (s.persistNonce C env id caller).2 := by
  unfold AppState.persistNonce
  simp only
  split
  · exact .answer (.refused (unauthorized_refusal C _))
  · split
    · exact (authenticated_answers.cons (by simp)).cons (by simp)
    · exact .answer (.refused (unauthorized_refusal C _))

theorem run_refusals (C : Crates) (s : AppState) (env : Env) (id : Nat)
    (h : task.completes = some request) :
    Answers (Refusal C) (s.run C env id task).2 := by
  cases task with
  | pairHostId request => exact .nil
  | pairFinish request hostId =>
    simp only [AppState.run, AppState.pairFinish]
    split
    · exact .answer (pairingFailed_refusal C _)
    · exact .nil
  | pairRepeat request result => exact .of_none (by simp [AppState.run, AppState.pairRepeat])
  | pairSave request result =>
    simp only [AppState.run, AppState.pairSave]
    split
    · exact .of_none (by simp)
    · exact .answer (error_refusal (by decide))
  | pairCommit request result =>
    simp only [AppState.run, AppState.pairCommit]
    split <;> exact .of_none (by simp)
  | _ => cases h

theorem run_answers (C : Crates) (s : AppState) (env : Env) (id : Nat) (task : Task) :
    Answers (Answer C) (s.run C env id task).2 := by
  cases task with
  | credential path http auth =>
    simp only [AppState.run]
    split
    · exact .answer (.refused (unauthorized_refusal C _))
    · exact .nil
  | verify path http auth credential now => exact verify_answers
  | persistNonce caller => exact persistNonce_answers
  | latestVersion caller version =>
    simp only [AppState.run]
    split
    · exact served_answers
    · exact .nil
  | identityVersion caller version =>
    simp only [AppState.run, AppState.identityVersion]
    split <;> exact .of_none (by simp)
  | setLatest caller version => exact served_answers
  | statusReply caller => exact .answer (.status _ rfl)
  | pairCheck clientMessage source =>
    simp only [AppState.run, AppState.pairCheck]
    split
    · exact .answer (.refused (error_refusal (by decide)))
    · exact .nil
  | pairStart clientMessage source =>
    simp only [AppState.run, AppState.pairStart]
    split
    · exact .answer (.refused (pairingFailed_refusal C _))
    · exact .of_none (by simp)
  | pairReply started => exact .answer (.started _ rfl rfl)
  | pairHostId | pairFinish | pairRepeat | pairSave | pairCommit =>
    exact (run_refusals C s env id rfl).mono fun _ => .refused
  | genPairing => exact .nil
  | genIdentity =>
    simp only [AppState.run, AppState.genIdentity]
    split <;> exact .of_none (by simp)
  | genInstall generated updated => exact .of_none (by simp [AppState.run, AppState.genInstall])

theorem receive_refusals (C : Crates) (s : AppState) (request : Request) :
    Answers (Refusal C) (s.receive C request).2 := by
  unfold AppState.receive
  simp only
  split
  · rename_i hroute
    exact Answers.answer (s := s) (route_refusal hroute)
  · exact .nil

theorem request_refusals (h : hostStep C s (.request request) = some (s', out)) :
    Answers (Refusal C) out := by
  have hreceive : s.receive C request = (s', out) := Option.some.inj h
  have hrefusals := receive_refusals C s request
  rwa [hreceive] at hrefusals

theorem completion_refusals (h : hostStep C s (.advance id env) = some (s', out))
    (ht : s.tasks id = some task)
    (hc : task.completes = some request) : Answers (Refusal C) out := by
  have hrefusals := run_refusals C (s.tick env) env id hc
  rwa [hostStep_run h ht] at hrefusals

theorem hostStep_answers (h : hostStep C s i = some (s', out)) : Answers (Answer C) out := by
  cases i with
  | request request => exact (request_refusals h).mono fun _ => .refused
  | advance id env =>
    cases ht : s.tasks id with
    | none => simp [hostStep, AppState.advance, ht] at h
    | some task =>
      have hrun := run_answers C (s.tick env) env id task
      rwa [hostStep_run h ht] at hrun
  | cancel id =>
    obtain ⟨_, -, heq⟩ := Option.map_eq_some_iff.mp h
    cases heq
    exact .nil
  | restart env =>
    obtain ⟨_, -, heq⟩ := Option.map_eq_some_iff.mp h
    cases heq
    exact .of_none (by simp)

end

end DeckyMyRig.Host
