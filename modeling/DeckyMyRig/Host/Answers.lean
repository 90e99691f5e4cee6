import DeckyMyRig.Host.Replacement
import DeckyMyRig.Host.Serving

/-!
# Answers to a status request

Whoever sends it and whatever else happens: a status request that is not
authenticated gets an answer without a signature, and the signed answers are
the status itself and errors about the request.
-/

namespace DeckyMyRig.Host

open Octets Machine

inductive StatusAnswer (C : Crates) (host : Uuid) (name : Text) : Response → Prop
  | refused : StatusAnswer C host name (unauthorized C reason)
  | failed : status = 400 ∨ status = 415 ∨ status = 426 →
      StatusAnswer C host name (authenticatedError C status code message context Path.status.text)
  | served : caller.path = .status → StatusAnswer C host name
      (statusAnswer C host name paired caller)

inductive StatusTask : Task → Prop
  | credential : StatusTask (.credential .status http auth)
  | verify : StatusTask (.verify .status http auth credential now)
  | latestVersion : caller.path = .status → StatusTask (.latestVersion caller version)
  | identityVersion : caller.path = .status → StatusTask (.identityVersion caller version)
  | setLatest : caller.path = .status → StatusTask (.setLatest caller version)
  | statusReply : caller.path = .status → StatusTask (.statusReply caller)

structure Serves (C : Crates) (host : Uuid) (name : Text) (id : Nat) (s' : AppState)
    (out : List Output) : Prop where
  task : ∀ {t}, s'.tasks id = some t → StatusTask t
  answer : ∀ {j response}, .answered j response ∈ out → StatusAnswer C host name response

section
variable {C : Crates} {host : Uuid} {name : Text} {id : Nat} {s s' : AppState} {env : Env}
  {caller : Caller}

theorem Serves.goto (h : StatusTask t) : Serves C host name id (s.goto id t) [] :=
  ⟨fun ht => AppState.goto_task ht ▸ h, by simp⟩

theorem Serves.answered (h : StatusAnswer C host name response)
    (hout : s.answer id response = (s', out)) :
    Serves C host name id s' out := by
  cases hout
  refine ⟨fun ht => by simp [AppState.finish] at ht, fun hmem => ?_⟩
  simp only [List.mem_cons, Output.answered.injEq, List.not_mem_nil, or_false] at hmem
  rw [hmem.2]
  exact h

theorem served_serves (hpath : caller.path = .status)
    (hout : s.served C env id caller = (s', out)) :
    Serves C host name id s' out := by
  rw [AppState.served, hpath] at hout
  cases hout
  exact .goto (.statusReply hpath)

theorem authenticated_serves (hpath : caller.path = .status)
    (hout : s.authenticated C env id caller = (s', out)) : Serves C host name id s' out := by
  simp only [AppState.authenticated, hpath, authenticatedProtocolMismatch] at hout
  split at hout
  · exact .answered (.failed (.inr (.inl rfl))) hout
  · split at hout
    · exact .answered (.failed (.inl rfl)) hout
    · split at hout
      · exact .answered (.failed (.inr (.inr rfl))) hout
      · split at hout
        · exact served_serves hpath hout
        · cases hout
          exact .goto (.latestVersion hpath)

theorem verify_serves (hout : s.verify C env id .status http auth credential now = (s', out)) :
    Serves C host name id s' out := by
  unfold AppState.verify at hout
  simp only at hout
  split at hout
  · exact .answered .refused hout
  · split at hout
    · exact .answered .refused hout
    · exact authenticated_serves rfl hout

theorem StatusTask.step (hid : Identified host name s) (h : StatusTask t)
    (hout : s.run C env id t = (s', out)) : Serves C host name id s' out := by
  cases h with
  | credential =>
    simp only [AppState.run] at hout
    split at hout
    · exact .answered .refused hout
    · cases hout
      exact .goto .verify
  | verify => exact verify_serves hout
  | latestVersion hpath =>
    simp only [AppState.run] at hout
    split at hout
    · exact served_serves hpath hout
    · cases hout
      exact .goto (.identityVersion hpath)
  | identityVersion hpath =>
    simp only [AppState.run, AppState.identityVersion] at hout
    split at hout <;> cases hout <;>
      exact ⟨fun ht => by simp only [AppState.goto, if_true,
        Option.some.injEq] at ht; exact ht ▸ .setLatest hpath, by simp⟩
  | setLatest hpath => exact served_serves hpath hout
  | statusReply hpath =>
    simp only [AppState.run, AppState.statusReply, hid.hostname, hid.identity] at hout
    exact .answered (.served hpath) hout

end

-- ---------------------------------------------------------------------------
-- Runs
-- ---------------------------------------------------------------------------

theorem HostStep.task_of_other {j : Nat} (h : HostStep C s i s' out) (hborn : j < s.nextTask)
    (hi : ∀ env, i ≠ .advance j env) (ht : s'.tasks j = some t) : s.tasks j = some t := by
  cases h with
  | answered => exact ht
  | spawned => simpa [AppState.goto, Nat.ne_of_lt hborn] using ht
  | @advanced id u env _ _ _ _ _ _ ha =>
    obtain ⟨t', hm⟩ := ha.moves
    have hne : j ≠ id := by
      rintro rfl
      exact hi _ rfl
    simpa [hm.tasks, hne, AppState.tick] using ht
  | cancelled =>
    simp only [AppState.dropped, AppState.finish] at ht
    split at ht
    · cases ht
    · exact ht
  | restarted hb =>
    obtain ⟨p, -, rfl⟩ := boot_eq_some hb
    cases ht

theorem status_answers (hg : Grounded C host name s₀)
    (hreceive : s₀.receive C (.authenticated .status http) = (s₁, out))
    (h : Run (hostStep C) P s₁ tr s)
    (hanswer : .answered s₀.nextTask response ∈ out ++ tr) : StatusAnswer C host name response := by
  have hstep : hostStep C s₀ (.request (.authenticated .status http)) = some (s₁, out) := by
    rw [← hreceive]
    rfl
  have hfirst : s₀.nextTask < s₁.nextTask ∧ Serves C host name s₀.nextTask s₁ out := by
    simp only [AppState.receive, AppState.route] at hreceive
    split at hreceive <;> rename_i hroute <;> split at hroute <;> cases hroute <;> cases hreceive
    · refine ⟨Nat.lt_succ_self _, fun ht => ?_, fun hmem => ?_⟩
      · rw [show s₀.tasks s₀.nextTask = none from hg.locks.unborn _ (Nat.le_refl _)] at ht
        cases ht
      · simp only [List.mem_cons, Output.answered.injEq, List.not_mem_nil, or_false] at hmem
        rw [hmem.2]
        exact .refused
    · exact ⟨Nat.lt_succ_self _, .goto .credential⟩
  have hall := h.invariant
    (I := fun tr s => Grounded C host name s ∧ s₀.nextTask < s.nextTask ∧
      (∀ {t}, s.tasks s₀.nextTask = some t → StatusTask t) ∧
      ∀ {response}, .answered s₀.nextTask response ∈ out ++ tr → StatusAnswer C host name response)
    ⟨hg.next (hostStep_iff_cases hstep), hfirst.1, hfirst.2.task, fun hmem =>
      hfirst.2.answer (by simpa using hmem)⟩
    (by
      rintro tr s i s' out' ⟨hg, hborn, htask, hanswers⟩ - hs
      have hcases := hostStep_iff_cases hs
      by_cases hadvance : ∃ env, i = .advance s₀.nextTask env
      · obtain ⟨env, rfl⟩ := hadvance
        cases hcases with
        | advanced ht _ _ _ _ =>
          have hid : Identified host name (s.tick env) :=
            ⟨hg.identified.hostname, hg.identified.identity, hg.identified.stored,
              hg.identified.finishing⟩
          have hserves := (htask ht).step hid (hostStep_run hs ht)
          refine ⟨hg.next (hostStep_iff_cases hs),
            hborn.trans_le (hostStep_iff_cases hs).nextTask_le, hserves.task, fun hmem => ?_⟩
          rw [← List.append_assoc] at hmem
          rcases List.mem_append.mp hmem with hmem | hmem
          · exact hanswers hmem
          · exact hserves.answer hmem
      · have hadvance : ∀ env, i ≠ .advance s₀.nextTask env := fun env heq => hadvance ⟨env, heq⟩
        refine ⟨hg.next hcases, hborn.trans_le hcases.nextTask_le,
          fun ht => htask (hcases.task_of_other hborn hadvance ht), fun {response} hmem => ?_⟩
        rw [← List.append_assoc] at hmem
        rcases List.mem_append.mp hmem with hmem | hmem
        · exact hanswers hmem
        · have hact : .answered s₀.nextTask response ∈ actsOf s₀.nextTask out' :=
            List.mem_filter.mpr ⟨hmem, by simp [Output.actOf]⟩
          rw [hcases.actsOf_other hborn hadvance] at hact
          cases hact)
  exact hall.2.2.2 hanswer

end DeckyMyRig.Host
