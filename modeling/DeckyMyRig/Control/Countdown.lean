import DeckyMyRig.Control.ViewModel

/-!
# Code and countdown

`Apply` sets the code, the countdown and the instant it counts to, the handler
of `ExecuteAsync` only the first two, and `Tick` only the countdown. A failed
call therefore leaves an instant without its code, and the next tick counts down
to it. A code of another length is not shown, but counted down for.
-/

namespace DeckyMyRig.Control

open Machine

def HostControlViewModel.Coherent (vm : HostControlViewModel) : Prop :=
  vm.expiration ≠ dash → vm.pairingCode ≠ dash

/-- The input does not part the countdown from its code: a code has six units, or
its instant is out of range and no countdown is shown; and the timer does not
tick while an instant is kept without a code. -/
def WindowInput.keeps (vm : HostControlViewModel) : WindowInput → Prop
  | .complete (.answered state now _) =>
    state.ok = true → ∀ code ∈ state.pairingCode,
      code.length = 6 ∨ addSeconds now state.expiresInSeconds = none ∧ vm.expiration = dash
  | .tick _ => vm.expiresAt ≠ none → vm.pairingCode ≠ dash
  | _ => True

instance (vm : HostControlViewModel) : (i : WindowInput) → Decidable (i.keeps vm)
  | .begin | .complete .failed | .complete .escaped => inferInstanceAs (Decidable True)
  | .complete (.answered state now _) =>
    inferInstanceAs (Decidable (state.ok = true → ∀ code ∈ state.pairingCode,
      code.length = 6 ∨ addSeconds now state.expiresInSeconds = none ∧ vm.expiration = dash))
  | .tick _ => inferInstanceAs (Decidable (vm.expiresAt ≠ none → vm.pairingCode ≠ dash))

theorem formatCode_ne_dash (code : Str) : formatCode (some code) ≠ dash ↔ code.length = 6 := by
  simp only [formatCode]
  split
  · rename_i h
    refine iff_of_true (fun heq => ?_) h
    have hlen := congrArg List.length heq
    simp [h, str, dash] at hlen
  · rename_i h
    exact iff_of_false (fun hne => hne rfl) h

theorem countdown_ne_dash (R : Runtime) (expiresAt : Option Nat) (now : Nat) :
    countdown R expiresAt now ≠ dash ↔ expiresAt ≠ none := by
  cases expiresAt with
  | none => simp [countdown]
  | some instant =>
    refine iff_of_true (fun heq => ?_) (by simp)
    simp only [countdown] at heq
    split at heq
    · exact absurd heq (by decide)
    · have hcolon : (58 : UInt16) ∈ dash := by
        rw [← heq]
        simp [show str ":" = [58] from rfl]
      exact absurd hcolon (by decide)

section
variable {R : Runtime} {vm : HostControlViewModel}

theorem tick_coherent :
    (vm.tick R now).Coherent ↔ (vm.expiresAt ≠ none → vm.pairingCode ≠ dash) := by
  simp only [HostControlViewModel.Coherent, HostControlViewModel.tick, countdown_ne_dash]

theorem apply_coherent (h : vm.Coherent) :
    (vm.apply R state now now').Coherent ↔
      (WindowInput.complete (.answered state now now')).keeps vm := by
  simp only [HostControlViewModel.apply, WindowInput.keeps]
  cases state.ok with
  | false => exact iff_of_true h (by rintro ⟨⟩)
  | true =>
    have hcode : ((vm.described state).coded state).pairingCode = formatCode state.pairingCode :=
      rfl
    cases hpairing : state.pairingCode with
    | none => exact iff_of_true (fun hne => absurd rfl hne) (by rintro - _ ⟨⟩)
    | some code =>
      rw [hpairing] at hcode
      cases addSeconds now state.expiresInSeconds with
      | some instant =>
        simp [tick_coherent, hcode, formatCode_ne_dash]
      | none =>
        have hkept : ((vm.described state).coded state).expiration = vm.expiration := rfl
        have hcoherent : ((vm.described state).coded state).Coherent ↔
            (vm.expiration ≠ dash → code.length = 6) := by
          rw [HostControlViewModel.Coherent, hkept, hcode, formatCode_ne_dash]
        simpa [or_iff_not_imp_right] using hcoherent

theorem WindowInput.apply_coherent (h : vm.Coherent) (i : WindowInput) :
    (i.apply R vm).Coherent ↔ i.keeps vm := by
  cases i with
  | begin => exact iff_of_true h trivial
  | tick now => exact tick_coherent
  | complete completion =>
    cases completion with
    | answered state now now' => exact Control.apply_coherent h
    | failed => exact iff_of_true (fun hne => absurd rfl hne) trivial
    | escaped => exact iff_of_true h trivial

end

def pairingAnswer : ManagementState where
  ok := true
  error := none
  serviceRunning := true
  port := 48100
  paired := false
  pairingCode := some (str "483921")
  expiresInSeconds := 272

/-- In every run of a window, all states show a countdown only with a code
exactly if every input keeps the two together. -/
theorem countdown_with_code_iff (h : Run (logged (windowStep R)) (fun _ _ => True) {} tr s) :
    (∀ e ∈ tr, e.after.Coherent) ↔ ∀ e ∈ tr, e.input.keeps e.before := by
  have hlast : ((∀ e ∈ tr, e.after.Coherent) → s.Coherent) ∧
      ((∀ e ∈ tr, e.after.Coherent) ↔ ∀ e ∈ tr, e.input.keeps e.before) := by
    refine h.invariant (I := fun tr s => ((∀ e ∈ tr, e.after.Coherent) → s.Coherent) ∧
      ((∀ e ∈ tr, e.after.Coherent) ↔ ∀ e ∈ tr, e.input.keeps e.before)) ?_ ?_
    · exact ⟨fun _ hne => absurd rfl hne, by simp⟩
    · rintro tr s i s' es ⟨hs, hiff⟩ - hl
      obtain ⟨out, hstep, rfl⟩ := logged_eq_some hl
      cases hstep
      refine ⟨fun hall => hall _ (List.mem_append_right _ (List.mem_singleton.mpr rfl)), ?_⟩
      simp only [List.mem_append, List.mem_singleton, or_imp, forall_and, forall_eq, ← hiff]
      constructor
      · rintro ⟨hall, hafter⟩
        exact ⟨hall, (i.apply_coherent (hs hall)).mp hafter⟩
      · rintro ⟨hall, hkeeps⟩
        exact ⟨hall, (i.apply_coherent (hs hall)).mpr hkeeps⟩
  exact hlast.2

/-- A second later the code is still shown with its time. -/
theorem countdown_with_shown_code :
    ∃ tr s, Run (logged (windowStep ⟨fun ticks => ticks / 600000000⟩)) (fun _ _ => True) {} tr s ∧
      s.expiration = str "04:31" ∧ ∀ e ∈ tr, e.after.Coherent := by
  obtain ⟨tr, s, hrun, hp⟩ :=
    Run.exists_of_exec (logged (windowStep ⟨fun ticks => ticks / 600000000⟩))
    (fun _ _ => True) {} [.begin, .complete (.answered pairingAnswer 0 0), .tick ticksPerSecond]
    (fun s tr => s.expiration = str "04:31" && tr.all fun e => e.input.keeps e.before)
      (by decide +kernel)
  simp only [Bool.and_eq_true, List.all_eq_true, decide_eq_true_eq] at hp
  exact ⟨tr, s, hrun, hp.1, (countdown_with_code_iff hrun).mpr hp.2⟩

/-- A code for 272 s; a failed call resets the window; the timer ticks. -/
theorem countdown_after_failure :
    ∃ tr s, Run (logged (windowStep ⟨fun ticks => ticks / 600000000⟩)) (fun _ _ => True) {} tr s ∧
      s.pairingCode = dash ∧ s.expiration = str "04:31" := by
  obtain ⟨tr, s, hrun, hp⟩ :=
    Run.exists_of_exec (logged (windowStep ⟨fun ticks => ticks / 600000000⟩))
    (fun _ _ => True) {}
    [.begin, .complete (.answered pairingAnswer 0 0), .begin, .complete .failed,
      .tick ticksPerSecond]
    (fun s _ => s.pairingCode = dash && s.expiration = str "04:31") (by decide +kernel)
  simp only [Bool.and_eq_true, decide_eq_true_eq] at hp
  exact ⟨tr, s, hrun, hp⟩

end DeckyMyRig.Control
