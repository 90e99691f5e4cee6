import Mathlib.Order.Monotone.Basic
import DeckyMyRig.Host.SingleUse

/-!
# Codes over restarts

A restart rebuilds the stored code from `pairing_created_at`, a wall-clock
second, as an instant of the monotonic clock. `timedStep` is the host with the
moments at which its steps read the two clocks; `Clocked` says that the clocks
advance together. What is carried through a run is `Aged`: the rebuilt code is
dead for good, or its instant is less than a second after every moment of the
recorded second.
-/

namespace DeckyMyRig.Host

open Octets Machine

/-- The wall clock, in nanoseconds since the Unix epoch, at the moments of `T`:
the real numbers, or any other time. -/
structure Clocks (T : Type) [Preorder T] where
  wall : T → Nat
  monotone : Monotone wall

section
variable {T : Type} [Preorder T] {K : Clocks T} {C : Crates}

def Clocks.unix (K : Clocks T) (t : T) : Nat := K.wall t / seconds 1

structure Rebuilt (T : Type) where
  createdAt : Nat
  moment : T
  deriving DecidableEq

/-- The host at a moment. `offset` is what the wall clock shows at the
monotonic clock's epoch, which a reboot of the machine may move; `rebuilt` is
set while the code in memory is one that a restart has rebuilt. -/
structure Timed (T : Type) where
  app : AppState
  moment : T
  offset : Int
  rebuilt : Option (Rebuilt T)

/-- An input with the moments of its first and its last reading and, for a
restart, the new offset. -/
structure TimedInput (T : Type) where
  input : Input
  start : T
  stop : T
  offset : Int

def Output.isGenerated : Output → Bool
  | .generated .. => true
  | _ => false

def Timed.after (s : Timed T) (i : TimedInput T) (app : AppState) (out : List Output) : Timed T :=
  match i.input with
  | .restart _ =>
    { app
      moment := i.stop
      offset := i.offset
      rebuilt :=
        if s.app.stored.pairingCode.isSome then some ⟨s.app.stored.pairingCreatedAt, i.start⟩
        else none }
  | _ =>
    { app
      moment := i.stop
      offset := s.offset
      rebuilt := if out.any (·.isGenerated) then none else s.rebuilt }

def timedStep (C : Crates) (s : Timed T) (i : TimedInput T) : Option (Timed T × List Output) :=
  (hostStep C s.app i.input).map fun r => (s.after i r.1 r.2, r.2)

structure ReadTogether (K : Clocks T) (offset : Int) (i : TimedInput T) (env : Env) : Prop where
  first : (K.wall i.start : Int) = offset + env.r.first
  last : (K.wall i.stop : Int) = offset + env.r.last
  wall : ∀ w ∈ env.wall, ∃ u, i.start ≤ u ∧ u ≤ i.stop ∧ w = K.unix u

/-- Time goes on, and both clocks with it; a restart reads both at one moment. -/
def Clocked (K : Clocks T) (s : Timed T) (i : TimedInput T) : Prop :=
  s.moment ≤ i.start ∧ i.start ≤ i.stop ∧
    match i.input with
    | .advance _ env => ReadTogether K s.offset i env
    | .restart env => ReadTogether K i.offset i env ∧ ∀ w ∈ env.wall, w = K.unix i.start
    | _ => True

/-- A code rebuilt from `b` has expired for good, or was recorded in a second
that ends after the code's instant. -/
def Aged (K : Clocks T) (s : Timed T) (b : Rebuilt T) : Prop :=
  s.app.pairing.created + seconds 301 ≤ s.app.clock ∨
    b.createdAt ≠ 0 ∧ b.createdAt ≤ K.unix b.moment ∧
      ∀ u, K.unix u = b.createdAt → s.app.pairing.created + s.offset < K.wall u + seconds 1

-- ---------------------------------------------------------------------------
-- The code's instant
-- ---------------------------------------------------------------------------

theorem startPairing_created {identity : HostIdentity} (hcode : identity.pairingCode.isSome = true)
    (h : identity.startPairing now m value = .ok p) :
    p.created + seconds (subtractedAge identity.pairingCreatedAt now) = m := by
  obtain ⟨code, hcode⟩ := Option.isSome_iff_exists.mp hcode
  simp only [HostIdentity.startPairing, hcode] at h
  by_cases hv : validCode code = true
  · rw [fromCodeWithAge_valid hv] at h
    split at h
    · rename_i hle
      cases h
      exact Nat.sub_add_cancel hle
    · cases h
  · simp [PairingCode.fromCodeWithAge, hv] at h

theorem AppState.Advance.created_cases {id : Nat} (h : AppState.Advance C s env id t s' out) :
    s'.pairing.created = s.pairing.created ∨ s'.pairing.created + seconds 301 = env.r.last ∨
      out.any (·.isGenerated) = true := by
  generalize hp : s'.pairing = p
  cases hp ▸ h.pairingMoves with
  | within hw => exact .inl hw.created
  | started hok =>
    obtain ⟨shared, -, rfl, -⟩ := PairingCode.startForSource_ok hok
    exact .inl rfl
  | committed hcom =>
    rcases PairingCode.commit_cases hcom with
      ⟨rfl, -⟩ | ⟨_, _, -, -, -, -, -, ⟨-, hlate, hcreated⟩ | ⟨-, -, hcreated⟩⟩
    · exact .inl rfl
    · rw [hcreated]
      exact .inr (.inl (Nat.sub_add_cancel hlate))
    · exact .inl hcreated
  | installed => exact .inr (.inr rfl)

theorem Aged.boot {s' : Timed T}
    (hb : AppState.boot hostname stored nextTask wall env = some s'.app)
    (hcode : stored.pairingCode.isSome = true) (hr : (K.wall t : Int) = s'.offset + env.r.first)
    (hw : ∀ w ∈ env.wall, w = K.unix t) : Aged K s' ⟨stored.pairingCreatedAt, t⟩ := by
  have hlen : env.wall.length = 1 := by
    by_contra hne
    simp [AppState.boot, hcode, hne] at hb
  obtain ⟨w, hwall⟩ := List.length_eq_one_iff.mp hlen
  obtain rfl : w = K.unix t := hw w (by simp [hwall])
  obtain ⟨p, hp, happ⟩ := boot_eq_some hb
  rw [hwall] at hp
  have hcreated := startPairing_created hcode hp
  have hclock : env.r.first ≤ s'.app.clock := by
    rw [happ]
    exact env.r.first_le_last
  have hpairing : s'.app.pairing = p := by rw [happ]
  unfold Aged
  rw [hpairing]
  unfold subtractedAge at hcreated
  rw [List.headD_cons] at hcreated
  by_cases hbad : stored.pairingCreatedAt = 0 ∨ K.unix t < stored.pairingCreatedAt
  · rw [if_pos hbad] at hcreated
    exact .inl (hcreated.trans_le hclock)
  · rw [if_neg hbad] at hcreated
    rw [not_or, Nat.not_lt] at hbad
    rcases Nat.le_total 301 (K.unix t - stored.pairingCreatedAt) with hold | hyoung
    · rw [Nat.min_eq_right hold] at hcreated
      exact .inl (hcreated.trans_le hclock)
    · rw [Nat.min_eq_left hyoung] at hcreated
      refine .inr ⟨hbad.1, hbad.2, fun u hu => ?_⟩
      simp only [Clocks.unix, seconds] at *
      omega

-- ---------------------------------------------------------------------------
-- Steps and runs
-- ---------------------------------------------------------------------------

theorem Aged.keep {s s' : Timed T} (h : Aged K s b) (hclock : s.app.clock ≤ s'.app.clock)
    (hoffset : s'.offset = s.offset) (hcreated : s'.app.pairing.created = s.app.pairing.created) :
    Aged K s' b := by
  unfold Aged
  rw [hcreated, hoffset]
  exact h.imp_left (·.trans hclock)

omit [Preorder T] in
theorem timedStep_eq_some {s s' : Timed T} (h : timedStep C s i = some (s', out)) :
    ∃ app, HostStep C s.app i.input app out ∧ s' = s.after i app out := by
  obtain ⟨⟨app, out'⟩, hs, heq⟩ := Option.map_eq_some_iff.mp h
  obtain ⟨rfl, rfl⟩ := Prod.mk.inj heq
  exact ⟨app, hostStep_iff_cases hs, rfl⟩

theorem Aged.next {s s' : Timed T} (hi : ∀ b ∈ s.rebuilt, Aged K s b) (hc : Clocked K s i)
    (h : timedStep C s i = some (s', out)) : ∀ b ∈ s'.rebuilt, Aged K s' b := by
  obtain ⟨app, hstep, rfl⟩ := timedStep_eq_some h
  obtain ⟨-, -, hread⟩ := hc
  obtain ⟨input, start, stop, offset⟩ := i
  intro b hb
  cases hstep with
  | answered | spawned | cancelled => exact (hi b hb).keep (Nat.le_refl _) rfl rfl
  | @advanced id t env _ _ _ _ _ hclock ha =>
    have hlast : app.clock = env.r.last := ha.clocks.1
    simp only [Timed.after] at hb
    split at hb
    · cases hb
    · rename_i hnot
      rcases ha.created_cases with hkept | hdead | hgen
      · refine (hi b hb).keep ?_ rfl hkept
        exact (hclock.trans env.r.first_le_last).trans_eq hlast.symm
      · exact .inl (hdead.trans hlast.symm).le
      · exact absurd hgen hnot
  | @restarted env _ hboot =>
    obtain ⟨hread, hone⟩ := hread
    simp only [Timed.after] at hb
    split at hb
    · cases hb
      exact .boot hboot ‹_› hread.first hone
    · cases hb

/-- A code rebuilt from `b` may still be used at `t`: `b` records a second
before its restart, each of whose moments is less than 301 s ago. -/
def WithinLife (K : Clocks T) (b : Rebuilt T) (t : T) : Prop :=
  b.createdAt ≠ 0 ∧ b.createdAt ≤ K.unix b.moment ∧
    ∀ u, K.unix u = b.createdAt → K.wall t < K.wall u + seconds 301

theorem Aged.started {s s' : Timed T} (hi : Aged K s b) (hc : Clocked K s i)
    (h : timedStep C s i = some (s', out)) (ho : .started j start ∈ out) :
    WithinLife K b i.start := by
  obtain ⟨app, hstep, rfl⟩ := timedStep_eq_some h
  obtain ⟨-, -, hread⟩ := hc
  obtain ⟨input, first, stop, offset⟩ := i
  cases hstep with
  | @advanced id t env _ _ _ _ _ hclock ha =>
    have hyoung : elapsed s.app.pairing.created env.r.first ≤ pairingLifetime := by
      cases ha.pairingMoves with
      | within _ _ hn | committed _ hn => exact absurd ho (hn _ _)
      | started hok => exact (PairingCode.startForSource_ok hok).choose_spec.2.2.2.1
      | installed => simp at ho
    have hfirst := hread.first
    unfold elapsed pairingLifetime at hyoung
    rcases hi with hdead | ⟨hne, hle, hnear⟩
    · -- A dead code is refused: its 301 s are over when the step reads the clock.
      unfold seconds at *
      omega
    · refine ⟨hne, hle, fun u hu => ?_⟩
      have := hnear u hu
      unfold seconds at *
      omega
  | _ => simp at ho

end

def nanoseconds : Clocks Nat := ⟨id, monotone_id⟩

def inputAt (t : Nat) (input : Input) : TimedInput Nat := ⟨input, t, t, 0⟩

def readsNow (s : Timed Nat) (i : TimedInput Nat) : Bool :=
  s.moment ≤ i.start && i.stop = i.start && s.offset = 0 && i.offset = 0 &&
    match i.input with
    | .advance _ env | .restart env =>
      env.r.first = i.start && env.r.last = i.start && env.wall.all (· = i.start / seconds 1)
    | _ => true

theorem readsNow_clocked (h : readsNow s i = true) : Clocked nanoseconds s i := by
  obtain ⟨input, start, stop, offset⟩ := i
  simp only [readsNow, Bool.and_eq_true, decide_eq_true_eq] at h
  obtain ⟨⟨⟨⟨hle, rfl⟩, hs⟩, rfl⟩, hread⟩ := h
  have hboth {env : Env} (hfirst : env.r.first = stop) (hlast : env.r.last = stop)
      (hwall : env.wall.all (· = stop / seconds 1) = true) :
      ReadTogether nanoseconds 0 ⟨input, stop, stop, 0⟩ env ∧ ∀ w ∈ env.wall,
        w = nanoseconds.unix stop := by
    simp only [List.all_eq_true, decide_eq_true_eq] at hwall
    refine ⟨⟨?_, ?_, fun w hw => ⟨stop, Nat.le_refl _, Nat.le_refl _, hwall w hw⟩⟩, hwall⟩
    · simp [nanoseconds, hfirst]
    · simp [nanoseconds, hlast]
  refine ⟨hle, Nat.le_refl _, ?_⟩
  cases input with
  | advance id env =>
    simp only [Bool.and_eq_true, decide_eq_true_eq] at hread
    rw [hs]
    exact (hboth hread.1.1 hread.1.2 hread.2).1
  | restart env =>
    simp only [Bool.and_eq_true, decide_eq_true_eq] at hread
    exact hboth hread.1.1 hread.1.2 hread.2
  | _ => trivial

/-- Over any number of restarts, a start succeeds under a rebuilt code only
less than 301 s after every moment of the second its `pairing_created_at`
records, so after the moment of the record; and never if that is 0 or lies
after the second of the restart. -/
theorem restarts_do_not_extend_life {T : Type} [Preorder T] {K : Clocks T} {C : Crates}
    {first last : Timed T} {tr : List (Event (Timed T) (TimedInput T) Output)}
    (h : Run (logged (timedStep C)) (Clocked K) first tr last) (h0 : first.rebuilt = none) :
    ∀ e ∈ tr, ∀ id start, .started id start ∈ e.seen → ∀ b ∈ e.before.rebuilt,
      WithinLife K b e.input.start := by
  refine (h.forall_logged (I := fun s => ∀ b ∈ s.rebuilt, Aged K s b) (by simp [h0]) ?_).2
  intro s i s' out hi hc hs
  exact ⟨Aged.next hi hc hs, fun id start ho b hb => (hi b hb).started hc hs ho⟩

/-- A code recorded at 1000 s is rebuilt by restarts at 1050 and 1100 s, and a
session is started under it at 1299 s. -/
theorem start_after_two_restarts :
    ∃ tr last, Run (logged (timedStep pairingCrates)) (Clocked nanoseconds)
        ⟨newStart (seconds 1000), seconds 1000, 0, none⟩ tr last ∧
      ∃ e ∈ tr, (∃ id start, .started id start ∈ e.seen) ∧
        e.before.rebuilt = some ⟨1000, seconds 1100⟩ ∧
        WithinLife nanoseconds ⟨1000, seconds 1100⟩ e.input.start := by
  obtain ⟨tr, last, hrun, hp⟩ := Run.exists_of_exec (logged (timedStep pairingCrates))
    (fun s i => readsNow s i = true) ⟨newStart (seconds 1000), seconds 1000, 0, none⟩
    [inputAt (seconds 1050) (.restart { Env.sample [1050] with r := .at (seconds 1050) }),
      inputAt (seconds 1100) (.restart { Env.sample [1100] with r := .at (seconds 1100) }),
      inputAt (seconds 1299) (pairBody []), inputAt (seconds 1299) (stepAt 1299 [] 0),
      inputAt (seconds 1299) (stepAt 1299 [] 0)]
    (fun _ tr => tr.any fun e => decide (e.before.rebuilt = some ⟨1000, seconds 1100⟩) &&
      e.seen.any (·.isStarted)) (by decide +kernel)
  have hrun := hrun.mono fun _ _ => readsNow_clocked
  obtain ⟨e, he, hcode⟩ := List.any_eq_true.mp hp
  simp only [Bool.and_eq_true, decide_eq_true_eq, List.any_eq_true] at hcode
  obtain ⟨hrebuilt, o, ho, hstarted⟩ := hcode
  cases o with
  | started id start =>
    exact ⟨tr, last, hrun, e, he, ⟨id, start, ho⟩, hrebuilt,
      restarts_do_not_extend_life hrun rfl e he id start ho _ hrebuilt⟩
  | _ => cases hstarted

end DeckyMyRig.Host
