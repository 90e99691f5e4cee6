import Mathlib.Data.List.Basic

/-!
# Runs of a machine

A machine is a partial step function: an input either cannot be taken in a
state, or gives the next state and the events it lets be seen. `Run` collects
the runs whose every input meets a condition on the state it is taken in;
`exec` replays one list of inputs. What one step preserves, a run preserves
(`Run.invariant`), and an event of a run comes from one of its steps
(`Run.at_event`). `logged` keeps whole steps as the events. `occurs` says that
events come in an order, `latest` is the value that the events leave in a
variable, and `lastAt` the event that left it there.
-/

namespace Machine

/-- A run from `start`: the events so far and the state reached. -/
inductive Run (step : σ → ι → Option (σ × List ε)) (P : σ → ι → Prop) (start : σ) :
    List ε → σ → Prop
  | refl : Run step P start [] start
  | next : Run step P start tr s → P s i → step s i = some (s', es) →
      Run step P start (tr ++ es) s'

section
variable {step : σ → ι → Option (σ × List ε)} {P Q : σ → ι → Prop}

theorem Run.invariant {I : List ε → σ → Prop} (h : Run step P start tr s) (h0 : I [] start)
    (hstep : ∀ {tr s i s' es}, I tr s → P s i → step s i = some (s', es) → I (tr ++ es) s') :
    I tr s := by
  induction h with
  | refl => exact h0
  | next _ hp hs ih => exact hstep ih hp hs

theorem Run.mono (h : Run step P start tr s) (hpq : ∀ s i, P s i → Q s i) :
    Run step Q start tr s := by
  induction h with
  | refl => exact .refl
  | next _ hp hs ih => exact .next ih (hpq _ _ hp) hs

theorem Run.single (hp : P s i) (h : step s i = some (s', es)) : Run step P s es s' := by
  simpa using Run.next .refl hp h

theorem Run.trans (h : Run step P a tr b) (h' : Run step P b tr' c) :
    Run step P a (tr ++ tr') c := by
  induction h' with
  | refl => simpa using h
  | next _ hp hs ih => rw [← List.append_assoc]; exact .next ih hp hs

theorem Run.eq_of_blocked (h : Run step P start tr s) (hblocked : ∀ i, ¬ P start i) :
    s = start := by
  induction h with
  | refl => rfl
  | next _ hp _ ih =>
    rw [ih] at hp
    exact absurd hp (hblocked _)

/-- Where every step emits one event, an event of a run comes from the step at
its place. -/
theorem Run.at_event (h : Run step P start tr s)
    (hone : ∀ {s i s' es}, step s i = some (s', es) → ∃ e, es = [e]) (htr : tr = pre ++ e :: post) :
    ∃ before i after, Run step P start pre before ∧ P before i ∧
      step before i = some (after, [e]) ∧ Run step P after post s := by
  induction h generalizing post with
  | refl => simp at htr
  | @next tr s i s' es hr hp hs ih =>
    obtain ⟨e', rfl⟩ := hone hs
    rcases List.eq_nil_or_concat post with rfl | ⟨post', last, rfl⟩
    · obtain ⟨rfl, he⟩ := List.append_inj' htr rfl
      obtain rfl := List.singleton_injective he
      exact ⟨s, i, s', hr, hp, hs, .refl⟩
    · rw [List.concat_eq_append, ← List.cons_append, ← List.append_assoc] at htr
      obtain ⟨hinit, he⟩ := List.append_inj' htr rfl
      obtain rfl := List.singleton_injective he
      obtain ⟨before, j, after, h1, h2, h3, h4⟩ := ih hinit
      exact ⟨before, j, after, h1, h2, h3, by simpa using h4.next hp hs⟩

structure Event (σ ι ε : Type _) where
  before : σ
  input : ι
  after : σ
  seen : List ε

/-- The machine whose events are its steps. -/
def logged (step : σ → ι → Option (σ × List ε)) (s : σ) (i : ι) :
    Option (σ × List (Event σ ι ε)) :=
  (step s i).map fun r => (r.1, [⟨s, i, r.1, r.2⟩])

theorem logged_eq_some (h : logged step s i = some (s', es)) :
    ∃ out, step s i = some (s', out) ∧ es = [⟨s, i, s', out⟩] := by
  obtain ⟨⟨s'', out⟩, hs, heq⟩ := Option.map_eq_some_iff.mp h
  obtain ⟨rfl, rfl⟩ := Prod.mk.inj heq
  exact ⟨out, hs, rfl⟩

theorem Run.at_logged (h : Run (logged step) P start (pre ++ e :: post) s) :
    Run (logged step) P start pre e.before ∧ P e.before e.input ∧
      step e.before e.input = some (e.after, e.seen) ∧ Run (logged step) P e.after post s := by
  obtain ⟨before, i, after, h1, h2, h3, h4⟩ := h.at_event
    (fun hs => by obtain ⟨out, -, rfl⟩ := logged_eq_some hs; exact ⟨_, rfl⟩) rfl
  obtain ⟨out, hs, he⟩ := logged_eq_some h3
  obtain rfl := List.singleton_injective he
  exact ⟨h1, h2, hs, h4⟩

theorem Run.unlogged (h : Run (logged step) P start tr s) :
    Run step P start (tr.flatMap (·.seen)) s := by
  induction h with
  | refl => exact .refl
  | next _ hp hl ih =>
    obtain ⟨out, hs, rfl⟩ := logged_eq_some hl
    simpa using ih.next hp hs

/-- Where a value changes on the way, one step changes it first. -/
theorem Run.exists_change {f : σ → α} (h : Run (logged step) P start tr s) (hne : f s ≠ f start) :
    ∃ a e b, tr = a ++ e :: b ∧ f e.before = f start ∧ f e.after ≠ f start := by
  induction h with
  | refl => exact absurd rfl hne
  | @next tr s i s' es _ _ hl ih =>
    by_cases hs : f s = f start
    · obtain ⟨out, -, rfl⟩ := logged_eq_some hl
      exact ⟨tr, _, [], rfl, hs, hne⟩
    · obtain ⟨a, e, b, rfl, hbefore, hafter⟩ := ih hs
      exact ⟨a, e, b ++ es, by simp, hbefore, hafter⟩

theorem Run.forall_logged {I : σ → Prop} {Q : Event σ ι ε → Prop}
    (h : Run (logged step) P start tr s) (h0 : I start)
    (hstep : ∀ {s i s' out}, I s → P s i → step s i = some (s', out) → I s' ∧ Q ⟨s, i, s', out⟩) :
    I s ∧ ∀ e ∈ tr, Q e := by
  refine h.invariant (I := fun tr s => I s ∧ ∀ e ∈ tr, Q e) ⟨h0, by simp⟩ ?_
  rintro tr s i s' es ⟨hi, hq⟩ hp hl
  obtain ⟨out, hs, rfl⟩ := logged_eq_some hl
  obtain ⟨hi', hq'⟩ := hstep hi hp hs
  refine ⟨hi', fun e he => ?_⟩
  rcases List.mem_append.mp he with he | he
  · exact hq e he
  · obtain rfl := List.mem_singleton.mp he
    exact hq'

end

/-- Replays a list of inputs, each of which has to meet `P`. -/
def exec (step : σ → ι → Option (σ × List ε)) (P : σ → ι → Prop) [∀ s i, Decidable (P s i)] :
    σ → List ι → Option (σ × List ε)
  | s, [] => some (s, [])
  | s, i :: is =>
    if P s i then
      match step s i with
      | none => none
      | some (s', es) => (exec step P s' is).map fun r => (r.1, es ++ r.2)
    else none

theorem Run.of_exec {step : σ → ι → Option (σ × List ε)} {P : σ → ι → Prop}
    [∀ s i, Decidable (P s i)] {is : List ι} (h : exec step P s is = some (s', tr)) :
    Run step P s tr s' := by
  induction is generalizing s tr with
  | nil =>
    simp only [exec, Option.some.injEq, Prod.mk.injEq] at h
    obtain ⟨rfl, rfl⟩ := h
    exact .refl
  | cons i is ih =>
    simp only [exec] at h
    split at h
    · rename_i hp
      split at h
      · cases h
      · rename_i a es hs
        simp only [Option.map_eq_some_iff, Prod.exists, Prod.mk.injEq] at h
        obtain ⟨b, fs, hx, rfl, rfl⟩ := h
        exact (Run.single hp hs).trans (ih hx)
    · cases h

theorem Run.exists_of_exec (step : σ → ι → Option (σ × List ε)) (P : σ → ι → Prop)
    [∀ s i, Decidable (P s i)] (s : σ) (is : List ι) (p : σ → List ε → Bool)
    (h : (exec step P s is).any (fun r => p r.1 r.2) = true) :
    ∃ tr s', Run step P s tr s' ∧ p s' tr = true := by
  cases hx : exec step P s is with
  | none => simp [hx] at h
  | some r => exact ⟨r.2, r.1, Run.of_exec hx, by simpa [hx] using h⟩

-- ---------------------------------------------------------------------------
-- Events and those before them
-- ---------------------------------------------------------------------------

/-- After the events `past`, each event has `Q` with those before it. -/
def Justified (Q : List ε → ε → Prop) : (past tr : List ε) → Prop
  | _, [] => True
  | past, e :: tr => Q past e ∧ Justified Q (past ++ [e]) tr

theorem justified_append {Q : List ε → ε → Prop} :
    Justified Q past (a ++ b) ↔ Justified Q past a ∧ Justified Q (past ++ a) b := by
  induction a generalizing past with
  | nil => simp [Justified]
  | cons e a ih => simp [Justified, ih, and_assoc]

theorem justified_of_forall {Q : List ε → ε → Prop}
    (h : ∀ e ∈ tr, ∀ past, Q past e) (past : List ε) :
    Justified Q past tr := by
  induction tr generalizing past with
  | nil => exact trivial
  | cons e tr ih =>
    exact ⟨h e List.mem_cons_self past, ih (fun e he => h e (List.mem_cons_of_mem _ he)) _⟩

theorem justified_of_extended {Q : List ε → ε → Prop} (h : ∀ e ∈ tr, ∀ more, Q (past ++ more) e) :
    Justified Q past tr := by
  induction tr generalizing past with
  | nil => exact trivial
  | cons e tr ih =>
    refine ⟨by simpa using h e List.mem_cons_self [], ih fun e' he more => ?_⟩
    simpa using h e' (List.mem_cons_of_mem _ he) (e :: more)

theorem Justified.at {Q : List ε → ε → Prop} (h : Justified Q [] (pre ++ e :: post)) : Q pre e := by
  have h := (justified_append.mp h).2
  simpa using h.1

theorem Justified.of_mem {Q : List ε → ε → Prop} (h : Justified Q [] tr) (he : e ∈ tr) :
    ∃ past, Q past e := by
  obtain ⟨pre, post, rfl⟩ := List.append_of_mem he
  exact ⟨pre, h.at⟩

-- ---------------------------------------------------------------------------
-- Events in an order
-- ---------------------------------------------------------------------------

/-- Events with the given properties occur one after the other, others between
them. -/
def occurs : List (ε → Bool) → List ε → Bool
  | [], _ => true
  | _ :: _, [] => false
  | q :: qs, e :: tr => q e && occurs qs tr || occurs (q :: qs) tr

@[simp] theorem occurs_nil (tr : List ε) : occurs [] tr = true := by
  cases tr <;> rfl

theorem occurs_append_left (qs : List (ε → Bool)) (a : List ε) (h : occurs qs b = true) :
    occurs qs (a ++ b) = true := by
  cases qs with
  | nil => exact occurs_nil _
  | cons q qs =>
    induction a with
    | nil => exact h
    | cons e a ih => simp [occurs, ih]

theorem occurs_cons {q : ε → Bool} :
    occurs (q :: qs) tr = true ↔ ∃ a e b, tr = a ++ e :: b ∧ q e = true ∧ occurs qs b = true := by
  constructor
  · intro h
    induction tr with
    | nil => cases h
    | cons e tr ih =>
      simp only [occurs, Bool.or_eq_true, Bool.and_eq_true] at h
      rcases h with ⟨hq, h⟩ | h
      · exact ⟨[], e, tr, rfl, hq, h⟩
      · obtain ⟨a, e', b, rfl, hq, h⟩ := ih h
        exact ⟨e :: a, e', b, rfl, hq, h⟩
  · rintro ⟨a, e, b, rfl, hq, h⟩
    refine occurs_append_left _ a ?_
    simp [occurs, hq, h]

-- ---------------------------------------------------------------------------
-- Values that events set
-- ---------------------------------------------------------------------------

def latest (f : ε → Option α) (start : Option α) (tr : List ε) : Option α :=
  ((tr.filterMap f).getLast?).or start

theorem latest_append (f : ε → Option α) (start : Option α) (a b : List ε) :
    latest f start (a ++ b) = latest f (latest f start a) b := by
  simp [latest, List.getLast?_append, Option.or_assoc]

theorem latest_eq_start {f : ε → Option α} (h : ∀ e ∈ tr, f e = none) (start : Option α) :
    latest f start tr = start := by
  simp [latest, List.filterMap_eq_nil_iff.mpr h]

def lastAt (f : ε → Option α) : List ε → Option (List ε × α)
  | [] => none
  | e :: tr =>
    match lastAt f tr with
    | some (past, a) => some (e :: past, a)
    | none => (f e).map ([], ·)

theorem lastAt_append (f : ε → Option α) (a b : List ε) :
    lastAt f (a ++ b) = match lastAt f b with
      | some (past, x) => some (a ++ past, x)
      | none => lastAt f a := by
  induction a with
  | nil =>
    rw [List.nil_append]
    cases lastAt f b <;> rfl
  | cons e a ih =>
    simp only [List.cons_append, lastAt, ih]
    cases lastAt f b <;> rfl

theorem lastAt_eq_none {f : ε → Option α} (h : ∀ e ∈ tr, f e = none) : lastAt f tr = none := by
  induction tr with
  | nil => rfl
  | cons e tr ih =>
    rw [lastAt, ih fun e he => h e (List.mem_cons_of_mem _ he), h e List.mem_cons_self]
    rfl

end Machine
