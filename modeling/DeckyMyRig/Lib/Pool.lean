import Mathlib.Data.List.TakeDrop
import DeckyMyRig.Lib.Dicts
import DeckyMyRig.Lib.Lists
import DeckyMyRig.Lib.Runs

/-!
# A pool of tasks

Jobs that wait in line for one of a number of permits, work on a state that they
share with others, and leave a result each in its place. A job keeps its permit
from the moment it begins to the moment it ends; the state it works on is the
one it finds when it ends. Of a run, `Served` says which tasks are where and
which step left each result; `progress` says that a pool that is not through has
a task that can begin or one that can end.
-/

namespace Pool

open Machine

inductive Task (κ ρ : Type)
  | waiting (job : κ)
  | running (job : κ)
  | done (job : κ) (result : ρ)

namespace Task

variable {κ ρ : Type}

def job : Task κ ρ → κ
  | .waiting job | .running job | .done job _ => job

def isWaiting : Task κ ρ → Bool
  | .waiting _ => true
  | _ => false

def isRunning : Task κ ρ → Bool
  | .running _ => true
  | _ => false

def begun : Task κ ρ → Task κ ρ
  | .waiting job => .running job
  | t => t

def result? : Task κ ρ → Option ρ
  | .done _ result => some result
  | _ => none

def left : Task κ ρ → Nat
  | .waiting _ => 2
  | .running _ => 1
  | .done .. => 0

end Task

structure State (σ κ ρ : Type) where
  shared : σ
  permits : Nat
  tasks : List (Task κ ρ)

inductive Input (α η : Type)
  /-- The next in line takes a permit. -/
  | acquire
  /-- The task in place `i` ends. -/
  | finish (i : Nat) (answer : α)
  /-- Somebody else works on the state. -/
  | other (e : η)

section
variable {σ κ ρ α η : Type}

def start (shared : σ) (permits : Nat) (jobs : List κ) : State σ κ ρ :=
  ⟨shared, permits, jobs.map .waiting⟩

def inUse (tasks : List (Task κ ρ)) : Nat := tasks.countP (·.isRunning)

def left : List (Task κ ρ) → Nat
  | [] => 0
  | t :: tasks => t.left + left tasks

def results (tasks : List (Task κ ρ)) : Option (List ρ) := tasks.mapM Task.result?

variable (work : κ → α → σ → σ × ρ) (env : η → σ → σ)

def step (s : State σ κ ρ) : Input α η → Option (State σ κ ρ × List Unit)
  | .acquire =>
    if s.permits = 0 then none
    else
      (updateFirst Task.isWaiting Task.begun s.tasks).map fun r =>
        ({ s with permits := s.permits - 1, tasks := r.2 }, [])
  | .finish i answer =>
    match s.tasks[i]? with
    | some (.running job) =>
      let r := work job answer s.shared
      some ({ shared := r.1, permits := s.permits + 1, tasks := s.tasks.set i (.done job r.2) }, [])
    | _ => none
  | .other e => some ({ s with shared := env e s.shared }, [])

def Input.isOther : Input α η → Bool
  | .other _ => true
  | _ => false

def Input.finishes (i : Nat) : Input α η → Bool
  | .finish j _ => i = j
  | _ => false

variable {work env}

-- ---------------------------------------------------------------------------
-- One step
-- ---------------------------------------------------------------------------

theorem Task.eq_waiting {t : Task κ ρ} (h : t.isWaiting = true) : t = .waiting t.job := by
  cases t with
  | waiting job => rfl
  | running | done => cases h

theorem step_cases {s s' : State σ κ ρ} {input : Input α η}
    (h : step work env s input = some (s', out)) :
    (∃ before job after, input = .acquire ∧ s.permits ≠ 0 ∧
      s.tasks = before ++ .waiting job :: after ∧
      s' = { s with permits := s.permits - 1, tasks := before ++ .running job :: after }) ∨
    (∃ i answer job, input = .finish i answer ∧ s.tasks[i]? = some (.running job) ∧
      s' = ⟨(work job answer s.shared).1, s.permits + 1,
        s.tasks.set i (.done job (work job answer s.shared).2)⟩) ∨
    ∃ e, input = .other e ∧ s' = { s with shared := env e s.shared } := by
  cases input with
  | acquire =>
    simp only [step] at h
    split at h
    · cases h
    · rename_i hpermits
      obtain ⟨⟨t, tasks⟩, hfirst, heq⟩ := Option.map_eq_some_iff.mp h
      rcases updateFirst_cases Task.isWaiting Task.begun s.tasks with
        ⟨hnone, -⟩ | ⟨before, x, after, hsplit, -, hx, hsome⟩
      · rw [hnone] at hfirst
        cases hfirst
      · rw [hsome] at hfirst
        cases hfirst
        cases heq
        rw [Task.eq_waiting hx] at hsplit ⊢
        exact .inl ⟨before, _, after, rfl, hpermits, hsplit, rfl⟩
  | finish i answer =>
    simp only [step] at h
    split at h
    · rename_i job hjob
      cases h
      exact .inr (.inl ⟨i, answer, job, rfl, hjob, rfl⟩)
    · cases h
  | other e =>
    cases h
    exact .inr (.inr ⟨e, rfl, rfl⟩)

theorem split_at {l : List β} {x : β} (h : l[i]? = some x) :
    ∃ before after, l = before ++ x :: after ∧ before.length = i ∧
      ∀ y, l.set i y = before ++ y :: after := by
  obtain ⟨hlt, rfl⟩ := List.getElem?_eq_some_iff.mp h
  refine ⟨l.take i, l.drop (i + 1), ?_, by simp; omega, fun y => ?_⟩
  · rw [List.cons_getElem_drop_succ, List.take_append_drop]
  · rw [List.set_eq_take_append_cons_drop, if_pos hlt]

-- ---------------------------------------------------------------------------
-- Runs
-- ---------------------------------------------------------------------------

/-- The step that left the result of the task in place `i`: none after it ends that
task. -/
def Leaves (work : κ → α → σ → σ × ρ) (tr : List (Event (State σ κ ρ) (Input α η) Unit))
    (i : Nat) (job : κ) (result : ρ) : Prop :=
  ∃ pre e post answer, tr = pre ++ e :: post ∧ e.input = .finish i answer ∧
    e.after.shared = (work job answer e.before.shared).1 ∧
    result = (work job answer e.before.shared).2 ∧
    e.before.tasks[i]? = some (.running job) ∧ ∀ e' ∈ post, e'.input.finishes i = false

structure Served (work : κ → α → σ → σ × ρ) (limit : Nat) (jobs : List κ)
    (tr : List (Event (State σ κ ρ) (Input α η) Unit)) (s : State σ κ ρ) : Prop where
  places : s.tasks.map Task.job = jobs
  permits : s.permits + inUse s.tasks = limit
  steps : (tr.filter (!·.input.isOther)).length + left s.tasks = 2 * jobs.length
  done : ∀ i job result, s.tasks[i]? = some (.done job result) → Leaves work tr i job result

theorem inUse_place (before after : List (Task κ ρ)) (t : Task κ ρ) :
    inUse (before ++ t :: after) = inUse before + inUse after + if t.isRunning then 1 else 0 := by
  simp only [inUse, List.countP_append, List.countP_cons, Nat.add_assoc]

theorem left_place (before after : List (Task κ ρ)) (t : Task κ ρ) :
    left (before ++ t :: after) = left before + left after + t.left := by
  induction before with
  | nil => simp [left, Nat.add_comm]
  | cons u before ih => simp only [List.cons_append, left, ih, Nat.add_assoc]

theorem left_waiting (jobs : List κ) :
    left (jobs.map (Task.waiting (ρ := ρ))) = 2 * jobs.length := by
  induction jobs with
  | nil => rfl
  | cons job jobs ih =>
    simp only [List.map_cons, left, Task.left, ih, List.length_cons]
    omega

theorem Served.start (shared : σ) (limit : Nat) (jobs : List κ) :
    Served (α := α) (η := η) (ρ := ρ) work limit jobs [] (start shared limit jobs) where
  places := by simp [Pool.start, Task.job, Function.comp_def]
  permits := by simp [Pool.start, inUse, List.countP_eq_zero, Task.isRunning]
  steps := by simp [Pool.start, left_waiting]
  done := by simp [Pool.start]

theorem Leaves.append {e : Event (State σ κ ρ) (Input α η) Unit} (h : Leaves work tr i job result)
    (he : e.input.finishes i = false) : Leaves work (tr ++ [e]) i job result := by
  obtain ⟨pre, e', post, answer, rfl, hinput, hshared, hresult, hrunning, hpost⟩ := h
  refine ⟨pre, e', post ++ [e], answer, by simp, hinput, hshared, hresult, hrunning, ?_⟩
  intro e'' hmem
  rcases List.mem_append.mp hmem with hmem | hmem
  · exact hpost e'' hmem
  · obtain rfl := List.mem_singleton.mp hmem
    exact he

theorem getElem?_begun {before after : List (Task κ ρ)} {i : Nat}
    (h : (before ++ .running job :: after)[i]? = some (Task.done job' result)) :
    (before ++ .waiting job :: after)[i]? = some (Task.done job' result) := by
  rcases Nat.lt_trichotomy i before.length with hlt | rfl | hlt
  · rwa [List.getElem?_append_left hlt] at h ⊢
  · simp at h
  · rw [List.getElem?_append_right (by omega)] at h ⊢
    obtain ⟨k, hk⟩ : ∃ k, i - before.length = k + 1 := ⟨i - before.length - 1, by omega⟩
    rw [hk] at h ⊢
    simpa using h

theorem Served.next {s s' : State σ κ ρ} {input : Input α η} (hi : Served work limit jobs tr s)
    (h : step work env s input = some (s', out)) :
    Served work limit jobs (tr ++ [⟨s, input, s', out⟩]) s' := by
  obtain ⟨hjobs, hpermits, hsteps, hdone⟩ := hi
  rcases step_cases h with ⟨before, job, after, rfl, hpos, htasks, rfl⟩ |
    ⟨i, answer, job, rfl, hjob, rfl⟩ |
    ⟨e, rfl, rfl⟩
  · rw [htasks] at hjobs hpermits hsteps hdone
    refine ⟨by simpa [Task.job] using hjobs, ?_, ?_, ?_⟩
    · simp only [inUse_place, Task.isRunning, Bool.false_eq_true, if_false, if_true] at hpermits ⊢
      omega
    · simp [left_place, Task.left, Input.isOther] at hsteps ⊢
      omega
    · intro i job' result hget
      exact (hdone i job' result (getElem?_begun hget)).append rfl
  · obtain ⟨before, after, htasks, hlen, hset⟩ := split_at hjob
    rw [htasks] at hjobs hpermits hsteps
    simp only [hset]
    refine ⟨by simpa [Task.job] using hjobs, ?_, ?_, ?_⟩
    · simp only [inUse_place, Task.isRunning, Bool.false_eq_true, if_false, if_true] at hpermits ⊢
      omega
    · simp [left_place, Task.left, Input.isOther] at hsteps ⊢
      omega
    · intro j job' result hget
      simp only [← hset] at hget
      by_cases hj : j = i
      · subst hj
        obtain ⟨hlt, -⟩ := List.getElem?_eq_some_iff.mp hjob
        rw [List.getElem?_set_self hlt] at hget
        cases hget
        exact ⟨tr, _, [], answer, rfl, rfl, rfl, rfl, hjob, by simp⟩
      · rw [List.getElem?_set_ne (Ne.symm hj)] at hget
        exact (hdone j job' result hget).append (by simp [Input.finishes, hj])
  · exact ⟨hjobs, hpermits, by simpa [Input.isOther] using hsteps,
      fun i job result hget => (hdone i job result hget).append rfl⟩

theorem Served.run {s : State σ κ ρ}
    (h : Run (logged (step work env)) P (Pool.start shared limit jobs) tr s) :
    Served work limit jobs tr s := by
  refine h.invariant (I := fun tr s => Served work limit jobs tr s) (.start ..) ?_
  intro tr s input s' es hi _ hl
  obtain ⟨out, hs, rfl⟩ := logged_eq_some hl
  exact hi.next hs

theorem mapM_isSome {f : β → Option γ} {l : List β} (h : ∀ x ∈ l, ∃ y, f x = some y) :
    ∃ ys, l.mapM f = some ys := by
  induction l with
  | nil => exact ⟨[], rfl⟩
  | cons x l ih =>
    obtain ⟨y, hy⟩ := h x List.mem_cons_self
    obtain ⟨ys, hys⟩ := ih fun x hx => h x (List.mem_cons_of_mem _ hx)
    exact ⟨y :: ys, by simp [List.mapM_cons, hy, hys]⟩

theorem Served.progress {s : State σ κ ρ} (hi : Served work limit jobs tr s) (hlimit : 0 < limit)
    (h : results s.tasks = none) :
    (∃ (i : Nat) (job : κ), s.tasks[i]? = some (Task.running job)) ∨
      ∃ s' out, step work env s .acquire = some (s', out) := by
  by_cases hrun : ∃ t ∈ s.tasks, t.isRunning = true
  · obtain ⟨t, ht, hrunning⟩ := hrun
    obtain ⟨i, hget⟩ := List.getElem?_of_mem ht
    cases t with
    | running job => exact .inl ⟨i, job, hget⟩
    | waiting | done => cases hrunning
  · have hidle : inUse s.tasks = 0 := by
      rw [inUse, List.countP_eq_zero]
      intro t ht hrunning
      exact hrun ⟨t, ht, hrunning⟩
    have hpermits : s.permits ≠ 0 := by
      have := hi.permits
      omega
    refine .inr ?_
    rcases updateFirst_cases Task.isWaiting Task.begun s.tasks with
      ⟨-, hnone⟩ | ⟨before, x, after, -, -, -, hsome⟩
    · refine absurd h ?_
      have hdone : ∀ t ∈ s.tasks, ∃ r, t.result? = some r := by
        intro t ht
        cases t with
        | waiting job => exact absurd (hnone _ ht) (by simp [Task.isWaiting])
        | running job => exact absurd ⟨_, ht, rfl⟩ hrun
        | done job result => exact ⟨result, rfl⟩
      obtain ⟨rs, hrs⟩ := mapM_isSome hdone
      simp [results, hrs]
    · exact ⟨_, _, by simp only [step, if_neg hpermits, hsome]; rfl⟩

theorem getElem?_results {tasks : List (Task κ ρ)} (h : results tasks = some rs) :
    rs.length = tasks.length ∧ ∀ (i : Nat) (job : κ), (tasks.map Task.job)[i]? = some job →
      ∃ r, rs[i]? = some r ∧ tasks[i]? = some (Task.done job r) := by
  induction tasks generalizing rs with
  | nil =>
    cases h
    simp
  | cons t tasks ih =>
    obtain ⟨r, others, hr, hothers, rfl⟩ := mapM_cons_eq_some h
    obtain ⟨hlen, hplace⟩ := ih hothers
    refine ⟨by simp [hlen], fun i job hjob => ?_⟩
    cases i with
    | zero =>
      cases t with
      | done job' r' =>
        cases hr
        cases hjob
        exact ⟨_, rfl, rfl⟩
      | waiting | running => cases hr
    | succ i => exact hplace i job hjob

end

end Pool
