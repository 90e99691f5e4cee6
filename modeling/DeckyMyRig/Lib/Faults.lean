import Mathlib.Data.List.Basic

/-!
# Programs whose steps can fail

A program changes a store in steps. What becomes of each step is fixed from
outside, by a list of fates: it works, it raises its error and changes nothing,
or everything ends before it. Where the list has run out, steps work. A program
can catch what a step raises, but not a crash.
-/

namespace Faults

inductive Fate
  | works
  | raises
  | crashes
  deriving DecidableEq

inductive Result (ε α : Type)
  | ok (value : α)
  | raised (error : ε)
  | crashed
  deriving DecidableEq

/-- A program on a store `δ` with errors `ε`: its result, the store it leaves
and the fates it has not used. -/
def Prog (δ ε α : Type) : Type := δ → List Fate → Result ε α × δ × List Fate

namespace Prog

def pure (a : α) : Prog δ ε α := fun d fates => (.ok a, d, fates)

def bind (p : Prog δ ε α) (f : α → Prog δ ε β) : Prog δ ε β := fun d fates =>
  match p d fates with
  | (.ok a, d, fates) => f a d fates
  | (.raised e, d, fates) => (.raised e, d, fates)
  | (.crashed, d, fates) => (.crashed, d, fates)

instance : Monad (Prog δ ε) where
  pure := Prog.pure
  bind := Prog.bind

def read : Prog δ ε δ := fun d fates => (.ok d, d, fates)

def throw (e : ε) : Prog δ ε α := fun d fates => (.raised e, d, fates)

def lift : Except ε α → Prog δ ε α
  | .ok a => pure a
  | .error e => throw e

def catching (p : Prog δ ε α) (handler : ε → Prog δ ε α) : Prog δ ε α := fun d fates =>
  match p d fates with
  | (.raised e, d, fates) => handler e d fates
  | r => r

/-- One step on the store, and the error it raises if it fails. -/
def step (e : ε) (f : δ → δ) : Prog δ ε Unit
  | d, .raises :: fates => (.raised e, d, fates)
  | d, .crashes :: fates => (.crashed, d, fates)
  | d, .works :: fates => (.ok (), f d, fates)
  | d, [] => (.ok (), f d, [])

def steps : List (ε × (δ → δ)) → Prog δ ε Unit
  | [] => pure ()
  | (e, f) :: rest => bind (step e f) fun _ => steps rest

end Prog

/-- The first `k` steps work, and the next one does not. -/
def plan (k : Nat) (x : Fate) : List Fate := List.replicate k .works ++ [x]

namespace Prog

theorem bind_assoc (p : Prog δ ε α) (f : α → Prog δ ε β) (g : β → Prog δ ε γ) :
    bind (bind p f) g = bind p fun a => bind (f a) g := by
  funext d fates
  unfold bind
  rcases p d fates with ⟨r, d', rest⟩
  cases r with
  | ok a => rfl
  | raised e => rfl
  | crashed => rfl

theorem read_bind (f : δ → Prog δ ε α) (d : δ) (fates : List Fate) :
    (read >>= f) d fates = f d d fates := rfl

theorem bind_of_ok {p : Prog δ ε α} (f : α → Prog δ ε β) (h : p d fates = (.ok a, d', rest)) :
    (p >>= f) d fates = f a d' rest := by
  show bind p f d fates = _
  rw [bind, h]

theorem bind_of_crashed {p : Prog δ ε α} (f : α → Prog δ ε β)
    (h : p d fates = (.crashed, d', rest)) :
    (p >>= f) d fates = (.crashed, d', rest) := by
  show bind p f d fates = _
  rw [bind, h]

theorem bind_leaves {p : Prog δ ε α} {f : α → Prog δ ε β} {R : δ → Prop}
    (hfail : (∀ a, (p d fates).1 ≠ .ok a) → R (p d fates).2.1)
    (hok : ∀ a d' rest, p d fates = (.ok a, d', rest) → R (f a d' rest).2.1) :
    R ((p >>= f) d fates).2.1 := by
  have hrun : (p >>= f) d fates = bind p f d fates := rfl
  rw [hrun, bind]
  rcases hp : p d fates with ⟨r, d', rest⟩
  rw [hp] at hfail
  cases r with
  | ok a => exact hok a d' rest hp
  | raised e => exact hfail nofun
  | crashed => exact hfail nofun

theorem catching_leaves {p : Prog δ ε α} {handler : ε → Prog δ ε α} {R : δ → Prop}
    (hpass : (∀ e, (p d fates).1 ≠ .raised e) → R (p d fates).2.1)
    (hraise : ∀ e d' rest, p d fates = (.raised e, d', rest) → R (handler e d' rest).2.1) :
    R (catching p handler d fates).2.1 := by
  unfold catching
  rcases hp : p d fates with ⟨r, d', rest⟩
  rw [hp] at hpass
  cases r with
  | ok a => exact hpass nofun
  | raised e => exact hraise e d' rest hp
  | crashed => exact hpass nofun

theorem steps_nil (fs : List (ε × (δ → δ))) (d : δ) :
    steps fs d [] = (.ok (), fs.foldl (fun d f => f.2 d) d, []) := by
  induction fs generalizing d with
  | nil => rfl
  | cons f fs ih => exact ih (f.2 d)

theorem steps_cases (fs : List (ε × (δ → δ))) (d : δ) (fates : List Fate) :
    (∃ rest, steps fs d fates = (.ok (), fs.foldl (fun d f => f.2 d) d, rest)) ∨
      ∃ pre x post r rest, fs = pre ++ x :: post ∧ r ≠ .ok () ∧
        steps fs d fates = (r, pre.foldl (fun d f => f.2 d) d, rest) := by
  induction fs generalizing d fates with
  | nil => exact .inl ⟨fates, rfl⟩
  | cons f fs ih =>
    have hstep : (∃ rest, steps (f :: fs) d fates = steps fs (f.2 d) rest) ∨
        ∃ r rest, r ≠ .ok () ∧ steps (f :: fs) d fates = (r, d, rest) := by
      cases fates with
      | nil => exact .inl ⟨[], rfl⟩
      | cons x rest =>
        cases x with
        | works => exact .inl ⟨rest, rfl⟩
        | raises => exact .inr ⟨.raised f.1, rest, nofun, rfl⟩
        | crashes => exact .inr ⟨.crashed, rest, nofun, rfl⟩
    rcases hstep with ⟨rest, hrun⟩ | ⟨r, rest, hr, hrun⟩
    · rw [hrun]
      rcases ih (f.2 d) rest with hall | ⟨pre, x, post, r, rest, rfl, hr, hsteps⟩
      · exact .inl hall
      · exact .inr ⟨f :: pre, x, post, r, rest, rfl, hr, hsteps⟩
    · exact .inr ⟨[], f, fs, r, rest, rfl, hr, hrun⟩

theorem map_store (p : Prog δ ε α) (f : α → β) (d : δ) (fates : List Fate) :
    ((p >>= fun a => Prog.pure (f a)) d fates).2.1 = (p d fates).2.1 := by
  refine bind_leaves (R := (· = (p d fates).2.1)) (fun _ => rfl) fun a d' rest h => ?_
  rw [h]
  rfl

theorem bind_ok {p : Prog δ ε α} {f : α → Prog δ ε β} (h : (p >>= f) d fates = (.ok b, d', rest)) :
    ∃ a d1 f1, p d fates = (.ok a, d1, f1) ∧ f a d1 f1 = (.ok b, d', rest) := by
  have h : bind p f d fates = (.ok b, d', rest) := h
  unfold bind at h
  rcases hp : p d fates with ⟨r, d1, f1⟩
  rw [hp] at h
  cases r with
  | ok a => exact ⟨a, d1, f1, rfl, h⟩
  | raised e => cases h
  | crashed => cases h

theorem catching_ok {p : Prog δ ε α} {handler : ε → Prog δ ε α}
    (hh : ∀ e d1 f1, handler e d1 f1 ≠ (.ok a, d', rest))
    (h : catching p handler d fates = (.ok a, d', rest)) :
    p d fates = (.ok a, d', rest) := by
  unfold catching at h
  rcases hp : p d fates with ⟨r, d1, f1⟩
  rw [hp] at h
  cases r with
  | ok => exact h
  | raised e => exact absurd h (hh e d1 f1)
  | crashed => exact h

end Prog

-- ---------------------------------------------------------------------------
-- Triples
-- ---------------------------------------------------------------------------

/-- From a store in `P` and with fates of the kind `A` only, the program returns
as `Q` says, raises as `E` says, or is cut short as `C` says. -/
def Triple (A : Fate → Prop) (P : δ → Prop) (p : Prog δ ε α) (Q : α → δ → Prop)
    (E : ε → δ → Prop) (C : δ → Prop) : Prop :=
  ∀ d fates, P d → (∀ x ∈ fates, A x) →
    match p d fates with
    | (.ok a, d', rest) => Q a d' ∧ ∀ x ∈ rest, A x
    | (.raised e, d', rest) => E e d' ∧ ∀ x ∈ rest, A x
    | (.crashed, d', _) => C d'

namespace Triple

variable {A : Fate → Prop} {P : δ → Prop} {Q : α → δ → Prop} {E : ε → δ → Prop} {C : δ → Prop}

theorem pure (h : ∀ d, P d → Q a d) : Triple A P (Prog.pure a) Q E C :=
  fun d _ hd hA => ⟨h d hd, hA⟩

theorem throw (h : ∀ d, P d → E e d) : Triple A P (Prog.throw e) Q E C :=
  fun d _ hd hA => ⟨h d hd, hA⟩

theorem read : Triple A P Prog.read (fun a d => a = d ∧ P d) E C :=
  fun _ _ hd hA => ⟨⟨rfl, hd⟩, hA⟩

theorem bind {p : Prog δ ε α} {f : α → Prog δ ε β} {Q' : β → δ → Prop} (hp : Triple A P p Q E C)
    (hf : ∀ a, Triple A (Q a) (f a) Q' E C) : Triple A P (p >>= f) Q' E C := by
  intro d fates hd hA
  have hp := hp d fates hd hA
  show match Prog.bind p f d fates with
    | (.ok b, d', rest) => Q' b d' ∧ ∀ x ∈ rest, A x
    | (.raised e, d', rest) => E e d' ∧ ∀ x ∈ rest, A x
    | (.crashed, d', _) => C d'
  unfold Prog.bind
  rcases hr : p d fates with ⟨r, d', rest⟩
  rw [hr] at hp
  cases r with
  | ok a => exact hf a d' rest hp.1 hp.2
  | raised e => exact hp
  | crashed => exact hp

theorem catching {p : Prog δ ε α} {handler : ε → Prog δ ε α} {E' : ε → δ → Prop}
    (hp : Triple A P p Q E C) (hh : ∀ e, Triple A (E e) (handler e) Q E' C) :
    Triple A P (Prog.catching p handler) Q E' C := by
  intro d fates hd hA
  have hp := hp d fates hd hA
  unfold Prog.catching
  rcases hr : p d fates with ⟨r, d', rest⟩
  rw [hr] at hp
  cases r with
  | ok a => exact hp
  | raised e => exact hh e d' rest hp.1 hp.2
  | crashed => exact hp

theorem step {Q : Unit → δ → Prop} (hQ : ∀ d, P d → Q () (f d)) (hE : A .raises → ∀ d, P d → E e d)
    (hC : A .crashes → ∀ d, P d → C d) : Triple A P (Prog.step e f) Q E C := by
  intro d fates hd hA
  cases fates with
  | nil => exact ⟨hQ d hd, hA⟩
  | cons x fates =>
    have hA' : ∀ x ∈ fates, A x := fun y hy => hA y (List.mem_cons_of_mem _ hy)
    cases x with
    | works => exact ⟨hQ d hd, hA'⟩
    | raises => exact ⟨hE (hA _ List.mem_cons_self) d hd, hA'⟩
    | crashes => exact hC (hA _ List.mem_cons_self) d hd

theorem steps (hP : ∀ f ∈ fs, ∀ d, P d → P (f.2 d)) (hE : A .raises → ∀ f ∈ fs, ∀ d, P d → E f.1 d)
    (hC : A .crashes → ∀ d, P d → C d) : Triple A P (Prog.steps fs) (fun _ => P) E C := by
  induction fs with
  | nil => exact pure fun _ hd => hd
  | cons f fs ih =>
    refine bind (step (Q := fun _ => P) (hP f List.mem_cons_self)
      (fun hA => hE hA f List.mem_cons_self) hC) ?_
    intro _
    exact ih (fun g hg => hP g (List.mem_cons_of_mem _ hg))
      (fun hA g hg => hE hA g (List.mem_cons_of_mem _ hg))

theorem at_store {p : Prog δ ε α} (h : ∀ d, P d → Triple A (· = d) p Q E C) : Triple A P p Q E C :=
  fun d fates hd hA => h d hd d fates rfl hA

theorem of_eval {p : Prog δ ε α} (h : ∀ d fates, P d → p d fates = (.ok a, d, fates))
    (hQ : ∀ d, P d → Q a d) : Triple A P p Q E C := by
  intro d fates hd hA
  rw [h d fates hd]
  exact ⟨hQ d hd, hA⟩

theorem mono {p : Prog δ ε α} {P' : δ → Prop} {Q' : α → δ → Prop} {E' : ε → δ → Prop}
    {C' : δ → Prop} (h : Triple A P p Q E C) (hP : ∀ d, P' d → P d) (hQ : ∀ a d, Q a d → Q' a d)
    (hE : ∀ e d, E e d → E' e d) (hC : ∀ d, C d → C' d) : Triple A P' p Q' E' C' := by
  intro d fates hd hA
  have h := h d fates (hP d hd) hA
  rcases hr : p d fates with ⟨r, d', rest⟩
  rw [hr] at h
  cases r with
  | ok a => exact ⟨hQ _ _ h.1, h.2⟩
  | raised e => exact ⟨hE _ _ h.1, h.2⟩
  | crashed => exact hC _ h

theorem returns {p : Prog δ ε α} (h : Triple (fun _ => False) P p Q E C) (hd : P d)
    (hE : ∀ e d, ¬ E e d) (hC : ∀ d, ¬ C d) : ∃ a d', p d [] = (.ok a, d', []) ∧ Q a d' := by
  have h := h d [] hd (fun x hx => nomatch hx)
  rcases hr : p d [] with ⟨r, d', rest⟩
  rw [hr] at h
  cases r with
  | ok a =>
    obtain rfl := List.eq_nil_iff_forall_not_mem.mpr h.2
    exact ⟨a, d', rfl, h.1⟩
  | raised e => exact absurd h.1 (hE e d')
  | crashed => exact absurd h (hC d')

theorem of_ok {p : Prog δ ε α} (h : Triple A P p Q E C) (hd : P d) (hA : ∀ x ∈ fates, A x)
    (hrun : p d fates = (.ok a, d', rest)) : Q a d' := by
  have h := h d fates hd hA
  rw [hrun] at h
  exact h.1

theorem leaves {p : Prog δ ε α} {R : δ → Prop} (h : Triple A P p Q E C) (hd : P d)
    (hA : ∀ x ∈ fates, A x) (hQ : ∀ a d, Q a d → R d) (hE : ∀ e d, E e d → R d)
    (hC : ∀ d, C d → R d) : R (p d fates).2.1 := by
  have h := h d fates hd hA
  rcases hr : p d fates with ⟨r, d', rest⟩
  rw [hr] at h
  cases r with
  | ok a => exact hQ a d' h.1
  | raised e => exact hE e d' h.1
  | crashed => exact hC d' h

end Triple

end Faults
