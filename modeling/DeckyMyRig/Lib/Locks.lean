import Mathlib.Logic.Function.Basic
import DeckyMyRig.Lib.Runs

/-!
# Locks taken in order

Calls take and give back locks, each call along the branches of its `Code`.
`step` interleaves any number of them; calls arrive at any time, and may be
dropped with the locks they hold. If every call takes locks in the order of
their ranks (`Code.ordered`), then an unfinished call can step, or one that
holds a lock can (`Orderly.progress`): whoever waits for a lock waits for a
holder that waits, if at all, for a lock of a higher rank.
-/

namespace Locking

open Machine

/-- What is left of a call: the locks it takes and gives back. -/
inductive Code (Λ : Type)
  | done
  | acquire (l : Λ) (next : Code Λ)
  | release (l : Λ) (next : Code Λ)
  | branch (left right : Code Λ)

structure Config (ι Λ : Type) where
  code : ι → Code Λ
  owner : Λ → Option ι

inductive Move (ι Λ : Type)
  | spawn (i : ι) (code : Code Λ)
  | go (i : ι) (left : Bool)
  | drop (i : ι)

def Config.idle : Config ι Λ := ⟨fun _ => .done, fun _ => none⟩

section
variable {ι Λ : Type} [DecidableEq ι] [DecidableEq Λ]

def Config.goto (s : Config ι Λ) (i : ι) (code : Code Λ) : Config ι Λ :=
  { s with code := Function.update s.code i code }

def Config.own (s : Config ι Λ) (l : Λ) (owner : Option ι) : Config ι Λ :=
  { s with owner := Function.update s.owner l owner }

/-- One step of the call `i`; at a branch it goes `left` or not. -/
def Config.go (s : Config ι Λ) (i : ι) (left : Bool) : Option (Config ι Λ) :=
  match s.code i with
  | .done => none
  | .acquire l next => if s.owner l = none then some ((s.own l (some i)).goto i next) else none
  | .release l next => if s.owner l = some i then some ((s.own l none).goto i next) else none
  | .branch a b => some (s.goto i (if left then a else b))

def step (s : Config ι Λ) : Move ι Λ → Option (Config ι Λ × List (Move ι Λ))
  | .spawn i code =>
    match s.code i with
    | .done => some (s.goto i code, [.spawn i code])
    | _ => none
  | .go i left => (s.go i left).map (·, [.go i left])
  | .drop i =>
    some ({ s.goto i .done with owner := fun l => if s.owner l = some i then none else s.owner l },
      [.drop i])

def Enabled (s : Config ι Λ) (i : ι) : Prop := ∃ left, (s.go i left).isSome = true

theorem Enabled.acquire {s : Config ι Λ} (h : Enabled s i) (hcode : s.code i = .acquire l next) :
    s.owner l = none := by
  obtain ⟨left, hgo⟩ := h
  by_contra hl
  simp [Config.go, hcode, hl] at hgo

theorem Enabled.ne_done {s : Config ι Λ} (h : Enabled s i) : s.code i ≠ .done := by
  obtain ⟨left, hgo⟩ := h
  intro hdone
  simp [Config.go, hdone] at hgo

/-- From the locks `held` on, every lock taken is above those held, only held
locks are given back, and in the end all are. -/
def Code.ordered (rank : Λ → Nat) : Code Λ → List Λ → Bool
  | .done, held => held.isEmpty
  | .acquire l next, held => held.all (rank · < rank l) && next.ordered rank (l :: held)
  | .release l next, held => held.contains l && next.ordered rank (held.erase l)
  | .branch a b, held => a.ordered rank held && b.ordered rank held

structure Holding (rank : Λ → Nat) (s : Config ι Λ) (i : ι) (held : List Λ) : Prop where
  nodup : held.Nodup
  owner : ∀ l, l ∈ held ↔ s.owner l = some i
  ordered : (s.code i).ordered rank held = true

def Orderly (rank : Λ → Nat) (s : Config ι Λ) : Prop := ∀ i, ∃ held, Holding rank s i held

variable {rank : Λ → Nat} {s s' : Config ι Λ}

omit [DecidableEq ι] in
theorem Orderly.idle : Orderly rank (.idle : Config ι Λ) :=
  fun _ => ⟨[], List.nodup_nil, by simp [Config.idle], rfl⟩

-- ---------------------------------------------------------------------------
-- Steps
-- ---------------------------------------------------------------------------

omit [DecidableEq ι] in
theorem Holding.other (h : Holding rank s i held) (hcode : s'.code i = s.code i)
    (howner : ∀ l, s'.owner l = some i ↔ s.owner l = some i) : Holding rank s' i held :=
  ⟨h.nodup, fun l => (h.owner l).trans (howner l).symm, hcode ▸ h.ordered⟩

theorem Holding.acquire (h : Holding rank s i held) (hcode : s.code i = .acquire l next)
    (hfree : s.owner l = none) : Holding rank ((s.own l (some i)).goto i next) i (l :: held) := by
  have hordered := h.ordered
  simp only [hcode, Code.ordered, Bool.and_eq_true] at hordered
  have hnew : l ∉ held := fun hl => by simp [(h.owner l).mp hl] at hfree
  refine ⟨List.nodup_cons.mpr ⟨hnew, h.nodup⟩, fun k => ?_, by simpa [Config.goto] using hordered.2⟩
  by_cases hk : k = l
  · simp [hk, Config.goto, Config.own]
  · simp [hk, Config.goto, Config.own, h.owner k]

theorem Holding.release (h : Holding rank s i held) (hcode : s.code i = .release l next) :
    Holding rank ((s.own l none).goto i next) i (held.erase l) := by
  have hordered := h.ordered
  simp only [hcode, Code.ordered, Bool.and_eq_true] at hordered
  refine ⟨h.nodup.erase l, fun k => ?_, by simpa [Config.goto] using hordered.2⟩
  by_cases hk : k = l
  · simp [hk, Config.goto, Config.own, h.nodup.not_mem_erase]
  · simp [hk, Config.goto, Config.own, List.mem_erase_of_ne, h.owner k]

theorem Orderly.go (h : Orderly rank s) (hs : s.go i left = some s') : Orderly rank s' := by
  intro j
  obtain ⟨held, hj⟩ := h j
  unfold Config.go at hs
  split at hs
  · cases hs
  · rename_i l next hcode
    split at hs
    · rename_i hfree
      cases hs
      by_cases hji : j = i
      · subst hji
        exact ⟨_, hj.acquire hcode hfree⟩
      · refine ⟨held, hj.other (by simp [Config.goto, Config.own, hji]) fun k => ?_⟩
        by_cases hk : k = l
        · simp [hk, Config.goto, Config.own, hfree, Ne.symm hji]
        · simp [hk, Config.goto, Config.own]
    · cases hs
  · rename_i l next hcode
    split at hs
    · rename_i howner
      cases hs
      by_cases hji : j = i
      · subst hji
        exact ⟨_, hj.release hcode⟩
      · refine ⟨held, hj.other (by simp [Config.goto, Config.own, hji]) fun k => ?_⟩
        by_cases hk : k = l
        · simp [hk, Config.goto, Config.own, howner, Ne.symm hji]
        · simp [hk, Config.goto, Config.own]
    · cases hs
  · rename_i a b hcode
    cases hs
    by_cases hji : j = i
    · subst hji
      have hordered := hj.ordered
      simp only [hcode, Code.ordered, Bool.and_eq_true] at hordered
      refine ⟨held, hj.nodup, hj.owner, ?_⟩
      cases left <;> simp [Config.goto, hordered]
    · exact ⟨held, hj.other (by simp [Config.goto, hji]) fun k => Iff.rfl⟩

def Arrives (rank : Λ → Nat) : Move ι Λ → Prop
  | .spawn _ code => code.ordered rank [] = true
  | _ => True

theorem Orderly.next (h : Orderly rank s) (hm : Arrives rank m) (hs : step s m = some (s', out)) :
    Orderly rank s' := by
  cases m with
  | spawn i code =>
    simp only [step] at hs
    split at hs
    · rename_i hdone
      cases hs
      intro j
      obtain ⟨held, hj⟩ := h j
      by_cases hji : j = i
      · subst hji
        have hnone : held = [] := by simpa [hdone, Code.ordered] using hj.ordered
        subst hnone
        have hcode : code.ordered rank [] = true := hm
        exact ⟨[], List.nodup_nil, hj.owner, by simpa [Config.goto] using hcode⟩
      · exact ⟨held, hj.other (by simp [Config.goto, hji]) fun k => Iff.rfl⟩
    · cases hs
  | go i left =>
    obtain ⟨s'', hgo, heq⟩ := Option.map_eq_some_iff.mp hs
    cases heq
    exact h.go hgo
  | drop i =>
    cases hs
    intro j
    obtain ⟨held, hj⟩ := h j
    by_cases hji : j = i
    · subst hji
      refine ⟨[], List.nodup_nil, fun l => ?_, by simp [Config.goto, Code.ordered]⟩
      by_cases hl : s.owner l = some j <;> simp [hl]
    · refine ⟨held, hj.other (by simp [Config.goto, hji]) fun l => ?_⟩
      by_cases hl : s.owner l = some i <;> simp [hl, Ne.symm hji]

theorem Orderly.run {P : Config ι Λ → Move ι Λ → Prop} (hP : ∀ s m, P s m → Arrives rank m)
    (h : Run step P .idle tr s) : Orderly rank s :=
  h.invariant (I := fun _ s => Orderly rank s) .idle fun hi hm hs => hi.next (hP _ _ hm) hs

-- ---------------------------------------------------------------------------
-- Progress
-- ---------------------------------------------------------------------------

theorem Orderly.step_or_wait (h : Orderly rank s) (hi : s.code i ≠ .done) :
    Enabled s i ∨ ∃ l next j, s.code i = .acquire l next ∧ s.owner l = some j := by
  obtain ⟨held, hh⟩ := h i
  unfold Enabled Config.go
  cases hcode : s.code i with
  | done => exact absurd hcode hi
  | acquire l next =>
    cases howner : s.owner l with
    | none => exact .inl ⟨true, by simp [howner]⟩
    | some j => exact .inr ⟨l, next, j, rfl, howner⟩
  | release l next =>
    have hordered := hh.ordered
    simp only [hcode, Code.ordered, Bool.and_eq_true, List.contains_iff_mem] at hordered
    exact .inl ⟨true, by simp [(hh.owner l).mp hordered.1]⟩
  | branch a b => exact .inl ⟨true, rfl⟩

omit [DecidableEq ι] in
/-- The holder of a lock is not done, and any lock it waits for is above. -/
theorem Orderly.holder (h : Orderly rank s) (hl : s.owner l = some j) :
    s.code j ≠ .done ∧ ∀ {l' next}, s.code j = .acquire l' next → rank l < rank l' := by
  obtain ⟨held, hh⟩ := h j
  have hmem := (hh.owner l).mpr hl
  have hordered := hh.ordered
  refine ⟨fun hdone => ?_, fun {l' next} hcode => ?_⟩
  · rw [hdone, Code.ordered, List.isEmpty_iff] at hordered
    simp [hordered] at hmem
  · simp only [hcode, Code.ordered, Bool.and_eq_true, List.all_eq_true,
      decide_eq_true_eq] at hordered
    exact hordered.1 l hmem

theorem Orderly.holder_progress (h : Orderly rank s) {n : Nat} (hn : ∀ l, rank l < n)
    (hl : s.owner l = some j) : ∃ k, Enabled s k ∧ ∃ l', s.owner l' = some k := by
  -- on how many ranks are above `l`
  induction hd : n - rank l using Nat.strongRecOn generalizing l j with
  | ind d ih =>
    obtain ⟨hopen, habove⟩ := h.holder hl
    rcases h.step_or_wait hopen with henabled | ⟨l', next, j', hcode, hl'⟩
    · exact ⟨j, henabled, l, hl⟩
    · have hlt := habove hcode
      have hbound := hn l'
      exact ih (n - rank l') (by omega) hl' rfl

theorem Orderly.progress (h : Orderly rank s) {n : Nat} (hn : ∀ l, rank l < n)
    (hi : s.code i ≠ .done) :
    ∃ j, Enabled s j ∧ (j = i ∨ ∃ l, s.owner l = some j) := by
  rcases h.step_or_wait hi with henabled | ⟨l, next, j, -, hl⟩
  · exact ⟨i, henabled, .inl rfl⟩
  · obtain ⟨k, hk, hholds⟩ := h.holder_progress hn hl
    exact ⟨k, hk, .inr hholds⟩

-- ---------------------------------------------------------------------------
-- Steps of one call
-- ---------------------------------------------------------------------------

/-- Steps of the call `i` alone: its code and the owners of the locks before
and after. -/
inductive Walk (i : ι) : Code Λ → (Λ → Option ι) → Code Λ → (Λ → Option ι) → Prop
  | refl : Walk i c o c o
  | acquire : o l = none → Walk i next (Function.update o l (some i)) c o' →
      Walk i (.acquire l next) o c o'
  | release : o l = some i → Walk i next (Function.update o l none) c o' →
      Walk i (.release l next) o c o'
  | left : Walk i a o c o' → Walk i (.branch a b) o c o'
  | right : Walk i b o c o' → Walk i (.branch a b) o c o'

omit [DecidableEq ι] in
theorem Walk.back {i : ι} {l : Λ} {c next : Code Λ} (hfree : o l = none) (h : Walk i next o c o') :
    Walk i (.release l next) (Function.update o l (some i)) c o' := by
  refine .release (Function.update_self ..) ?_
  rw [Function.update_idem, ← hfree, Function.update_eq_self]
  exact h

theorem Walk.run {i : ι} {c c' : Code Λ} {P : Config ι Λ → Move ι Λ → Prop}
    (hP : ∀ s left, P s (.go i left)) (h : Walk i c o c' o') (code : ι → Code Λ) :
    ∃ tr, Run step P ⟨Function.update code i c, o⟩ tr ⟨Function.update code i c', o'⟩ := by
  have hstep {c c' : Code Λ} {o o' : Λ → Option ι} (left : Bool)
      (hgo : (⟨Function.update code i c, o⟩ : Config ι Λ).go i left =
        some ⟨Function.update code i c', o'⟩) :
      Run step P ⟨Function.update code i c, o⟩ [.go i left] ⟨Function.update code i c', o'⟩ :=
    .single (hP _ left) (by simp [step, hgo])
  induction h with
  | refl => exact ⟨[], .refl⟩
  | acquire hfree _ ih =>
    obtain ⟨tr, hrun⟩ := ih
    refine ⟨_, (hstep true ?_).trans hrun⟩
    simp [Config.go, hfree, Config.goto, Config.own]
  | release howner _ ih =>
    obtain ⟨tr, hrun⟩ := ih
    refine ⟨_, (hstep true ?_).trans hrun⟩
    simp [Config.go, howner, Config.goto, Config.own]
  | left _ ih =>
    obtain ⟨tr, hrun⟩ := ih
    refine ⟨_, (hstep true ?_).trans hrun⟩
    simp [Config.go, Config.goto]
  | right _ ih =>
    obtain ⟨tr, hrun⟩ := ih
    refine ⟨_, (hstep false ?_).trans hrun⟩
    simp [Config.go, Config.goto]

end

end Locking
