import Mathlib.Data.List.Basic

/-!
# Computations that can fail

Rules for `Except`: what a successful sequence was made of, and how a check maps
over a list.
-/

namespace Checked

theorem bind_ok_iff {x : Except ε α} {f : α → Except ε β} :
    (x >>= f) = .ok b ↔ ∃ a, x = .ok a ∧ f a = .ok b := by
  cases x <;> simp [bind, Except.bind]

theorem bind_eq_ok {x : Except ε α} {f : α → Except ε β} (h : (x >>= f) = .ok b) :
    ∃ a, x = .ok a ∧ f a = .ok b :=
  bind_ok_iff.mp h

theorem bind_eq_error {x : Except ε α} {f : α → Except ε β} (h : (x >>= f) = .error e) :
    x = .error e ∨ ∃ a, x = .ok a ∧ f a = .error e := by
  cases x with
  | error e' => exact .inl (by simpa [bind, Except.bind] using h)
  | ok a => exact .inr ⟨a, rfl, h⟩

theorem pure_ok_iff : (pure a : Except ε α) = .ok b ↔ a = b := by
  simp [pure, Except.pure]

@[simp] theorem ok_bind (a : α) (f : α → Except ε β) : (Except.ok a >>= f) = f a := rfl

@[simp] theorem error_bind (e : ε) (f : α → Except ε β) : (Except.error e >>= f) = .error e := rfl

theorem mem_mapM {f : α → Except ε β} {l : List α} (h : l.mapM f = .ok l') (hy : y ∈ l') :
    ∃ x ∈ l, f x = .ok y := by
  induction l generalizing l' with
  | nil =>
    cases h
    cases hy
  | cons x l ih =>
    rw [List.mapM_cons] at h
    obtain ⟨y', hx, h⟩ := bind_eq_ok h
    obtain ⟨ys, hl, h⟩ := bind_eq_ok h
    cases h
    rcases List.mem_cons.mp hy with rfl | hy
    · exact ⟨x, List.mem_cons_self, hx⟩
    · obtain ⟨x', hx', hf⟩ := ih hl hy
      exact ⟨x', List.mem_cons_of_mem _ hx', hf⟩

/-- A check that undoes `g` up to `k` on every element undoes it on the list. -/
theorem mapM_map {f : α → Except ε β} {g : γ → α} {k : γ → β} {l : List γ}
    (h : ∀ x ∈ l, f (g x) = .ok (k x)) : (l.map g).mapM f = .ok (l.map k) := by
  induction l with
  | nil => rfl
  | cons x l ih =>
    rw [List.map_cons, List.mapM_cons, h x List.mem_cons_self,
      ih fun y hy => h y (List.mem_cons_of_mem _ hy)]
    rfl

theorem of_mapM_map {f : α → Except ε β} {g : γ → α} {l : List γ} (h : (l.map g).mapM f = .ok l')
    (hx : x ∈ l) : ∃ y, f (g x) = .ok y := by
  induction l generalizing l' with
  | nil => cases hx
  | cons z l ih =>
    rw [List.map_cons, List.mapM_cons] at h
    obtain ⟨y, hz, h⟩ := bind_eq_ok h
    obtain ⟨ys, hl, -⟩ := bind_eq_ok h
    rcases List.mem_cons.mp hx with rfl | hx
    · exact ⟨y, hz⟩
    · exact ih hl hx

/-- A computation that fails, if it does, with an error of one kind. -/
def Fails (p : ε → Prop) (x : Except ε α) : Prop := ∀ e, x = .error e → p e

theorem Fails.ok (p : ε → Prop) (a : α) : Fails p (.ok a) := fun _ h => nomatch h

theorem Fails.error {p : ε → Prop} (h : p e) : Fails p (.error e : Except ε α) := by
  rintro e' ⟨⟩
  exact h

theorem Fails.bind_of {p : ε → Prop} {x : Except ε α} {f : α → Except ε β} (hx : Fails p x)
    (hf : ∀ a, x = .ok a → Fails p (f a)) : Fails p (x >>= f) := by
  intro e h
  rcases bind_eq_error h with h | ⟨a, ha, h⟩
  · exact hx e h
  · exact hf a ha e h

theorem Fails.bind {p : ε → Prop} {x : Except ε α} {f : α → Except ε β} (hx : Fails p x)
    (hf : ∀ a, Fails p (f a)) : Fails p (x >>= f) :=
  hx.bind_of fun a _ => hf a

theorem Fails.foldlM {p : ε → Prop} {f : β → α → Except ε β} (hf : ∀ b a, Fails p (f b a))
    (l : List α) (b : β) :
    Fails p (l.foldlM f b) := by
  induction l generalizing b with
  | nil => exact Fails.ok p b
  | cons a l ih =>
    rw [List.foldlM_cons]
    exact (hf b a).bind fun b' => ih b'

end Checked
