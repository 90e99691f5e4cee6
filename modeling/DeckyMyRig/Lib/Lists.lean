import Mathlib.Data.List.Basic

/-!
# Lists of readings, lists that are read, and lists with entries left out
-/

theorem le_getLast {readings : List Nat} (h : (first :: readings).Pairwise (· ≤ ·))
    (hr : r ∈ first :: readings) : r ≤ (readings.getLast?).getD first := by
  rcases List.eq_nil_or_concat readings with rfl | ⟨init, last, rfl⟩
  · rw [List.mem_singleton.mp hr]
    exact Nat.le_refl _
  · rw [List.concat_eq_append, ← List.cons_append] at h hr
    simp only [List.concat_eq_append, List.getLast?_concat, Option.getD_some]
    rcases List.mem_append.mp hr with hr | hr
    · exact (List.pairwise_append.mp h).2.2 r hr last List.mem_cons_self
    · exact Nat.le_of_eq (List.mem_singleton.mp hr)

theorem mapM_cons_eq_some {f : α → Option β} (h : (x :: l).mapM f = some found) :
    ∃ first others, f x = some first ∧ l.mapM f = some others ∧ found = first :: others := by
  rw [List.mapM_cons] at h
  obtain ⟨first, hfirst, h⟩ := Option.bind_eq_some_iff.mp h
  obtain ⟨others, hothers, h⟩ := Option.bind_eq_some_iff.mp h
  exact ⟨first, others, hfirst, hothers, (Option.some.inj h).symm⟩

/-- The second list is the first without some of the entries for which `p`
holds. Nothing is added and the order stays. -/
inductive Pruned (p : α → Prop) : List α → List α → Prop
  | nil : Pruned p [] []
  | keep : Pruned p l l' → Pruned p (x :: l) (x :: l')
  | drop : p x → Pruned p l l' → Pruned p (x :: l) l'

namespace Pruned

theorem refl (p : α → Prop) (l : List α) : Pruned p l l := by
  induction l with
  | nil => exact .nil
  | cons x l ih => exact .keep ih

theorem mono (h : Pruned p l l') (hp : ∀ x, p x → q x) : Pruned q l l' := by
  induction h with
  | nil => exact .nil
  | keep _ ih => exact .keep ih
  | drop hx _ ih => exact .drop (hp _ hx) ih

theorem trans (h : Pruned p a b) (h' : Pruned p b c) : Pruned p a c := by
  induction h generalizing c with
  | nil => exact h'
  | keep _ ih =>
    cases h' with
    | keep h' => exact .keep (ih h')
    | drop hx h' => exact .drop hx (ih h')
  | drop hx _ ih => exact .drop hx (ih h')

theorem subset (h : Pruned p l l') : l' ⊆ l := by
  induction h with
  | nil => exact List.Subset.refl _
  | keep _ ih => exact List.cons_subset_cons _ ih
  | drop _ _ ih => exact List.subset_cons_of_subset _ ih

theorem mem_or (h : Pruned p l l') (hx : x ∈ l) : x ∈ l' ∨ p x := by
  induction h with
  | nil => cases hx
  | keep _ ih =>
    rcases List.mem_cons.mp hx with rfl | hx
    · exact .inl List.mem_cons_self
    · exact (ih hx).imp_left (List.mem_cons_of_mem _)
  | drop hp _ ih =>
    rcases List.mem_cons.mp hx with rfl | hx
    · exact .inr hp
    · exact ih hx

theorem zip_filter {l : List α} {w : List β} {keep : α × β → Bool} (hlen : w.length = l.length)
    (h : ∀ x y, y ∈ w → keep (x, y) = false → p x) :
    Pruned p l (((l.zip w).filter keep).map Prod.fst) := by
  induction l generalizing w with
  | nil => exact .nil
  | cons x l ih =>
    cases w with
    | nil => cases hlen
    | cons y w =>
      have hrest := ih (Nat.succ.inj hlen) fun x y hy => h x y (List.mem_cons_of_mem _ hy)
      cases hk : keep (x, y) with
      | true => simpa [hk] using Pruned.keep hrest
      | false => simpa [hk] using Pruned.drop (h x y List.mem_cons_self hk) hrest

end Pruned

theorem length_le_mul_of_filter_le [DecidableEq κ] {f : α → κ} {keys : List κ} {l : List α}
    (h : ∀ x ∈ l, f x ∈ keys) (hc : ∀ k ∈ keys, (l.filter (f · = k)).length ≤ c) :
    l.length ≤ keys.length * c := by
  induction keys generalizing l with
  | nil =>
    cases l with
    | nil => exact Nat.zero_le _
    | cons x l => exact absurd (h x List.mem_cons_self) List.not_mem_nil
  | cons k keys ih =>
    rw [List.forall_mem_cons] at hc
    have hrest : ∀ x ∈ l.filter (fun x => !decide (f x = k)), f x ∈ keys := by
      intro x hx
      simp only [List.mem_filter, Bool.not_eq_true', decide_eq_false_iff_not] at hx
      exact (List.mem_cons.mp (h x hx.1)).resolve_left hx.2
    have hparts : ∀ k' ∈ keys, ((l.filter (fun x => !decide (f x = k))).filter (f · = k')).length ≤
        c :=
      fun k' hk' => Nat.le_trans (List.filter_sublist.filter _).length_le (hc.2 k' hk')
    have hsplit := List.length_eq_length_filter_add (l := l) (f · = k)
    have ih := ih hrest hparts
    rw [List.length_cons, Nat.succ_mul]
    omega
