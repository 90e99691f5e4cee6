import Mathlib.Data.List.AList
import Mathlib.Data.List.Perm.Subperm

/-!
# Hash maps as association lists

`AList` gives lookup, insertion and erasure. This adds what a hash map's
`retain`, `len` and `values` need.
-/

namespace AList

variable {α : Type u} {β : Type v} [DecidableEq α]

def retain (p : α → β → Bool) (s : AList fun _ : α => β) : AList fun _ : α => β where
  entries := s.entries.filter fun e => p e.1 e.2
  nodupKeys := List.NodupKeys.sublist List.filter_sublist s.nodupKeys

def len (s : AList fun _ : α => β) : Nat := s.entries.length

def values (s : AList fun _ : α => β) : List β := s.entries.map Sigma.snd

theorem lookup_eq_some_iff {s : AList fun _ : α => β} :
    s.lookup a = some b ↔ Sigma.mk a b ∈ s.entries :=
  mem_lookup_iff

theorem lookup_retain (p : α → β → Bool) (s : AList fun _ : α => β) (a : α) :
    (s.retain p).lookup a = (s.lookup a).filter (p a) := by
  apply Option.ext
  intro b
  rw [lookup_eq_some_iff, Option.filter_eq_some_iff, lookup_eq_some_iff]
  exact List.mem_filter

theorem lookup_retain_some {p : α → β → Bool} {s : AList fun _ : α => β} :
    (s.retain p).lookup a = some b ↔ s.lookup a = some b ∧ p a b = true := by
  rw [lookup_retain, Option.filter_eq_some_iff]

theorem lookup_insert' (s : AList fun _ : α => β) (a a' : α) (b : β) :
    (s.insert a b).lookup a' = if a' = a then some b else s.lookup a' := by
  split
  · subst a'; exact lookup_insert s
  · exact lookup_insert_ne ‹_›

theorem lookup_erase' (s : AList fun _ : α => β) (a a' : α) :
    (s.erase a).lookup a' = if a' = a then none else s.lookup a' := by
  split
  · subst a'; exact lookup_erase a s
  · exact lookup_erase_ne ‹_›

theorem erase_insert_empty (a : α) (b : β) : ((∅ : AList fun _ : α => β).insert a b).erase a = ∅ :=
  AList.ext (List.kerase_cons_eq rfl)

omit [DecidableEq α] in
theorem retain_retain (p : α → β → Bool) (s : AList fun _ : α => β) :
    (s.retain p).retain p = s.retain p := by
  apply AList.ext
  simp [retain]

theorem retain_eq_self {p : α → β → Bool} {s : AList fun _ : α => β}
    (h : ∀ a b, s.lookup a = some b → p a b = true) : s.retain p = s := by
  apply AList.ext
  exact List.filter_eq_self.mpr fun e he => h e.1 e.2 (lookup_eq_some_iff.mpr he)

omit [DecidableEq α] in
@[simp] theorem retain_empty (p : α → β → Bool) : (∅ : AList fun _ : α => β).retain p = ∅ := rfl

-- ---------------------------------------------------------------------------
-- Counting
-- ---------------------------------------------------------------------------

def tally (p : β → Bool) (s : AList fun _ : α => β) : Nat := (s.values.filter p).length

section
variable {p q : β → Bool} {s : AList fun _ : α => β}

omit [DecidableEq α] in
theorem tally_true (s : AList fun _ : α => β) : s.tally (fun _ => true) = s.len := by
  simp [tally, values, len]

omit [DecidableEq α] in
theorem tally_mono (h : ∀ b, p b = true → q b = true) : s.tally p ≤ s.tally q := by
  rw [tally, tally, ← List.countP_eq_length_filter, ← List.countP_eq_length_filter]
  exact List.countP_mono_left fun b _ => h b

omit [DecidableEq α] in
theorem tally_le_len : s.tally p ≤ s.len := by
  rw [← tally_true]
  exact tally_mono fun _ _ => rfl

omit [DecidableEq α] in
theorem tally_le_of_sublist {s' : AList fun _ : α => β} (h : s'.entries.Sublist s.entries) :
    s'.tally p ≤ s.tally p := by
  have hvalues : s'.values.Sublist s.values := by
    unfold values
    exact h.map _
  exact (hvalues.filter p).length_le

omit [DecidableEq α] in
theorem tally_retain_le (keep : α → β → Bool) : (s.retain keep).tally p ≤ s.tally p :=
  tally_le_of_sublist List.filter_sublist

theorem tally_erase_le (a : α) : (s.erase a).tally p ≤ s.tally p :=
  tally_le_of_sublist (List.kerase_sublist a s.entries)

theorem tally_insert (a : α) (b : β) :
    (s.insert a b).tally p = (s.erase a).tally p + if p b then 1 else 0 := by
  simp only [tally, values, entries_insert, List.map_cons, List.filter_cons]
  split <;> rfl

theorem tally_insert_le (a : α) (b : β) :
    (s.insert a b).tally p ≤ s.tally p + if p b then 1 else 0 := by
  rw [tally_insert]
  exact Nat.add_le_add_right (tally_erase_le a) _

theorem tally_erase_add (h : s.lookup a = some b) :
    (s.erase a).tally p + (if p b then 1 else 0) = s.tally p := by
  have hmem : a ∈ s.entries.keys := List.mem_keys_of_mem (lookup_eq_some_iff.mp h)
  obtain ⟨b', before, after, -, hentries, hkerase⟩ := List.exists_of_kerase hmem
  have hb : b = b' := by
    have hmem' : Sigma.mk a b' ∈ s.entries := by simp [hentries]
    exact Option.some.inj (h.symm.trans (lookup_eq_some_iff.mpr hmem'))
  have herase : (s.erase a).entries = before ++ after := hkerase
  simp only [tally, values, herase, hentries, List.map_append, List.map_cons, List.filter_append,
    List.filter_cons, List.length_append, hb]
  split
  · simp
    omega
  · simp

theorem len_insert_of_none (h : s.lookup a = none) (b : β) : (s.insert a b).len = s.len + 1 := by
  have hmem : a ∉ s.entries.keys := fun hmem => by
    obtain ⟨b', hb⟩ := List.exists_of_mem_keys hmem
    rw [lookup_eq_some_iff.mpr hb] at h
    cases h
  simp [len, List.kerase_of_notMem_keys hmem]

theorem len_insert_of_some (h : s.lookup a = some b) (b' : β) : (s.insert a b').len = s.len := by
  have herase := tally_erase_add (p := fun _ => true) h
  have hinsert := tally_insert (p := fun _ => true) (s := s) a b'
  simp only [tally_true, ↓reduceIte] at herase hinsert
  omega

theorem len_le_of_keys {keys : List α} (h : ∀ a b, s.lookup a = some b → a ∈ keys) :
    s.len ≤ keys.length := by
  have hsub : s.entries.keys ⊆ keys := by
    intro a ha
    obtain ⟨b, hb⟩ := List.exists_of_mem_keys ha
    exact h a b (lookup_eq_some_iff.mpr hb)
  have hlen : s.entries.keys.length = s.len := List.length_map _
  rw [← hlen]
  exact (List.Nodup.subperm s.nodupKeys hsub).length_le

end

end AList
