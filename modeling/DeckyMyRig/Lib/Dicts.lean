import Mathlib.Data.List.Basic

/-!
# Lists of records and dictionaries

Changing the first record that passes a test, and dictionaries as lists of keys
and values in the order of insertion.
-/

/-- Changes the first element that passes the test, and returns it with the list. -/
def updateFirst (p : α → Bool) (f : α → α) : List α → Option (α × List α)
  | [] => none
  | x :: xs =>
    if p x then some (f x, f x :: xs)
    else (updateFirst p f xs).map fun (y, ys) => (y, x :: ys)

theorem updateFirst_cases (p : α → Bool) (f : α → α) (l : List α) :
    (updateFirst p f l = none ∧ ∀ x ∈ l, p x = false) ∨
      ∃ before x after, l = before ++ x :: after ∧ (∀ y ∈ before, p y = false) ∧ p x = true ∧
        updateFirst p f l = some (f x, before ++ f x :: after) := by
  induction l with
  | nil => exact .inl ⟨rfl, by simp⟩
  | cons x l ih =>
    by_cases hp : p x = true
    · exact .inr ⟨[], x, l, rfl, by simp, hp, if_pos hp⟩
    · have hstep : updateFirst p f (x :: l) =
          (updateFirst p f l).map fun (y, ys) => (y, x :: ys) := if_neg hp
      have hx : p x = false := by simpa using hp
      rcases ih with ⟨hnone, hall⟩ | ⟨before, z, after, rfl, hbefore, hz, hsome⟩
      · refine .inl ⟨by rw [hstep, hnone]; rfl, ?_⟩
        intro y hy
        rcases List.mem_cons.mp hy with rfl | hy
        · exact hx
        · exact hall y hy
      · refine .inr ⟨x :: before, z, after, rfl, ?_, hz, by rw [hstep, hsome]; rfl⟩
        intro y hy
        rcases List.mem_cons.mp hy with rfl | hy
        · exact hx
        · exact hbefore y hy

theorem updateFirst_map {f : α → α} {g : α → β} (hg : ∀ x, g (f x) = g x)
    (h : updateFirst p f l = some (y, l')) : l'.map g = l.map g := by
  rcases updateFirst_cases p f l with ⟨hnone, -⟩ | ⟨before, x, after, rfl, -, -, hsome⟩
  · rw [hnone] at h
    cases h
  · rw [hsome] at h
    cases h
    simp [hg]

theorem updateFirst_filter {f : α → α} {q : α → Bool}
    (hp : ∀ x, p x = true → q x = false ∧ q (f x) = false)
    (h : updateFirst p f l = some (y, l')) : l'.filter q = l.filter q := by
  rcases updateFirst_cases p f l with ⟨hnone, -⟩ | ⟨before, x, after, rfl, -, hx, hsome⟩
  · rw [hnone] at h
    cases h
  · rw [hsome] at h
    cases h
    simp [hp x hx]

abbrev Dict (κ α : Type) := List (κ × α)

namespace Dict

variable {κ α : Type} [DecidableEq κ]

def get? (d : Dict κ α) (key : κ) : Option α := (List.find? (·.1 = key) d).map Prod.snd

def has (d : Dict κ α) (key : κ) : Bool := List.any d (·.1 = key)

def set (d : Dict κ α) (key : κ) (value : α) : Dict κ α :=
  match updateFirst (·.1 = key) (fun _ => (key, value)) d with
  | some (_, d) => d
  | none => List.append d [(key, value)]

def remove (d : Dict κ α) (key : κ) : Dict κ α := List.filter (·.1 ≠ key) d

theorem get?_cons_self (key : κ) (value : α) (d : Dict κ α) :
    get? ((key, value) :: d) key = some value := by
  simp [get?]

theorem get?_cons_ne {key key' : κ} (h : key' ≠ key) (value : α) (d : Dict κ α) :
    get? ((key', value) :: d) key = get? d key := by
  simp [get?, h]

theorem get?_zip {keys : List κ} {values : List α} {i : Nat} (hn : keys.Nodup)
    (hk : keys[i]? = some key)
    (hv : values[i]? = some value) : get? (keys.zip values) key = some value := by
  induction keys generalizing values i with
  | nil => cases hk
  | cons k keys ih =>
    cases values with
    | nil => cases hv
    | cons v values =>
      obtain ⟨hnotin, hn⟩ := List.nodup_cons.mp hn
      cases i with
      | zero =>
        cases hk
        cases hv
        exact get?_cons_self ..
      | succ i =>
        have hne : k ≠ key := by
          rintro rfl
          exact hnotin (List.mem_of_getElem? hk)
        exact (get?_cons_ne hne ..).trans (ih hn hk hv)

theorem get?_zip_none {keys : List κ} {values : List α} (h : key ∉ keys) :
    get? (keys.zip values) key = none := by
  induction keys generalizing values with
  | nil => rfl
  | cons k keys ih =>
    cases values with
    | nil => rfl
    | cons v values =>
      simp only [List.mem_cons, not_or] at h
      obtain ⟨hne, hnotin⟩ := h
      exact (get?_cons_ne (Ne.symm hne) ..).trans (ih hnotin)

theorem mem_of_get? {d : Dict κ α} (h : d.get? key = some value) : (key, value) ∈ (d : List _) := by
  obtain ⟨e, he, rfl⟩ := Option.map_eq_some_iff.mp h
  have hkey : e.1 = key := by simpa using List.find?_some he
  rw [← hkey]
  exact List.mem_of_find?_eq_some he

theorem get?_of_mem {d : Dict κ α} (hn : (d.map Prod.fst).Nodup) (h : e ∈ (d : List _)) :
    d.get? e.1 = some e.2 := by
  induction d with
  | nil => cases h
  | cons e' d ih =>
    simp only [List.map_cons, List.nodup_cons] at hn
    rcases List.mem_cons.mp h with rfl | h
    · exact get?_cons_self ..
    · have hne : e'.1 ≠ e.1 := fun heq => hn.1 (heq ▸ List.mem_map_of_mem h)
      exact (get?_cons_ne hne ..).trans (ih hn.2 h)

theorem has_iff {d : Dict κ α} {key : κ} : d.has key = true ↔ ∃ e ∈ (d : List _), e.1 = key := by
  simp [has]

theorem set_cases (d : Dict κ α) (key : κ) (value : α) :
    (d.get? key = none ∧ d.set key value = List.append d [(key, value)]) ∨
      ∃ (before : Dict κ α) (old : α) (after : Dict κ α), d = before ++ (key, old) :: after ∧
        d.get? key = some old ∧ d.set key value = before ++ (key, value) :: after := by
  rcases updateFirst_cases (fun e : κ × α => e.1 = key) (fun _ => (key, value)) d with
    ⟨hnone, hall⟩ | ⟨before, ⟨key', old⟩, after, rfl, hbefore, hkey, hsome⟩
  · refine .inl ⟨?_, ?_⟩
    · rw [get?, List.find?_eq_none.mpr fun e he => by rw [hall e he]; exact Bool.false_ne_true]
      rfl
    · rw [set, hnone]
  · cases of_decide_eq_true hkey
    refine .inr ⟨before, old, after, rfl, ?_, ?_⟩
    · rw [get?, List.find?_append, List.find?_eq_none.mpr fun e he => by
        rw [hbefore e he]; exact Bool.false_ne_true]
      simp
    · rw [set, hsome]

theorem set_cons (key key' : κ) (value value' : α) (d : Dict κ α) :
    set ((key', value') :: d) key value =
      if key' = key then (key, value) :: d else (key', value') :: d.set key value := by
  by_cases h : key' = key
  · simp [set, updateFirst, h]
  · simp only [set, updateFirst, decide_eq_true_eq, h, if_false]
    cases updateFirst (fun e : κ × α => decide (e.1 = key)) (fun _ => (key, value)) d <;> rfl

theorem get?_set (d : Dict κ α) (key key' : κ) (value : α) :
    (d.set key value).get? key' = if key = key' then some value else d.get? key' := by
  induction d with
  | nil =>
    show get? [(key, value)] key' = _
    split
    · rename_i heq
      rw [heq, get?_cons_self]
    · rename_i hne
      exact get?_cons_ne hne ..
  | cons e d ih =>
    obtain ⟨k, v⟩ := e
    rw [set_cons]
    split
    · rename_i hk
      subst hk
      split
      · rename_i heq
        rw [heq, get?_cons_self]
      · rename_i hne
        rw [get?_cons_ne hne, get?_cons_ne hne]
    · rename_i hk
      by_cases hkey : k = key'
      · have hne : key ≠ key' := fun heq => hk (hkey.trans heq.symm)
        rw [hkey, get?_cons_self, if_neg hne, get?_cons_self]
      · rw [get?_cons_ne hkey, ih, get?_cons_ne hkey]

theorem mem_set {d : Dict κ α} (h : e ∈ (d.set key value : List _)) :
    e = (key, value) ∨ e ∈ (d : List _) := by
  rcases set_cases d key value with ⟨-, hset⟩ | ⟨before, old, after, rfl, -, hset⟩
  · rw [hset] at h
    rcases List.mem_append.mp h with h | h
    · exact .inr h
    · exact .inl (List.mem_singleton.mp h)
  · rw [hset] at h
    simp only [List.mem_append, List.mem_cons] at h ⊢
    tauto

theorem set_eq_self_iff {d : Dict κ α} {key : κ} {value : α} :
    d.set key value = d ↔ d.get? key = some value := by
  rcases set_cases d key value with ⟨hget, hset⟩ | ⟨before, old, after, rfl, hget, hset⟩
  · rw [hset, hget]
    simp
  · rw [hset, hget]
    simp [eq_comm]

theorem remove_eq_self_iff {d : Dict κ α} {key : κ} : d.remove key = d ↔ d.has key = false := by
  simp [remove, has, List.filter_eq_self]

theorem has_remove_of_ne {d : Dict κ α} {key key' : κ} (h : key' ≠ key) :
    (d.remove key).has key' = d.has key' := by
  rw [Bool.eq_iff_iff, has_iff, has_iff]
  constructor
  · rintro ⟨e, he, hk⟩
    exact ⟨e, List.mem_of_mem_filter he, hk⟩
  · rintro ⟨e, he, hk⟩
    exact ⟨e, List.mem_filter.mpr ⟨he, by simpa [hk] using h⟩, hk⟩

theorem remove_set (d : Dict κ α) (key : κ) (value : α) :
    (d.set key value).remove key = d.remove key := by
  rcases set_cases d key value with ⟨-, hset⟩ | ⟨before, old, after, rfl, -, hset⟩
  · rw [hset]
    simp [remove]
  · rw [hset]
    simp [remove]

/-- A dictionary built from entries, where a later entry replaces an earlier one. -/
def ofList (entries : List (κ × α)) : Dict κ α := entries.foldl (fun d e => d.set e.1 e.2) []

theorem get?_foldl_set {entries : List (κ × α)} {key : κ}
    (h : ∀ e ∈ entries, e.1 ≠ key) (d : Dict κ α) :
    (entries.foldl (fun d e => d.set e.1 e.2) d).get? key = d.get? key := by
  induction entries generalizing d with
  | nil => rfl
  | cons e entries ih =>
    obtain ⟨hne, hothers⟩ := List.forall_mem_cons.mp h
    rw [List.foldl_cons, ih hothers, get?_set, if_neg hne]

theorem get?_ofList {before after : List (κ × α)} {e : κ × α} (h : ∀ e' ∈ after, e'.1 ≠ e.1) :
    (ofList (before ++ e :: after)).get? e.1 = some e.2 := by
  rw [ofList, List.foldl_append, List.foldl_cons, get?_foldl_set h, get?_set, if_pos rfl]

theorem isSome_get?_foldl_set {key : κ} (entries : List (κ × α)) (d : Dict κ α) :
    ((entries.foldl (fun d e => d.set e.1 e.2) d).get? key).isSome ↔
      (d.get? key).isSome ∨ key ∈ entries.map Prod.fst := by
  induction entries generalizing d with
  | nil => simp
  | cons e entries ih =>
    rw [List.foldl_cons, ih, get?_set]
    split
    · rename_i heq
      simp [heq]
    · rename_i hne
      simp [Ne.symm hne]

theorem isSome_get?_ofList {entries : List (κ × α)} {key : κ} :
    ((ofList entries).get? key).isSome ↔ key ∈ entries.map Prod.fst := by
  rw [ofList, isSome_get?_foldl_set]
  simp [get?]

theorem has_eq_isSome (d : Dict κ α) (key : κ) : d.has key = (d.get? key).isSome := by
  rw [get?, Option.isSome_map, Bool.eq_iff_iff, List.find?_isSome, has, List.any_eq_true]

end Dict
