import Mathlib.Data.List.Basic

/-!
# Sliding windows

A log of readings that never decrease, and a queue that is to hold those of a
window before the clock. Readings enter the queue at its end and leave it at its
front, whenever it is looked at (`Tracks.prune`). After that it holds just the
readings of the window.
-/

namespace Windows

/-- The readings at most `w` before `now`. -/
def recent (w now : Nat) (log : List Nat) : List Nat := log.filter fun t => now - t ≤ w

def within (w start : Nat) (log : List Nat) : List Nat :=
  log.filter fun t => start ≤ t ∧ t ≤ start + w

/-- The queue is the log without readings that the window has passed. -/
structure Tracks (w clock : Nat) (log queue : List Nat) : Prop where
  sorted : log.Pairwise (· ≤ ·)
  past : ∀ t ∈ log, t ≤ clock
  kept : ∃ old, log = old ++ queue ∧ ∀ t ∈ old, t + w < clock

theorem Tracks.nil (w clock : Nat) : Tracks w clock [] [] :=
  ⟨.nil, by simp, [], rfl, by simp⟩

theorem Tracks.later (h : Tracks w clock log queue) (hle : clock ≤ now) :
    Tracks w now log queue := by
  obtain ⟨hsorted, hpast, old, hlog, hold⟩ := h
  exact ⟨hsorted, fun t ht => Nat.le_trans (hpast t ht) hle, old, hlog,
    fun t ht => Nat.lt_of_lt_of_le (hold t ht) hle⟩

theorem dropWhile_eq_recent (h : queue.Pairwise (· ≤ ·)) :
    (queue.dropWhile fun t => now - t > w) = recent w now queue := by
  induction queue with
  | nil => rfl
  | cons t queue ih =>
    obtain ⟨hfirst, hrest⟩ := List.pairwise_cons.mp h
    by_cases hold : now - t > w
    · rw [List.dropWhile_cons_of_pos (by simpa using hold), ih hrest, recent, recent,
        List.filter_cons_of_neg (by simpa only [decide_eq_true_eq, Nat.not_le] using hold)]
    · rw [List.dropWhile_cons_of_neg (by simpa using hold), recent, List.filter_eq_self.mpr]
      intro u hu
      rcases List.mem_cons.mp hu with rfl | hu
      · simpa using hold
      · have := hfirst u hu
        simp only [decide_eq_true_eq]
        omega

theorem Tracks.prune (h : Tracks w clock log queue) :
    (queue.dropWhile fun t => clock - t > w) = recent w clock log := by
  obtain ⟨hsorted, -, old, rfl, hold⟩ := h
  have hnone : recent w clock old = [] := by
    rw [recent, List.filter_eq_nil_iff]
    intro t ht
    have := hold t ht
    simp only [decide_eq_true_eq]
    omega
  rw [dropWhile_eq_recent (List.pairwise_append.mp hsorted).2.1, recent, recent, List.filter_append]
  rw [recent] at hnone
  rw [hnone, List.nil_append]

theorem Tracks.pruned (h : Tracks w clock log queue) : Tracks w clock log (recent w clock log) := by
  refine ⟨h.sorted, h.past, ?_⟩
  rw [← h.prune]
  obtain ⟨-, -, old, rfl, hold⟩ := h
  refine ⟨old ++ queue.takeWhile fun t => clock - t > w, ?_, fun t ht => ?_⟩
  · rw [List.append_assoc, List.takeWhile_append_dropWhile]
  · rcases List.mem_append.mp ht with ht | ht
    · exact hold t ht
    · have := List.all_eq_true.mp List.all_takeWhile t ht
      simp only [gt_iff_lt, decide_eq_true_eq] at this
      omega

theorem Tracks.push (h : Tracks w clock log queue) :
    Tracks w clock (log ++ [clock]) (queue ++ [clock]) := by
  obtain ⟨hsorted, hpast, old, rfl, hold⟩ := h
  refine ⟨List.pairwise_append.mpr ⟨hsorted, List.pairwise_singleton .., ?_⟩,
    ?_, old, by simp, hold⟩
  · intro t ht u hu
    rw [List.mem_singleton.mp hu]
    exact hpast t ht
  · intro t ht
    rcases List.mem_append.mp ht with ht | ht
    · exact hpast t ht
    · exact Nat.le_of_eq (List.mem_singleton.mp ht)

/-- If a reading is the last of a window, the others of it were recent then. -/
theorem length_within_push (w now start : Nat) (log : List Nat) :
    (within w start (log ++ [now])).length ≤
      max (within w start log).length ((recent w now log).length + 1) := by
  rw [within, List.filter_append, List.length_append]
  by_cases hnow : start ≤ now ∧ now ≤ start + w
  · have hle : (within w start log).length ≤ (recent w now log).length := by
      refine (List.monotone_filter_right log fun t ht => ?_).length_le
      simp only [decide_eq_true_eq] at ht ⊢
      omega
    rw [within] at hle
    simp only [List.filter_cons, hnow, and_self, decide_true, ↓reduceIte, List.filter_nil,
      List.length_singleton]
    omega
  · simp only [List.filter_cons, hnow, decide_false, Bool.false_eq_true, ↓reduceIte,
      List.filter_nil, List.length_nil, Nat.add_zero]
    exact Nat.le_max_left ..

end Windows
