import Mathlib.Data.List.DropRight
import Mathlib.Data.List.Basic

/-!
# Stripping and splitting text

What trimming and splitting do on lists of characters, and what they leave
unchanged.
-/

namespace Texts

def strip (p : α → Bool) (l : List α) : List α := (l.dropWhile p).rdropWhile p

theorem strip_eq_self {p : α → Bool} {l : List α} (hh : ∀ c ∈ l.head?, p c = false)
    (hl : ∀ c ∈ l.getLast?, p c = false) : strip p l = l := by
  have hd : l.dropWhile p = l := by
    cases l with
    | nil => rfl
    | cons c l => simp [hh c rfl]
  unfold strip
  rw [hd, List.rdropWhile_eq_self_iff]
  intro hne
  simp [hl _ (List.getLast?_eq_some_getLast hne)]

theorem head_strip {p : α → Bool} {l : List α} : ∀ c ∈ (strip p l).head?, p c = false := by
  intro c hc
  obtain ⟨rest, hrest⟩ := List.rdropWhile_prefix p (l.dropWhile p)
  have hd : (l.dropWhile p).head? = some c := by
    rw [← hrest, List.head?_append, show ((l.dropWhile p).rdropWhile p).head? = some c from hc]
    rfl
  have hnot := List.head?_dropWhile_not p l
  rw [hd] at hnot
  simpa using hnot

theorem getLast_strip {p : α → Bool} {l : List α} : ∀ c ∈ (strip p l).getLast?, p c = false := by
  intro c hc
  have hne : (l.dropWhile p).rdropWhile p ≠ [] := by
    intro h
    rw [strip, h] at hc
    cases hc
  have hlast := List.rdropWhile_last_not p (l.dropWhile p) hne
  rw [strip, List.getLast?_eq_some_getLast hne] at hc
  obtain rfl := Option.some.inj hc
  simpa using hlast

theorem strip_strip (p : α → Bool) (l : List α) : strip p (strip p l) = strip p l :=
  strip_eq_self head_strip getLast_strip

theorem strip_of_none {p : α → Bool} {l : List α} (h : ∀ c ∈ l, p c = false) : strip p l = l :=
  strip_eq_self (fun c hc => h c (List.mem_of_mem_head? hc))
    (fun c hc => h c (List.mem_of_mem_getLast? hc))

theorem strip_append {p : α → Bool} {before l after : List α} (hbefore : ∀ c ∈ before, p c = true)
    (hafter : ∀ c ∈ after, p c = true) (hne : l ≠ []) (h : ∀ c ∈ l, p c = false) :
    strip p (before ++ (l ++ after)) = l := by
  have hfront : (before ++ (l ++ after)).dropWhile p = l ++ after := by
    rw [List.dropWhile_append_of_pos hbefore]
    cases l with
    | nil => exact absurd rfl hne
    | cons c l => simp [h c List.mem_cons_self]
  have hreverse : ∀ c ∈ after.reverse, p c = true := fun c hc => hafter c (List.mem_reverse.mp hc)
  have hback : l.rdropWhile p = l := by
    rw [List.rdropWhile_eq_self_iff]
    intro hl
    simp [h _ (List.getLast_mem hl)]
  rw [strip, hfront, List.rdropWhile, List.reverse_append, List.dropWhile_append_of_pos hreverse]
  exact hback

theorem takeWhile_dropWhile_append {p : α → Bool} {front back : List α}
    (hfront : ∀ c ∈ front, p c = true) (hback : ∀ c ∈ back.head?, p c = false) :
    (front ++ back).takeWhile p = front ∧ (front ++ back).dropWhile p = back := by
  rw [List.takeWhile_append_of_pos hfront, List.dropWhile_append_of_pos hfront]
  cases back with
  | nil => simp
  | cons c back => simp [hback c rfl]

theorem rdropWhile_append_cons {p : α → Bool} {c : α} (hc : p c = false) (front back : List α) :
    (front ++ c :: back).rdropWhile p = front ++ c :: back.rdropWhile p := by
  have hreverse : (front ++ c :: back).reverse = back.reverse ++ c :: front.reverse := by simp
  rw [List.rdropWhile, hreverse, List.dropWhile_append, List.rdropWhile]
  split
  · rename_i h
    simp [List.isEmpty_iff.mp h, hc]
  · simp

theorem mem_strip {p : α → Bool} {l : List α} (hmem : c ∈ l) (hc : p c = false) :
    c ∈ strip p l := by
  obtain ⟨front, back, rfl⟩ := List.append_of_mem hmem
  have hfront : ∃ front', (front ++ c :: back).dropWhile p = front' ++ c :: back := by
    rw [List.dropWhile_append]
    split
    · exact ⟨[], by simp [hc]⟩
    · exact ⟨_, rfl⟩
  obtain ⟨front', heq⟩ := hfront
  rw [strip, heq, rdropWhile_append_cons hc]
  simp

theorem strip_cons {p : α → Bool} {before : List α}
    (hbefore : ∀ c ∈ before, p c = true) (hc : p c = false)
    (rest : List α) : strip p (before ++ c :: rest) = c :: rest.rdropWhile p := by
  rw [strip, List.dropWhile_append_of_pos hbefore, List.dropWhile_cons_of_neg (by simp [hc])]
  exact rdropWhile_append_cons hc [] rest

theorem strip_rdropWhile (p : α → Bool) (l : List α) : strip p (l.rdropWhile p) = strip p l := by
  by_cases hall : ∀ c ∈ l, p c = true
  · have hnil : l.rdropWhile p = [] := List.rdropWhile_eq_nil_iff.mpr hall
    have hdrop : l.dropWhile p = [] := List.dropWhile_eq_nil_iff.mpr hall
    rw [hnil, strip, strip, hdrop]
    rfl
  · obtain ⟨c, rest, hrest⟩ := List.exists_cons_of_ne_nil (mt List.dropWhile_eq_nil_iff.mp hall)
    have hc : p c = false := by
      have hnot := List.head?_dropWhile_not p l
      rw [hrest] at hnot
      simpa using hnot
    have hbefore : ∀ c ∈ l.takeWhile p, p c = true := fun c hc => List.mem_takeWhile_imp hc
    rw [← List.takeWhile_append_dropWhile (p := p) (l := l), hrest, rdropWhile_append_cons hc,
      strip_cons hbefore hc, strip_cons hbefore hc, List.rdropWhile_idempotent]

-- ---------------------------------------------------------------------------
-- Lines
-- ---------------------------------------------------------------------------

def consLine (c : Char) : List (List Char) → List (List Char)
  | [] => [[c]]
  | line :: lines => (c :: line) :: lines

/-- The lines of a text, each with its end or, for the last, the end of the
text. A CRLF is one end. -/
def linesOf (isBreak : Char → Bool) : List Char → List (List Char)
  | [] => []
  | '\r' :: '\n' :: rest => [] :: linesOf isBreak rest
  | c :: rest => if isBreak c then [] :: linesOf isBreak rest else consLine c (linesOf isBreak rest)

section
variable {isBreak : Char → Bool}

theorem linesOf_cons {c : Char} (hr : c ≠ '\r') (h : isBreak c = false) (rest : List Char) :
    linesOf isBreak (c :: rest) = consLine c (linesOf isBreak rest) := by
  rw [linesOf]
  · simp [h]
  · intro _ hc
    exact absurd hc hr

theorem linesOf_line {line : List Char} (hne : line ≠ [])
    (h : ∀ c ∈ line, c ≠ '\r' ∧ isBreak c = false) :
    linesOf isBreak line = [line] := by
  induction line with
  | nil => exact absurd rfl hne
  | cons c line ih =>
    obtain ⟨hr, hc⟩ := h c List.mem_cons_self
    rw [linesOf_cons hr hc]
    cases line with
    | nil => rfl
    | cons d line =>
      rw [ih (by simp) fun c hc => h c (List.mem_cons_of_mem _ hc)]
      rfl

theorem linesOf_newline {line : List Char} (hbreak : isBreak '\n' = true)
    (h : ∀ c ∈ line, c ≠ '\r' ∧ isBreak c = false) (rest : List Char) :
    linesOf isBreak (line ++ '\n' :: rest) = line :: linesOf isBreak rest := by
  induction line with
  | nil =>
    rw [List.nil_append, linesOf]
    · simp [hbreak]
    · rintro _ ⟨⟩
  | cons c line ih =>
    obtain ⟨hr, hc⟩ := h c List.mem_cons_self
    rw [List.cons_append, linesOf_cons hr hc, ih fun c hc => h c (List.mem_cons_of_mem _ hc)]
    rfl

end

-- ---------------------------------------------------------------------------
-- Parts between separators
-- ---------------------------------------------------------------------------

theorem intercalate_cons_cons (x : α) (a b : List α) (ls : List (List α)) :
    [x].intercalate (a :: b :: ls) = a ++ x :: [x].intercalate (b :: ls) := by
  simp [List.intercalate]

theorem intercalate_singleton (x : α) (a : List α) : [x].intercalate [a] = a := by
  simp [List.intercalate]

theorem mem_intercalate {x c : α} {ls : List (List α)} (h : c ∈ [x].intercalate ls) :
    c = x ∨ ∃ l ∈ ls, c ∈ l := by
  induction ls with
  | nil => cases h
  | cons a ls ih =>
    cases ls with
    | nil =>
      rw [intercalate_singleton] at h
      exact .inr ⟨a, List.mem_cons_self, h⟩
    | cons b ls =>
      rw [intercalate_cons_cons, List.mem_append, List.mem_cons] at h
      rcases h with h | rfl | h
      · exact .inr ⟨a, List.mem_cons_self, h⟩
      · exact .inl rfl
      · exact (ih h).imp_right fun ⟨l, hl, hc⟩ => ⟨l, List.mem_cons_of_mem _ hl, hc⟩

theorem getLast_intercalate {x c : α} {ls : List (List α)} (hne : ∀ l ∈ ls, l ≠ [])
    (h : ([x].intercalate ls).getLast? = some c) : ∃ l ∈ ls, l.getLast? = some c := by
  induction ls with
  | nil => cases h
  | cons a ls ih =>
    cases ls with
    | nil =>
      rw [intercalate_singleton] at h
      exact ⟨a, List.mem_cons_self, h⟩
    | cons b ls =>
      have hb : [x].intercalate (b :: ls) ≠ [] := by
        cases ls with
        | nil =>
          rw [intercalate_singleton]
          exact hne b (by simp)
        | cons d ls =>
          rw [intercalate_cons_cons]
          simp
      have htail : ([x].intercalate (b :: ls)).getLast? = some c := by
        rw [intercalate_cons_cons, List.getLast?_append, List.getLast?_cons,
          List.getLast?_eq_some_getLast hb] at h
        rw [List.getLast?_eq_some_getLast hb]
        simpa using h
      obtain ⟨l, hl, hc⟩ := ih (fun l hl => hne l (List.mem_cons_of_mem _ hl)) htail
      exact ⟨l, List.mem_cons_of_mem _ hl, hc⟩

theorem linesOf_congr {p q : Char → Bool} (hpq : ∀ c, p c = true → q c = true)
    (h : ∀ line ∈ linesOf p s, ∀ c ∈ line, q c = false) : linesOf q s = linesOf p s := by
  fun_induction linesOf p s with
  | case1 => rfl
  | case2 rest ih => rw [linesOf, ih fun line hline => h line (List.mem_cons_of_mem _ hline)]
  | case3 c rest hcr hc ih =>
    rw [linesOf]
    · rw [if_pos (hpq c hc), ih fun line hline => h line (List.mem_cons_of_mem _ hline)]
    · exact hcr
  | case4 c rest hcr hc ih =>
    have hrest : ∀ line ∈ linesOf p rest, ∀ d ∈ line, q d = false := by
      intro line hline d hd
      cases hlines : linesOf p rest with
      | nil =>
        rw [hlines] at hline
        cases hline
      | cons first lines =>
        rw [hlines] at hline h
        rcases List.mem_cons.mp hline with rfl | hline
        · exact h (c :: line) List.mem_cons_self d (List.mem_cons_of_mem _ hd)
        · exact h line (List.mem_cons_of_mem _ hline) d hd
    have hqc : q c = false := by
      cases hlines : linesOf p rest with
      | nil =>
        rw [hlines] at h
        exact h [c] List.mem_cons_self c List.mem_cons_self
      | cons first lines =>
        rw [hlines] at h
        exact h (c :: first) List.mem_cons_self c List.mem_cons_self
    rw [linesOf]
    · rw [if_neg (by simp [hqc]), ih hrest]
    · exact hcr

theorem linesOf_intercalate {isBreak : Char → Bool} {lines : List (List Char)}
    (hbreak : isBreak '\n' = true)
    (hne : ∀ line ∈ lines, line ≠ []) (h : ∀ line ∈ lines, ∀ c ∈ line, c ≠ '\r' ∧ isBreak c = false)
    (hlast : last = [] ∨ last = ['\n']) (hlines : lines ≠ []) :
    linesOf isBreak (['\n'].intercalate lines ++ last) = lines := by
  induction lines with
  | nil => exact absurd rfl hlines
  | cons line lines ih =>
    have hline := h line List.mem_cons_self
    cases lines with
    | nil =>
      rw [intercalate_singleton]
      rcases hlast with rfl | rfl
      · rw [List.append_nil]
        exact linesOf_line (hne line List.mem_cons_self) hline
      · exact linesOf_newline hbreak hline []
    | cons line' lines =>
      rw [intercalate_cons_cons, List.append_assoc, List.cons_append, linesOf_newline hbreak hline,
        ih (fun l hl => hne l (List.mem_cons_of_mem _ hl))
          (fun l hl => h l (List.mem_cons_of_mem _ hl)) (by simp)]

-- ---------------------------------------------------------------------------
-- Parts between runs of separators
-- ---------------------------------------------------------------------------

/-- The parts between runs of characters that pass the test. -/
def words (p : α → Bool) (l : List α) : List (List α) := (l.splitOnP p).filter fun w => !w.isEmpty

theorem words_append_left {p : α → Bool} {gap : List α} (h : ∀ c ∈ gap, p c = true) (l : List α) :
    words p (gap ++ l) = words p l := by
  induction gap with
  | nil => rfl
  | cons c gap ih =>
    rw [← ih fun c hc => h c (List.mem_cons_of_mem _ hc)]
    simp [words, List.splitOnP_cons_eq_if_modifyHead, h c List.mem_cons_self]

theorem words_singleton {p : α → Bool} {w : List α} (hne : w ≠ []) (h : ∀ c ∈ w, p c = false) :
    words p w = [w] := by
  rw [words, List.splitOnP_eq_singleton h]
  simp [hne]

theorem words_append_cons {p : α → Bool} {w : List α} (hne : w ≠ []) (h : ∀ c ∈ w, p c = false)
    (hc : p c = true) (l : List α) : words p (w ++ c :: l) = w :: words p l := by
  rw [words, List.splitOnP_append_cons_of_forall_mem h _ hc]
  simp [words, hne]

-- ---------------------------------------------------------------------------
-- The last separator
-- ---------------------------------------------------------------------------

/-- What comes before the last separator and after it. -/
def rpartition [DecidableEq α] (x : α) (l : List α) : Option (List α × List α) :=
  let after := l.reverse.takeWhile (· ≠ x)
  match l.reverse.dropWhile (· ≠ x) with
  | [] => none
  | _ :: before => some (before.reverse, after.reverse)

theorem rpartition_of_not_mem [DecidableEq α] {x : α} {l : List α} (h : x ∉ l) :
    rpartition x l = none := by
  have hall : ∀ c ∈ l.reverse, decide (c ≠ x) = true := by
    intro c hc
    rw [decide_eq_true_eq]
    rintro rfl
    exact h (List.mem_reverse.mp hc)
  simp only [rpartition]
  rw [List.dropWhile_eq_nil_iff.mpr hall]

theorem rpartition_append [DecidableEq α] {x : α} {before after : List α} (h : x ∉ after) :
    rpartition x (before ++ x :: after) = some (before, after) := by
  have hall : ∀ c ∈ after.reverse, decide (c ≠ x) = true := by
    intro c hc
    rw [decide_eq_true_eq]
    rintro rfl
    exact h (List.mem_reverse.mp hc)
  have hreverse : (before ++ x :: after).reverse = after.reverse ++ x :: before.reverse := by simp
  have hx : ∀ c ∈ (x :: before.reverse).head?, decide (c ≠ x) = false := by simp
  obtain ⟨htake, hdrop⟩ := takeWhile_dropWhile_append hall hx
  simp only [rpartition]
  rw [hreverse, hdrop, htake]
  simp

end Texts
