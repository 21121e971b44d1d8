import Mathlib.Algebra.BigOperators.Group.List.Basic
import Mathlib.Algebra.Order.Ring.Int
import Mathlib.Data.Int.Notation
import Mathlib.Tactic.Ring

/-! Lists of counters: one is increased at a time, and lists of equal length are added up by
position. -/
namespace Tally

/-- One more at position `i`. -/
def bump (l : List ℕ) (i : ℕ) : List ℕ := l.modify i (· + 1)

@[simp] theorem length_bump (l : List ℕ) (i : ℕ) : (bump l i).length = l.length := by
  simp [bump]

theorem sum_bump {l : List ℕ} {i : ℕ} (hi : i < l.length) : (bump l i).sum = l.sum + 1 := by
  unfold bump
  induction l generalizing i with
  | nil => simp at hi
  | cons n l ih =>
    cases i with
    | zero =>
      simp
      omega
    | succ i =>
      have hrest := ih (i := i) (by simpa using hi)
      simp [hrest]
      omega

def add (l l' : List ℕ) : List ℕ := List.zipWith (· + ·) l l'

theorem length_add {l l' : List ℕ} (h : l.length = l'.length) : (add l l').length = l'.length := by
  simp [add, h]

theorem getD_add {l l' : List ℕ} (h : l.length = l'.length) (j : ℕ) :
    (add l l').getD j 0 = l.getD j 0 + l'.getD j 0 := by
  by_cases hj : j < l'.length
  · simp [add, hj, h]
  · simp [add, hj, h]

theorem sum_add {l l' : List ℕ} (h : l.length = l'.length) :
    (add l l').sum = l.sum + l'.sum := by
  unfold add
  induction l generalizing l' with
  | nil =>
    obtain rfl := List.eq_nil_of_length_eq_zero h.symm
    rfl
  | cons a l ih =>
    cases l' with
    | nil => simp at h
    | cons a' l' =>
      have hlen : l.length = l'.length := by simpa using h
      have hrest := ih hlen
      simp only [List.zipWith_cons_cons, List.sum_cons, hrest]
      omega

/-- The sums by position of lists of length `n`. -/
def columns (n : ℕ) (ls : List (List ℕ)) : List ℕ := ls.foldl add (List.replicate n 0)

theorem foldl_add {n : ℕ} {ls : List (List ℕ)} (h : ∀ l ∈ ls, l.length = n) {acc : List ℕ}
    (hacc : acc.length = n) : (ls.foldl add acc).length = n ∧
      (∀ j, (ls.foldl add acc).getD j 0 = acc.getD j 0 + (ls.map fun l => l.getD j 0).sum) ∧
      (ls.foldl add acc).sum = acc.sum + (ls.map List.sum).sum := by
  induction ls generalizing acc with
  | nil => simpa using hacc
  | cons l ls ih =>
    obtain ⟨hl, hls⟩ := List.forall_mem_cons.mp h
    have hlen : acc.length = l.length := hacc.trans hl.symm
    obtain ⟨hlength, hget, hsum⟩ := ih hls ((length_add hlen).trans hl)
    refine ⟨hlength, ?_, ?_⟩
    · intro j
      simp only [List.foldl_cons, hget, getD_add hlen, List.map_cons, List.sum_cons, add_assoc]
    · simp only [List.foldl_cons, hsum, sum_add hlen, List.map_cons, List.sum_cons, add_assoc]

section Columns
variable {n : ℕ} {ls : List (List ℕ)}

theorem length_columns (h : ∀ l ∈ ls, l.length = n) : (columns n ls).length = n :=
  (foldl_add h List.length_replicate).1

theorem getD_columns (h : ∀ l ∈ ls, l.length = n) (j : ℕ) :
    (columns n ls).getD j 0 = (ls.map fun l => l.getD j 0).sum := by
  have hget := (foldl_add h (List.length_replicate (a := 0))).2.1 j
  by_cases hj : j < n
  · simpa [columns, hj] using hget
  · simpa [columns, hj] using hget

theorem sum_columns (h : ∀ l ∈ ls, l.length = n) :
    (columns n ls).sum = (ls.map List.sum).sum := by
  have hsum := (foldl_add h (List.length_replicate (a := 0))).2.2
  simpa [columns] using hsum

end Columns

/-- Counting as a sum. -/
theorem sum_indicator {α : Type*} (p : α → Prop) [DecidablePred p] (l : List α) :
    (l.map fun a => if p a then 1 else 0).sum = l.countP fun a => decide (p a) := by
  induction l with
  | nil => rfl
  | cons a l ih =>
    rw [List.map_cons, List.sum_cons, ih, List.countP_cons, add_comm]
    by_cases h : p a <;> simp [h]

/-- A fold whose steps cannot fail and add to a measure. -/
theorem foldlM_adds {ε β γ : Type} {f : β → γ → Except ε β} {I : β → Prop} {v : β → ℤ} {w : γ → ℤ}
    {l : List γ} (hstep : ∀ b, I b → ∀ a ∈ l, ∃ b', f b a = .ok b' ∧ I b' ∧ v b' = v b + w a)
    {b : β} (hb : I b) : ∃ b', l.foldlM f b = .ok b' ∧ I b' ∧ v b' = v b + (l.map w).sum := by
  induction l generalizing b with
  | nil => exact ⟨b, rfl, hb, by simp⟩
  | cons a l ih =>
    obtain ⟨c, hc, hI, hv⟩ := hstep b hb a (List.mem_cons_self ..)
    obtain ⟨d, hd, hJ, hw⟩ := ih (fun b hb a ha => hstep b hb a (List.mem_cons_of_mem _ ha)) hI
    refine ⟨d, ?_, hJ, ?_⟩
    · simp only [List.foldlM_cons, hc]
      exact hd
    · simp only [hw, hv, List.map_cons, List.sum_cons]
      ring

end Tally
