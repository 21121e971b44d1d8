import Mathlib.Algebra.Order.BigOperators.Group.List
import Mathlib.Algebra.Order.Group.Unbundled.Basic

/-!
Items on one side move to the other, one after the other in a given order, as long as the larger
of the two totals falls. An item may weigh differently on the two sides.
-/
namespace Descent

variable {ι α : Type*} [AddCommGroup α] [LinearOrder α]

/-- The larger total once the items have moved. -/
def larger (gain loss : ι → α) (high low : α) (moved : List ι) : α :=
  max (high + (moved.map gain).sum) (low - (moved.map loss).sum)

/-- How many items move: the first one that does not lower the larger total ends it. -/
def moves (gain loss : ι → α) : α → α → List ι → ℕ
  | _, _, [] => 0
  | high, low, x :: xs =>
    if max (high + gain x) (low - loss x) < max high low then
      moves gain loss (high + gain x) (low - loss x) xs + 1
    else 0

variable {gain loss : ι → α} {high low : α}

@[simp] theorem larger_nil : larger gain loss high low [] = max high low := by
  simp [larger]

@[simp] theorem larger_cons (x : ι) (xs : List ι) :
    larger gain loss high low (x :: xs) = larger gain loss (high + gain x) (low - loss x) xs := by
  unfold larger
  rw [List.map_cons, List.sum_cons, List.map_cons, List.sum_cons, add_assoc, sub_sub]

theorem moves_le_length (xs : List ι) : moves gain loss high low xs ≤ xs.length := by
  induction xs generalizing high low with
  | nil => exact le_refl 0
  | cons x xs ih =>
    unfold moves
    split_ifs
    · exact Nat.succ_le_succ ih
    · exact Nat.zero_le _

variable [IsOrderedAddMonoid α]

theorem le_larger {xs : List ι} (hgain : ∀ x ∈ xs, 0 ≤ gain x) :
    high ≤ larger gain loss high low xs := by
  apply le_max_of_le_left
  apply le_add_of_nonneg_right
  apply List.sum_nonneg
  simpa using hgain

/-- Where a move does not lower the larger total, it has made the growing side the larger one; no
later move makes that side smaller. -/
theorem max_le_larger {x : ι} (hloss : 0 < loss x)
    (hstop : max high low ≤ max (high + gain x) (low - loss x)) {xs : List ι}
    (hgain : ∀ y ∈ xs, 0 ≤ gain y) :
    max high low ≤ larger gain loss (high + gain x) (low - loss x) xs := by
  have hgrown : max high low ≤ high + gain x := by
    refine (le_max_iff.mp hstop).resolve_right ?_
    have hless : low - loss x < low := sub_lt_self low hloss
    exact not_le.mpr (hless.trans_le (le_max_right high low))
  exact hgrown.trans (le_larger hgain)

/-- Stopping at the first move that does not pay is optimal among all prefixes: what grows and
what falls meets only once. -/
theorem larger_moves_le {xs : List ι} (hgain : ∀ x ∈ xs, 0 ≤ gain x)
    (hloss : ∀ x ∈ xs, 0 < loss x) (j : ℕ) :
    larger gain loss high low (xs.take (moves gain loss high low xs))
      ≤ larger gain loss high low (xs.take j) := by
  induction xs generalizing high low j with
  | nil => simp
  | cons x xs ih =>
    obtain ⟨-, hgain'⟩ := List.forall_mem_cons.mp hgain
    obtain ⟨hx, hloss'⟩ := List.forall_mem_cons.mp hloss
    unfold moves
    split_ifs with hfalls
    · rw [List.take_succ_cons, larger_cons]
      cases j with
      | zero =>
        have hnone := @ih (high + gain x) (low - loss x) hgain' hloss' 0
        rw [List.take_zero, larger_nil] at hnone ⊢
        exact hnone.trans hfalls.le
      | succ j =>
        rw [List.take_succ_cons, larger_cons]
        exact ih hgain' hloss' j
    · rw [List.take_zero, larger_nil]
      cases j with
      | zero => rw [List.take_zero, larger_nil]
      | succ j =>
        rw [List.take_succ_cons, larger_cons]
        exact max_le_larger hx (not_lt.mp hfalls) fun y hy => hgain' y (List.mem_of_mem_take hy)

end Descent
