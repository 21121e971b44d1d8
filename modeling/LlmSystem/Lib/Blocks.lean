import Mathlib.Algebra.BigOperators.Intervals
import Mathlib.Algebra.BigOperators.Ring.Finset
import Mathlib.Algebra.Module.Defs
import Mathlib.Algebra.Order.BigOperators.Group.Finset

/-! Sums over `n * m` places grouped into `n` blocks of `m`. -/
namespace Blocks

open Finset

theorem div_eq_of_block {m : ℕ} (hm : 0 < m) (n i : ℕ) (hi : i < m) : (n * m + i) / m = n := by
  rw [Nat.mul_comm, Nat.mul_add_div hm, Nat.div_eq_of_lt hi, Nat.add_zero]

/-- A summand that depends on the block only is counted once for each place of the block. -/
theorem sum_div {M : Type*} [AddCommMonoid M] {m : ℕ} (hm : 0 < m) (n : ℕ) (f : ℕ → M) :
    ∑ d ∈ range (n * m), f (d / m) = m • ∑ q ∈ range n, f q := by
  induction n with
  | zero => simp
  | succ n ih =>
    have hblock : ∑ i ∈ range m, f ((n * m + i) / m) = m • f n := by
      rw [sum_congr rfl fun i hi => congrArg f (div_eq_of_block hm n i (mem_range.mp hi)),
        sum_const, card_range]
    rw [Nat.succ_mul, sum_range_add, ih, hblock, sum_range_succ, nsmul_add]

/-- The sum over the blocks of `m` consecutive places is the sum over all places. -/
theorem sum_blocks {M : Type*} [AddCommMonoid M] (n m : ℕ) (f : ℕ → M) :
    ∑ q ∈ range n, ∑ i ∈ range m, f (m * q + i) = ∑ d ∈ range (n * m), f d := by
  induction n with
  | zero => simp
  | succ n ih => rw [sum_range_succ, ih, Nat.succ_mul, sum_range_add, Nat.mul_comm m n]

/-- A place is in the block of `r` exactly if it has the same block number. -/
theorem mem_block {m : ℕ} (hm : 0 < m) (r d : ℕ) :
    d ∈ List.range' (r / m * m) m ↔ d / m = r / m := by
  rw [List.mem_range'_1, Nat.div_eq_iff hm]
  constructor
  · rintro ⟨hlo, hhi⟩
    omega
  · rintro ⟨hlo, hhi⟩
    omega

/-- Skipping one index of a sum. -/
theorem sum_skip {n s : ℕ} (hs : s < n) (f : ℕ → ℕ) :
    (∑ q ∈ range n, if q = s then 0 else f q) + f s = ∑ q ∈ range n, f q := by
  rw [← sum_erase_add (range n) f (mem_range.mpr hs),
    ← sum_erase_add (range n) (fun q => if q = s then 0 else f q) (mem_range.mpr hs)]
  simp only [↓reduceIte, Nat.add_zero, Nat.add_right_cancel_iff]
  exact sum_congr rfl fun q hq => if_neg (ne_of_mem_erase hq)

/-- Skipping the places of one block. -/
theorem sum_skip_block {n m s : ℕ} (hm : 0 < m) (hs : s < n) (f : ℕ → ℕ) :
    (∑ d ∈ range (n * m), if d / m = s then 0 else f (d / m)) + m * f s
      = m * ∑ q ∈ range n, f q := by
  rw [sum_div hm n fun q => if q = s then 0 else f q, smul_eq_mul, ← Nat.mul_add, sum_skip hs]

theorem list_sum_range (n : ℕ) (f : ℕ → ℕ) :
    ((List.range n).map f).sum = ∑ i ∈ range n, f i := rfl

end Blocks
