import Mathlib.Data.Int.Log
import Mathlib.Algebra.Order.Floor.Ring
import Mathlib.Algebra.Order.Ring.Rat
import Mathlib.Data.Rat.Floor
import Mathlib.Tactic

/-!
Finite binary64 arithmetic on exact rationals: every operation is the exact one
followed by rounding to nearest, ties to even. Overflow and signed zeros are
outside the model.
-/
namespace Binary64

/-- Exponent of the last place of a binary64 of the magnitude of `x`. -/
def ulpExp (x : ℚ) : ℤ := max (Int.log 2 |x| - 52) (-1074)

def roundEven (q : ℚ) : ℤ :=
  if q - ⌊q⌋ < 1 / 2 then ⌊q⌋
  else if 1 / 2 < q - ⌊q⌋ then ⌊q⌋ + 1
  else if ⌊q⌋ % 2 = 0 then ⌊q⌋ else ⌊q⌋ + 1

def round (x : ℚ) : ℚ := roundEven (x / 2 ^ ulpExp x) * 2 ^ ulpExp x

def mul (x y : ℚ) : ℚ := round (x * y)

def sub (x y : ℚ) : ℚ := round (x - y)

/-- Conversion to an integer discards the fraction. -/
def trunc (x : ℚ) : ℤ := if 0 ≤ x then ⌊x⌋ else ⌈x⌉

theorem le_roundEven {q : ℚ} {n : ℤ} (h : (n : ℚ) ≤ q) : n ≤ roundEven q := by
  have hf : n ≤ ⌊q⌋ := Int.le_floor.mpr h
  unfold roundEven
  split_ifs <;> omega

theorem roundEven_le {q : ℚ} {n : ℤ} (h : q ≤ n) : roundEven q ≤ n := by
  rcases h.eq_or_lt with rfl | hlt
  · simp [roundEven]
  · have hf : ⌊q⌋ < n := Int.floor_lt.mpr hlt
    unfold roundEven
    split_ifs <;> omega

/-- A coarser grid point divided by a finer unit is an integer. -/
theorem grid_div {e u : ℤ} (h : u ≤ e) (m : ℤ) :
    (m : ℚ) * 2 ^ e / 2 ^ u = ((m * 2 ^ (e - u).toNat : ℤ) : ℚ) := by
  have he : e = u + ((e - u).toNat : ℤ) := by omega
  have hu : (2 : ℚ) ^ u ≠ 0 := zpow_ne_zero _ (by norm_num)
  conv_lhs => rw [he, zpow_add₀ (by norm_num : (2 : ℚ) ≠ 0), zpow_natCast]
  push_cast
  field_simp

/-- Rounding never crosses a point of a grid at least as coarse as the last place. -/
theorem round_le_grid {x : ℚ} {m e : ℤ} (he : ulpExp x ≤ e) (h : x ≤ m * 2 ^ e) :
    round x ≤ m * 2 ^ e := by
  have hp : (0 : ℚ) < 2 ^ ulpExp x := zpow_pos (by norm_num) _
  have hq : x / 2 ^ ulpExp x ≤ ((m * 2 ^ (e - ulpExp x).toNat : ℤ) : ℚ) := by
    rw [← grid_div he m]
    exact div_le_div_of_nonneg_right h hp.le
  have hr : (roundEven (x / 2 ^ ulpExp x) : ℚ) ≤ m * 2 ^ e / 2 ^ ulpExp x := by
    rw [grid_div he m]
    exact_mod_cast roundEven_le hq
  exact (le_div_iff₀ hp).mp hr

theorem grid_le_round {x : ℚ} {m e : ℤ} (he : ulpExp x ≤ e) (h : m * 2 ^ e ≤ x) :
    m * 2 ^ e ≤ round x := by
  have hp : (0 : ℚ) < 2 ^ ulpExp x := zpow_pos (by norm_num) _
  have hq : ((m * 2 ^ (e - ulpExp x).toNat : ℤ) : ℚ) ≤ x / 2 ^ ulpExp x := by
    rw [← grid_div he m]
    exact div_le_div_of_nonneg_right h hp.le
  have hr : (m * 2 ^ e / 2 ^ ulpExp x : ℚ) ≤ roundEven (x / 2 ^ ulpExp x) := by
    rw [grid_div he m]
    exact_mod_cast le_roundEven hq
  exact (div_le_iff₀ hp).mp hr

@[simp] theorem round_zero : round 0 = 0 := by simp [round, roundEven]

/-- The last place of a nonzero number below `2 ^ (k + 53)` is at most `2 ^ k`. -/
theorem ulpExp_le {x : ℚ} {k : ℤ} (hx : x ≠ 0) (hk : -1074 ≤ k) (h : |x| < 2 ^ (k + 53)) :
    ulpExp x ≤ k := by
  have hl := (Int.lt_zpow_iff_log_lt (b := 2) (by norm_num) (abs_pos.mpr hx)).mp
    (by exact_mod_cast h)
  exact max_le (by omega) hk

theorem round_le_int {x : ℚ} {n : ℤ} (hx : |x| < 2 ^ 53) (h : x ≤ n) : round x ≤ n := by
  rcases eq_or_ne x 0 with rfl | h0
  · simpa using h
  · have hu : ulpExp x ≤ 0 := ulpExp_le h0 (by norm_num) (by exact_mod_cast hx)
    simpa using round_le_grid (m := n) hu (by simpa using h)

theorem int_le_round {x : ℚ} {n : ℤ} (hx : |x| < 2 ^ 53) (h : n ≤ x) : n ≤ round x := by
  rcases eq_or_ne x 0 with rfl | h0
  · simpa using h
  · have hu : ulpExp x ≤ 0 := ulpExp_le h0 (by norm_num) (by exact_mod_cast hx)
    simpa using grid_le_round (m := n) hu (by simpa using h)

theorem trunc_bounds {x : ℚ} {n : ℤ} (h0 : 0 ≤ x) (hn : x ≤ n) : 0 ≤ trunc x ∧ trunc x ≤ n := by
  rw [trunc, if_pos h0]
  exact ⟨Int.floor_nonneg.mpr h0, by exact_mod_cast (Int.floor_le x).trans hn⟩

/-- Scaling a non-negative integer by a factor in `[0, 1]` stays between zero and it. -/
theorem trunc_mul_bounds {n : ℤ} {r : ℚ} (hn : 0 ≤ n) (hn' : n < 2 ^ 53) (h0 : 0 ≤ r)
    (h1 : r ≤ 1) : 0 ≤ trunc (mul n r) ∧ trunc (mul n r) ≤ n := by
  have hnq : (0 : ℚ) ≤ n := by exact_mod_cast hn
  have hlo : (0 : ℚ) ≤ n * r := mul_nonneg hnq h0
  have hhi : (n : ℚ) * r ≤ n := mul_le_of_le_one_right hnq h1
  have hb : |(n : ℚ) * r| < 2 ^ 53 := by
    rw [abs_of_nonneg hlo]
    exact hhi.trans_lt (by exact_mod_cast hn')
  exact trunc_bounds (by simpa [mul] using int_le_round (n := 0) hb (by simpa using hlo))
    (round_le_int hb hhi)

end Binary64
