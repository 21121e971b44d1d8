import Mathlib.Algebra.BigOperators.Group.List.Basic
import Mathlib.Algebra.Order.Ring.Cast
import Mathlib.Algebra.Order.Ring.Rat
import Mathlib.Data.Nat.Cast.Order.Field
import Mathlib.Tactic.Linarith
import Mathlib.Tactic.NormNum

/-! Formulas that are computed partly in 32 bits and partly exactly: where the 32 bits do not hold
a product, the result is too small. -/
namespace Overflow

/-! ### Results that are right or too small -/

section Reads
variable {R : Type*} [CommRing R] [LinearOrder R] {a b x y c : R} {p q : Prop}

/-- What is computed for a number that is not negative: the number itself where it fits, and
otherwise at least one less. -/
structure Reads (computed exact : R) (fits : Prop) : Prop where
  nonneg : 0 ≤ exact
  eq : fits → computed = exact
  short : ¬ fits → computed + 1 ≤ exact ∧ 1 ≤ exact

namespace Reads

theorem refl (hx : 0 ≤ x) : Reads x x True :=
  ⟨hx, fun _ => rfl, fun h => absurd trivial h⟩

theorem congr (h : Reads a x p) (hpq : p ↔ q) : Reads a x q :=
  propext hpq ▸ h

variable [IsStrictOrderedRing R]

theorem eq_iff (h : Reads a x p) : a = x ↔ p := by
  refine ⟨fun hax => ?_, h.eq⟩
  by_contra hp
  have hshort := (h.short hp).1
  rw [hax] at hshort
  linarith

theorem le (h : Reads a x p) : a ≤ x := by
  by_cases hp : p
  · exact (h.eq hp).le
  · linarith [(h.short hp).1]

/-- What is computed exactly throughout. -/
theorem of_eq {n : ℕ} (h : a = n) : Reads a (n : R) True :=
  ⟨n.cast_nonneg, fun _ => h, fun h => absurd trivial h⟩

theorem add (h : Reads a x p) (h' : Reads b y q) : Reads (a + b) (x + y) (p ∧ q) where
  nonneg := add_nonneg h.nonneg h'.nonneg
  eq hpq := by rw [h.eq hpq.1, h'.eq hpq.2]
  short hpq := by
    have hle := h.le
    have hle' := h'.le
    have hx := h.nonneg
    have hy := h'.nonneg
    by_cases hp : p
    · obtain ⟨hshort, hone⟩ := h'.short fun hq => hpq ⟨hp, hq⟩
      constructor <;> linarith
    · obtain ⟨hshort, hone⟩ := h.short hp
      constructor <;> linarith

/-- A factor that is computed exactly. -/
theorem mul (h : Reads a x p) (hc : 1 ≤ c) : Reads (a * c) (x * c) p where
  nonneg := mul_nonneg h.nonneg (by linarith)
  eq hp := by rw [h.eq hp]
  short hp := by
    obtain ⟨hshort, hone⟩ := h.short hp
    have hle := mul_le_mul_of_nonneg_right hshort (by linarith : 0 ≤ c)
    have hle' := mul_le_mul_of_nonneg_right hone (by linarith : 0 ≤ c)
    rw [add_mul] at hle
    constructor <;> linarith

/-- A factor that may be zero. -/
theorem mul_natCast (h : Reads a x p) (n : ℕ) : Reads (a * n) (x * n) (n = 0 ∨ p) := by
  rcases n.eq_zero_or_pos with rfl | hn
  · simpa using refl (le_refl (0 : R))
  · have hc : (1 : R) ≤ n := by exact_mod_cast hn
    exact (h.mul hc).congr (by simp [hn.ne'])

theorem natCast_mul (h : Reads a x p) (n : ℕ) : Reads (n * a) (n * x) (n = 0 ∨ p) := by
  rw [mul_comm _ a, mul_comm _ x]
  exact h.mul_natCast n

theorem sum_map {A : Type*} {l : List A} {f g : A → R} {P : A → Prop}
    (h : ∀ t ∈ l, Reads (f t) (g t) (P t)) :
    Reads (l.map f).sum (l.map g).sum (∀ t ∈ l, P t) := by
  induction l with
  | nil => exact (refl le_rfl).congr (by simp)
  | cons t l ih =>
    obtain ⟨ht, hl⟩ := List.forall_mem_cons.mp h
    simp only [List.map_cons, List.sum_cons]
    exact (ht.add (ih hl)).congr List.forall_mem_cons.symm

end Reads

end Reads

/-! ### 32 bits -/

/-- A number as `int`. -/
def int (n : ℕ) : Int32 := Int32.ofNat n

/-- An `int` as `double`, which holds all of them. -/
def double (x : Int32) : ℚ := x.toInt

/-- `static_cast<int>` of a whole `double`: what an `int` does not hold becomes the smallest one. -/
def castInt (x : ℤ) : ℤ := if -2 ^ 31 ≤ x ∧ x < 2 ^ 31 then x else -2 ^ 31

theorem castInt_of_lt {x : ℤ} (hx : 0 ≤ x) (hlt : x < 2 ^ 31) : castInt x = x :=
  if_pos ⟨by omega, hlt⟩

theorem castInt_of_le {x : ℤ} (hx : 2 ^ 31 ≤ x) : castInt x = -2 ^ 31 :=
  if_neg fun h => absurd h.2 (not_lt.mpr hx)

theorem int_mul (m n : ℕ) : int m * int n = int (m * n) := (Int32.ofNat_mul m n).symm

theorem int_add (m n : ℕ) : int m + int n = int (m + n) := (Int32.ofNat_add m n).symm

theorem int_div {m n : ℕ} (hm : m < 2 ^ 31) (hn : n < 2 ^ 31) : int m / int n = int (m / n) :=
  (Int32.ofNat_div hm hn).symm

theorem double_int {n : ℕ} (hn : n < 2 ^ 31) : double (int n) = n := by
  unfold double int
  rw [Int32.toInt_ofNat_of_lt hn]
  rfl

theorem toInt_int (n : ℕ) : (int n).toInt = (n : ℤ).bmod (2 ^ 32) := by
  unfold int
  exact Int32.toInt_ofNat'

/-- What does not fit is too small by a multiple of the modulus. -/
theorem toInt_int_short {n : ℕ} (hn : 2 ^ 31 ≤ n) : (int n).toInt + 2 ^ 32 ≤ n := by
  rw [toInt_int, Int.bmod_def]
  split_ifs <;> omega

theorem toInt_int_of_lt {n : ℕ} (hn : n < 2 ^ 32) :
    (int n).toInt = if n < 2 ^ 31 then (n : ℤ) else n - 2 ^ 32 := by
  rw [toInt_int, Int.bmod_def]
  split_ifs <;> omega

/-- The product of two numbers that wrapped is right only where both are the opposite of
themselves. -/
theorem toInt_mul_toInt {m n : ℕ} (hm : m < 2 ^ 32) (hn : n < 2 ^ 32) :
    (int m).toInt * (int n).toInt = m * n ↔
      m = 0 ∨ n = 0 ∨ (m < 2 ^ 31 ∧ n < 2 ^ 31) ∨ (m = 2 ^ 31 ∧ n = 2 ^ 31) := by
  rw [toInt_int_of_lt hm, toInt_int_of_lt hn]
  split_ifs with hm' hn' hn'
  · exact iff_of_true rfl (by tauto)
  · rw [mul_eq_mul_left_iff]
    omega
  · rw [mul_eq_mul_right_iff]
    omega
  · have hsum : ((m : ℤ) - 2 ^ 32) * (n - 2 ^ 32) = m * n ↔ (m : ℤ) + n = 2 ^ 32 := by
      constructor <;> intro h <;> linarith
    rw [hsum]
    omega

/-- An `int` for a number that may not fit: the number itself, or less but no less than its
opposite. -/
structure Holds (x : Int32) (n : ℕ) (fits : Prop) : Prop where
  neg_le : -(n : ℤ) ≤ x.toInt
  eq : fits → x.toInt = n
  short : ¬ fits → x.toInt < n

namespace Holds
variable {x y : Int32} {m n : ℕ} {p q : Prop}

theorem le (h : Holds x n p) : x.toInt ≤ n := by
  by_cases hp : p
  · exact (h.eq hp).le
  · exact (h.short hp).le

theorem eq_iff (h : Holds x n p) : x.toInt = n ↔ p := by
  refine ⟨fun hx => ?_, h.eq⟩
  by_contra hp
  exact (h.short hp).ne hx

theorem congr (h : Holds x n p) (hpq : p ↔ q) : Holds x n q :=
  propext hpq ▸ h

theorem reads (h : Holds x n p) : Reads (double x) n p where
  nonneg := n.cast_nonneg
  eq hp := by
    unfold double
    rw [h.eq hp, Int.cast_natCast]
  short hp := by
    have hneg := h.neg_le
    have hlt := h.short hp
    have hint : x.toInt + 1 ≤ n := by omega
    have hone : 1 ≤ n := by omega
    unfold double
    exact ⟨by exact_mod_cast hint, by exact_mod_cast hone⟩

/-- What is too large for an `int` is missed by every one. -/
theorem of_le (x : Int32) (hn : 2 ^ 31 ≤ n) (hp : ¬ p) : Holds x n p where
  neg_le := by
    have hx := x.le_toInt
    omega
  eq h := absurd h hp
  short _ := by
    have hx := x.toInt_lt
    omega

theorem of_int (n : ℕ) : Holds (int n) n (n < 2 ^ 31) := by
  by_cases hn : n < 2 ^ 31
  · have hto : (int n).toInt = n := Int32.toInt_ofNat_of_lt hn
    exact ⟨by omega, fun _ => hto, fun h => absurd hn h⟩
  · exact of_le _ (Nat.le_of_not_lt hn) hn

theorem add (h : Holds x m p) (h' : Holds y n q) :
    Holds (x + y) (m + n) (p ∧ q ∧ m + n < 2 ^ 31) := by
  by_cases hsum : m + n < 2 ^ 31
  · -- Neither of the two is large, and so their sum does not wrap.
    have hx := h.neg_le
    have hy := h'.neg_le
    have hle := h.le
    have hle' := h'.le
    have hread : (x + y).toInt = x.toInt + y.toInt := by
      rw [Int32.toInt_add, Int.bmod_eq_of_le (by omega) (by omega)]
    refine ⟨by omega, fun hpq => ?_, fun hpq => ?_⟩
    · rw [hread, h.eq hpq.1, h'.eq hpq.2.1, Nat.cast_add]
    · by_cases hp : p
      · have hlt := h'.short fun hq => hpq ⟨hp, hq, hsum⟩
        omega
      · have hlt := h.short hp
        omega
  · exact of_le _ (Nat.le_of_not_lt hsum) fun hpq => hsum hpq.2.2

/-- A factor that is a number of the program. -/
theorem mul_int (h : Holds x m p) (hn : n < 2 ^ 31) :
    Holds (x * int n) (m * n) (n = 0 ∨ p ∧ m * n < 2 ^ 31) := by
  have hto : (int n).toInt = n := Int32.toInt_ofNat_of_lt hn
  by_cases hmul : m * n < 2 ^ 31
  · have hlow := Int.mul_le_mul_of_nonneg_right h.neg_le (Int.natCast_nonneg n)
    have hhigh := Int.mul_le_mul_of_nonneg_right h.le (Int.natCast_nonneg n)
    rw [Int.neg_mul] at hlow
    rw [← Nat.cast_mul] at hlow hhigh
    have hread : (x * int n).toInt = x.toInt * n := by
      rw [Int32.toInt_mul, hto, Int.bmod_eq_of_le (by omega) (by omega)]
    refine ⟨by omega, ?_, fun hp => ?_⟩
    · rintro (rfl | hp)
      · rw [hread, Nat.cast_zero, mul_zero, mul_zero, Nat.cast_zero]
      · rw [hread, h.eq hp.1, Nat.cast_mul]
    · obtain ⟨hzero, hp⟩ := not_or.mp hp
      have hpos : (0 : ℤ) < n := by exact_mod_cast Nat.pos_of_ne_zero hzero
      have hlt := Int.mul_lt_mul_of_pos_right (h.short fun hp' => hp ⟨hp', hmul⟩) hpos
      rw [hread, Nat.cast_mul]
      exact hlt
  · refine of_le _ (Nat.le_of_not_lt hmul) ?_
    rintro (rfl | hp)
    · exact hmul (by simp)
    · exact hmul hp.2

theorem div_int (n : ℕ) {d : ℕ} (hd : 0 < d) (hd' : d < 2 ^ 31) :
    Holds (int n / int d) (n / d) (n < 2 ^ 31) := by
  by_cases hn : n < 2 ^ 31
  · rw [int_div hn hd']
    exact (of_int (n / d)).congr (iff_of_true ((Nat.div_le_self ..).trans_lt hn) hn)
  · have hpos : (0 : ℤ) < d := by exact_mod_cast hd
    have hto : (int d).toInt = d := Int32.toInt_ofNat_of_lt hd'
    have hquot : (int n / int d).toInt = (int n).toInt.tdiv d := by
      rw [Int32.toInt_div_of_ne_right, hto]
      intro h
      rw [h] at hto
      have hneg : (-1 : Int32).toInt = -1 := rfl
      omega
    have hx := (int n).le_toInt
    have hlow := Int.tdiv_le_tdiv hpos (by omega : -(n : ℤ) ≤ (int n).toInt)
    have hsplit : (n : ℤ).tdiv d = (n / d : ℕ) := rfl
    rw [Int.neg_tdiv, hsplit, ← hquot] at hlow
    refine ⟨hlow, fun h => absurd h hn, fun _ => ?_⟩
    -- The modulus is more than any divisor, so that the quotient is too small as well.
    have hshort := toInt_int_short (Nat.le_of_not_lt hn)
    have hone : 1 ≤ n / d := Nat.div_pos (by omega) hd
    rw [hquot]
    rcases le_total 0 (int n).toInt with hnonneg | hneg
    · have hsum : (int n).toInt + d ≤ n := by omega
      have hle := Int.ediv_le_ediv hpos hsum
      rw [Int.add_ediv_of_dvd_right (dvd_refl _), Int.ediv_self hpos.ne'] at hle
      rw [Int.tdiv_eq_ediv_of_nonneg hnonneg, Int.natCast_ediv]
      omega
    · have hle := Int.tdiv_le_tdiv hpos hneg
      rw [Int.zero_tdiv] at hle
      omega

end Holds

theorem reads_int (n : ℕ) : Reads (double (int n)) n (n < 2 ^ 31) := (Holds.of_int n).reads

/-- The factor may also be a fraction. -/
theorem reads_int_mul_div (a n : ℕ) {d : ℕ} (hd : 0 < d) (hd' : d < 2 ^ 31) :
    Reads (double (int a) * (n / d)) (a * ((n : ℚ) / d)) (n = 0 ∨ a < 2 ^ 31) where
  nonneg := by positivity
  eq := by
    rintro (rfl | ha)
    · simp
    · rw [double_int ha]
  short hfits := by
    obtain ⟨hn, ha⟩ := not_or.mp hfits
    have hge : (2 : ℚ) ^ 31 ≤ a := by exact_mod_cast Nat.le_of_not_lt ha
    have hle : double (int a) + 2 ^ 31 ≤ a := by
      have hshort := toInt_int_short (Nat.le_of_not_lt ha)
      have hint : (int a).toInt + 2 ^ 31 ≤ a := by omega
      unfold double
      exact_mod_cast hint
    have hpos : (0 : ℚ) < d := by exact_mod_cast hd
    have hscale : 1 ≤ (2 : ℚ) ^ 31 * (n / d) := by
      have hone : (1 : ℚ) ≤ n := by exact_mod_cast Nat.pos_of_ne_zero hn
      have hlt : (d : ℚ) ≤ 2 ^ 31 := by exact_mod_cast hd'.le
      rw [← mul_div_assoc, le_div_iff₀ hpos]
      nlinarith
    have hfactor : (0 : ℚ) ≤ n / d := by positivity
    have hlarge := mul_le_mul_of_nonneg_right hge hfactor
    have hshort := mul_le_mul_of_nonneg_right hle hfactor
    rw [add_mul] at hshort
    constructor <;> linarith

/-- Products are divided before they are added to another one. -/
theorem reads_add_div {x y z d : ℕ} (hd : 0 < d) (hd' : d < 2 ^ 31) :
    Reads (double (int x / int d + int z + int y / int d)) (x / d + z + y / d : ℕ)
      (x < 2 ^ 31 ∧ y < 2 ^ 31 ∧ x / d + z + y / d < 2 ^ 31) := by
  have hx := (Holds.div_int x hd hd').add (Holds.of_int z)
  refine ((hx.add (Holds.div_int y hd hd')).congr ?_).reads
  constructor
  · tauto
  · rintro ⟨hfit, hfit', hsum⟩
    generalize x / d = u at *
    generalize y / d = v at *
    exact ⟨⟨hfit, by omega, by omega⟩, hfit', hsum⟩

end Overflow
