import Mathlib.Algebra.BigOperators.Group.List.Basic
import Mathlib.Algebra.Order.BigOperators.GroupWithZero.List
import Mathlib.Data.Nat.Count
import Mathlib.Data.Int.CardIntervalMod

/-! Mixed-radix decomposition, least significant digit first. -/
namespace Radix

/-- The digits of a number for the given radices, and what is left above them. -/
def split : List ℕ → ℕ → List ℕ × ℕ
  | [], n => ([], n)
  | m :: ms, n => (n % m :: (split ms (n / m)).1, (split ms (n / m)).2)

@[simp] theorem split_nil (n : ℕ) : split [] n = ([], n) := rfl

@[simp] theorem split_cons (m : ℕ) (ms : List ℕ) (n : ℕ) :
    split (m :: ms) n = (n % m :: (split ms (n / m)).1, (split ms (n / m)).2) := rfl

theorem split_snd (ms : List ℕ) (n : ℕ) : (split ms n).2 = n / ms.prod := by
  induction ms generalizing n with
  | nil => simp
  | cons m ms ih => rw [split_cons, ih, List.prod_cons, Nat.div_div_eq_div_mul]

/-- A multiple of the product of all radices is above all digits. -/
theorem split_add_mul_prod {ms : List ℕ} (hpos : ∀ m ∈ ms, 0 < m) (n k : ℕ) :
    split ms (n + k * ms.prod) = ((split ms n).1, (split ms n).2 + k) := by
  induction ms generalizing n with
  | nil => simp
  | cons m ms ih =>
    obtain ⟨hm, hms⟩ := List.forall_mem_cons.mp hpos
    have hdiv : (n + k * (m * ms.prod)) / m = n / m + k * ms.prod := by
      rw [show k * (m * ms.prod) = m * (k * ms.prod) by rw [Nat.mul_left_comm],
        Nat.add_mul_div_left _ _ hm]
    have hmod : (n + k * (m * ms.prod)) % m = n % m := by
      rw [show k * (m * ms.prod) = m * (k * ms.prod) by rw [Nat.mul_left_comm],
        Nat.add_mul_mod_self_left]
    rw [List.prod_cons, split_cons, split_cons, hdiv, hmod, ih hms]

/-- The number with the given digits and the given rest above them. -/
def join : List ℕ → List ℕ → ℕ → ℕ
  | m :: ms, d :: ds, q => d + m * join ms ds q
  | _, _, q => q

@[simp] theorem join_nil (ds : List ℕ) (q : ℕ) : join [] ds q = q := by
  unfold join
  rfl

@[simp] theorem join_cons (m : ℕ) (ms : List ℕ) (d : ℕ) (ds : List ℕ) (q : ℕ) :
    join (m :: ms) (d :: ds) q = d + m * join ms ds q := rfl

theorem split_join {ms ds : List ℕ} (h : List.Forall₂ (· < ·) ds ms) (q : ℕ) :
    split ms (join ms ds q) = (ds, q) := by
  induction h with
  | nil => rfl
  | @cons d m ds ms hd _ ih =>
    have hm : 0 < m := by omega
    have hmod : (d + m * join ms ds q) % m = d := by
      rw [Nat.add_mul_mod_self_left, Nat.mod_eq_of_lt hd]
    have hdiv : (d + m * join ms ds q) / m = join ms ds q := by
      rw [Nat.add_mul_div_left _ _ hm, Nat.div_eq_of_lt hd, Nat.zero_add]
    rw [join_cons, split_cons, hmod, hdiv, ih]

theorem join_split (ms : List ℕ) (n : ℕ) : join ms (split ms n).1 (split ms n).2 = n := by
  induction ms generalizing n with
  | nil => simp
  | cons m ms ih => simp [ih, Nat.mod_add_div]

theorem split_digits_lt {ms : List ℕ} (hpos : ∀ m ∈ ms, 0 < m) (n : ℕ) :
    List.Forall₂ (· < ·) (split ms n).1 ms := by
  induction ms generalizing n with
  | nil => exact .nil
  | cons m ms ih =>
    obtain ⟨hm, hms⟩ := List.forall_mem_cons.mp hpos
    exact .cons (Nat.mod_lt n hm) (ih hms _)

/-- A number is its digits and the rest above them. -/
theorem split_injective (ms : List ℕ) : Function.Injective (split ms) := by
  intro a b h
  rw [← join_split ms a, ← join_split ms b, h]

/-- The digits alone tell numbers apart as far as the product of the radices goes. -/
theorem split_fst_eq_iff {ms : List ℕ} (hpos : ∀ m ∈ ms, 0 < m) (a b : ℕ) :
    (split ms a).1 = (split ms b).1 ↔ a % ms.prod = b % ms.prod := by
  have hdigits : ∀ n, (split ms n).1 = (split ms (n % ms.prod)).1 := by
    intro n
    have hsplit := split_add_mul_prod hpos (n % ms.prod) (n / ms.prod)
    rw [Nat.mul_comm, Nat.mod_add_div] at hsplit
    rw [hsplit]
  have hrest : ∀ n, (split ms (n % ms.prod)).2 = 0 := by
    intro n
    rw [split_snd]
    exact Nat.div_eq_of_lt (Nat.mod_lt n (List.prod_pos hpos))
  constructor
  · intro h
    apply split_injective ms
    apply Prod.ext
    · rw [← hdigits, ← hdigits, h]
    · rw [hrest, hrest]
  · intro h
    rw [hdigits a, hdigits b, h]

/-- The numbers below `n` with the last digit `v`. -/
theorem count_mod {m v : ℕ} (hv : v < m) (n : ℕ) :
    n.count (fun b => b % m = v) = n / m + if v < n % m then 1 else 0 := by
  have hcount := Nat.count_modEq_card n (Nat.zero_lt_of_lt hv) v
  simpa only [Nat.ModEq, Nat.mod_eq_of_lt hv] using hcount

/-- As many numbers in `m * k` consecutive ones are divisible by `m`, wherever these start. -/
theorem count_window {m : ℕ} (hm : 0 < m) (start k : ℕ) :
    (m * k).count (fun b => (start + b) % m = 0) = k := by
  have hsplit := Nat.count_add (fun b => b % m = 0) start (m * k)
  rw [count_mod hm, count_mod hm, Nat.add_mul_div_left _ _ hm, Nat.add_mul_mod_self_left] at hsplit
  omega

theorem mod_mul_eq_zero_iff (a b n : ℕ) : n % (a * b) = 0 ↔ n % a = 0 ∧ n / a % b = 0 := by
  rw [Nat.mod_mul]
  constructor
  · intro h
    obtain ⟨hlow, hhigh⟩ := Nat.add_eq_zero_iff.mp h
    obtain rfl | hb := Nat.mul_eq_zero.mp hhigh
    · simp_all
    · exact ⟨hlow, hb⟩
  · rintro ⟨hlow, hhigh⟩
    rw [hlow, hhigh, Nat.mul_zero]

/-- Division that rounds up. -/
theorem add_pred_div {m : ℕ} (hm : 0 < m) (n : ℕ) :
    (n + m - 1) / m = if n % m = 0 then n / m else n / m + 1 := by
  have hdiv := Nat.div_add_mod n m
  have hmod := Nat.mod_lt n hm
  rw [Nat.div_eq_iff hm]
  split_ifs with hn
  · rw [Nat.mul_comm m] at hdiv
    constructor
    · omega
    · omega
  · rw [Nat.mul_comm m] at hdiv
    rw [Nat.succ_mul]
    constructor
    · omega
    · omega

/-- The multiples of `m` below `n`, counted by what they are multiplied with. -/
theorem count_multiples {m : ℕ} (hm : 0 < m) (p : ℕ → Prop) [DecidablePred p] (n : ℕ) :
    n.count (fun b => b % m = 0 ∧ p (b / m)) = ((n + m - 1) / m).count p := by
  induction n with
  | zero => simp [Nat.div_eq_of_lt (Nat.sub_lt hm Nat.one_pos)]
  | succ n ih =>
    rw [Nat.count_succ, ih, show n + 1 + m - 1 = n + m by omega, Nat.add_div_right _ hm,
      add_pred_div hm]
    by_cases hn : n % m = 0
    · rw [if_pos hn, Nat.count_succ]
      simp only [hn, true_and]
    · rw [if_neg hn]
      simp only [hn, false_and, if_false, Nat.add_zero]

end Radix
