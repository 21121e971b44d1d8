import Mathlib.Data.Nat.ModEq
import Mathlib.Algebra.BigOperators.Group.List.Basic
import Mathlib.Algebra.Order.BigOperators.Group.List
import Mathlib.Tactic.Linarith

/-! Rotating cursors and bounded sums over lists. -/
namespace Residues

/-- A cursor that rotates over `n` places visits each of them within `n` steps. -/
theorem exists_rotate (r : ℕ) {j n : ℕ} (hj : j < n) : ∃ k < n, (r + k) % n = j := by
  have hn : 0 < n := by omega
  have hr := Nat.mod_lt r hn
  refine ⟨(j + (n - r % n)) % n, Nat.mod_lt _ hn, ?_⟩
  rw [Nat.add_mod, Nat.mod_mod, ← Nat.add_mod]
  have hdiv := Nat.div_add_mod r n
  have hsum : r + (j + (n - r % n)) = j + n * (r / n + 1) := by
    rw [Nat.mul_add, Nat.mul_one]
    omega
  rw [hsum, Nat.add_mul_mod_self_left, Nat.mod_eq_of_lt hj]

/-- The multiples of `f` below `n`. -/
theorem countP_dvd_range (f n : ℕ) :
    ((List.range n).countP fun i => decide (f ∣ i)) = n / f + if f ∣ n then 0 else 1 := by
  induction n with
  | zero => simp
  | succ n ih =>
    rw [List.range_succ, List.countP_append, ih, List.countP_singleton, Nat.succ_div]
    by_cases hdvd : f ∣ n <;> by_cases hnext : f ∣ n + 1 <;> simp [hdvd, hnext]

section Sums
variable {α M : Type*}

/-- Replacing one entry changes a sum by the difference of the two entries. -/
theorem sum_map_set [AddCommMonoid M] (f : α → M) {l : List α} {i : ℕ} {a a' : α} {x : M}
    (ha : l[i]? = some a) (hx : f a' = f a + x) :
    ((l.set i a').map f).sum = (l.map f).sum + x := by
  induction l generalizing i with
  | nil => simp at ha
  | cons b l ih =>
    cases i with
    | zero =>
      obtain rfl : b = a := by simpa using ha
      rw [List.set_cons_zero, List.map_cons, List.sum_cons, hx, List.map_cons, List.sum_cons,
        add_right_comm]
    | succ i =>
      rw [List.set_cons_succ, List.map_cons, List.sum_cons, ih (by simpa using ha), List.map_cons,
        List.sum_cons, add_assoc]

theorem sum_le_length_mul {f : α → ℤ} {c : ℤ} {l : List α} (h : ∀ a ∈ l, f a ≤ c) :
    (l.map f).sum ≤ l.length * c := by
  induction l with
  | nil => simp
  | cons a l ih =>
    have ha := h a (List.mem_cons_self ..)
    have hl := ih fun b hb => h b (List.mem_cons_of_mem a hb)
    rw [List.map_cons, List.sum_cons, List.length_cons]
    push_cast
    linarith

/-- Entries bounded by `c` whose sum reaches the bound are all equal to it. -/
theorem forall_le_of_length_mul_le {f : α → ℤ} {c : ℤ} {l : List α} (h : ∀ a ∈ l, f a ≤ c)
    (hsum : l.length * c ≤ (l.map f).sum) : ∀ a ∈ l, c ≤ f a := by
  induction l with
  | nil => simp
  | cons a l ih =>
    have ha := h a (List.mem_cons_self ..)
    have hl : ∀ b ∈ l, f b ≤ c := fun b hb => h b (List.mem_cons_of_mem a hb)
    have hle := sum_le_length_mul hl
    rw [List.map_cons, List.sum_cons, List.length_cons] at hsum
    push_cast at hsum
    intro b hb
    rcases List.mem_cons.mp hb with rfl | hb
    · linarith
    · exact ih hl (by linarith) b hb

theorem sum_map_eq_zero_iff {f : α → ℤ} {l : List α} (h : ∀ a ∈ l, 0 ≤ f a) :
    (l.map f).sum = 0 ↔ ∀ a ∈ l, f a = 0 := by
  induction l with
  | nil => simp
  | cons a l ih =>
    have ha := h a (List.mem_cons_self ..)
    have hl : ∀ b ∈ l, 0 ≤ f b := fun b hb => h b (List.mem_cons_of_mem a hb)
    have hnonneg : 0 ≤ (l.map f).sum := List.sum_nonneg fun n hn => by
      obtain ⟨b, hb, rfl⟩ := List.mem_map.mp hn
      exact hl b hb
    rw [List.map_cons, List.sum_cons, List.forall_mem_cons, ← ih hl]
    omega

/-- A list without some of its entries, where a removed entry counts for nothing. -/
theorem sum_map_filterMap {β : Type*} {g : α → Option β} {w : β → ℤ} {v : α → ℤ} {l : List α}
    (h : ∀ a ∈ l, (g a).elim 0 w = v a) : ((l.filterMap g).map w).sum = (l.map v).sum := by
  induction l with
  | nil => simp
  | cons a l ih =>
    have ha := h a (List.mem_cons_self ..)
    have hl := ih fun b hb => h b (List.mem_cons_of_mem a hb)
    cases hg : g a with
    | none =>
      have hzero : v a = 0 := by simpa [hg] using ha.symm
      simp [hg, hl, hzero]
    | some b =>
      have hb : w b = v a := by simpa [hg] using ha
      simp [hg, hl, hb]

/-- A filter and its complement split a sum. -/
theorem sum_map_filter_add (f : α → ℤ) (p : α → Bool) (l : List α) :
    ((l.filter p).map f).sum + ((l.filter fun a => !p a).map f).sum = (l.map f).sum := by
  induction l with
  | nil => simp
  | cons a l ih =>
    cases hp : p a <;> simp [hp, ← ih, add_left_comm, add_assoc]

theorem sum_map_indicator {f : α → ℤ} {p : α → Bool} {l : List α}
    (h : ∀ a ∈ l, f a = if p a then 1 else 0) : (l.map f).sum = (l.filter p).length := by
  induction l with
  | nil => simp
  | cons a l ih =>
    have ha := h a (List.mem_cons_self ..)
    have hl := ih fun b hb => h b (List.mem_cons_of_mem a hb)
    cases hp : p a with
    | true => simp [ha, hp, hl, add_comm]
    | false => simp [ha, hp, hl]

theorem sum_map_sub (f g : α → ℤ) (l : List α) :
    (l.map fun a => f a - g a).sum = (l.map f).sum - (l.map g).sum := by
  induction l with
  | nil => simp
  | cons a l ih =>
    simp only [List.map_cons, List.sum_cons, ih]
    omega

end Sums
end Residues
