import Mathlib.Data.List.Basic
import Mathlib.Order.Lattice

/-! Half-open windows over a linear order, and how many entries of a list lie in them. -/
namespace Windows

variable {α : Type*} [LinearOrder α]

/-- Consecutive windows from `a` to `b`. -/
inductive Tiles (a : α) : List (α × α) → α → Prop
  | nil : Tiles a [] a
  | snoc {l : List (α × α)} {b c : α} : Tiles a l b → b ≤ c → Tiles a (l ++ [(b, c)]) c

theorem Tiles.le {a b : α} {l : List (α × α)} (h : Tiles a l b) : a ≤ b := by
  induction h with
  | nil => exact le_refl a
  | snoc _ hle ih => exact ih.trans hle

/-- They partition what lies between. -/
theorem Tiles.countP {a b : α} {l : List (α × α)} (h : Tiles a l b) (x : α) :
    (l.countP fun w => decide (w.1 ≤ x ∧ x < w.2)) = if a ≤ x ∧ x < b then 1 else 0 := by
  induction h with
  | nil =>
    have hnot : ¬(a ≤ x ∧ x < a) := fun h => absurd h.1 (not_le.mpr h.2)
    simp [hnot]
  | @snoc l b c htiles hle ih =>
    have hab := htiles.le
    rw [List.countP_append, ih, List.countP_singleton]
    by_cases hb : x < b
    · have hnot : ¬b ≤ x := not_le.mpr hb
      simp [hb, hnot, hb.trans_le hle]
    · have hge : b ≤ x := not_lt.mp hb
      simp [hb, hge, hab.trans hge]

/-- The entries below a later bound are those below the earlier one and those of the window. -/
theorem countP_lt_add {b c : α} (hle : b ≤ c) (l : List α) :
    (l.countP fun t => decide (t < c))
      = (l.countP fun t => decide (t < b)) + l.countP fun t => decide (b ≤ t ∧ t < c) := by
  induction l with
  | nil => simp
  | cons t l ih =>
    simp only [List.countP_cons, ih, decide_eq_true_eq]
    by_cases hb : t < b
    · have hnot : ¬b ≤ t := not_le.mpr hb
      simp only [hb, hnot, hb.trans_le hle, ↓reduceIte, false_and]
      omega
    · have hge : b ≤ t := not_lt.mp hb
      simp only [hb, hge, true_and, ↓reduceIte]
      omega

/-- In a sorted list the entries below a bound come first. -/
theorem lt_of_lt_countP {l : List α} (hl : l.Pairwise (· ≤ ·)) {b : α} {k : ℕ}
    (hk : k < l.countP fun t => decide (t < b)) {a : α} (ha : l[k]? = some a) : a < b := by
  induction l generalizing k with
  | nil => simp at ha
  | cons t l ih =>
    obtain ⟨hfirst, hl⟩ := List.pairwise_cons.mp hl
    by_cases ht : t < b
    · cases k with
      | zero =>
        obtain rfl : t = a := by simpa using ha
        exact ht
      | succ k =>
        rw [List.countP_cons_of_pos (by simpa using ht)] at hk
        have ha : l[k]? = some a := by simpa using ha
        exact ih hl (Nat.lt_of_succ_lt_succ hk) ha
    · -- nothing after `t` is below the bound either
      have hnone : (l.countP fun t => decide (t < b)) = 0 := by
        apply List.countP_eq_zero.mpr
        intro u hu
        simp only [decide_eq_true_eq, not_lt]
        exact (not_lt.mp ht).trans (hfirst u hu)
      rw [List.countP_cons_of_neg (by simpa using ht), hnone] at hk
      omega

/-- Consecutive entries read by index, after a prefix. -/
theorem take_append_range' {β : Type*} (l : List β) (d : β) (k n : ℕ) (hn : k + n ≤ l.length) :
    l.take k ++ (List.range' k n).map (fun j => (l[j]?).getD d) = l.take (k + n) := by
  induction n with
  | zero => simp
  | succ n ih =>
    have hlt : k + n < l.length := by omega
    rw [List.range'_concat, List.map_append, ← List.append_assoc, ih (by omega), ← Nat.add_assoc,
      List.take_add_one]
    simp [List.getElem?_eq_getElem hlt]

end Windows
