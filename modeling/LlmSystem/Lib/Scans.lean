import Mathlib.Algebra.Order.Ring.Int
import Mathlib.Data.List.Basic
import Mathlib.Data.List.Pairwise

/-! A scan over a list that moves from its candidate to the next entry unless a comparison keeps
the candidate. Entries are scanned with their positions. -/
namespace Scans

variable {α : Type*} (keep : α → α → Bool)

def round (cand next : α × ℕ) : α × ℕ := if keep cand.1 next.1 then cand else next

/-- The entry the scan ends at, and its position. -/
def best (l : List α) : Option (α × ℕ) :=
  match l.zipIdx with
  | [] => none
  | p :: ps => some (ps.foldl (round keep) p)

variable {keep}

theorem foldl_round_mem (p : α × ℕ) (ps : List (α × ℕ)) :
    ps.foldl (round keep) p ∈ p :: ps := by
  induction ps generalizing p with
  | nil => simp
  | cons q ps ih =>
    rw [List.foldl_cons]
    have hmem := ih (round keep p q)
    rcases List.mem_cons.mp hmem with h | h
    · rw [h]
      unfold round
      split_ifs <;> simp
    · simp [h]

theorem best_eq_none {l : List α} : best keep l = none ↔ l = [] := by
  cases l <;> simp [best]

theorem best_getElem {l : List α} {a : α} {i : ℕ} (h : best keep l = some (a, i)) :
    l[i]? = some a := by
  unfold best at h
  cases hl : l.zipIdx with
  | nil => simp [hl] at h
  | cons p ps =>
    simp only [hl, Option.some.injEq] at h
    have hmem : ps.foldl (round keep) p ∈ p :: ps := foldl_round_mem p ps
    rw [h, ← hl] at hmem
    simpa using List.mem_zipIdx_iff_getElem?.mp hmem

theorem best_mem {l : List α} {a : α} {i : ℕ} (h : best keep l = some (a, i)) : a ∈ l :=
  List.mem_of_getElem? (best_getElem h)

/-! ### Scans that prefer -/

/-- The first of the entries that are preferred to all others. -/
structure First (keep : α → α → Bool) (seen : List (α × ℕ)) (cand : α × ℕ) : Prop where
  mem : cand ∈ seen
  keeps : ∀ q ∈ seen, keep cand.1 q.1 = true
  before : ∀ q ∈ seen, q.2 < cand.2 → keep q.1 cand.1 = false

section Prefers
variable (htrans : ∀ a b c, keep a b = true → keep b c = true → keep a c = true)
  (htotal : ∀ a b, keep a b = true ∨ keep b a = true)
include htrans htotal

theorem First.round {seen : List (α × ℕ)} {cand next : α × ℕ} (h : First keep seen cand)
    (hnext : ∀ q ∈ seen, q.2 < next.2) :
    First keep (seen ++ [next]) (round keep cand next) := by
  obtain ⟨hmem, hkeeps, hbefore⟩ := h
  unfold Scans.round
  cases hkeep : keep cand.1 next.1 with
  | true =>
    rw [if_pos rfl]
    refine ⟨List.mem_append_left _ hmem, fun q hq => ?_, fun q hq hlt => ?_⟩
    · rcases List.mem_append.mp hq with hq | hq
      · exact hkeeps q hq
      · rw [List.mem_singleton.mp hq, hkeep]
    · rcases List.mem_append.mp hq with hq | hq
      · exact hbefore q hq hlt
      · rw [List.mem_singleton.mp hq] at hlt
        exact absurd hlt (hnext cand hmem).not_gt
  | false =>
    rw [if_neg (by simp)]
    have hback : keep next.1 cand.1 = true := (htotal cand.1 next.1).resolve_left (by simp [hkeep])
    refine ⟨by simp, fun q hq => ?_, fun q hq hlt => ?_⟩
    · rcases List.mem_append.mp hq with hq | hq
      · exact htrans _ _ _ hback (hkeeps q hq)
      · rw [List.mem_singleton.mp hq]
        exact (htotal next.1 next.1).elim id id
    · rcases List.mem_append.mp hq with hq | hq
      · by_contra hne
        rw [Bool.not_eq_false] at hne
        rw [htrans _ _ _ (hkeeps q hq) hne] at hkeep
        cases hkeep
      · rw [List.mem_singleton.mp hq] at hlt
        exact absurd hlt (lt_irrefl _)

theorem First.foldl {seen ps : List (α × ℕ)} {cand : α × ℕ} (h : First keep seen cand)
    (hseen : ∀ q ∈ seen, ∀ q' ∈ ps, q.2 < q'.2) (hps : ps.Pairwise fun q q' => q.2 < q'.2) :
    First keep (seen ++ ps) (ps.foldl (Scans.round keep) cand) := by
  induction ps generalizing seen cand with
  | nil => simpa using h
  | cons q ps ih =>
    obtain ⟨hq, hps⟩ := List.pairwise_cons.mp hps
    have hnext := h.round htrans htotal fun q' hq' => hseen q' hq' q (List.mem_cons_self ..)
    have hrest := ih hnext (fun q' hq' p hp => ?_) hps
    · rwa [List.append_assoc] at hrest
    · rcases List.mem_append.mp hq' with hmem | hmem
      · exact hseen q' hmem p (List.mem_cons_of_mem _ hp)
      · rw [List.mem_singleton.mp hmem]
        exact hq p hp

/-- A scan under a total preference ends at the first of the preferred entries. -/
theorem best_first {l : List α} {a : α} {i : ℕ} (h : best keep l = some (a, i)) :
    (∀ b ∈ l, keep a b = true) ∧ ∀ j < i, ∀ b, l[j]? = some b → keep b a = false := by
  have hsorted : l.zipIdx.Pairwise fun q q' => q.2 < q'.2 := by
    have hrange := List.zipIdx_map_snd 0 l
    rw [← List.pairwise_map (f := Prod.snd) (R := (· < ·)), hrange]
    exact List.pairwise_lt_range'
  unfold best at h
  cases hl : l.zipIdx with
  | nil => simp [hl] at h
  | cons p ps =>
    rw [hl] at hsorted
    obtain ⟨hp, hps⟩ := List.pairwise_cons.mp hsorted
    have hstart : First keep [p] p :=
      ⟨by simp, by simpa using (htotal p.1 p.1).elim id id, by simp⟩
    have hend := hstart.foldl htrans htotal (by simpa using hp) hps
    simp only [hl, Option.some.injEq] at h
    rw [h, List.singleton_append, ← hl] at hend
    refine ⟨fun b hb => ?_, fun j hj b hb => ?_⟩
    · obtain ⟨k, hk⟩ := List.getElem?_of_mem hb
      exact hend.keeps (b, k) (List.mem_zipIdx_iff_getElem?.mpr hk)
    · exact hend.before (b, j) (List.mem_zipIdx_iff_getElem?.mpr hb) hj

end Prefers

/-! ### First ready, first come -/

section FirstReady
variable (ready : α → Bool) (arrive : α → ℤ)

/-- The comparison that prefers a ready entry, then an earlier one. -/
def firstReady (a b : α) : Bool :=
  if ready a ^^ ready b then ready a else decide (arrive a ≤ arrive b)

variable {ready} {arrive}

theorem firstReady_total (a b : α) :
    firstReady ready arrive a b = true ∨ firstReady ready arrive b a = true := by
  unfold firstReady
  cases ready a <;> cases ready b <;> simp [le_total]

theorem firstReady_trans (a b c : α) (hab : firstReady ready arrive a b = true)
    (hbc : firstReady ready arrive b c = true) : firstReady ready arrive a c = true := by
  unfold firstReady at *
  revert hab hbc
  cases ready a <;> cases ready b <;> cases ready c <;> simp <;> omega

variable {l : List α} {a : α} {i : ℕ}

theorem ready_of_best (h : best (firstReady ready arrive) l = some (a, i)) {b : α} (hb : b ∈ l)
    (hready : ready b = true) : ready a = true := by
  have hkeep := (best_first firstReady_trans firstReady_total h).1 b hb
  unfold firstReady at hkeep
  revert hkeep
  cases ready a <;> simp [hready]

/-- In a list in the order of arrival no entry before a ready one that is chosen is ready. -/
theorem not_ready_before (h : best (firstReady ready arrive) l = some (a, i))
    (hsorted : l.Pairwise fun a b => arrive a ≤ arrive b) (hready : ready a = true) {j : ℕ}
    (hj : j < i) {b : α} (hb : l[j]? = some b) : ready b = false := by
  have hkeep := (best_first firstReady_trans firstReady_total h).2 j hj b hb
  obtain ⟨hjl, rfl⟩ := List.getElem?_eq_some_iff.mp hb
  obtain ⟨hil, rfl⟩ := List.getElem?_eq_some_iff.mp (best_getElem h)
  have hle := List.pairwise_iff_getElem.mp hsorted j i hjl hil hj
  unfold firstReady at hkeep
  revert hkeep
  cases ready l[j] <;> simp [hready, hle]

end FirstReady
end Scans
