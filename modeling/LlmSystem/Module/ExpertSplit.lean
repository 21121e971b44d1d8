import LlmSystem.Lib.Descent
import Mathlib.Algebra.Order.BigOperators.Group.List
import Mathlib.Algebra.Order.Ring.Rat
import Mathlib.Data.List.Dedup
import Mathlib.Tactic.NormNum
import Mathlib.Tactic.Positivity

/-!
`getIdxHigh`: which experts of a device the GPU computes while the logic die computes the others.
From all experts on the logic die they move to the GPU, those with the most tokens first, as long
as the longer of the two times falls. More than four experts move in four groups.
-/
namespace LlmSystem

/-- `std::sort` by a key, in descending order. Where keys are equal the order is open. -/
structure StdSort where
  sort {β : Type} (key : β → ℕ) : List β → List β
  perm {β : Type} (key : β → ℕ) (l : List β) : (sort key l).Perm l
  descending {β : Type} (key : β → ℕ) (l : List β) :
    (sort key l).Pairwise fun a b => key b ≤ key a

/-- A stable sort is one. -/
def StdSort.stable : StdSort where
  sort key l := l.mergeSort fun a b => decide (key b ≤ key a)
  perm _ l := List.mergeSort_perm l _
  descending key l := by
    have htrans : ∀ a b c, decide (key b ≤ key a) = true → decide (key c ≤ key b) = true →
        decide (key c ≤ key a) = true := by
      intro a b c hab hbc
      rw [decide_eq_true_eq] at hab hbc ⊢
      exact hbc.trans hab
    have htotal : ∀ a b, (decide (key b ≤ key a) || decide (key a ≤ key b)) = true := by
      intro a b
      rw [Bool.or_eq_true, decide_eq_true_eq, decide_eq_true_eq]
      exact Nat.le_total _ _
    exact (List.pairwise_mergeSort htrans htotal l).imp of_decide_eq_true

/-- The fields of `SystemConfig` that the split reads. -/
structure SplitConfig where
  computePeakFlops : ℚ
  memoryBandwidth : ℚ
  logicX : ℕ := 4
  logicOpB : ℚ := 8
  computePeakFlops_pos : 0 < computePeakFlops
  memoryBandwidth_pos : 0 < memoryBandwidth
  logicX_pos : 0 < logicX
  logicOpB_pos : 0 < logicOpB

namespace SplitConfig
variable (c : SplitConfig)

def highOpb : ℚ := c.computePeakFlops / (c.memoryBandwidth * (3 / 4))

/-- What an expert adds to `high_time`. -/
def highCost (numToken : ℕ) : ℚ := max 1 (1 * numToken / c.highOpb)

/-- What it takes from `low_time`. -/
def lowCost (numToken : ℕ) : ℚ := max 1 (1 * numToken / c.logicOpB * (3 / 4)) / c.logicX

/-- The loop over the sorted experts, or over their groups. -/
def highList : ℚ → ℚ → ℚ → List (List ℕ × List ℕ) → List ℕ
  | _, _, _, [] => []
  | best, highTime, lowTime, (ids, tokens) :: rest =>
    let highTime := tokens.foldl (fun t n => t + c.highCost n) highTime
    let lowTime := tokens.foldl (fun t n => t - c.lowCost n) lowTime
    let temp := max highTime lowTime
    if temp < best then ids ++ highList temp highTime lowTime rest else []

variable (std : StdSort)

def getIdxHighOptimal (list : List ℕ) : List ℕ :=
  let lowTime := list.foldl (fun t n => t + c.lowCost n) 0
  let expertList := std.sort (·.2) (list.zipIdx.map fun e => (e.2, e.1))
  c.highList (max 0 lowTime) 0 lowTime (expertList.map fun e => ([e.1], [e.2]))

/-- The indices of the groups: four stretches of equal length. -/
def groupIds (size : ℕ) : List (List ℕ) :=
  (List.range 4).map fun g => (List.range (size / 4)).map (g * (size / 4) + ·)

def getIdxHigh (list : List ℕ) : Except String (List ℕ) :=
  if list.length ≤ 4 then .ok (c.getIdxHighOptimal std list)
  else if list.length % 4 = 0 then
    let groups := (groupIds list.length).map fun ids => (ids, ids.map fun i => list.getD i 0)
    let lowTime := groups.foldl (fun t g => g.2.foldl (fun t n => t + c.lowCost n) t) 0
    let expertList := std.sort (·.2.sum) groups
    .ok (c.highList (max 0 lowTime) 0 lowTime expertList)
  else .error "Expert group size is not mached"

/-! ### What the split is for -/

/-- The longer of the two times when the GPU computes the experts `high` and the logic die the
others. -/
def makespan (list high : List ℕ) : ℚ :=
  max (high.map fun i => c.highCost (list.getD i 0)).sum
    (((List.range list.length).filter (· ∉ high)).map fun i => c.lowCost (list.getD i 0)).sum

/-- What moves at once: an expert, or a group of them. -/
def units (size : ℕ) : List (List ℕ) :=
  if size ≤ 4 then (List.range size).map fun i => [i] else groupIds size

/-- In some descending order of the units, the chosen experts are those of a prefix, and no other
prefix has a shorter makespan. -/
def PrefixOptimal (list high : List ℕ) : Prop :=
  ∃ order : List (List ℕ), order.Perm (units list.length) ∧
    order.Pairwise (fun a b => (b.map (list.getD · 0)).sum ≤ (a.map (list.getD · 0)).sum) ∧
    ∃ k ≤ order.length, high = (order.take k).flatten ∧
      ∀ j ≤ order.length, c.makespan list high ≤ c.makespan list (order.take j).flatten

/-! ### The loop -/

theorem highCost_pos (n : ℕ) : 0 < c.highCost n := lt_max_of_lt_left one_pos

theorem lowCost_pos (n : ℕ) : 0 < c.lowCost n :=
  div_pos (lt_max_of_lt_left one_pos) (Nat.cast_pos.mpr c.logicX_pos)

def gain (u : List ℕ × List ℕ) : ℚ := (u.2.map c.highCost).sum

def loss (u : List ℕ × List ℕ) : ℚ := (u.2.map c.lowCost).sum

theorem foldl_add_map {β : Type*} (f : β → ℚ) (l : List β) (t : ℚ) :
    l.foldl (fun t n => t + f n) t = t + (l.map f).sum := by
  induction l generalizing t with
  | nil => simp
  | cons n l ih => rw [List.foldl_cons, ih, List.map_cons, List.sum_cons, add_assoc]

theorem foldl_sub_map {β : Type*} (f : β → ℚ) (l : List β) (t : ℚ) :
    l.foldl (fun t n => t - f n) t = t - (l.map f).sum := by
  induction l generalizing t with
  | nil => simp
  | cons n l ih => rw [List.foldl_cons, ih, List.map_cons, List.sum_cons, sub_sub]

theorem highList_eq (highTime lowTime : ℚ) (us : List (List ℕ × List ℕ)) :
    c.highList (max highTime lowTime) highTime lowTime us
      = ((us.take (Descent.moves c.gain c.loss highTime lowTime us)).map (·.1)).flatten := by
  induction us generalizing highTime lowTime with
  | nil => rfl
  | cons u us ih =>
    obtain ⟨ids, tokens⟩ := u
    unfold highList Descent.moves
    dsimp only
    rw [foldl_add_map, foldl_sub_map]
    change (if max (highTime + c.gain (ids, tokens)) (lowTime - c.loss (ids, tokens))
      < max highTime lowTime then _ else _) = _
    split_ifs
    · rw [List.take_succ_cons, List.map_cons, List.flatten_cons, ← ih]
      rfl
    · simp

/-- Units as the loop sees them: together they are all experts, each with its tokens. -/
structure Arranged (list : List ℕ) (us : List (List ℕ × List ℕ)) : Prop where
  ids : (us.map (·.1)).flatten.Perm (List.range list.length)
  tokens : ∀ u ∈ us, u.2 = u.1.map (list.getD · 0)
  nonempty : ∀ u ∈ us, u.1 ≠ []

theorem gain_eq {list : List ℕ} {us : List (List ℕ × List ℕ)}
    (h : ∀ u ∈ us, u.2 = u.1.map (list.getD · 0)) (cost : ℕ → ℚ) :
    (us.map fun u => (u.2.map cost).sum).sum
      = ((us.map (·.1)).flatten.map fun i => cost (list.getD i 0)).sum := by
  induction us with
  | nil => rfl
  | cons u us ih =>
    obtain ⟨hu, hus⟩ := List.forall_mem_cons.mp h
    rw [List.map_cons, List.sum_cons, List.map_cons, List.flatten_cons, List.map_append,
      List.sum_append, ih hus, hu, List.map_map]
    rfl

/-- The times of the experts that stay and of those that move are those of all. -/
theorem sum_range_split {n : ℕ} {high : List ℕ} (hnodup : high.Nodup)
    (hlt : ∀ i ∈ high, i < n) (f : ℕ → ℚ) :
    ((List.range n).map f).sum
      = (high.map f).sum + (((List.range n).filter (· ∉ high)).map f).sum := by
  have hperm : (high ++ (List.range n).filter (· ∉ high)).Perm (List.range n) := by
    apply (List.perm_ext_iff_of_nodup ?_ List.nodup_range).mpr
    · intro i
      rw [List.mem_append, List.mem_filter, List.mem_range, decide_eq_true_eq]
      constructor
      · rintro (h | ⟨h, -⟩)
        · exact hlt i h
        · exact h
      · intro h
        by_cases hi : i ∈ high
        · exact .inl hi
        · exact .inr ⟨h, hi⟩
    · apply List.Nodup.append hnodup (List.nodup_range.filter _)
      intro i hi hrest
      exact absurd hi (by simpa using (List.mem_filter.mp hrest).2)
  rw [← (hperm.map f).sum_eq, List.map_append, List.sum_append]

variable {c}

theorem Arranged.take {list : List ℕ} {us : List (List ℕ × List ℕ)} (h : Arranged list us)
    (j : ℕ) : ((us.take j).map (·.1)).flatten.Nodup ∧
      ∀ i ∈ ((us.take j).map (·.1)).flatten, i < list.length := by
  have hsub : ((us.take j).map (·.1)).flatten.Sublist (us.map (·.1)).flatten :=
    ((List.take_sublist j us).map _).flatten
  constructor
  · exact (h.ids.nodup_iff.mpr List.nodup_range).sublist hsub
  · intro i hi
    exact List.mem_range.mp (h.ids.subset (hsub.subset hi))

/-- The larger of the totals in the loop is the makespan of the prefix. -/
theorem Arranged.larger_eq {list : List ℕ} {us : List (List ℕ × List ℕ)} (h : Arranged list us)
    (j : ℕ) :
    Descent.larger c.gain c.loss 0 ((List.range list.length).map fun i =>
        c.lowCost (list.getD i 0)).sum (us.take j)
      = c.makespan list ((us.take j).map (·.1)).flatten := by
  obtain ⟨hnodup, hlt⟩ := h.take j
  have htokens : ∀ u ∈ us.take j, u.2 = u.1.map (list.getD · 0) :=
    fun u hu => h.tokens u (List.mem_of_mem_take hu)
  have hgain := gain_eq htokens c.highCost
  have hloss := gain_eq htokens c.lowCost
  unfold Descent.larger makespan
  rw [sum_range_split hnodup hlt]
  unfold gain loss
  rw [hgain, hloss, zero_add, add_sub_cancel_left]

/-- The loop over units in descending order chooses an optimal prefix of them. -/
theorem Arranged.highList_optimal {list : List ℕ} {us : List (List ℕ × List ℕ)}
    (h : Arranged list us) (hunits : (us.map (·.1)).Perm (units list.length))
    (hsorted : us.Pairwise fun a b => b.2.sum ≤ a.2.sum) {lowTime : ℚ}
    (hlow : lowTime = ((List.range list.length).map fun i => c.lowCost (list.getD i 0)).sum) :
    (c.highList (max 0 lowTime) 0 lowTime us).Nodup ∧
      (∀ i ∈ c.highList (max 0 lowTime) 0 lowTime us, i < list.length) ∧
      c.PrefixOptimal list (c.highList (max 0 lowTime) 0 lowTime us) := by
  rw [highList_eq]
  obtain ⟨hnodup, hlt⟩ := h.take (Descent.moves c.gain c.loss 0 lowTime us)
  refine ⟨hnodup, hlt, us.map (·.1), hunits, ?_, Descent.moves c.gain c.loss 0 lowTime us, ?_, ?_,
    ?_⟩
  · apply List.pairwise_map.mpr
    apply hsorted.imp_of_mem
    intro a b ha hb hle
    rwa [h.tokens a ha, h.tokens b hb] at hle
  · rw [List.length_map]
    exact Descent.moves_le_length us
  · rw [List.map_take]
  · intro j _
    have hgain : ∀ u ∈ us, 0 ≤ c.gain u := fun u _ => List.sum_nonneg (by
      simp only [List.mem_map, forall_exists_index, and_imp, forall_apply_eq_imp_iff₂]
      exact fun n _ => (c.highCost_pos n).le)
    have hloss : ∀ u ∈ us, 0 < c.loss u := by
      intro u hu
      unfold loss
      apply List.sum_pos
      · simp only [List.mem_map, forall_exists_index, and_imp, forall_apply_eq_imp_iff₂]
        exact fun n _ => c.lowCost_pos n
      · rw [h.tokens u hu]
        simpa using h.nonempty u hu
    have hmin : Descent.larger c.gain c.loss 0 lowTime
          (us.take (Descent.moves c.gain c.loss 0 lowTime us))
        ≤ Descent.larger c.gain c.loss 0 lowTime (us.take j) :=
      Descent.larger_moves_le hgain hloss j
    rw [← List.map_take, ← h.larger_eq, ← h.larger_eq, ← hlow]
    exact hmin

/-! ### The units in the source -/

theorem map_getD_range (list : List ℕ) :
    (List.range list.length).map (list.getD · 0) = list := by
  apply List.ext_getElem (by simp)
  intro i _ hi
  simp [hi]

theorem sum_lowCost (list : List ℕ) : (list.map c.lowCost).sum
    = ((List.range list.length).map fun i => c.lowCost (list.getD i 0)).sum := by
  have hlist := congrArg (List.map c.lowCost) (map_getD_range list)
  rw [← hlist, List.map_map]
  rfl

theorem zipIdx_ids (list : List ℕ) :
    (list.zipIdx.map fun e => (e.2, e.1)).map (·.1) = List.range list.length := by
  rw [List.map_map, List.range_eq_range', ← List.zipIdx_map_snd 0 list]
  rfl

theorem getIdxHighOptimal_spec (std : StdSort) {list : List ℕ} (hsize : list.length ≤ 4) :
    (c.getIdxHighOptimal std list).Nodup ∧
      (∀ i ∈ c.getIdxHighOptimal std list, i < list.length) ∧
      c.PrefixOptimal list (c.getIdxHighOptimal std list) := by
  unfold getIdxHighOptimal
  dsimp only
  set sorted := std.sort (·.2) (list.zipIdx.map fun e => (e.2, e.1)) with hsorted
  have hperm : sorted.Perm (list.zipIdx.map fun e => (e.2, e.1)) := std.perm _ _
  have hids : (sorted.map fun e => ([e.1], [e.2])).map (·.1)
      = (sorted.map (·.1)).map fun i => [i] := by
    rw [List.map_map, List.map_map]
    rfl
  have hids_perm : (sorted.map (·.1)).Perm (List.range list.length) := by
    have h := hperm.map (·.1)
    rwa [zipIdx_ids] at h
  apply Arranged.highList_optimal
  · constructor
    · rw [hids, List.flatten_eq_flatMap, List.flatMap_map]
      simpa using hids_perm
    · intro u hu
      obtain ⟨e, he, rfl⟩ := List.mem_map.mp hu
      obtain ⟨⟨n, i⟩, hmem, rfl⟩ := List.mem_map.mp (hperm.subset he)
      have hget := List.mk_mem_zipIdx_iff_getElem?.mp hmem
      simp [hget]
    · intro u hu
      obtain ⟨e, -, rfl⟩ := List.mem_map.mp hu
      exact List.cons_ne_nil _ _
  · rw [hids]
    unfold units
    rw [if_pos hsize]
    exact hids_perm.map _
  · apply List.pairwise_map.mpr
    have hdesc : sorted.Pairwise fun a b => b.2 ≤ a.2 := std.descending _ _
    exact hdesc.imp fun hle => by simpa using hle
  · rw [foldl_add_map, zero_add, sum_lowCost]

/-- Four stretches after one another. -/
theorem groupIds_flatten {size : ℕ} (hsize : size % 4 = 0) :
    (groupIds size).flatten = List.range size := by
  have hquarter : size = size / 4 + size / 4 + size / 4 + size / 4 := by omega
  have hall : List.range size = List.range (size / 4)
      ++ (List.range (size / 4)).map (size / 4 + ·)
      ++ (List.range (size / 4)).map (size / 4 + size / 4 + ·)
      ++ (List.range (size / 4)).map (size / 4 + size / 4 + size / 4 + ·) := by
    rw [← List.range_add, ← List.range_add, ← List.range_add, ← hquarter]
  have h1 : 1 * (size / 4) = size / 4 := Nat.one_mul _
  have h2 : 2 * (size / 4) = size / 4 + size / 4 := Nat.two_mul _
  have h3 : 3 * (size / 4) = size / 4 + size / 4 + size / 4 := by omega
  rw [hall]
  unfold groupIds
  simp [List.range_succ, h2, h3]

theorem getIdxHigh_groups (std : StdSort) {list : List ℕ} (hsize : 4 < list.length)
    (hmod : list.length % 4 = 0) :
    ∃ high, c.getIdxHigh std list = .ok high ∧ high.Nodup ∧ (∀ i ∈ high, i < list.length) ∧
      c.PrefixOptimal list high := by
  unfold getIdxHigh
  rw [if_neg (by omega), if_pos hmod]
  refine ⟨_, rfl, ?_⟩
  set groups := (groupIds list.length).map fun ids => (ids, ids.map fun i => list.getD i 0)
    with hgroups
  have hperm : (std.sort (·.2.sum) groups).Perm groups := std.perm _ _
  have hids : groups.map (·.1) = groupIds list.length := by
    rw [hgroups, List.map_map]
    exact List.map_id _
  have htokens : ∀ g ∈ groups, g.2 = g.1.map (list.getD · 0) := by
    intro g hg
    obtain ⟨ids, -, rfl⟩ := List.mem_map.mp hg
    rfl
  apply Arranged.highList_optimal
  · constructor
    · have h := (hperm.map (·.1)).flatten
      rwa [hids, groupIds_flatten hmod] at h
    · exact fun u hu => htokens u (hperm.subset hu)
    · intro u hu
      obtain ⟨ids, hmem, rfl⟩ := List.mem_map.mp (hperm.subset hu)
      obtain ⟨g, -, rfl⟩ := List.mem_map.mp hmem
      have hquarter : list.length / 4 ≠ 0 := by omega
      simpa using hquarter
  · have h := hperm.map (·.1)
    rw [hids] at h
    unfold units
    rwa [if_neg (by omega)]
  · exact std.descending _ _
  · have hsum : groups.foldl (fun t g => g.2.foldl (fun t n => t + c.lowCost n) t) (0 : ℚ)
        = (groups.map fun g => (g.2.map c.lowCost).sum).sum := by
      simp only [foldl_add_map, zero_add]
    rw [hsum, gain_eq htokens, hids, groupIds_flatten hmod]

/-- The compute units and the memory of an H100. -/
def h100 : SplitConfig where
  computePeakFlops := 989400000000000
  memoryBandwidth := 3350000000000
  computePeakFlops_pos := by norm_num
  memoryBandwidth_pos := by norm_num
  logicX_pos := by norm_num
  logicOpB_pos := by norm_num

end SplitConfig
end LlmSystem
