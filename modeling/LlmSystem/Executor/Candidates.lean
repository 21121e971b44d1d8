import LlmSystem.Module.LlmForward

/-!
The choice that `Executor::execution` makes among the processors of a layer. Its running minimum
starts from a duration of zero and takes every status while the duration is zero, also when the
zero is the time of a candidate.
-/
namespace LlmSystem

namespace Executor

/-- A processor of the list and what `executePType` returns in its turn. -/
abbrev Candidate := ProcessorType × ExecStatus

namespace Candidate

def duration (c : Candidate) : ℚ := c.2.totalDuration

/-- The status that is stored for it. -/
def status (c : Candidate) : ExecStatus := { c.2 with processorType := c.1 }

@[simp] theorem status_totalDuration (c : Candidate) : c.status.totalDuration = c.duration := rfl

/-- One round of the loop of `execution`. -/
def round (best : ExecStatus × ℚ) (c : Candidate) : ExecStatus × ℚ :=
  consider (fun _ => c.2) best c.1

theorem round_taken {best : ExecStatus × ℚ} {c : Candidate}
    (h : best.2 = 0 ∨ c.duration < best.2) : c.round best = (c.status, c.duration) :=
  if_pos h

theorem round_kept {best : ExecStatus × ℚ} {c : Candidate}
    (h : ¬(best.2 = 0 ∨ c.duration < best.2)) : c.round best = best :=
  if_neg h

theorem round_of_zero {best : ExecStatus × ℚ} {c : Candidate} (hbest : 0 ≤ best.2)
    (hc : c.duration = 0) : c.round best = (c.status, 0) := by
  rw [← hc]
  apply round_taken
  rw [hc]
  exact hbest.eq_or_lt.imp Eq.symm id

end Candidate

/-- The loop of `execution` over what `executePType` returns in each round. -/
def chosen (candidates : List Candidate) : ExecStatus :=
  (candidates.foldl (fun best c => c.round best) ({}, 0)).1

theorem execution_eq_chosen (executePType : ProcessorType → ExecStatus)
    (types : List ProcessorType) :
    execution executePType types = chosen (types.map fun type => (type, executePType type)) := by
  unfold execution chosen
  rw [List.foldl_map]
  rfl

/-- What the loop holds: a status and its duration. -/
structure Holds (candidates : List Candidate) (best : ExecStatus × ℚ) : Prop where
  duration_eq : best.2 = best.1.totalDuration
  nonneg : 0 ≤ best.2
  mem : candidates ≠ [] → ∃ c ∈ candidates, best.1 = c.status

theorem Holds.round {candidates : List Candidate} {best : ExecStatus × ℚ}
    (h : Holds candidates best) {c : Candidate} (hc : 0 ≤ c.duration)
    (hstart : candidates = [] → best.2 = 0) : Holds (candidates ++ [c]) (c.round best) := by
  by_cases htaken : best.2 = 0 ∨ c.duration < best.2
  · rw [Candidate.round_taken htaken]
    exact ⟨rfl, hc, fun _ => ⟨c, by simp, rfl⟩⟩
  · rw [Candidate.round_kept htaken]
    refine ⟨h.duration_eq, h.nonneg, fun _ => ?_⟩
    have hne : candidates ≠ [] := fun hnil => htaken (.inl (hstart hnil))
    obtain ⟨d, hd, heq⟩ := h.mem hne
    exact ⟨d, by simp [hd], heq⟩

theorem holds_chosen {candidates : List Candidate} (h : ∀ c ∈ candidates, 0 ≤ c.duration) :
    Holds candidates (candidates.foldl (fun best c => c.round best) ({}, 0)) := by
  induction candidates using List.reverseRecOn with
  | nil => exact ⟨rfl, le_refl 0, fun hne => absurd rfl hne⟩
  | append_singleton candidates c ih =>
    rw [List.foldl_append, List.foldl_cons, List.foldl_nil]
    apply (ih fun d hd => h d (by simp [hd])).round (h c (by simp))
    intro hnil
    rw [hnil]
    rfl

/-- The stored status is one of the candidates. -/
theorem chosen_mem {candidates : List Candidate} (hne : candidates ≠ [])
    (h : ∀ c ∈ candidates, 0 ≤ c.duration) :
    ∃ c ∈ candidates, chosen candidates = c.status :=
  (holds_chosen h).mem hne

theorem foldl_le_start {candidates : List Candidate} (h : ∀ c ∈ candidates, 0 < c.duration)
    {best : ExecStatus × ℚ} (hbest : 0 < best.2) :
    (candidates.foldl (fun best c => c.round best) best).2 ≤ best.2 := by
  induction candidates generalizing best with
  | nil => exact le_refl _
  | cons c candidates ih =>
    rw [List.foldl_cons]
    have hrest : ∀ d ∈ candidates, 0 < d.duration := fun d hd => h d (by simp [hd])
    by_cases htaken : best.2 = 0 ∨ c.duration < best.2
    · rw [Candidate.round_taken htaken]
      have hlt : c.duration < best.2 := htaken.resolve_left hbest.ne'
      exact (ih hrest (h c (by simp))).trans hlt.le
    · rw [Candidate.round_kept htaken]
      exact ih hrest hbest

/-- Once the duration is positive, positive candidates are compared as they should be. -/
theorem foldl_le_mem {candidates : List Candidate} (h : ∀ c ∈ candidates, 0 < c.duration)
    {best : ExecStatus × ℚ} (hbest : 0 ≤ best.2) {c : Candidate} (hc : c ∈ candidates) :
    (candidates.foldl (fun best c => c.round best) best).2 ≤ c.duration := by
  induction candidates generalizing best with
  | nil => simp at hc
  | cons d candidates ih =>
    rw [List.foldl_cons]
    have hrest : ∀ d ∈ candidates, 0 < d.duration := fun d hd => h d (by simp [hd])
    have hd : 0 < d.duration := h d (by simp)
    by_cases htaken : best.2 = 0 ∨ d.duration < best.2
    · rw [Candidate.round_taken htaken]
      cases hc with
      | head => exact foldl_le_start hrest hd
      | tail _ hc => exact ih hrest hd.le hc
    · rw [Candidate.round_kept htaken]
      have hpos : 0 < best.2 := lt_of_le_of_ne hbest fun h0 => htaken (.inl h0.symm)
      cases hc with
      | head =>
        have hle : best.2 ≤ c.duration := not_lt.mp fun hlt => htaken (.inr hlt)
        exact (foldl_le_start hrest hpos).trans hle
      | tail _ hc => exact ih hrest hbest hc

/-- A last candidate that takes no time is stored. -/
theorem chosen_last_zero {candidates : List Candidate} (h : ∀ c ∈ candidates, 0 ≤ c.duration)
    {c : Candidate} (hc : c.duration = 0) : chosen (candidates ++ [c]) = c.status := by
  unfold chosen
  rw [List.foldl_append, List.foldl_cons, List.foldl_nil,
    Candidate.round_of_zero (holds_chosen h).nonneg hc]

/-- A candidate that follows one without time is stored, whatever its time is. -/
theorem chosen_after_zero {candidates : List Candidate} (h : ∀ c ∈ candidates, 0 ≤ c.duration)
    {c : Candidate} (hc : c.duration = 0) (d : Candidate) :
    chosen (candidates ++ [c, d]) = d.status := by
  unfold chosen
  rw [List.foldl_append, List.foldl_cons, List.foldl_cons, List.foldl_nil,
    Candidate.round_of_zero (holds_chosen h).nonneg hc, Candidate.round_taken (.inl rfl)]

theorem chosen_minimal {candidates : List Candidate} (h : ∀ c ∈ candidates, 0 < c.duration)
    {c : Candidate} (hc : c ∈ candidates) : (chosen candidates).totalDuration ≤ c.duration := by
  have hhold := holds_chosen fun d hd => (h d hd).le
  unfold chosen
  rw [← hhold.duration_eq]
  exact foldl_le_mem h (le_refl 0) hc

/-- The stored status is a fastest candidate, in whatever order they are considered. -/
def PicksFastest (candidates : List Candidate) : Prop :=
  (∃ c ∈ candidates, chosen candidates = c.status) ∧
    (∀ c ∈ candidates, (chosen candidates).totalDuration ≤ c.duration) ∧
    ∀ reordered : List Candidate, reordered.Perm candidates →
      (chosen reordered).totalDuration = (chosen candidates).totalDuration

theorem picksFastest_of_positive {candidates : List Candidate} (hne : candidates ≠ [])
    (h : ∀ c ∈ candidates, 0 < c.duration) : PicksFastest candidates := by
  have hmem := chosen_mem hne fun d hd => (h d hd).le
  refine ⟨hmem, fun c hc => chosen_minimal h hc, fun reordered hperm => ?_⟩
  have h' : ∀ c ∈ reordered, 0 < c.duration := fun c hc => h c (hperm.subset hc)
  have hne' : reordered ≠ [] := fun hnil => hne (by simpa [hnil] using hperm.symm)
  obtain ⟨c, hc, heq⟩ := hmem
  obtain ⟨d, hd, heq'⟩ := chosen_mem hne' fun d hd => (h' d hd).le
  apply le_antisymm
  · rw [heq]
    exact chosen_minimal h' (hperm.symm.subset hc)
  · rw [heq']
    exact chosen_minimal h (hperm.subset hd)

theorem picksFastest_of_zero {candidates : List Candidate} (hne : candidates ≠ [])
    (h : ∀ c ∈ candidates, c.duration = 0) : PicksFastest candidates := by
  have hzero : ∀ reordered : List Candidate, reordered.Perm candidates →
      (chosen reordered).totalDuration = 0 := by
    intro reordered hperm
    have hne' : reordered ≠ [] := fun hnil => hne (by simpa [hnil] using hperm.symm)
    obtain ⟨c, hc, heq⟩ := chosen_mem hne' fun d hd => (h d (hperm.subset hd)).ge
    rw [heq]
    exact h c (hperm.subset hc)
  have hself := hzero candidates (.refl _)
  refine ⟨chosen_mem hne fun d hd => (h d hd).ge, fun c hc => ?_, fun reordered hperm => ?_⟩
  · rw [hself, h c hc]
  · rw [hself, hzero reordered hperm]

/-- The executor picks the fastest processor in any order exactly when no candidate takes zero
time or all do. -/
theorem picksFastest_iff {candidates : List Candidate} (hne : candidates ≠ [])
    (hnonneg : ∀ c ∈ candidates, 0 ≤ c.duration) :
    PicksFastest candidates ↔
      (∀ c ∈ candidates, c.duration ≠ 0) ∨ ∀ c ∈ candidates, c.duration = 0 := by
  constructor
  · rintro ⟨-, -, hreorder⟩
    by_contra hmixed
    push Not at hmixed
    obtain ⟨⟨zero, hz, hzero⟩, slow, hs, hslow⟩ := hmixed
    -- The two are moved to the end, once in each order.
    have hdiff : slow ≠ zero := fun heq => hslow (heq ▸ hzero)
    have hrest : (zero :: slow :: (candidates.erase zero).erase slow).Perm candidates :=
      ((List.perm_cons_erase ((List.mem_erase_of_ne hdiff).mpr hs)).symm.cons zero).trans
        (List.perm_cons_erase hz).symm
    set rest := (candidates.erase zero).erase slow
    have hrest_nonneg : ∀ c ∈ rest, 0 ≤ c.duration := fun c hc =>
      hnonneg c (hrest.subset (by simp [hc]))
    have hfirst : (rest ++ [zero, slow]).Perm candidates :=
      List.perm_append_comm.trans hrest
    have hsecond : (rest ++ [slow] ++ [zero]).Perm candidates := by
      rw [List.append_assoc]
      exact (List.perm_append_comm.trans (.swap zero slow rest)).trans hrest
    have h1 := hreorder _ hfirst
    have h2 := hreorder _ hsecond
    rw [chosen_after_zero hrest_nonneg hzero, Candidate.status_totalDuration] at h1
    have hslow_nonneg : ∀ c ∈ rest ++ [slow], 0 ≤ c.duration := fun c hc =>
      hnonneg c (hsecond.subset (List.mem_append_left _ hc))
    rw [chosen_last_zero hslow_nonneg hzero, Candidate.status_totalDuration, hzero] at h2
    exact hslow (h1.trans h2.symm)
  · rintro (h | h)
    · exact picksFastest_of_positive hne fun c hc => lt_of_le_of_ne (hnonneg c hc) (h c hc).symm
    · exact picksFastest_of_zero hne h

/-- An executor without body before one that takes time, and two that take time. -/
theorem picksFastest_of_times :
    PicksFastest [(.gpu, { totalDuration := 5 }), (.pim, { totalDuration := 3 })] := by
  refine (picksFastest_iff (by simp) ?_).mpr (.inl ?_)
  · simp [Candidate.duration]
  · simp [Candidate.duration]

/-- The body of `AttentionMixedExecutionLogic` is empty: considered first, it is thrown away for
a slower status. -/
theorem chosen_slower :
    ¬PicksFastest [(.logic, {}), (.gpu, { totalDuration := 5 })] := by
  intro h
  have hle := h.2.1 (.logic, {}) (by simp)
  exact absurd hle (by decide)

end Executor

end LlmSystem
