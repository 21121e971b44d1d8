import LlmSystem.Scheduler.Servable

/-!
The tokens `setMetadata` assigns to one batch, against its two limits. The share of a
prefilling sequence comes from `max_process_token` alone: what the decode tokens leave of
`num_max_batched_token` is computed into `process_token`, which nothing reads.
-/
namespace LlmSystem

open Scheduler

/-- A generating sequence holds at most one token. -/
def SingleToken (t : Sequence) : Prop :=
  ¬t.InSum → t.numProcessToken = 0 ∨ t.numProcessToken = 1

theorem SingleToken.assignTokens {t : Sequence} (h : SingleToken t) (s : Scheduler)
    (b : BatchedSequence) : SingleToken (s.assignTokens b t) := by
  obtain ⟨n, hn⟩ := s.assignTokens_eq b t
  intro hgen
  have hgen : ¬t.InSum := by
    rw [hn] at hgen
    exact hgen
  unfold Scheduler.assignTokens setGenToken
  rw [if_neg hgen]
  split_ifs
  · exact .inr rfl
  · exact .inr rfl
  · exact h hgen
  · exact h hgen

theorem singleToken_of_run {h h' : History} {ops : List Op} (hb : Bookkeeping h)
    (hall : h.scheduler.All SingleToken) (hrun : Runs.Run History.Step h ops h') :
    h'.scheduler.All SingleToken := by
  have hinv := hrun.invariant (I := fun h => Bookkeeping h ∧ h.scheduler.All SingleToken) ?_
    ⟨hb, hall⟩
  · exact hinv.2
  rintro h op h' ⟨hb, hall⟩ hstep
  have heff := hstep.effect hb.distinctIds
  refine ⟨heff.bookkeeping hb, heff.all ?_ ?_ ?_ ?_ ?_ hall⟩
  · exact fun t ht _ _ => .inl ht.tokenless
  · exact fun t _ ht => ht
  · exact fun t _ ht => ht
  · exact fun b t ht => ht.assignTokens h.scheduler b
  · intro t time t' _ hkeep _
    left
    rw [(settle_lengths hkeep).2.2.2, Sequence.update_numProcessToken]

namespace Scheduler

/-- The generating sequences of a batch that `setMetadata` leaves with a token: those that it
serves and those that already have one. -/
def decodeSeqs (s : Scheduler) (b : BatchedSequence) : List Sequence :=
  b.getGen.filter fun t =>
    decide (t.numProcessToken ≠ 0 ∨ (s.processGen = true ∧ s.GateOpen t))

/-- Without prefill, or with room for the whole prefill budget beside the decode tokens. -/
def LimitsFit (s : Scheduler) (b : BatchedSequence) : Prop :=
  b.getSum = [] ∨ s.maxProcessToken + (s.decodeSeqs b).length ≤ s.numMaxBatchedToken

/-- The prefilling sequences of a batch can use up the prefill budget. -/
def Saturated (s : Scheduler) (b : BatchedSequence) : Prop :=
  (b.getSum.length : ℤ) ∣ s.maxProcessToken ∧
    ∀ t ∈ b.getSum, s.maxProcessToken.tdiv b.getSum.length ≤ t.inputLen - t.currentLen

section Batch
variable {s : Scheduler} {b : BatchedSequence}

theorem getSum_setBatchMetadata (s : Scheduler) (b : BatchedSequence) :
    (s.setBatchMetadata b).getSum = b.getSum.map (s.assignTokens b) := by
  simp only [setBatchMetadata, BatchedSequence.getSum, BatchedSequence.modify, List.filter_map]
  congr 1
  apply List.filter_congr
  intro t _
  obtain ⟨n, hn⟩ := s.assignTokens_eq b t
  change decide (s.assignTokens b t).InSum = decide t.InSum
  rw [hn]
  rfl

theorem getGen_setBatchMetadata (s : Scheduler) (b : BatchedSequence) :
    (s.setBatchMetadata b).getGen = b.getGen.map (s.assignTokens b) := by
  simp only [setBatchMetadata, BatchedSequence.getGen, BatchedSequence.modify, List.filter_map]
  congr 1
  apply List.filter_congr
  intro t _
  obtain ⟨n, hn⟩ := s.assignTokens_eq b t
  change (!decide (s.assignTokens b t).InSum) = !decide t.InSum
  rw [hn]
  rfl

theorem getProcessToken_eq (b : BatchedSequence) :
    b.getProcessToken = b.getSumProcessToken + b.getGenProcessToken :=
  (Residues.sum_map_filter_add _ _ b.sequence).symm

theorem sum_token (hb : b ∈ s.runningQueue) {t : Sequence} (ht : t ∈ b.getSum) :
    (s.assignTokens b t).numProcessToken
      = min (s.maxProcessToken.tdiv b.getSum.length) (t.inputLen - t.currentLen) := by
  obtain ⟨ht, hsum⟩ := mem_getSum.mp ht
  have hprocess : s.processSum = true := by simp [processSum, hasSumSeq_of_inSum hb ht hsum]
  unfold assignTokens
  rw [if_pos hsum, if_pos hprocess]
  rfl

/-- The prefill tokens of a batch stay within `max_process_token`. -/
theorem sum_tokens_le (hmax : 0 ≤ s.maxProcessToken) (hb : b ∈ s.runningQueue) :
    (s.setBatchMetadata b).getSumProcessToken ≤ s.maxProcessToken := by
  have hshare : ∀ t ∈ b.getSum,
      (s.assignTokens b t).numProcessToken ≤ s.maxProcessToken.tdiv b.getSum.length := by
    intro t ht
    rw [sum_token hb ht]
    exact min_le_left _ _
  have hle := Residues.sum_le_length_mul hshare
  have hdiv := Int.mul_tdiv_add_tmod s.maxProcessToken b.getSum.length
  have hmod := Int.tmod_nonneg (b.getSum.length : ℤ) hmax
  unfold BatchedSequence.getSumProcessToken
  rw [getSum_setBatchMetadata, List.map_map]
  change (b.getSum.map fun t => (s.assignTokens b t).numProcessToken).sum ≤ _
  omega

/-- They are all of it if the batch saturates the budget. -/
theorem sum_tokens_eq (hb : b ∈ s.runningQueue) (hsat : s.Saturated b) :
    (s.setBatchMetadata b).getSumProcessToken = s.maxProcessToken := by
  have hshare : ∀ t ∈ b.getSum, (s.assignTokens b t).numProcessToken
      = s.maxProcessToken.tdiv b.getSum.length := by
    intro t ht
    rw [sum_token hb ht]
    exact min_eq_left (hsat.2 t ht)
  unfold BatchedSequence.getSumProcessToken
  rw [getSum_setBatchMetadata, List.map_map]
  calc (b.getSum.map fun t => (s.assignTokens b t).numProcessToken).sum
      = (b.getSum.map fun _ => s.maxProcessToken.tdiv b.getSum.length).sum := by
        rw [List.map_congr_left hshare]
    _ = b.getSum.length * s.maxProcessToken.tdiv b.getSum.length := by simp
    _ = s.maxProcessToken := Int.mul_tdiv_cancel' hsat.1

/-- Each decoding sequence has one token. -/
theorem gen_tokens_eq (hone : ∀ t ∈ b.sequence, SingleToken t) :
    (s.setBatchMetadata b).getGenProcessToken = (s.decodeSeqs b).length := by
  unfold BatchedSequence.getGenProcessToken
  rw [getGen_setBatchMetadata, List.map_map]
  apply Residues.sum_map_indicator
  intro t ht
  obtain ⟨ht, hgen⟩ := List.mem_filter.mp ht
  have hgen : ¬t.InSum := by simpa using hgen
  have hzero := hone t ht hgen
  simp only [Function.comp_apply, decide_eq_true_eq]
  unfold assignTokens setGenToken
  rw [if_neg hgen]
  by_cases hprocess : s.processGen = true
  · by_cases hopen : s.GateOpen t
    · rw [if_pos hprocess, if_pos (Or.inr ⟨hprocess, hopen⟩)]
      rcases hopen with hstart | hle
      · rw [if_pos hstart]
      · rw [if_pos hle, ite_self]
    · rw [if_pos hprocess, if_neg fun h => hopen (.inl h), if_neg fun h => hopen (.inr h)]
      rcases hzero with hn | hn <;> simp [hn, hopen]
  · rcases hzero with hn | hn <;> simp [hprocess, hn]

theorem length_decodeSeqs_le (s : Scheduler) (b : BatchedSequence) :
    ((s.decodeSeqs b).length : ℤ) ≤ b.getNumSeq := by
  have hle : (s.decodeSeqs b).length ≤ b.getGen.length := List.length_filter_le _ _
  have hgen : b.getGen.length ≤ b.sequence.length := List.length_filter_le _ _
  unfold BatchedSequence.getNumSeq
  omega

end Batch
end Scheduler

theorem Effect.numMaxBatchedToken {h h' : History} (heff : Effect h h') :
    h'.scheduler.numMaxBatchedToken = h.scheduler.numMaxBatchedToken := by
  cases heff with
  | push hpush => rw [hpush.frame]
  | fill hfill => rw [hfill.frame]
  | clock => rfl
  | assign => rfl
  | stamp => rfl
  | update => rfl

theorem numMaxBatchedToken_of_run {h h' : History} {ops : List Op} (hb : Bookkeeping h)
    (hrun : Runs.Run History.Step h ops h') :
    h'.scheduler.numMaxBatchedToken = h.scheduler.numMaxBatchedToken := by
  induction hrun with
  | nil => rfl
  | cons hstep _ ih =>
    have heff := hstep.effect hb.distinctIds
    exact (ih (heff.bookkeeping hb)).trans heff.numMaxBatchedToken

/-- In every reachable state and for every batch: the prefill tokens stay within
`max_process_token`, and all tokens stay within `num_max_batched_token` if nothing prefills or
there is room for the whole prefill budget beside the decode tokens. For a batch that uses up
the prefill budget this is needed. -/
theorem token_limits (c : SystemConfig) (m : ModelConfig) (trace : ExpertTrace)
    (total maxBatched maxProcess : ℤ) (rotate countId : ℕ) {s₀ : Scheduler}
    (hs₀ : s₀ = Scheduler.create c m trace total maxBatched maxProcess rotate countId)
    (htotal : 0 ≤ total) (hdp : 1 ≤ s₀.dpDegree) (hmax : 0 ≤ maxProcess) {ops : List Op}
    {h : History} (hrun : Runs.Run History.Step (.init s₀) ops h) {b : BatchedSequence}
    (hmem : b ∈ h.scheduler.runningQueue) :
    (h.scheduler.setBatchMetadata b).getSumProcessToken ≤ maxProcess ∧
    (h.scheduler.LimitsFit b → b.getNumSeq ≤ maxBatched →
      (h.scheduler.setBatchMetadata b).getProcessToken ≤ maxBatched) ∧
    (h.scheduler.Saturated b → b.getNumSeq ≤ maxBatched →
      (h.scheduler.setBatchMetadata b).getProcessToken ≤ maxBatched →
      h.scheduler.LimitsFit b) := by
  subst hs₀
  have hcreate := Bookkeeping.create c m trace total maxBatched maxProcess rotate countId htotal hdp
  have hset := SameSetup.of_run hcreate hrun
  have hprocess : h.scheduler.maxProcessToken = maxProcess := hset.maxProcessToken
  have hbatched : h.scheduler.numMaxBatchedToken = maxBatched :=
    numMaxBatchedToken_of_run hcreate hrun
  have hone := (singleToken_of_run hcreate
    (all_create _ c m trace total maxBatched maxProcess rotate countId) hrun).2 b hmem
  have hsum := sum_tokens_le (hprocess ▸ hmax) hmem
  have hgen := gen_tokens_eq (s := h.scheduler) hone
  have hall := getProcessToken_eq (h.scheduler.setBatchMetadata b)
  refine ⟨hprocess ▸ hsum, ?_, ?_⟩
  · rintro (hnone | hfit) hnum
    · have hzero : (h.scheduler.setBatchMetadata b).getSumProcessToken = 0 := by
        simp [BatchedSequence.getSumProcessToken, getSum_setBatchMetadata, hnone]
      have hdecode := length_decodeSeqs_le h.scheduler b
      omega
    · omega
  · intro hsat hnum hle
    right
    have heq := sum_tokens_eq hmem hsat
    omega

/-- One sequence of four tokens, with room for them. -/
theorem token_limits_one_sequence : ∃ h : History, ∃ b ∈ h.scheduler.runningQueue,
    b.sequence.length = 1 ∧ (h.scheduler.setBatchMetadata b).getProcessToken ≤ 8 := by
  have hrun : Runs.Run History.Step
      (.init (Scheduler.create { numNode := 1, numDevice := 1 }
        { maxSeqLen := 16, inputLen := 4, outputLen := 2 } {} 1 8 8 0 0))
      [.pushSeq 1 [], .fillRunningQueue] _ := .of_foldlM rfl
  have hlimits := fun b => token_limits _ _ _ 1 8 8 0 0 rfl (by decide) (by decide) (by decide)
    hrun (b := b)
  exact ⟨_, _, List.mem_cons_self .., rfl,
    (hlimits _ (List.mem_cons_self ..)).2.1 (.inr (by decide)) (by decide)⟩

/-- The prefill budget exceeds the total limit, and so does the assignment. -/
theorem token_limits_exceeded : ∃ h : History,
    Runs.Run History.Step
      (.init (Scheduler.create { numNode := 1, numDevice := 1 }
        { maxSeqLen := 16, inputLen := 8, outputLen := 2 } {} 1 4 8 0 0))
      [.pushSeq 1 [], .fillRunningQueue] h ∧
    ∃ b ∈ h.scheduler.runningQueue, b.getNumSeq ≤ 4 ∧
      4 < (h.scheduler.setBatchMetadata b).getProcessToken :=
  ⟨_, .of_foldlM rfl, _, List.mem_cons_self .., by decide, by decide⟩

end LlmSystem
