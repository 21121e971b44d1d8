import LlmSystem.Scheduler.Drain
import LlmSystem.Scheduler.Lengths
import Mathlib.Data.Prod.Lex

/-!
Every sequence is popped in the end. Once no more requests arrive, each iteration admits a waiting
sequence or finds the batches full and gives a running one a token.
-/
namespace LlmSystem

open Scheduler

/-- The configurations under which no sequence overshoots and each is popped: `LeavesRoom`, a place
in every batch, and a share of the prefill budget for each sequence of a full one. -/
structure Pops (s : Scheduler) : Prop where
  incomplete : s.trace.realData = false →
    ¬StartsComplete s.systemConfig (clampOutputLen s.modelConfig)
  place : 1 ≤ s.batchSizePerDp
  share : s.batchSizePerDp ≤ s.maxProcessToken ∨
    (s.trace.realData = false ∧ StartsAtInput s.systemConfig (clampOutputLen s.modelConfig))

theorem Pops.leavesRoom {s : Scheduler} (h : Pops s) : LeavesRoom s where
  incomplete := h.incomplete
  stage := h.share.imp_left fun hshare => by
    have hplace := h.place
    omega

/-! ### Sequences that can be given tokens -/

/-- A sequence whose stage has tokens and whose start time has come. -/
structure Ready (s : Scheduler) (t : Sequence) : Prop where
  gate : s.GateOpen t
  stage : s.batchSizePerDp ≤ s.maxProcessToken ∨ t.inputLen ≤ t.currentLen
  tokens : 0 ≤ t.numProcessToken

namespace Ready
variable {s : Scheduler} {t : Sequence}

theorem stampDelay (h : Ready s t) : Ready s (s.stampDelay t) := by
  unfold Scheduler.stampDelay
  split_ifs
  · exact ⟨h.gate, h.stage, h.tokens⟩
  · exact h

theorem assignTokens (h : Ready s t) (hplace : 1 ≤ s.batchSizePerDp) (b : BatchedSequence) :
    Ready s (s.assignTokens b t) := by
  have hone : Ready s { t with numProcessToken := 1 } := ⟨h.gate, h.stage, Int.one_nonneg⟩
  unfold Scheduler.assignTokens
  split_ifs with hsum hprocess hgen
  · have hsum : t.currentLen < t.inputLen := hsum
    have hshare := h.stage.resolve_right (not_le.mpr hsum)
    refine ⟨h.gate, h.stage, le_min ?_ (by omega)⟩
    exact Int.tdiv_nonneg (by omega) (Int.natCast_nonneg _)
  · exact h
  · unfold setGenToken
    split_ifs
    · exact hone
    · exact hone
    · exact h
  · exact h

theorem settle (h : Ready s t) {time : ℚ} {t' : Sequence}
    (hkeep : settle (t.update time) = some t') : Ready s t' := by
  obtain ⟨hcur, -, hin, htok⟩ := settle_lengths hkeep
  have hgen := settle_genStartTime hkeep
  have htokens := h.tokens
  simp only [Sequence.update_currentLen, Sequence.update_inputLen, Sequence.update_numProcessToken,
    Sequence.update_genStartTime] at hcur hin htok hgen
  refine ⟨?_, ?_, htok.ge⟩
  · unfold GateOpen
    rw [hgen]
    exact h.gate
  · exact h.stage.imp_right fun hle => by omega

/-- Only the clock and the two limits matter. -/
theorem all_congr {s' : Scheduler} (hsize : s'.batchSizePerDp = s.batchSizePerDp)
    (hmax : s'.maxProcessToken = s.maxProcessToken) (htime : s'.totalTime = s.totalTime)
    (h : s'.All (Ready s)) : s'.All (Ready s') := by
  have hone : ∀ t, Ready s t → Ready s' t := by
    intro t ht
    refine ⟨?_, ?_, ht.tokens⟩
    · unfold GateOpen
      rw [htime]
      exact ht.gate
    · rw [hsize, hmax]
      exact ht.stage
  exact ⟨fun t ht => hone t (h.1 t ht), fun b hb t ht => hone t (h.2 b hb t ht)⟩

end Ready

/-- A full share of the budget is a token for each prefilling sequence. -/
theorem exists_served {s : Scheduler} (hplace : 1 ≤ s.batchSizePerDp) (hroom : s.Roomy)
    (hready : s.All (Ready s)) (hne : s.running ≠ []) :
    ∃ b ∈ s.runningQueue, ∃ t ∈ b.sequence, 1 ≤ (s.assignTokens b t).numProcessToken := by
  by_cases hsum : s.hasSumSeq = true
  · obtain ⟨b, hb, hlen⟩ := List.any_eq_true.mp hsum
    obtain ⟨t, ht⟩ := List.exists_mem_of_length_pos (Nat.pos_of_ne_zero (by simpa using hlen))
    obtain ⟨hmem, hin⟩ := mem_getSum.mp ht
    have hin' : t.currentLen < t.inputLen := hin
    have hbudget := (hready.2 b hb t hmem).stage.resolve_right (not_le.mpr hin')
    have hcap : (b.sequence.length : ℤ) ≤ s.batchSizePerDp := hroom b hb
    have hle : b.getSum.length ≤ b.sequence.length := List.length_filter_le _ _
    have hshare := (one_le_share_iff (by omega) (getSum_pos hmem hin)).mpr
      (show (b.getSum.length : ℤ) ≤ s.maxProcessToken by omega)
    refine ⟨b, hb, t, hmem, ?_⟩
    unfold assignTokens
    rw [if_pos hin, if_pos (by simp [processSum, hsum])]
    exact le_min hshare (by omega)
  · obtain ⟨t, ht⟩ := List.exists_mem_of_ne_nil _ hne
    obtain ⟨b, hb, hmem⟩ := mem_running.mp ht
    have hgen : ¬ t.InSum := fun hin => hsum (hasSumSeq_of_inSum hb hmem hin)
    refine ⟨b, hb, t, hmem, ?_⟩
    unfold assignTokens setGenToken
    rw [if_neg hgen, if_pos (by simp [processGen, hsum])]
    rcases (hready.2 b hb t hmem).gate with hzero | hle
    · rw [if_pos hzero]
    · rw [if_pos hle, ite_self]

theorem tokens_pos_of_ready {s : Scheduler} (hplace : 1 ≤ s.batchSizePerDp) (hroom : s.Roomy)
    (hready : s.All (Ready s)) (hne : s.running ≠ []) : 1 ≤ s.setMetadata.getNumProcessToken := by
  obtain ⟨b, hb, t, ht, hone⟩ := exists_served hplace hroom hready hne
  rw [getNumProcessToken_eq]
  refine hone.trans (List.single_le_sum ?_ _ ?_)
  · intro n hn
    obtain ⟨u, hu, rfl⟩ := List.mem_map.mp hn
    obtain ⟨b', hb', t', ht', rfl⟩ := mem_running_setMetadata.mp hu
    exact ((hready.2 b' hb' t' ht').assignTokens hplace b').tokens
  · exact List.mem_map_of_mem (mem_running_setMetadata.mpr ⟨b, hb, t, ht, rfl⟩)

/-! ### One iteration -/

/-- The calls of one iteration after the last arrival. -/
def iteration (time : ℚ) : List Op := [.fillRunningQueue, .setMetadata, .updateScheduler time]

namespace History

/-- What the admission, the assignment and the update leave. -/
def fill (h : History) : History := { h with scheduler := h.scheduler.fillRunningQueue }

def assign (h : History) : History := { h with scheduler := h.scheduler.setMetadata }

def cycle (h : History) (time : ℚ) : History :=
  h.fill.assign.update (fun _ => true) (h.fill.assign.scheduler.updateScheduler time)

theorem run_iteration (h : History) (time : ℚ) :
    Runs.Run History.Step h (iteration time) (h.cycle time) :=
  .cons rfl (.cons rfl (.single rfl))

/-- Before the iteration `n`. -/
def cycles (h : History) (times : ℕ → ℚ) : ℕ → History
  | 0 => h
  | n + 1 => (h.cycles times n).cycle (times n)

theorem run_cycles (h : History) (times : ℕ → ℚ) (n : ℕ) :
    Runs.Run History.Step h ((List.range n).flatMap fun i => iteration (times i))
      (h.cycles times n) := by
  induction n with
  | zero => exact .nil h
  | succ n ih =>
    rw [List.range_succ, List.flatMap_append, List.flatMap_singleton]
    exact ih.append (run_iteration _ _)

end History

/-- A state from which the iterations pop every sequence. -/
structure Flowing (h : History) : Prop where
  bookkeeping : Bookkeeping h
  lengths : Lengths h
  inRange : InRange h.scheduler
  leavesRoom : LeavesRoom h.scheduler
  place : 1 ≤ h.scheduler.batchSizePerDp
  batches : h.scheduler.runningQueue ≠ []
  ready : h.scheduler.All (Ready h.scheduler)

namespace Flowing
variable {h h' : History}

/-- Everything but the readiness of the sequences is kept by every call. -/
theorem of_step (hf : Flowing h) (op : Op) (hstep : h.Step op h')
    (hready : h'.scheduler.All (Ready h'.scheduler)) : Flowing h' := by
  have heff := hstep.effect hf.bookkeeping.distinctIds
  have hset := heff.sameSetup
  refine ⟨heff.bookkeeping hf.bookkeeping,
    heff.lengths hf.bookkeeping hf.inRange hf.leavesRoom hf.lengths,
    hf.inRange.of_setup hset, hf.leavesRoom.of_setup hset, ?_, ?_, hready⟩
  · rw [hset.batchSizePerDp]
    exact hf.place
  · apply List.ne_nil_of_length_pos
    rw [hset.length]
    exact List.length_pos_of_ne_nil hf.batches

theorem fill (hf : Flowing h) : Flowing h.fill := by
  obtain ⟨k, hk⟩ := h.scheduler.fillRunningQueue_moves
  have hready : h.scheduler.fillRunningQueue.All (Ready h.scheduler) :=
    all_fill hf.ready (fun t ht => ht.stampDelay) hk
  have hsize : h.scheduler.fillRunningQueue.batchSizePerDp = h.scheduler.batchSizePerDp := by
    rw [hk.frame]
  have hmax : h.scheduler.fillRunningQueue.maxProcessToken = h.scheduler.maxProcessToken := by
    rw [hk.frame]
  have htime : h.scheduler.fillRunningQueue.totalTime = h.scheduler.totalTime := by rw [hk.frame]
  exact hf.of_step .fillRunningQueue rfl (Ready.all_congr hsize hmax htime hready)

theorem assign (hf : Flowing h) : Flowing h.assign := by
  have hready : h.scheduler.setMetadata.All (Ready h.scheduler) :=
    all_mapRunning hf.ready fun b t ht => ht.assignTokens hf.place b
  have hready' : h.scheduler.setMetadata.All (Ready h.scheduler.setMetadata) :=
    Ready.all_congr (s := h.scheduler) rfl rfl rfl hready
  exact hf.of_step .setMetadata rfl hready'

theorem update (hf : Flowing h) (time : ℚ) :
    Flowing (h.update (fun _ => true) (h.scheduler.updateScheduler time)) := by
  have hready : (h.scheduler.updateScheduler time).1.All (Ready h.scheduler) :=
    all_updateScheduler hf.bookkeeping.distinctIds hf.ready fun _ _ ht hkeep => ht.settle hkeep
  have hready' : (h.scheduler.updateScheduler time).1.All
      (Ready (h.scheduler.updateScheduler time).1) :=
    Ready.all_congr (s := h.scheduler) rfl rfl rfl hready
  exact hf.of_step (.updateScheduler time) rfl hready'

theorem cycle (hf : Flowing h) (time : ℚ) : Flowing (h.cycle time) := hf.fill.assign.update time

theorem cycles (hf : Flowing h) (times : ℕ → ℚ) (n : ℕ) : Flowing (h.cycles times n) := by
  induction n with
  | zero => exact hf
  | succ n ih => exact ih.cycle (times n)

theorem remaining_nonneg (hf : Flowing h) : 0 ≤ h.scheduler.remaining := by
  unfold remaining
  apply List.sum_nonneg
  intro n hn
  obtain ⟨t, ht, rfl⟩ := List.mem_map.mp hn
  obtain ⟨b, hb, ht⟩ := mem_running.mp ht
  have hlt := (hf.lengths.onTrack.2 b hb t ht).unfinished
  omega

/-- An iteration takes its tokens off what remains after the admission. -/
theorem remaining_cycle (hf : Flowing h) (time : ℚ) :
    (h.cycle time).scheduler.remaining
      = h.fill.scheduler.remaining - h.fill.scheduler.setMetadata.getNumProcessToken :=
  remaining_advance hf.fill.assign.bookkeeping.distinctIds time

end Flowing

namespace History

/-- No sequence waits or runs. -/
def Empty (h : History) : Prop := h.scheduler.sequenceQueue = [] ∧ h.scheduler.running = []

/-- The waiting sequences first, then the tokens of the running ones. -/
def rank (h : History) : ℕ ×ₗ ℕ :=
  toLex (h.scheduler.sequenceQueue.length, h.scheduler.remaining.toNat)

end History

/-- Without an admission the batches stay as they are. -/
theorem Scheduler.Admits.runningQueue_eq {s s' : Scheduler} (h : Admits s s' 0) :
    s'.runningQueue = s.runningQueue := by
  have hgrow := h.grow
  rw [List.take_zero, List.map_nil] at hgrow
  refine (List.forall₂_eq_eq_eq ▸ hgrow.imp fun b b' hb => ?_).symm
  obtain ⟨new, rfl, hnew⟩ := hb
  rw [List.sublist_nil.mp hnew, List.append_nil]

namespace Flowing
variable {h : History}

/-- An iteration admits a sequence, or gives one a token. -/
theorem rank_cycle (hf : Flowing h) (hheld : ¬ h.Empty) (time : ℚ) :
    (h.cycle time).rank < h.rank := by
  obtain ⟨k, hk, hend⟩ :=
    h.scheduler.fillRunningQueue_admits hf.bookkeeping.room hf.bookkeeping.fits
  have hqueue : (h.cycle time).scheduler.sequenceQueue = h.scheduler.sequenceQueue.drop k := by
    change h.scheduler.fillRunningQueue.sequenceQueue = _
    rw [hk.frame]
  have hle := hk.le
  unfold History.rank
  rw [Prod.Lex.toLex_lt_toLex, hqueue, List.length_drop]
  rcases Nat.eq_zero_or_pos k with rfl | hpos
  · right
    have hsame := hk.runningQueue_eq
    have hrunning : h.fill.scheduler.running = h.scheduler.running := by
      change h.scheduler.fillRunningQueue.running = _
      unfold running
      rw [hsame]
    have hne : h.scheduler.running ≠ [] := by
      intro hnone
      have hwait : h.scheduler.sequenceQueue ≠ [] := fun hempty => hheld ⟨hempty, hnone⟩
      -- a batch without sequences has a place for the first one that waits
      have hfull : h.scheduler.fillRunningQueue.AllFull := by
        refine hend.resolve_left fun hempty => hwait ?_
        rw [hk.frame] at hempty
        simpa using hempty
      obtain ⟨b, hb⟩ := List.exists_mem_of_ne_nil _ hf.batches
      have hcap := hfull b (hsame ▸ hb)
      have hsize : h.scheduler.fillRunningQueue.batchSizePerDp = h.scheduler.batchSizePerDp := by
        rw [hk.frame]
      have hnil : b.sequence = [] := by
        apply List.eq_nil_iff_forall_not_mem.mpr
        intro t ht
        have hmem : t ∈ h.scheduler.running := mem_running.mpr ⟨b, hb, ht⟩
        rw [hnone] at hmem
        exact List.not_mem_nil hmem
      have hplace := hf.place
      rw [hsize, BatchedSequence.getNumSeq, hnil, List.length_nil] at hcap
      omega
    have htokens := tokens_pos_of_ready hf.fill.place hf.fill.bookkeeping.room hf.fill.ready
      (hrunning ▸ hne)
    have hremaining := hf.remaining_cycle time
    have hafter := (hf.cycle time).remaining_nonneg
    have hbefore : h.fill.scheduler.remaining = h.scheduler.remaining := by
      unfold remaining
      rw [hrunning]
    exact ⟨rfl, by omega⟩
  · left
    omega

theorem exists_empty (hf : Flowing h) (times : ℕ → ℚ) : ∃ n, (h.cycles times n).Empty :=
  Runs.exists_of_rank_lt History.rank fun n hheld => (hf.cycles times n).rank_cycle hheld (times n)

/-- Where nothing waits or runs, all that was pushed has been returned. -/
theorem returned_of_empty (hf : Flowing h) (hempty : h.Empty) {id : ℕ} (hid : id ∈ h.pushed) :
    ∃ call, h.At id (.returned call) := by
  refine (hf.lengths.returned_or_held hf.bookkeeping hid).resolve_right ?_
  rintro ⟨t, ht | ⟨b, hb, ht⟩, -⟩
  · rw [hempty.1] at ht
    exact List.not_mem_nil ht
  · have hmem : t ∈ h.scheduler.running := mem_running.mpr ⟨b, hb, ht⟩
    rw [hempty.2] at hmem
    exact List.not_mem_nil hmem

end Flowing

theorem History.pushed_cycles (h : History) (times : ℕ → ℚ) (n : ℕ) :
    (h.cycles times n).pushed = h.pushed := by
  induction n with
  | zero => rfl
  | succ n ih => exact ih

/-! ### Whole runs -/

/-- Waiting sequences have no start time yet. -/
theorem Effect.waiting_genStartTime {h h' : History} (heff : Effect h h')
    (hs : ∀ t ∈ h.scheduler.sequenceQueue, t.genStartTime = 0) :
    ∀ t ∈ h'.scheduler.sequenceQueue, t.genStartTime = 0 := by
  cases heff with
  | push hpush =>
    intro t ht
    dsimp only at ht
    rw [hpush.frame] at ht
    rcases List.mem_append.mp ht with hold | hnew
    · exact hs t hold
    · exact (hpush.all t hnew).genStartTime
  | fill hfill =>
    intro t ht
    dsimp only at ht
    rw [hfill.frame] at ht
    exact hs t (List.mem_of_mem_drop ht)
  | clock => exact hs
  | assign => exact hs
  | stamp => exact hs
  | update => exact hs

theorem waiting_genStartTime_of_run {h h' : History} {ops : List Op} (hb : Bookkeeping h)
    (hs : ∀ t ∈ h.scheduler.sequenceQueue, t.genStartTime = 0)
    (hrun : Runs.Run History.Step h ops h') :
    ∀ t ∈ h'.scheduler.sequenceQueue, t.genStartTime = 0 := by
  have hinv := hrun.invariant (I := fun h => Bookkeeping h ∧
    ∀ t ∈ h.scheduler.sequenceQueue, t.genStartTime = 0) ?_ ⟨hb, hs⟩
  · exact hinv.2
  rintro h op h' ⟨hb, hs⟩ hstep
  have heff := hstep.effect hb.distinctIds
  exact ⟨heff.bookkeeping hb, heff.waiting_genStartTime hs⟩

/-- A synthetic sequence that starts at its input is past its prefill for good. -/
theorem Scheduler.Started.past_input {s : Scheduler} (hrange : InRange s)
    (hreal : s.trace.realData = false)
    (hstart : StartsAtInput s.systemConfig (clampOutputLen s.modelConfig)) {t : Sequence}
    (ht : Started s.systemConfig s.pushModel s.trace t) : t.inputLen ≤ t.currentLen := by
  cases ht with
  | dummy id arrival _ hmax hin hout =>
    have hmodel : s.pushModel = clampOutputLen s.modelConfig := by simp [pushModel, hreal]
    have hmax' := (clampOutputLen_fst s.modelConfig).2
    have hlt := hrange.maxSeqLen_lt
    rw [hmodel] at hmax hin hout ⊢
    set m := clampOutputLen s.modelConfig
    have hdummy : (dummySeq m id arrival).currentLen = 0 := rfl
    obtain ⟨hi, -, -, -⟩ := applyModes_lengths s.systemConfig m.inputLen _ hdummy
    obtain ⟨-, -, hat⟩ := applyModes_currentLen hrange.rate_nonneg hrange.rate_le hin
      (by omega) hdummy
    rw [hi, hat.mpr hstart]
    exact le_refl _
  | real id seqId info hreal' => exact absurd (hreal.symm.trans hreal') (by simp)

theorem past_input_of_run {h h' : History} {ops : List Op} (hb : Bookkeeping h)
    (hrange : InRange h.scheduler) (hreal : h.scheduler.trace.realData = false)
    (hstart : StartsAtInput h.scheduler.systemConfig (clampOutputLen h.scheduler.modelConfig))
    (hs : h.scheduler.All fun t => t.inputLen ≤ t.currentLen ∧ 0 ≤ t.numProcessToken)
    (hrun : Runs.Run History.Step h ops h') :
    h'.scheduler.All fun t => t.inputLen ≤ t.currentLen ∧ 0 ≤ t.numProcessToken := by
  induction hrun with
  | nil => exact hs
  | @cons h h₁ h' op ops hstep _ ih =>
    have heff := hstep.effect hb.distinctIds
    have hset := heff.sameSetup
    refine ih (heff.bookkeeping hb) (hrange.of_setup hset) (hset.trace ▸ hreal) ?_
      (heff.all ?_ ?_ ?_ ?_ ?_ hs)
    · rw [hset.systemConfig, hset.model]
      exact hstart
    · exact fun t ht _ => ⟨ht.past_input hrange hreal hstart, ht.tokenless.ge⟩
    · exact fun t _ ht => ht
    · exact fun t _ ht => ht
    · intro b t ht
      have hgen : ¬ t.InSum := not_lt.mpr ht.1
      unfold assignTokens setGenToken
      rw [if_neg hgen]
      split_ifs
      · exact ⟨ht.1, Int.one_nonneg⟩
      · exact ⟨ht.1, Int.one_nonneg⟩
      · exact ht
      · exact ht
    · intro t time t' ht hkeep
      obtain ⟨hcur, -, hin, htok⟩ := settle_lengths hkeep
      simp only [Sequence.update_currentLen, Sequence.update_inputLen,
        Sequence.update_numProcessToken] at hcur hin htok
      omega

/-- In a reached state whose clock is past all start times, the iterations pop every sequence. -/
theorem flowing_of_run (c : SystemConfig) (m : ModelConfig) (trace : ExpertTrace)
    (total maxBatched maxProcess : ℤ) (rotate countId : ℕ) {s₀ : Scheduler}
    (hs₀ : s₀ = Scheduler.create c m trace total maxBatched maxProcess rotate countId)
    (htotal : 0 ≤ total) (hdp : 1 ≤ s₀.dpDegree) (hrange : InRange s₀) (hpops : Pops s₀)
    {ops : List Op} {h : History} (hrun : Runs.Run History.Step (.init s₀) ops h)
    (hgates : ∀ t ∈ h.scheduler.running, h.scheduler.GateOpen t) : Flowing h := by
  subst hs₀
  have hcreate := Bookkeeping.create c m trace total maxBatched maxProcess rotate countId htotal hdp
  have hall := fun P => all_create P c m trace total maxBatched maxProcess rotate countId
  set s₀ := Scheduler.create c m trace total maxBatched maxProcess rotate countId with hs₀
  have hroom := hpops.leavesRoom
  have hset := SameSetup.of_run hcreate hrun
  have hl := (Lengths.create c m trace total maxBatched maxProcess rotate countId).of_run
    hcreate hrange hroom hrun
  have hwait := waiting_genStartTime_of_run hcreate (hall _).1 hrun
  have hstage : h.scheduler.All fun t => h.scheduler.batchSizePerDp ≤ h.scheduler.maxProcessToken ∨
      t.inputLen ≤ t.currentLen := by
    rcases hpops.share with hshare | ⟨hreal, hstart⟩
    · have hshare' : h.scheduler.batchSizePerDp ≤ h.scheduler.maxProcessToken := by
        rw [hset.batchSizePerDp, hset.maxProcessToken]
        exact hshare
      exact ⟨fun t _ => .inl hshare', fun b _ t _ => .inl hshare'⟩
    · have hpast := past_input_of_run hcreate hrange hreal hstart (hall _) hrun
      exact ⟨fun t ht => .inr (hpast.1 t ht).1, fun b hb t ht => .inr (hpast.2 b hb t ht).1⟩
  constructor
  · exact hcreate.of_run hrun
  · exact hl
  · exact hrange.of_setup hset
  · exact hroom.of_setup hset
  · rw [hset.batchSizePerDp]
    exact hpops.place
  · apply List.ne_nil_of_length_pos
    rw [hset.length]
    change 0 < (List.replicate s₀.dpDegree.toNat _).length
    rw [List.length_replicate]
    omega
  · refine ⟨fun t ht => ⟨.inl (hwait t ht), hstage.1 t ht, (hl.onTrack.1 t ht).token_nonneg⟩,
      fun b hb t ht => ⟨hgates t (mem_running.mpr ⟨b, hb, ht⟩), hstage.2 b hb t ht,
        (hl.onTrack.2 b hb t ht).token_nonneg⟩⟩

/-- The calls after the last arrival: the clock is set, and then come the iterations. -/
def drainOps (now : ℚ) (times : ℕ → ℚ) (n : ℕ) : List Op :=
  .setTotalTime now :: (List.range n).flatMap fun i => iteration (times i)

end LlmSystem
