import LlmSystem.Scheduler.Admission
import LlmSystem.Scheduler.Updates

/-! Whole runs of a scheduler, with a record of what was pushed, served and returned. -/
namespace LlmSystem

/-- The calls on a scheduler, and the writes a cluster makes to it between calls. -/
inductive Op where
  | pushSeq (numSeq : ℤ) (draws : List ℕ)
  | fillSequenceQueue (iterTime totalTime : ℚ) (draws : List ℕ)
  | fillRunningQueue
  | setMetadata
  | updateScheduler (time : ℚ)
  | updateSchedulerSumGenSplit (time : ℚ)
  | getActualArrivalTime (times : List ℚ)
  | setTotalTime (time : ℚ)
  | setGenStart (tokens : List Sequence) (time : ℚ)
  deriving Repr

/-- `returned` has one list for each update call; `served` has an id for each update that
advanced the sequence by at least one token. -/
structure History where
  scheduler : Scheduler
  pushed : Multiset ℕ := 0
  returned : List (List Sequence) := []
  served : Multiset ℕ := 0

namespace Scheduler

/-- `getActualArrivalTime`, given the partial sums of the drawn gaps. -/
def getActualArrivalTime (s : Scheduler) (times : List ℚ) : Scheduler :=
  { s with actualArrivalTime := s.actualArrivalTime ++ times, curArrivalTimeIdx := 0 }

/-- The sequences with `p` that an update advances by at least one token. -/
def servedIds (p : Sequence → Bool) (l : List BatchedSequence) : Multiset ℕ :=
  (l.map fun b => ids (b.sequence.filter fun t => p t && decide (0 < t.numProcessToken))).sum

end Scheduler

namespace History

def init (s : Scheduler) : History := { scheduler := s }

def push (h : History) (s' : Scheduler) : History :=
  { h with
    scheduler := s'
    pushed := h.pushed
      + Scheduler.ids (s'.sequenceQueue.drop h.scheduler.sequenceQueue.length) }

def update (h : History) (p : Sequence → Bool) (r : Scheduler × List Sequence) : History :=
  { h with
    scheduler := r.1
    returned := h.returned ++ [r.2]
    served := h.served + Scheduler.servedIds p h.scheduler.runningQueue }

/-- One call. A failed assertion of the source is an error. -/
def step (h : History) : Op → Except String History
  | .pushSeq numSeq draws => do .ok (h.push (← h.scheduler.pushSeq numSeq draws))
  | .fillSequenceQueue iterTime totalTime draws => do
    .ok (h.push (← h.scheduler.fillSequenceQueue iterTime totalTime draws))
  | .fillRunningQueue => .ok { h with scheduler := h.scheduler.fillRunningQueue }
  | .setMetadata => .ok { h with scheduler := h.scheduler.setMetadata }
  | .updateScheduler time => .ok (h.update (fun _ => true) (h.scheduler.updateScheduler time))
  | .updateSchedulerSumGenSplit time =>
    .ok (h.update (fun t => decide t.InSum) (h.scheduler.updateSchedulerSumGenSplit time))
  | .getActualArrivalTime times =>
    .ok { h with scheduler := h.scheduler.getActualArrivalTime times }
  | .setTotalTime time => .ok { h with scheduler := { h.scheduler with totalTime := time } }
  | .setGenStart tokens time => .ok { h with scheduler := h.scheduler.setGenStart tokens time }

def Step (h : History) (op : Op) (h' : History) : Prop := h.step op = .ok h'

end History

namespace Scheduler

/-- A write to the sequences of the batches that keeps everything the bookkeeping reads. -/
def mapRunning (s : Scheduler) (f : BatchedSequence → Sequence → Sequence) : Scheduler :=
  { s with runningQueue := s.runningQueue.map fun b => b.modify (f b) }

/-- Both update functions, for batches with distinct ids. -/
def serveAll (p : Sequence → Bool) (f : Sequence → Sequence) (s : Scheduler) :
    Scheduler × List Sequence :=
  ({ s with runningQueue := s.runningQueue.map fun b => (serve p f b).1 },
    s.runningQueue.flatMap fun b => (serve p f b).2)

def DistinctIds (s : Scheduler) : Prop :=
  ∀ b ∈ s.runningQueue, (b.sequence.map Sequence.id).Nodup

theorem updateScheduler_eq {s : Scheduler} (hs : s.DistinctIds) (time : ℚ) :
    s.updateScheduler time = serveAll (fun _ => true) (fun t => t.update time) s := by
  have hall : ∀ b ∈ s.runningQueue, updateBatch time b
      = serve (fun _ => true) (fun t => t.update time) b :=
    fun b hb => updateBatch_eq time b (hs b hb)
  unfold updateScheduler serveAll
  rw [List.map_congr_left fun b hb => congrArg Prod.fst (hall b hb),
    List.flatMap_congr fun b hb => congrArg Prod.snd (hall b hb)]

theorem updateSchedulerSumGenSplit_eq {s : Scheduler} (hs : s.DistinctIds) (time : ℚ) :
    s.updateSchedulerSumGenSplit time = serveAll (fun t => decide t.InSum)
      (fun t => (t.update time).setGenStartTime (s.totalTime + time)) s := by
  have hall : ∀ b ∈ s.runningQueue, updateBatchSplit time (s.totalTime + time) b
      = serve (fun t => decide t.InSum)
          (fun t => (t.update time).setGenStartTime (s.totalTime + time)) b :=
    fun b hb => updateBatchSplit_eq time _ b (hs b hb)
  unfold updateSchedulerSumGenSplit serveAll
  rw [List.map_congr_left fun b hb => congrArg Prod.fst (hall b hb),
    List.flatMap_congr fun b hb => congrArg Prod.snd (hall b hb)]

/-- The write `setMetadata` makes to a sequence of the batch `b`. -/
def assignTokens (s : Scheduler) (b : BatchedSequence) (seq : Sequence) : Sequence :=
  if seq.InSum then
    if s.processSum then setSumToken (s.maxProcessToken.tdiv b.getSum.length) seq else seq
  else if s.processGen then setGenToken s.totalTime seq
  else seq

theorem setMetadata_eq (s : Scheduler) : s.setMetadata = s.mapRunning s.assignTokens := rfl

/-- `setMetadata` writes `num_process_token` only. -/
theorem assignTokens_eq (s : Scheduler) (b : BatchedSequence) (t : Sequence) :
    ∃ n, s.assignTokens b t = { t with numProcessToken := n } := by
  unfold assignTokens setGenToken setSumToken
  split_ifs <;> exact ⟨_, rfl⟩

end Scheduler

open Scheduler in
/-- All that one call can do, with the updates as `serveAll`. -/
inductive Effect (h : History) : History → Prop
  | push {s' : Scheduler} {new : List Sequence}
      (hpush : Pushes
        (Started h.scheduler.systemConfig h.scheduler.pushModel h.scheduler.trace)
        { h.scheduler with modelConfig := h.scheduler.pushModel } s' new) :
      Effect h { h with scheduler := s', pushed := h.pushed + ids new }
  | fill {k : ℕ} (hfill : Admits h.scheduler h.scheduler.fillRunningQueue k) :
      Effect h { h with scheduler := h.scheduler.fillRunningQueue }
  | clock (time : ℚ) (times : List ℚ) (idx : ℤ) :
      Effect h { h with
        scheduler := { h.scheduler with
          totalTime := time, actualArrivalTime := times, curArrivalTimeIdx := idx } }
  | assign :
      Effect h { h with scheduler := h.scheduler.mapRunning h.scheduler.assignTokens }
  | stamp (f : Sequence → Sequence) (hf : ∀ t, f t = t ∨ ∃ time, f t = t.setGenStartTime time) :
      Effect h { h with scheduler := h.scheduler.mapRunning fun _ => f }
  | update (p : Sequence → Bool) (f : Sequence → Sequence) (time : ℚ)
      (hf : ∀ t, f t = t.update time ∨ ∃ now, f t = (t.update time).setGenStartTime now) :
      Effect h (h.update p (serveAll p f h.scheduler))

theorem Effect.of_pushSeq {h h' : History} {numSeq : ℤ} {draws : List ℕ}
    (hstep : (do .ok (h.push (← h.scheduler.pushSeq numSeq draws))) = Except.ok (ε := String) h') :
    Effect h h' := by
  obtain ⟨s', hpush, hok⟩ := Runs.bind_eq_ok hstep
  obtain ⟨new, hnew⟩ := Scheduler.pushSeq_pushes hpush
  obtain rfl := Except.ok.inj hok
  have hqueue : s'.sequenceQueue.drop h.scheduler.sequenceQueue.length = new := by
    rw [hnew.frame]
    simp
  unfold History.push
  rw [hqueue]
  exact .push hnew

/-- Every call on a scheduler with distinct ids has one of the effects. -/
theorem History.Step.effect {h h' : History} {op : Op} (hd : h.scheduler.DistinctIds)
    (hstep : h.Step op h') : Effect h h' := by
  unfold History.Step at hstep
  cases op with
  | pushSeq numSeq draws => exact .of_pushSeq hstep
  | fillSequenceQueue iterTime totalTime draws => exact .of_pushSeq hstep
  | fillRunningQueue =>
    obtain rfl := Except.ok.inj hstep
    obtain ⟨k, hk⟩ := h.scheduler.fillRunningQueue_moves
    exact .fill hk
  | setMetadata =>
    obtain rfl := Except.ok.inj hstep
    exact .assign
  | updateScheduler time =>
    obtain rfl := Except.ok.inj hstep
    rw [Scheduler.updateScheduler_eq hd]
    exact .update _ _ time fun _ => .inl rfl
  | updateSchedulerSumGenSplit time =>
    obtain rfl := Except.ok.inj hstep
    rw [Scheduler.updateSchedulerSumGenSplit_eq hd]
    exact .update _ _ time fun _ => .inr ⟨_, rfl⟩
  | getActualArrivalTime times =>
    obtain rfl := Except.ok.inj hstep
    exact .clock h.scheduler.totalTime _ 0
  | setTotalTime time =>
    obtain rfl := Except.ok.inj hstep
    exact .clock time h.scheduler.actualArrivalTime h.scheduler.curArrivalTimeIdx
  | setGenStart tokens time =>
    obtain rfl := Except.ok.inj hstep
    refine .stamp (fun t => if t.id ∈ tokens.map (·.id) then t.setGenStartTime time else t) ?_
    intro t
    split_ifs
    · exact .inr ⟨time, rfl⟩
    · exact .inl rfl

/-- What no call changes. -/
structure SameSetup (s s' : Scheduler) : Prop where
  systemConfig : s'.systemConfig = s.systemConfig
  trace : s'.trace = s.trace
  totalBatchSize : s'.totalBatchSize = s.totalBatchSize
  batchSizePerDp : s'.batchSizePerDp = s.batchSizePerDp
  maxProcessToken : s'.maxProcessToken = s.maxProcessToken
  length : s'.runningQueue.length = s.runningQueue.length
  model : Scheduler.clampOutputLen s'.modelConfig = Scheduler.clampOutputLen s.modelConfig

theorem SameSetup.refl (s : Scheduler) : SameSetup s s := ⟨rfl, rfl, rfl, rfl, rfl, rfl, rfl⟩

theorem SameSetup.trans {s s' s'' : Scheduler} (h : SameSetup s s') (h' : SameSetup s' s'') :
    SameSetup s s'' where
  systemConfig := h'.systemConfig.trans h.systemConfig
  trace := h'.trace.trans h.trace
  totalBatchSize := h'.totalBatchSize.trans h.totalBatchSize
  batchSizePerDp := h'.batchSizePerDp.trans h.batchSizePerDp
  maxProcessToken := h'.maxProcessToken.trans h.maxProcessToken
  length := h'.length.trans h.length
  model := h'.model.trans h.model

/-- Clamping twice is clamping once, so a later push starts from the same lengths. -/
theorem clampOutputLen_clampOutputLen (m : ModelConfig) :
    Scheduler.clampOutputLen (Scheduler.clampOutputLen m) = Scheduler.clampOutputLen m := by
  unfold Scheduler.clampOutputLen
  split_ifs with hlong hlong'
  · simp
  · rfl
  · rfl

theorem clampOutputLen_pushModel (s : Scheduler) :
    Scheduler.clampOutputLen s.pushModel = Scheduler.clampOutputLen s.modelConfig := by
  unfold Scheduler.pushModel
  split_ifs
  · rfl
  · exact clampOutputLen_clampOutputLen _

theorem Effect.sameSetup {h h' : History} (heff : Effect h h') :
    SameSetup h.scheduler h'.scheduler := by
  cases heff with
  | push hpush =>
    rw [hpush.frame]
    exact ⟨rfl, rfl, rfl, rfl, rfl, rfl, clampOutputLen_pushModel _⟩
  | fill hfill =>
    have hlen := hfill.grow.length_eq
    rw [hfill.frame]
    exact ⟨rfl, rfl, rfl, rfl, rfl, hlen.symm, rfl⟩
  | clock => exact ⟨rfl, rfl, rfl, rfl, rfl, rfl, rfl⟩
  | assign => exact ⟨rfl, rfl, rfl, rfl, rfl, List.length_map _, rfl⟩
  | stamp => exact ⟨rfl, rfl, rfl, rfl, rfl, List.length_map _, rfl⟩
  | update => exact ⟨rfl, rfl, rfl, rfl, rfl, List.length_map _, rfl⟩

end LlmSystem
