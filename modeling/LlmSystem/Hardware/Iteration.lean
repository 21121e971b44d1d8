import LlmSystem.Scheduler.Places

/-!
The iteration loops of the cluster. `run` writes to devices and to the expert counters of
the batches, which no scheduler function reads; all an iteration takes from it is the
`device_time` it leaves on device 0.
-/
namespace LlmSystem

open Scheduler

/-- What one iteration gets from `run` and from the random generators. -/
structure IterInput where
  deviceTime : ℚ
  draws : List ℕ := []
  deriving Repr

/-- The scheduler and the clocks of the loop, `total_time` and `sum_machine_time`. -/
structure LoopState where
  scheduler : Scheduler
  totalTime : ℚ := 0
  sumMachineTime : ℚ := 0
  deriving Repr

namespace Cluster

/-- `runIteration` before its loop: the first fill, then `hittingQueue`. -/
def warmUp (s : Scheduler) (draws : List ℕ) (hits : List (List ℕ)) : Except String Scheduler := do
  hittingQueue (← s.fillSequenceQueue 0 0 draws).fillRunningQueue hits

/-- The body of `runIterationMixed` for an iteration with tokens, which is also the gen
machine of the other loop. `sch` is the scheduler after `setMetadata`. -/
def generate (s : LoopState) (sch : Scheduler) (i : IterInput) : Except String LoopState := do
  let totalTime := s.totalTime + i.deviceTime
  let (sch, tokens) := { sch with totalTime := totalTime }.updateScheduler i.deviceTime
  let sch ← (sch.setGenStart tokens totalTime).fillSequenceQueue i.deviceTime totalTime i.draws
  .ok { s with scheduler := sch.fillRunningQueue, totalTime := totalTime }

/-- The sum machine of `runIterationSumGenSplit`. -/
def summarize (s : LoopState) (sch : Scheduler) (i : IterInput) : LoopState :=
  let time := max s.totalTime s.sumMachineTime + i.deviceTime
  let (sch, tokens) := sch.updateSchedulerSumGenSplit i.deviceTime
  { s with scheduler := sch.setGenStart tokens time, sumMachineTime := time }

/-- Without tokens the source stores 20 ms into a local variable and continues. -/
def runIterationMixed (s : LoopState) (i : IterInput) : Except String LoopState :=
  let sch := s.scheduler.setMetadata
  if sch.getNumProcessToken = 0 then .ok { s with scheduler := sch }
  else generate s sch i

def runIterationSumGenSplit (s : LoopState) (i : IterInput) : Except String LoopState :=
  let sch := s.scheduler.setMetadata
  if sch.getNumProcessToken = 0 then .ok { s with scheduler := sch }
  else if !sch.hasSumSeq then generate s sch i
  else .ok (summarize s sch i)

/-- One iteration of the loop that `split` selects. -/
def iterate (split : Bool) (s : LoopState) (i : IterInput) : Except String LoopState :=
  if split then runIterationSumGenSplit s i else runIterationMixed s i

/-- An iteration whose `run` takes time whenever a token is processed. -/
def Iterates (split : Bool) (s : LoopState) (i : IterInput) (t : LoopState) : Prop :=
  iterate split s i = .ok t ∧
    (s.scheduler.setMetadata.getNumProcessToken ≠ 0 → 0 < i.deviceTime)

/-- The states in which a loop can begin. -/
def Starts (s₀ : Scheduler) (s : LoopState) : Prop :=
  ∃ times draws hits, hits.length = 10000 ∧
    warmUp (s₀.getActualArrivalTime times) draws hits = .ok s.scheduler ∧
    s.totalTime = 0 ∧ s.sumMachineTime = 0

end Cluster

/-! ### An iteration is a run of scheduler calls -/

/-- Some run of calls from the setup of `s₀` leads to `s`, with its bookkeeping in order. -/
def Recorded (s₀ s : Scheduler) : Prop :=
  ∃ h : History, Bookkeeping h ∧ SameSetup s₀ s ∧ h.scheduler = s

namespace Recorded
variable {s₀ s s' : Scheduler}

theorem distinctIds (hs : Recorded s₀ s) : s.DistinctIds := by
  obtain ⟨h, hb, -, rfl⟩ := hs
  exact hb.distinctIds

theorem eq_of_id_eq (hs : Recorded s₀ s) {b b' : BatchedSequence} {t t' : Sequence}
    (hmem : b ∈ s.runningQueue) (ht : t ∈ b.sequence) (hmem' : b' ∈ s.runningQueue)
    (ht' : t' ∈ b'.sequence) (hid : t.id = t'.id) : t = t' := by
  obtain ⟨h, hb, -, rfl⟩ := hs
  exact hb.eq_of_id_eq hmem ht hmem' ht' hid

theorem sameSetup (hs : Recorded s₀ s) : SameSetup s₀ s := by
  obtain ⟨-, -, hset, -⟩ := hs
  exact hset

/-- A call keeps the record; `hcall` names the call that leads to `s'`. -/
theorem call (hs : Recorded s₀ s) (op : Op)
    (hcall : ∀ h : History, h.scheduler = s → ∃ h', h.Step op h' ∧ h'.scheduler = s') :
    Recorded s₀ s' := by
  obtain ⟨h, hb, hset, rfl⟩ := hs
  obtain ⟨h', hstep, rfl⟩ := hcall h rfl
  have heff := hstep.effect hb.distinctIds
  exact ⟨h', heff.bookkeeping hb, hset.trans heff.sameSetup, rfl⟩

theorem setMetadata (hs : Recorded s₀ s) : Recorded s₀ s.setMetadata :=
  hs.call .setMetadata fun _ h => ⟨_, rfl, by rw [← h]⟩

theorem fillRunningQueue (hs : Recorded s₀ s) : Recorded s₀ s.fillRunningQueue :=
  hs.call .fillRunningQueue fun _ h => ⟨_, rfl, by rw [← h]⟩

theorem updateScheduler (hs : Recorded s₀ s) (time : ℚ) :
    Recorded s₀ (s.updateScheduler time).1 :=
  hs.call (.updateScheduler time) fun _ h => ⟨_, rfl, by rw [← h]; rfl⟩

theorem updateSchedulerSumGenSplit (hs : Recorded s₀ s) (time : ℚ) :
    Recorded s₀ (s.updateSchedulerSumGenSplit time).1 :=
  hs.call (.updateSchedulerSumGenSplit time) fun _ h => ⟨_, rfl, by rw [← h]; rfl⟩

theorem setTotalTime (hs : Recorded s₀ s) (time : ℚ) :
    Recorded s₀ { s with totalTime := time } :=
  hs.call (.setTotalTime time) fun _ h => ⟨_, rfl, by rw [← h]⟩

theorem setGenStart (hs : Recorded s₀ s) (tokens : List Sequence) (time : ℚ) :
    Recorded s₀ (s.setGenStart tokens time) :=
  hs.call (.setGenStart tokens time) fun _ h => ⟨_, rfl, by rw [← h]⟩

theorem getActualArrivalTime (hs : Recorded s₀ s) (times : List ℚ) :
    Recorded s₀ (s.getActualArrivalTime times) :=
  hs.call (.getActualArrivalTime times) fun _ h => ⟨_, rfl, by rw [← h]⟩

theorem fillSequenceQueue (hs : Recorded s₀ s) {iterTime totalTime : ℚ} {draws : List ℕ}
    (hok : s.fillSequenceQueue iterTime totalTime draws = .ok s') : Recorded s₀ s' := by
  refine hs.call (.fillSequenceQueue iterTime totalTime draws) fun h hh => ⟨h.push s', ?_, rfl⟩
  change (h.scheduler.fillSequenceQueue iterTime totalTime draws >>= _) = _
  rw [hh, hok]
  rfl

end Recorded
end LlmSystem
