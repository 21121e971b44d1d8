import LlmSystem.Hardware.Clock
import LlmSystem.Scheduler.Lengths

/-!
Waiting sequences without an injection rate. Every fill asks for as many new sequences as
there are places in `total_batch_size` that no running sequence has, whether or not sequences
wait already.
-/
namespace LlmSystem

open Scheduler

namespace Scheduler

theorem pushDummySeqs_length_le {i o : ℤ} (n : ℕ) {s s' : Scheduler}
    (h : pushDummySeqs i o n s = .ok s') :
    s'.sequenceQueue.length ≤ s.sequenceQueue.length + n := by
  induction n generalizing s with
  | zero =>
    obtain rfl := Except.ok.inj h
    simp
  | succ n ih =>
    obtain ⟨s₁, h₁, h⟩ := Runs.bind_eq_ok h
    have hrest := ih h
    have hone : s₁.sequenceQueue.length ≤ s.sequenceQueue.length + 1 := by
      unfold pushDummySeq at h₁
      split_ifs at h₁
      · obtain rfl := Except.ok.inj h₁
        simp
      · obtain ⟨seq, -, h₁⟩ := Runs.bind_eq_ok h₁
        obtain rfl := Except.ok.inj h₁
        simp
    omega

theorem pushRealSeqs_length_le (n : ℕ) {draws : List ℕ} {s s' : Scheduler}
    (h : pushRealSeqs n draws s = .ok s') :
    s'.sequenceQueue.length ≤ s.sequenceQueue.length + n := by
  induction n generalizing s draws with
  | zero =>
    obtain rfl := Except.ok.inj h
    simp
  | succ n ih =>
    obtain ⟨⟨⟨seqId, info⟩, draws'⟩, -, h⟩ := Runs.bind_eq_ok h
    obtain ⟨seq, -, h⟩ := Runs.bind_eq_ok h
    have hrest := ih h
    simp only [List.length_append, List.length_singleton] at hrest
    omega

/-- A push queues at most the sequences it is asked for. -/
theorem pushSeq_length_le {s s' : Scheduler} {n : ℤ} {draws : List ℕ}
    (h : s.pushSeq n draws = .ok s') :
    s'.sequenceQueue.length ≤ s.sequenceQueue.length + n.toNat := by
  unfold pushSeq at h
  split_ifs at h
  · unfold pushRealSeq at h
    split_ifs at h
    exact pushRealSeqs_length_le _ h
  · exact pushDummySeqs_length_le (s := { s with modelConfig := clampOutputLen s.modelConfig }) _ h

/-- With an accepted configuration it queues all of them. -/
theorem pushSeq_length {s : Scheduler} (hreal : s.trace.realData = false)
    (ha : Accepted s.modelConfig) (n : ℤ) (draws : List ℕ) :
    ∃ s', s.pushSeq n draws = .ok s' ∧
      s'.sequenceQueue.length = s.sequenceQueue.length + n.toNat := by
  have hpos : 0 < (clampOutputLen s.modelConfig).inputLen :=
    (clampOutputLen_fst s.modelConfig).1 ▸ ha.input_pos
  have hpush : ∀ (k : ℕ) (s₁ : Scheduler), ∃ s',
      pushDummySeqs (clampOutputLen s.modelConfig).inputLen
        (clampOutputLen s.modelConfig).outputLen k s₁ = .ok s' ∧
        s'.sequenceQueue.length = s₁.sequenceQueue.length + k := by
    intro k
    induction k with
    | zero => exact fun s₁ => ⟨s₁, rfl, rfl⟩
    | succ k ih =>
      intro s₁
      simp only [pushDummySeqs, pushDummySeq, if_neg ha.output_pos.ne', Sequence.create,
        if_pos hpos, if_pos ha.output_pos]
      obtain ⟨s', hs', hlen⟩ := ih _
      refine ⟨s', hs', ?_⟩
      rw [hlen]
      simp
      omega
  unfold pushSeq
  rw [if_neg (by simp [hreal]), if_pos ha.input_lt]
  exact hpush _ _

/-- The batches have exactly `total_batch_size` places. -/
def Exact (s : Scheduler) : Prop :=
  (s.runningQueue.length : ℤ) * s.batchSizePerDp = s.totalBatchSize

theorem Exact.of_setup {s s' : Scheduler} (hset : SameSetup s s') (h : s.Exact) : s'.Exact := by
  unfold Exact at h ⊢
  rw [hset.length, hset.batchSizePerDp, hset.totalBatchSize]
  exact h

theorem getBatchSize_of_allFull {s : Scheduler} (hroom : s.Roomy) (hfull : s.AllFull) :
    s.getBatchSize = s.runningQueue.length * s.batchSizePerDp := by
  have hconst : s.runningQueue.map (·.getNumSeq)
      = s.runningQueue.map fun _ => s.batchSizePerDp :=
    List.map_congr_left fun b hb => le_antisymm (hroom b hb) (hfull b hb)
  unfold getBatchSize
  rw [hconst]
  simp

/-- With exact places and nothing waiting before, a fill leaves nothing waiting. -/
theorem fill_empties {s₀ s s' : Scheduler} {draws : List ℕ} {iterTime totalTime : ℚ}
    (hr : Recorded s₀ s) (hexact : s.Exact) (hrate : s.systemConfig.useInjectRate = false)
    (hwait : s.sequenceQueue = []) (hok : s.fillSequenceQueue iterTime totalTime draws = .ok s') :
    s'.fillRunningQueue.sequenceQueue = [] := by
  obtain ⟨h, hb, -, hsch⟩ := hr.fillSequenceQueue hok
  have hroom : s'.Roomy := hsch ▸ hb.room
  have hfits : s'.Fits := hsch ▸ hb.fits
  obtain ⟨new, hnew⟩ := pushSeq_pushes hok
  have hsame : s'.getBatchSize = s.getBatchSize := by
    rw [hnew.frame]
    rfl
  have hexact' : s'.Exact := by
    rw [hnew.frame]
    exact hexact
  have hlen := pushSeq_length_le hok
  have hask : s.numRequestToInject iterTime totalTime = s.totalBatchSize - s.getBatchSize := by
    simp [numRequestToInject, hrate]
  rw [hask, hwait] at hlen
  have hsize := getBatchSize_le hroom hfits
  have htotal : s'.totalBatchSize = s.totalBatchSize := by rw [hnew.frame]
  obtain ⟨k, hk, hend⟩ := fillRunningQueue_admits s' hroom hfits
  rcases hend with hempty | hfull
  · exact hempty
  · -- all places are taken, so as many were admitted as were asked for
    have hplaces := getBatchSize_of_allFull (hk.room hroom) hfull
    have hset : s'.fillRunningQueue.Exact := by
      unfold Exact
      rw [← hk.grow.length_eq, hk.frame]
      exact hexact'
    have hcount : s'.fillRunningQueue.totalBatchSize = s'.totalBatchSize := by rw [hk.frame]
    unfold Exact at hset
    rw [← hplaces, hk.getBatchSize, hcount] at hset
    rw [hk.frame]
    apply List.drop_eq_nil_of_le
    simp only [List.length_nil] at hlen
    omega

/-- Sequences that wait or run, which a fill moves but keeps. -/
def load (s : Scheduler) : ℤ := s.sequenceQueue.length + s.getBatchSize

theorem load_fillRunningQueue (s : Scheduler) : s.fillRunningQueue.load = s.load := by
  obtain ⟨k, hk⟩ := s.fillRunningQueue_moves
  have hqueue : s.fillRunningQueue.sequenceQueue = s.sequenceQueue.drop k := by rw [hk.frame]
  have hle := hk.le
  unfold load
  rw [hk.getBatchSize, hqueue, List.length_drop]
  omega

/-- Whatever waits comes on top of the total batch size. -/
theorem load_fillSequenceQueue {s : Scheduler} (hrate : s.systemConfig.useInjectRate = false)
    (hreal : s.trace.realData = false) (ha : Accepted s.modelConfig)
    (hsize : s.getBatchSize ≤ s.totalBatchSize) (iterTime totalTime : ℚ) (draws : List ℕ) :
    ∃ s', s.fillSequenceQueue iterTime totalTime draws = .ok s' ∧
      s'.load = s.totalBatchSize + s.sequenceQueue.length := by
  have hask : s.numRequestToInject iterTime totalTime = s.totalBatchSize - s.getBatchSize := by
    simp [numRequestToInject, hrate]
  obtain ⟨s', hok, hlen⟩ := pushSeq_length hreal ha (s.numRequestToInject iterTime totalTime) draws
  obtain ⟨new, hnew⟩ := pushSeq_pushes hok
  have hsame : s'.getBatchSize = s.getBatchSize := by
    rw [hnew.frame]
    rfl
  refine ⟨s', hok, ?_⟩
  unfold load
  rw [hlen, hsame, hask]
  omega

end Scheduler

namespace Cluster

/-- The states before the first iteration, however often `hittingQueue` hits. -/
def Warm (s₀ : Scheduler) (s : LoopState) : Prop :=
  ∃ times draws hits, warmUp (s₀.getActualArrivalTime times) draws hits = .ok s.scheduler ∧
    s.totalTime = 0 ∧ s.sumMachineTime = 0

/-- What the first fill establishes and `hittingQueue` keeps. -/
theorem Warm.rule {s₀ : Scheduler} {s : LoopState} (h : Warm s₀ s) {I : Scheduler → Prop}
    (hfirst : ∀ times draws s₁, (s₀.getActualArrivalTime times).fillSequenceQueue 0 0 draws
      = .ok s₁ → I s₁.fillRunningQueue)
    (hhit : ∀ s s' draws, I s → s.hitting draws = .ok s' → I s') : I s.scheduler := by
  obtain ⟨times, draws, hits, hwarm, -, -⟩ := h
  obtain ⟨s₁, h₁, hok⟩ := Runs.bind_eq_ok hwarm
  clear hwarm
  have hI := hfirst times draws s₁ h₁
  generalize s₁.fillRunningQueue = sch at hI hok
  induction hits generalizing sch with
  | nil =>
    obtain rfl := Except.ok.inj hok
    exact hI
  | cons hitDraws hits ih =>
    obtain ⟨s₂, h₂, hok⟩ := Runs.bind_eq_ok hok
    exact ih s₂ (hhit _ _ _ hI h₂) hok

/-- Nothing waits. -/
structure Idle (s₀ s : Scheduler) : Prop where
  recorded : Recorded s₀ s
  empty : s.sequenceQueue = []

namespace Idle
variable {s₀ s s' : Scheduler}

theorem fill (hrate : s₀.systemConfig.useInjectRate = false) (hexact : s₀.Exact)
    (hs : Idle s₀ s) {iterTime totalTime : ℚ} {draws : List ℕ}
    (hok : s.fillSequenceQueue iterTime totalTime draws = .ok s') :
    Idle s₀ s'.fillRunningQueue := by
  have hset := hs.recorded.sameSetup
  refine ⟨(hs.recorded.fillSequenceQueue hok).fillRunningQueue, ?_⟩
  exact fill_empties hs.recorded (hexact.of_setup hset) (hset.systemConfig ▸ hrate) hs.empty hok

theorem hitting (hrate : s₀.systemConfig.useInjectRate = false) (hexact : s₀.Exact)
    (hs : Idle s₀ s) {draws : List ℕ} (hok : s.hitting draws = .ok s') : Idle s₀ s' := by
  obtain ⟨s₁, h₁, hok⟩ := Runs.bind_eq_ok hok
  obtain rfl := Except.ok.inj hok
  have hupdate : Idle s₀ (s.setMetadata.updateScheduler 0).1 :=
    ⟨hs.recorded.setMetadata.updateScheduler 0, hs.empty⟩
  exact hupdate.fill hrate hexact h₁

theorem iterates (hrate : s₀.systemConfig.useInjectRate = false) (hexact : s₀.Exact)
    {split : Bool} {s t : LoopState} {i : IterInput} (hs : Idle s₀ s.scheduler)
    (h : Iterates split s i t) : Idle s₀ t.scheduler := by
  have hset := hs.recorded.setMetadata
  rcases iterate_cases h.1 with ⟨-, rfl⟩ | ⟨-, hgen⟩ | ⟨-, -, rfl⟩
  · exact ⟨hset, hs.empty⟩
  · obtain ⟨s₁, h₁, hgen⟩ := Runs.bind_eq_ok hgen
    obtain rfl := Except.ok.inj hgen
    apply Idle.fill hrate hexact _ h₁
    constructor
    · exact ((hset.setTotalTime _).updateScheduler _).setGenStart _ _
    · exact hs.empty
  · exact ⟨(hset.updateSchedulerSumGenSplit _).setGenStart _ _, hs.empty⟩

end Idle

theorem visited_idle {s₀ : Scheduler} (hr : Recorded s₀ s₀) (hempty : s₀.sequenceQueue = [])
    (hrate : s₀.systemConfig.useInjectRate = false) (hexact : s₀.Exact) {split : Bool}
    {s : LoopState} (h : Runs.Reachable (Warm s₀) (Iterates split) s) : Idle s₀ s.scheduler := by
  refine h.invariant (I := fun s => Idle s₀ s.scheduler) ?_
    fun _ _ _ hs hstep => hs.iterates hrate hexact hstep
  intro s hwarm
  apply hwarm.rule
  · intro times draws s₁ h₁
    have hstart : Idle s₀ (s₀.getActualArrivalTime times) :=
      ⟨hr.getActualArrivalTime times, hempty⟩
    exact hstart.fill hrate hexact h₁
  · exact fun _ _ _ hs hok => hs.hitting hrate hexact hok

/-- A first sequence that waits makes the next hit exceed the total batch size. -/
theorem hitting_exceeds {s₀ s : Scheduler} (hr : Recorded s₀ s)
    (hrate : s.systemConfig.useInjectRate = false) (hreal : s.trace.realData = false)
    (ha : Accepted s.modelConfig) (hwait : s.sequenceQueue ≠ []) :
    ∃ s', s.hitting [] = .ok s' ∧ s.totalBatchSize < s'.load := by
  have hupdate := hr.setMetadata.updateScheduler 0
  obtain ⟨h, hb, -, hsch⟩ := hupdate
  have hroom : (s.setMetadata.updateScheduler 0).1.Roomy := hsch ▸ hb.room
  have hfits : (s.setMetadata.updateScheduler 0).1.Fits := hsch ▸ hb.fits
  obtain ⟨s₁, h₁, hload⟩ := load_fillSequenceQueue (s := (s.setMetadata.updateScheduler 0).1)
    hrate hreal ha (getBatchSize_le hroom hfits) 0 0 []
  refine ⟨s₁.fillRunningQueue, ?_, ?_⟩
  · unfold hitting
    rw [h₁]
    rfl
  · rw [load_fillRunningQueue, hload]
    have hpos := List.length_pos_of_ne_nil hwait
    change s.totalBatchSize < s.totalBatchSize + s.sequenceQueue.length
    omega

/-- A remainder of the batch sizes waits after the first fill. -/
theorem waiting_grows {s₀ : Scheduler} (hr : Recorded s₀ s₀) (hempty : s₀.load = 0)
    (hnone : s₀.sequenceQueue = [])
    (hrate : s₀.systemConfig.useInjectRate = false) (hreal : s₀.trace.realData = false)
    (ha : Accepted s₀.modelConfig) (htotal : 0 ≤ s₀.totalBatchSize) (hexact : ¬s₀.Exact) :
    ∃ s, Warm s₀ s ∧ s₀.totalBatchSize < s.scheduler.load := by
  have hsize : s₀.getBatchSize = 0 := by simpa [load, hnone] using hempty
  obtain ⟨s₁, h₁, hload⟩ := load_fillSequenceQueue (s := s₀.getActualArrivalTime [])
    hrate hreal ha (hsize.le.trans htotal) 0 0 []
  have hr₁ := ((hr.getActualArrivalTime []).fillSequenceQueue h₁).fillRunningQueue
  have hset := hr₁.sameSetup
  have hload₁ : s₁.fillRunningQueue.load = s₀.totalBatchSize := by
    rw [load_fillRunningQueue, hload]
    simp [getActualArrivalTime, hnone]
  have hwait : s₁.fillRunningQueue.sequenceQueue ≠ [] := by
    -- else all places would be taken exactly
    intro hnil
    obtain ⟨h, hb, -, hsch⟩ := hr₁
    have hroom : s₁.fillRunningQueue.Roomy := hsch ▸ hb.room
    have hfits : s₁.fillRunningQueue.Fits := hsch ▸ hb.fits
    have hle : s₁.fillRunningQueue.getBatchSize
        ≤ s₁.fillRunningQueue.runningQueue.length * s₁.fillRunningQueue.batchSizePerDp :=
      Residues.sum_le_length_mul hroom
    apply hexact
    unfold load at hload₁
    unfold Scheduler.Fits at hfits
    unfold Exact
    rw [hset.length, hset.batchSizePerDp] at hle hfits
    rw [hset.totalBatchSize] at hfits
    simp only [hnil, List.length_nil] at hload₁
    omega
  have ha₁ : Accepted s₁.fillRunningQueue.modelConfig := by
    have hmodel : s₁.fillRunningQueue.modelConfig = clampOutputLen s₀.modelConfig := by
      obtain ⟨k, hk⟩ := s₁.fillRunningQueue_moves
      obtain ⟨new, hnew⟩ := pushSeq_pushes h₁
      rw [hk.frame, hnew.frame]
      exact if_neg (by simp [getActualArrivalTime, hreal])
    obtain ⟨hin, hmax⟩ := clampOutputLen_fst s₀.modelConfig
    rw [hmodel]
    constructor
    · rw [hin, hmax]
      exact ha.input_lt
    · rw [hin]
      exact ha.input_pos
    · rw [clampOutputLen_clampOutputLen]
      exact ha.output_pos
  obtain ⟨s₂, h₂, hexceeds⟩ := hitting_exceeds hr₁ (hset.systemConfig ▸ hrate)
    (hset.trace ▸ hreal) ha₁ hwait
  refine ⟨{ scheduler := s₂ }, ⟨[], [], [[]], ?_, rfl, rfl⟩, ?_⟩
  · unfold warmUp
    rw [h₁]
    show s₁.fillRunningQueue.hittingQueue [[]] = _
    unfold hittingQueue
    rw [h₂]
    rfl
  · rw [← hset.totalBatchSize]
    exact hexceeds

theorem exact_create_iff (c : SystemConfig) (m : ModelConfig) (trace : ExpertTrace)
    (total maxBatched maxProcess : ℤ) (rotate countId : ℕ)
    (hdp : 1 ≤ (Scheduler.create c m trace total maxBatched maxProcess rotate countId).dpDegree) :
    (Scheduler.create c m trace total maxBatched maxProcess rotate countId).Exact ↔
      (Scheduler.create c m trace total maxBatched maxProcess rotate countId).dpDegree ∣ total := by
  let dp := (c.numDevice * c.numNode).tdiv m.neTpDg
  have hdp : 1 ≤ dp := hdp
  show ((List.replicate dp.toNat _).length : ℤ) * total.tdiv dp = total ↔ dp ∣ total
  rw [List.length_replicate, Int.toNat_of_nonneg (by omega)]
  constructor
  · intro h
    exact ⟨_, h.symm⟩
  · exact fun h => Int.mul_tdiv_cancel' h

/-- Without an injection rate, waiting and running sequences stay within `total_batch_size` in
all states that a run visits, if the batches divide it evenly. If they do not, every accepted
synthetic configuration exceeds it after one hit. -/
theorem waiting_bounded (c : SystemConfig) (m : ModelConfig) (trace : ExpertTrace)
    (total maxBatched maxProcess : ℤ) (rotate countId : ℕ) {s₀ : Scheduler}
    (hs₀ : s₀ = Scheduler.create c m trace total maxBatched maxProcess rotate countId)
    (htotal : 1 ≤ total) (hdp : 1 ≤ s₀.dpDegree) (hrate : c.useInjectRate = false) :
    (s₀.dpDegree ∣ total → ∀ split s, Runs.Reachable (Warm s₀) (Iterates split) s →
      s.scheduler.sequenceQueue.length + s.scheduler.getBatchSize ≤ total) ∧
    (trace.realData = false → Accepted m → ¬s₀.dpDegree ∣ total → ∃ s, Warm s₀ s ∧
      total < s.scheduler.sequenceQueue.length + s.scheduler.getBatchSize) := by
  subst hs₀
  have hr : Recorded _ _ :=
    ⟨_, Bookkeeping.create c m trace total maxBatched maxProcess rotate countId (by omega) hdp,
      .refl _, rfl⟩
  have hexact := exact_create_iff c m trace total maxBatched maxProcess rotate countId hdp
  constructor
  · intro hdvd split s hs
    have hidle := visited_idle hr rfl hrate (hexact.mpr hdvd) hs
    obtain ⟨h, hb, hset, hsch⟩ := hidle.recorded
    have hsize := getBatchSize_le (hsch ▸ hb.room) (hsch ▸ hb.fits)
    rw [hset.totalBatchSize] at hsize
    simp only [hidle.empty, List.length_nil, Nat.cast_zero, zero_add]
    exact hsize
  · intro hreal ha hdvd
    have hzero : (Scheduler.create c m trace total maxBatched maxProcess rotate countId).load
        = 0 := by
      unfold load getBatchSize Scheduler.create initRunningQueue
      simp [BatchedSequence.create, BatchedSequence.getNumSeq]
    exact waiting_grows hr hzero rfl hrate hreal ha (by
      show 0 ≤ total
      omega) fun h => hdvd (hexact.mp h)

/-- Two batches of one place each. -/
theorem waiting_bounded_two_batches : ∃ s,
    Warm (Scheduler.create { numNode := 1, numDevice := 2 }
      { maxSeqLen := 8, inputLen := 2, outputLen := 3 } {} 2 64 64 0 0) s ∧
    s.scheduler.sequenceQueue.length + s.scheduler.getBatchSize ≤ 2 := by
  have hwarm : Warm (Scheduler.create { numNode := 1, numDevice := 2 }
      { maxSeqLen := 8, inputLen := 2, outputLen := 3 } {} 2 64 64 0 0) { scheduler := _ } :=
    ⟨[], [], [[]], rfl, rfl, rfl⟩
  exact ⟨_, hwarm, (waiting_bounded _ _ _ 2 64 64 0 0 rfl (by decide) (by decide) rfl).1
    (by decide) false _ ⟨_, [], hwarm, .nil _⟩⟩

/-- Two batches of one place each for a total of three: one sequence waits, then two. -/
theorem waiting_exceeds : ∃ s,
    Warm (Scheduler.create { numNode := 1, numDevice := 2 }
      { maxSeqLen := 8, inputLen := 2, outputLen := 3 } {} 3 64 64 0 0) s ∧
    3 < s.scheduler.sequenceQueue.length + s.scheduler.getBatchSize :=
  ⟨{ scheduler := _ }, ⟨[], [], [[]], rfl, rfl, rfl⟩, by decide⟩

end Cluster
end LlmSystem
