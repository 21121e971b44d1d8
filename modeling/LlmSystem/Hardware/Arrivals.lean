import LlmSystem.Hardware.Waiting
import LlmSystem.Lib.Windows

/-!
Requests injected by rate. An iteration counts the arrivals of its window, from the clock before
it to the clock after it, and the pushed sequences take their arrival times from a running index.
-/
namespace LlmSystem

open Scheduler

namespace Scheduler

theorem applyModes_times (c : SystemConfig) (n : ℤ) (t : Sequence) :
    (applyModes c n t).arrivalTime = t.arrivalTime ∧
      (applyModes c n t).queueingDelay = t.queueingDelay := by
  unfold applyModes
  dsimp only
  split_ifs <;> exact ⟨rfl, rfl⟩

/-- A push queues one sequence with the next arrival time, or nothing. -/
theorem pushDummySeq_arrival {i o : ℤ} {s s' : Scheduler} (h : s.pushDummySeq i o = .ok s') :
    s'.totalTime = s.totalTime ∧ s'.actualArrivalTime = s.actualArrivalTime ∧
      ((o = 0 ∧ s' = s) ∨ (s'.curArrivalTimeIdx = s.takeArrival.2 ∧
        ∃ t, s'.sequenceQueue = s.sequenceQueue ++ [t] ∧ t.arrivalTime = s.takeArrival.1)) := by
  unfold pushDummySeq at h
  split_ifs at h with ho
  · obtain rfl := Except.ok.inj h
    exact ⟨rfl, rfl, .inl ⟨ho, rfl⟩⟩
  · obtain ⟨seq, hseq, h⟩ := Runs.bind_eq_ok h
    obtain rfl := Except.ok.inj h
    exact ⟨rfl, rfl, .inr ⟨rfl, _, rfl, (applyModes_times _ _ _).1⟩⟩

/-- In the timed run, pushed sequences take consecutive arrival times. -/
theorem pushDummySeqs_arrivals {i o : ℤ} (ho : o ≠ 0) (n : ℕ) {s s' : Scheduler} {k : ℕ}
    (hclock : 0 < s.totalTime) (hidx : s.curArrivalTimeIdx = k)
    (h : pushDummySeqs i o n s = .ok s') :
    s'.curArrivalTimeIdx = (k + n : ℕ) ∧ ∃ new, s'.sequenceQueue = s.sequenceQueue ++ new ∧
      new.map (·.arrivalTime)
        = (List.range' k n).map fun j => (s.actualArrivalTime[j]?).getD 1 := by
  induction n generalizing s k with
  | zero =>
    obtain rfl := Except.ok.inj h
    exact ⟨hidx, [], by simp⟩
  | succ n ih =>
    obtain ⟨s₁, h₁, h⟩ := Runs.bind_eq_ok h
    obtain ⟨htime, harrivals, hone⟩ := pushDummySeq_arrival h₁
    obtain ⟨hidx₁, t, hqueue₁, ht⟩ := hone.resolve_left fun h => ho h.1
    have htake : s.takeArrival = ((s.actualArrivalTime[k]?).getD 1, (k : ℤ) + 1) := by
      unfold takeArrival
      rw [if_pos hclock, hidx]
      simp
    obtain ⟨hnext, new, hqueue, harr⟩ := ih (k := k + 1) (htime ▸ hclock)
      (by rw [hidx₁, htake]; simp) h
    refine ⟨by rw [hnext]; congr 1; omega, t :: new, ?_, ?_⟩
    · rw [hqueue, hqueue₁]
      simp
    · rw [List.map_cons, harr, ht, htake, harrivals, List.range'_succ, List.map_cons]

/-- Before it, they arrive at 0 and the index stays. -/
theorem pushDummySeqs_early {i o : ℤ} (n : ℕ) {s s' : Scheduler} (hclock : s.totalTime = 0)
    (h : pushDummySeqs i o n s = .ok s') :
    s'.curArrivalTimeIdx = s.curArrivalTimeIdx ∧ ∃ new, s'.sequenceQueue = s.sequenceQueue ++ new ∧
      ∀ t ∈ new, t.arrivalTime = 0 := by
  induction n generalizing s with
  | zero =>
    obtain rfl := Except.ok.inj h
    exact ⟨rfl, [], by simp⟩
  | succ n ih =>
    obtain ⟨s₁, h₁, h⟩ := Runs.bind_eq_ok h
    obtain ⟨htime, -, hone⟩ := pushDummySeq_arrival h₁
    obtain ⟨hnext, new, hqueue, harr⟩ := ih (htime.trans hclock) h
    rcases hone with ⟨-, rfl⟩ | ⟨hidx₁, t, hqueue₁, ht⟩
    · exact ⟨hnext, new, hqueue, harr⟩
    · have htake : s.takeArrival = (0, s.curArrivalTimeIdx) := by
        unfold takeArrival
        rw [if_neg (by simp [hclock])]
      refine ⟨by rw [hnext, hidx₁, htake], t :: new, ?_, ?_⟩
      · rw [hqueue, hqueue₁]
        simp
      · exact List.forall_mem_cons.mpr ⟨by rw [ht, htake], harr⟩

theorem fillSequenceQueue_eq {s : Scheduler} (hreal : s.trace.realData = false)
    {iterTime totalTime : ℚ} {draws : List ℕ} {s' : Scheduler}
    (h : s.fillSequenceQueue iterTime totalTime draws = .ok s') :
    pushDummySeqs (clampOutputLen s.modelConfig).inputLen (clampOutputLen s.modelConfig).outputLen
      (s.numRequestToInject iterTime totalTime).toNat
      { s with modelConfig := clampOutputLen s.modelConfig } = .ok s' := by
  unfold fillSequenceQueue pushSeq at h
  rw [if_neg (by simp [hreal])] at h
  split_ifs at h
  exact h

/-- The number of arrivals in the window of an iteration. -/
theorem numRequestToInject_timed {s : Scheduler} (hrate : s.systemConfig.useInjectRate = true)
    {iterTime totalTime : ℚ} (hne : iterTime ≠ 0) :
    (s.numRequestToInject iterTime totalTime).toNat = s.actualArrivalTime.countP
      fun t => decide (totalTime - iterTime ≤ t ∧ t < totalTime) := by
  unfold numRequestToInject
  rw [if_pos hrate, if_pos hne, Int.toNat_natCast]

/-- A predicate that an iteration keeps of the sequences that it neither pushes nor admits. -/
structure Steady (P : Sequence → Prop) : Prop where
  assign : ∀ {t : Sequence} {n : ℤ}, P t → P { t with numProcessToken := n }
  gen : ∀ {t : Sequence} {time : ℚ}, P t → P (t.setGenStartTime time)
  update : ∀ {t t' : Sequence} {time : ℚ}, P t → settle (t.update time) = some t' → P t'

namespace Steady
variable {P : Sequence → Prop} {s : Scheduler}

theorem setMetadata (hP : Steady P) (hs : s.All P) : s.setMetadata.All P := by
  apply all_mapRunning hs
  intro b t ht
  obtain ⟨n, hn⟩ := s.assignTokens_eq b t
  change P (s.assignTokens b t)
  rw [hn]
  exact hP.assign ht

theorem setGenStart (hP : Steady P) (hs : s.All P) (tokens : List Sequence) (time : ℚ) :
    (s.setGenStart tokens time).All P := by
  apply all_mapRunning hs
  intro _ t ht
  split_ifs
  · exact hP.gen ht
  · exact ht

theorem updateScheduler (hP : Steady P) (hd : s.DistinctIds) (hs : s.All P) (time : ℚ) :
    (s.updateScheduler time).1.All P := all_updateScheduler hd hs fun _ _ ht => hP.update ht

theorem updateSchedulerSumGenSplit (hP : Steady P) (hd : s.DistinctIds) (hs : s.All P)
    (time : ℚ) : (s.updateSchedulerSumGenSplit time).1.All P := by
  rw [updateSchedulerSumGenSplit_eq hd]
  apply all_serveAll hs
  intro t t' ht hkeep
  rw [settle_setGenStartTime, Option.map_eq_some_iff] at hkeep
  obtain ⟨u, hu, rfl⟩ := hkeep
  exact hP.gen (hP.update ht hu)

end Steady

/-- The sequence arrived by `time`, and its delay is not negative. -/
def Punctual (time : ℚ) (t : Sequence) : Prop := t.arrivalTime ≤ time ∧ 0 ≤ t.queueingDelay

theorem settle_times {t t' : Sequence} (h : settle t = some t') :
    t'.arrivalTime = t.arrivalTime ∧ t'.queueingDelay = t.queueingDelay := by
  unfold settle at h
  split_ifs at h <;> (obtain rfl := Option.some.inj h; exact ⟨rfl, rfl⟩)

theorem update_times (t : Sequence) (time : ℚ) :
    (t.update time).arrivalTime = t.arrivalTime ∧
      (t.update time).queueingDelay = t.queueingDelay := by
  unfold Sequence.update Sequence.advance Sequence.addTime
  dsimp only
  split_ifs <;> exact ⟨rfl, rfl⟩

theorem steady_punctual (time : ℚ) : Steady (Punctual time) where
  assign h := h
  gen h := h
  update h hkeep := by
    obtain ⟨harr, hdelay⟩ := settle_times hkeep
    unfold Punctual
    rw [harr, hdelay, (update_times _ _).1, (update_times _ _).2]
    exact h

theorem Started.queueingDelay {c : SystemConfig} {m : ModelConfig} {trace : ExpertTrace}
    {t : Sequence} (ht : Started c m trace t) : t.queueingDelay = 0 := by
  cases ht with
  | dummy id arrival => exact (applyModes_times c m.inputLen (dummySeq m id arrival)).2
  | real => rfl

/-- An admission stamps the time since the arrival. -/
theorem punctual_fillRunningQueue {s : Scheduler} (hs : s.All (Punctual s.totalTime)) :
    s.fillRunningQueue.All (Punctual s.totalTime) := by
  apply all_fillRunningQueue hs
  rintro t ⟨harr, hdelay⟩
  unfold stampDelay
  split_ifs
  · refine ⟨harr, ?_⟩
    change 0 ≤ s.totalTime - t.arrivalTime
    linarith
  · exact ⟨harr, hdelay⟩

/-- A push of sequences that arrived by `time`. -/
theorem punctual_fillSequenceQueue {s s' : Scheduler} {time iterTime totalTime : ℚ}
    {draws : List ℕ} (hs : s.All (Punctual time))
    (hok : s.fillSequenceQueue iterTime totalTime draws = .ok s') {new : List Sequence}
    (hqueue : s'.sequenceQueue = s.sequenceQueue ++ new)
    (harr : ∀ t ∈ new, t.arrivalTime ≤ time) : s'.All (Punctual time) := by
  obtain ⟨new', hnew⟩ := pushSeq_pushes hok
  have hsame : s.sequenceQueue ++ new = s.sequenceQueue ++ new' := by
    rw [← hqueue, hnew.frame]
  obtain rfl := List.append_cancel_left hsame
  constructor
  · intro t ht
    rw [hqueue] at ht
    rcases List.mem_append.mp ht with ht | ht
    · exact hs.1 t ht
    · exact ⟨harr t ht, (hnew.all t ht).queueingDelay.ge⟩
  · rw [hnew.frame]
    exact hs.2

/-- The configuration lets a push queue sequences. -/
def Pushable (s₀ : Scheduler) : Prop := 0 < (clampOutputLen s₀.modelConfig).outputLen

theorem Started.pushable {s₀ s : Scheduler} (hset : SameSetup s₀ s)
    (hreal : s₀.trace.realData = false) {t : Sequence}
    (ht : Started s.systemConfig s.pushModel s.trace t) : Pushable s₀ := by
  have hreal' : s.trace.realData = false := hset.trace ▸ hreal
  have hmodel : s.pushModel = clampOutputLen s.modelConfig := by simp [pushModel, hreal']
  cases ht with
  | dummy id arrival _ hmax hin hout =>
    rw [hmodel, hset.model] at hout
    exact hout
  | real id seqId info hreal'' => exact absurd (hreal'.symm.trans hreal'') (by simp)

theorem steady_pushable (s₀ : Scheduler) : Steady fun _ => Pushable s₀ := ⟨id, id, fun h _ => h⟩

end Scheduler

namespace Cluster

/-! ### The calls of `fillSequenceQueue` -/

/-- The iteration reaches `fillSequenceQueue`. -/
def fills (split : Bool) (s : LoopState) : Bool :=
  decide (s.scheduler.setMetadata.getNumProcessToken ≠ 0) &&
    !(split && s.scheduler.setMetadata.hasSumSeq)

/-- The scheduler on which it is called. -/
def beforeFill (s : LoopState) (i : IterInput) : Scheduler :=
  let totalTime := s.totalTime + i.deviceTime
  let (sch, tokens) :=
    { s.scheduler.setMetadata with totalTime := totalTime }.updateScheduler i.deviceTime
  sch.setGenStart tokens totalTime

/-- The window of the call, as the source computes it from its arguments. -/
def window (split : Bool) (s : LoopState) (i : IterInput) : List (ℚ × ℚ) :=
  if fills split s then
    [(s.totalTime + i.deviceTime - i.deviceTime, s.totalTime + i.deviceTime)]
  else []

/-- The sequences that the call pushes. -/
def injects (split : Bool) (s : LoopState) (i : IterInput) : List Sequence :=
  if fills split s then
    match (beforeFill s i).fillSequenceQueue i.deviceTime (s.totalTime + i.deviceTime) i.draws with
    | .ok sch => sch.sequenceQueue.drop (beforeFill s i).sequenceQueue.length
    | .error _ => []
  else []

/-- The windows of all calls of a run, in their order. -/
def windows (split : Bool) (s : LoopState) (inputs : List IterInput) : List (ℚ × ℚ) :=
  Runs.log (iterate split) (window split) s inputs

/-- All sequences that they push, in their order. -/
def injected (split : Bool) (s : LoopState) (inputs : List IterInput) : List Sequence :=
  Runs.log (iterate split) (injects split) s inputs

/-- An iteration calls `fillSequenceQueue`, or leaves the clock alone. -/
theorem iterate_fills {split : Bool} {s t : LoopState} {i : IterInput}
    (h : iterate split s i = .ok t) :
    (fills split s = true ∧ s.scheduler.setMetadata.getNumProcessToken ≠ 0 ∧ ∃ sch,
      (beforeFill s i).fillSequenceQueue i.deviceTime (s.totalTime + i.deviceTime) i.draws
        = .ok sch ∧ t = { s with
          scheduler := sch.fillRunningQueue, totalTime := s.totalTime + i.deviceTime }) ∨
    (fills split s = false ∧ (t = { s with scheduler := s.scheduler.setMetadata } ∨
      t = summarize s s.scheduler.setMetadata i)) := by
  have hgenerate : s.scheduler.setMetadata.getNumProcessToken ≠ 0 →
      generate s s.scheduler.setMetadata i = .ok t →
      s.scheduler.setMetadata.getNumProcessToken ≠ 0 ∧ ∃ sch,
        (beforeFill s i).fillSequenceQueue i.deviceTime (s.totalTime + i.deviceTime) i.draws
          = .ok sch ∧ t = { s with
            scheduler := sch.fillRunningQueue, totalTime := s.totalTime + i.deviceTime } := by
    intro hne hok
    obtain ⟨sch, hsch, hok⟩ := Runs.bind_eq_ok hok
    exact ⟨hne, sch, hsch, (Except.ok.inj hok).symm⟩
  unfold iterate runIterationSumGenSplit runIterationMixed at h
  dsimp only at h
  split_ifs at h with hsplit hzero hgen hzero
  · exact .inr ⟨by simp [fills, hzero], .inl (Except.ok.inj h).symm⟩
  · have hgen : s.scheduler.setMetadata.hasSumSeq = false := by simpa using hgen
    exact .inl ⟨by simp [fills, hzero, hgen], hgenerate hzero h⟩
  · have hsum : s.scheduler.setMetadata.hasSumSeq = true := by simpa using hgen
    exact .inr ⟨by simp [fills, hsplit, hsum], .inr (Except.ok.inj h).symm⟩
  · exact .inr ⟨by simp [fills, hzero], .inl (Except.ok.inj h).symm⟩
  · exact .inl ⟨by simp [fills, hzero, hsplit], hgenerate hzero h⟩

theorem recorded_beforeFill {s₀ : Scheduler} {s : LoopState} (hr : Recorded s₀ s.scheduler)
    (i : IterInput) : Recorded s₀ (beforeFill s i) :=
  ((hr.setMetadata.setTotalTime _).updateScheduler _).setGenStart _ _

theorem all_beforeFill {s₀ : Scheduler} {P : Sequence → Prop} (hP : Steady P) {s : LoopState}
    (hr : Recorded s₀ s.scheduler) (hs : s.scheduler.All P) (i : IterInput) :
    (beforeFill s i).All P := by
  apply hP.setGenStart
  apply hP.updateScheduler (hr.setMetadata.setTotalTime _).distinctIds
  exact hP.setMetadata hs

/-! ### Runs -/

/-- Before the timed run: nothing has been taken from the arrival times. -/
structure Untimed (s₀ s : Scheduler) : Prop where
  recorded : Recorded s₀ s
  clock : s.totalTime = 0
  index : s.curArrivalTimeIdx = 0
  punctual : s.All (Punctual 0)
  pushable : s.All fun _ => Pushable s₀

theorem Untimed.fill {s₀ s s' : Scheduler} (hreal : s₀.trace.realData = false)
    (hs : Untimed s₀ s) {draws : List ℕ} (hok : s.fillSequenceQueue 0 0 draws = .ok s') :
    Untimed s₀ s'.fillRunningQueue := by
  have hset := hs.recorded.sameSetup
  have hpush := fillSequenceQueue_eq (hset.trace ▸ hreal) hok
  obtain ⟨hidx, new, hqueue, harr⟩ := pushDummySeqs_early
    (s := { s with modelConfig := clampOutputLen s.modelConfig }) _ hs.clock hpush
  obtain ⟨new', hnew⟩ := pushSeq_pushes hok
  obtain ⟨k, hk⟩ := s'.fillRunningQueue_moves
  have hclock : s'.totalTime = 0 := by
    rw [hnew.frame]
    exact hs.clock
  constructor
  · exact (hs.recorded.fillSequenceQueue hok).fillRunningQueue
  · rw [hk.frame]
    exact hclock
  · rw [hk.frame]
    exact hidx.trans hs.index
  · have hpunctual := punctual_fillSequenceQueue hs.punctual hok hqueue fun t ht => (harr t ht).le
    rw [← hclock] at hpunctual ⊢
    exact punctual_fillRunningQueue hpunctual
  · apply all_fillRunningQueue _ fun _ h => h
    exact all_fillSequenceQueue hs.pushable (fun t ht => ht.pushable hset hreal) hok

theorem Warm.untimed {s₀ : Scheduler} (hr : Recorded s₀ s₀) (hclock : s₀.totalTime = 0)
    (hnone : ∀ P, s₀.All P) (hreal : s₀.trace.realData = false) {s : LoopState}
    (h : Warm s₀ s) : Untimed s₀ s.scheduler := by
  apply h.rule
  · intro times draws s₁ h₁
    have hstart : Untimed s₀ (s₀.getActualArrivalTime times) :=
      ⟨hr.getActualArrivalTime times, hclock, rfl, hnone _, hnone _⟩
    exact hstart.fill hreal h₁
  · intro s s' draws hs hok
    obtain ⟨s₁, h₁, hok⟩ := Runs.bind_eq_ok hok
    obtain rfl := Except.ok.inj hok
    have hset := hs.recorded.setMetadata
    have hupdate : Untimed s₀ (s.setMetadata.updateScheduler 0).1 := by
      constructor
      · exact hset.updateScheduler 0
      · exact hs.clock
      · exact hs.index
      · exact (steady_punctual 0).updateScheduler hset.distinctIds
          ((steady_punctual 0).setMetadata hs.punctual) 0
      · exact (steady_pushable s₀).updateScheduler hset.distinctIds
          ((steady_pushable s₀).setMetadata hs.pushable) 0
    exact hupdate.fill hreal h₁

/-- In the timed run, with the windows and the pushed sequences so far. -/
structure Timed (s₀ : Scheduler) (arrivals : List ℚ) (wins : List (ℚ × ℚ))
    (seqs : List Sequence) (s : LoopState) : Prop where
  recorded : Recorded s₀ s.scheduler
  clock : s.scheduler.totalTime = s.totalTime
  times : s.scheduler.actualArrivalTime = arrivals
  index : s.scheduler.curArrivalTimeIdx = seqs.length
  tiles : Windows.Tiles 0 wins s.totalTime
  count : seqs.length = arrivals.countP fun t => decide (t < s.totalTime)
  stamps : seqs.map (·.arrivalTime) = arrivals.take seqs.length
  punctual : s.scheduler.All (Punctual s.totalTime)
  pushable : s.scheduler.All fun _ => Pushable s₀

namespace Timed
variable {s₀ : Scheduler} {arrivals : List ℚ} {wins : List (ℚ × ℚ)} {seqs : List Sequence}
  {s t : LoopState} {i : IterInput}

/-- An iteration that does not call `fillSequenceQueue`. -/
theorem idle (hs : Timed s₀ arrivals wins seqs s)
    (h : t = { s with scheduler := s.scheduler.setMetadata } ∨
      t = summarize s s.scheduler.setMetadata i) : Timed s₀ arrivals wins seqs t := by
  have hset := hs.recorded.setMetadata
  have hall : ∀ {P : Sequence → Prop}, Steady P → s.scheduler.All P → t.scheduler.All P := by
    intro P hP hall
    rcases h with rfl | rfl
    · exact hP.setMetadata hall
    · exact hP.setGenStart
        (hP.updateSchedulerSumGenSplit hset.distinctIds (hP.setMetadata hall) _) _ _
  have htime : t.totalTime = s.totalTime := by rcases h with rfl | rfl <;> rfl
  constructor
  · rcases h with rfl | rfl
    · exact hset
    · exact (hset.updateSchedulerSumGenSplit _).setGenStart _ _
  · rcases h with rfl | rfl <;> exact hs.clock
  · rcases h with rfl | rfl <;> exact hs.times
  · rcases h with rfl | rfl <;> exact hs.index
  · exact htime ▸ hs.tiles
  · exact htime ▸ hs.count
  · exact hs.stamps
  · exact htime ▸ hall (steady_punctual _) hs.punctual
  · exact hall (steady_pushable s₀) hs.pushable

/-- Tokens are assigned only if some sequence was pushed. -/
theorem pushes (hs : Timed s₀ arrivals wins seqs s)
    (htokens : s.scheduler.setMetadata.getNumProcessToken ≠ 0) : Pushable s₀ := by
  by_contra hnot
  apply htokens
  have hnone : ∀ b ∈ s.scheduler.setMetadata.runningQueue, b.sequence = [] := by
    intro b hb
    apply List.eq_nil_iff_forall_not_mem.mpr
    intro u hu
    exact hnot (((steady_pushable s₀).setMetadata hs.pushable).2 b hb u hu)
  apply List.sum_eq_zero
  intro n hn
  obtain ⟨b, hb, rfl⟩ := List.mem_map.mp hn
  simp [BatchedSequence.getProcessToken, hnone b hb]

/-- An iteration that calls it pushes the arrivals of its window. -/
theorem fill (hrate : s₀.systemConfig.useInjectRate = true) (hreal : s₀.trace.realData = false)
    (hsorted : arrivals.Pairwise (· ≤ ·))
    (hs : Timed s₀ arrivals wins seqs s)
    (htokens : s.scheduler.setMetadata.getNumProcessToken ≠ 0) (hpos : 0 < i.deviceTime)
    {sch : Scheduler} (hok : (beforeFill s i).fillSequenceQueue i.deviceTime
      (s.totalTime + i.deviceTime) i.draws = .ok sch) :
    Timed s₀ arrivals
      (wins ++ [(s.totalTime + i.deviceTime - i.deviceTime, s.totalTime + i.deviceTime)])
      (seqs ++ sch.sequenceQueue.drop (beforeFill s i).sequenceQueue.length)
      { s with scheduler := sch.fillRunningQueue, totalTime := s.totalTime + i.deviceTime } := by
  have hr := recorded_beforeFill hs.recorded i
  have hset := hr.sameSetup
  have hzero := hs.tiles.le
  have hlater : s.totalTime ≤ s.totalTime + i.deviceTime := by linarith
  have hstart : s.totalTime + i.deviceTime - i.deviceTime = s.totalTime := by ring
  have hclock : 0 < (beforeFill s i).totalTime := by
    change 0 < s.totalTime + i.deviceTime
    linarith
  have hidx : (beforeFill s i).curArrivalTimeIdx = seqs.length := hs.index
  have harrivals : (beforeFill s i).actualArrivalTime = arrivals := hs.times
  have hout : (clampOutputLen (beforeFill s i).modelConfig).outputLen ≠ 0 := by
    have hpush : 0 < (clampOutputLen s₀.modelConfig).outputLen := hs.pushes htokens
    rw [hset.model]
    omega
  have hpush := fillSequenceQueue_eq (hset.trace ▸ hreal) hok
  set n := arrivals.countP fun t => decide (s.totalTime ≤ t ∧ t < s.totalTime + i.deviceTime)
    with hn
  have hask : ((beforeFill s i).numRequestToInject i.deviceTime
      (s.totalTime + i.deviceTime)).toNat = n := by
    rw [numRequestToInject_timed (hset.systemConfig ▸ hrate) hpos.ne', harrivals, hstart]
  rw [hask] at hpush
  obtain ⟨hnext, new, hqueue, harr⟩ := pushDummySeqs_arrivals
    (s := { beforeFill s i with modelConfig := clampOutputLen (beforeFill s i).modelConfig })
    hout n hclock hidx hpush
  have hqueue : sch.sequenceQueue = (beforeFill s i).sequenceQueue ++ new := hqueue
  have harr : new.map (·.arrivalTime)
      = (List.range' seqs.length n).map fun j => (arrivals[j]?).getD 1 := by
    rw [← harrivals]
    exact harr
  have hlen : new.length = n := by simpa using congrArg List.length harr
  have hdrop : sch.sequenceQueue.drop (beforeFill s i).sequenceQueue.length = new := by
    rw [hqueue, List.drop_left]
  have hcount : seqs.length + n
      = arrivals.countP fun t => decide (t < s.totalTime + i.deviceTime) := by
    rw [Windows.countP_lt_add hlater, hs.count]
  obtain ⟨new', hnew⟩ := pushSeq_pushes hok
  obtain ⟨k, hk⟩ := sch.fillRunningQueue_moves
  have htime : sch.totalTime = s.totalTime + i.deviceTime := by
    rw [hnew.frame]
    rfl
  -- every pushed sequence arrived in the window, so before the new clock
  have hearly : ∀ u ∈ new, u.arrivalTime ≤ s.totalTime + i.deviceTime := by
    intro u hu
    have hmem : u.arrivalTime ∈ new.map (·.arrivalTime) := List.mem_map_of_mem hu
    rw [harr] at hmem
    obtain ⟨j, hj, heq⟩ := List.mem_map.mp hmem
    have hj : j < arrivals.countP fun t => decide (t < s.totalTime + i.deviceTime) := by
      rw [← hcount]
      exact (List.mem_range'_1.mp hj).2
    have hlt : j < arrivals.length := hj.trans_le List.countP_le_length
    have hget : arrivals[j]? = some u.arrivalTime := by
      rw [List.getElem?_eq_getElem hlt] at heq ⊢
      exact congrArg some heq
    exact (Windows.lt_of_lt_countP hsorted hj hget).le
  rw [hdrop]
  constructor
  · exact (hr.fillSequenceQueue hok).fillRunningQueue
  · change sch.fillRunningQueue.totalTime = _
    rw [hk.frame]
    exact htime
  · change sch.fillRunningQueue.actualArrivalTime = _
    rw [hk.frame, hnew.frame]
    exact harrivals
  · change sch.fillRunningQueue.curArrivalTimeIdx = _
    rw [hk.frame, List.length_append, hlen]
    exact hnext
  · rw [hstart]
    exact hs.tiles.snoc hlater
  · rw [List.length_append, hlen]
    exact hcount
  · rw [List.map_append, hs.stamps, harr, List.length_append, hlen]
    apply Windows.take_append_range'
    rw [hcount]
    exact List.countP_le_length
  · have hbefore : (beforeFill s i).All (Punctual (s.totalTime + i.deviceTime)) := by
      have hnow := all_beforeFill (steady_punctual _) hs.recorded hs.punctual i
      exact ⟨fun u hu => ⟨(hnow.1 u hu).1.trans hlater, (hnow.1 u hu).2⟩,
        fun b hb u hu => ⟨(hnow.2 b hb u hu).1.trans hlater, (hnow.2 b hb u hu).2⟩⟩
    have hpunctual := punctual_fillSequenceQueue hbefore hok hqueue hearly
    change sch.fillRunningQueue.All (Punctual (s.totalTime + i.deviceTime))
    rw [← htime] at hpunctual ⊢
    exact punctual_fillRunningQueue hpunctual
  · apply all_fillRunningQueue _ fun _ h => h
    apply all_fillSequenceQueue _ (fun u hu => hu.pushable hset hreal) hok
    exact all_beforeFill (steady_pushable s₀) hs.recorded hs.pushable i

end Timed

/-- With an injection rate and the synthetic trace, from every warmed-up state and over every
run of either loop: the windows of the calls of `fillSequenceQueue` partition the time so far,
as many sequences are pushed as requests have arrived, the `k`-th of them with the `k`-th
arrival time, and no delay of a running sequence is negative. -/
theorem arrivals_injected (c : SystemConfig) (m : ModelConfig) (trace : ExpertTrace)
    (total maxBatched maxProcess : ℤ) (rotate countId : ℕ) {s₀ : Scheduler}
    (hs₀ : s₀ = Scheduler.create c m trace total maxBatched maxProcess rotate countId)
    (htotal : 0 ≤ total) (hdp : 1 ≤ s₀.dpDegree) (hrate : c.useInjectRate = true)
    (hreal : trace.realData = false) (split : Bool) {s t : LoopState} (hwarm : Warm s₀ s)
    (hnonneg : ∀ a ∈ s.scheduler.actualArrivalTime, 0 ≤ a)
    (hsorted : s.scheduler.actualArrivalTime.Pairwise (· ≤ ·)) {inputs : List IterInput}
    (hrun : Runs.Run (Iterates split) s inputs t) :
    (∀ x, ((windows split s inputs).countP fun w => decide (w.1 ≤ x ∧ x < w.2))
      = if 0 ≤ x ∧ x < t.totalTime then 1 else 0) ∧
    (injected split s inputs).length
      = s.scheduler.actualArrivalTime.countP (fun a => decide (a < t.totalTime)) ∧
    (∀ (k : ℕ) (u : Sequence), (injected split s inputs)[k]? = some u →
      s.scheduler.actualArrivalTime[k]? = some u.arrivalTime) ∧
    ∀ b ∈ t.scheduler.runningQueue, ∀ u ∈ b.sequence, 0 ≤ u.queueingDelay := by
  have hr : Recorded s₀ s₀ := by
    subst hs₀
    exact ⟨_, Bookkeeping.create c m trace total maxBatched maxProcess rotate countId htotal hdp,
      .refl _, rfl⟩
  have hrate : s₀.systemConfig.useInjectRate = true := by
    subst hs₀
    exact hrate
  have hreal : s₀.trace.realData = false := by
    subst hs₀
    exact hreal
  have hun : Untimed s₀ s.scheduler := by
    apply hwarm.untimed hr _ _ hreal
    · subst hs₀
      rfl
    · intro P
      subst hs₀
      exact all_create P c m trace total maxBatched maxProcess rotate countId
  have hclock : s.totalTime = 0 := by
    obtain ⟨-, -, -, -, htime, -⟩ := hwarm
    exact htime
  have hstart : Timed s₀ s.scheduler.actualArrivalTime [] [] s := by
    constructor
    · exact hun.recorded
    · exact hun.clock.trans hclock.symm
    · rfl
    · exact hun.index
    · rw [hclock]
      exact .nil
    · symm
      apply List.countP_eq_zero.mpr
      intro a ha
      simp only [hclock, decide_eq_true_eq, not_lt]
      exact hnonneg a ha
    · rfl
    · rw [hclock]
      exact hun.punctual
    · exact hun.pushable
  have htimed : Timed s₀ s.scheduler.actualArrivalTime (windows split s inputs)
      (injected split s inputs) t := by
    apply hrun.invariant_trace (I := fun is u => Timed s₀ s.scheduler.actualArrivalTime
      (windows split s is) (injected split s is) u) hstart
    intro is u i v hpre hu hstep
    have hpre' := hpre.mono fun _ _ _ h => h.1
    unfold windows injected
    rw [Runs.log_append _ hpre', Runs.log_append _ hpre']
    rcases iterate_fills hstep.1 with ⟨hfills, htokens, sch, hok, rfl⟩ | ⟨hfills, hidle⟩
    · have hnext := hu.fill hrate hreal hsorted htokens (hstep.2 htokens) hok
      simp only [window, injects, hfills, ↓reduceIte, hok]
      exact hnext
    · simp only [window, injects, hfills, Bool.false_eq_true, ↓reduceIte, List.append_nil]
      exact hu.idle hidle
  refine ⟨htimed.tiles.countP, htimed.count, ?_, fun b hb u hu => (htimed.punctual.2 b hb u hu).2⟩
  intro k u hu
  have hlt : k < (injected split s inputs).length := (List.getElem?_eq_some_iff.mp hu).1
  have hget := congrArg (·[k]?) htimed.stamps
  simp only [List.getElem?_map, hu, Option.map_some, List.getElem?_take, if_pos hlt] at hget
  exact hget.symm

/-- Arrivals at 3 and 5. -/
def twoArrivals : Scheduler :=
  Scheduler.create { numNode := 1, numDevice := 1, useInjectRate := true }
    { maxSeqLen := 8, inputLen := 2, outputLen := 3 } {} 2 64 64 0 0

/-- An iteration of length 4 injects the first. -/
theorem arrivals_injected_one_call : ∃ s t, Warm twoArrivals s ∧
    Runs.Run (Iterates false) s [{ deviceTime := 4 }] t ∧
    (injected false s [{ deviceTime := 4 }]).length
      = s.scheduler.actualArrivalTime.countP (fun a => decide (a < t.totalTime)) := by
  have hboth : (do
      let sch ← warmUp (twoArrivals.getActualArrivalTime [3, 5]) [] []
      let t ← iterate false { scheduler := sch } { deviceTime := 4 }
      .ok (sch.actualArrivalTime, t.totalTime)) = .ok ([3, 5], 4) := by decide +kernel
  obtain ⟨sch, hsch, h⟩ := Runs.bind_eq_ok hboth
  obtain ⟨t, ht, h⟩ := Runs.bind_eq_ok h
  have htimes : sch.actualArrivalTime = [3, 5] := congrArg Prod.fst (Except.ok.inj h)
  have hwarm : Warm twoArrivals { scheduler := sch } := ⟨[3, 5], [], [], hsch, rfl, rfl⟩
  have hrun : Runs.Run (Iterates false) { scheduler := sch } [{ deviceTime := 4 }] t :=
    .cons ⟨ht, fun _ => by decide⟩ (.nil t)
  exact ⟨_, t, hwarm, hrun, (arrivals_injected _ _ _ 2 64 64 0 0 rfl (by decide) (by decide) rfl
    rfl false hwarm (by simp [htimes]) (by norm_num [htimes]) hrun).2.1⟩

end Cluster
end LlmSystem
