import LlmSystem.Hardware.Arrivals
import LlmSystem.Hardware.Starvation
import LlmSystem.Scheduler.Drain

/-!
Where the running sequences of an iteration come from, and what its token list holds. A sequence
that ran before has been through `setMetadata` and, where its machine has worked, through one
update; any other one has just been admitted.
-/
namespace LlmSystem

open Scheduler

namespace Scheduler

/-- The write of `addLatency` to a running sequence. -/
def regate (tokens : List Sequence) (time : ℚ) (t : Sequence) : Sequence :=
  if t.id ∈ tokens.map (·.id) then t.setGenStartTime time else t

theorem mem_running_setGenStart {s : Scheduler} {tokens : List Sequence} {time : ℚ}
    {u : Sequence} (h : u ∈ (s.setGenStart tokens time).running) :
    ∃ t ∈ s.running, u = regate tokens time t := by
  obtain ⟨b', hb', hu⟩ := mem_running.mp h
  obtain ⟨b, hb, rfl⟩ := List.mem_map.mp hb'
  obtain ⟨t, ht, rfl⟩ := List.mem_map.mp hu
  exact ⟨t, mem_running.mpr ⟨b, hb, ht⟩, rfl⟩

theorem mem_running_fillRunningQueue {s : Scheduler} {u : Sequence}
    (h : u ∈ s.fillRunningQueue.running) :
    u ∈ s.running ∨ ∃ t ∈ s.sequenceQueue, u = s.stampDelay t := by
  obtain ⟨k, hk⟩ := s.fillRunningQueue_moves
  obtain ⟨b', hb', hu⟩ := mem_running.mp h
  obtain ⟨j, hj, rfl⟩ := List.mem_iff_getElem.mp hb'
  have hj' : j < s.runningQueue.length := hk.grow.length_eq ▸ hj
  obtain ⟨new, heq, hnew⟩ := (List.forall₂_iff_get.mp hk.grow).2 j hj' hj
  simp only [List.get_eq_getElem] at heq
  rw [heq] at hu
  rcases List.mem_append.mp hu with hu | hu
  · exact .inl (mem_running.mpr ⟨_, List.getElem_mem hj', hu⟩)
  · obtain ⟨t, ht, rfl⟩ := List.mem_map.mp (hnew.subset hu)
    exact .inr ⟨t, List.mem_of_mem_take ht, rfl⟩

theorem running_fillSequenceQueue {s s' : Scheduler} {iterTime totalTime : ℚ} {draws : List ℕ}
    (hok : s.fillSequenceQueue iterTime totalTime draws = .ok s') : s'.running = s.running := by
  obtain ⟨new, hnew⟩ := pushSeq_pushes hok
  rw [hnew.frame]
  rfl

/-- A push starts the sequence, under an id of its own. -/
structure Pushed (s : Scheduler) (t : Sequence) : Prop where
  started : Started s.systemConfig s.pushModel s.trace t
  fresh : s.countId ≤ t.id

/-- A waiting sequence was waiting before or has just been pushed. -/
theorem mem_sequenceQueue_fill {s s' : Scheduler} {iterTime totalTime : ℚ} {draws : List ℕ}
    (hok : s.fillSequenceQueue iterTime totalTime draws = .ok s') {t : Sequence}
    (ht : t ∈ s'.sequenceQueue) : t ∈ s.sequenceQueue ∨ Pushed s t := by
  obtain ⟨new, hnew⟩ := pushSeq_pushes hok
  rw [hnew.frame] at ht
  rcases List.mem_append.mp ht with ht | ht
  · exact .inl ht
  · have hid : t.id ∈ new.map Sequence.id := List.mem_map_of_mem ht
    rw [hnew.ids] at hid
    exact .inr ⟨hnew.all t ht, (List.mem_range'_1.mp hid).1⟩

theorem countId_fillSequenceQueue {s s' : Scheduler} {iterTime totalTime : ℚ} {draws : List ℕ}
    (hok : s.fillSequenceQueue iterTime totalTime draws = .ok s') : s.countId ≤ s'.countId := by
  obtain ⟨new, hnew⟩ := pushSeq_pushes hok
  rw [hnew.frame]
  exact Nat.le_add_right _ _

@[simp] theorem regate_id (tokens : List Sequence) (time : ℚ) (t : Sequence) :
    (regate tokens time t).id = t.id := by
  unfold regate
  split_ifs <;> rfl

theorem mem_queue_fillRunningQueue {s : Scheduler} {t : Sequence}
    (ht : t ∈ s.fillRunningQueue.sequenceQueue) : t ∈ s.sequenceQueue := by
  obtain ⟨k, hk⟩ := s.fillRunningQueue_moves
  rw [hk.frame] at ht
  exact List.mem_of_mem_drop ht

end Scheduler

namespace Recorded
variable {s₀ s : Scheduler}

theorem id_lt_countId (hr : Recorded s₀ s) {u : Sequence} (hu : u ∈ s.running) :
    u.id < s.countId := by
  obtain ⟨h, hb, -, rfl⟩ := hr
  apply hb.fresh
  rw [← hb.places]
  refine Multiset.mem_add.mpr (.inl (Multiset.mem_add.mpr (.inr ?_)))
  exact Bookkeeping.mem_running_ids.mpr (List.mem_map_of_mem hu)

theorem waiting_id_ne (hr : Recorded s₀ s) {q u : Sequence} (hq : q ∈ s.sequenceQueue)
    (hu : u ∈ s.running) : q.id ≠ u.id := by
  obtain ⟨h, hb, -, rfl⟩ := hr
  intro hid
  have hnot := (hb.disjoint.2.1 q.id (List.mem_map_of_mem hq)).1
  exact hnot (hid ▸ List.mem_map_of_mem hu)

end Recorded

namespace Cluster

/-- The iteration updates the sum machine. -/
def sums (split : Bool) (s : LoopState) : Bool := split && s.scheduler.setMetadata.hasSumSeq

/-- What the update of the iteration returns to `addLatency`. -/
def tokenList (split : Bool) (s : LoopState) (i : IterInput) : List Sequence :=
  let sch := s.scheduler.setMetadata
  if sch.getNumProcessToken = 0 then []
  else if sums split s then (sch.updateSchedulerSumGenSplit i.deviceTime).2
  else ({ sch with totalTime := s.totalTime + i.deviceTime }.updateScheduler i.deviceTime).2

/-- `stat.time` of the iteration. -/
def statTime (split : Bool) (s : LoopState) (i : IterInput) : ℚ :=
  if sums split s then max s.totalTime s.sumMachineTime + i.deviceTime
  else s.totalTime + i.deviceTime

/-- How a sequence of the updated batches comes out of an iteration with tokens. -/
inductive Fate (split : Bool) (s : LoopState) (i : IterInput) (u : Sequence) : Sequence → Prop
  | generate {v : Sequence} (hgen : sums split s = false)
      (hkeep : settle (u.update i.deviceTime) = some v) :
      Fate split s i u (regate (tokenList split s i) (statTime split s i) v)
  | summarize {v : Sequence} (hsum : sums split s = true) (hin : u.InSum)
      (hkeep : settle ((u.update i.deviceTime).setGenStartTime
        (s.scheduler.totalTime + i.deviceTime)) = some v) :
      Fate split s i u (regate (tokenList split s i) (statTime split s i) v)
  | pass (hsum : sums split s = true) (hin : ¬u.InSum) : Fate split s i u u

/-- What an iteration does to the batches and to the queue. -/
inductive Outcome (split : Bool) (s : LoopState) (i : IterInput) (t : LoopState) : Prop
  | idle (hzero : s.scheduler.setMetadata.getNumProcessToken = 0)
      (heq : t = { s with scheduler := s.scheduler.setMetadata })
  | generate (hne : s.scheduler.setMetadata.getNumProcessToken ≠ 0)
      (hgen : sums split s = false) (htotal : t.totalTime = s.totalTime + i.deviceTime)
      (hsum : t.sumMachineTime = s.sumMachineTime)
      (hclock : t.scheduler.totalTime = s.totalTime + i.deviceTime)
      (hcount : s.scheduler.countId ≤ t.scheduler.countId)
      (hqueue : ∀ q ∈ t.scheduler.sequenceQueue,
        q ∈ s.scheduler.sequenceQueue ∨ Pushed s.scheduler q)
      (hrunning : ∀ u' ∈ t.scheduler.running,
        (∃ u ∈ s.scheduler.setMetadata.running, Fate split s i u u') ∨
        ∃ q, (q ∈ s.scheduler.sequenceQueue ∨ Pushed s.scheduler q) ∧
          u' = t.scheduler.stampDelay q)
  | summarize (hne : s.scheduler.setMetadata.getNumProcessToken ≠ 0)
      (hsums : sums split s = true) (htotal : t.totalTime = s.totalTime)
      (hsum : t.sumMachineTime = max s.totalTime s.sumMachineTime + i.deviceTime)
      (hclock : t.scheduler.totalTime = s.scheduler.totalTime)
      (hcount : t.scheduler.countId = s.scheduler.countId)
      (hqueue : t.scheduler.sequenceQueue = s.scheduler.sequenceQueue)
      (hrunning : ∀ u' ∈ t.scheduler.running,
        ∃ u ∈ s.scheduler.setMetadata.running, Fate split s i u u')

variable {s₀ : Scheduler} {split : Bool} {s t : LoopState} {i : IterInput}

/-- A sequence that generates is not in the token list of the sum machine. -/
theorem not_mem_tokenList (hr : Recorded s₀ s.scheduler) (hsum : sums split s = true)
    {u : Sequence} (hu : u ∈ s.scheduler.setMetadata.running) (hin : ¬u.InSum) :
    u.id ∉ (tokenList split s i).map (·.id) := by
  intro hmem
  obtain ⟨r, hr', hid⟩ := List.mem_map.mp hmem
  unfold tokenList at hr'
  dsimp only at hr'
  rw [if_pos hsum] at hr'
  split_ifs at hr'
  · exact absurd hr' List.not_mem_nil
  · rw [updateSchedulerSumGenSplit_eq hr.setMetadata.distinctIds, returned_serveAll] at hr'
    obtain ⟨v, hv, hreport⟩ := List.mem_flatMap.mp hr'
    obtain ⟨hv, hvin⟩ := List.mem_filter.mp hv
    have hsame : v.id = u.id := by
      rw [← hid, report_id hreport]
      exact (Sequence.update_id v i.deviceTime).symm
    obtain ⟨b, hb, hvb⟩ := mem_running.mp hv
    obtain ⟨b', hb', hub⟩ := mem_running.mp hu
    obtain rfl := hr.setMetadata.eq_of_id_eq hb hvb hb' hub hsame
    exact hin (by simpa using hvin)

/-- The batches that the update of the gen machine leaves. -/
theorem running_beforeFill (hr : Recorded s₀ s.scheduler) (hgen : sums split s = false)
    (hne : s.scheduler.setMetadata.getNumProcessToken ≠ 0) {u' : Sequence}
    (hu' : u' ∈ (beforeFill s i).running) :
    ∃ u ∈ s.scheduler.setMetadata.running, Fate split s i u u' := by
  obtain ⟨v, hv, rfl⟩ := mem_running_setGenStart hu'
  change v ∈ (({ s.scheduler.setMetadata with
    totalTime := s.totalTime + i.deviceTime } : Scheduler).updateScheduler _).1.running at hv
  rw [running_updateScheduler (hr.setMetadata.setTotalTime _).distinctIds] at hv
  obtain ⟨u, hu, hkeep⟩ := List.mem_filterMap.mp hv
  have hfate := Fate.generate (i := i) hgen hkeep
  unfold tokenList statTime at hfate
  simp only [hne, hgen, ↓reduceIte, Bool.false_eq_true] at hfate
  exact ⟨u, hu, hfate⟩

/-- The batches that the update of the sum machine leaves. -/
theorem running_summarize (hr : Recorded s₀ s.scheduler) (hsum : sums split s = true)
    (hne : s.scheduler.setMetadata.getNumProcessToken ≠ 0) {u' : Sequence}
    (hu' : u' ∈ (summarize s s.scheduler.setMetadata i).scheduler.running) :
    ∃ u ∈ s.scheduler.setMetadata.running, Fate split s i u u' := by
  have htokens : (s.scheduler.setMetadata.updateSchedulerSumGenSplit i.deviceTime).2
      = tokenList split s i := by simp [tokenList, hne, hsum]
  have htime : max s.totalTime s.sumMachineTime + i.deviceTime = statTime split s i := by
    simp [statTime, hsum]
  change u' ∈ ((s.scheduler.setMetadata.updateSchedulerSumGenSplit i.deviceTime).1.setGenStart
    (s.scheduler.setMetadata.updateSchedulerSumGenSplit i.deviceTime).2
    (max s.totalTime s.sumMachineTime + i.deviceTime)).running at hu'
  rw [htokens, htime] at hu'
  obtain ⟨v, hv, rfl⟩ := mem_running_setGenStart hu'
  rw [updateSchedulerSumGenSplit_eq hr.setMetadata.distinctIds, running_serveAll] at hv
  obtain ⟨u, hu, hkeep⟩ := List.mem_filterMap.mp hv
  by_cases hin : u.InSum
  · simp only [hin, decide_true, ↓reduceIte] at hkeep
    exact ⟨u, hu, .summarize hsum hin hkeep⟩
  · simp only [hin, decide_false, Bool.false_eq_true, ↓reduceIte] at hkeep
    obtain rfl := Option.some.inj hkeep
    unfold regate
    rw [if_neg (not_mem_tokenList hr hsum hu hin)]
    exact ⟨u, hu, .pass hsum hin⟩

/-- The update leaves what a push looks at. -/
theorem pushed_beforeFill {q : Sequence} (hq : Pushed (beforeFill s i) q) :
    Pushed s.scheduler q := by
  have hcount : (beforeFill s i).countId = s.scheduler.countId := rfl
  obtain ⟨hstarted, hfresh⟩ := hq
  rw [hcount] at hfresh
  exact ⟨hstarted, hfresh⟩

theorem iterate_outcome (hr : Recorded s₀ s.scheduler) (h : iterate split s i = .ok t) :
    Outcome split s i t := by
  rcases iterate_fills h with ⟨hfills, hne, sch, hok, rfl⟩ | ⟨hfills, -⟩
  · have hgen : sums split s = false := by
      have hnot := (Bool.and_eq_true_iff.mp hfills).2
      exact (Bool.not_eq_true' _).mp hnot
    have hclock := totalTime_fill hok
    obtain ⟨k, hk⟩ := sch.fillRunningQueue_moves
    have hmem : ∀ q ∈ sch.sequenceQueue,
        q ∈ s.scheduler.sequenceQueue ∨ Pushed s.scheduler q := by
      intro q hq
      exact (mem_sequenceQueue_fill hok hq).imp_right pushed_beforeFill
    have hcount : s.scheduler.countId ≤ sch.fillRunningQueue.countId := by
      have hbefore : (beforeFill s i).countId = s.scheduler.countId := rfl
      have hpush := countId_fillSequenceQueue hok
      rw [hk.frame]
      exact hbefore ▸ hpush
    refine Outcome.generate hne hgen rfl rfl hclock hcount ?_ ?_
    · exact fun q hq => hmem q (mem_queue_fillRunningQueue hq)
    · intro u' hu'
      rcases mem_running_fillRunningQueue hu' with hold | ⟨q, hq, rfl⟩
      · rw [running_fillSequenceQueue hok] at hold
        exact .inl (running_beforeFill hr hgen hne hold)
      · refine .inr ⟨q, hmem q hq, ?_⟩
        change sch.stampDelay q = sch.fillRunningQueue.stampDelay q
        rw [hk.frame]
        rfl
  · by_cases hzero : s.scheduler.setMetadata.getNumProcessToken = 0
    · refine .idle hzero ?_
      unfold iterate runIterationSumGenSplit runIterationMixed at h
      simp only [hzero, ↓reduceIte, ite_self] at h
      exact (Except.ok.inj h).symm
    · have hsum : sums split s = true := by simpa [fills, hzero, sums] using hfills
      obtain ⟨hsplit, hhas⟩ := Bool.and_eq_true_iff.mp hsum
      unfold iterate runIterationSumGenSplit at h
      simp only [hsplit, hzero, hhas, ↓reduceIte, Bool.not_true, Bool.false_eq_true] at h
      obtain rfl := Except.ok.inj h
      exact .summarize hzero hsum rfl rfl rfl rfl rfl
        fun u' hu' => running_summarize hr hsum hzero hu'

/-! ### What every call keeps -/

/-- A predicate that holds of whatever a push starts in the setup of `s₀`, and that no call
breaks. -/
structure Kept (s₀ : Scheduler) (P : Sequence → Prop) : Prop where
  start : ∀ {sch t}, SameSetup s₀ sch → Started sch.systemConfig sch.pushModel sch.trace t → P t
  delay : ∀ {t : Sequence} {delay : ℚ}, P t → P { t with queueingDelay := delay }
  gen : ∀ {t : Sequence} {time : ℚ}, P t → P (t.setGenStartTime time)
  assign : ∀ {s : Scheduler} {b : BatchedSequence} {t : Sequence}, P t → P (s.assignTokens b t)
  update : ∀ {t t' : Sequence} {time : ℚ}, P t → settle (t.update time) = some t' → P t'

/-- The record is in order, and every waiting or running sequence has `P`. -/
def RecordedAll (s₀ : Scheduler) (P : Sequence → Prop) (s : Scheduler) : Prop :=
  Recorded s₀ s ∧ s.All P

namespace RecordedAll
variable {P : Sequence → Prop} {sch sch' : Scheduler}

theorem call (hP : Kept s₀ P) (hs : RecordedAll s₀ P sch) (op : Op)
    (hcall : ∀ h : History, h.scheduler = sch → ∃ h', h.Step op h' ∧ h'.scheduler = sch') :
    RecordedAll s₀ P sch' := by
  refine ⟨hs.1.call op hcall, ?_⟩
  obtain ⟨⟨h, hb, hset, rfl⟩, hall⟩ := hs
  obtain ⟨h', hstep, rfl⟩ := hcall h rfl
  exact (hstep.effect hb.distinctIds).all (fun t ht _ => hP.start hset ht) (fun _ _ => hP.delay)
    (fun _ _ => hP.gen) (fun _ _ => hP.assign) (fun _ _ _ => hP.update) hall

theorem setMetadata (hP : Kept s₀ P) (hs : RecordedAll s₀ P sch) :
    RecordedAll s₀ P sch.setMetadata :=
  hs.call hP .setMetadata fun _ h => ⟨_, rfl, by rw [← h]⟩

theorem updateScheduler (hP : Kept s₀ P) (hs : RecordedAll s₀ P sch) (time : ℚ) :
    RecordedAll s₀ P (sch.updateScheduler time).1 :=
  hs.call hP (.updateScheduler time) fun _ h => ⟨_, rfl, by rw [← h]; rfl⟩

theorem updateSchedulerSumGenSplit (hP : Kept s₀ P) (hs : RecordedAll s₀ P sch) (time : ℚ) :
    RecordedAll s₀ P (sch.updateSchedulerSumGenSplit time).1 :=
  hs.call hP (.updateSchedulerSumGenSplit time) fun _ h => ⟨_, rfl, by rw [← h]; rfl⟩

theorem setGenStart (hP : Kept s₀ P) (hs : RecordedAll s₀ P sch) (tokens : List Sequence)
    (time : ℚ) : RecordedAll s₀ P (sch.setGenStart tokens time) :=
  hs.call hP (.setGenStart tokens time) fun _ h => ⟨_, rfl, by rw [← h]⟩

theorem fill (hP : Kept s₀ P) (hs : RecordedAll s₀ P sch) {iterTime totalTime : ℚ} {draws : List ℕ}
    (hok : sch.fillSequenceQueue iterTime totalTime draws = .ok sch') :
    RecordedAll s₀ P sch'.fillRunningQueue := by
  have hfill : RecordedAll s₀ P sch' := by
    refine hs.call hP (.fillSequenceQueue iterTime totalTime draws) fun h hh =>
      ⟨h.push sch', ?_, rfl⟩
    change (h.scheduler.fillSequenceQueue iterTime totalTime draws >>= _) = _
    rw [hh, hok]
    rfl
  exact hfill.call hP .fillRunningQueue fun _ h => ⟨_, rfl, by rw [← h]⟩

theorem beforeFill (hP : Kept s₀ P) (hs : RecordedAll s₀ P s.scheduler) :
    RecordedAll s₀ P (Cluster.beforeFill s i) := by
  have hclock : RecordedAll s₀ P
      { s.scheduler.setMetadata with totalTime := s.totalTime + i.deviceTime } :=
    (hs.setMetadata hP).call hP (.setTotalTime _) fun _ h => ⟨_, rfl, by rw [← h]⟩
  exact (hclock.updateScheduler hP i.deviceTime).setGenStart hP _ _

theorem iterate (hP : Kept s₀ P) (hs : RecordedAll s₀ P s.scheduler)
    (h : Cluster.iterate split s i = .ok t) : RecordedAll s₀ P t.scheduler := by
  rcases iterate_fills h with ⟨-, -, sch, hok, rfl⟩ | ⟨-, rfl | rfl⟩
  · exact (hs.beforeFill hP).fill hP hok
  · exact hs.setMetadata hP
  · exact ((hs.setMetadata hP).updateSchedulerSumGenSplit hP _).setGenStart hP _ _

theorem warm (hP : Kept s₀ P) (hs : RecordedAll s₀ P s₀) (h : Warm s₀ s) :
    RecordedAll s₀ P s.scheduler := by
  apply h.rule
  · intro times draws s₁ h₁
    have htimes : RecordedAll s₀ P (s₀.getActualArrivalTime times) :=
      hs.call hP (.getActualArrivalTime times) fun _ h => ⟨_, rfl, by rw [← h]⟩
    exact htimes.fill hP h₁
  · intro sch sch' draws hs hok
    obtain ⟨s₁, h₁, hok⟩ := Runs.bind_eq_ok hok
    obtain rfl := Except.ok.inj hok
    exact ((hs.setMetadata hP).updateScheduler hP 0).fill hP h₁

end RecordedAll

/-- An update in an iteration with tokens, whatever it writes to the start time. -/
theorem Fate.updated {u u' : Sequence} (h : Fate split s i u u') :
    (sums split s = true ∧ ¬u.InSum ∧ u' = u) ∨ ((sums split s = true → u.InSum) ∧
      ∃ v, settle (u.update i.deviceTime) = some v ∧ ∃ time, u' = v.setGenStartTime time) := by
  have hregate : ∀ tokens time (v : Sequence),
      ∃ time', regate tokens time v = v.setGenStartTime time' := by
    intro tokens time v
    unfold regate
    split_ifs
    · exact ⟨time, rfl⟩
    · exact ⟨v.genStartTime, rfl⟩
  cases h with
  | @generate v hgen hkeep => exact .inr ⟨by simp [hgen], v, hkeep, hregate _ _ v⟩
  | @summarize v _ hin hkeep =>
    rw [settle_setGenStartTime, Option.map_eq_some_iff] at hkeep
    obtain ⟨w, hw, rfl⟩ := hkeep
    obtain ⟨time, htime⟩ := hregate (tokenList split s i) (statTime split s i)
      (w.setGenStartTime (s.scheduler.totalTime + i.deviceTime))
    exact .inr ⟨fun _ => hin, w, hw, time, htime⟩
  | pass hsum hin => exact .inl ⟨hsum, hin, rfl⟩

/-- Whoever has just been admitted did not run before. -/
theorem admitted_id (hr : Recorded s₀ s.scheduler) {q : Sequence}
    (hq : q ∈ s.scheduler.sequenceQueue ∨ Pushed s.scheduler q) :
    q.id ∉ s.scheduler.running.map Sequence.id := by
  intro hmem
  obtain ⟨u, hu, hid⟩ := List.mem_map.mp hmem
  rcases hq with hq | hq
  · exact hr.waiting_id_ne hq hu hid.symm
  · have hlt := hr.id_lt_countId hu
    have hle := hq.fresh
    omega

/-- An entry of the token list reports an updated sequence of the machine that has worked. -/
theorem mem_tokenList (hr : Recorded s₀ s.scheduler) {r : Sequence}
    (h : r ∈ tokenList split s i) :
    s.scheduler.setMetadata.getNumProcessToken ≠ 0 ∧
    ∃ u ∈ s.scheduler.setMetadata.running, (sums split s = true → u.InSum) ∧
      (r ∈ report (u.update i.deviceTime) ∨
        ∃ now, r ∈ report ((u.update i.deviceTime).setGenStartTime now)) := by
  unfold tokenList at h
  dsimp only at h
  split_ifs at h with hzero hsum
  · exact absurd h List.not_mem_nil
  · rw [updateSchedulerSumGenSplit_eq hr.setMetadata.distinctIds, returned_serveAll] at h
    obtain ⟨u, hu, hreport⟩ := List.mem_flatMap.mp h
    obtain ⟨hu, hin⟩ := List.mem_filter.mp hu
    exact ⟨hzero, u, hu, fun _ => by simpa using hin, .inr ⟨_, hreport⟩⟩
  · rw [returned_updateScheduler (hr.setMetadata.setTotalTime _).distinctIds] at h
    obtain ⟨u, hu, hreport⟩ := List.mem_flatMap.mp h
    exact ⟨hzero, u, hu, fun h => absurd h hsum, .inl hreport⟩

end Cluster
end LlmSystem
