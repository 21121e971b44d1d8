import LlmSystem.Hardware.Causality
import LlmSystem.Scheduler.Stages

/-!
The latency rows of `addLatency`. A request's arrival, its delay in the queue and the times added
by `Sequence::update` come from three places; in the mixed loop every iteration that moves the
clock adds its time to every running sequence, so the three sum up to the clock.
-/
namespace LlmSystem

open Scheduler

inductive StatType
  | blank
  | e2e
  | t2ft
  deriving DecidableEq, Repr

/-- The fields of a `Stat` that `addLatency` writes. -/
structure Stat where
  type : StatType := .blank
  time : ℚ
  latency : ℚ := 0
  queueingDelay : ℚ := 0
  arrivalTime : ℚ := 0
  inputLen : ℤ := 0
  outputLen : ℤ := 0
  numSumIter : ℤ := 0
  deriving DecidableEq, Repr

/-- The row of one sequence; without a first token or an arrival there is none. -/
def latencyRow (time : ℚ) (seq : Sequence) : Option Stat :=
  if seq.firstTokenTime = 0 ∨ seq.arrivalTime = 0 then none
  else if seq.currentLen = seq.totalLen then
    some
      { type := .e2e, time, latency := seq.endTokenTime, inputLen := seq.inputLen
        outputLen := seq.outputLen, numSumIter := seq.numSumIter
        queueingDelay := seq.queueingDelay, arrivalTime := seq.arrivalTime }
  else if seq.currentLen = seq.inputLen then
    some
      { type := .t2ft, time, latency := seq.firstTokenTime, inputLen := seq.inputLen
        numSumIter := seq.numSumIter, queueingDelay := seq.queueingDelay
        arrivalTime := seq.arrivalTime }
  else some { time }

/-- `addLatency`; its writes to the sequences are `setGenStart`. -/
def addLatency (seqList : List Sequence) (time : ℚ) : List Stat :=
  seqList.filterMap (latencyRow time)

/-- The three terms of the row sum up to its time. -/
def Stat.Accounts (row : Stat) : Prop :=
  row.time = row.arrivalTime + row.queueingDelay + row.latency

instance (row : Stat) : Decidable row.Accounts := inferInstanceAs (Decidable (_ = _))

namespace Sequence
variable (s : Sequence) (time : ℚ)

@[simp] theorem update_endTokenTime : (s.update time).endTokenTime = s.endTokenTime + time := by
  unfold update advance addTime
  dsimp only
  split_ifs <;> rfl

@[simp] theorem update_arrivalTime : (s.update time).arrivalTime = s.arrivalTime :=
  (update_times s time).1

@[simp] theorem update_queueingDelay : (s.update time).queueingDelay = s.queueingDelay :=
  (update_times s time).2

end Sequence

theorem settle_stage {t t' : Sequence} (h : settle t = some t') :
    t'.sumStage = t.sumStage ∧ t'.firstTokenTime = t.firstTokenTime ∧
      t'.endTokenTime = t.endTokenTime := by
  unfold settle at h
  split_ifs at h <;> (obtain rfl := Option.some.inj h; exact ⟨rfl, rfl, rfl⟩)

/-- A row is about an updated sequence: at its end, or at the end of an unreported prefill. -/
theorem latencyRow_report {u r : Sequence} {time : ℚ} {row : Stat} (hr : r ∈ report u)
    (hrow : latencyRow time r = some row) :
    row.time = time ∧ row.arrivalTime = u.arrivalTime ∧ row.queueingDelay = u.queueingDelay ∧
      u.arrivalTime ≠ 0 ∧
      ((u.Finished ∧ row.type = .e2e ∧ row.latency = u.endTokenTime) ∨
        (u.currentLen = u.inputLen ∧ u.record = false ∧ row.type = .t2ft ∧
          row.latency = u.firstTokenTime)) := by
  unfold report at hr
  split_ifs at hr with hfin hin
  · obtain rfl := List.mem_singleton.mp hr
    unfold latencyRow at hrow
    split_ifs at hrow with hskip hend
    · obtain rfl := Option.some.inj hrow
      exact ⟨rfl, rfl, rfl, fun h => hskip (.inr h), .inl ⟨hfin, rfl, rfl⟩⟩
    · exact absurd hfin hend
    · exact absurd hfin hend
  · obtain rfl := List.mem_singleton.mp hr
    unfold latencyRow at hrow
    split_ifs at hrow with hskip hend hinput
    · exact absurd hend hfin
    · obtain rfl := Option.some.inj hrow
      exact ⟨rfl, rfl, rfl, fun h => hskip (.inr h), .inr ⟨hin.1, hin.2, rfl, rfl⟩⟩
    · exact absurd hin.1 hinput
  · exact absurd hr List.not_mem_nil

/-- The stamp of the sum machine does not show in a row. -/
theorem latencyRow_setGenStartTime {u r : Sequence} {time now : ℚ} {row : Stat}
    (hr : r ∈ report (u.setGenStartTime now)) (hrow : latencyRow time r = some row) :
    ∃ r' ∈ report u, latencyRow time r' = some row := by
  have hfin : (u.setGenStartTime now).Finished ↔ u.Finished := Iff.rfl
  unfold report at hr
  split_ifs at hr with hend hin
  · obtain rfl := List.mem_singleton.mp hr
    refine ⟨u, ?_, hrow⟩
    rw [report, if_pos (hfin.mp hend)]
    exact List.mem_singleton_self u
  · obtain rfl := List.mem_singleton.mp hr
    refine ⟨u.setRecord, ?_, hrow⟩
    have hin' : u.currentLen = u.inputLen ∧ u.record = false := hin
    rw [report, if_neg (fun h => hend (hfin.mpr h)), if_pos hin']
    exact List.mem_singleton_self _
  · exact absurd hr List.not_mem_nil

/-! ### Sequences on the clock -/

/-- Nothing has been added to the times of the sequence. -/
structure Fresh (t : Sequence) : Prop where
  sumStage : t.sumStage = true
  firstToken : t.firstTokenTime = 0
  endToken : t.endTokenTime = 0
  record : t.record = false

theorem Scheduler.Started.fresh {c : SystemConfig} {m : ModelConfig} {trace : ExpertTrace}
    {t : Sequence} (ht : Started c m trace t) : Fresh t := by
  obtain ⟨hstage, hfirst, -, -⟩ := ht.stage
  refine ⟨hstage, hfirst, ?_, ht.unrecorded⟩
  cases ht with
  | dummy =>
    unfold applyModes
    dsimp only
    split_ifs <;> rfl
  | real => rfl

/-- Since its admission, the sequence has been updated with all the time that has passed. -/
structure Clocked (time : ℚ) (t : Sequence) : Prop where
  total : t.arrivalTime + t.queueingDelay + t.endTokenTime = time
  first : t.sumStage = true → t.firstTokenTime = t.endTokenTime
  record : t.sumStage = false → t.record = true

namespace Clocked
variable {time step : ℚ} {t t' : Sequence}

theorem assignTokens (h : Clocked time t) (s : Scheduler) (b : BatchedSequence) :
    Clocked time (s.assignTokens b t) := by
  obtain ⟨n, hn⟩ := s.assignTokens_eq b t
  rw [hn]
  exact ⟨h.total, h.first, h.record⟩

theorem regate (h : Clocked time t) (tokens : List Sequence) (now : ℚ) :
    Clocked time (Scheduler.regate tokens now t) := by
  unfold Scheduler.regate
  split_ifs
  · exact ⟨h.total, h.first, h.record⟩
  · exact h

/-- The flag is cleared by the update that reports the first token. -/
theorem settle_update (h : Clocked time t) (hkeep : settle (t.update step) = some t') :
    Clocked (time + step) t' := by
  obtain ⟨hstage, hfirst, hend⟩ := settle_stage hkeep
  obtain ⟨harr, hdelay⟩ := settle_times hkeep
  rw [Sequence.update_sumStage] at hstage
  rw [Sequence.update_firstTokenTime] at hfirst
  rw [Sequence.update_endTokenTime] at hend
  rw [Sequence.update_arrivalTime] at harr
  rw [Sequence.update_queueingDelay] at hdelay
  constructor
  · rw [harr, hdelay, hend, ← h.total]
    ring
  · intro hflag
    rw [hflag] at hstage
    have hbefore : t.sumStage = true := (Bool.and_eq_true_iff.mp hstage.symm).1
    rw [hfirst, hend, if_pos hbefore, h.first hbefore]
  · intro hflag
    rw [settle_record hkeep, Sequence.update_record]
    cases hbefore : t.sumStage with
    | false => rw [h.record hbefore, Bool.true_or]
    | true =>
      -- cleared by this update, which has come to the end of the input
      rw [hbefore, hflag] at hstage
      have hin : t.currentLen + t.numProcessToken = t.inputLen := by simpa using hstage
      simp [hin]

theorem row (h : Clocked time t) {r : Sequence} (hr : r ∈ report (t.update step)) {row : Stat}
    (hrow : latencyRow (time + step) r = some row) : row.Accounts := by
  obtain ⟨htime, harr, hdelay, -, ⟨-, -, hlat⟩ | ⟨-, hrecord, -, hlat⟩⟩ :=
    latencyRow_report hr hrow
  · unfold Stat.Accounts
    rw [htime, harr, hdelay, hlat, Sequence.update_arrivalTime, Sequence.update_queueingDelay,
      Sequence.update_endTokenTime, ← h.total]
    ring
  · rw [Sequence.update_record] at hrecord
    have hstage : t.sumStage = true := by
      by_contra hflag
      rw [h.record (by simpa using hflag)] at hrecord
      cases hrecord
    unfold Stat.Accounts
    rw [htime, harr, hdelay, hlat, Sequence.update_arrivalTime, Sequence.update_queueingDelay,
      Sequence.update_firstTokenTime, if_pos hstage, h.first hstage, ← h.total]
    ring

end Clocked

/-- An admission starts the clock of a fresh sequence. -/
theorem Fresh.stampDelay {s : Scheduler} (hrate : s.systemConfig.useInjectRate = true)
    {t : Sequence} (h : Fresh t) : Clocked s.totalTime (s.stampDelay t) := by
  obtain ⟨hstage, hfirst, hend, -⟩ := h
  unfold Scheduler.stampDelay
  rw [if_pos hrate]
  constructor
  · simp only [hend]
    ring
  · intro _
    exact hfirst.trans hend.symm
  · intro hflag
    rw [hstage] at hflag
    cases hflag

namespace Cluster
variable {s₀ : Scheduler} {split : Bool} {s t : LoopState} {i : IterInput}

/-- The rows that the iteration appends to the statistics by `addLatency`. -/
def rows (split : Bool) (s : LoopState) (i : IterInput) : List Stat :=
  addLatency (tokenList split s i) (statTime split s i)

/-- The row of an entry of the token list is about a sequence that its machine has updated. -/
theorem row_of_listed (hr : Recorded s₀ s.scheduler) {r : Sequence}
    (h : r ∈ tokenList split s i) {row : Stat}
    (hrow : latencyRow (statTime split s i) r = some row) :
    s.scheduler.setMetadata.getNumProcessToken ≠ 0 ∧
    ∃ u ∈ s.scheduler.setMetadata.running, u.id = r.id ∧ (sums split s = true → u.InSum) ∧
      ∃ r' ∈ report (u.update i.deviceTime), latencyRow (statTime split s i) r' = some row := by
  obtain ⟨hne, u, hu, hin, hreport | ⟨now, hreport⟩⟩ := mem_tokenList hr h
  · have hid := (report_id hreport).trans (Sequence.update_id u _)
    exact ⟨hne, u, hu, hid.symm, hin, r, hreport, hrow⟩
  · have hid := (report_id hreport).trans (Sequence.update_id u i.deviceTime)
    exact ⟨hne, u, hu, hid.symm, hin, latencyRow_setGenStartTime hreport hrow⟩

/-- Every sequence is on the clock of the gen machine, or waits. -/
structure OnClock (s₀ : Scheduler) (s : LoopState) : Prop where
  timely : Timely s₀ s
  waiting : ∀ q ∈ s.scheduler.sequenceQueue, Fresh q
  running : ∀ u ∈ s.scheduler.running, Clocked s.totalTime u

namespace OnClock

theorem assigned (h : OnClock s₀ s) {u : Sequence} (hu : u ∈ s.scheduler.setMetadata.running) :
    Clocked s.totalTime u := by
  obtain ⟨b, hb, w, hw, rfl⟩ := mem_running_setMetadata.mp hu
  exact (h.running w (mem_running.mpr ⟨b, hb, hw⟩)).assignTokens s.scheduler b

/-- An iteration that leaves the sum machine alone. -/
theorem iterate (hrate : s₀.systemConfig.useInjectRate = true) (h : OnClock s₀ s)
    (hstep : Iterates split s i t) (hsums : sums split s = false) : OnClock s₀ t := by
  have htimely := h.timely.iterate hstep
  have hrate' := htimely.recorded.1.sameSetup.systemConfig ▸ hrate
  cases iterate_outcome h.timely.recorded.1 hstep.1 with
  | idle hzero heq =>
    subst heq
    exact ⟨htimely, h.waiting, fun u hu => h.assigned hu⟩
  | generate hne hgen htotal _ hclock _ hqueue hrunning =>
    have hfresh : ∀ q, q ∈ s.scheduler.sequenceQueue ∨ Pushed s.scheduler q → Fresh q := by
      rintro q (hq | hq)
      · exact h.waiting q hq
      · exact hq.started.fresh
    refine ⟨htimely, fun q hq => hfresh q (hqueue q hq), fun u' hu' => ?_⟩
    rcases hrunning u' hu' with ⟨u, hu, hfate⟩ | ⟨q, hq, rfl⟩
    · cases hfate with
      | generate _ hkeep =>
        rw [htotal]
        exact ((h.assigned hu).settle_update hkeep).regate _ _
      | summarize hsum => simp [hgen] at hsum
      | pass hsum => simp [hgen] at hsum
    · rw [htotal, ← hclock]
      exact (hfresh q hq).stampDelay hrate'
  | summarize _ hsum => simp [hsums] at hsum

theorem row (h : OnClock s₀ s) (hstep : Iterates split s i t) (hsums : sums split s = false)
    {row : Stat} (hrow : row ∈ rows split s i) : row.time = t.totalTime ∧ row.Accounts := by
  obtain ⟨r₀, hlisted, hrow⟩ := List.mem_filterMap.mp hrow
  obtain ⟨hne, u, hu, -, -, r, hr, hsome⟩ := row_of_listed h.timely.recorded.1 hlisted hrow
  have hstat : statTime split s i = s.totalTime + i.deviceTime := by simp [statTime, hsums]
  have htotal : t.totalTime = s.totalTime + i.deviceTime := by
    cases iterate_outcome h.timely.recorded.1 hstep.1 with
    | idle hzero => exact absurd hzero hne
    | generate _ _ htotal => exact htotal
    | summarize _ hsum => simp [hsums] at hsum
  rw [hstat] at hsome
  exact ⟨(latencyRow_report hr hsome).1.trans htotal.symm, (h.assigned hu).row hr hsome⟩

end OnClock

/-- In the warm-up no time passes, so nothing has been added to any sequence. -/
theorem Warm.onClock (hr : Recorded s₀ s₀) (hnone : ∀ P, s₀.All P) (hclock : s₀.totalTime = 0)
    (hrate : s₀.systemConfig.useInjectRate = true) (h : Warm s₀ s) : OnClock s₀ s := by
  have hfill : ∀ {sch sch' : Scheduler} {draws : List ℕ}, Recorded s₀ sch → sch.totalTime = 0 →
      (∀ q ∈ sch.sequenceQueue, Fresh q) → (∀ u ∈ sch.running, Clocked 0 u) →
      sch.fillSequenceQueue 0 0 draws = .ok sch' →
      Recorded s₀ sch'.fillRunningQueue ∧ sch'.fillRunningQueue.totalTime = 0 ∧
        (∀ q ∈ sch'.fillRunningQueue.sequenceQueue, Fresh q) ∧
        ∀ u ∈ sch'.fillRunningQueue.running, Clocked 0 u := by
    intro sch sch' draws hrec hzero hwait hrun hok
    have hpush := hrec.fillSequenceQueue hok
    have htime : sch'.totalTime = 0 := by
      obtain ⟨new, hnew⟩ := pushSeq_pushes hok
      rw [hnew.frame]
      exact hzero
    have hfresh : ∀ q ∈ sch'.sequenceQueue, Fresh q := by
      intro q hq
      rcases mem_sequenceQueue_fill hok hq with hq | hq
      · exact hwait q hq
      · exact hq.started.fresh
    refine ⟨hpush.fillRunningQueue, (totalTime_fill hok).trans hzero,
      fun q hq => hfresh q (mem_queue_fillRunningQueue hq), fun u hu => ?_⟩
    rcases mem_running_fillRunningQueue hu with hold | ⟨q, hq, rfl⟩
    · exact hrun u (running_fillSequenceQueue hok ▸ hold)
    · exact htime ▸ (hfresh q hq).stampDelay (hpush.sameSetup.systemConfig ▸ hrate)
  have htimely := h.timely hr hnone hclock
  have hall := h.rule (I := fun sch => Recorded s₀ sch ∧ sch.totalTime = 0 ∧
    (∀ q ∈ sch.sequenceQueue, Fresh q) ∧ ∀ u ∈ sch.running, Clocked 0 u) ?_ ?_
  · obtain ⟨-, -, hwait, hrun⟩ := hall
    obtain ⟨-, -, -, -, hzero, -⟩ := h
    exact ⟨htimely, hwait, hzero ▸ hrun⟩
  · intro times draws s₁ h₁
    apply hfill (hr.getActualArrivalTime times) hclock (hnone Fresh).1 _ h₁
    intro u hu
    obtain ⟨b, hb, hu⟩ := mem_running.mp hu
    exact (hnone (Clocked 0)).2 b hb u hu
  · rintro sch sch' draws ⟨hrec, hzero, hwait, hrun⟩ hok
    obtain ⟨s₁, h₁, hok⟩ := Runs.bind_eq_ok hok
    obtain rfl := Except.ok.inj hok
    apply hfill (hrec.setMetadata.updateScheduler 0) hzero hwait _ h₁
    intro u' hu'
    rw [running_updateScheduler hrec.setMetadata.distinctIds] at hu'
    obtain ⟨u, hu, hkeep⟩ := List.mem_filterMap.mp hu'
    obtain ⟨b, hb, w, hw, rfl⟩ := mem_running_setMetadata.mp hu
    have hclocked := ((hrun w (mem_running.mpr ⟨b, hb, hw⟩)).assignTokens sch b).settle_update hkeep
    simpa using hclocked

/-- In the mixed loop with an injection rate, in every iteration of every run: each row that
`addLatency` emits carries the time at the end of the iteration, and that is the request's
arrival plus its delay in the queue plus the latency of the row. -/
theorem latency_matches_clock (c : SystemConfig) (m : ModelConfig) (trace : ExpertTrace)
    (total maxBatched maxProcess : ℤ) (rotate countId : ℕ) {s₀ : Scheduler}
    (hs₀ : s₀ = Scheduler.create c m trace total maxBatched maxProcess rotate countId)
    (htotal : 0 ≤ total) (hdp : 1 ≤ s₀.dpDegree) (hrate : c.useInjectRate = true)
    {s t : LoopState} {i : IterInput} (hs : Runs.Reachable (Warm s₀) (Iterates false) s)
    (hstep : Iterates false s i t) :
    ∀ row ∈ rows false s i, row.time = t.totalTime ∧
      row.time = row.arrivalTime + row.queueingDelay + row.latency := by
  subst hs₀
  have hr : Recorded _ _ :=
    ⟨_, Bookkeeping.create c m trace total maxBatched maxProcess rotate countId htotal hdp,
      .refl _, rfl⟩
  have hon : OnClock _ s := hs.invariant (I := OnClock _)
    (fun _ h => h.onClock hr
      (fun P => all_create P c m trace total maxBatched maxProcess rotate countId) rfl hrate)
    fun _ _ _ hs hstep => hs.iterate hrate hstep rfl
  exact fun row hrow => hon.row hstep rfl hrow

/-- A request that arrives at 3 and waits until 4 gets its first token at 6. -/
theorem latency_matches_clock_first_token : ∃ s t : LoopState,
    Runs.Reachable (Warm twoArrivals) (Iterates false) s ∧
    Iterates false s { deviceTime := 2 } t ∧
    ∃ row ∈ rows false s { deviceTime := 2 }, row.type = .t2ft ∧ row.queueingDelay = 1 ∧
      row.time = t.totalTime ∧ row.time = row.arrivalTime + row.queueingDelay + row.latency := by
  have hall : (do
      let sch ← warmUp (twoArrivals.getActualArrivalTime [3, 5]) [] []
      let s ← iterate false { scheduler := sch } { deviceTime := 4 }
      let t ← iterate false s { deviceTime := 2 }
      .ok (decide (∃ row ∈ rows false s { deviceTime := 2 },
        row.type = StatType.t2ft ∧ row.queueingDelay = 1 ∧ t.totalTime = 6))) = .ok true := by
    decide +kernel
  obtain ⟨sch, hsch, hall⟩ := Runs.bind_eq_ok hall
  obtain ⟨s, hs, hall⟩ := Runs.bind_eq_ok hall
  obtain ⟨t, ht, hall⟩ := Runs.bind_eq_ok hall
  obtain ⟨row, hrow, htype, hdelay, -⟩ := of_decide_eq_true (Except.ok.inj hall)
  have hreach : Runs.Reachable (Warm twoArrivals) (Iterates false) s :=
    ⟨_, [_], ⟨[3, 5], [], [], hsch, rfl, rfl⟩, .single ⟨hs, fun _ => by decide⟩⟩
  have hstep : Iterates false s { deviceTime := 2 } t := ⟨ht, fun _ => by decide⟩
  exact ⟨s, t, hreach, hstep, row, hrow, htype, hdelay,
    latency_matches_clock _ _ _ 2 64 64 0 0 rfl (by decide) (by decide) rfl hreach hstep row hrow⟩

end Cluster
end LlmSystem
