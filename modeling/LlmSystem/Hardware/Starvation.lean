import LlmSystem.Hardware.Waiting

/-!
When the mixed loop assigns tokens. Decoding stops while any batch prefills, and the share of a
prefilling sequence is the integer quotient of `max_process_token` by their number, which is 0
where a batch has more of them.
-/
namespace LlmSystem

open Scheduler

namespace Scheduler

/-- A predicate of the start time only is kept by all that an iteration does. -/
structure OfGenStart (P : Sequence → Prop) : Prop where
  congr : ∀ {t t' : Sequence}, t'.genStartTime = t.genStartTime → P t → P t'
  zero : ∀ {t : Sequence}, t.genStartTime = 0 → P t

namespace OfGenStart
variable {P : Sequence → Prop} {s s' : Scheduler}

theorem setMetadata (hP : OfGenStart P) (hs : s.All P) : s.setMetadata.All P := by
  apply all_mapRunning hs
  intro b t
  exact hP.congr (assignTokens_genStartTime s b t)

theorem updateScheduler (hP : OfGenStart P) (hd : s.DistinctIds) (hs : s.All P) (time : ℚ) :
    (s.updateScheduler time).1.All P := by
  apply all_updateScheduler hd hs
  intro t t' ht hkeep
  apply hP.congr _ ht
  rw [settle_genStartTime hkeep, Sequence.update_genStartTime]

theorem fill (hP : OfGenStart P) (hs : s.All P) {iterTime totalTime : ℚ} {draws : List ℕ}
    (hok : s.fillSequenceQueue iterTime totalTime draws = .ok s') :
    s'.fillRunningQueue.All P := by
  apply all_fillRunningQueue
  · apply all_fillSequenceQueue hs _ hok
    intro t ht
    exact hP.zero ht.genStartTime
  · intro t
    exact hP.congr (stampDelay_genStartTime s' t)

end OfGenStart

/-- The update returns or keeps some running sequence with more processed tokens. -/
def Advances (s : Scheduler) (time : ℚ) : Prop :=
  ∃ b ∈ s.runningQueue, ∃ t ∈ b.sequence, ∃ t', t'.id = t.id ∧ t.currentLen < t'.currentLen ∧
    (t' ∈ (s.updateScheduler time).2 ∨
      ∃ b' ∈ (s.updateScheduler time).1.runningQueue, t' ∈ b'.sequence)

/-- Every running sequence is found again after an update, kept or returned. -/
theorem after_updateScheduler {s : Scheduler} (hd : s.DistinctIds) (time : ℚ)
    {b : BatchedSequence} (hb : b ∈ s.runningQueue) {t : Sequence} (ht : t ∈ b.sequence) :
    ∃ t', t'.id = t.id ∧ t'.currentLen = t.currentLen + t.numProcessToken ∧
      (t' ∈ (s.updateScheduler time).2 ∨
        ∃ b' ∈ (s.updateScheduler time).1.runningQueue, t' ∈ b'.sequence) := by
  rw [updateScheduler_eq hd]
  rcases settle_or_report (t.update time) with ⟨t', hkeep, hid, -⟩ | ⟨-, hrep, -⟩
  · refine ⟨t', ?_, ?_, .inr ⟨_, List.mem_map_of_mem hb, ?_⟩⟩
    · simp [hid]
    · simp [(settle_lengths hkeep).1]
    · apply List.mem_filterMap.mpr
      exact ⟨t, ht, by simp [hkeep]⟩
  · refine ⟨t.update time, by simp, by simp, .inl ?_⟩
    apply List.mem_flatMap.mpr
    refine ⟨b, hb, List.mem_flatMap.mpr ⟨t, by simp [ht], ?_⟩⟩
    simp [hrep]

theorem report_currentLen {seq r : Sequence} (hr : r ∈ report seq) :
    r.id = seq.id ∧ r.currentLen = seq.currentLen := by
  unfold report at hr
  split_ifs at hr
  · simp [List.mem_singleton.mp hr]
  · simp [List.mem_singleton.mp hr, Sequence.setRecord]
  · exact absurd hr List.not_mem_nil

/-- Whatever is found after an update was running before it. -/
theorem before_updateScheduler {s : Scheduler} (hd : s.DistinctIds) {time : ℚ} {t' : Sequence}
    (h : t' ∈ (s.updateScheduler time).2 ∨
      ∃ b' ∈ (s.updateScheduler time).1.runningQueue, t' ∈ b'.sequence) :
    ∃ b ∈ s.runningQueue, ∃ t ∈ b.sequence, t'.id = t.id ∧
      t'.currentLen = t.currentLen + t.numProcessToken := by
  rw [updateScheduler_eq hd] at h
  rcases h with hret | ⟨b', hb', ht'⟩
  · obtain ⟨b, hb, hret⟩ := List.mem_flatMap.mp hret
    obtain ⟨t, ht, hret⟩ := List.mem_flatMap.mp hret
    obtain ⟨hid, hcur⟩ := report_currentLen hret
    exact ⟨b, hb, t, (List.mem_filter.mp ht).1, by simp [hid], by simp [hcur]⟩
  · obtain ⟨b, hb, rfl⟩ := List.mem_map.mp hb'
    obtain ⟨t, ht, ⟨-, hkeep⟩ | ⟨hp, -⟩⟩ := mem_serve ht'
    · refine ⟨b, hb, t, ht, ?_, ?_⟩
      · simp [settle_id hkeep]
      · simp [(settle_lengths hkeep).1]
    · exact absurd hp (by simp)

/-- With no negative assignment, an update advances a sequence exactly if there are tokens. -/
theorem advances_iff {s : Scheduler} (hd : s.DistinctIds)
    (hone : ∀ b ∈ s.runningQueue, ∀ t ∈ b.sequence, ∀ b' ∈ s.runningQueue, ∀ t' ∈ b'.sequence,
      t.id = t'.id → t = t')
    (hpos : ∀ b ∈ s.runningQueue, ∀ t ∈ b.sequence, 0 ≤ t.numProcessToken) (time : ℚ) :
    s.Advances time ↔ s.getNumProcessToken ≠ 0 := by
  have hsum : s.getNumProcessToken = 0 ↔
      ∀ b ∈ s.runningQueue, ∀ t ∈ b.sequence, t.numProcessToken = 0 := by
    unfold getNumProcessToken BatchedSequence.getProcessToken
    rw [Residues.sum_map_eq_zero_iff]
    · exact forall₂_congr fun b hb => Residues.sum_map_eq_zero_iff (hpos b hb)
    · intro b hb
      apply List.sum_nonneg
      simpa using hpos b hb
  rw [Ne, hsum]
  push Not
  constructor
  · rintro ⟨b, hb, t, ht, t', hid, hlt, hafter⟩
    obtain ⟨b₀, hb₀, t₀, ht₀, hid₀, hcur⟩ := before_updateScheduler hd hafter
    obtain rfl := hone b hb t ht b₀ hb₀ t₀ ht₀ (hid.symm.trans hid₀)
    refine ⟨b, hb, t, ht, ?_⟩
    omega
  · rintro ⟨b, hb, t, ht, hne⟩
    obtain ⟨t', hid, hcur, hafter⟩ := after_updateScheduler hd time hb ht
    have hnonneg := hpos b hb t ht
    exact ⟨b, hb, t, ht, t', hid, by omega, hafter⟩

end Scheduler

namespace Cluster

/-- In the mixed loop the scheduler has the clock of the loop, and no start time is after it. -/
structure OnTime (s₀ : Scheduler) (s : LoopState) : Prop where
  rested : Rested s₀ s.scheduler
  clock : s.scheduler.totalTime = s.totalTime
  gates : s.scheduler.GatesOpen

theorem ofGenStart_gate (time : ℚ) :
    OfGenStart fun t => t.genStartTime = 0 ∨ t.genStartTime ≤ time where
  congr h ht := by
    rw [h]
    exact ht
  zero h := .inl h

theorem totalTime_fill {s s' : Scheduler} {iterTime totalTime : ℚ} {draws : List ℕ}
    (hok : s.fillSequenceQueue iterTime totalTime draws = .ok s') :
    s'.fillRunningQueue.totalTime = s.totalTime := by
  obtain ⟨new, hnew⟩ := pushSeq_pushes hok
  obtain ⟨k, hk⟩ := s'.fillRunningQueue_moves
  rw [hk.frame, hnew.frame]

theorem Warm.onTime {s₀ : Scheduler} (hr : Recorded s₀ s₀) (h₀ : s₀.Tokenless)
    (hclock : s₀.totalTime = 0) (hgates : s₀.All fun t => t.genStartTime = 0) {s : LoopState}
    (h : Warm s₀ s) : OnTime s₀ s := by
  have hzero : OfGenStart fun t : Sequence => t.genStartTime = 0 :=
    ⟨fun heq ht => heq.trans ht, id⟩
  have hall : (Recorded s₀ s.scheduler ∧ s.scheduler.Tokenless) ∧ s.scheduler.totalTime = 0 ∧
      s.scheduler.All fun t => t.genStartTime = 0 := by
    refine h.rule (I := fun s => (Recorded s₀ s ∧ s.Tokenless) ∧ s.totalTime = 0 ∧
      s.All fun t => t.genStartTime = 0) ?_ ?_
    · intro times draws s₁ h₁
      have htimes : (s₀.getActualArrivalTime times).Tokenless := h₀
      refine ⟨⟨?_, (htimes.fillSequenceQueue h₁).fillRunningQueue⟩, ?_, ?_⟩
      · exact ((hr.getActualArrivalTime times).fillSequenceQueue h₁).fillRunningQueue
      · exact (totalTime_fill h₁).trans hclock
      · exact hzero.fill (s := s₀.getActualArrivalTime times) hgates h₁
    · rintro s s' draws ⟨⟨hr, hs⟩, hclock, hgates⟩ hok
      refine ⟨hittingQueue_rested [draws] hr hs (by rw [hittingQueue, hok]; rfl), ?_⟩
      obtain ⟨s₁, h₁, hok⟩ := Runs.bind_eq_ok hok
      obtain rfl := Except.ok.inj hok
      refine ⟨(totalTime_fill h₁).trans hclock, ?_⟩
      exact hzero.fill
        (hzero.updateScheduler hr.setMetadata.distinctIds (hzero.setMetadata hgates) 0) h₁
  obtain ⟨⟨hr, hs⟩, hclock, hgates⟩ := hall
  obtain ⟨-, -, -, -, htime, -⟩ := h
  refine ⟨.of_tokenless hr hs, hclock.trans htime.symm, ?_⟩
  exact ⟨fun t ht => .inl (hgates.1 t ht), fun b hb t ht => .inl (hgates.2 b hb t ht)⟩

theorem OnTime.iterates {s₀ : Scheduler} (hmax : 0 ≤ s₀.maxProcessToken) {s t : LoopState}
    {i : IterInput} (hs : OnTime s₀ s) (h : Iterates false s i t) : OnTime s₀ t := by
  have hrest := iterates_rested hmax hs.rested h
  have hstep : runIterationMixed s i = .ok t := h.1
  unfold runIterationMixed at hstep
  dsimp only at hstep
  split_ifs at hstep with hzero
  · obtain rfl := Except.ok.inj hstep
    exact ⟨hrest, hs.clock, (ofGenStart_gate _).setMetadata hs.gates⟩
  · have hpos := h.2 hzero
    obtain ⟨s₁, h₁, hstep⟩ := Runs.bind_eq_ok hstep
    obtain rfl := Except.ok.inj hstep
    have hclock : s₁.fillRunningQueue.totalTime = s.totalTime + i.deviceTime := totalTime_fill h₁
    refine ⟨hrest, hclock, ?_⟩
    unfold GatesOpen GateOpen
    rw [show (_ : LoopState).scheduler.totalTime = s.totalTime + i.deviceTime from hclock]
    apply (ofGenStart_gate _).fill _ h₁
    apply all_mapRunning
    · apply (ofGenStart_gate _).updateScheduler
        (hs.rested.recorded.setMetadata.setTotalTime _).distinctIds
      refine (ofGenStart_gate _).setMetadata (s := s.scheduler) ?_
      -- the gates that were open stay open
      have hle : s.scheduler.totalTime ≤ s.totalTime + i.deviceTime := by
        rw [hs.clock]
        linarith
      exact ⟨fun t ht => (hs.gates.1 t ht).imp_right fun h => h.trans hle,
        fun b hb t ht => (hs.gates.2 b hb t ht).imp_right fun h => h.trans hle⟩
    · intro b u hu
      split_ifs
      · exact .inr (le_refl _)
      · exact hu

/-- Two prefilling sequences on one device, and a prefill budget of `maxProcess`. -/
def twoSequences (maxProcess : ℤ) : Scheduler :=
  Scheduler.create { numNode := 1, numDevice := 1 }
    { maxSeqLen := 8, inputLen := 2, outputLen := 3 } {} 2 64 maxProcess 0 0

end Cluster
end LlmSystem
