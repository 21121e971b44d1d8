import LlmSystem.Hardware.Iteration
import LlmSystem.Scheduler.Following
import LlmSystem.Scheduler.Servable

/-!
When an iteration makes progress. An iteration without tokens leaves clocks, queues and
lengths as they are, so a state without a servable sequence is never left.
-/
namespace LlmSystem

open Scheduler

/-- What holds of the scheduler between two iterations. -/
structure Rested (s₀ s : Scheduler) : Prop where
  recorded : Recorded s₀ s
  waiting : ∀ t ∈ s.sequenceQueue, t.numProcessToken = 0
  held : ∀ b ∈ s.runningQueue, ∀ t ∈ b.sequence, s.Held t

theorem Rested.of_tokenless {s₀ s : Scheduler} (hr : Recorded s₀ s) (hs : s.Tokenless) :
    Rested s₀ s :=
  ⟨hr, hs.1, fun b hb t ht => .inl (hs.2 b hb t ht)⟩

namespace Cluster

theorem hittingQueue_rested {s₀ s s' : Scheduler} (hits : List (List ℕ)) (hr : Recorded s₀ s)
    (hs : s.Tokenless) (hok : s.hittingQueue hits = .ok s') :
    Recorded s₀ s' ∧ s'.Tokenless := by
  induction hits generalizing s with
  | nil =>
    obtain rfl := Except.ok.inj hok
    exact ⟨hr, hs⟩
  | cons draws hits ih =>
    obtain ⟨s₁, h₁, hok⟩ := Runs.bind_eq_ok hok
    obtain ⟨s₂, h₂, h₁⟩ := Runs.bind_eq_ok h₁
    obtain rfl := Except.ok.inj h₁
    have hset := hr.setMetadata
    have hupdate := tokenless_updateScheduler hset.distinctIds hs.1 0
    exact ih ((hset.updateScheduler 0).fillSequenceQueue h₂).fillRunningQueue
      (hupdate.fillSequenceQueue h₂).fillRunningQueue hok

theorem starts_rested {s₀ : Scheduler} {s : LoopState} (hr : Recorded s₀ s₀) (h₀ : s₀.Tokenless)
    (hs : Starts s₀ s) : Rested s₀ s.scheduler := by
  obtain ⟨times, draws, hits, -, hok, -, -⟩ := hs
  obtain ⟨s₁, h₁, hok⟩ := Runs.bind_eq_ok hok
  have htimes : (s₀.getActualArrivalTime times).Tokenless := h₀
  obtain ⟨hr', hs'⟩ := hittingQueue_rested hits
    ((hr.getActualArrivalTime times).fillSequenceQueue h₁).fillRunningQueue
    (htimes.fillSequenceQueue h₁).fillRunningQueue hok
  exact .of_tokenless hr' hs'

theorem generate_rested {s₀ : Scheduler} {s t : LoopState} {i : IterInput}
    (hs : Rested s₀ s.scheduler) (hok : generate s s.scheduler.setMetadata i = .ok t) :
    Rested s₀ t.scheduler := by
  unfold generate at hok
  obtain ⟨s₁, h₁, hok⟩ := Runs.bind_eq_ok hok
  obtain rfl := Except.ok.inj hok
  have hclock := hs.recorded.setMetadata.setTotalTime (s.totalTime + i.deviceTime)
  have hupdate := tokenless_updateScheduler hclock.distinctIds hs.waiting i.deviceTime
  have htokens := hupdate.setGenStart
    (({ s.scheduler.setMetadata with totalTime := s.totalTime + i.deviceTime }
      : Scheduler).updateScheduler i.deviceTime).2 (s.totalTime + i.deviceTime)
  exact .of_tokenless
    (((hclock.updateScheduler _).setGenStart _ _).fillSequenceQueue h₁).fillRunningQueue
    (htokens.fillSequenceQueue h₁).fillRunningQueue

/-- Beside prefill sequences, a generating one holds tokens only in a disaggregated system
and behind an open gate. -/
theorem held_assignTokens {s : Scheduler} {b : BatchedSequence} {t : Sequence}
    (hsum : s.hasSumSeq = true) (hgen : ¬(s.assignTokens b t).InSum) (hheld : s.Held t) :
    s.Held (s.assignTokens b t) := by
  obtain ⟨n, hn⟩ := s.assignTokens_eq b t
  have hgen' : ¬t.InSum := by
    rw [hn] at hgen
    exact hgen
  unfold assignTokens
  rw [if_neg hgen']
  by_cases hprocess : s.processGen = true
  · rw [if_pos hprocess]
    have hdisagg : s.systemConfig.disaggSystem = true := by
      simpa [processGen, hsum] using hprocess
    have hopen : s.GateOpen t → s.Held { t with numProcessToken := 1 } := fun hopen =>
      .inr ⟨Int.one_pos, hgen', hdisagg, hopen⟩
    unfold setGenToken
    split_ifs with hzero hle
    · exact hopen (.inl hzero)
    · exact hopen (.inr hle)
    · exact hheld
  · rw [if_neg hprocess]
    exact hheld

theorem summarize_rested {s₀ : Scheduler} {s : LoopState} {i : IterInput}
    (hs : Rested s₀ s.scheduler) (hsum : s.scheduler.setMetadata.hasSumSeq = true) :
    Rested s₀ (summarize s s.scheduler.setMetadata i).scheduler := by
  have hset := hs.recorded.setMetadata
  rw [hasSumSeq_setMetadata] at hsum
  refine ⟨(hset.updateSchedulerSumGenSplit _).setGenStart _ _, ?_, ?_⟩
  · exact hs.waiting
  · unfold summarize
    simp only [updateSchedulerSumGenSplit_eq hset.distinctIds]
    set time := max s.totalTime s.sumMachineTime + i.deviceTime
    set f := fun t : Sequence => (t.update i.deviceTime).setGenStartTime
      (s.scheduler.setMetadata.totalTime + i.deviceTime)
    set sch := s.scheduler.setMetadata
    intro b' hb' t' ht'
    obtain ⟨b₁, hb₁, rfl⟩ := List.mem_map.mp hb'
    obtain ⟨b, hb, rfl⟩ := List.mem_map.mp hb₁
    obtain ⟨u, hu, rfl⟩ := List.mem_map.mp ht'
    obtain ⟨t, ht, ⟨-, hkeep⟩ | ⟨hgen, rfl⟩⟩ := mem_serve hu
    · left
      have hzero : u.numProcessToken = 0 := by
        rw [(settle_lengths hkeep).2.2.2]
        exact Sequence.update_numProcessToken t i.deviceTime
      split_ifs
      · exact hzero
      · exact hzero
    · -- a generating sequence is not in the token list of the sum machine
      have hgen : ¬u.InSum := by simpa using hgen
      have hnot : u.id ∉ (serveAll (fun t => decide t.InSum) f sch).2.map (·.id) := by
        intro hin
        obtain ⟨r, hr, hid⟩ := List.mem_map.mp hin
        obtain ⟨b₂, hb₂, hr⟩ := List.mem_flatMap.mp hr
        obtain ⟨t₂, ht₂, hr⟩ := List.mem_flatMap.mp hr
        obtain ⟨ht₂, hin₂⟩ := List.mem_filter.mp ht₂
        have hid₂ : t₂.id = u.id := by
          rw [← hid, report_id hr]
          exact (Sequence.update_id t₂ i.deviceTime).symm
        obtain rfl := hset.eq_of_id_eq hb₂ ht₂ hb ht hid₂
        exact hgen (by simpa using hin₂)
      rw [if_neg hnot]
      obtain ⟨b₀, hb₀, rfl⟩ := List.mem_map.mp hb
      obtain ⟨u₀, hu₀, rfl⟩ := List.mem_map.mp ht
      exact held_assignTokens hsum hgen (hs.held b₀ hb₀ u₀ hu₀)

/-- An iteration without tokens assigns none, so nothing is held after it. -/
theorem idle_rested {s₀ s : Scheduler} (hmax : 0 ≤ s₀.maxProcessToken) (hs : Rested s₀ s)
    (hzero : s.setMetadata.getNumProcessToken = 0) : Rested s₀ s.setMetadata := by
  have hmax' : 0 ≤ s.maxProcessToken := hs.recorded.sameSetup.maxProcessToken ▸ hmax
  have hidle : ¬s.CanServe := fun hcan =>
    (getNumProcessToken_setMetadata hmax' hs.held).mpr hcan hzero
  refine .of_tokenless hs.recorded.setMetadata ⟨hs.waiting, fun b' hb' t' ht' => ?_⟩
  obtain ⟨b, hb, rfl⟩ := List.mem_map.mp hb'
  obtain ⟨t, ht, rfl⟩ := List.mem_map.mp ht'
  by_contra hne
  exact hidle ⟨b, hb, t, ht, ((assigned_tokens hmax' hb ht (hs.held b hb t ht)).2).mp hne⟩

/-- The three outcomes of an iteration, for both loops. -/
theorem iterate_cases {split : Bool} {s t : LoopState} {i : IterInput}
    (h : iterate split s i = .ok t) :
    (s.scheduler.setMetadata.getNumProcessToken = 0 ∧
      t = { s with scheduler := s.scheduler.setMetadata }) ∨
    (s.scheduler.setMetadata.getNumProcessToken ≠ 0 ∧
      generate s s.scheduler.setMetadata i = .ok t) ∨
    (s.scheduler.setMetadata.getNumProcessToken ≠ 0 ∧
      s.scheduler.setMetadata.hasSumSeq = true ∧ t = summarize s s.scheduler.setMetadata i) := by
  unfold iterate runIterationSumGenSplit runIterationMixed at h
  dsimp only at h
  split_ifs at h with _ hzero hgen hzero
  · exact .inl ⟨hzero, (Except.ok.inj h).symm⟩
  · exact .inr (.inl ⟨hzero, h⟩)
  · exact .inr (.inr ⟨hzero, by simpa using hgen, (Except.ok.inj h).symm⟩)
  · exact .inl ⟨hzero, (Except.ok.inj h).symm⟩
  · exact .inr (.inl ⟨hzero, h⟩)

theorem iterates_rested {s₀ : Scheduler} (hmax : 0 ≤ s₀.maxProcessToken) {split : Bool}
    {s t : LoopState} {i : IterInput} (hs : Rested s₀ s.scheduler)
    (h : Iterates split s i t) : Rested s₀ t.scheduler := by
  rcases iterate_cases h.1 with ⟨hzero, rfl⟩ | ⟨-, hgen⟩ | ⟨-, hsum, rfl⟩
  · exact idle_rested hmax hs hzero
  · exact generate_rested hs hgen
  · exact summarize_rested hs hsum

end Cluster

/-- The loop state up to the token assignment, which every iteration makes anew. -/
def LoopState.view (s : LoopState) : LoopState := { s with scheduler := s.scheduler.forgetTokens }

namespace Cluster

theorem generate_totalTime {s t : LoopState} {sch : Scheduler} {i : IterInput}
    (h : generate s sch i = .ok t) : t.totalTime = s.totalTime + i.deviceTime := by
  unfold generate at h
  obtain ⟨s₁, -, h⟩ := Runs.bind_eq_ok h
  obtain rfl := Except.ok.inj h
  rfl

/-- An iteration with tokens moves a clock; one without changes nothing in view. -/
theorem iterates_view {split : Bool} {s t : LoopState} {i : IterInput}
    (h : Iterates split s i t) :
    t.view ≠ s.view ↔ s.scheduler.setMetadata.getNumProcessToken ≠ 0 := by
  obtain ⟨hstep, htime⟩ := h
  rcases iterate_cases hstep with ⟨hzero, rfl⟩ | ⟨hne, hgen⟩ | ⟨hne, -, rfl⟩
  · refine iff_of_false (fun hview => hview ?_) (not_not.mpr hzero)
    unfold LoopState.view
    simp only [forgetTokens_setMetadata]
  · refine iff_of_true (fun hview => ?_) hne
    have hclock := congrArg LoopState.totalTime hview
    change t.totalTime = s.totalTime at hclock
    rw [generate_totalTime hgen] at hclock
    linarith [htime hne]
  · refine iff_of_true (fun hview => ?_) hne
    have hclock := congrArg LoopState.sumMachineTime hview
    change max s.totalTime s.sumMachineTime + i.deviceTime = s.sumMachineTime at hclock
    linarith [htime hne, le_max_right s.totalTime s.sumMachineTime]

theorem reachable_rested {s₀ : Scheduler} (hr : Recorded s₀ s₀) (h₀ : s₀.Tokenless)
    (hmax : 0 ≤ s₀.maxProcessToken) {split : Bool} {s : LoopState}
    (hs : Runs.Reachable (Starts s₀) (Iterates split) s) : Rested s₀ s.scheduler :=
  hs.invariant (fun _ hstart => starts_rested hr h₀ hstart)
    fun _ _ _ hrest hstep => iterates_rested hmax hrest hstep

/-- A state without a servable sequence is never left, whatever `run` reports. -/
theorem idle_forever {s₀ : Scheduler} (hmax : 0 ≤ s₀.maxProcessToken) {split : Bool}
    {s t : LoopState} {inputs : List IterInput} (hs : Rested s₀ s.scheduler)
    (hidle : ¬s.scheduler.CanServe) (hrun : Runs.Run (Iterates split) s inputs t) :
    t.view = s.view := by
  induction hrun with
  | nil => rfl
  | @cons s u t i is hstep _ ih =>
    have hmax' : 0 ≤ s.scheduler.maxProcessToken :=
      hs.recorded.sameSetup.maxProcessToken ▸ hmax
    have hzero : s.scheduler.setMetadata.getNumProcessToken = 0 := by
      by_contra hne
      exact hidle ((getNumProcessToken_setMetadata hmax' hs.held).mp hne)
    have hview : u.view = s.view := by
      by_contra hne
      exact (iterates_view hstep).mp hne hzero
    have hforget : u.scheduler.forgetTokens = s.scheduler.forgetTokens :=
      congrArg LoopState.scheduler hview
    have hidle' : ¬u.scheduler.CanServe := by
      rw [← canServe_forgetTokens, hforget, canServe_forgetTokens]
      exact hidle
    exact (ih (iterates_rested hmax hs hstep) hidle').trans hview

theorem create_tokenless (c : SystemConfig) (m : ModelConfig) (trace : ExpertTrace)
    (total maxBatched maxProcess : ℤ) (rotate countId : ℕ) :
    (Scheduler.create c m trace total maxBatched maxProcess rotate countId).Tokenless :=
  all_create _ c m trace total maxBatched maxProcess rotate countId

/-- One place, requests injected by rate: `int(1 * 0.7) = 0` requests are injected first. -/
def drained : Scheduler :=
  Scheduler.create { numNode := 1, numDevice := 1, useInjectRate := true }
    { maxSeqLen := 8, inputLen := 4, outputLen := 2 } {} 1 8192 524288 0 0

theorem drained_fill (times : List ℚ) :
    (drained.getActualArrivalTime times).fillSequenceQueue 0 0 []
      = .ok (drained.getActualArrivalTime times) := by
  have hnone : drained.numRequestToInject 0 0 = 0 := by decide +kernel
  have hnone' : (drained.getActualArrivalTime times).numRequestToInject 0 0 = 0 := hnone
  rw [fillSequenceQueue, hnone']
  rfl

theorem drained_hittingQueue (times : List ℚ) (hits : List (List ℕ)) (hhits : ∀ d ∈ hits, d = []) :
    (drained.getActualArrivalTime times).hittingQueue hits
      = .ok (drained.getActualArrivalTime times) := by
  induction hits with
  | nil => rfl
  | cons d hits ih =>
    have hsame : ((drained.getActualArrivalTime times).setMetadata.updateScheduler 0).1
        = drained.getActualArrivalTime times := rfl
    have hhit : (drained.getActualArrivalTime times).hitting []
        = .ok (drained.getActualArrivalTime times) := by
      rw [hitting, hsame, drained_fill]
      rfl
    rw [hhits d (List.mem_cons_self ..), hittingQueue, hhit]
    exact ih fun d' hd => hhits d' (List.mem_cons_of_mem d hd)

theorem drained_warmUp (times : List ℚ) (n : ℕ) : ∃ hits : List (List ℕ), hits.length = n ∧
    warmUp (drained.getActualArrivalTime times) [] hits
      = .ok (drained.getActualArrivalTime times) := by
  refine ⟨List.replicate n [], List.length_replicate, ?_⟩
  rw [warmUp, drained_fill]
  exact drained_hittingQueue times _ fun d hd => List.eq_of_mem_replicate hd

theorem drained_starts (times : List ℚ) :
    Starts drained { scheduler := drained.getActualArrivalTime times } := by
  obtain ⟨hits, hlen, hok⟩ := drained_warmUp times 10000
  exact ⟨times, [], hits, hlen, hok, rfl, rfl⟩

theorem drained_iterates (times : List ℚ) (split : Bool) (i : IterInput) :
    Iterates split { scheduler := drained.getActualArrivalTime times } i
      { scheduler := drained.getActualArrivalTime times } := by
  constructor
  · cases split <;> rfl
  · intro hne
    exact absurd rfl hne

end Cluster

/-- Anything is waiting or running, or an arrival is still to come. -/
def LoopState.WorkRemains (s : LoopState) : Prop :=
  s.scheduler.sequenceQueue ≠ [] ∨ (∃ b ∈ s.scheduler.runningQueue, b.sequence ≠ []) ∨
    (s.scheduler.systemConfig.useInjectRate = true ∧
      ∃ time ∈ s.scheduler.actualArrivalTime, s.totalTime ≤ time)

end LlmSystem
