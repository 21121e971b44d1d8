import LlmSystem.Hardware.Latency

/-!
The latency rows of the disaggregated loop. A sequence is admitted at the clock of the gen
machine. Its prefill runs on the sum machine, whose clock may already be ahead, while the gen
machine stands still; so a backlog is missing from the row of the first token, and the time of
the prefill is counted a second time when the gen machine goes on.
-/
namespace LlmSystem

open Scheduler

/-- The flag of the sequence agrees with its stage. -/
def OnStage (t : Sequence) : Prop := ∃ times, Staged times t

/-- The sequence has left its prefill, for good. -/
structure PastInput (t : Sequence) : Prop where
  past : ¬t.InSum
  nonneg : 0 ≤ t.numProcessToken

namespace Cluster

theorem kept_onStage {s₀ : Scheduler} (hs : StagesAgree s₀) : Kept s₀ OnStage where
  start hset ht := ⟨[], ht.staged (hs.of_setup hset)⟩
  delay := by
    rintro t delay ⟨times, h⟩
    exact ⟨times, h.flag, h.bounded, h.nonneg, h.firstToken, h.count⟩
  gen := by
    rintro t time ⟨times, h⟩
    exact ⟨times, h.setGenStartTime time⟩
  assign := by
    rintro s b t ⟨times, h⟩
    exact ⟨times, h.assignTokens s b⟩
  update := by
    rintro t t' time ⟨times, h⟩ hkeep
    exact ⟨_, (h.update time).settle hkeep⟩

theorem kept_pastInput {s₀ : Scheduler} (hs : ¬StagesAgree s₀) : Kept s₀ PastInput where
  start hset ht :=
    ⟨fun hin => hs ((stagesAgree_of_setup hset).mp (ht.inSum_iff.mp hin)), ht.tokenless.ge⟩
  delay h := ⟨h.past, h.nonneg⟩
  gen h := ⟨h.past, h.nonneg⟩
  assign {s b t} h := by
    refine ⟨fun hin => h.past (Sequence.assigned_inSum.mp hin), ?_⟩
    unfold assignTokens setGenToken
    rw [if_neg h.past]
    split_ifs
    · exact Int.one_nonneg
    · exact Int.one_nonneg
    · exact h.nonneg
    · exact h.nonneg
  update {t t' time} h hkeep := by
    obtain ⟨hcur, -, hlen, hzero⟩ := settle_lengths hkeep
    simp only [Sequence.update_currentLen, Sequence.update_inputLen,
      Sequence.update_numProcessToken] at hcur hlen hzero
    have hge : t.inputLen ≤ t.currentLen := not_lt.mp h.past
    have hnonneg := h.nonneg
    refine ⟨not_lt.mpr ?_, hzero.ge⟩
    omega

/-- The sequences that the iteration admits, with the state it leaves. -/
def admits (split : Bool) (s : LoopState) (i : IterInput) : List (ℕ × LoopState) :=
  match iterate split s i with
  | .error _ => []
  | .ok t => (t.scheduler.running.filter fun u =>
      decide (u.id ∉ s.scheduler.running.map Sequence.id)).map fun u => (u.id, t)

/-- The admissions of a run. -/
def admissions (split : Bool) (s : LoopState) (inputs : List IterInput) : List (ℕ × LoopState) :=
  Runs.log (iterate split) (admits split) s inputs

variable {s₀ : Scheduler} {split : Bool} {s t : LoopState} {i : IterInput}

theorem mem_admits (h : iterate split s i = .ok t) {id : ℕ} {v : LoopState} :
    (id, v) ∈ admits split s i ↔
      v = t ∧ id ∉ s.scheduler.running.map Sequence.id ∧ ∃ u ∈ t.scheduler.running, u.id = id := by
  unfold admits
  rw [h]
  simp only [List.mem_map, List.mem_filter, decide_eq_true_eq, Prod.mk.injEq]
  constructor
  · rintro ⟨u, ⟨hu, hnew⟩, rfl, rfl⟩
    exact ⟨rfl, hnew, u, hu, rfl⟩
  · rintro ⟨rfl, hnew, u, hu, rfl⟩
    exact ⟨u, ⟨hu, hnew⟩, rfl, rfl⟩

/-- `setMetadata` moves no sequence. -/
theorem ids_setMetadata {u : Sequence} (hu : u ∈ s.scheduler.setMetadata.running) :
    u.id ∈ s.scheduler.running.map Sequence.id := by
  obtain ⟨b, hb, w, hw, rfl⟩ := mem_running_setMetadata.mp hu
  obtain ⟨n, hn⟩ := s.scheduler.assignTokens_eq b w
  have hid : (s.scheduler.assignTokens b w).id = w.id := by rw [hn]
  rw [hid]
  exact List.mem_map_of_mem (mem_running.mpr ⟨b, hb, hw⟩)

/-- An admitted sequence was waiting, or has just been pushed. -/
theorem admitted_from (hr : Recorded s₀ s.scheduler) (h : iterate split s i = .ok t) {id : ℕ}
    {v : LoopState} (hv : (id, v) ∈ admits split s i) :
    ∃ q, (q ∈ s.scheduler.sequenceQueue ∨ Pushed s.scheduler q) ∧ q.id = id := by
  obtain ⟨-, hnew, u', hu', rfl⟩ := (mem_admits h).mp hv
  have hstay : ∀ u ∈ s.scheduler.setMetadata.running, ¬Fate split s i u u' := by
    intro u hu hfate
    rw [hfate.lengths.1] at hnew
    exact hnew (ids_setMetadata hu)
  cases iterate_outcome hr h with
  | idle hzero heq =>
    subst heq
    exact absurd (ids_setMetadata hu') hnew
  | generate _ _ _ _ _ _ _ hrunning =>
    rcases hrunning u' hu' with ⟨u, hu, hfate⟩ | ⟨q, hq, rfl⟩
    · exact absurd hfate (hstay u hu)
    · exact ⟨q, hq, (stampDelay_id _ q).symm⟩
  | summarize _ _ _ _ _ _ _ hrunning =>
    obtain ⟨u, hu, hfate⟩ := hrunning u' hu'
    exact absurd hfate (hstay u hu)

/-- No sequence is admitted twice, and each running one with an arrival time has been. -/
structure Ledger (admitted : List (ℕ × LoopState)) (s : LoopState) : Prop where
  unique : ∀ {id v v'}, (id, v) ∈ admitted → (id, v') ∈ admitted → v = v'
  issued : ∀ {id v}, (id, v) ∈ admitted → id < s.scheduler.countId
  left : ∀ {id v}, (id, v) ∈ admitted → ∀ q ∈ s.scheduler.sequenceQueue, q.id ≠ id
  running : ∀ u ∈ s.scheduler.running, u.arrivalTime ≠ 0 → ∃ v, (u.id, v) ∈ admitted

theorem Fate.arrivalTime {u u' : Sequence} (h : Fate split s i u u') :
    u'.arrivalTime = u.arrivalTime := by
  rcases h.updated with ⟨-, -, rfl⟩ | ⟨-, w, hkeep, time, rfl⟩
  · rfl
  · exact (settle_times hkeep).1.trans (Sequence.update_arrivalTime u _)

theorem Ledger.assigned {admitted : List (ℕ × LoopState)} (h : Ledger admitted s) {u : Sequence}
    (hu : u ∈ s.scheduler.setMetadata.running) (harr : u.arrivalTime ≠ 0) :
    ∃ v, (u.id, v) ∈ admitted := by
  obtain ⟨b, hb, w, hw, rfl⟩ := mem_running_setMetadata.mp hu
  obtain ⟨n, hn⟩ := s.scheduler.assignTokens_eq b w
  rw [hn] at harr ⊢
  exact h.running w (mem_running.mpr ⟨b, hb, hw⟩) harr

theorem Ledger.iterate {admitted : List (ℕ × LoopState)} (h : Ledger admitted s)
    (hr : Recorded s₀ s.scheduler) (hr' : Recorded s₀ t.scheduler)
    (hstep : Cluster.iterate split s i = .ok t) : Ledger (admitted ++ admits split s i) t := by
  have hout := iterate_outcome hr hstep
  have hcount : s.scheduler.countId ≤ t.scheduler.countId ∧ ∀ q ∈ t.scheduler.sequenceQueue,
      q ∈ s.scheduler.sequenceQueue ∨ Pushed s.scheduler q := by
    cases hout with
    | idle _ heq =>
      subst heq
      exact ⟨le_refl _, fun q hq => .inl hq⟩
    | generate _ _ _ _ _ hcount hqueue => exact ⟨hcount, hqueue⟩
    | summarize _ _ _ _ _ hcount hqueue => exact ⟨hcount.ge, fun q hq => .inl (hqueue ▸ hq)⟩
  have hnew : ∀ {id v v'}, (id, v) ∈ admitted → (id, v') ∉ admits split s i := by
    intro id v v' hv hv'
    obtain ⟨q, hq | hq, rfl⟩ := admitted_from hr hstep hv'
    · exact h.left hv q hq rfl
    · exact absurd (h.issued hv) (not_lt.mpr hq.fresh)
  constructor
  · intro id v v' hv hv'
    rcases List.mem_append.mp hv with hv | hv
    · rcases List.mem_append.mp hv' with hv' | hv'
      · exact h.unique hv hv'
      · exact absurd hv' (hnew hv)
    · rcases List.mem_append.mp hv' with hv' | hv'
      · exact absurd hv (hnew hv')
      · exact ((mem_admits hstep).mp hv).1.trans ((mem_admits hstep).mp hv').1.symm
  · intro id v hv
    rcases List.mem_append.mp hv with hv | hv
    · exact (h.issued hv).trans_le hcount.1
    · obtain ⟨-, -, u, hu, rfl⟩ := (mem_admits hstep).mp hv
      exact hr'.id_lt_countId hu
  · intro id v hv q hq
    rcases List.mem_append.mp hv with hv | hv
    · rcases hcount.2 q hq with hq | hq
      · exact h.left hv q hq
      · exact ((h.issued hv).trans_le hq.fresh).ne'
    · obtain ⟨-, -, u, hu, rfl⟩ := (mem_admits hstep).mp hv
      exact hr'.waiting_id_ne hq hu
  · intro u' hu' harr
    by_cases hold : u'.id ∈ s.scheduler.running.map Sequence.id
    · have hfate : ∃ u ∈ s.scheduler.setMetadata.running,
          u.id = u'.id ∧ u.arrivalTime = u'.arrivalTime := by
        cases hout with
        | idle _ heq =>
          subst heq
          exact ⟨u', hu', rfl, rfl⟩
        | generate _ _ _ _ _ _ _ hrunning =>
          rcases hrunning u' hu' with ⟨u, hu, hfate⟩ | ⟨q, hq, rfl⟩
          · exact ⟨u, hu, hfate.lengths.1.symm, hfate.arrivalTime.symm⟩
          · rw [stampDelay_id] at hold
            exact absurd hold (admitted_id hr hq)
        | summarize _ _ _ _ _ _ _ hrunning =>
          obtain ⟨u, hu, hfate⟩ := hrunning u' hu'
          exact ⟨u, hu, hfate.lengths.1.symm, hfate.arrivalTime.symm⟩
      obtain ⟨u, hu, hid, hsame⟩ := hfate
      obtain ⟨v, hv⟩ := h.assigned hu (hsame ▸ harr)
      exact ⟨v, List.mem_append_left _ (hid ▸ hv)⟩
    · exact ⟨t, List.mem_append_right _ ((mem_admits hstep).mpr ⟨rfl, hold, u', hu', rfl⟩)⟩

end Cluster

/-- The times of a sequence that was admitted in the state `v`. -/
inductive Since (v t : LoopState) (u : Sequence) : Prop
  | prefill (hin : u.InSum) (harrive : u.arrivalTime + u.queueingDelay = v.totalTime)
      (hfirst : u.firstTokenTime = u.endTokenTime) (hnonneg : 0 ≤ u.endTokenTime)
      (hgen : t.totalTime = v.totalTime)
      (hsum : max t.totalTime t.sumMachineTime
        = max v.totalTime v.sumMachineTime + u.endTokenTime)
  | decode (hin : ¬u.InSum) (harrive : u.arrivalTime + u.queueingDelay = v.totalTime)
      (hrecord : u.record = true) (hfirst : 0 < u.firstTokenTime)
      (hend : u.endTokenTime = u.firstTokenTime + (t.totalTime - v.totalTime))

namespace Since
variable {v s t : LoopState} {u u' : Sequence} {step : ℚ}

theorem setGenStartTime (h : Since v t u) (time : ℚ) : Since v t (u.setGenStartTime time) := by
  cases h with
  | prefill hin harrive hfirst hnonneg hgen hsum =>
    exact .prefill hin harrive hfirst hnonneg hgen hsum
  | decode hin harrive hrecord hfirst hend => exact .decode hin harrive hrecord hfirst hend

theorem assignTokens (h : Since v t u) (sch : Scheduler) (b : BatchedSequence) :
    Since v t (sch.assignTokens b u) := by
  have hin := Sequence.assigned_inSum (s := sch) (b := b) (t := u)
  obtain ⟨n, hn⟩ := sch.assignTokens_eq b u
  rw [hn] at hin ⊢
  cases h with
  | prefill h harrive hfirst hnonneg hgen hsum =>
    exact .prefill (hin.mpr h) harrive hfirst hnonneg hgen hsum
  | decode h harrive hrecord hfirst hend =>
    exact .decode (fun h' => h (hin.mp h')) harrive hrecord hfirst hend

/-- The clocks are all that it reads of the state. -/
theorem of_clocks (h : Since v s u) (htotal : t.totalTime = s.totalTime)
    (hsum : u.InSum → t.sumMachineTime = s.sumMachineTime) : Since v t u := by
  cases h with
  | prefill hin harrive hfirst hnonneg hgen hmachine =>
    refine .prefill hin harrive hfirst hnonneg (htotal.trans hgen) ?_
    rw [htotal, hsum hin, hmachine]
  | decode hin harrive hrecord hfirst hend =>
    exact .decode hin harrive hrecord hfirst (htotal ▸ hend)

/-- What an update leaves of the times. -/
theorem settle_fields (hkeep : settle (u.update step) = some u') :
    u'.arrivalTime = u.arrivalTime ∧ u'.queueingDelay = u.queueingDelay ∧
      u'.endTokenTime = u.endTokenTime + step ∧
      u'.firstTokenTime = if u.sumStage then u.firstTokenTime + step else u.firstTokenTime := by
  obtain ⟨-, hfirst, hend⟩ := settle_stage hkeep
  obtain ⟨harr, hdelay⟩ := settle_times hkeep
  exact ⟨harr.trans (Sequence.update_arrivalTime u step),
    hdelay.trans (Sequence.update_queueingDelay u step),
    hend.trans (Sequence.update_endTokenTime u step),
    hfirst.trans (Sequence.update_firstTokenTime u step)⟩

/-- The gen machine only works when nothing prefills. -/
theorem generate (h : Since v s u) (hu : OnStage u) (hin : ¬u.InSum)
    (hkeep : settle (u.update step) = some u') (htotal : t.totalTime = s.totalTime + step) :
    Since v t u' := by
  obtain ⟨times, hstaged⟩ := hu
  have hflag : u.sumStage = false := by simpa [hin] using hstaged.flag
  have hstaged' := (hstaged.update step).settle hkeep
  obtain ⟨harr, hdelay, hend, hfirst⟩ := settle_fields hkeep
  rw [if_neg (by simp [hflag])] at hfirst
  have hstage : u'.sumStage = false := by
    rw [(settle_stage hkeep).1, Sequence.update_sumStage, hflag, Bool.false_and]
  cases h with
  | prefill h => exact absurd h hin
  | decode _ harrive hrecord hpos hclock =>
    refine .decode ?_ ?_ ?_ ?_ ?_
    · intro hin'
      rw [hstaged'.flag.mpr hin'] at hstage
      cases hstage
    · rw [harr, hdelay, harrive]
    · rw [settle_record hkeep, Sequence.update_record, hrecord, Bool.true_or]
    · rwa [hfirst]
    · rw [hend, hfirst, hclock, htotal]
      ring

/-- The sum machine moves its own clock, from the later of the two. -/
theorem summarize (h : Since v s u) (hu : OnStage u) (hin : u.InSum)
    (hkeep : settle (u.update step) = some u') (hstep : 0 < step)
    (htotal : t.totalTime = s.totalTime)
    (hmachine : t.sumMachineTime = max s.totalTime s.sumMachineTime + step) : Since v t u' := by
  obtain ⟨times, hstaged⟩ := hu
  have hflag : u.sumStage = true := hstaged.flag.mpr hin
  have hbound := hstaged.bounded hin
  obtain ⟨harr, hdelay, hend, hfirst⟩ := settle_fields hkeep
  rw [if_pos hflag] at hfirst
  obtain ⟨hcur, -, hlen, -⟩ := settle_lengths hkeep
  cases h with
  | decode h => exact absurd hin h
  | prefill _ harrive hsame hnonneg hgen hsum =>
    by_cases hin' : u'.InSum
    · refine .prefill hin' ?_ ?_ ?_ (htotal.trans hgen) ?_
      · rw [harr, hdelay, harrive]
      · rw [hfirst, hend, hsame]
      · rw [hend]
        linarith
      · have hle : t.totalTime ≤ t.sumMachineTime := by
          rw [htotal, hmachine]
          have hmax := le_max_left s.totalTime s.sumMachineTime
          linarith
        rw [max_eq_right hle, hmachine, hsum, hend]
        ring
    · refine .decode hin' ?_ ?_ ?_ ?_
      · rw [harr, hdelay, harrive]
      · -- the update has come to the end of the input
        have hge : u'.inputLen ≤ u'.currentLen := not_lt.mp hin'
        rw [hcur, hlen, Sequence.update_currentLen, Sequence.update_inputLen] at hge
        have hlands : u.currentLen + u.numProcessToken = u.inputLen := le_antisymm hbound hge
        rw [settle_record hkeep]
        simp [hlands]
      · rw [hfirst, hsame]
        linarith
      · rw [hend, hfirst, hsame, htotal, hgen]
        ring

/-- In a prefill, the row counts from the clock of the gen machine, the stamp from the later. -/
theorem row_prefill (h : Since v s u) (hu : OnStage u) (hin : u.InSum) {r : Sequence}
    (hr : r ∈ report (u.update step)) {row : Stat}
    (hrow : latencyRow (max s.totalTime s.sumMachineTime + step) r = some row) :
    row.Accounts ↔ v.sumMachineTime ≤ v.totalTime := by
  obtain ⟨times, hstaged⟩ := hu
  have hflag : u.sumStage = true := hstaged.flag.mpr hin
  obtain ⟨htime, harr, hdelay, -, hlat⟩ := latencyRow_report hr hrow
  rw [Sequence.update_arrivalTime] at harr
  rw [Sequence.update_queueingDelay] at hdelay
  cases h with
  | decode h => exact absurd hin h
  | prefill _ harrive hsame _ _ hsum =>
    have hlatency : row.latency = u.endTokenTime + step := by
      rcases hlat with ⟨-, -, hlat⟩ | ⟨-, -, -, hlat⟩
      · rw [hlat, Sequence.update_endTokenTime]
      · rw [hlat, Sequence.update_firstTokenTime, if_pos hflag, hsame]
    unfold Stat.Accounts
    rw [htime, harr, hdelay, hlatency, harrive, hsum, ← max_eq_left_iff]
    constructor
    · intro heq
      linarith
    · intro hmax
      rw [hmax]
      ring

/-- A row of the gen machine counts the prefill on top of the time since the admission. -/
theorem row_decode (h : Since v s u) (hin : ¬u.InSum) {r : Sequence}
    (hr : r ∈ report (u.update step)) {row : Stat}
    (hrow : latencyRow (s.totalTime + step) r = some row) : ¬row.Accounts := by
  obtain ⟨htime, harr, hdelay, -, hlat⟩ := latencyRow_report hr hrow
  rw [Sequence.update_arrivalTime] at harr
  rw [Sequence.update_queueingDelay] at hdelay
  cases h with
  | prefill h => exact absurd h hin
  | decode _ harrive hrecord hfirst hend =>
    rcases hlat with ⟨-, -, hlat⟩ | ⟨-, hunrecorded, -⟩
    · rw [Sequence.update_endTokenTime] at hlat
      unfold Stat.Accounts
      rw [htime, harr, hdelay, hlat, harrive, hend]
      intro heq
      linarith
    · rw [Sequence.update_record, hrecord] at hunrecorded
      cases hunrecorded

end Since

namespace Cluster
variable {s₀ : Scheduler} {s t : LoopState} {i : IterInput} {admitted : List (ℕ × LoopState)}

/-- Every sequence that has been admitted in the run has its times since. -/
structure OnClocks (s₀ : Scheduler) (admitted : List (ℕ × LoopState)) (s : LoopState) : Prop where
  timely : Timely s₀ s
  staged : RecordedAll s₀ OnStage s.scheduler
  waiting : ∀ q ∈ s.scheduler.sequenceQueue, Fresh q
  running : ∀ u ∈ s.scheduler.running, ∀ v, (u.id, v) ∈ admitted → Since v s u

namespace OnClocks

theorem assigned (h : OnClocks s₀ admitted s) {u : Sequence}
    (hu : u ∈ s.scheduler.setMetadata.running) {v : LoopState} (hv : (u.id, v) ∈ admitted) :
    OnStage u ∧ Since v s u := by
  obtain ⟨b, hb, w, hw, rfl⟩ := mem_running_setMetadata.mp hu
  obtain ⟨n, hn⟩ := s.scheduler.assignTokens_eq b w
  have hid : (s.scheduler.assignTokens b w).id = w.id := by rw [hn]
  obtain ⟨times, hstaged⟩ := h.staged.2.2 b hb w hw
  have hsince := h.running w (mem_running.mpr ⟨b, hb, hw⟩) v (hid ▸ hv)
  exact ⟨⟨times, hstaged.assignTokens s.scheduler b⟩, hsince.assignTokens s.scheduler b⟩

/-- A prefilling sequence keeps the gen machine idle. -/
theorem not_inSum (hgen : sums true s = false) {u : Sequence}
    (hu : u ∈ s.scheduler.setMetadata.running) : ¬u.InSum := by
  obtain ⟨b, hb, w, hw, rfl⟩ := mem_running_setMetadata.mp hu
  intro hin
  have hsums := sums_of_inSum (mem_running.mpr ⟨b, hb, hw⟩) (Sequence.assigned_inSum.mp hin)
  rw [hgen] at hsums
  cases hsums

/-- The sequences that an iteration leaves of those that ran before. -/
theorem fate (h : OnClocks s₀ admitted s) {u u' : Sequence}
    (hu : u ∈ s.scheduler.setMetadata.running) (hfate : Fate true s i u u')
    (hgen : sums true s = false → t.totalTime = s.totalTime + i.deviceTime)
    (hsum : sums true s = true → 0 < i.deviceTime ∧ t.totalTime = s.totalTime ∧
      t.sumMachineTime = max s.totalTime s.sumMachineTime + i.deviceTime)
    {v : LoopState} (hv : (u'.id, v) ∈ admitted) : Since v t u' := by
  rw [hfate.lengths.1] at hv
  obtain ⟨hstage, hsince⟩ := h.assigned hu hv
  rcases hfate.updated with ⟨hsums, hin, rfl⟩ | ⟨hin, w, hkeep, time, rfl⟩
  · exact hsince.of_clocks (hsum hsums).2.1 fun h => absurd h hin
  · cases hsums : sums true s with
    | false =>
      have hnot := not_inSum hsums hu
      exact (hsince.generate hstage hnot hkeep (hgen hsums)).setGenStartTime time
    | true =>
      obtain ⟨hpos, htotal, hmachine⟩ := hsum hsums
      exact (hsince.summarize hstage (hin hsums) hkeep hpos htotal hmachine).setGenStartTime time

/-- An admission starts the times of a fresh sequence. -/
theorem started (hrate : t.scheduler.systemConfig.useInjectRate = true)
    (hclock : t.scheduler.totalTime = t.totalTime) {q : Sequence} (hq : Fresh q)
    (hstage : OnStage (t.scheduler.stampDelay q)) : Since t t (t.scheduler.stampDelay q) := by
  obtain ⟨hflagged, hfirst, hend, -⟩ := hq
  obtain ⟨times, hflag⟩ := hstage
  have hdelayed : t.scheduler.stampDelay q
      = { q with queueingDelay := t.scheduler.totalTime - q.arrivalTime } := if_pos hrate
  rw [hdelayed] at hflag ⊢
  refine .prefill (hflag.flag.mp hflagged) ?_ (hfirst.trans hend.symm) hend.ge rfl ?_
  · rw [← hclock]
    ring
  · rw [hend, add_zero]

theorem iterate (hs : StagesAgree s₀) (hrate : s₀.systemConfig.useInjectRate = true)
    (h : OnClocks s₀ admitted s) (hledger : Ledger admitted s) (hstep : Iterates true s i t) :
    OnClocks s₀ (admitted ++ admits true s i) t := by
  have hr := h.timely.recorded.1
  have htimely := h.timely.iterate hstep
  have hstaged := h.staged.iterate (kept_onStage hs) hstep.1
  have hset := htimely.recorded.1.sameSetup
  -- whoever ran before is not admitted again
  have hstay : ∀ {u u' : Sequence} {v : LoopState}, u ∈ s.scheduler.setMetadata.running →
      u'.id = u.id → (u'.id, v) ∈ admitted ++ admits true s i → (u'.id, v) ∈ admitted := by
    intro u u' v hu hid hv
    apply (List.mem_append.mp hv).resolve_right
    intro hnew
    exact ((mem_admits hstep.1).mp hnew).2.1 (hid ▸ ids_setMetadata hu)
  cases iterate_outcome hr hstep.1 with
  | idle hzero heq =>
    subst heq
    refine ⟨htimely, hstaged, h.waiting, fun u hu v hv => ?_⟩
    exact (h.assigned hu (hstay hu rfl hv)).2.of_clocks rfl fun _ => rfl
  | generate hne hgen htotal _ hclock _ hqueue hrunning =>
    have hfresh : ∀ q, q ∈ s.scheduler.sequenceQueue ∨ Pushed s.scheduler q → Fresh q := by
      rintro q (hq | hq)
      · exact h.waiting q hq
      · exact hq.started.fresh
    refine ⟨htimely, hstaged, fun q hq => hfresh q (hqueue q hq), fun u' hu' v hv => ?_⟩
    rcases hrunning u' hu' with ⟨u, hu, hfate⟩ | ⟨q, hq, rfl⟩
    · have hold := hstay hu hfate.lengths.1 hv
      exact h.fate hu hfate (fun _ => htotal) (by simp [hgen]) hold
    · rcases List.mem_append.mp hv with hold | hnew
      · rw [stampDelay_id] at hold
        rcases hq with hq | hq
        · exact absurd rfl (hledger.left hold q hq)
        · exact absurd (hledger.issued hold) (not_lt.mpr hq.fresh)
      · obtain ⟨rfl, -⟩ := (mem_admits hstep.1).mp hnew
        obtain ⟨b, hb, hub⟩ := mem_running.mp hu'
        exact started (hset.systemConfig ▸ hrate) htimely.clock (hfresh q hq)
          (hstaged.2.2 b hb _ hub)
  | summarize hne hsums htotal hsum _ _ hqueue hrunning =>
    refine ⟨htimely, hstaged, hqueue ▸ h.waiting, fun u' hu' v hv => ?_⟩
    obtain ⟨u, hu, hfate⟩ := hrunning u' hu'
    have hold := hstay hu hfate.lengths.1 hv
    exact h.fate hu hfate (by simp [hsums]) (fun _ => ⟨hstep.2 hne, htotal, hsum⟩) hold

theorem row (h : OnClocks s₀ admitted s) {r : Sequence} (hr : r ∈ tokenList true s i) {row : Stat}
    (hrow : latencyRow (statTime true s i) r = some row) {v : LoopState}
    (hv : (r.id, v) ∈ admitted) :
    row.Accounts ↔ sums true s = true ∧ v.sumMachineTime ≤ v.totalTime := by
  obtain ⟨-, u, hu, hid, hin, r', hreport, hrow⟩ := row_of_listed h.timely.recorded.1 hr hrow
  obtain ⟨hstage, hsince⟩ := h.assigned hu (hid ▸ hv)
  unfold statTime at hrow
  cases hsums : sums true s with
  | true =>
    rw [if_pos hsums] at hrow
    simpa using hsince.row_prefill hstage (hin hsums) hreport hrow
  | false =>
    rw [if_neg (by simp [hsums])] at hrow
    simpa using hsince.row_decode (not_inSum hsums hu) hreport hrow

end OnClocks

/-! ### Runs -/

theorem arrivals_fill {sch sch' : Scheduler} {draws : List ℕ}
    (hok : sch.fillSequenceQueue 0 0 draws = .ok sch') (hreal : sch.trace.realData = false)
    (hclock : sch.totalTime = 0) (hs : sch.All fun t => t.arrivalTime = 0) :
    sch'.fillRunningQueue.All fun t => t.arrivalTime = 0 := by
  obtain ⟨-, new, hqueue, harr⟩ := pushDummySeqs_early
    (s := { sch with modelConfig := clampOutputLen sch.modelConfig }) _ hclock
    (fillSequenceQueue_eq hreal hok)
  apply all_fillRunningQueue
  · refine ⟨fun q hq => ?_, fun b hb u hu => ?_⟩
    · rw [hqueue] at hq
      rcases List.mem_append.mp hq with hq | hq
      · exact hs.1 q hq
      · exact harr q hq
    · have hrun : u ∈ sch.running := running_fillSequenceQueue hok ▸ mem_running.mpr ⟨b, hb, hu⟩
      obtain ⟨b', hb', hu'⟩ := mem_running.mp hrun
      exact hs.2 b' hb' u hu'
  · intro q hq
    unfold stampDelay
    split_ifs <;> exact hq

/-- The sequences of the warm-up arrive at 0, so they get no rows. -/
theorem Warm.arrivals (hr : Recorded s₀ s₀) (hnone : ∀ P, s₀.All P) (hclock : s₀.totalTime = 0)
    (hreal : s₀.trace.realData = false) (h : Warm s₀ s) :
    s.scheduler.All fun t => t.arrivalTime = 0 := by
  have hsteady : Steady fun t => t.arrivalTime = 0 := by
    constructor
    · exact fun ht => ht
    · exact fun ht => ht
    · intro t t' time ht hkeep
      exact (settle_times hkeep).1.trans ((Sequence.update_arrivalTime t time).trans ht)
  have hall := h.rule (I := fun sch => Recorded s₀ sch ∧ sch.totalTime = 0 ∧
    sch.All fun t => t.arrivalTime = 0) ?_ ?_
  · exact hall.2.2
  · intro times draws s₁ h₁
    have htimes := hr.getActualArrivalTime times
    exact ⟨(htimes.fillSequenceQueue h₁).fillRunningQueue, (totalTime_fill h₁).trans hclock,
      arrivals_fill h₁ hreal hclock (hnone _)⟩
  · rintro sch sch' draws ⟨hrec, hzero, hs⟩ hok
    obtain ⟨s₁, h₁, hok⟩ := Runs.bind_eq_ok hok
    obtain rfl := Except.ok.inj hok
    have hupdate := hrec.setMetadata.updateScheduler 0
    refine ⟨(hupdate.fillSequenceQueue h₁).fillRunningQueue, (totalTime_fill h₁).trans hzero, ?_⟩
    apply arrivals_fill h₁ (hupdate.sameSetup.trace ▸ hreal) hzero
    exact hsteady.updateScheduler hrec.setMetadata.distinctIds (hsteady.setMetadata hs) 0

section
variable {w : LoopState} {inputs : List IterInput}

theorem admissions_append (h : Runs.Run (Iterates true) s inputs w) (i : IterInput) :
    admissions true s (inputs ++ [i]) = admissions true s inputs ++ admits true w i :=
  Runs.log_append _ (h.mono fun _ _ _ h => h.1) i

/-- The ledger of a run that begins with the warm-up. -/
theorem ledger_of_run (hr : Recorded s₀ s₀) (hnone : ∀ P, s₀.All P) (hclock : s₀.totalTime = 0)
    (hreal : s₀.trace.realData = false) (hwarm : Warm s₀ s)
    (hrun : Runs.Run (Iterates true) s inputs w) :
    Timely s₀ w ∧ Ledger (admissions true s inputs) w := by
  apply hrun.invariant_trace (I := fun as x => Timely s₀ x ∧ Ledger (admissions true s as) x)
  · refine ⟨hwarm.timely hr hnone hclock, by simp [admissions, Runs.log],
      by simp [admissions, Runs.log], by simp [admissions, Runs.log], fun u hu harr => ?_⟩
    obtain ⟨b, hb, hub⟩ := mem_running.mp hu
    exact absurd ((hwarm.arrivals hr hnone hclock hreal).2 b hb u hub) harr
  · rintro as x a y hx ⟨htx, hlx⟩ hxy
    have hty := htx.iterate hxy
    rw [admissions_append hx a]
    exact ⟨hty, hlx.iterate htx.recorded.1 hty.recorded.1 hxy.1⟩

theorem onClocks_of_run (hr : Recorded s₀ s₀) (hnone : ∀ P, s₀.All P) (hclock : s₀.totalTime = 0)
    (hrate : s₀.systemConfig.useInjectRate = true) (hreal : s₀.trace.realData = false)
    (hs : StagesAgree s₀) (hwarm : Warm s₀ s) (hrun : Runs.Run (Iterates true) s inputs w) :
    OnClocks s₀ (admissions true s inputs) w := by
  apply hrun.invariant_trace (I := fun as x => OnClocks s₀ (admissions true s as) x)
  · refine ⟨hwarm.timely hr hnone hclock, ?_, (hwarm.onClock hr hnone hclock hrate).waiting, ?_⟩
    · exact RecordedAll.warm (kept_onStage hs) ⟨hr, hnone _⟩ hwarm
    · simp [admissions, Runs.log]
  · intro as x a y hx hox hxy
    rw [admissions_append hx a]
    exact hox.iterate hs hrate (ledger_of_run hr hnone hclock hreal hwarm hx).2 hxy

/-- Where nothing starts in a prefill, only the gen machine works. -/
theorem sums_of_pastInput (h : RecordedAll s₀ PastInput s.scheduler) : sums true s = false := by
  by_contra hsums
  have hsum : s.scheduler.hasSumSeq = true := by
    rw [← hasSumSeq_setMetadata]
    simpa [sums] using hsums
  obtain ⟨b, hb, hlen⟩ := List.any_eq_true.mp hsum
  have hne : b.getSum ≠ [] := by
    intro hnil
    simp [hnil] at hlen
  obtain ⟨u, hu⟩ := List.exists_mem_of_ne_nil _ hne
  obtain ⟨hu, hin⟩ := mem_getSum.mp hu
  exact (h.2.2 b hb u hu).past hin

theorem onClock_of_run (hr : Recorded s₀ s₀) (hnone : ∀ P, s₀.All P) (hclock : s₀.totalTime = 0)
    (hrate : s₀.systemConfig.useInjectRate = true) (hs : ¬StagesAgree s₀) (hwarm : Warm s₀ s)
    (hrun : Runs.Run (Iterates true) s inputs w) : sums true w = false ∧ OnClock s₀ w := by
  have hpast := kept_pastInput hs
  obtain ⟨hw, hon⟩ : RecordedAll s₀ PastInput w.scheduler ∧ OnClock s₀ w := by
    apply hrun.invariant (I := fun x => RecordedAll s₀ PastInput x.scheduler ∧ OnClock s₀ x)
    · rintro x a y ⟨hx, hox⟩ hxy
      exact ⟨hx.iterate hpast hxy.1, hox.iterate hrate hxy (sums_of_pastInput hx)⟩
    · exact ⟨RecordedAll.warm hpast ⟨hr, hnone _⟩ hwarm, hwarm.onClock hr hnone hclock hrate⟩
  exact ⟨sums_of_pastInput hw, hon⟩

end

/-- In the disaggregated loop with an injection rate and the synthetic trace, in every iteration
of every run: a row that `addLatency` emits is about one sequence that the run has admitted, and
its three terms sum up to its time if and only if sequences do not start in a prefill, or the sum
machine emits it and had no backlog when the sequence was admitted. -/
theorem split_latency_accounts (c : SystemConfig) (m : ModelConfig) (trace : ExpertTrace)
    (total maxBatched maxProcess : ℤ) (rotate countId : ℕ) {s₀ : Scheduler}
    (hs₀ : s₀ = Scheduler.create c m trace total maxBatched maxProcess rotate countId)
    (htotal : 0 ≤ total) (hdp : 1 ≤ s₀.dpDegree) (hrate : c.useInjectRate = true)
    (hreal : trace.realData = false) {s w t : LoopState} {inputs : List IterInput} {i : IterInput}
    (hwarm : Warm s₀ s) (hrun : Runs.Run (Iterates true) s inputs w)
    (hstep : Iterates true w i t) {r : Sequence} (hr : r ∈ tokenList true w i) {row : Stat}
    (hrow : latencyRow (statTime true w i) r = some row) :
    (∃ v, (r.id, v) ∈ admissions true s inputs) ∧
    ∀ v, (r.id, v) ∈ admissions true s inputs →
      (row.time = row.arrivalTime + row.queueingDelay + row.latency ↔
        ¬StartsInPrefill c m ∨ (sums true w = true ∧ v.sumMachineTime ≤ v.totalTime)) := by
  subst hs₀
  have hnone : ∀ P, (Scheduler.create c m trace total maxBatched maxProcess rotate countId).All P :=
    fun P => all_create P c m trace total maxBatched maxProcess rotate countId
  have hrec : Recorded _ _ :=
    ⟨_, Bookkeeping.create c m trace total maxBatched maxProcess rotate countId htotal hdp,
      .refl _, rfl⟩
  have hagree : StagesAgree
      (Scheduler.create c m trace total maxBatched maxProcess rotate countId)
        ↔ StartsInPrefill c m := by
    change trace.realData = true ∨ StartsInPrefill c m ↔ StartsInPrefill c m
    simp [hreal]
  constructor
  · obtain ⟨htimely, hledger⟩ := ledger_of_run hrec hnone rfl hreal hwarm hrun
    obtain ⟨-, u, hu, hid, -, r', hreport, hrow⟩ := row_of_listed htimely.recorded.1 hr hrow
    have harr := (latencyRow_report hreport hrow).2.2.2.1
    rw [Sequence.update_arrivalTime] at harr
    exact hid ▸ hledger.assigned hu harr
  · intro v hv
    by_cases hs : StartsInPrefill c m
    · have hclocks := onClocks_of_run hrec hnone rfl hrate hreal (hagree.mpr hs) hwarm hrun
      have haccounts := hclocks.row hr hrow hv
      unfold Stat.Accounts at haccounts
      simpa [hs] using haccounts
    · obtain ⟨hsums, hon⟩ :=
        onClock_of_run hrec hnone rfl hrate (fun h => hs (hagree.mp h)) hwarm hrun
      have haccounts := hon.row hstep hsums (List.mem_filterMap.mpr ⟨r, hr, hrow⟩)
      exact iff_of_true haccounts.2 (.inl hs)

/-- Two places for sequences of two and three tokens, requests injected by rate. -/
def splitMachines : Scheduler :=
  Scheduler.create { numNode := 1, numDevice := 1, disaggSystem := true, useInjectRate := true }
    { maxSeqLen := 16, inputLen := 2, outputLen := 3 } {} 2 64 64 0 0

/-- A request that arrives at 3 is admitted at 4, and its prefill ends at 9. -/
theorem split_latency_accounts_first_token : ∃ s w t : LoopState,
    Warm splitMachines s ∧ Runs.Run (Iterates true) s [{ deviceTime := 4 }] w ∧
    Iterates true w { deviceTime := 5 } t ∧ ∃ row ∈ rows true w { deviceTime := 5 },
      row.type = .t2ft ∧ row.time = row.arrivalTime + row.queueingDelay + row.latency := by
  have hall : (do
      let sch ← warmUp (splitMachines.getActualArrivalTime [3]) [] [[]]
      let w ← iterate true { scheduler := sch } { deviceTime := 4 }
      let t ← iterate true w { deviceTime := 5 }
      .ok (decide (∃ r ∈ tokenList true w { deviceTime := 5 },
        ∃ row ∈ latencyRow (statTime true w { deviceTime := 5 }) r, row.type = StatType.t2ft ∧
        ∃ e ∈ admissions true { scheduler := sch } [{ deviceTime := 4 }], e.1 = r.id ∧
          sums true w = true ∧ e.2.sumMachineTime ≤ e.2.totalTime))) = .ok true := by
    decide +kernel
  obtain ⟨sch, hsch, hall⟩ := Runs.bind_eq_ok hall
  obtain ⟨w, hw, hall⟩ := Runs.bind_eq_ok hall
  obtain ⟨t, ht, hall⟩ := Runs.bind_eq_ok hall
  obtain ⟨r, hr, row, hrow, htype, ⟨id, v⟩, hv, hid, hsums, hclocks⟩ :=
    of_decide_eq_true (Except.ok.inj hall)
  have hwarm : Warm splitMachines { scheduler := sch } := ⟨[3], [], [[]], hsch, rfl, rfl⟩
  have hrun : Runs.Run (Iterates true) { scheduler := sch } [{ deviceTime := 4 }] w :=
    .single ⟨hw, fun _ => by decide⟩
  have hstep : Iterates true w { deviceTime := 5 } t := ⟨ht, fun _ => by decide⟩
  have haccounts := (split_latency_accounts _ _ _ 2 64 64 0 0 rfl (by decide) (by decide) rfl rfl
    hwarm hrun hstep hr hrow).2 v (by rw [← hid]; exact hv)
  exact ⟨_, w, t, hwarm, hrun, hstep, row, List.mem_filterMap.mpr ⟨r, hr, hrow⟩, htype,
    haccounts.mpr (.inr ⟨hsums, hclocks⟩)⟩

/-- It ends at 12, and its three terms sum up to 17. -/
theorem split_latency_counts_prefill_twice : ∃ w t : LoopState,
    Runs.Reachable (Warm splitMachines) (Iterates true) w ∧
    Iterates true w { deviceTime := 1 } t ∧ ∃ row ∈ rows true w { deviceTime := 1 },
      row.type = .e2e ∧ row.time = 12 ∧
      row.arrivalTime + row.queueingDelay + row.latency = 17 := by
  have hall : (do
      let sch ← warmUp (splitMachines.getActualArrivalTime [3]) [] [[]]
      let s₁ ← iterate true { scheduler := sch } { deviceTime := 4 }
      let s₂ ← iterate true s₁ { deviceTime := 5 }
      let s₃ ← iterate true s₂ { deviceTime := 6 }
      let w ← iterate true s₃ { deviceTime := 1 }
      let t ← iterate true w { deviceTime := 1 }
      .ok (decide (∃ row ∈ rows true w { deviceTime := 1 }, row.type = StatType.e2e ∧
        row.time = 12 ∧ row.arrivalTime + row.queueingDelay + row.latency = 17)))
      = .ok true := by decide +kernel
  obtain ⟨sch, hsch, hall⟩ := Runs.bind_eq_ok hall
  obtain ⟨s₁, h₁, hall⟩ := Runs.bind_eq_ok hall
  obtain ⟨s₂, h₂, hall⟩ := Runs.bind_eq_ok hall
  obtain ⟨s₃, h₃, hall⟩ := Runs.bind_eq_ok hall
  obtain ⟨w, hw, hall⟩ := Runs.bind_eq_ok hall
  obtain ⟨t, ht, hall⟩ := Runs.bind_eq_ok hall
  obtain ⟨row, hrow⟩ := of_decide_eq_true (Except.ok.inj hall)
  have hrun : Runs.Run (Iterates true) { scheduler := sch }
      [{ deviceTime := 4 }, { deviceTime := 5 }, { deviceTime := 6 }, { deviceTime := 1 }] w :=
    .cons ⟨h₁, fun _ => by decide⟩ (.cons ⟨h₂, fun _ => by decide⟩
      (.cons ⟨h₃, fun _ => by decide⟩ (.single ⟨hw, fun _ => by decide⟩)))
  exact ⟨w, t, ⟨_, _, ⟨[3], [], [[]], hsch, rfl, rfl⟩, hrun⟩, ⟨ht, fun _ => by decide⟩, row, hrow⟩

end Cluster
end LlmSystem
