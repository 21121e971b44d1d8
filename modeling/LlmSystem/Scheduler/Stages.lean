import LlmSystem.Scheduler.Following
import LlmSystem.Scheduler.Lengths
import LlmSystem.Scheduler.Servable

/-!
The flag `sum_stage` against the test `current_len < input_len`. Only an update clears the flag,
and only where it lands on the end of the input, so a sequence that a mode starts there or
beyond keeps it, and its decode time counts as time to the first token.
-/
namespace LlmSystem

open Scheduler

namespace Sequence
variable (s : Sequence) (time : ℚ)

@[simp] theorem update_sumStage : (s.update time).sumStage
    = (s.sumStage && !(s.currentLen + s.numProcessToken == s.inputLen)) := by
  unfold update advance addTime
  dsimp only
  split_ifs <;> simp_all

@[simp] theorem update_firstTokenTime : (s.update time).firstTokenTime
    = if s.sumStage then s.firstTokenTime + time else s.firstTokenTime := by
  unfold update advance addTime
  dsimp only
  split_ifs <;> rfl

@[simp] theorem update_numSumIter : (s.update time).numSumIter
    = if s.sumStage then s.numSumIter + 1 else s.numSumIter := by
  unfold update advance addTime
  dsimp only
  split_ifs <;> rfl

end Sequence

/-- The time an update call is given. -/
def Op.updateTime : Op → Option ℚ
  | .updateScheduler time => some time
  | .updateSchedulerSumGenSplit time => some time
  | _ => none

/-- The times of the update calls of a run during which the sequence with the id runs and is in
its prefill. -/
def History.prefillTimes (h : History) (ops : List Op) (id : ℕ) : List ℚ :=
  Runs.log History.step
    (fun h op => if h.Prefilling id then op.updateTime.toList else []) h ops

/-- The flag of a sequence agrees with its stage, and its clock has run for the times `times`. -/
structure Staged (times : List ℚ) (t : Sequence) : Prop where
  flag : t.sumStage = true ↔ t.InSum
  bounded : t.InSum → t.currentLen + t.numProcessToken ≤ t.inputLen
  nonneg : ¬t.InSum → 0 ≤ t.numProcessToken
  firstToken : t.firstTokenTime = times.sum
  count : t.numSumIter = times.length

namespace Staged
variable {times : List ℚ} {t t' : Sequence}

theorem assignTokens (h : Staged times t) (s : Scheduler) (b : BatchedSequence) :
    Staged times (s.assignTokens b t) := by
  obtain ⟨hflag, hbound, hpos, hfirst, hcount⟩ := h
  unfold Scheduler.assignTokens setSumToken setGenToken
  split_ifs with hsum
  · refine ⟨hflag, ?_, fun hgen => absurd hsum hgen, hfirst, hcount⟩
    intro _
    simp only
    omega
  · exact ⟨hflag, hbound, hpos, hfirst, hcount⟩
  · exact ⟨hflag, fun h => absurd h hsum, fun _ => Int.one_nonneg, hfirst, hcount⟩
  · exact ⟨hflag, fun h => absurd h hsum, fun _ => Int.one_nonneg, hfirst, hcount⟩
  · exact ⟨hflag, hbound, hpos, hfirst, hcount⟩
  · exact ⟨hflag, hbound, hpos, hfirst, hcount⟩

/-- An update runs the clock exactly in the prefill, and leaves no tokens. -/
theorem update (h : Staged times t) (time : ℚ) :
    Staged (times ++ if t.InSum then [time] else []) (t.update time) := by
  obtain ⟨hflag, hbound, hpos, hfirst, hcount⟩ := h
  by_cases hsum : t.InSum
  · have hstage : t.sumStage = true := hflag.mpr hsum
    have hle := hbound hsum
    constructor
    · simp only [Sequence.update_sumStage, hstage, Bool.true_and, Sequence.InSum,
        Sequence.update_currentLen, Sequence.update_inputLen, Bool.not_eq_true',
        beq_eq_false_iff_ne]
      omega
    · simp only [Sequence.InSum, Sequence.update_currentLen, Sequence.update_inputLen,
        Sequence.update_numProcessToken]
      omega
    · simp
    · simp [hstage, hsum, hfirst]
    · simp [hstage, hsum, hcount]
  · have hstage : t.sumStage = false := by simpa [hsum] using hflag
    have hge : t.inputLen ≤ t.currentLen := not_lt.mp hsum
    have hnonneg := hpos hsum
    constructor
    · simp only [Sequence.update_sumStage, hstage, Bool.false_and, Sequence.InSum,
        Sequence.update_currentLen, Sequence.update_inputLen]
      simp
      omega
    · simp only [Sequence.InSum, Sequence.update_currentLen, Sequence.update_inputLen,
        Sequence.update_numProcessToken]
      omega
    · simp
    · simp [hstage, hsum, hfirst]
    · simp [hstage, hsum, hcount]

theorem settle (h : Staged times t) (hkeep : settle t = some t') : Staged times t' := by
  obtain ⟨hflag, hbound, hpos, hfirst, hcount⟩ := h
  unfold LlmSystem.settle at hkeep
  split_ifs at hkeep
  · obtain rfl := Option.some.inj hkeep
    exact ⟨hflag, hbound, hpos, hfirst, hcount⟩
  · obtain rfl := Option.some.inj hkeep
    exact ⟨hflag, hbound, hpos, hfirst, hcount⟩

theorem setGenStartTime (h : Staged times t) (time : ℚ) : Staged times (t.setGenStartTime time) :=
  ⟨h.flag, h.bounded, h.nonneg, h.firstToken, h.count⟩

end Staged

/-- The synthetic sequences start before the end of their input. -/
def StartsInPrefill (c : SystemConfig) (m : ModelConfig) : Prop :=
  ¬(c.prefillMode = false ∧ c.decodeMode = true) ∧
    (c.reuseKvCache = true → reuseLen c m.inputLen < m.inputLen)

instance (c : SystemConfig) (m : ModelConfig) : Decidable (StartsInPrefill c m) :=
  inferInstanceAs (Decidable (_ ∧ _))

/-- What a push starts: the flag is set, no time has passed, and the stage is as configured. -/
theorem Scheduler.Started.stage {c : SystemConfig} {m : ModelConfig} {trace : ExpertTrace}
    {t : Sequence} (ht : Started c m trace t) :
    t.sumStage = true ∧ t.firstTokenTime = 0 ∧ t.numSumIter = 0 ∧
      (t.InSum ↔ trace.realData = true ∨ StartsInPrefill c m) := by
  cases ht with
  | dummy id arrival hreal hmax hin hout =>
    have hcur := (applyModes_lengths c m.inputLen (dummySeq m id arrival) rfl).2.2.2
    have hlen := (applyModes_lengths c m.inputLen (dummySeq m id arrival) rfl).1
    refine ⟨?_, ?_, ?_, ?_⟩
    · unfold applyModes
      dsimp only
      split_ifs <;> rfl
    · unfold applyModes
      dsimp only
      split_ifs <;> rfl
    · unfold applyModes
      dsimp only
      split_ifs <;> rfl
    · unfold Sequence.InSum StartsInPrefill
      rw [hcur, hlen]
      change (if c.prefillMode = false ∧ c.decodeMode = true then m.inputLen
        else if c.reuseKvCache then reuseLen c m.inputLen else 0) < m.inputLen ↔ _
      split_ifs with hdecode hreuse
      · simp [hdecode, hreal]
      · simp [hdecode, hreal, hreuse]
      · simp [hdecode, hreal, hreuse, hin]
  | real id seqId info hreal hin hout =>
    refine ⟨rfl, rfl, rfl, iff_of_true ?_ (.inl hreal)⟩
    change 0 < info.lin
    exact hin

theorem startsInPrefill_congr {c : SystemConfig} {m m' : ModelConfig}
    (hin : m'.inputLen = m.inputLen) : StartsInPrefill c m' ↔ StartsInPrefill c m := by
  unfold StartsInPrefill
  rw [hin]

/-! ### Runs -/

/-- A call is an update that visits at least the prefilling sequences, or returns nothing. -/
theorem History.Step.updates {h h' : History} {op : Op} (hd : h.scheduler.DistinctIds)
    (hstep : h.Step op h') :
    (∃ time p f, op.updateTime = some time ∧ h' = h.update p (serveAll p f h.scheduler) ∧
      (∀ t : Sequence, t.InSum → p t = true) ∧
      ∀ t, f t = t.update time ∨ ∃ now, f t = (t.update time).setGenStartTime now) ∨
    (op.updateTime = none ∧ h'.returned = h.returned) := by
  unfold History.Step at hstep
  cases op with
  | updateScheduler time =>
    left
    obtain rfl := Except.ok.inj hstep
    rw [updateScheduler_eq hd]
    exact ⟨time, _, _, rfl, rfl, fun _ _ => rfl, fun _ => .inl rfl⟩
  | updateSchedulerSumGenSplit time =>
    left
    obtain rfl := Except.ok.inj hstep
    rw [updateSchedulerSumGenSplit_eq hd]
    exact ⟨time, _, _, rfl, rfl, fun _ h => decide_eq_true h, fun _ => .inr ⟨_, rfl⟩⟩
  | pushSeq numSeq draws =>
    right
    obtain ⟨s', -, hok⟩ := Runs.bind_eq_ok hstep
    obtain rfl := Except.ok.inj hok
    exact ⟨rfl, rfl⟩
  | fillSequenceQueue iterTime totalTime draws =>
    right
    obtain ⟨s', -, hok⟩ := Runs.bind_eq_ok hstep
    obtain rfl := Except.ok.inj hok
    exact ⟨rfl, rfl⟩
  | fillRunningQueue =>
    obtain rfl := Except.ok.inj hstep
    exact .inr ⟨rfl, rfl⟩
  | setMetadata =>
    obtain rfl := Except.ok.inj hstep
    exact .inr ⟨rfl, rfl⟩
  | getActualArrivalTime times =>
    obtain rfl := Except.ok.inj hstep
    exact .inr ⟨rfl, rfl⟩
  | setTotalTime time =>
    obtain rfl := Except.ok.inj hstep
    exact .inr ⟨rfl, rfl⟩
  | setGenStart tokens time =>
    obtain rfl := Except.ok.inj hstep
    exact .inr ⟨rfl, rfl⟩

theorem Effect.countId_le {h h' : History} (heff : Effect h h') :
    h.scheduler.countId ≤ h'.scheduler.countId := by
  cases heff with
  | push hpush =>
    rw [hpush.frame]
    exact Nat.le_add_right _ _
  | fill hfill => rw [hfill.frame]
  | clock => exact le_refl _
  | assign => exact le_refl _
  | stamp => exact le_refl _
  | update => exact le_refl _

/-- Every waiting and running sequence is staged with its own prefill times. -/
structure AllStaged (times : ℕ → List ℚ) (h : History) : Prop where
  staged : h.scheduler.All fun t => Staged (times t.id) t
  fresh : ∀ id, h.scheduler.countId ≤ id → times id = []

/-- The configuration starts its sequences in their prefill. -/
def StagesAgree (s : Scheduler) : Prop :=
  s.trace.realData = true ∨ StartsInPrefill s.systemConfig s.modelConfig

theorem stagesAgree_of_setup {s s' : Scheduler} (hset : SameSetup s s') :
    StagesAgree s' ↔ StagesAgree s := by
  have hin : s'.modelConfig.inputLen = s.modelConfig.inputLen := by
    have heq := congrArg ModelConfig.inputLen hset.model
    rwa [(clampOutputLen_fst _).1, (clampOutputLen_fst _).1] at heq
  unfold StagesAgree
  rw [hset.trace, hset.systemConfig, startsInPrefill_congr hin]

theorem StagesAgree.of_setup {s s' : Scheduler} (hset : SameSetup s s') (h : StagesAgree s) :
    StagesAgree s' := (stagesAgree_of_setup hset).mpr h

theorem Scheduler.Started.inSum_iff {s : Scheduler} {t : Sequence}
    (ht : Started s.systemConfig s.pushModel s.trace t) : t.InSum ↔ StagesAgree s := by
  have hin : s.pushModel.inputLen = s.modelConfig.inputLen := by
    unfold pushModel
    split_ifs
    · rfl
    · exact (clampOutputLen_fst _).1
  obtain ⟨-, -, -, hstage⟩ := ht.stage
  rwa [startsInPrefill_congr hin] at hstage

theorem Scheduler.Started.staged {s : Scheduler} (hs : StagesAgree s) {t : Sequence}
    (ht : Started s.systemConfig s.pushModel s.trace t) : Staged [] t := by
  have hzero := ht.tokenless
  obtain ⟨hflag, hfirst, hcount, -⟩ := ht.stage
  have hsum : t.InSum := ht.inSum_iff.mpr hs
  have hlt : t.currentLen < t.inputLen := hsum
  constructor
  · exact iff_of_true hflag hsum
  · intro _
    omega
  · exact fun hgen => absurd hsum hgen
  · simpa using hfirst
  · simpa using hcount

theorem AllStaged.quiet {h h' : History} {times : ℕ → List ℚ} (heff : Effect h h')
    (hquiet : h'.returned = h.returned) (hs : StagesAgree h.scheduler)
    (hall : AllStaged times h) : AllStaged times h' := by
  constructor
  · apply heff.all_quiet hquiet _ _ _ _ hall.staged
    · intro t ht hid
      rw [hall.fresh t.id hid]
      exact ht.staged hs
    · exact fun t delay ht => ⟨ht.flag, ht.bounded, ht.nonneg, ht.firstToken, ht.count⟩
    · exact fun t time ht => ht.setGenStartTime time
    · intro b t ht
      obtain ⟨n, hn⟩ := h.scheduler.assignTokens_eq b t
      have hid : (h.scheduler.assignTokens b t).id = t.id := by rw [hn]
      rw [hid]
      exact ht.assignTokens h.scheduler b
  · exact fun id hid => hall.fresh id (heff.countId_le.trans hid)

/-- The times of a sequence after one more update call. -/
def History.addTime (h : History) (times : ℕ → List ℚ) (time : ℚ) (id : ℕ) : List ℚ :=
  times id ++ if h.Prefilling id then [time] else []

theorem AllStaged.update {h : History} {times : ℕ → List ℚ} {time : ℚ} {p : Sequence → Bool}
    {f : Sequence → Sequence} (hb : Bookkeeping h) (hall : AllStaged times h)
    (hp : ∀ t : Sequence, t.InSum → p t = true)
    (hf : ∀ t, f t = t.update time ∨ ∃ now, f t = (t.update time).setGenStartTime now) :
    AllStaged (h.addTime times time) (h.update p (serveAll p f h.scheduler)) := by
  have hstage : ∀ b ∈ h.scheduler.runningQueue, ∀ t ∈ b.sequence,
      (h.Prefilling t.id ↔ t.InSum) := by
    intro b hmem t ht
    have hrun : t ∈ h.scheduler.running := mem_running.mpr ⟨b, hmem, ht⟩
    constructor
    · rintro ⟨u, hu, hid, hsum⟩
      obtain rfl := Keyed.eq_of_key_eq hb.nodup_running hu hrun hid
      exact hsum
    · exact fun hsum => ⟨t, hrun, rfl, hsum⟩
  have hidle : ∀ id, id ∉ h.scheduler.running.map Sequence.id →
      h.addTime times time id = times id := by
    intro id hid
    have hnot : ¬h.Prefilling id := fun ⟨u, hu, heq, _⟩ => hid (List.mem_map.mpr ⟨u, hu, heq⟩)
    simp [History.addTime, hnot]
  constructor
  · constructor
    · intro t ht
      rw [hidle t.id (hb.disjoint.2.1 t.id (List.mem_map_of_mem ht)).1]
      exact hall.staged.1 t ht
    · intro b' hb' t ht
      obtain ⟨b, hmem, rfl⟩ := List.mem_map.mp hb'
      obtain ⟨t₀, ht₀, ⟨-, hkeep⟩ | ⟨hnot, rfl⟩⟩ := mem_serve ht
      · have hfields := update_lengths t₀ (hf t₀)
        have hid : t.id = t₀.id := (settle_id hkeep).trans hfields.2.2.2.2
        have hbefore := (hall.staged.2 b hmem t₀ ht₀).update time
        have hafter : Staged (h.addTime times time t₀.id) (f t₀) := by
          simp only [History.addTime, hstage b hmem t₀ ht₀]
          rcases hf t₀ with heq | ⟨now, heq⟩ <;> rw [heq]
          · exact hbefore
          · exact hbefore.setGenStartTime now
        rw [hid]
        exact hafter.settle hkeep
      · have hgen : ¬t.InSum := fun hsum => by simp [hp t hsum] at hnot
        have hsame : h.addTime times time t.id = times t.id := by
          simp [History.addTime, hstage b hmem t ht₀, hgen]
        rw [hsame]
        exact hall.staged.2 b hmem t ht₀
  · intro id hid
    have hid : h.scheduler.countId ≤ id := hid
    rw [hidle id, hall.fresh id hid]
    intro hrun
    have hpushed : id ∈ h.pushed := by
      rw [← hb.places]
      exact Multiset.mem_add.mpr
        (.inl (Multiset.mem_add.mpr (.inr (Bookkeeping.mem_running_ids.mpr hrun))))
    exact absurd (hb.fresh id hpushed) (not_lt.mpr hid)

theorem allStaged_of_run {h h' : History} {ops : List Op} (hb : Bookkeeping h)
    (hs : StagesAgree h.scheduler) (hall : AllStaged (fun _ => []) h)
    (hrun : Runs.Run History.Step h ops h') : AllStaged (h.prefillTimes ops) h' := by
  have hinv := hrun.invariant_trace (I := fun ops h' => Bookkeeping h' ∧
    StagesAgree h'.scheduler ∧ AllStaged (h.prefillTimes ops) h') ⟨hb, hs, hall⟩ ?_
  · exact hinv.2.2
  rintro ops h₁ op h₂ hrun ⟨hb, hs, hall⟩ hstep
  have heff := hstep.effect hb.distinctIds
  refine ⟨heff.bookkeeping hb, hs.of_setup heff.sameSetup, ?_⟩
  have htimes : h.prefillTimes (ops ++ [op]) = fun id => h.prefillTimes ops id ++
      if h₁.Prefilling id then op.updateTime.toList else [] :=
    funext fun id => Runs.log_append _ hrun op
  rw [htimes]
  rcases hstep.updates hb.distinctIds with ⟨time, p, f, htime, rfl, hp, hf⟩ | ⟨htime, hquiet⟩
  · simp only [htime, Option.toList_some]
    exact hall.update hb hp hf
  · simpa [htime] using hall.quiet heff hquiet hs

/-- A sequence past its prefill, with its times so far. -/
structure Frozen (first : ℚ) (count : ℤ) (t : Sequence) : Prop where
  flag : t.sumStage = false
  gen : ¬t.InSum
  nonneg : 0 ≤ t.numProcessToken
  firstToken : t.firstTokenTime = first
  count : t.numSumIter = count

namespace Frozen
variable {first : ℚ} {count : ℤ} {t t' : Sequence}

theorem assignTokens (h : Frozen first count t) (s : Scheduler) (b : BatchedSequence) :
    Frozen first count (s.assignTokens b t) := by
  obtain ⟨hflag, hgen, hpos, hfirst, hcount⟩ := h
  unfold Scheduler.assignTokens setGenToken
  rw [if_neg hgen]
  split_ifs
  · exact ⟨hflag, hgen, Int.one_nonneg, hfirst, hcount⟩
  · exact ⟨hflag, hgen, Int.one_nonneg, hfirst, hcount⟩
  · exact ⟨hflag, hgen, hpos, hfirst, hcount⟩
  · exact ⟨hflag, hgen, hpos, hfirst, hcount⟩

theorem settle_update (h : Frozen first count t) {time : ℚ}
    (hkeep : settle (t.update time) = some t') : Frozen first count t' := by
  obtain ⟨hflag, hgen, hpos, hfirst, hcount⟩ := h
  have hge : t.inputLen ≤ t.currentLen := not_lt.mp hgen
  have hnext : Frozen first count (t.update time) := by
    constructor
    · simp [hflag]
    · simp only [Sequence.InSum, Sequence.update_currentLen, Sequence.update_inputLen]
      omega
    · simp
    · simp [hflag, hfirst]
    · simp [hflag, hcount]
  obtain ⟨hflag, hgen, hpos, hfirst, hcount⟩ := hnext
  unfold settle at hkeep
  split_ifs at hkeep
  · obtain rfl := Option.some.inj hkeep
    exact ⟨hflag, hgen, hpos, hfirst, hcount⟩
  · obtain rfl := Option.some.inj hkeep
    exact ⟨hflag, hgen, hpos, hfirst, hcount⟩

theorem of_run {h h' : History} {ops : List Op} {id : ℕ} (hb : Bookkeeping h)
    (hid : id < h.scheduler.countId)
    (hall : h.scheduler.All fun t => t.id = id → Frozen first count t)
    (hrun : Runs.Run History.Step h ops h') :
    h'.scheduler.All fun t => t.id = id → Frozen first count t := by
  have hinv := hrun.invariant (I := fun h => Bookkeeping h ∧ id < h.scheduler.countId ∧
    h.scheduler.All fun t => t.id = id → Frozen first count t) ?_ ⟨hb, hid, hall⟩
  · exact hinv.2.2
  rintro h op h' ⟨hb, hid, hall⟩ hstep
  have heff := hstep.effect hb.distinctIds
  refine ⟨heff.bookkeeping hb, hid.trans_le heff.countId_le, heff.all ?_ ?_ ?_ ?_ ?_ hall⟩
  · intro t _ hfresh heq
    omega
  · intro t delay ht heq
    obtain ⟨hflag, hgen, hpos, hfirst, hcount⟩ := ht heq
    exact ⟨hflag, hgen, hpos, hfirst, hcount⟩
  · intro t time ht heq
    obtain ⟨hflag, hgen, hpos, hfirst, hcount⟩ := ht heq
    exact ⟨hflag, hgen, hpos, hfirst, hcount⟩
  · intro b t ht heq
    obtain ⟨n, hn⟩ := h.scheduler.assignTokens_eq b t
    have hsame : (h.scheduler.assignTokens b t).id = t.id := by rw [hn]
    exact (ht (hsame.symm.trans heq)).assignTokens h.scheduler b
  · intro t time t' ht hkeep heq
    have hsame : t'.id = t.id := (settle_id hkeep).trans (Sequence.update_id t time)
    exact (ht (hsame.symm.trans heq)).settle_update hkeep

end Frozen

/-- A run in which sequences start in their prefill keeps flag and stage in agreement: the time
to the first token is the sum over the update calls of the prefill, their number is
`num_sum_iter`, and neither changes afterwards. Any other accepted synthetic configuration
admits a sequence with the flag beyond its prefill. -/
theorem stages_agree (c : SystemConfig) (m : ModelConfig) (trace : ExpertTrace)
    (total maxBatched maxProcess : ℤ) (rotate countId : ℕ) {s₀ : Scheduler}
    (hs₀ : s₀ = Scheduler.create c m trace total maxBatched maxProcess rotate countId)
    (htotal : 0 ≤ total) (hdp : 1 ≤ s₀.dpDegree) :
    (trace.realData = true ∨ StartsInPrefill c m → ∀ ops h,
      Runs.Run History.Step (.init s₀) ops h → ∀ t ∈ h.scheduler.running,
        (t.sumStage = true ↔ t.InSum) ∧
        t.firstTokenTime = ((History.init s₀).prefillTimes ops t.id).sum ∧
        t.numSumIter = ((History.init s₀).prefillTimes ops t.id).length ∧
        (¬t.InSum → ∀ ops' h', Runs.Run History.Step h ops' h' →
          ∀ t' ∈ h'.scheduler.running, t'.id = t.id →
            t'.firstTokenTime = t.firstTokenTime ∧ t'.numSumIter = t.numSumIter)) ∧
    (¬(trace.realData = true ∨ StartsInPrefill c m) → Accepted m → 1 ≤ s₀.batchSizePerDp →
      ∃ h, Runs.Run History.Step (.init s₀) [.pushSeq 1 [], .fillRunningQueue] h ∧
        ∃ t ∈ h.scheduler.running, t.sumStage = true ∧ ¬t.InSum) := by
  subst hs₀
  have hcreate := Bookkeeping.create c m trace total maxBatched maxProcess rotate countId htotal hdp
  constructor
  · intro hagree ops h hrun t ht
    have hb := hcreate.of_run hrun
    have hall := allStaged_of_run hcreate hagree
      ⟨all_create _ c m trace total maxBatched maxProcess rotate countId, fun _ _ => rfl⟩ hrun
    obtain ⟨b, hmem, htb⟩ := mem_running.mp ht
    have hstaged := hall.staged.2 b hmem t htb
    refine ⟨hstaged.flag, hstaged.firstToken, hstaged.count, ?_⟩
    intro hgen ops' h' hrun' t' ht' hid
    have hfrozen : Frozen t.firstTokenTime t.numSumIter t := by
      refine ⟨?_, hgen, hstaged.nonneg hgen, rfl, rfl⟩
      simpa [hgen] using hstaged.flag
    have hpushed : t.id ∈ h.pushed := by
      rw [← hb.places]
      have hrunning := Bookkeeping.mem_running_ids.mpr (List.mem_map_of_mem ht)
      exact Multiset.mem_add.mpr (.inl (Multiset.mem_add.mpr (.inr hrunning)))
    have hone : h.scheduler.All fun u => u.id = t.id →
        Frozen t.firstTokenTime t.numSumIter u := by
      constructor
      · intro u hu heq
        have hwait := (hb.disjoint.2.1 u.id (List.mem_map_of_mem hu)).1
        exact absurd (List.mem_map.mpr ⟨t, ht, heq.symm⟩) hwait
      · intro b' hmem' u hu heq
        obtain rfl := hb.eq_of_id_eq hmem' hu hmem htb heq
        exact hfrozen
    have hafter := Frozen.of_run hb (hb.fresh t.id hpushed) hone hrun'
    obtain ⟨b', hmem', htb'⟩ := mem_running.mp ht'
    have hkept := hafter.2 b' hmem' t' htb' hid
    exact ⟨hkept.firstToken, hkept.count⟩
  · intro hnot ha hplace
    have hreal : trace.realData = false := by
      cases hreal : trace.realData with
      | true => exact absurd (.inl hreal) hnot
      | false => rfl
    set s₀ := Scheduler.create c m trace total maxBatched maxProcess rotate countId with hs₀
    have hin : s₀.pushModel.inputLen = m.inputLen := by
      have hmodel : s₀.pushModel = clampOutputLen m := by simp [pushModel, hs₀, hreal,
        Scheduler.create, initRunningQueue]
      rw [hmodel]
      exact (clampOutputLen_fst m).1
    have hstart : ∀ t, Started s₀.systemConfig s₀.pushModel s₀.trace t →
        t.sumStage = true ∧ ¬t.InSum := by
      intro t ht
      obtain ⟨hflag, -, -, hstage⟩ := ht.stage
      rw [startsInPrefill_congr hin] at hstage
      exact ⟨hflag, fun hsum => hnot (hstage.mp hsum)⟩
    obtain ⟨h, hrun, hall, b, hmem, t, ht⟩ := exists_admitted c m trace total maxBatched
      maxProcess rotate countId hs₀ htotal hdp hplace hreal ha hstart fun _ _ ht => ht
    exact ⟨h, hrun, t, mem_running.mpr ⟨b, hmem, ht⟩, hall.2 b hmem t ht⟩

/-- A prefill in two chunks of two tokens, then decode. -/
theorem stages_agree_two_chunks : ∃ h : History,
    Runs.Run History.Step
      (.init (Scheduler.create { numNode := 1, numDevice := 1 }
        { maxSeqLen := 16, inputLen := 4, outputLen := 3 } {} 1 64 2 0 0))
      [.pushSeq 1 [], .fillRunningQueue, .setMetadata, .updateScheduler 2, .setMetadata,
        .updateScheduler 3, .setMetadata, .updateScheduler 7] h ∧
    ∃ t ∈ h.scheduler.running, t.firstTokenTime = 5 ∧ t.numSumIter = 2 := by
  refine ⟨_, .of_foldlM rfl, _, List.mem_cons_self .., ?_⟩
  have hagree := (stages_agree { numNode := 1, numDevice := 1 }
    { maxSeqLen := 16, inputLen := 4, outputLen := 3 } {} 1 64 2 0 0 rfl (by decide)
    (by decide)).1 (.inr (by decide)) [.pushSeq 1 [], .fillRunningQueue, .setMetadata,
      .updateScheduler 2, .setMetadata, .updateScheduler 3, .setMetadata, .updateScheduler 7]
    _ (.of_foldlM rfl) _ (List.mem_cons_self ..)
  exact ⟨hagree.2.1.trans (by decide +kernel), hagree.2.2.1.trans (by decide +kernel)⟩

/-- In `decode_mode` a sequence starts at the end of its input and keeps the flag. -/
theorem stages_disagree : ∃ h : History,
    Runs.Run History.Step
      (.init (Scheduler.create { numNode := 1, numDevice := 1, decodeMode := true }
        { maxSeqLen := 16, inputLen := 4, outputLen := 3 } {} 1 64 64 0 0))
      [.pushSeq 1 [], .fillRunningQueue, .setMetadata, .updateScheduler 7] h ∧
    ∃ t ∈ h.scheduler.running, t.sumStage = true ∧ ¬t.InSum ∧ t.firstTokenTime = 7 :=
  ⟨_, .of_foldlM rfl, _, List.mem_cons_self .., by decide, by decide, by decide +kernel⟩

end LlmSystem
