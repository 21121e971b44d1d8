import LlmSystem.Scheduler.OnTrack

/-!
Lengths over whole runs. A sequence is popped by the test `current_len == total_len`, so
it must never be at or past its end when an update begins.
-/
namespace LlmSystem

open Scheduler

/-! ### Counting the updates that advance a sequence -/

theorem servedIds_le (p : Sequence → Bool) (l : List BatchedSequence) :
    servedIds p l ≤ runningIds l := by
  apply List.sum_le_sum
  intro b _
  exact (List.filter_sublist.map Sequence.id).subperm

/-- An update advances a running sequence once, if it has tokens. -/
theorem count_servedIds {h : History} (hb : Bookkeeping h) (p : Sequence → Bool)
    {b : BatchedSequence} {t : Sequence} (hmem : b ∈ h.scheduler.runningQueue)
    (ht : t ∈ b.sequence) :
    (servedIds p h.scheduler.runningQueue).count t.id
      ≤ if p t = true ∧ 0 < t.numProcessToken then 1 else 0 := by
  have hle := servedIds_le p h.scheduler.runningQueue
  have hone : (servedIds p h.scheduler.runningQueue).count t.id ≤ 1 :=
    (Multiset.count_le_of_le t.id hle).trans (Multiset.nodup_iff_count_le_one.mp hb.runningNodup _)
  split_ifs with hserved
  · exact hone
  · by_contra hpos
    have hin : t.id ∈ servedIds p h.scheduler.runningQueue :=
      Multiset.count_pos.mp (by omega)
    obtain ⟨i, b', hb', hid⟩ := exists_index hin
    obtain ⟨t', ht', heq⟩ := List.mem_map.mp (Multiset.mem_coe.mp hid)
    obtain ⟨ht', hp⟩ := List.mem_filter.mp ht'
    obtain rfl := hb.eq_of_id_eq (List.mem_of_getElem? hb') ht' hmem ht heq
    exact hserved (by simpa using hp)

theorem count_servedIds_waiting {h : History} (hb : Bookkeeping h) (p : Sequence → Bool)
    {t : Sequence} (ht : t ∈ h.scheduler.sequenceQueue) :
    (servedIds p h.scheduler.runningQueue).count t.id = 0 := by
  have hnd := hb.nodup
  rw [← hb.places] at hnd
  have hdisj := (Multiset.nodup_add.mp (Multiset.nodup_add.mp hnd).1).2.2
  apply Multiset.count_eq_zero.mpr
  intro hin
  have hwait : t.id ∈ h.queued := Multiset.mem_coe.mpr (List.mem_map_of_mem ht)
  exact Multiset.disjoint_left.mp hdisj hwait (Multiset.mem_of_le (servedIds_le p _) hin)

/-- The lengths invariant: `served` counts at most the tokens a sequence has behind it. -/
structure Lengths (h : History) : Prop where
  onTrack : h.scheduler.All (OnTrack h.scheduler.maxProcessToken)
  served_old : ∀ id ∈ h.served, id < h.scheduler.countId
  served_le : h.scheduler.All fun t => (h.served.count t.id : ℤ) ≤ t.currentLen

theorem LeavesRoom.of_setup {s s' : Scheduler} (hset : SameSetup s s') (h : LeavesRoom s) :
    LeavesRoom s' := by
  obtain ⟨hinc, hstage⟩ := h
  constructor
  · rw [hset.trace, hset.systemConfig, hset.model]
    exact hinc
  · rw [hset.trace, hset.systemConfig, hset.model, hset.maxProcessToken]
    exact hstage

theorem InRange.of_setup {s s' : Scheduler} (hset : SameSetup s s') (h : InRange s) :
    InRange s' := by
  have hmax : s'.modelConfig.maxSeqLen = s.modelConfig.maxSeqLen := by
    have heq := congrArg ModelConfig.maxSeqLen hset.model
    rwa [(clampOutputLen_fst _).2, (clampOutputLen_fst _).2] at heq
  obtain ⟨h0, h1, hlt⟩ := h
  constructor
  · exact hset.systemConfig ▸ h0
  · exact hset.systemConfig ▸ h1
  · exact hmax ▸ hlt

theorem Effect.lengths {h h' : History} (heff : Effect h h') (hb : Bookkeeping h)
    (hrange : InRange h.scheduler) (hroom : LeavesRoom h.scheduler) (hl : Lengths h) :
    Lengths h' := by
  cases heff with
  | push hpush =>
    rename_i s' new
    have hmax : s'.maxProcessToken = h.scheduler.maxProcessToken := by rw [hpush.frame]
    have hcount : s'.countId = h.scheduler.countId + new.length := by rw [hpush.frame]
    refine ⟨?_, fun id hid => ?_, ?_⟩
    · have hnew : Pushes (OnTrack h.scheduler.maxProcessToken) _ s' new :=
        ⟨hpush.frame, hpush.ids, fun t ht => (hpush.all t ht).onTrack hrange hroom⟩
      change s'.All (OnTrack s'.maxProcessToken)
      rw [hmax]
      exact all_push hl.onTrack hnew
    · change id < s'.countId
      have hold := hl.served_old id hid
      omega
    · refine all_push hl.served_le (m := h.scheduler.pushModel) ⟨hpush.frame, hpush.ids, ?_⟩
      intro t ht
      -- a fresh id has not been served
      have hid : t.id ∈ List.range' h.scheduler.countId new.length :=
        hpush.ids ▸ List.mem_map_of_mem ht
      have hzero : h.served.count t.id = 0 := Multiset.count_eq_zero.mpr fun hin =>
        absurd (hl.served_old _ hin) (not_lt.mpr (List.mem_range'_1.mp hid).1)
      rw [hzero]
      exact ((hpush.all t ht).onTrack hrange hroom).current_nonneg
  | fill hfill =>
    have hstamp : ∀ t, (h.served.count t.id : ℤ) ≤ t.currentLen →
        (h.served.count (h.scheduler.stampDelay t).id : ℤ)
          ≤ (h.scheduler.stampDelay t).currentLen := by
      intro t ht
      unfold stampDelay
      split_ifs <;> exact ht
    refine ⟨?_, fun id hid => ?_, all_fill hl.served_le hstamp hfill⟩
    · have hmax : h.scheduler.fillRunningQueue.maxProcessToken
          = h.scheduler.maxProcessToken := by rw [hfill.frame]
      change h.scheduler.fillRunningQueue.All _
      rw [hmax]
      exact all_fill hl.onTrack (fun t ht => ht.stampDelay _) hfill
    · change id < h.scheduler.fillRunningQueue.countId
      rw [hfill.frame]
      exact hl.served_old id hid
  | clock => exact ⟨hl.onTrack, hl.served_old, hl.served_le⟩
  | assign =>
    have htrack : (h.scheduler.mapRunning h.scheduler.assignTokens).All
        (OnTrack h.scheduler.maxProcessToken) :=
      all_mapRunning hl.onTrack fun b t ht => ht.assignTokens b
    refine ⟨htrack, hl.served_old, ?_⟩
    apply all_mapRunning hl.served_le
    intro b t ht
    obtain ⟨n, hn⟩ := h.scheduler.assignTokens_eq b t
    rw [hn]
    exact ht
  | stamp f hf =>
    refine ⟨all_mapRunning hl.onTrack fun b t ht => ?_, hl.served_old,
      all_mapRunning hl.served_le fun b t ht => ?_⟩ <;>
      rcases hf t with heq | ⟨time, heq⟩ <;> rw [heq]
    · exact ht
    · exact ht.congr rfl rfl rfl rfl
    · exact ht
    · exact ht
  | update p f time hf =>
    refine ⟨?_, ?_, ?_, ?_⟩
    · apply all_serveAll hl.onTrack
      intro t t' ht hkeep
      obtain ⟨hc, hn, htot, hin, -⟩ := update_lengths t (hf t)
      exact ht.settle hc hn htot hin hkeep
    · intro id hid
      rcases Multiset.mem_add.mp hid with hold | hnew
      · exact hl.served_old id hold
      · have hrunning := Multiset.mem_of_le (servedIds_le p _) hnew
        refine hb.fresh id (hb.places ▸ ?_)
        exact Multiset.mem_add.mpr (.inl (Multiset.mem_add.mpr (.inr hrunning)))
    · intro t ht
      change ((h.served + servedIds p h.scheduler.runningQueue).count t.id : ℤ) ≤ t.currentLen
      rw [Multiset.count_add, count_servedIds_waiting hb p ht, Nat.add_zero]
      exact hl.served_le.1 t ht
    · intro b' hb' t ht
      obtain ⟨b, hmem, rfl⟩ := List.mem_map.mp hb'
      change ((h.served + servedIds p h.scheduler.runningQueue).count t.id : ℤ) ≤ t.currentLen
      rw [Multiset.count_add]
      obtain ⟨t₀, ht₀, ⟨hp, hkeep⟩ | ⟨hp, rfl⟩⟩ := mem_serve ht
      · obtain ⟨hc, -, -, -, hid⟩ := update_lengths t₀ (hf t₀)
        have hold := hl.served_le.2 b hmem t₀ ht₀
        have hnew := count_servedIds hb p hmem ht₀
        have htok := (hl.onTrack.2 b hmem t₀ ht₀).token_nonneg
        rw [settle_id hkeep, hid, (settle_lengths hkeep).1, hc]
        split_ifs at hnew <;> omega
      · have hold := hl.served_le.2 b hmem t ht₀
        have hnew := count_servedIds hb p hmem ht₀
        rw [if_neg (by simp [hp])] at hnew
        omega

theorem Lengths.of_run {h h' : History} {ops : List Op} (hb : Bookkeeping h) (hl : Lengths h)
    (hrange : InRange h.scheduler) (hroom : LeavesRoom h.scheduler)
    (hrun : Runs.Run History.Step h ops h') : Lengths h' := by
  induction hrun with
  | nil => exact hl
  | cons hstep _ ih =>
    have heff := hstep.effect hb.distinctIds
    have hset := heff.sameSetup
    exact ih (heff.bookkeeping hb) (heff.lengths hb hrange hroom hl) (hrange.of_setup hset)
      (hroom.of_setup hset)

theorem Lengths.create (c : SystemConfig) (m : ModelConfig) (trace : ExpertTrace)
    (total maxBatched maxProcess : ℤ) (rotate countId : ℕ) :
    Lengths (.init (Scheduler.create c m trace total maxBatched maxProcess rotate countId)) := by
  have hall := fun P => all_create P c m trace total maxBatched maxProcess rotate countId
  exact ⟨hall _, fun id hid => absurd hid (Multiset.notMem_zero id), hall _⟩

/-- A sequence is waiting or running. -/
def History.Holds (h : History) (t : Sequence) : Prop :=
  t ∈ h.scheduler.sequenceQueue ∨ ∃ b ∈ h.scheduler.runningQueue, t ∈ b.sequence

namespace Lengths
variable {h : History}

theorem bounded (hl : Lengths h) : ∀ b ∈ h.scheduler.runningQueue, ∀ t ∈ b.sequence,
    0 ≤ t.currentLen ∧ t.currentLen + t.numProcessToken ≤ t.totalLen := by
  intro b hmem t ht
  have htrack := hl.onTrack.2 b hmem t ht
  exact ⟨htrack.current_nonneg, htrack.bounded⟩

/-- An update leaves no sequence at its end. -/
theorem unfinished_update (hl : Lengths h) (hb : Bookkeeping h) (hrange : InRange h.scheduler)
    (hroom : LeavesRoom h.scheduler) (time : ℚ) :
    ∀ b ∈ (h.scheduler.updateScheduler time).1.runningQueue, ∀ t ∈ b.sequence,
      t.currentLen < t.totalLen := by
  have hstep : h.Step (.updateScheduler time)
      (h.update (fun _ => true) (h.scheduler.updateScheduler time)) := rfl
  have hnext := (hstep.effect hb.distinctIds).lengths hb hrange hroom hl
  exact fun b hmem t ht => (hnext.onTrack.2 b hmem t ht).unfinished

/-- A sequence that was pushed is returned, or held with fewer updates than tokens. -/
theorem returned_or_held (hl : Lengths h) (hb : Bookkeeping h) {id : ℕ} (hid : id ∈ h.pushed) :
    (∃ call, h.At id (.returned call)) ∨
      ∃ t, h.Holds t ∧ t.id = id ∧ (h.served.count id : ℤ) < t.totalLen := by
  have hlt : ∀ t, h.Holds t → (h.served.count t.id : ℤ) < t.totalLen := by
    rintro t (ht | ⟨b, hmem, ht⟩)
    · exact (hl.served_le.1 t ht).trans_lt (hl.onTrack.1 t ht).unfinished
    · exact (hl.served_le.2 b hmem t ht).trans_lt (hl.onTrack.2 b hmem t ht).unfinished
  obtain ⟨place, hat, -⟩ := hb.existsUnique_place hid
  cases place with
  | waiting =>
    obtain ⟨t, ht, rfl⟩ := List.mem_map.mp (Multiset.mem_coe.mp hat)
    exact .inr ⟨t, .inl ht, rfl, hlt t (.inl ht)⟩
  | batch i =>
    obtain ⟨b, hmem, hid'⟩ := hat
    obtain ⟨t, ht, rfl⟩ := List.mem_map.mp (Multiset.mem_coe.mp hid')
    have hholds : h.Holds t := .inr ⟨b, List.mem_of_getElem? hmem, ht⟩
    exact .inr ⟨t, hholds, rfl, hlt t hholds⟩
  | returned call => exact .inl ⟨call, hat⟩

end Lengths

/-- A sequence past its end, or at its end and about to be given a token. -/
structure Complete (t : Sequence) : Prop where
  input_le : t.inputLen ≤ t.currentLen
  total_le : t.totalLen ≤ t.currentLen
  ungated : t.genStartTime = 0

theorem Scheduler.Started.complete {s : Scheduler}
    (hstart : StartsComplete s.systemConfig (clampOutputLen s.modelConfig))
    (hrange : InRange s) (hreal : s.trace.realData = false) {t : Sequence}
    (ht : Started s.systemConfig s.pushModel s.trace t) : Complete t := by
  cases ht with
  | dummy id arrival _ hmax hin hout =>
    have hmodel : s.pushModel = clampOutputLen s.modelConfig := by simp [pushModel, hreal]
    have hmax' := (clampOutputLen_fst s.modelConfig).2
    have hlt := hrange.maxSeqLen_lt
    rw [hmodel] at hmax hin hout ⊢
    set m := clampOutputLen s.modelConfig
    have hdummy : (dummySeq m id arrival).currentLen = 0 := rfl
    obtain ⟨hi, -, htot, -⟩ := applyModes_lengths s.systemConfig m.inputLen _ hdummy
    obtain ⟨-, -, hat⟩ := applyModes_currentLen hrange.rate_nonneg hrange.rate_le hin
      (by omega) hdummy
    set t := applyModes s.systemConfig m.inputLen (dummySeq m id arrival) with ht
    have hcur : t.currentLen = m.inputLen := hat.mpr hstart.1
    have hi : t.inputLen = m.inputLen := hi
    have htot : t.totalLen = if s.systemConfig.prefillMode then m.inputLen
      else m.inputLen + m.outputLen - 1 := htot
    refine ⟨by omega, ?_, ?_⟩
    · rw [htot, hcur]
      split_ifs with hp
      · exact le_refl _
      · have hone := hstart.2.resolve_left hp
        omega
    · rw [ht]
      unfold applyModes
      dsimp only
      split_ifs <;> rfl
  | real id seqId info hreal' hin hout => exact absurd (hreal.symm.trans hreal') (by simp)

/-- With only completed sequences in the batches, each is given one more token. -/
theorem setMetadata_complete {s : Scheduler} (hs : s.All Complete) {b : BatchedSequence}
    (hb : b ∈ s.runningQueue) {t : Sequence} (ht : t ∈ b.sequence) :
    ∃ b' ∈ s.setMetadata.runningQueue, ∃ t' ∈ b'.sequence,
      t'.totalLen < t'.currentLen + t'.numProcessToken := by
  have hsum : s.hasSumSeq = false := by
    unfold hasSumSeq
    apply List.any_eq_false.mpr
    intro b' hb'
    have hnil : b'.getSum = [] := List.filter_eq_nil_iff.mpr fun t' ht' => by
      rw [decide_eq_true_eq]
      exact not_lt.mpr (hs.2 b' hb' t' ht').input_le
    simp [hnil]
  have htc := hs.2 b hb t ht
  refine ⟨_, List.mem_map_of_mem hb, _, List.mem_map_of_mem ht, ?_⟩
  have hgen : ¬t.InSum := not_lt.mpr htc.input_le
  have htot := htc.total_le
  simp only [if_neg hgen, processGen, hsum, Bool.not_false, Bool.or_true, ↓reduceIte, setGenToken,
    htc.ungated]
  omega

/-- The assertions of `pushSeq` and of the sequence constructor pass. -/
structure Accepted (m : ModelConfig) : Prop where
  input_lt : m.inputLen < m.maxSeqLen
  input_pos : 0 < m.inputLen
  output_pos : 0 < (clampOutputLen m).outputLen

theorem pushSeq_accepted {s : Scheduler} (hreal : s.trace.realData = false)
    (ha : Accepted s.modelConfig) (draws : List ℕ) :
    ∃ s', s.pushSeq 1 draws = .ok s' ∧
      s'.sequenceQueue.length = s.sequenceQueue.length + 1 := by
  have hin := (clampOutputLen_fst s.modelConfig).1
  have hpos : 0 < (clampOutputLen s.modelConfig).inputLen := hin ▸ ha.input_pos
  unfold pushSeq
  rw [if_neg (by simp [hreal]), if_pos ha.input_lt]
  simp only [Int.toNat_one, pushDummySeqs, pushDummySeq, if_neg ha.output_pos.ne', Sequence.create,
    if_pos hpos, if_pos ha.output_pos]
  refine ⟨_, rfl, ?_⟩
  simp

theorem exists_running {s : Scheduler} (h : 0 < s.getBatchSize) :
    ∃ b ∈ s.runningQueue, ∃ t, t ∈ b.sequence := by
  by_contra hnone
  push Not at hnone
  have hzero : s.getBatchSize = 0 := by
    apply List.sum_eq_zero
    intro n hn
    obtain ⟨b, hb, rfl⟩ := List.mem_map.mp hn
    simp [BatchedSequence.getNumSeq, List.eq_nil_iff_forall_not_mem.mpr (hnone b hb)]
  omega

/-- An accepted synthetic configuration with a place in its batches admits a sequence. -/
theorem exists_admitted (c : SystemConfig) (m : ModelConfig) (trace : ExpertTrace)
    (total maxBatched maxProcess : ℤ) (rotate countId : ℕ) {s₀ : Scheduler}
    (hs₀ : s₀ = Scheduler.create c m trace total maxBatched maxProcess rotate countId)
    (htotal : 0 ≤ total) (hdp : 1 ≤ s₀.dpDegree) (hplace : 1 ≤ s₀.batchSizePerDp)
    (hreal : trace.realData = false) (ha : Accepted m) {P : Sequence → Prop}
    (hstart : ∀ t, Started s₀.systemConfig s₀.pushModel s₀.trace t → P t)
    (hdelay : ∀ t delay, P t → P { t with queueingDelay := delay }) :
    ∃ h : History, Runs.Run History.Step (.init s₀) [.pushSeq 1 [], .fillRunningQueue] h ∧
      h.scheduler.All P ∧ ∃ b ∈ h.scheduler.runningQueue, ∃ t, t ∈ b.sequence := by
  subst hs₀
  have hcreate := Bookkeeping.create c m trace total maxBatched maxProcess rotate countId htotal hdp
  have hall₀ := all_create P c m trace total maxBatched maxProcess rotate countId
  set s₀ := Scheduler.create c m trace total maxBatched maxProcess rotate countId
  obtain ⟨s₁, hpush, hlen⟩ := pushSeq_accepted (s := s₀) hreal ha []
  have hstep₁ : (History.init s₀).Step (.pushSeq 1 []) ((History.init s₀).push s₁) := by
    change (s₀.pushSeq 1 [] >>= _) = _
    rw [hpush]
    rfl
  have hb₁ := (hstep₁.effect hcreate.distinctIds).bookkeeping hcreate
  obtain ⟨new, hnew⟩ := pushSeq_pushes hpush
  have hall₁ : s₁.All P := all_push hall₀
    ⟨hnew.frame, hnew.ids, fun t ht => hstart t (hnew.all t ht)⟩
  obtain ⟨k, hfill, hend⟩ := s₁.fillRunningQueue_admits hb₁.room hb₁.fits
  have hstamp : ∀ t, P t → P (s₁.stampDelay t) := by
    intro t ht
    unfold stampDelay
    split_ifs
    · exact hdelay t _ ht
    · exact ht
  refine ⟨_, .cons hstep₁ (.cons rfl (.nil _)), all_fill hall₁ hstamp hfill, ?_⟩
  -- the pushed sequence was admitted, or every place was taken
  rcases hend with hempty | hfull
  · refine exists_running ?_
    have hk : k = 1 := by
      have hdrop := congrArg List.length hempty
      rw [hfill.frame] at hdrop
      have hle := hfill.le
      simp only [List.length_drop, List.length_nil] at hdrop
      have hzero : s₀.sequenceQueue.length = 0 := rfl
      omega
    have hsize := hfill.getBatchSize
    have hnonneg : 0 ≤ s₁.getBatchSize := by
      rw [getBatchSize, ← card_runningIds]
      exact Int.natCast_nonneg _
    change 0 < s₁.fillRunningQueue.getBatchSize
    omega
  · have hcap : s₁.fillRunningQueue.batchSizePerDp = s₀.batchSizePerDp := by
      rw [hfill.frame, hnew.frame]
    have hlen : s₁.fillRunningQueue.runningQueue.length = s₀.dpDegree.toNat := by
      rw [← hfill.grow.length_eq, hnew.frame]
      exact List.length_replicate
    obtain ⟨b, hb⟩ := List.exists_mem_of_length_pos (by omega :
      0 < s₁.fillRunningQueue.runningQueue.length)
    have hcount : s₁.fillRunningQueue.batchSizePerDp ≤ (b.sequence.length : ℤ) := hfull b hb
    obtain ⟨t, ht⟩ := List.exists_mem_of_length_pos (by omega : 0 < b.sequence.length)
    exact ⟨b, hb, t, ht⟩

/-- The condition is needed: an accepted synthetic configuration that starts sequences at
their end overshoots in three calls. -/
theorem startsComplete_overshoots (c : SystemConfig) (m : ModelConfig) (trace : ExpertTrace)
    (total maxBatched maxProcess : ℤ) (rotate countId : ℕ) {s₀ : Scheduler}
    (hs₀ : s₀ = Scheduler.create c m trace total maxBatched maxProcess rotate countId)
    (htotal : 0 ≤ total) (hdp : 1 ≤ s₀.dpDegree) (hplace : 1 ≤ s₀.batchSizePerDp)
    (hrange : InRange s₀) (hreal : trace.realData = false) (ha : Accepted m)
    (hstart : StartsComplete c (clampOutputLen m)) :
    ∃ h : History, Runs.Run History.Step (.init s₀)
        [.pushSeq 1 [], .fillRunningQueue, .setMetadata] h ∧
      ∃ b ∈ h.scheduler.runningQueue, ∃ t ∈ b.sequence,
        t.totalLen < t.currentLen + t.numProcessToken := by
  subst hs₀
  obtain ⟨h, hrun, hall, b, hmem, t, ht⟩ := exists_admitted c m trace total maxBatched maxProcess
    rotate countId rfl htotal hdp hplace hreal ha (P := Complete)
    (fun t ht => ht.complete hstart hrange hreal)
    (fun t delay ht => ⟨ht.input_le, ht.total_le, ht.ungated⟩)
  exact ⟨_, hrun.append (.single rfl), setMetadata_complete hall hmem ht⟩

end LlmSystem
