import LlmSystem.Scheduler.Following
import LlmSystem.Scheduler.Servable
import Mathlib.Algebra.BigOperators.Group.Finset.Basic

/-!
Draining the batches: `setMetadata` and `updateScheduler` in turn, with nothing admitted.
The tokens that the running sequences still have to process bound the number of iterations.
-/
namespace LlmSystem

open Scheduler

namespace Scheduler

/-- One iteration without an admission, with the token list it returns. -/
def advance (s : Scheduler) (time : ℚ) : Scheduler × List Sequence :=
  s.setMetadata.updateScheduler time

/-- The scheduler before the iteration `n`. -/
def drain (s : Scheduler) (times : ℕ → ℚ) : ℕ → Scheduler
  | 0 => s
  | n + 1 => ((s.drain times n).advance (times n)).1

/-- The tokens the running sequences still have to process. -/
def remaining (s : Scheduler) : ℤ := (s.running.map fun t => t.totalLen - t.currentLen).sum

/-- The tokens assigned to the running sequence with an id. -/
def tokensOf (s : Scheduler) (id : ℕ) : ℤ :=
  ((s.running.filter fun t => t.id = id).map (·.numProcessToken)).sum

theorem getNumProcessToken_eq (s : Scheduler) :
    s.getNumProcessToken = (s.running.map (·.numProcessToken)).sum := by
  unfold getNumProcessToken BatchedSequence.getProcessToken running
  induction s.runningQueue with
  | nil => simp
  | cons b l ih => simp [ih]

theorem running_updateScheduler {s : Scheduler} (hd : s.DistinctIds) (time : ℚ) :
    (s.updateScheduler time).1.running
        = s.running.filterMap fun t => settle (t.update time) := by
  rw [updateScheduler_eq hd, running_serveAll]
  simp

theorem returned_updateScheduler {s : Scheduler} (hd : s.DistinctIds) (time : ℚ) :
    (s.updateScheduler time).2 = s.running.flatMap fun t => report (t.update time) := by
  rw [updateScheduler_eq hd, returned_serveAll]
  simp

theorem mem_running_setMetadata {s : Scheduler} {u : Sequence} :
    u ∈ s.setMetadata.running ↔
      ∃ b ∈ s.runningQueue, ∃ t ∈ b.sequence, u = s.assignTokens b t := by
  rw [setMetadata_eq]
  simp only [running, mapRunning, BatchedSequence.modify, List.flatMap_map, List.mem_flatMap,
    List.mem_map, eq_comm]

/-- `setMetadata` keeps every sequence in its place. -/
theorem running_map_setMetadata {β : Type*} (s : Scheduler) (f : Sequence → β)
    (hf : ∀ t n, f { t with numProcessToken := n } = f t) :
    s.setMetadata.running.map f = s.running.map f := by
  rw [setMetadata_eq]
  simp only [running, mapRunning, BatchedSequence.modify, List.flatMap_map, List.map_flatMap,
    List.map_map]
  apply List.flatMap_congr
  intro b _
  apply List.map_congr_left
  intro t _
  obtain ⟨n, hn⟩ := s.assignTokens_eq b t
  simp [hn, hf]

/-- An iteration takes the assigned tokens off what remains. -/
theorem remaining_advance {s : Scheduler} (hd : s.setMetadata.DistinctIds) (time : ℚ) :
    (s.advance time).1.remaining = s.remaining - s.setMetadata.getNumProcessToken := by
  have hsame : s.setMetadata.remaining = s.remaining := by
    unfold remaining
    rw [running_map_setMetadata s _ fun _ _ => rfl]
  rw [← hsame, getNumProcessToken_eq]
  unfold advance remaining
  rw [running_updateScheduler hd, ← Residues.sum_map_sub]
  apply Residues.sum_map_filterMap
  intro u hu
  rcases settle_or_report (u.update time) with ⟨t', hkeep, -, -⟩ | ⟨hnone, -, hfin⟩
  · obtain ⟨hcur, htot, -, -⟩ := settle_lengths hkeep
    simp only [Sequence.update_currentLen, Sequence.update_totalLen] at hcur htot
    simp only [hkeep, Option.elim_some]
    omega
  · have hfin : u.currentLen + u.numProcessToken = u.totalLen := by
      simpa [Sequence.Finished] using hfin
    simp only [hnone, Option.elim_none]
    omega

end Scheduler

/-- A state that drains. -/
structure Draining (s : Scheduler) : Prop where
  mixed : s.systemConfig.disaggSystem = false
  budget : s.batchSizePerDp ≤ s.maxProcessToken
  room : s.Roomy
  nodup : (s.running.map Sequence.id).Nodup
  unfinished : ∀ t ∈ s.running, t.currentLen < t.totalLen
  input_le : ∀ t ∈ s.running, t.inputLen ≤ t.totalLen
  unassigned : ∀ t ∈ s.running, t.numProcessToken = 0
  ungated : ∀ t ∈ s.running, s.GateOpen t

/-- An assignment never passes the end of a sequence. -/
theorem assigned_le {s : Scheduler} {b : BatchedSequence} {t : Sequence}
    (hzero : t.numProcessToken = 0) (hlt : t.currentLen < t.totalLen)
    (hin : t.inputLen ≤ t.totalLen) :
    t.currentLen + (s.assignTokens b t).numProcessToken ≤ t.totalLen := by
  unfold assignTokens setSumToken setGenToken
  split_ifs
  · simp only
    omega
  · omega
  · exact hlt
  · exact hlt
  · omega
  · omega

namespace Draining
variable {s : Scheduler}

theorem distinctIds (hs : Draining s) : s.DistinctIds := by
  have hnd := hs.nodup
  unfold running at hnd
  rw [List.map_flatMap, List.nodup_flatMap] at hnd
  exact hnd.1

theorem distinctIds_setMetadata (hs : Draining s) : s.setMetadata.DistinctIds := by
  intro b' hb'
  obtain ⟨b, hb, rfl⟩ := List.mem_map.mp hb'
  have hids : ((s.setBatchMetadata b).sequence.map Sequence.id) = b.sequence.map Sequence.id := by
    simp only [setBatchMetadata, BatchedSequence.modify, List.map_map]
    apply List.map_congr_left
    intro t _
    obtain ⟨n, hn⟩ := s.assignTokens_eq b t
    change (s.assignTokens b t).id = t.id
    rw [hn]
  rw [hids]
  exact hs.distinctIds b hb

theorem max_pos (hs : Draining s) {b : BatchedSequence} (hb : b ∈ s.runningQueue) {t : Sequence}
    (ht : t ∈ b.sequence) : 1 ≤ s.maxProcessToken := by
  have hroom : (b.sequence.length : ℤ) ≤ s.batchSizePerDp := hs.room b hb
  have hlen := List.length_pos_of_mem ht
  have hbudget := hs.budget
  omega

theorem held (hs : Draining s) {b : BatchedSequence} (hb : b ∈ s.runningQueue) {t : Sequence}
    (ht : t ∈ b.sequence) : s.Held t := .inl (hs.unassigned t (mem_running.mpr ⟨b, hb, ht⟩))

/-- What `setMetadata` leaves: no negative assignment, and none past the end. -/
theorem loaded (hs : Draining s) {u : Sequence} (hu : u ∈ s.setMetadata.running) :
    ∃ t ∈ s.running, ∃ n, u = { t with numProcessToken := n } ∧ 0 ≤ n ∧
      t.currentLen + n ≤ t.totalLen := by
  obtain ⟨b, hb, t, ht, rfl⟩ := mem_running_setMetadata.mp hu
  have hmem := mem_running.mpr ⟨b, hb, ht⟩
  have hmax := hs.max_pos hb ht
  obtain ⟨n, hn⟩ := s.assignTokens_eq b t
  refine ⟨t, hmem, n, hn, ?_, ?_⟩
  · have hpos := (assigned_tokens (by omega) hb ht (hs.held hb ht)).1
    simpa [hn] using hpos
  · have hle := assigned_le (s := s) (b := b) (hs.unassigned t hmem) (hs.unfinished t hmem)
      (hs.input_le t hmem)
    simpa [hn] using hle

theorem mem_next (hs : Draining s) {time : ℚ} {t' : Sequence}
    (ht' : t' ∈ (s.advance time).1.running) :
    ∃ t ∈ s.running, ∃ n, 0 ≤ n ∧ t.currentLen + n ≤ t.totalLen ∧
      settle (Sequence.update { t with numProcessToken := n } time) = some t' := by
  unfold advance at ht'
  rw [running_updateScheduler hs.distinctIds_setMetadata] at ht'
  obtain ⟨u, hu, hkeep⟩ := List.mem_filterMap.mp ht'
  obtain ⟨t, ht, n, rfl, hpos, hle⟩ := hs.loaded hu
  exact ⟨t, ht, n, hpos, hle, hkeep⟩

theorem next (hs : Draining s) (time : ℚ) : Draining (s.advance time).1 := by
  have hafter := updateScheduler_eq hs.distinctIds_setMetadata time
  constructor
  · exact hs.mixed
  · exact hs.budget
  · unfold advance
    rw [hafter]
    exact roomy_serveAll (roomy_mapRunning hs.room)
  · have hsub : (((s.advance time).1.running).map Sequence.id).Sublist
        (s.setMetadata.running.map Sequence.id) := by
      unfold advance
      rw [running_updateScheduler hs.distinctIds_setMetadata]
      apply Keyed.keys_filterMap
      intro t t' hkeep
      simpa using settle_id hkeep
    rw [running_map_setMetadata s Sequence.id fun _ _ => rfl] at hsub
    exact hs.nodup.sublist hsub
  · intro t' ht'
    obtain ⟨t, ht, n, hpos, hle, hkeep⟩ := hs.mem_next ht'
    have hne := settle_unfinished hkeep
    obtain ⟨hcur, htot, -, -⟩ := settle_lengths hkeep
    simp only [Sequence.update_currentLen, Sequence.update_totalLen] at hcur htot
    omega
  · intro t' ht'
    obtain ⟨t, ht, n, -, -, hkeep⟩ := hs.mem_next ht'
    obtain ⟨-, htot, hin, -⟩ := settle_lengths hkeep
    have hle := hs.input_le t ht
    simp only [Sequence.update_totalLen, Sequence.update_inputLen] at htot hin
    omega
  · intro t' ht'
    obtain ⟨t, ht, n, -, -, hkeep⟩ := hs.mem_next ht'
    simp [(settle_lengths hkeep).2.2.2]
  · intro t' ht'
    obtain ⟨t, ht, n, -, -, hkeep⟩ := hs.mem_next ht'
    have hgen := settle_genStartTime hkeep
    simp only [Sequence.update_genStartTime] at hgen
    unfold GateOpen
    rw [hgen]
    exact hs.ungated t ht

theorem remaining_next (hs : Draining s) (time : ℚ) :
    (s.advance time).1.remaining = s.remaining - s.setMetadata.getNumProcessToken :=
  remaining_advance hs.distinctIds_setMetadata time

theorem tokens_pos (hs : Draining s) (hne : s.running ≠ []) :
    0 < s.setMetadata.getNumProcessToken := by
  obtain ⟨t, ht⟩ := List.exists_mem_of_ne_nil _ hne
  obtain ⟨b, hb, ht⟩ := mem_running.mp ht
  have hmax := hs.max_pos hb ht
  have hfits : s.PrefillFits := by
    by_cases hsum : s.hasSumSeq = true
    · right
      obtain ⟨b', hb', hlen⟩ := List.any_eq_true.mp hsum
      refine ⟨b', hb', by simpa using hlen, ?_⟩
      have hroom : (b'.sequence.length : ℤ) ≤ s.batchSizePerDp := hs.room b' hb'
      have hle : b'.getSum.length ≤ b'.sequence.length := List.length_filter_le _ _
      have hbudget := hs.budget
      omega
    · exact .inl (by simpa using hsum)
  have hcan := (canServe_iff (by omega) hs.mixed
    (fun b hb t ht => hs.ungated t (mem_running.mpr ⟨b, hb, ht⟩))
    ⟨b, hb, List.ne_nil_of_mem ht⟩).mpr hfits
  have hne := (getNumProcessToken_setMetadata (by omega) fun b hb t ht => hs.held hb ht).mpr hcan
  have hnonneg : 0 ≤ s.setMetadata.getNumProcessToken := by
    rw [getNumProcessToken_eq]
    apply List.sum_nonneg
    intro n hn
    obtain ⟨u, hu, rfl⟩ := List.mem_map.mp hn
    obtain ⟨t, -, n, rfl, hpos, -⟩ := hs.loaded hu
    exact hpos
  omega

theorem remaining_pos (hs : Draining s) (hne : s.running ≠ []) : 0 < s.remaining := by
  unfold remaining
  apply List.sum_pos
  · intro n hn
    obtain ⟨t, ht, rfl⟩ := List.mem_map.mp hn
    have hlt := hs.unfinished t ht
    omega
  · simpa using hne

theorem drain (hs : Draining s) (times : ℕ → ℚ) (n : ℕ) : Draining (s.drain times n) := by
  induction n with
  | zero => exact hs
  | succ n ih => exact ih.next (times n)

/-- Every iteration processes at least one token until nothing runs. -/
theorem remaining_drain (hs : Draining s) (times : ℕ → ℚ) (n : ℕ) :
    (s.drain times n).running = [] ∨ (s.drain times n).remaining + n ≤ s.remaining := by
  induction n with
  | zero => exact .inr (by simp [Scheduler.drain])
  | succ n ih =>
    have hn := hs.drain times n
    have hnext := hn.remaining_next (times n)
    by_cases hne : (s.drain times n).running = []
    · left
      apply List.eq_nil_iff_forall_not_mem.mpr
      intro t ht
      obtain ⟨t₀, ht₀, -⟩ := hn.mem_next ht
      simp [hne] at ht₀
    · right
      have hpos := hn.tokens_pos hne
      have hrest := ih.resolve_left hne
      change ((s.drain times n).advance (times n)).1.remaining + _ ≤ _
      push_cast
      omega

theorem drained (hs : Draining s) (times : ℕ → ℚ) {n : ℕ} (hn : s.remaining ≤ n) :
    (s.drain times n).running = [] := by
  by_contra hne
  have hpos := (hs.drain times n).remaining_pos hne
  have hrest := (hs.remaining_drain times n).resolve_left hne
  omega

/-- An iteration advances a sequence by its tokens, or returns it at its end and pops it. -/
theorem step (hs : Draining s) (time : ℚ) {t : Sequence} (ht : t ∈ s.running) :
    (∃ t' ∈ (s.advance time).1.running, t'.id = t.id ∧ t'.totalLen = t.totalLen ∧
      t'.currentLen = t.currentLen + s.setMetadata.tokensOf t.id) ∨
    (t.id ∉ (s.advance time).1.running.map Sequence.id ∧
      t.currentLen + s.setMetadata.tokensOf t.id = t.totalLen ∧
      ∃ r ∈ (s.advance time).2, r.id = t.id ∧ r.currentLen = t.totalLen ∧
        r.totalLen = t.totalLen) := by
  obtain ⟨b, hb, ht⟩ := mem_running.mp ht
  have hids := running_map_setMetadata s Sequence.id fun _ _ => rfl
  have hnd : (s.setMetadata.running.map Sequence.id).Nodup := hids ▸ hs.nodup
  obtain ⟨n, hn⟩ := s.assignTokens_eq b t
  have hu : { t with numProcessToken := n } ∈ s.setMetadata.running :=
    mem_running_setMetadata.mpr ⟨b, hb, t, ht, hn.symm⟩
  have htokens : s.setMetadata.tokensOf t.id = n := by
    have hone := Keyed.filter_key_eq hnd hu
    unfold tokensOf
    simp [hone]
  rw [htokens]
  set u : Sequence := { t with numProcessToken := n }
  unfold advance
  rw [running_updateScheduler hs.distinctIds_setMetadata,
    returned_updateScheduler hs.distinctIds_setMetadata]
  rcases settle_or_report (u.update time) with ⟨t', hkeep, hid, -⟩ | ⟨hnone, hrep, hfin⟩
  · left
    obtain ⟨hcur, htot, -, -⟩ := settle_lengths hkeep
    refine ⟨t', List.mem_filterMap.mpr ⟨u, hu, hkeep⟩, ?_, ?_, ?_⟩
    · rw [hid, Sequence.update_id]
    · rw [htot, Sequence.update_totalLen]
    · rw [hcur, Sequence.update_currentLen]
  · right
    have hend : t.currentLen + n = t.totalLen := by simpa [Sequence.Finished] using hfin
    refine ⟨?_, hend, u.update time, ?_, ?_, ?_, ?_⟩
    · -- a sequence with this id could only come from the one that was popped
      intro hin
      obtain ⟨t', ht', hid⟩ := List.mem_map.mp hin
      obtain ⟨u', hu', hkeep⟩ := List.mem_filterMap.mp ht'
      have hid' : u'.id = u.id := by
        rw [← Sequence.update_id u' time, ← settle_id hkeep, hid]
      obtain rfl := Keyed.eq_of_key_eq hnd hu' hu hid'
      simp [hnone] at hkeep
    · apply List.mem_flatMap.mpr
      exact ⟨u, hu, by simp [hrep]⟩
    · simp [u]
    · simpa using hend
    · simp [u]

/-- Nothing enters the batches. -/
theorem ids_next (hs : Draining s) (time : ℚ) {id : ℕ}
    (hid : id ∈ (s.advance time).1.running.map Sequence.id) : id ∈ s.running.map Sequence.id := by
  obtain ⟨t', ht', rfl⟩ := List.mem_map.mp hid
  obtain ⟨t, ht, n, -, -, hkeep⟩ := hs.mem_next ht'
  rw [settle_id hkeep, Sequence.update_id]
  exact List.mem_map.mpr ⟨t, ht, rfl⟩

theorem gone (hs : Draining s) (times : ℕ → ℚ) {id n : ℕ}
    (hn : id ∉ (s.drain times n).running.map Sequence.id) {m : ℕ} (hm : n ≤ m) :
    id ∉ (s.drain times m).running.map Sequence.id := by
  induction m, hm using Nat.le_induction with
  | base => exact hn
  | succ m _ ih => exact fun hin => ih ((hs.drain times m).ids_next _ hin)

/-- As long as a sequence runs, its length is what it had and what it was assigned. -/
theorem tracked (hs : Draining s) (times : ℕ → ℚ) {t : Sequence} (ht : t ∈ s.running) {n : ℕ}
    (hn : t.id ∈ (s.drain times n).running.map Sequence.id) :
    ∃ u ∈ (s.drain times n).running, u.id = t.id ∧ u.totalLen = t.totalLen ∧
      u.currentLen = t.currentLen
        + ∑ i ∈ Finset.range n, (s.drain times i).setMetadata.tokensOf t.id := by
  induction n with
  | zero => exact ⟨t, ht, rfl, rfl, by simp⟩
  | succ n ih =>
    obtain ⟨u, hu, hid, htot, hcur⟩ := ih ((hs.drain times n).ids_next _ hn)
    rcases (hs.drain times n).step (times n) hu with
      ⟨u', hu', hid', htot', hcur'⟩ | ⟨hnot, -, -⟩
    · refine ⟨u', hu', hid'.trans hid, htot'.trans htot, ?_⟩
      rw [hcur', hcur, hid, Finset.sum_range_succ, add_assoc]
    · exact absurd (hid ▸ hn) hnot

end Draining

/-- The sequence `t` of `s` runs unfinished before the iterations up to `k`, and iteration `k`
returns and pops it at its `total_len`, with all its tokens processed. -/
structure PoppedBy (s : Scheduler) (times : ℕ → ℚ) (t : Sequence) (k : ℕ) : Prop where
  running : ∀ i ≤ k, ∃ u ∈ (s.drain times i).running, u.id = t.id ∧ u.totalLen = t.totalLen ∧
    u.currentLen < u.totalLen ∧ u.currentLen = t.currentLen
      + ∑ j ∈ Finset.range i, (s.drain times j).setMetadata.tokensOf t.id
  popped : ∃ r ∈ ((s.drain times k).advance (times k)).2, r.id = t.id ∧
    r.currentLen = t.totalLen ∧ r.totalLen = t.totalLen
  gone : ∀ i, k < i → t.id ∉ (s.drain times i).running.map Sequence.id
  processed : ∑ i ∈ Finset.range (k + 1), (s.drain times i).setMetadata.tokensOf t.id
    = t.totalLen - t.currentLen

theorem Draining.poppedBy {s : Scheduler} (hs : Draining s) (times : ℕ → ℚ) {t : Sequence}
    (ht : t ∈ s.running) : ∃ k : ℕ, (k : ℤ) < s.remaining ∧ PoppedBy s times t k := by
  classical
  have hpos := hs.remaining_pos (List.ne_nil_of_mem ht)
  -- `k` is the first iteration after which the sequence is no longer there
  have hends : ∃ k, t.id ∉ (s.drain times (k + 1)).running.map Sequence.id := by
    refine ⟨s.remaining.toNat, ?_⟩
    rw [hs.drained times (by omega)]
    simp
  obtain ⟨hgone, hfirst⟩ : t.id ∉ (s.drain times (Nat.find hends + 1)).running.map Sequence.id ∧
      ∀ i ≤ Nat.find hends, t.id ∈ (s.drain times i).running.map Sequence.id := by
    refine ⟨Nat.find_spec hends, ?_⟩
    intro i hi
    cases i with
    | zero => exact List.mem_map_of_mem ht
    | succ i => exact not_not.mp (Nat.find_min hends hi)
  generalize Nat.find hends = k at hgone hfirst
  have hk := hs.drain times k
  obtain ⟨u, hu, hid, htot, hcur⟩ := hs.tracked times ht (hfirst k (le_refl k))
  rcases hk.step (times k) hu with ⟨u', hu', hid', -⟩ | ⟨-, hend, r, hr, hidr, hcurr, htotr⟩
  · exact absurd (List.mem_map.mpr ⟨u', hu', hid'.trans hid⟩) hgone
  · refine ⟨k, ?_, ?_, ?_, ?_, ?_⟩
    · have hne := List.ne_nil_of_mem hu
      have hlow := hk.remaining_pos hne
      have hrest := (hs.remaining_drain times k).resolve_left hne
      omega
    · intro i hi
      obtain ⟨u, hu, hid, htot, hcur⟩ := hs.tracked times ht (hfirst i hi)
      exact ⟨u, hu, hid, htot, (hs.drain times i).unfinished u hu, hcur⟩
    · exact ⟨r, hr, hidr.trans hid, hcurr.trans htot, htotr.trans htot⟩
    · exact fun i hi => hs.gone times hgone hi
    · rw [Finset.sum_range_succ]
      rw [hid] at hend
      omega

/-! ### From every reachable state -/

theorem input_le_of_run {h h' : History} {ops : List Op} (hb : Bookkeeping h)
    (hall : h.scheduler.All fun t => t.inputLen ≤ t.totalLen)
    (hrun : Runs.Run History.Step h ops h') :
    h'.scheduler.All fun t => t.inputLen ≤ t.totalLen := by
  have hinv := hrun.invariant
    (I := fun h => Bookkeeping h ∧ h.scheduler.All fun t => t.inputLen ≤ t.totalLen) ?_ ⟨hb, hall⟩
  · exact hinv.2
  rintro h op h' ⟨hb, hall⟩ hstep
  have heff := hstep.effect hb.distinctIds
  refine ⟨heff.bookkeeping hb, heff.all ?_ ?_ ?_ ?_ ?_ hall⟩
  · exact fun t ht _ => ht.input_le
  · exact fun t _ ht => ht
  · exact fun t _ ht => ht
  · intro b t ht
    obtain ⟨n, hn⟩ := h.scheduler.assignTokens_eq b t
    rw [hn]
    exact ht
  · intro t time t' ht hkeep
    obtain ⟨-, htot, hin, -⟩ := settle_lengths hkeep
    rw [htot, hin, Sequence.update_totalLen, Sequence.update_inputLen]
    exact ht

/-- From every reachable state whose running sequences are unfinished, without assigned tokens
and not held back, the batches are empty after as many iterations as tokens remain, and each
sequence is popped when it reaches its `total_len`. -/
theorem admitted_drain (c : SystemConfig) (m : ModelConfig) (trace : ExpertTrace)
    (total maxBatched maxProcess : ℤ) (rotate countId : ℕ) {s₀ : Scheduler}
    (hs₀ : s₀ = Scheduler.create c m trace total maxBatched maxProcess rotate countId)
    (htotal : 0 ≤ total) (hdp : 1 ≤ s₀.dpDegree) (hmixed : c.disaggSystem = false)
    (hbudget : s₀.batchSizePerDp ≤ maxProcess) {ops : List Op} {h : History}
    (hrun : Runs.Run History.Step (.init s₀) ops h)
    (hready : ∀ t ∈ h.scheduler.running, t.currentLen < t.totalLen ∧ t.numProcessToken = 0 ∧
      t.genStartTime ≤ h.scheduler.totalTime) (times : ℕ → ℚ) :
    (∀ n : ℕ, h.scheduler.remaining ≤ n → (h.scheduler.drain times n).running = []) ∧
    ∀ t ∈ h.scheduler.running, ∃ k : ℕ, (k : ℤ) < h.scheduler.remaining ∧
      PoppedBy h.scheduler times t k := by
  subst hs₀
  have hcreate := Bookkeeping.create c m trace total maxBatched maxProcess rotate countId htotal hdp
  have hb := hcreate.of_run hrun
  have hset := SameSetup.of_run hcreate hrun
  have hin := input_le_of_run hcreate
    (all_create _ c m trace total maxBatched maxProcess rotate countId) hrun
  have hdraining : Draining h.scheduler := by
    constructor
    · exact hset.systemConfig ▸ hmixed
    · rw [hset.batchSizePerDp, hset.maxProcessToken]
      exact hbudget
    · exact hb.room
    · exact hb.nodup_running
    · exact fun t ht => (hready t ht).1
    · intro t ht
      obtain ⟨b, hmem, ht⟩ := mem_running.mp ht
      exact hin.2 b hmem t ht
    · exact fun t ht => (hready t ht).2.1
    · exact fun t ht => .inr (hready t ht).2.2
  exact ⟨fun n hn => hdraining.drained times hn, fun t ht => hdraining.poppedBy times ht⟩

/-- Two batches of one place each, drained from just after the admission. -/
theorem admitted_drain_two_batches : ∃ h : History,
    h.scheduler.running.length = 2 ∧ (h.scheduler.drain (fun _ => 1) 8).running = [] := by
  have hrun : Runs.Run History.Step
      (.init (Scheduler.create { numNode := 1, numDevice := 2 }
        { maxSeqLen := 8, inputLen := 2, outputLen := 3 } {} 2 64 64 0 0))
      [.pushSeq 2 [], .fillRunningQueue] _ := .of_foldlM rfl
  have hdrain := admitted_drain _ _ _ 2 64 64 0 0 rfl (by decide) (by decide) rfl (by decide)
    hrun (by decide) fun _ => 1
  exact ⟨_, rfl, hdrain.1 8 (by decide)⟩

end LlmSystem
