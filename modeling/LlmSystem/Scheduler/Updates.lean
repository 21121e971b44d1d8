import LlmSystem.Lib.Keyed
import LlmSystem.Scheduler.Operations

/-!
What the completion loops leave and what they return. Both loops run over a copy of
the batch while they pop from it; with distinct ids they act on each sequence by itself.
-/
namespace LlmSystem

/-- The fate of a sequence that a completion loop has visited. -/
def settle (seq : Sequence) : Option Sequence :=
  if seq.Finished then none
  else if seq.currentLen = seq.inputLen then some seq.setRecord
  else some seq

/-- The entry a visited sequence contributes to `token_list`. -/
def report (seq : Sequence) : List Sequence :=
  if seq.Finished then [seq]
  else if seq.currentLen = seq.inputLen ∧ seq.record = false then [seq.setRecord]
  else []

section Settle
variable {seq t : Sequence}

theorem settle_id (h : settle seq = some t) : t.id = seq.id := by
  unfold settle at h
  split_ifs at h <;> (obtain rfl := Option.some.inj h; rfl)

theorem settle_lengths (h : settle seq = some t) :
    t.currentLen = seq.currentLen ∧ t.totalLen = seq.totalLen ∧ t.inputLen = seq.inputLen ∧
      t.numProcessToken = seq.numProcessToken := by
  unfold settle at h
  split_ifs at h <;> (obtain rfl := Option.some.inj h; exact ⟨rfl, rfl, rfl, rfl⟩)

theorem settle_unfinished (h : settle seq = some t) : t.currentLen ≠ t.totalLen := by
  intro hfin
  obtain ⟨hc, ht, -, -⟩ := settle_lengths h
  have hseq : seq.Finished := hc.symm.trans (hfin.trans ht)
  simp [settle, hseq] at h

/-- A visited sequence is either kept, or returned as finished. -/
theorem settle_or_report (seq : Sequence) :
    (∃ t, settle seq = some t ∧ t.id = seq.id ∧
      (report seq).filter (fun r => decide r.Finished) = []) ∨
    (settle seq = none ∧ report seq = [seq] ∧ seq.Finished) := by
  by_cases hfin : seq.Finished
  · right
    exact ⟨if_pos hfin, if_pos hfin, hfin⟩
  · left
    have hne : ¬seq.setRecord.Finished := hfin
    by_cases hin : seq.currentLen = seq.inputLen
    · refine ⟨seq.setRecord, by rw [settle, if_neg hfin, if_pos hin], rfl, ?_⟩
      unfold report
      rw [if_neg hfin]
      split_ifs <;> simp [hne]
    · exact ⟨seq, by rw [settle, if_neg hfin, if_neg hin], rfl, by simp [report, hfin, hin]⟩

end Settle

/-- One round of a completion loop: the sequences with `p` are advanced by `f` and settled. -/
def serve (p : Sequence → Bool) (f : Sequence → Sequence) (b : BatchedSequence) :
    BatchedSequence × List Sequence :=
  ({ b with sequence := b.sequence.filterMap fun t => if p t then settle (f t) else some t },
    (b.sequence.filter p).flatMap fun t => report (f t))

namespace Scheduler

/-- The edit `collectToken` makes at the id of the visited copy. -/
def collectEdit (seq t : Sequence) : Option Sequence :=
  if seq.Finished then none
  else if seq.currentLen = seq.inputLen ∧ seq.record = false then some t.setRecord
  else some t

theorem collectToken_eq (acc : BatchedSequence × List Sequence) (seq : Sequence) :
    collectToken acc seq =
      ({ acc.1 with
          sequence := Keyed.edit Sequence.id seq.id (collectEdit seq) acc.1.sequence },
        acc.2 ++ report seq) := by
  unfold collectToken report
  by_cases hfin : seq.Finished
  · have hedit : collectEdit seq = fun _ => none := funext fun _ => if_pos hfin
    simp only [if_pos hfin, hedit, BatchedSequence.pop, Keyed.filter_eq_edit]
  · by_cases hin : seq.currentLen = seq.inputLen
    · cases hrec : seq.record with
      | true =>
        have hedit : collectEdit seq = some := by
          funext t
          simp [collectEdit, hfin, hrec]
        simp [hfin, hin, hedit, ← Keyed.eq_edit]
      | false =>
        have hedit : collectEdit seq = fun t => some t.setRecord := by
          funext t
          simp [collectEdit, hfin, hin, hrec]
        simp [hfin, hin, hedit, BatchedSequence.modify, ← Keyed.map_eq_edit]
    · have hedit : collectEdit seq = some := by
        funext t
        simp [collectEdit, hfin, hin]
      simp [hfin, hin, hedit, ← Keyed.eq_edit]

theorem collectEdit_self (seq : Sequence) : collectEdit seq seq = settle seq := by
  unfold collectEdit settle
  by_cases hin : seq.currentLen = seq.inputLen
  · cases hrec : seq.record with
    | true =>
      have hsame : seq.setRecord = seq := by rw [Sequence.setRecord, ← hrec]
      simp [hin, hsame]
    | false => simp [hin]
  · simp [hin]

theorem collectEdit_id {seq t t' : Sequence} (hk : t.id = seq.id)
    (h : collectEdit seq t = some t') : t'.id = seq.id := by
  unfold collectEdit at h
  split_ifs at h <;> (obtain rfl := Option.some.inj h; exact hk)

/-- A loop that edits at the visited id and reports is a sweep over the sequences. -/
theorem foldl_visit {visit : BatchedSequence × List Sequence → Sequence →
      BatchedSequence × List Sequence} {g : Sequence → Sequence → Option Sequence}
    {r : Sequence → List Sequence}
    (hvisit : ∀ acc a, visit acc a =
      ({ acc.1 with sequence := Keyed.edit Sequence.id a.id (g a) acc.1.sequence },
        acc.2 ++ r a))
    (xs : List Sequence) (b : BatchedSequence) (out : List Sequence) :
    xs.foldl visit (b, out)
      = ({ b with sequence := Keyed.sweep Sequence.id g xs b.sequence }, out ++ xs.flatMap r) := by
  induction xs generalizing b out with
  | nil => simp [Keyed.sweep]
  | cons a xs ih =>
    rw [List.foldl_cons, hvisit, ih, List.flatMap_cons, List.append_assoc]
    rfl

theorem updateBatch_eq (time : ℚ) (b : BatchedSequence)
    (hb : (b.sequence.map Sequence.id).Nodup) :
    updateBatch time b = serve (fun _ => true) (fun t => t.update time) b := by
  have hids : ((b.update time).sequence.map Sequence.id).Nodup := by
    simpa [BatchedSequence.update, BatchedSequence.modify, Function.comp_def] using hb
  have hsweep := Keyed.sweep_eq_filterMap Sequence.id (g := collectEdit)
    (fun _ _ _ => collectEdit_id) _ _ (fun _ h => h) hids hids
  have hall : ∀ t ∈ (b.update time).sequence,
      (if t.id ∈ (b.update time).sequence.map Sequence.id then collectEdit t t else some t)
        = settle t := by
    intro t ht
    rw [if_pos (List.mem_map_of_mem ht), collectEdit_self]
  unfold updateBatch
  rw [foldl_visit collectToken_eq, hsweep, List.filterMap_congr hall]
  simp [serve, BatchedSequence.update, BatchedSequence.modify, List.filterMap_map,
    List.flatMap_map]

theorem mem_getSum {b : BatchedSequence} {t : Sequence} :
    t ∈ b.getSum ↔ t ∈ b.sequence ∧ t.InSum := by
  simp [BatchedSequence.getSum]

/-- The write and the test of one pass of `updateSchedulerSumGenSplit` are one edit. -/
theorem updateAndCollect_eq (time now : ℚ) (acc : BatchedSequence × List Sequence)
    (seq : Sequence) :
    updateAndCollect time now acc seq =
      ({ acc.1 with
          sequence := Keyed.edit Sequence.id seq.id
            (fun _ => settle ((seq.update time).setGenStartTime now)) acc.1.sequence },
        acc.2 ++ report ((seq.update time).setGenStartTime now)) := by
  have hid : ((seq.update time).setGenStartTime now).id = seq.id := Sequence.update_id seq time
  unfold updateAndCollect
  rw [collectToken_eq]
  simp only [hid, BatchedSequence.modify, Keyed.map_eq_edit]
  rw [Keyed.edit_edit _ (fun _ => (seq.update time).setGenStartTime now) (fun _ _ => hid)]
  simp only [Function.comp_def, collectEdit_self]

theorem updateBatchSplit_eq (time now : ℚ) (b : BatchedSequence)
    (hb : (b.sequence.map Sequence.id).Nodup) :
    updateBatchSplit time now b =
      serve (fun t => decide t.InSum) (fun t => (t.update time).setGenStartTime now) b := by
  have hsub : (b.getSum.map Sequence.id).Nodup :=
    hb.sublist (List.filter_sublist.map Sequence.id)
  have hmem : ∀ a ∈ b.getSum, a ∈ b.sequence := fun a h => (mem_getSum.mp h).1
  have hkeep : ∀ a t t' : Sequence, t.id = a.id →
      settle ((a.update time).setGenStartTime now) = some t' → t'.id = a.id :=
    fun a _ t' _ h => (settle_id h).trans (Sequence.update_id a time)
  have hsweep := Keyed.sweep_eq_filterMap Sequence.id hkeep _ _ hmem hb hsub
  have hvisit : ∀ t ∈ b.sequence, t.id ∈ b.getSum.map Sequence.id ↔ t.InSum := by
    intro t ht
    constructor
    · intro hin
      obtain ⟨a, ha, hid⟩ := List.mem_map.mp hin
      obtain rfl := Keyed.eq_of_key_eq hb (hmem a ha) ht hid
      exact (mem_getSum.mp ha).2
    · exact fun hs => List.mem_map_of_mem (mem_getSum.mpr ⟨ht, hs⟩)
  have hall : ∀ t ∈ b.sequence,
      (if t.id ∈ b.getSum.map Sequence.id then
        settle ((t.update time).setGenStartTime now) else some t)
      = if decide t.InSum then settle ((t.update time).setGenStartTime now) else some t := by
    intro t ht
    simp only [hvisit t ht, decide_eq_true_eq]
  unfold updateBatchSplit
  rw [foldl_visit (updateAndCollect_eq time now), hsweep, List.filterMap_congr hall]
  rfl

end Scheduler
end LlmSystem
