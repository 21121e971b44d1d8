import LlmSystem.Scheduler.Runs

/-!
Where a pushed sequence is: waiting, in one batch, or returned as finished by one update.
The three are counted together as one multiset of ids, which a call can only redistribute.
-/
namespace LlmSystem

open Scheduler

/-- The entries of a returned list that have reached `total_len`. -/
def finishedIds (l : List Sequence) : Multiset ℕ := ids (l.filter fun t => decide t.Finished)

theorem finishedIds_append (l l' : List Sequence) :
    finishedIds (l ++ l') = finishedIds l + finishedIds l' := by
  simp [finishedIds]

namespace History

def queued (h : History) : Multiset ℕ := ids h.scheduler.sequenceQueue

def running (h : History) : Multiset ℕ := runningIds h.scheduler.runningQueue

def finished (h : History) : Multiset ℕ := (h.returned.map finishedIds).sum

end History

/-- The bookkeeping invariant. -/
structure Bookkeeping (h : History) : Prop where
  places : h.queued + h.running + h.finished = h.pushed
  nodup : h.pushed.Nodup
  fresh : ∀ id ∈ h.pushed, id < h.scheduler.countId
  room : h.scheduler.Roomy
  fits : h.scheduler.Fits

section Lists
variable {α : Type*} {f : α → Multiset ℕ} {l : List α}

theorem le_sum_map {a : α} (ha : a ∈ l) : f a ≤ (l.map f).sum := by
  induction l with
  | nil => exact absurd ha List.not_mem_nil
  | cons b l ih =>
    rw [List.map_cons, List.sum_cons]
    rcases List.mem_cons.mp ha with rfl | ha
    · exact Multiset.le_add_right _ _
    · exact (ih ha).trans (Multiset.le_add_left _ _)

/-- In a sum without duplicates, an element comes from one position only. -/
theorem index_unique (hnd : ((l.map f).sum).Nodup) {i j : ℕ} {a b : α} {x : ℕ}
    (ha : l[i]? = some a) (hb : l[j]? = some b) (hxa : x ∈ f a) (hxb : x ∈ f b) : i = j := by
  induction l generalizing i j with
  | nil => simp at ha
  | cons c l ih =>
    rw [List.map_cons, List.sum_cons] at hnd
    obtain ⟨-, hl, hdisj⟩ := Multiset.nodup_add.mp hnd
    have hout : x ∈ f c → ∀ (k : ℕ) (d : α), l[k]? = some d → x ∉ f d := by
      intro hxc k d hd hxd
      have hmem := Multiset.mem_of_le (le_sum_map (f := f) (List.mem_of_getElem? hd)) hxd
      exact Multiset.disjoint_left.mp hdisj hxc hmem
    cases i with
    | zero =>
      obtain rfl : c = a := by simpa using ha
      cases j with
      | zero => rfl
      | succ j => exact absurd hxb (hout hxa j b (by simpa using hb))
    | succ i =>
      cases j with
      | zero =>
        obtain rfl : c = b := by simpa using hb
        exact absurd hxa (hout hxb i a (by simpa using ha))
      | succ j => exact congrArg (· + 1) (ih hl (by simpa using ha) (by simpa using hb))

theorem exists_index {x : ℕ} (hx : x ∈ (l.map f).sum) :
    ∃ (i : ℕ) (a : α), l[i]? = some a ∧ x ∈ f a := by
  induction l with
  | nil => exact absurd hx (Multiset.notMem_zero x)
  | cons b l ih =>
    rw [List.map_cons, List.sum_cons] at hx
    rcases Multiset.mem_add.mp hx with hx | hx
    · exact ⟨0, b, rfl, hx⟩
    · obtain ⟨i, a, ha, hxa⟩ := ih hx
      exact ⟨i + 1, a, by simpa using ha, hxa⟩

end Lists

namespace Bookkeeping
variable {h h' : History}

theorem runningNodup (hb : Bookkeeping h) : h.running.Nodup := by
  have hnd := hb.nodup
  rw [← hb.places] at hnd
  exact (Multiset.nodup_add.mp (Multiset.nodup_add.mp hnd).1).2.1

theorem distinctIds (hb : Bookkeeping h) : h.scheduler.DistinctIds := by
  intro b hmem
  have hle := le_sum_map (f := fun b : BatchedSequence => ids b.sequence) hmem
  exact Multiset.coe_nodup.mp (Multiset.nodup_of_le hle hb.runningNodup)

/-- A running sequence is determined by its id, across all batches. -/
theorem eq_of_id_eq (hb : Bookkeeping h) {b b' : BatchedSequence} {t t' : Sequence}
    (hmem : b ∈ h.scheduler.runningQueue) (ht : t ∈ b.sequence)
    (hmem' : b' ∈ h.scheduler.runningQueue) (ht' : t' ∈ b'.sequence) (hid : t.id = t'.id) :
    t = t' := by
  obtain ⟨i, hi⟩ := List.getElem?_of_mem hmem
  obtain ⟨j, hj⟩ := List.getElem?_of_mem hmem'
  have hmap : ∀ {b : BatchedSequence} {t}, t ∈ b.sequence → t.id ∈ ids b.sequence :=
    fun ht => Multiset.mem_coe.mpr (List.mem_map_of_mem ht)
  have hij : i = j := index_unique (f := fun b : BatchedSequence => ids b.sequence)
    hb.runningNodup hi hj (hmap ht) (hid ▸ hmap ht')
  obtain rfl : b = b' := Option.some.inj (hi.symm.trans (hij ▸ hj))
  exact Keyed.eq_of_key_eq (hb.distinctIds b hmem) ht ht' hid

end Bookkeeping

theorem runningIds_mapRunning (s : Scheduler) (f : BatchedSequence → Sequence → Sequence)
    (hf : ∀ b t, (f b t).id = t.id) :
    runningIds (s.mapRunning f).runningQueue = runningIds s.runningQueue := by
  unfold runningIds mapRunning
  rw [List.map_map]
  refine congrArg List.sum (List.map_congr_left fun b _ => ?_)
  simp [ids, BatchedSequence.modify, Function.comp_def, hf]

theorem roomy_mapRunning {s : Scheduler} {f : BatchedSequence → Sequence → Sequence}
    (hs : s.Roomy) : (s.mapRunning f).Roomy := by
  intro b hb
  obtain ⟨b, hb', rfl⟩ := List.mem_map.mp hb
  simpa [BatchedSequence.getNumSeq, BatchedSequence.modify, mapRunning] using hs b hb'

/-- A completion loop splits the ids of its batch into the kept and the finished ones. -/
theorem serve_ids {p : Sequence → Bool} {f : Sequence → Sequence} (hf : ∀ t, (f t).id = t.id)
    (b : BatchedSequence) :
    ids b.sequence = ids (serve p f b).1.sequence + finishedIds (serve p f b).2 := by
  unfold serve
  induction b.sequence with
  | nil => rfl
  | cons t l ih =>
    rw [ids_cons, ih]
    cases hp : p t with
    | false => simp [hp]
    | true =>
      rcases settle_or_report (f t) with ⟨t', hkeep, hid, hrep⟩ | ⟨hnone, hrep, hfin⟩
      · simp [hp, hkeep, hid, hf, finishedIds_append,
          show finishedIds (report (f t)) = 0 by simp [finishedIds, hrep]]
      · have hone : finishedIds [f t] = {t.id} := by simp [finishedIds, hfin, ids, hf]
        rw [List.filterMap_cons, List.filter_cons]
        simp only [hp, ↓reduceIte, hnone, List.flatMap_cons, hrep, finishedIds_append, hone,
          ← Multiset.singleton_add]
        rw [add_left_comm]

theorem serveAll_ids {p : Sequence → Bool} {f : Sequence → Sequence} (hf : ∀ t, (f t).id = t.id)
    (s : Scheduler) :
    runningIds s.runningQueue
      = runningIds (serveAll p f s).1.runningQueue + finishedIds (serveAll p f s).2 := by
  unfold serveAll
  simp only
  induction s.runningQueue with
  | nil => rfl
  | cons b l ih =>
    have hcons : ∀ (b : BatchedSequence) l,
        runningIds (b :: l) = ids b.sequence + runningIds l := fun _ _ => rfl
    rw [hcons, List.map_cons, hcons, List.flatMap_cons, finishedIds_append, ih, serve_ids hf b,
      add_add_add_comm]

theorem roomy_serveAll {p : Sequence → Bool} {f : Sequence → Sequence} {s : Scheduler}
    (hs : s.Roomy) : (serveAll p f s).1.Roomy := by
  intro b hb
  obtain ⟨b, hb', rfl⟩ := List.mem_map.mp hb
  have hle := List.length_filterMap_le (fun t => if p t then settle (f t) else some t) b.sequence
  have hcap : (b.sequence.length : ℤ) ≤ s.batchSizePerDp := hs b hb'
  change ((b.sequence.filterMap _).length : ℤ) ≤ s.batchSizePerDp
  omega

namespace Bookkeeping
variable {h : History}

theorem push (hb : Bookkeeping h) {P : Sequence → Prop} {m : ModelConfig} {s' : Scheduler}
    {new : List Sequence} (hpush : Pushes P { h.scheduler with modelConfig := m } s' new) :
    Bookkeeping { h with scheduler := s', pushed := h.pushed + ids new } := by
  have hmem : ∀ id ∈ ids new, h.scheduler.countId ≤ id ∧
      id < h.scheduler.countId + new.length := by
    intro id hid
    rw [ids, hpush.ids, Multiset.mem_coe, List.mem_range'_1] at hid
    exact hid
  have hframe := hpush.frame
  refine ⟨?_, ?_, ?_, ?_, ?_⟩
  · have hqueued : ids s'.sequenceQueue = h.queued + ids new := by
      rw [hframe]
      exact ids_append _ _
    have hrunning : runningIds s'.runningQueue = h.running := by
      rw [hframe]
      rfl
    change ids s'.sequenceQueue + runningIds s'.runningQueue + h.finished = h.pushed + ids new
    rw [hqueued, hrunning, ← hb.places]
    abel
  · refine Multiset.nodup_add.mpr ⟨hb.nodup, ?_, ?_⟩
    · rw [ids, hpush.ids]
      exact Multiset.coe_nodup.mpr List.nodup_range'
    · refine Multiset.disjoint_left.mpr ?_
      intro id hold hid
      exact absurd (hb.fresh id hold) (not_lt.mpr (hmem id hid).1)
  · intro id hid
    have hcount : s'.countId = h.scheduler.countId + new.length := by rw [hframe]
    change id < s'.countId
    rw [hcount]
    rcases Multiset.mem_add.mp hid with hold | hid
    · exact (hb.fresh id hold).trans_le (Nat.le_add_right _ _)
    · exact (hmem id hid).2
  · have hroom := hb.room
    change s'.Roomy
    rw [hframe]
    exact hroom
  · have hfits := hb.fits
    change s'.Fits
    rw [hframe]
    exact hfits

theorem fill (hb : Bookkeeping h) {k : ℕ} {s' : Scheduler} (hfill : Admits h.scheduler s' k) :
    Bookkeeping { h with scheduler := s' } := by
  have hframe := hfill.frame
  refine ⟨?_, hb.nodup, ?_, hfill.room hb.room, ?_⟩
  · have hqueue : s'.sequenceQueue = h.scheduler.sequenceQueue.drop k := by rw [hframe]
    have hsplit : h.queued = ids (h.scheduler.sequenceQueue.take k)
        + ids (h.scheduler.sequenceQueue.drop k) := by
      rw [← ids_append, List.take_append_drop]
      rfl
    change ids s'.sequenceQueue + runningIds s'.runningQueue + h.finished = h.pushed
    rw [hqueue, hfill.ids, ← hb.places, hsplit]
    unfold History.running
    abel
  · intro id hid
    have hcount : s'.countId = h.scheduler.countId := by rw [hframe]
    exact hcount.symm ▸ hb.fresh id hid
  · have hfits := hb.fits
    have hlen := hfill.grow.length_eq
    have hcap : s'.batchSizePerDp = h.scheduler.batchSizePerDp := by rw [hframe]
    have htotal : s'.totalBatchSize = h.scheduler.totalBatchSize := by rw [hframe]
    unfold Scheduler.Fits at hfits ⊢
    rw [← hlen, hcap, htotal]
    exact hfits

theorem mapRunning (hb : Bookkeeping h) {f : BatchedSequence → Sequence → Sequence}
    (hf : ∀ b t, (f b t).id = t.id) :
    Bookkeeping { h with scheduler := h.scheduler.mapRunning f } := by
  refine ⟨?_, hb.nodup, hb.fresh, roomy_mapRunning hb.room, ?_⟩
  · rw [← hb.places, History.running, History.running, runningIds_mapRunning _ _ hf]
    rfl
  · have hfits := hb.fits
    simpa [Scheduler.Fits, Scheduler.mapRunning] using hfits

theorem update (hb : Bookkeeping h) {p : Sequence → Bool} {f : Sequence → Sequence}
    (hf : ∀ t, (f t).id = t.id) : Bookkeeping (h.update p (serveAll p f h.scheduler)) := by
  refine ⟨?_, hb.nodup, hb.fresh, roomy_serveAll hb.room, ?_⟩
  · have hfinished : (h.update p (serveAll p f h.scheduler)).finished
        = h.finished + finishedIds (serveAll p f h.scheduler).2 := by
      simp [History.finished, History.update]
    rw [hfinished]
    change h.queued + runningIds (serveAll p f h.scheduler).1.runningQueue + _ = h.pushed
    rw [← hb.places, History.running, serveAll_ids (p := p) hf h.scheduler]
    abel
  · have hfits := hb.fits
    simpa [Scheduler.Fits, serveAll, History.update] using hfits

end Bookkeeping

/-- No call loses, duplicates or overfills. -/
theorem Effect.bookkeeping {h h' : History} (heff : Effect h h') (hb : Bookkeeping h) :
    Bookkeeping h' := by
  cases heff with
  | push hpush => exact hb.push hpush
  | fill hfill => exact hb.fill hfill
  | clock time times idx => exact ⟨hb.places, hb.nodup, hb.fresh, hb.room, hb.fits⟩
  | assign =>
    apply hb.mapRunning
    intro b t
    obtain ⟨n, hn⟩ := h.scheduler.assignTokens_eq b t
    rw [hn]
  | stamp f hf =>
    apply hb.mapRunning
    intro _ t
    rcases hf t with heq | ⟨time, heq⟩ <;> rw [heq]
    rfl
  | update p f time hf =>
    apply hb.update
    intro t
    rcases hf t with heq | ⟨now, heq⟩ <;> rw [heq]
    · exact Sequence.update_id t time
    · exact Sequence.update_id t time

theorem Bookkeeping.create (c : SystemConfig) (m : ModelConfig) (trace : ExpertTrace)
    (total maxBatched maxProcess : ℤ) (rotate countId : ℕ) (htotal : 0 ≤ total)
    (hdp : 1 ≤ (Scheduler.create c m trace total maxBatched maxProcess rotate countId).dpDegree) :
    Bookkeeping
      (.init (Scheduler.create c m trace total maxBatched maxProcess rotate countId)) := by
  let dp := (c.numDevice * c.numNode).tdiv m.neTpDg
  have hdp : 1 ≤ dp := hdp
  have hcap : 0 ≤ total.tdiv dp := Int.tdiv_nonneg htotal (by omega)
  have hempty : ∀ n : ℕ, runningIds (List.replicate n
      (BatchedSequence.create m.numRoutedExpert m.topK)) = 0 := by
    intro n
    simp [runningIds, BatchedSequence.create]
  refine ⟨?_, Multiset.nodup_zero, by simp [History.init], ?_, ?_⟩
  · change (0 : Multiset ℕ) + runningIds (List.replicate dp.toNat _) + 0 = 0
    rw [hempty]
    rfl
  · intro b hb
    rw [List.eq_of_mem_replicate hb]
    exact hcap
  · change ((List.replicate dp.toNat _).length : ℤ) * total.tdiv dp ≤ total
    rw [List.length_replicate, Int.toNat_of_nonneg (by omega)]
    have hdiv := Int.mul_tdiv_add_tmod total dp
    have hmod := Int.tmod_nonneg dp htotal
    omega

theorem Bookkeeping.of_run {h h' : History} {ops : List Op} (hb : Bookkeeping h)
    (hrun : Runs.Run History.Step h ops h') : Bookkeeping h' :=
  hrun.invariant (fun _ _ _ hb hstep => (hstep.effect hb.distinctIds).bookkeeping hb) hb

theorem SameSetup.of_run {h h' : History} {ops : List Op} (hb : Bookkeeping h)
    (hrun : Runs.Run History.Step h ops h') : SameSetup h.scheduler h'.scheduler := by
  induction hrun with
  | nil => exact .refl _
  | cons hstep _ ih =>
    have heff := hstep.effect hb.distinctIds
    exact heff.sameSetup.trans (ih (heff.bookkeeping hb))

/-- Where a sequence can be: waiting, in the batch at an index of `running_queue`, or
returned as finished by the update call with a number. -/
inductive Place where
  | waiting
  | batch (i : ℕ)
  | returned (call : ℕ)
  deriving DecidableEq, Repr

def History.At (h : History) (id : ℕ) : Place → Prop
  | .waiting => id ∈ ids h.scheduler.sequenceQueue
  | .batch i => ∃ b, h.scheduler.runningQueue[i]? = some b ∧ id ∈ ids b.sequence
  | .returned call => ∃ l, h.returned[call]? = some l ∧ id ∈ finishedIds l

theorem Bookkeeping.existsUnique_place {h : History} (hb : Bookkeeping h) {id : ℕ}
    (hid : id ∈ h.pushed) : ∃! p, h.At id p := by
  have hnd := hb.nodup
  rw [← hb.places] at hid hnd
  obtain ⟨hqr, hf, hqrf⟩ := Multiset.nodup_add.mp hnd
  obtain ⟨-, hr, hqr⟩ := Multiset.nodup_add.mp hqr
  have hbatch : ∀ {i}, h.At id (.batch i) → id ∈ h.running := by
    rintro i ⟨b, hb, hmem⟩
    exact Multiset.mem_of_le
      (le_sum_map (f := fun b : BatchedSequence => ids b.sequence) (List.mem_of_getElem? hb)) hmem
  have hreturned : ∀ {k}, h.At id (.returned k) → id ∈ h.finished := by
    rintro k ⟨l, hl, hmem⟩
    exact Multiset.mem_of_le (le_sum_map (List.mem_of_getElem? hl)) hmem
  have hone : ∀ p q, h.At id p → h.At id q → p = q := by
    intro p q hp hq
    cases p with
    | waiting =>
      cases q with
      | waiting => rfl
      | batch i => exact (Multiset.disjoint_left.mp hqr hp (hbatch hq)).elim
      | returned k =>
        exact (Multiset.disjoint_left.mp hqrf (Multiset.mem_add.mpr (.inl hp)) (hreturned hq)).elim
    | batch i =>
      cases q with
      | waiting => exact (Multiset.disjoint_left.mp hqr hq (hbatch hp)).elim
      | batch j =>
        obtain ⟨b, hb, hmem⟩ := hp
        obtain ⟨b', hb', hmem'⟩ := hq
        exact congrArg Place.batch
          (index_unique (f := fun b : BatchedSequence => ids b.sequence) hr hb hb' hmem hmem')
      | returned k =>
        exact (Multiset.disjoint_left.mp hqrf (Multiset.mem_add.mpr (.inr (hbatch hp)))
          (hreturned hq)).elim
    | returned k =>
      cases q with
      | waiting =>
        exact (Multiset.disjoint_left.mp hqrf (Multiset.mem_add.mpr (.inl hq)) (hreturned hp)).elim
      | batch i =>
        exact (Multiset.disjoint_left.mp hqrf (Multiset.mem_add.mpr (.inr (hbatch hq)))
          (hreturned hp)).elim
      | returned k' =>
        obtain ⟨l, hl, hmem⟩ := hp
        obtain ⟨l', hl', hmem'⟩ := hq
        exact congrArg Place.returned (index_unique hf hl hl' hmem hmem')
  rcases Multiset.mem_add.mp hid with hid | hid
  · rcases Multiset.mem_add.mp hid with hid | hid
    · exact ⟨.waiting, hid, fun q hq => hone q _ hq hid⟩
    · obtain ⟨i, b, hb, hmem⟩ := exists_index hid
      exact ⟨.batch i, ⟨b, hb, hmem⟩, fun q hq => hone q _ hq ⟨b, hb, hmem⟩⟩
  · obtain ⟨k, l, hl, hmem⟩ := exists_index hid
    exact ⟨.returned k, ⟨l, hl, hmem⟩, fun q hq => hone q _ hq ⟨l, hl, hmem⟩⟩

/-- Over every run: each pushed sequence is in exactly one place and counted there once,
no capacity is exceeded, and an admission keeps the queue order and leaves either no
waiting sequence or no free place. -/
theorem scheduler_bookkeeping (c : SystemConfig) (m : ModelConfig) (trace : ExpertTrace)
    (total maxBatched maxProcess : ℤ) (rotate countId : ℕ) {s₀ : Scheduler}
    (hs₀ : s₀ = Scheduler.create c m trace total maxBatched maxProcess rotate countId)
    (htotal : 0 ≤ total) (hdp : 1 ≤ s₀.dpDegree) {ops : List Op} {h : History}
    (hrun : Runs.Run History.Step (.init s₀) ops h) :
    (h.pushed.Nodup ∧ h.queued + h.running + h.finished = h.pushed) ∧
    (∀ id ∈ h.pushed, ∃! p, h.At id p) ∧
    (∀ b ∈ h.scheduler.runningQueue, b.getNumSeq ≤ total.tdiv s₀.dpDegree) ∧
    h.scheduler.getBatchSize ≤ total ∧
    (∃ k, Admits h.scheduler h.scheduler.fillRunningQueue k) ∧
    (h.scheduler.fillRunningQueue.sequenceQueue = [] ∨
      ∀ b ∈ h.scheduler.fillRunningQueue.runningQueue,
        b.getNumSeq = total.tdiv s₀.dpDegree) := by
  subst hs₀
  have hcreate := Bookkeeping.create c m trace total maxBatched maxProcess rotate countId htotal hdp
  have hb := hcreate.of_run hrun
  have hsetup := SameSetup.of_run hcreate hrun
  have hcap : h.scheduler.batchSizePerDp = total.tdiv _ := hsetup.batchSizePerDp
  have htot : h.scheduler.totalBatchSize = total := hsetup.totalBatchSize
  obtain ⟨k, hfill, hend⟩ := h.scheduler.fillRunningQueue_admits hb.room hb.fits
  refine ⟨⟨hb.nodup, hb.places⟩, fun id hid => hb.existsUnique_place hid, ?_, ?_, ⟨k, hfill⟩, ?_⟩
  · exact hcap ▸ hb.room
  · exact htot ▸ getBatchSize_le hb.room hb.fits
  · apply hend.imp_right
    intro hfull b hmem
    have hle := hfill.room hb.room b hmem
    have hge := hfull b hmem
    have hsame : h.scheduler.fillRunningQueue.batchSizePerDp = h.scheduler.batchSizePerDp := by
      rw [hfill.frame]
    exact (le_antisymm hle hge).trans (hsame.trans hcap)

/-- Three sequences pushed to two batches of one place each: two run, one waits. -/
theorem scheduler_bookkeeping_two_batches :
    ∃ h : History, h.pushed = {0, 1, 2} ∧ h.queued = {2} ∧
      (h.pushed.Nodup ∧ h.queued + h.running + h.finished = h.pushed) ∧
      (∀ id ∈ h.pushed, ∃! p, h.At id p) ∧
      (∀ b ∈ h.scheduler.runningQueue, b.getNumSeq ≤ 1) ∧ h.scheduler.getBatchSize ≤ 3 := by
  have hrun : Runs.Run History.Step
      (.init (Scheduler.create { numNode := 1, numDevice := 2 }
        { maxSeqLen := 8, inputLen := 2, outputLen := 3 } {} 3 64 64 0 0))
      [.pushSeq 3 [], .fillRunningQueue, .setMetadata, .updateScheduler 5] _ :=
    .of_foldlM rfl
  have hbook := scheduler_bookkeeping _ _ _ 3 64 64 0 0 rfl (by decide) (by decide) hrun
  exact ⟨_, rfl, rfl, hbook.1, hbook.2.1, hbook.2.2.1, hbook.2.2.2.1⟩

end LlmSystem
