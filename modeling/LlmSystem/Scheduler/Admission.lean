import LlmSystem.Lib.Residues
import LlmSystem.Scheduler.Filling

/-! `fillRunningQueue`: admission in queue order by a rotating cursor. -/
namespace LlmSystem
namespace Scheduler

/-- No batch has a free place. -/
def AllFull (s : Scheduler) : Prop := ∀ b ∈ s.runningQueue, s.batchSizePerDp ≤ b.getNumSeq

/-- No batch is above its capacity. -/
def Roomy (s : Scheduler) : Prop := ∀ b ∈ s.runningQueue, b.getNumSeq ≤ s.batchSizePerDp

/-- `b'` is `b` with some of the sequences `seqs` at its end, in their order. -/
def Grown (seqs : List Sequence) (b b' : BatchedSequence) : Prop :=
  ∃ new, b' = { b with sequence := b.sequence ++ new } ∧ new.Sublist seqs

/-- The first `k` waiting sequences moved to the batches. -/
structure Admits (s s' : Scheduler) (k : ℕ) : Prop where
  frame : s' = { s with
    rotate := s'.rotate
    sequenceQueue := s.sequenceQueue.drop k
    runningQueue := s'.runningQueue }
  le : k ≤ s.sequenceQueue.length
  grow : List.Forall₂ (Grown ((s.sequenceQueue.take k).map s.stampDelay))
    s.runningQueue s'.runningQueue
  ids : runningIds s'.runningQueue = runningIds s.runningQueue + ids (s.sequenceQueue.take k)
  room : s.Roomy → s'.Roomy

@[simp] theorem stampDelay_id (s : Scheduler) (t : Sequence) : (s.stampDelay t).id = t.id := by
  unfold stampDelay
  split_ifs <;> rfl

theorem Grown.refl (seqs : List Sequence) (b : BatchedSequence) : Grown seqs b b :=
  ⟨[], by simp, List.nil_sublist _⟩

theorem Grown.getNumSeq_le {seqs : List Sequence} {b b' : BatchedSequence}
    (h : Grown seqs b b') : b.getNumSeq ≤ b'.getNumSeq := by
  obtain ⟨new, rfl, -⟩ := h
  simp [BatchedSequence.getNumSeq]

theorem Grown.trans {seqs seqs' : List Sequence} {b b' b'' : BatchedSequence}
    (h : Grown seqs b b') (h' : Grown seqs' b' b'') : Grown (seqs ++ seqs') b b'' := by
  obtain ⟨new, rfl, hnew⟩ := h
  obtain ⟨new', rfl, hnew'⟩ := h'
  exact ⟨new ++ new', by simp, hnew.append hnew'⟩

theorem grown_trans {seqs seqs' : List Sequence} {l l' l'' : List BatchedSequence}
    (h : List.Forall₂ (Grown seqs) l l') (h' : List.Forall₂ (Grown seqs') l' l'') :
    List.Forall₂ (Grown (seqs ++ seqs')) l l'' := by
  induction h generalizing l'' with
  | nil => cases h'; exact .nil
  | cons hb _ ih =>
    cases h' with
    | cons hb' hrest => exact .cons (hb.trans hb') (ih hrest)

theorem Admits.rotated (s : Scheduler) (r : ℕ) : Admits s { s with rotate := r } 0 where
  frame := by simp
  le := Nat.zero_le _
  grow := List.forall₂_same.mpr fun b _ => Grown.refl _ b
  ids := by simp
  room := id

theorem Admits.trans {s s' s'' : Scheduler} {k k' : ℕ} (h : Admits s s' k)
    (h' : Admits s' s'' k') : Admits s s'' (k + k') := by
  have hqueue : s'.sequenceQueue = s.sequenceQueue.drop k := by rw [h.frame]
  have hstamp : s'.stampDelay = s.stampDelay := by rw [h.frame]; rfl
  have htake : s.sequenceQueue.take (k + k')
      = s.sequenceQueue.take k ++ s'.sequenceQueue.take k' := by
    rw [List.take_add, hqueue]
  refine ⟨?_, ?_, ?_, ?_, fun hr => h'.room (h.room hr)⟩
  · rw [h'.frame, hqueue, List.drop_drop, h.frame]
  · have hle := h'.le
    rw [hqueue, List.length_drop] at hle
    have hk := h.le
    omega
  · have hgrow' := h'.grow
    rw [hstamp] at hgrow'
    rw [htake, List.map_append]
    exact grown_trans h.grow hgrow'
  · rw [h'.ids, h.ids, htake, ids_append, add_assoc]

theorem Admits.allFull {s s' : Scheduler} {k : ℕ} (h : Admits s s' k) (hfull : s.AllFull) :
    s'.AllFull := by
  intro b' hb'
  have hsize : s'.batchSizePerDp = s.batchSizePerDp := by rw [h.frame]
  obtain ⟨i, hi, rfl⟩ := List.mem_iff_getElem.mp hb'
  have hi' : i < s.runningQueue.length := h.grow.length_eq ▸ hi
  have hgrown := (List.forall₂_iff_get.mp h.grow).2 i hi' hi
  rw [hsize]
  exact (hfull _ (List.getElem_mem hi')).trans hgrown.getNumSeq_le

/-- One admission, or one full turn of the cursor over full batches. -/
theorem admitOne_cases (seq : Sequence) (n : ℕ) (s : Scheduler) :
    (∃ i b r, s.runningQueue[i]? = some b ∧ b.getNumSeq < s.batchSizePerDp ∧
      admitOne seq n s = { s with
        rotate := r
        sequenceQueue := s.sequenceQueue.tail
        runningQueue := s.runningQueue.set i (b.add (s.stampDelay seq)) }) ∨
    (∃ r, admitOne seq n s = { s with rotate := r } ∧ ∀ k < n, ∀ b,
      s.runningQueue[(s.rotate + k) % s.runningQueue.length]? = some b →
        s.batchSizePerDp ≤ b.getNumSeq) := by
  induction n generalizing s with
  | zero => exact .inr ⟨s.rotate, rfl, by simp⟩
  | succ n ih =>
    unfold admitOne
    cases hb : s.runningQueue[s.rotate % s.runningQueue.length]? with
    | none =>
      -- an index below the length is never out of range, so there is no batch at all
      have hnil : s.runningQueue = [] := by
        by_contra hne
        have hpos := List.length_pos_of_ne_nil hne
        rw [List.getElem?_eq_none_iff] at hb
        exact absurd (Nat.mod_lt s.rotate hpos) (by omega)
      exact .inr ⟨s.rotate + 1, by simp [hb], by simp [hnil]⟩
    | some b =>
      simp only [hb]
      split_ifs with hroom
      · exact .inl ⟨_, b, s.rotate + 1, hb, hroom, rfl⟩
      · rcases ih { s with rotate := s.rotate + 1 } with ⟨i, b', r, hb', hlt, heq⟩ | ⟨r, heq, hfull⟩
        · exact .inl ⟨i, b', r, hb', hlt, heq⟩
        · refine .inr ⟨r, heq, ?_⟩
          intro k hk b' hb'
          cases k with
          | zero =>
            rw [Nat.add_zero, hb, Option.some.injEq] at hb'
            exact hb' ▸ not_lt.mp hroom
          | succ k =>
            refine hfull k (by omega) b' ?_
            rw [← hb', show s.rotate + (k + 1) = s.rotate + 1 + k by omega]

/-- With as many tries as batches, a sequence stays waiting only if every batch is full. -/
theorem admitOne_admits {s : Scheduler} {seq : Sequence} {rest : List Sequence}
    (hqueue : s.sequenceQueue = seq :: rest) :
    Admits s (admitOne seq s.runningQueue.length s) 1 ∨
      (Admits s (admitOne seq s.runningQueue.length s) 0 ∧ s.AllFull) := by
  rcases admitOne_cases seq s.runningQueue.length s with
    ⟨i, b, r, hb, hlt, heq⟩ | ⟨r, heq, hfull⟩
  · left
    rw [heq]
    obtain ⟨hi, hbi⟩ := List.getElem?_eq_some_iff.mp hb
    refine ⟨by simp, by simp [hqueue], ?_, ?_, ?_⟩
    · refine List.forall₂_iff_get.mpr ⟨by simp, fun j hj hj' => ?_⟩
      simp only [List.get_eq_getElem, List.getElem_set]
      split_ifs with hij
      · subst hij
        exact ⟨[s.stampDelay seq], by rw [hbi]; rfl, by simp [hqueue]⟩
      · exact Grown.refl _ _
    · refine Residues.sum_map_set (fun b => ids b.sequence) hb ?_
      simp [BatchedSequence.add, hqueue]
    · intro hroom b' hb'
      rcases List.mem_or_eq_of_mem_set hb' with hb' | rfl
      · exact hroom b' hb'
      · change ((b.sequence ++ [_]).length : ℤ) ≤ s.batchSizePerDp
        have hcap : (b.sequence.length : ℤ) < s.batchSizePerDp := hlt
        rw [List.length_append, List.length_singleton]
        omega
  · right
    rw [heq]
    refine ⟨.rotated s r, ?_⟩
    intro b hb
    obtain ⟨j, hj, rfl⟩ := List.mem_iff_getElem.mp hb
    obtain ⟨k, hk, hmod⟩ := Residues.exists_rotate s.rotate hj
    exact hfull k hk _ (by rw [hmod, List.getElem?_eq_getElem hj])

/-- The outer loop admits its `n` sequences, or stops at full batches. -/
theorem admitAll_admits (n : ℕ) (s : Scheduler) (hn : n ≤ s.sequenceQueue.length) :
    ∃ k, Admits s (admitAll n s) k ∧ ((admitAll n s).AllFull ∨ k = n) := by
  induction n generalizing s with
  | zero => exact ⟨0, .rotated s s.rotate, .inr rfl⟩
  | succ n ih =>
    obtain ⟨seq, rest, hqueue⟩ := List.exists_cons_of_length_pos (by omega :
      0 < s.sequenceQueue.length)
    have hunfold : admitAll (n + 1) s = admitAll n (admitOne seq s.runningQueue.length s) := by
      rw [admitAll, hqueue]
    rw [hunfold]
    rcases admitOne_admits hqueue with hone | ⟨hzero, hfull⟩
    · have hrest : n ≤ (admitOne seq s.runningQueue.length s).sequenceQueue.length := by
        rw [hone.frame]
        simp only [List.length_drop]
        omega
      obtain ⟨k, hk, hend⟩ := ih _ hrest
      refine ⟨1 + k, hone.trans hk, hend.imp_right ?_⟩
      rintro rfl
      exact Nat.add_comm 1 k
    · have hrest : n ≤ (admitOne seq s.runningQueue.length s).sequenceQueue.length := by
        rw [hzero.frame]
        simp only [List.drop_zero]
        omega
      obtain ⟨k, hk, -⟩ := ih _ hrest
      exact ⟨0 + k, hzero.trans hk, .inl (hk.allFull (hzero.allFull hfull))⟩

theorem Admits.getBatchSize {s s' : Scheduler} {k : ℕ} (h : Admits s s' k) :
    s'.getBatchSize = s.getBatchSize + k := by
  have hcard := congrArg (fun m : Multiset ℕ => (m.card : ℤ)) h.ids
  simp only [Multiset.card_add, Nat.cast_add, card_runningIds] at hcard
  have hk : (Scheduler.ids (s.sequenceQueue.take k)).card = k := by
    simp [Scheduler.ids, h.le]
  rw [hk] at hcard
  exact hcard

/-- The capacities of the batches fit into the total. -/
def Fits (s : Scheduler) : Prop :=
  (s.runningQueue.length : ℤ) * s.batchSizePerDp ≤ s.totalBatchSize

theorem getBatchSize_le {s : Scheduler} (hroom : s.Roomy) (hfits : s.Fits) :
    s.getBatchSize ≤ s.totalBatchSize :=
  (Residues.sum_le_length_mul hroom).trans hfits

theorem fillRunningQueue_moves (s : Scheduler) : ∃ k, Admits s s.fillRunningQueue k := by
  obtain ⟨k, hk, -⟩ := admitAll_admits
    (min (s.totalBatchSize - s.getBatchSize) s.sequenceQueue.length).toNat s (by omega)
  exact ⟨k, hk⟩

theorem fillRunningQueue_admits (s : Scheduler) (hroom : s.Roomy) (hfits : s.Fits) :
    ∃ k, Admits s s.fillRunningQueue k ∧
      (s.fillRunningQueue.sequenceQueue = [] ∨ s.fillRunningQueue.AllFull) := by
  have hsize := getBatchSize_le hroom hfits
  obtain ⟨k, hk, hend⟩ := admitAll_admits
    (min (s.totalBatchSize - s.getBatchSize) s.sequenceQueue.length).toNat s (by omega)
  change Admits s s.fillRunningQueue k at hk
  refine ⟨k, hk, ?_⟩
  rcases hend with hfull | hkn
  · exact .inr hfull
  · rcases le_total (s.totalBatchSize - s.getBatchSize) s.sequenceQueue.length with hle | hle
    · -- as many were admitted as there was total room, so no batch has a free place
      right
      have htotal : s.fillRunningQueue.getBatchSize = s.totalBatchSize := by
        rw [hk.getBatchSize, hkn, min_eq_left hle]
        omega
      have hlen : s.fillRunningQueue.runningQueue.length = s.runningQueue.length :=
        hk.grow.length_eq.symm
      have hcap : s.fillRunningQueue.batchSizePerDp = s.batchSizePerDp := by rw [hk.frame]
      refine Residues.forall_le_of_length_mul_le (hk.room hroom) ?_
      change _ ≤ s.fillRunningQueue.getBatchSize
      rw [htotal, hlen, hcap]
      exact hfits
    · left
      rw [hk.frame, hkn, min_eq_right hle, Int.toNat_natCast, List.drop_length]

end Scheduler
end LlmSystem
