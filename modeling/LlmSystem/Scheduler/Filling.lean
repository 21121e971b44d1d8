import LlmSystem.Lib.Runs
import LlmSystem.Scheduler.Operations
import Mathlib.Data.Multiset.Filter

/-! What a push adds to the waiting queue and what an admission moves out of it. -/
namespace LlmSystem
namespace Scheduler

def ids (l : List Sequence) : Multiset ℕ := ↑(l.map Sequence.id)

@[simp] theorem ids_nil : ids [] = 0 := rfl

@[simp] theorem ids_cons (t : Sequence) (l : List Sequence) :
    ids (t :: l) = t.id ::ₘ ids l := rfl

@[simp] theorem ids_append (l l' : List Sequence) : ids (l ++ l') = ids l + ids l' := by
  simp [ids]

/-- The ids of all sequences in the batches. -/
def runningIds (l : List BatchedSequence) : Multiset ℕ := (l.map fun b => ids b.sequence).sum

theorem card_runningIds (l : List BatchedSequence) :
    ((runningIds l).card : ℤ) = (l.map (·.getNumSeq)).sum := by
  induction l with
  | nil => rfl
  | cons b l ih =>
    have hcons : runningIds (b :: l) = ids b.sequence + runningIds l := rfl
    rw [hcons, Multiset.card_add, Nat.cast_add, ih]
    simp [ids, BatchedSequence.getNumSeq]

/-! ### Pushing -/

/-- The model configuration `pushSeq` leaves. -/
def pushModel (s : Scheduler) : ModelConfig :=
  if s.trace.realData then s.modelConfig else clampOutputLen s.modelConfig

/-- A synthetic sequence before the mode switches. -/
def dummySeq (m : ModelConfig) (id : ℕ) (arrival : ℚ) : Sequence :=
  { Sequence.start id 0 m.inputLen m.outputLen with
    arrivalTime := arrival, getExpertFromList := false }

/-- The sequences a push can build: from the configuration, or from the trace. -/
inductive Started (c : SystemConfig) (m : ModelConfig) (trace : ExpertTrace) : Sequence → Prop
  | dummy (id : ℕ) (arrival : ℚ) (hreal : trace.realData = false)
      (hmax : m.inputLen < m.maxSeqLen) (hin : 0 < m.inputLen) (hout : 0 < m.outputLen) :
      Started c m trace (applyModes c m.inputLen (dummySeq m id arrival))
  | real (id seqId : ℕ) (info : SequenceInfo) (hreal : trace.realData = true)
      (hin : 0 < info.lin) (hout : 0 < info.lout) :
      Started c m trace (Sequence.start id seqId info.lin info.lout)

/-- `new` goes to the back of the queue under consecutive ids; nothing else changes but
the arrival index and the id counter. -/
structure Pushes (P : Sequence → Prop) (s s' : Scheduler) (new : List Sequence) : Prop where
  frame : s' = { s with
    curArrivalTimeIdx := s'.curArrivalTimeIdx
    countId := s.countId + new.length
    sequenceQueue := s.sequenceQueue ++ new }
  ids : new.map Sequence.id = List.range' s.countId new.length
  all : ∀ t ∈ new, P t

theorem Pushes.nil (P : Sequence → Prop) (s : Scheduler) : Pushes P s s [] :=
  ⟨by simp, rfl, by simp⟩

theorem Pushes.trans {P : Sequence → Prop} {s s' s'' : Scheduler} {new new' : List Sequence}
    (h : Pushes P s s' new) (h' : Pushes P s' s'' new') : Pushes P s s'' (new ++ new') where
  frame := by
    rw [h'.frame, h.frame]
    simp [Nat.add_assoc]
  ids := by
    have hcount : s'.countId = s.countId + new.length := by rw [h.frame]
    rw [List.map_append, h.ids, h'.ids, hcount, List.length_append, List.range'_append_1]
  all := fun t ht => (List.mem_append.mp ht).elim (h.all t) (h'.all t)

theorem applyModes_id (c : SystemConfig) (n : ℤ) (t : Sequence) : (applyModes c n t).id = t.id := by
  unfold applyModes
  dsimp only
  split_ifs <;> rfl

theorem pushDummySeq_pushes {P : Sequence → Prop} {s s' : Scheduler} {m : ModelConfig}
    (hP : ∀ id arrival, 0 < m.inputLen → 0 < m.outputLen →
      P (applyModes s.systemConfig m.inputLen (dummySeq m id arrival)))
    (h : s.pushDummySeq m.inputLen m.outputLen = .ok s') : ∃ new, Pushes P s s' new := by
  unfold pushDummySeq at h
  split_ifs at h with ho
  · obtain rfl := Except.ok.inj h
    exact ⟨[], .nil P s⟩
  · obtain ⟨seq, hseq, h⟩ := Runs.bind_eq_ok h
    obtain ⟨hi, ho, rfl⟩ := Sequence.create_ok hseq
    obtain rfl := Except.ok.inj h
    refine ⟨_, rfl, ?_, ?_⟩
    · simp [applyModes_id, Sequence.start]
    · intro t ht
      rw [List.mem_singleton.mp ht]
      exact hP _ _ hi ho

theorem pushDummySeqs_pushes {P : Sequence → Prop} {m : ModelConfig} (n : ℕ)
    {s s' : Scheduler}
    (hP : ∀ id arrival, 0 < m.inputLen → 0 < m.outputLen →
      P (applyModes s.systemConfig m.inputLen (dummySeq m id arrival)))
    (h : pushDummySeqs m.inputLen m.outputLen n s = .ok s') : ∃ new, Pushes P s s' new := by
  induction n generalizing s with
  | zero =>
    obtain rfl := Except.ok.inj h
    exact ⟨[], .nil P s⟩
  | succ n ih =>
    obtain ⟨s₁, h₁, h⟩ := Runs.bind_eq_ok h
    obtain ⟨new, hnew⟩ := pushDummySeq_pushes hP h₁
    have hc : s₁.systemConfig = s.systemConfig := by rw [hnew.frame]
    obtain ⟨new', hnew'⟩ := ih (hc ▸ hP) h
    exact ⟨new ++ new', hnew.trans hnew'⟩

theorem pushRealSeqs_pushes {P : Sequence → Prop} (n : ℕ) {draws : List ℕ} {s s' : Scheduler}
    (hP : ∀ (id seqId : ℕ) (info : SequenceInfo), 0 < info.lin → 0 < info.lout →
      P (Sequence.start id seqId info.lin info.lout))
    (h : pushRealSeqs n draws s = .ok s') : ∃ new, Pushes P s s' new := by
  induction n generalizing s draws with
  | zero =>
    obtain rfl := Except.ok.inj h
    exact ⟨[], .nil P s⟩
  | succ n ih =>
    obtain ⟨⟨⟨seqId, info⟩, draws'⟩, -, h⟩ := Runs.bind_eq_ok h
    obtain ⟨seq, hseq, h⟩ := Runs.bind_eq_ok h
    obtain ⟨hi, ho, rfl⟩ := Sequence.create_ok hseq
    obtain ⟨new, hnew⟩ := ih h
    have hone : Pushes P s { s with
        countId := s.countId + 1
        sequenceQueue := s.sequenceQueue ++ [Sequence.start s.countId seqId info.lin info.lout] }
        [Sequence.start s.countId seqId info.lin info.lout] := by
      refine ⟨rfl, rfl, ?_⟩
      intro t ht
      rw [List.mem_singleton.mp ht]
      exact hP _ _ _ hi ho
    exact ⟨_, hone.trans hnew⟩

theorem clampOutputLen_fst (m : ModelConfig) :
    (clampOutputLen m).inputLen = m.inputLen ∧ (clampOutputLen m).maxSeqLen = m.maxSeqLen := by
  unfold clampOutputLen
  split_ifs <;> exact ⟨rfl, rfl⟩

/-- A push succeeds only by queueing sequences that it started. -/
theorem pushSeq_pushes {s s' : Scheduler} {numSeq : ℤ} {draws : List ℕ}
    (h : s.pushSeq numSeq draws = .ok s') :
    ∃ new, Pushes (Started s.systemConfig s.pushModel s.trace)
      { s with modelConfig := s.pushModel } s' new := by
  unfold pushSeq at h
  split_ifs at h with hreal hlen
  · have hmodel : s.pushModel = s.modelConfig := if_pos hreal
    unfold pushRealSeq at h
    split_ifs at h
    rw [hmodel]
    exact pushRealSeqs_pushes _ (fun id seqId info => .real id seqId info hreal) h
  · have hmodel : s.pushModel = clampOutputLen s.modelConfig := if_neg hreal
    obtain ⟨hin, hmax⟩ := clampOutputLen_fst s.modelConfig
    rw [hmodel]
    refine pushDummySeqs_pushes _ (fun id arrival hi ho => ?_) h
    exact .dummy id arrival (Bool.eq_false_of_not_eq_true hreal) (by omega) hi ho

end Scheduler
end LlmSystem
