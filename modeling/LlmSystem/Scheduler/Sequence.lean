import LlmSystem.Config
import Mathlib.Algebra.BigOperators.Group.List.Basic
import Mathlib.Algebra.Order.Ring.Rat

/-! Sequences and data-parallel batches. -/
namespace LlmSystem

structure Sequence where
  id : ℕ
  expertSeqId : ℤ
  inputLen : ℤ
  outputLen : ℤ
  totalLen : ℤ
  numProcessToken : ℤ := 0
  currentLen : ℤ := 0
  numSumIter : ℤ := 0
  genStartTime : ℚ := 0
  arrivalTime : ℚ := 0
  firstTokenTime : ℚ := 0
  endTokenTime : ℚ := 0
  queueingDelay : ℚ := 0
  record : Bool := false
  sumStage : Bool := true
  getExpertFromList : Bool := true
  deriving DecidableEq, Repr

namespace Sequence

/-- The fields set by the constructor. -/
def start (id : ℕ) (expertSeqId inputLen outputLen : ℤ) : Sequence where
  id := id
  expertSeqId := expertSeqId
  inputLen := inputLen
  outputLen := outputLen
  totalLen := inputLen + outputLen - 1

/-- `Sequence::Create` with the value of the counter `count_id`; the two `assertTrue`
calls of the constructor are the error results. -/
def create (countId : ℕ) (expertSeqId inputLen outputLen : ℤ) : Except String Sequence :=
  if 0 < inputLen then
    if 0 < outputLen then .ok (start countId expertSeqId inputLen outputLen)
    else .error ("output len is not valid, output len is " ++ toString outputLen)
  else .error ("input len is not valid, input len is " ++ toString inputLen)

def setGenStartTime (s : Sequence) (time : ℚ) : Sequence := { s with genStartTime := time }

/-- `record = true`: the first token of the sequence has been reported. -/
def setRecord (s : Sequence) : Sequence := { s with record := true }

/-- The clock part of `Sequence::update`. -/
def addTime (s : Sequence) (time : ℚ) : Sequence :=
  let s := { s with endTokenTime := s.endTokenTime + time }
  if s.sumStage then
    { s with firstTokenTime := s.firstTokenTime + time, numSumIter := s.numSumIter + 1 }
  else s

/-- The status part of `Sequence::update`. -/
def advance (s : Sequence) : Sequence :=
  let s := { s with currentLen := s.currentLen + s.numProcessToken, numProcessToken := 0 }
  if s.sumStage && s.currentLen == s.inputLen then { s with sumStage := false } else s

def update (s : Sequence) (time : ℚ) : Sequence := (s.addTime time).advance

/-- The stage test of `get_sum`; `get_gen` is its negation. -/
def InSum (s : Sequence) : Prop := s.currentLen < s.inputLen

instance (s : Sequence) : Decidable s.InSum := inferInstanceAs (Decidable (_ < _))

/-- The pop test of both update functions. -/
def Finished (s : Sequence) : Prop := s.currentLen = s.totalLen

instance (s : Sequence) : Decidable s.Finished := inferInstanceAs (Decidable (_ = _))

section Fields
variable (s : Sequence) (time : ℚ)

@[simp] theorem update_id : (s.update time).id = s.id := by
  unfold update advance addTime; dsimp only; split_ifs <;> rfl

@[simp] theorem update_inputLen : (s.update time).inputLen = s.inputLen := by
  unfold update advance addTime; dsimp only; split_ifs <;> rfl

@[simp] theorem update_totalLen : (s.update time).totalLen = s.totalLen := by
  unfold update advance addTime; dsimp only; split_ifs <;> rfl

@[simp] theorem update_currentLen :
    (s.update time).currentLen = s.currentLen + s.numProcessToken := by
  unfold update advance addTime; dsimp only; split_ifs <;> rfl

@[simp] theorem update_numProcessToken : (s.update time).numProcessToken = 0 := by
  unfold update advance addTime; dsimp only; split_ifs <;> rfl

@[simp] theorem update_genStartTime : (s.update time).genStartTime = s.genStartTime := by
  unfold update advance addTime; dsimp only; split_ifs <;> rfl

end Fields

theorem create_ok {countId : ℕ} {e i o : ℤ} {s : Sequence}
    (h : create countId e i o = .ok s) : 0 < i ∧ 0 < o ∧ s = start countId e i o := by
  unfold create at h
  split_ifs at h with hi ho
  exact ⟨hi, ho, (Except.ok.inj h).symm⟩

end Sequence

/-- A data-parallel batch. -/
structure BatchedSequence where
  numExpert : ℤ
  topK : ℤ
  curLayer : ℕ := 0
  localNumTokenInExpert : List ℕ
  numTokenInExpert : List ℕ
  sequence : List Sequence := []
  deriving DecidableEq, Repr

namespace BatchedSequence

/-- The constructor zeroes one counter per expert. -/
def create (numExpert topK : ℤ) : BatchedSequence where
  numExpert := numExpert
  topK := topK
  localNumTokenInExpert := List.replicate numExpert.toNat 0
  numTokenInExpert := List.replicate numExpert.toNat 0

def add (b : BatchedSequence) (seq : Sequence) : BatchedSequence :=
  { b with sequence := b.sequence ++ [seq] }

def getSum (b : BatchedSequence) : List Sequence := b.sequence.filter fun s => decide s.InSum

def getGen (b : BatchedSequence) : List Sequence := b.sequence.filter fun s => !decide s.InSum

/-- Apply a write through the shared pointers of the batch. -/
def modify (b : BatchedSequence) (f : Sequence → Sequence) : BatchedSequence :=
  { b with sequence := b.sequence.map f }

def update (b : BatchedSequence) (time : ℚ) : BatchedSequence := b.modify fun s => s.update time

/-- Every entry with the same `id` is erased. -/
def pop (b : BatchedSequence) (seq : Sequence) : BatchedSequence :=
  { b with sequence := b.sequence.filter fun s => s.id ≠ seq.id }

def getNumSeq (b : BatchedSequence) : ℤ := b.sequence.length

def getProcessToken (b : BatchedSequence) : ℤ := (b.sequence.map (·.numProcessToken)).sum

def getGenProcessToken (b : BatchedSequence) : ℤ := (b.getGen.map (·.numProcessToken)).sum

def getSumProcessToken (b : BatchedSequence) : ℤ := (b.getSum.map (·.numProcessToken)).sum

end BatchedSequence
end LlmSystem
