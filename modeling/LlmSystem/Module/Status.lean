import LlmSystem.Config
import Mathlib.Algebra.Order.Ring.Rat

/-! What one execution costs, and what a device has accumulated. -/
namespace LlmSystem

structure ExecStatus where
  processorType : ProcessorType := .none
  totalDuration : ℚ := 0
  memoryDuration : ℚ := 0
  qkDuration : ℚ := 0
  softmaxDuration : ℚ := 0
  scoreVDuration : ℚ := 0
  kvQuantDuration : ℚ := 0
  pimRbDuration : ℚ := 0
  pimPeDuration : ℚ := 0
  pimRbQk : ℚ := 0
  pimPeQk : ℚ := 0
  pimRbSv : ℚ := 0
  pimPeSv : ℚ := 0
  flops : ℚ := 0
  memorySize : ℚ := 0
  opb : ℚ := 0
  computeUtil : ℚ := 0
  memoryUtil : ℚ := 0
  actCount : ℕ := 0
  readCount : ℕ := 0
  writeCount : ℕ := 0
  allActCount : ℕ := 0
  allReadCount : ℕ := 0
  allWriteCount : ℕ := 0
  refCount : ℕ := 0
  deriving DecidableEq, Repr

structure StatusBoard where
  deviceTime : ℚ := 0
  /-- Time of the GPU. -/
  highTime : ℚ := 0
  /-- Time of the PIM units. -/
  lowTime : ℚ := 0
  actEnergy : ℚ := 0
  readEnergy : ℚ := 0
  writeEnergy : ℚ := 0
  allActEnergy : ℚ := 0
  allReadEnergy : ℚ := 0
  allWriteEnergy : ℚ := 0
  macEnergy : ℚ := 0
  computeUtil : ℚ := 0
  memoryUtil : ℚ := 0
  flops : ℚ := 0
  memorySize : ℚ := 0
  opb : ℚ := 0
  isTensorVec : Bool := false
  processorType : ProcessorType := .none
  parallelExecution : Bool := false
  qkDuration : ℚ := 0
  softmaxDuration : ℚ := 0
  scoreVDuration : ℚ := 0
  kvQuantDuration : ℚ := 0
  pimRbDuration : ℚ := 0
  pimPeDuration : ℚ := 0
  pimRbQk : ℚ := 0
  pimPeQk : ℚ := 0
  pimRbSv : ℚ := 0
  pimPeSv : ℚ := 0
  deriving DecidableEq, Repr

/-- Energy of one command, and of one operation, for one kind of processor. -/
structure DramEnergy where
  kACT : ℚ := 0
  kREAD : ℚ := 0
  kWRITE : ℚ := 0
  kALL_ACT : ℚ := 0
  kALL_READ : ℚ := 0
  kALL_WRITE : ℚ := 0
  kMAC : ℚ := 0
  deriving DecidableEq, Repr

/-- Where a tensor is processed. -/
structure Placement where
  parallelExecution : Bool := false
  performAtHigh : Bool := true
  deriving DecidableEq, Repr

namespace StatusBoard

/-- All three clocks at the latest of them. -/
def alignTimes (s : StatusBoard) : StatusBoard :=
  let deviceTime := max s.deviceTime (max s.lowTime s.highTime)
  { s with deviceTime, lowTime := deviceTime, highTime := deviceTime, parallelExecution := false }

/-- `set_push_status`; the input is a `TensorVec` where there is no placement. -/
def setPushStatus (s : StatusBoard) : Option Placement → StatusBoard
  | none => alignTimes { s with isTensorVec := true }
  | some p =>
    let s := { s with isTensorVec := false }
    if p.parallelExecution then
      { s with parallelExecution := true
               deviceTime := if p.performAtHigh then s.highTime else s.lowTime }
    else alignTimes s

/-- The clocks in `set_pop_status`: the high or the low side alone, if the two overlap. -/
def chargeDuration (s : StatusBoard) (e : ExecStatus) : StatusBoard :=
  if s.parallelExecution then
    match e.processorType with
    | .logic | .pim =>
      { s with lowTime := s.lowTime + e.totalDuration, deviceTime := s.lowTime + e.totalDuration }
    | .gpu =>
      { s with highTime := s.highTime + e.totalDuration
               deviceTime := s.highTime + e.totalDuration }
    | .none => s
  else { s with deviceTime := s.deviceTime + e.totalDuration }

def chargeEnergy (dramPowers : ProcessorType → DramEnergy) (s : StatusBoard) (e : ExecStatus) :
    StatusBoard :=
  if e.processorType = .none then s
  else
    let p := dramPowers e.processorType
    { s with
      actEnergy := s.actEnergy + e.actCount * p.kACT
      readEnergy := s.readEnergy + e.readCount * p.kREAD
      writeEnergy := s.writeEnergy + e.writeCount * p.kWRITE
      allActEnergy := s.allActEnergy + e.allActCount * p.kALL_ACT
      allReadEnergy := s.allReadEnergy + e.allReadCount * p.kALL_READ
      allWriteEnergy := s.allWriteEnergy + e.allWriteCount * p.kALL_WRITE
      macEnergy := s.macEnergy + e.flops * p.kMAC }

/-- The other fields that `set_pop_status` takes over or adds up. -/
def chargeWork (s : StatusBoard) (e : ExecStatus) : StatusBoard :=
  { s with
    computeUtil := e.computeUtil
    memoryUtil := e.memoryUtil
    processorType := e.processorType
    flops := s.flops + e.flops
    memorySize := s.memorySize + e.memorySize
    qkDuration := s.qkDuration + e.qkDuration
    softmaxDuration := s.softmaxDuration + e.softmaxDuration
    scoreVDuration := s.scoreVDuration + e.scoreVDuration
    kvQuantDuration := s.kvQuantDuration + e.kvQuantDuration
    pimRbDuration := s.pimRbDuration + e.pimRbDuration
    pimPeDuration := s.pimPeDuration + e.pimPeDuration
    pimRbQk := s.pimRbQk + e.pimRbQk
    pimPeQk := s.pimPeQk + e.pimPeQk
    pimRbSv := s.pimRbSv + e.pimRbSv
    pimPeSv := s.pimPeSv + e.pimPeSv
    opb := e.opb }

/-- `set_pop_status`, with the status that `getExecStatus` hands over. A `TensorVec` leaves
`parallel_execution` as it is. -/
def setPopStatus (dramPowers : ProcessorType → DramEnergy) (s : StatusBoard)
    (output : Option Placement) (e : ExecStatus) : StatusBoard :=
  let s :=
    match output with
    | none => { s with isTensorVec := true }
    | some p => { s with isTensorVec := false, parallelExecution := p.parallelExecution }
  chargeWork (chargeEnergy dramPowers (chargeDuration s e) e) e

/-- No clock is before the start. -/
structure Started (s : StatusBoard) : Prop where
  deviceTime : 0 ≤ s.deviceTime
  highTime : 0 ≤ s.highTime
  lowTime : 0 ≤ s.lowTime

theorem Started.alignTimes {s : StatusBoard} (h : s.Started) : s.alignTimes.Started := by
  have hmax : 0 ≤ max s.deviceTime (max s.lowTime s.highTime) := le_max_of_le_left h.deviceTime
  exact ⟨hmax, hmax, hmax⟩

theorem Started.setPushStatus {s : StatusBoard} (h : s.Started) (input : Option Placement) :
    (s.setPushStatus input).Started := by
  unfold StatusBoard.setPushStatus
  cases input with
  | none => exact Started.alignTimes ⟨h.deviceTime, h.highTime, h.lowTime⟩
  | some p =>
    dsimp only
    split_ifs
    · exact ⟨h.highTime, h.highTime, h.lowTime⟩
    · exact ⟨h.lowTime, h.highTime, h.lowTime⟩
    · exact Started.alignTimes ⟨h.deviceTime, h.highTime, h.lowTime⟩

theorem Started.chargeDuration {s : StatusBoard} (h : s.Started) {e : ExecStatus}
    (he : 0 ≤ e.totalDuration) : (s.chargeDuration e).Started := by
  have hlow := add_nonneg h.lowTime he
  have hhigh := add_nonneg h.highTime he
  unfold StatusBoard.chargeDuration
  split_ifs
  · cases e.processorType with
    | none => exact h
    | pim => exact ⟨hlow, h.highTime, hlow⟩
    | logic => exact ⟨hlow, h.highTime, hlow⟩
    | gpu => exact ⟨hhigh, hhigh, h.lowTime⟩
  · exact ⟨add_nonneg h.deviceTime he, h.highTime, h.lowTime⟩

theorem Started.setPopStatus {s : StatusBoard} (h : s.Started) {e : ExecStatus}
    (he : 0 ≤ e.totalDuration) (dramPowers : ProcessorType → DramEnergy)
    (output : Option Placement) : (s.setPopStatus dramPowers output e).Started := by
  have hcharged : ∀ s' : StatusBoard, s'.Started →
      (chargeWork (chargeEnergy dramPowers (s'.chargeDuration e) e) e).Started := by
    intro s' h'
    obtain ⟨hdevice, hhigh, hlow⟩ := h'.chargeDuration he
    unfold chargeEnergy
    split_ifs
    · exact ⟨hdevice, hhigh, hlow⟩
    · exact ⟨hdevice, hhigh, hlow⟩
  unfold StatusBoard.setPopStatus
  cases output with
  | none => exact hcharged _ ⟨h.deviceTime, h.highTime, h.lowTime⟩
  | some p => exact hcharged _ ⟨h.deviceTime, h.highTime, h.lowTime⟩

end StatusBoard
end LlmSystem
