import LlmSystem.Dram.ExecutionCache
import LlmSystem.Dram.Ideal
import LlmSystem.Scheduler.Sequence

/-!
What an executor does, as data: the stages it goes through, each with its work and the tensors it
has the memory move, and what it reports in the end. The interpreter is the part that all executors
have in common.
-/
namespace LlmSystem

open Runs

structure Tensor where
  precisionByte : ℕ
  shape : List ℕ
  address : ℤ := 0
  precisionByte_pos : 0 < precisionByte := by decide
  deriving DecidableEq, Repr

namespace Tensor

def getSize (t : Tensor) : ℕ := t.precisionByte * t.shape.prod

def setShape (t : Tensor) (shape : List ℕ) : Tensor := { t with shape }

def getMemoryObject (t : Tensor) : MemoryObject := ⟨t.address, t.getSize⟩

@[simp] theorem setShape_shape (t : Tensor) (shape : List ℕ) :
    (t.setShape shape).shape = shape := rfl

@[simp] theorem setShape_setShape (t : Tensor) (shape shape' : List ℕ) :
    (t.setShape shape).setShape shape' = t.setShape shape' := rfl

@[simp] theorem setShape_self (t : Tensor) : t.setShape t.shape = t := rfl

theorem getSize_eq_zero {t : Tensor} : t.getSize = 0 ↔ t.shape.prod = 0 := by
  unfold getSize
  rw [Nat.mul_eq_zero]
  exact or_iff_right t.precisionByte_pos.ne'

end Tensor

/-- `tensor_list`; its tensors are told apart by their positions. -/
abbrev Operands := List Tensor

namespace Operands

def «at» (ops : Operands) (i : ℕ) : Except String Tensor :=
  match ops[i]? with
  | none => .error "std::out_of_range"
  | some t => .ok t

def shapes (ops : Operands) : List (List ℕ) := ops.map (·.shape)

theorem at_ok {ops : Operands} {i : ℕ} {t : Tensor} : ops.at i = .ok t ↔ ops[i]? = some t := by
  unfold «at»
  cases ops[i]? with
  | none => simp
  | some t' => simp

end Operands

/-- How a shape is changed before a tensor is moved: the writes to a copy of `getShape()`. -/
inductive Reshape
  | keep
  | whole (shape : List ℕ)
  | firstTwo (rows columns : ℕ)
  | first (rows : ℕ)
  deriving DecidableEq, Repr

def Reshape.apply : Reshape → List ℕ → Except String (List ℕ)
  | .keep, shape => .ok shape
  | .whole shape, _ => .ok shape
  | .firstTwo rows columns, _ :: _ :: rest => .ok (rows :: columns :: rest)
  | .first rows, _ :: rest => .ok (rows :: rest)
  | _, _ => .error "std::out_of_range"

/-- A call of `issueRamulator` or of `getIdealMemoryStatus`, with the `setShape` before it. -/
structure Transfer where
  tensor : ℕ
  reshape : Reshape
  processorType : ProcessorType
  dramRequestType : DRAMRequestType
  pimOperandType : PIMOperandType := .kDRAM
  deriving DecidableEq, Repr

namespace Transfer

def read (type : ProcessorType) (tensor : ℕ) (reshape : Reshape) : Transfer :=
  ⟨tensor, reshape, type, .kRead, .kDRAM⟩

def write (type : ProcessorType) (tensor : ℕ) (reshape : Reshape) : Transfer :=
  ⟨tensor, reshape, type, .kWrite, .kDRAM⟩

def gemv (type : ProcessorType) (tensor : ℕ) (reshape : Reshape) : Transfer :=
  ⟨tensor, reshape, type, .kGEMV, .kSrc⟩

/-- Without the simulator there is no GEMV: the tensor is read. -/
def asRead (t : Transfer) : Transfer :=
  if t.dramRequestType = .kGEMV then { t with dramRequestType := .kRead, pimOperandType := .kDRAM }
  else t

/-- The call, and the tensors after it. -/
def call (layerType : LayerType) (pimHWConfig : PIMHWConfig) (t : Transfer) (ops : Operands) :
    Except String (IssueCall × Operands) := do
  let tensor ← ops.at t.tensor
  let shape ← t.reshape.apply tensor.shape
  let tensor := tensor.setShape shape
  .ok (⟨layerType, t.processorType, t.dramRequestType, t.pimOperandType, tensor.getMemoryObject,
    pimHWConfig⟩, ops.set t.tensor tensor)

def calls (layerType : LayerType) (pimHWConfig : PIMHWConfig) :
    List Transfer → Operands → Except String (List IssueCall × Operands)
  | [], ops => .ok ([], ops)
  | t :: ts, ops => do
    let (call, ops) ← t.call layerType pimHWConfig ops
    let (calls, ops) ← calls layerType pimHWConfig ts ops
    .ok (call :: calls, ops)

variable {layerType : LayerType} {pimHWConfig : PIMHWConfig} {ops ops' : Operands}

theorem call_ok {t : Transfer} {c : IssueCall}
    (h : t.call layerType pimHWConfig ops = .ok (c, ops')) :
    ∃ tensor shape, ops[t.tensor]? = some tensor ∧ t.reshape.apply tensor.shape = .ok shape ∧
      c = ⟨layerType, t.processorType, t.dramRequestType, t.pimOperandType,
        (tensor.setShape shape).getMemoryObject, pimHWConfig⟩ ∧
      ops' = ops.set t.tensor (tensor.setShape shape) := by
  obtain ⟨tensor, htensor, h⟩ := bind_eq_ok h
  obtain ⟨shape, hshape, h⟩ := bind_eq_ok h
  obtain ⟨rfl, rfl⟩ := Prod.mk.inj (Except.ok.inj h)
  exact ⟨tensor, shape, Operands.at_ok.mp htensor, hshape, rfl, rfl⟩

theorem calls_cons {t : Transfer} {ts : List Transfer} {cs : List IssueCall}
    (h : calls layerType pimHWConfig (t :: ts) ops = .ok (cs, ops')) :
    ∃ c ops₁ cs', t.call layerType pimHWConfig ops = .ok (c, ops₁) ∧
      calls layerType pimHWConfig ts ops₁ = .ok (cs', ops') ∧ cs = c :: cs' := by
  obtain ⟨⟨c, ops₁⟩, hc, h⟩ := bind_eq_ok h
  obtain ⟨⟨cs', ops₂⟩, hcs, h⟩ := bind_eq_ok h
  obtain ⟨rfl, rfl⟩ := Prod.mk.inj (Except.ok.inj h)
  exact ⟨c, ops₁, cs', hc, hcs, rfl⟩

end Transfer

/-- The time in ns that work takes at a rate in a second. -/
def duration (work : ℕ) (rate : ℚ) : ℚ := work / rate * 1000 * 1000 * 1000

/-- `compute_peak_flops` and `memory_bandwidth`. -/
structure Rates where
  computePeakFlops : ℚ
  memoryBandwidth : ℚ
  deriving DecidableEq, Repr

/-- A stage of an executor, for one sequence or for all of them. -/
structure Stage where
  flops : ℕ := 0
  memorySize : ℕ := 0
  computeDuration : ℚ := 0
  /-- Without the simulator. -/
  memoryDuration : ℚ := 0
  simulated : List Transfer := []
  ideal : List Transfer := []
  /-- With the simulator, from the time that each of the transfers took. -/
  measured : List ℚ → ℚ := List.sum
  clock : ℚ → ℚ → ℚ := max
  /-- The memory time is taken from `exec_status`, where the transfers have added theirs. -/
  fromStatus : Bool := false
  /-- The further fields that are set, from the time of the stage. -/
  record : ℚ → ExecStatus → ExecStatus := fun _ e => e

namespace ExecStatus

/-- `operator+=`. -/
def add (e rhs : ExecStatus) : ExecStatus :=
  { e with
    totalDuration := e.totalDuration + rhs.totalDuration
    memoryDuration := e.memoryDuration + rhs.memoryDuration
    qkDuration := e.qkDuration + rhs.qkDuration
    softmaxDuration := e.softmaxDuration + rhs.softmaxDuration
    scoreVDuration := e.scoreVDuration + rhs.scoreVDuration
    kvQuantDuration := e.kvQuantDuration + rhs.kvQuantDuration
    pimRbDuration := e.pimRbDuration + rhs.pimRbDuration
    pimPeDuration := e.pimPeDuration + rhs.pimPeDuration
    pimRbQk := e.pimRbQk + rhs.pimRbQk
    pimPeQk := e.pimPeQk + rhs.pimPeQk
    pimRbSv := e.pimRbSv + rhs.pimRbSv
    pimPeSv := e.pimPeSv + rhs.pimPeSv
    actCount := e.actCount + rhs.actCount
    readCount := e.readCount + rhs.readCount
    writeCount := e.writeCount + rhs.writeCount
    allActCount := e.allActCount + rhs.allActCount
    allReadCount := e.allReadCount + rhs.allReadCount
    allWriteCount := e.allWriteCount + rhs.allWriteCount
    refCount := e.refCount + rhs.refCount }

end ExecStatus

namespace Stage

def transfers (stage : Stage) (useRamulator : Bool) : List Transfer :=
  if useRamulator then stage.simulated else stage.ideal

/-- The stage's part of `exec_status`, once the memory has answered. -/
def charge (useRamulator : Bool) (e : ExecStatus) (stage : Stage) (answers : List ExecStatus) :
    ExecStatus :=
  let e := answers.foldl ExecStatus.add e
  let e := if stage.fromStatus ∧ ¬ useRamulator then
      { e with memoryDuration := e.memoryDuration + stage.memoryDuration } else e
  let memoryDuration :=
    if stage.fromStatus then e.memoryDuration
    else if useRamulator then stage.measured (answers.map (·.memoryDuration))
    else stage.memoryDuration
  let total := stage.clock stage.computeDuration memoryDuration
  stage.record total { e with totalDuration := e.totalDuration + total }

end Stage

/-- What an executor does once it has found that there is work. -/
structure Script where
  layerType : LayerType
  rates : Rates
  stages : List Stage
  /-- The tensors whose shape is set back in the end. -/
  restored : List ℕ := []
  /-- The assertions that there was work. -/
  asserted : Bool := false
  /-- Whether `flops` and `memory_size` are reported. -/
  reported : Bool := true
  /-- The further fields that are set in the end. -/
  report : ExecStatus → ExecStatus := fun e => e

namespace Script

def flops (script : Script) : ℕ := (script.stages.map (·.flops)).sum

def memorySize (script : Script) : ℕ := (script.stages.map (·.memorySize)).sum

/-- The calls of each stage, and the tensors as the last one leaves them. -/
def stageCalls (layerType : LayerType) (pimHWConfig : PIMHWConfig) (useRamulator : Bool) :
    List Stage → Operands → Except String (List (List IssueCall) × Operands)
  | [], ops => .ok ([], ops)
  | stage :: stages, ops => do
    let (calls, ops) ← Transfer.calls layerType pimHWConfig (stage.transfers useRamulator) ops
    let (callss, ops) ← stageCalls layerType pimHWConfig useRamulator stages ops
    .ok (calls :: callss, ops)

theorem stageCalls_cons {layerType : LayerType} {pimHWConfig : PIMHWConfig} {useRamulator : Bool}
    {stage : Stage} {stages : List Stage} {ops ops' : Operands} {callss : List (List IssueCall)}
    (h : stageCalls layerType pimHWConfig useRamulator (stage :: stages) ops = .ok (callss, ops')) :
    ∃ calls ops₁ callss',
      Transfer.calls layerType pimHWConfig (stage.transfers useRamulator) ops = .ok (calls, ops₁) ∧
      stageCalls layerType pimHWConfig useRamulator stages ops₁ = .ok (callss', ops') ∧
      callss = calls :: callss' := by
  obtain ⟨⟨calls, ops₁⟩, hcalls, h⟩ := bind_eq_ok h
  obtain ⟨⟨callss', ops₂⟩, hrest, h⟩ := bind_eq_ok h
  obtain ⟨rfl, rfl⟩ := Prod.mk.inj (Except.ok.inj h)
  exact ⟨calls, ops₁, callss', hcalls, hrest, rfl⟩

def calls (script : Script) (pimHWConfig : PIMHWConfig) (useRamulator : Bool) (ops : Operands) :
    Except String (List (List IssueCall) × Operands) :=
  stageCalls script.layerType pimHWConfig useRamulator script.stages ops

/-- The shapes that are set back. -/
def restore (script : Script) (before after : Operands) : Operands :=
  script.restored.foldl (fun ops i =>
    match before[i]?, ops[i]? with
    | some t, some t' => ops.set i (t'.setShape t.shape)
    | _, _ => ops) after

/-- The stages one after the other. -/
def charge (useRamulator : Bool) : ExecStatus → List Stage → List (List ExecStatus) → ExecStatus
  | e, stage :: stages, answers :: answerss =>
    charge useRamulator (stage.charge useRamulator e answers) stages answerss
  | e, _, _ => e

def finish (script : Script) (e : ExecStatus) : ExecStatus :=
  let e := { e with
    computeUtil := 1000 * 1000 * 1000 * script.flops / script.rates.computePeakFlops
      / e.totalDuration
    memoryUtil := 1000 * 1000 * 1000 * script.memorySize / script.rates.memoryBandwidth
      / e.totalDuration }
  script.report
    (if script.reported then { e with flops := script.flops, memorySize := script.memorySize }
      else e)

def status (script : Script) (useRamulator : Bool) (answerss : List (List ExecStatus)) :
    ExecStatus :=
  script.finish (charge useRamulator {} script.stages answerss)

end Script

/-- The memory of a device. -/
structure DeviceMemory where
  memoryConfig : MemoryConfig
  memoryScaleFactor : ℚ := 1
  ramulator : List PIMCommand → Simulated

namespace DeviceMemory
variable (d : DeviceMemory)

def getIdealMemoryStatus (s : IssueState) (call : IssueCall) : ExecStatus × IssueState :=
  let execStatus := runIdeal d.memoryConfig call.dramRequestType call.tensor.size s.execStatus
  (execStatus, { s with execStatus })

def ask (useRamulator : Bool) (s : IssueState) (call : IssueCall) :
    Except String (ExecStatus × IssueState) :=
  if useRamulator then issueRamulator d.memoryConfig d.memoryScaleFactor d.ramulator s call
  else .ok (d.getIdealMemoryStatus s call)

def askAll (useRamulator : Bool) : IssueState → List IssueCall →
    Except String (List ExecStatus × IssueState)
  | s, [] => .ok ([], s)
  | s, call :: calls => do
    let (execStatus, s) ← d.ask useRamulator s call
    let (statuses, s) ← askAll useRamulator s calls
    .ok (execStatus :: statuses, s)

def askEach (useRamulator : Bool) : IssueState → List (List IssueCall) →
    Except String (List (List ExecStatus) × IssueState)
  | s, [] => .ok ([], s)
  | s, calls :: callss => do
    let (statuses, s) ← d.askAll useRamulator s calls
    let (statusess, s) ← askEach useRamulator s callss
    .ok (statuses :: statusess, s)

/-- An executor at work. Where there is no script it has returned at once. -/
def execute (pimHWConfig : PIMHWConfig) (useRamulator : Bool) (script : Option Script)
    (ops : Operands) (s : IssueState) : Except String (ExecStatus × Operands × IssueState) :=
  match script with
  | none => .ok ({}, ops, s)
  | some script => do
    let (callss, ops') ← script.calls pimHWConfig useRamulator ops
    let (answerss, s) ← d.askEach useRamulator s callss
    if script.asserted ∧ ¬ (0 < script.flops ∧ 0 < script.memorySize) then .error "fail"
    else .ok (script.status useRamulator answerss, script.restore ops ops', s)

end DeviceMemory
end LlmSystem
