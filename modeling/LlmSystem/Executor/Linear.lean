import LlmSystem.Executor.Nearbank
import LlmSystem.Executor.Script

/-! The executors of `linear_impl` and `activation_impl`. -/
namespace LlmSystem

open Runs

/-- The fields of `SystemConfig` that the executors read. -/
structure ExecutorConfig where
  computePeakFlops : ℚ
  memoryBandwidth : ℚ
  logicX : ℤ := 4
  logicMemoryBandwidth : ℚ
  logicOpB : ℚ
  pimX : ℤ := 16
  pimMemoryBandwidth : ℚ
  pimOpB : ℚ
  nearbankPimConfig : NearbankPIMConfig := {}
  deriving DecidableEq, Repr

namespace ExecutorConfig
variable (c : ExecutorConfig)

def gpuRates : Rates := ⟨c.computePeakFlops, c.memoryBandwidth⟩

/-- Operands of one byte are processed twice as fast. -/
def logicRates (precisionByte : ℕ) : Rates :=
  ⟨c.logicMemoryBandwidth * c.logicOpB * (if precisionByte = 1 then 2 else 1),
    c.logicMemoryBandwidth⟩

def pimRates (precisionByte : ℕ) : Rates :=
  ⟨c.pimMemoryBandwidth * c.pimOpB * (if precisionByte = 1 then 2 else 1), c.pimMemoryBandwidth⟩

end ExecutorConfig

/-- The default of `num_heads`. -/
theorem sixtyFour_pos : 0 < 64 := by decide

/-- The default of `num_kv_heads`. -/
theorem eight_pos : 0 < 8 := by decide

/-- What all executors are given. A layer has heads, of some dimension. -/
structure LayerInfo where
  processorType : List ProcessorType := []
  attentionGroupSize : ℕ := 8
  numHeads : ℕ := 64
  numKvHeads : ℕ := 8
  headDim : ℕ := 1
  qkRopeHeadDim : ℕ := 0
  kvLoraRank : ℕ := 0
  duplicatedInput : Bool := false
  useFlashMla : Bool := true
  useFlashAttention : Bool := true
  numHeads_pos : 0 < numHeads := by first | exact sixtyFour_pos | decide
  numKvHeads_pos : 0 < numKvHeads := by first | exact eight_pos | decide
  headDim_pos : 0 < headDim := by first | exact Nat.one_pos | decide
  deriving Repr

/-- Heads of the usual dimension. -/
def LayerInfo.wideHeads : LayerInfo := { headDim := 128 }

namespace Stage

/-- The work at the given rates; without the simulator the same tensors are moved. -/
def ofWork (rates : Rates) (flops memorySize : ℕ) (transfers : List Transfer) : Stage where
  flops := flops
  memorySize := memorySize
  computeDuration := duration flops rates.computePeakFlops
  memoryDuration := duration memorySize rates.memoryBandwidth
  simulated := transfers
  ideal := transfers.map Transfer.asRead

end Stage

namespace Executor
open Transfer

def dim (t : Tensor) (i : ℕ) : Except String ℕ :=
  match t.shape[i]? with
  | none => .error "shape is out of range"
  | some n => .ok n

theorem dim_ok {t : Tensor} {i n : ℕ} : dim t i = .ok n ↔ t.shape[i]? = some n := by
  unfold dim
  cases t.shape[i]? with
  | none => simp
  | some n' => simp

/-- `flops / memory_size`, which only the executors on the GPU and a few others set. -/
def withOpb (flops memorySize : ℕ) (e : ExecStatus) : ExecStatus :=
  { e with opb := flops / memorySize }

/-- One stage, whose memory time `exec_status` keeps. -/
def single (rates : Rates) (layerType : LayerType) (stage : Stage) : Script where
  layerType := layerType
  rates := rates
  stages := [{ stage with fromStatus := true }]

/-! ### Linear -/

/-- On all three processors input and output are moved as on the GPU. -/
def linearExecution (rates : Rates) (weightTransfer : Transfer) (ops : Operands) :
    Except String (Option Script) := do
  let input ← ops.at 0
  let weight ← ops.at 1
  let _ ← ops.at 2
  let m ← dim input 0
  let k ← dim input 1
  let n ← dim weight 1
  if input.getSize = 0 then .ok none
  else .ok (single rates .linear (.ofWork rates (2 * m * k * n)
    ((m * k + k * n + m * n) * weight.precisionByte)
    [read .gpu 0 .keep, weightTransfer, write .gpu 2 .keep]))

theorem linearExecution_ok {rates : Rates} {weightTransfer : Transfer} {ops : Operands}
    {r : Option Script} (h : linearExecution rates weightTransfer ops = .ok r) :
    ∃ input weight output m k n, ops[0]? = some input ∧ ops[1]? = some weight ∧
      ops[2]? = some output ∧ input.shape[0]? = some m ∧ input.shape[1]? = some k ∧
      weight.shape[1]? = some n ∧
      r = if input.getSize = 0 then none else some (single rates .linear
        (.ofWork rates (2 * m * k * n) ((m * k + k * n + m * n) * weight.precisionByte)
          [read .gpu 0 .keep, weightTransfer, write .gpu 2 .keep])) := by
  obtain ⟨input, hinput, h⟩ := bind_eq_ok h
  obtain ⟨weight, hweight, h⟩ := bind_eq_ok h
  obtain ⟨output, houtput, h⟩ := bind_eq_ok h
  obtain ⟨m, hm, h⟩ := bind_eq_ok h
  obtain ⟨k, hk, h⟩ := bind_eq_ok h
  obtain ⟨n, hn, h⟩ := bind_eq_ok h
  refine ⟨input, weight, output, m, k, n, Operands.at_ok.mp hinput, Operands.at_ok.mp hweight,
    Operands.at_ok.mp houtput, dim_ok.mp hm, dim_ok.mp hk, dim_ok.mp hn, ?_⟩
  split_ifs at h ⊢ with hsize
  · exact (Except.ok.inj h).symm
  · exact (Except.ok.inj h).symm

def linearExecutionGPU (c : ExecutorConfig) (ops : Operands) : Except String (Option Script) := do
  let script ← linearExecution c.gpuRates (read .gpu 1 .keep) ops
  .ok (script.map fun s => { s with report := withOpb s.flops s.memorySize })

theorem linearExecutionGPU_ok {c : ExecutorConfig} {ops : Operands} {r : Option Script}
    (h : linearExecutionGPU c ops = .ok r) :
    ∃ r', linearExecution c.gpuRates (read .gpu 1 .keep) ops = .ok r' ∧
      r = r'.map fun s => { s with report := withOpb s.flops s.memorySize } := by
  obtain ⟨r', hr', h⟩ := bind_eq_ok h
  exact ⟨r', hr', (Except.ok.inj h).symm⟩

/-- The precision of the operand that decides how fast it is processed. -/
def inputPrecision (ops : Operands) : ℕ := (ops[0]?.map (·.precisionByte)).getD 0

def linearExecutionLogic (c : ExecutorConfig) (ops : Operands) : Except String (Option Script) :=
  linearExecution (c.logicRates (inputPrecision ops)) (gemv .logic 1 .keep) ops

def linearExecutionPIM (c : ExecutorConfig) (ops : Operands) : Except String (Option Script) :=
  linearExecution (c.pimRates (inputPrecision ops)) (gemv .pim 1 .keep) ops

/-! ### Batched linear -/

/-- With the simulator the heads are moved side by side, and the duplicated input once. -/
def batchedLinearStage (rates : Rates) (duplicatedInput : Bool) (precisionByte numHeads m k n : ℕ) :
    Stage :=
  let memorySize :=
    (if duplicatedInput then m * k + k * n * numHeads + m * n * numHeads
      else (m * k + k * n + m * n) * numHeads) * precisionByte
  { Stage.ofWork rates (2 * m * k * n * numHeads) memorySize
      [read .gpu 0 (.whole [m, if duplicatedInput then k else k * numHeads]),
        read .gpu 1 (.whole [k * numHeads, n]), write .gpu 2 (.whole [m, n * numHeads])] with
    ideal := [read .gpu 0 .keep, read .gpu 1 .keep, write .gpu 2 .keep] }

def batchedLinearExecutionGPU (c : ExecutorConfig) (duplicatedInput : Bool) (ops : Operands) :
    Except String (Option Script) := do
  let input ← ops.at 0
  let weight ← ops.at 1
  let output ← ops.at 2
  match input.shape, weight.shape, output.shape with
  | [numHeads, m, k], [_, _, n], [_, _, _] =>
    let stage := batchedLinearStage c.gpuRates duplicatedInput weight.precisionByte numHeads m k n
    if input.getSize = 0 then .ok none
    else .ok (some { single c.gpuRates .linear stage with
      restored := [0, 1, 2], report := withOpb stage.flops stage.memorySize })
  | _, _, _ => .error "tensor is not 3D tensor"

theorem batchedLinearExecutionGPU_ok {c : ExecutorConfig} {duplicatedInput : Bool} {ops : Operands}
    {r : Option Script} (h : batchedLinearExecutionGPU c duplicatedInput ops = .ok r) :
    ∃ input weight output numHeads m k n, ops[0]? = some input ∧ ops[1]? = some weight ∧
      ops[2]? = some output ∧ input.shape = [numHeads, m, k] ∧
      (∃ a b, weight.shape = [a, b, n]) ∧ output.shape.length = 3 ∧
      r = if input.getSize = 0 then none else some
        (let stage :=
          batchedLinearStage c.gpuRates duplicatedInput weight.precisionByte numHeads m k n
        { single c.gpuRates .linear stage with
          restored := [0, 1, 2], report := withOpb stage.flops stage.memorySize }) := by
  obtain ⟨input, hinput, h⟩ := bind_eq_ok h
  obtain ⟨weight, hweight, h⟩ := bind_eq_ok h
  obtain ⟨output, houtput, h⟩ := bind_eq_ok h
  dsimp only at h
  split at h
  next numHeads m k a b n _ _ _ hin hw hout =>
    refine ⟨input, weight, output, numHeads, m, k, n, Operands.at_ok.mp hinput,
      Operands.at_ok.mp hweight, Operands.at_ok.mp houtput, hin, ⟨a, b, hw⟩, by rw [hout]; rfl, ?_⟩
    split_ifs at h ⊢ with hsize
    · exact (Except.ok.inj h).symm
    · exact (Except.ok.inj h).symm
  next => cases h

/-- A copy of the executor for a linear layer. -/
def batchedLinearExecutionLogic (c : ExecutorConfig) (ops : Operands) :
    Except String (Option Script) := linearExecutionLogic c ops

def batchedLinearExecutionPIM (c : ExecutorConfig) (ops : Operands) :
    Except String (Option Script) := linearExecutionPIM c ops

/-! ### Activation -/

def activationExecution (rates : Rates) (flops : ℕ → ℕ) (simulated ideal : List Transfer)
    (ops : Operands) : Except String (Option Script) := do
  let gateOutput ← ops.at 0
  let input ← ops.at 1
  let output ← ops.at 2
  let memorySize := gateOutput.getSize + input.getSize + output.getSize
  if input.getSize = 0 then .ok none
  else .ok (single rates .activation
    { Stage.ofWork rates (flops memorySize) memorySize simulated with ideal := ideal })

theorem activationExecution_ok {rates : Rates} {flops : ℕ → ℕ} {simulated ideal : List Transfer}
    {ops : Operands} {r : Option Script}
    (h : activationExecution rates flops simulated ideal ops = .ok r) :
    ∃ gateOutput input output memorySize, ops[0]? = some gateOutput ∧ ops[1]? = some input ∧
      ops[2]? = some output ∧
      memorySize = gateOutput.getSize + input.getSize + output.getSize ∧
      r = if input.getSize = 0 then none else some (single rates .activation
        { Stage.ofWork rates (flops memorySize) memorySize simulated with ideal := ideal }) := by
  obtain ⟨gateOutput, hgate, h⟩ := bind_eq_ok h
  obtain ⟨input, hinput, h⟩ := bind_eq_ok h
  obtain ⟨output, houtput, h⟩ := bind_eq_ok h
  refine ⟨gateOutput, input, output, _, Operands.at_ok.mp hgate, Operands.at_ok.mp hinput,
    Operands.at_ok.mp houtput, rfl, ?_⟩
  split_ifs at h ⊢ with hsize
  · exact (Except.ok.inj h).symm
  · exact (Except.ok.inj h).symm

/-- Two reads and a write. -/
def elementwise (type : ProcessorType) : List Transfer :=
  [read type 0 .keep, read type 1 .keep, write type 2 .keep]

def activationExecutionGPU (c : ExecutorConfig) (ops : Operands) :
    Except String (Option Script) := do
  let script ← activationExecution c.gpuRates (fun _ => 0) (elementwise .gpu) (elementwise .gpu) ops
  .ok (script.map fun s => { s with report := withOpb s.flops s.memorySize })

theorem activationExecutionGPU_ok {c : ExecutorConfig} {ops : Operands} {r : Option Script}
    (h : activationExecutionGPU c ops = .ok r) :
    ∃ r', activationExecution c.gpuRates (fun _ => 0) (elementwise .gpu) (elementwise .gpu) ops
        = .ok r' ∧ r = r'.map fun s => { s with report := withOpb s.flops s.memorySize } := by
  obtain ⟨r', hr', h⟩ := bind_eq_ok h
  exact ⟨r', hr', (Except.ok.inj h).symm⟩

/-- The precision that counts is the one of the input, not of the first tensor. -/
def secondPrecision (ops : Operands) : ℕ := (ops[1]?.map (·.precisionByte)).getD 0

def activationExecutionLogic (c : ExecutorConfig) (ops : Operands) :
    Except String (Option Script) :=
  activationExecution (c.logicRates (secondPrecision ops)) id
    [gemv .logic 0 .keep, gemv .logic 1 .keep, gemv .logic 2 .keep] (elementwise .logic) ops

def activationExecutionPIM (c : ExecutorConfig) (ops : Operands) : Except String (Option Script) :=
  activationExecution (c.pimRates (secondPrecision ops)) id (elementwise .pim) (elementwise .pim)
    ops

end Executor
end LlmSystem
