import LlmSystem.Executor.LatentGen

/-! `attention_mixed_impl`, and `executePType`, which finds the executor of a layer and a
processor. -/
namespace LlmSystem
namespace Executor

open Runs

/-! ### Mixed batches -/

namespace Mixed
variable (rates : Rates) (info : LayerInfo) (precisionByte : ℕ)

/-- No tensor is moved, and the scores are not counted. -/
def matmul (m k n : ℕ) : Stage :=
  .ofWork rates (matmulFlops m k n info.numHeads)
    ((m * k * info.numHeads + k * n * info.numKvHeads) * precisionByte) []

def scoring (k : ℕ) (s : Sequence) : Stage :=
  matmul rates info precisionByte s.processed k s.attended

def context (s : Sequence) : Stage :=
  matmul rates info precisionByte s.processed s.attended info.headDim

/-- In the processing elements, for each key-value head. -/
def inBanks (nb : NearbankPIMConfig) (computePrecision m k n : ℕ) : Stage :=
  { matmul rates info precisionByte m k n with
    computeDuration := nb.groupLatency info.attentionGroupSize
      (nb.computeGEMVLatency m k n precisionByte computePrecision) * info.numKvHeads
    clock := fun compute _ => compute }

def scoringPIM (nb : NearbankPIMConfig) (s : Sequence) : Stage :=
  if nb.enableNearbankModel ∧ nb.enableScoringInPim then
    inBanks rates info precisionByte nb (nb.scoringPrecision precisionByte) s.processed info.headDim
      s.attended
  else scoring rates info precisionByte info.headDim s

def contextPIM (nb : NearbankPIMConfig) (s : Sequence) : Stage :=
  if nb.enableNearbankModel ∧ nb.enableContextInPim then
    inBanks rates info precisionByte nb (NearbankPIMConfig.contextPrecision precisionByte)
      s.processed s.attended info.headDim
  else context rates info precisionByte s

end Mixed

/-- Prefill and decode alike; `flops` and `memory_size` are not reported. -/
def mixedExecution (layerType : LayerType) (rates : Rates) (opb : Bool)
    (kinds : ℕ → List (Sequence → Stage)) (i : AttentionInput) : Except String (Option Script) := do
  let input ← i.tensors.at 0
  let script : Script :=
    { layerType := layerType
      rates := rates
      stages := byStage i.sequencesMetadata.sequence (kinds input.precisionByte)
      reported := false }
  .ok (some { script with
    report := if opb then withOpb script.flops script.memorySize else id })

theorem mixedExecution_ok {layerType : LayerType} {rates : Rates} {opb : Bool}
    {kinds : ℕ → List (Sequence → Stage)} {i : AttentionInput} {r : Option Script}
    (h : mixedExecution layerType rates opb kinds i = .ok r) :
    ∃ input flops memorySize, i.tensors[0]? = some input ∧ r = some
      { layerType := layerType
        rates := rates
        stages := byStage i.sequencesMetadata.sequence (kinds input.precisionByte)
        reported := false
        report := if opb then withOpb flops memorySize else id } := by
  obtain ⟨input, hinput, h⟩ := bind_eq_ok h
  exact ⟨input, _, _, Operands.at_ok.mp hinput, (Except.ok.inj h).symm⟩

/-- The peak of the PIM units, not doubled for operands of one byte. -/
def mixedPimRates (c : ExecutorConfig) : Rates :=
  ⟨c.pimMemoryBandwidth * c.pimOpB, c.pimMemoryBandwidth⟩

def attentionMixedExecutionGPU (i : AttentionInput) : Except String (Option Script) :=
  mixedExecution .attentionMixed i.config.gpuRates false (fun p =>
    [Mixed.scoring i.config.gpuRates i.layerInfo p i.layerInfo.headDim,
      Mixed.context i.config.gpuRates i.layerInfo p]) i

/-- It returns the status as it is constructed. -/
def attentionMixedExecutionLogic (_ : AttentionInput) : Except String (Option Script) := .ok none

def attentionMixedExecutionPIM (i : AttentionInput) : Except String (Option Script) :=
  let nb := i.config.nearbankPimConfig
  let rates := mixedPimRates i.config
  mixedExecution .attentionMixed rates true (fun p =>
    [Mixed.scoringPIM rates i.layerInfo p nb, Mixed.contextPIM rates i.layerInfo p nb]) i

def multiLatentAttentionMixedExecutionGPU (i : AttentionInput) : Except String (Option Script) :=
  mixedExecution .mlaMixed i.config.gpuRates false (fun p =>
    [Mixed.scoring i.config.gpuRates i.layerInfo p (LatentSum.keyDim i.layerInfo),
      Mixed.context i.config.gpuRates i.layerInfo p]) i

def multiLatentAttentionMixedExecutionLogic (_ : AttentionInput) : Except String (Option Script) :=
  .ok none

def multiLatentAttentionMixedExecutionPIM (i : AttentionInput) : Except String (Option Script) :=
  let rates := mixedPimRates i.config
  mixedExecution .mlaMixed rates true (fun p =>
    [Mixed.scoring rates i.layerInfo p (LatentSum.keyDim i.layerInfo),
      Mixed.context rates i.layerInfo p]) i

/-! ### The tables of executors -/

/-- The entries of a table for the three kinds of processors; the first entry is empty. -/
def select {α : Type} (gpu logic pim : α → Except String (Option Script)) (type : ProcessorType)
    (a : α) : Except String (Option Script) :=
  match type with
  | .gpu => gpu a
  | .logic => logic a
  | .pim => pim a
  | .none => .error "std::bad_function_call"

/-- The executor of a layer and a processor. -/
def executorOf (layerType : LayerType) (type : ProcessorType) (i : AttentionInput) :
    Except String (Option Script) :=
  match layerType with
  | .linear => select (linearExecutionGPU i.config) (linearExecutionLogic i.config)
      (linearExecutionPIM i.config) type i.tensors
  | .batchedLinear => select (batchedLinearExecutionGPU i.config i.layerInfo.duplicatedInput)
      (batchedLinearExecutionLogic i.config) (batchedLinearExecutionPIM i.config) type i.tensors
  | .activation => select (activationExecutionGPU i.config) (activationExecutionLogic i.config)
      (activationExecutionPIM i.config) type i.tensors
  | .attentionSum => select attentionSumExecutionGPU attentionSumExecutionLogic
      attentionSumExecutionPIM type i
  | .attentionGen => select attentionGenExecutionGPU attentionGenExecutionLogic
      attentionGenExecutionPIM type i
  | .attentionMixed => select attentionMixedExecutionGPU attentionMixedExecutionLogic
      attentionMixedExecutionPIM type i
  | .mlaSum => select multiLatentAttentionSumExecutionGPU multiLatentAttentionSumExecutionLogic
      multiLatentAttentionSumExecutionPIM type i
  | .mlaGen => select multiLatentAttentionGenExecutionGPU multiLatentAttentionGenExecutionLogic
      multiLatentAttentionGenExecutionPIM type i
  | .mlaMixed => select multiLatentAttentionMixedExecutionGPU
      multiLatentAttentionMixedExecutionLogic multiLatentAttentionMixedExecutionPIM type i
  | .absorbedMlaSum => select absorbMLASumExecutionGPU absorbMLASumExecutionLogic
      absorbMLASumExecutionPIM type i
  | .absorbedMlaGen => select absorbMLAGenExecutionGPU absorbMLAGenExecutionLogic
      absorbMLAGenExecutionPIM type i

/-- `setPIMHWConfig` before the executor is called. -/
def pimHWConfig (c : ExecutorConfig) (type : ProcessorType) : PIMHWConfig where
  type := type
  bandwidthX := match type with
    | .logic => c.logicX
    | .pim => c.pimX
    | _ => 0

/-- The status, the tensors and the state of the device after `executePType`. -/
def executePType (d : DeviceMemory) (useRamulator : Bool) (layerType : LayerType)
    (type : ProcessorType) (i : AttentionInput) (s : IssueState) :
    Except String (ExecStatus × Operands × IssueState) := do
  let script ← executorOf layerType type i
  let (execStatus, tensors, s) ←
    d.execute (pimHWConfig i.config type) useRamulator script i.tensors s
  .ok ({ execStatus with processorType := type }, tensors, s)

end Executor
end LlmSystem
