import LlmSystem.Executor.AttentionSum

/-! The executors of `attention_gen_impl` for grouped-query attention: one token of each
sequence in decode. -/
namespace LlmSystem
namespace Executor
open Transfer Runs

/-- Rounded up to a multiple of four. -/
def paddedLen (n : ℕ) : ℕ := (n + 3) / 4 * 4

namespace AttentionGen
variable (info : LayerInfo) (precisionByte : ℕ)

/-- The flops of one key-value head, with `k * n` elements of the cache. -/
def headFlops (m k n : ℕ) : ℕ := m * k * n * 2 * info.attentionGroupSize

def flops (seqs : List Sequence) : ℕ :=
  (seqs.map fun s => info.numKvHeads * headFlops info s.processed info.headDim s.attended).sum

/-- On the GPU the query and the scores of a group count as well. -/
def headSizeGPU (m k n : ℕ) : ℕ :=
  (m * k * info.numHeads / info.numKvHeads + k * n + m * n * info.numHeads / info.numKvHeads)
    * precisionByte

def scoringSizeGPU (seqs : List Sequence) : ℕ :=
  (seqs.map fun s => info.numKvHeads
    * headSizeGPU info precisionByte s.processed info.headDim s.attended).sum

def contextSizeGPU (seqs : List Sequence) : ℕ :=
  (seqs.map fun s => info.numKvHeads
    * headSizeGPU info precisionByte s.processed s.attended info.headDim).sum

/-- The elements of the cache. -/
def cacheSize (seqs : List Sequence) : ℕ :=
  (seqs.map fun s => info.numKvHeads * (info.headDim * s.attended * precisionByte)).sum

def attendedLen (seqs : List Sequence) : ℕ := (seqs.map (·.attended)).sum

def paddedCacheLen (seqs : List Sequence) : ℕ := (seqs.map fun s => paddedLen s.attended).sum

def cacheShape (rows : ℕ) : Reshape := .whole [rows, info.headDim * info.numKvHeads]

/-! ### GPU -/

/-- Half of the peak. -/
def effective (rates : Rates) : Rates :=
  { rates with computePeakFlops := rates.computePeakFlops * (1 / 2) }

/-- Two operations for each of `len * headDim` elements of a quantized cache. -/
def dequantTime (rates : Rates) (len : ℕ) : ℚ :=
  if precisionByte ≤ 1 then duration (2 * (len * info.headDim)) (effective rates).computePeakFlops
  else 0

def gpuStage (rates : Rates) (flops memorySize len cache : ℕ)
    (record : ℚ → ExecStatus → ExecStatus) : Stage :=
  { Stage.ofWork (effective rates) flops memorySize [read .gpu cache (cacheShape info len)] with
    computeDuration := duration flops (effective rates).computePeakFlops
      + dequantTime info precisionByte rates len
    record := record }

/-- The length of the keys is not padded. -/
def scoringGPU (rates : Rates) (seqs : List Sequence) : Stage :=
  gpuStage info precisionByte rates (flops info seqs) (scoringSizeGPU info precisionByte seqs)
    (attendedLen seqs) 1 fun total e => { e with qkDuration := total }

def contextGPU (rates : Rates) (seqs : List Sequence) : Stage :=
  gpuStage info precisionByte rates (flops info seqs) (contextSizeGPU info precisionByte seqs)
    (paddedCacheLen seqs) 2 fun total e => { e with scoreVDuration := total }

/-! ### Logic -/

def logicStage (rates : Rates) (seqs : List Sequence) (cache : ℕ) : Stage :=
  .ofWork rates (flops info seqs) (cacheSize info precisionByte seqs)
    [gemv .logic cache (cacheShape info (paddedCacheLen seqs))]

/-! ### PIM -/

/-- `gpu_compute_peak_flops` and `gpu_memory_bandwidth`. -/
def hostRates (c : ExecutorConfig) : Rates :=
  { c.gpuRates with
    computePeakFlops := c.computePeakFlops * (if precisionByte = 1 then 2 else 1) }

/-- Where a product is computed, and in which time. -/
inductive Unit
  /-- In the processing elements, from the result for one head. -/
  | banks (gemv : Sequence → NearbankGEMVResult)
  /-- On the host, with the near-bank model. -/
  | host
  /-- Without the near-bank model: memory time scaled with the intensity so far. -/
  | roofline (opb : ℚ)

/-- The time of all heads of all sequences. -/
def overHeads (seqs : List Sequence) (time : Sequence → ℚ) : ℚ :=
  (seqs.map fun s => info.numKvHeads * time s).sum

/-- Data is loaded once for a group, and computed on for each of its heads. -/
def bankCompute (nb : NearbankPIMConfig) (gemv : Sequence → NearbankGEMVResult)
    (seqs : List Sequence) : ℚ :=
  overHeads info seqs fun s => nb.groupLatency info.attentionGroupSize (gemv s)

def bankRb (gemv : Sequence → NearbankGEMVResult) (seqs : List Sequence) : ℚ :=
  overHeads info seqs fun s => (gemv s).rowbufferTimeNs

def bankPe (gemv : Sequence → NearbankGEMVResult) (seqs : List Sequence) : ℚ :=
  overHeads info seqs fun s => (gemv s).peComputeTimeNs * info.attentionGroupSize

/-- Scoring or context, and the fields that each of them sets and adds to. -/
def pimStage (c : ExecutorConfig) (unit : Unit) (seqs : List Sequence) (cache : ℕ)
    (record : ℚ → ExecStatus → ExecStatus) (addBanks : ℚ → ℚ → ExecStatus → ExecStatus) : Stage :=
  let stage := Stage.ofWork (c.pimRates precisionByte) (flops info seqs)
    (cacheSize info precisionByte seqs)
    [gemv .pim cache (cacheShape info (paddedCacheLen seqs))]
  match unit with
  | .banks gemv =>
    let rb := bankRb info gemv seqs
    { stage with
      computeDuration := bankCompute info c.nearbankPimConfig gemv seqs
      memoryDuration := rb
      measured := fun _ => rb
      record := fun total e => addBanks rb (bankPe info gemv seqs) (record total e) }
  | .host =>
    let rates := hostRates precisionByte c
    let memoryDuration := duration (cacheSize info precisionByte seqs) rates.memoryBandwidth
    { stage with
      computeDuration := duration (flops info seqs) rates.computePeakFlops
      memoryDuration := memoryDuration
      measured := fun _ => memoryDuration
      record := record }
  | .roofline opb => { stage with clock := fun _ memory => memory * opb }

def scoringUnit (c : ExecutorConfig) (seqs : List Sequence) : Unit :=
  let nb := c.nearbankPimConfig
  if nb.enableNearbankModel then
    if nb.enableScoringInPim then
      .banks fun s => nb.computeGEMVLatency s.processed info.headDim s.attended precisionByte
        (nb.scoringPrecision precisionByte)
    else .host
  else .roofline (flops info seqs / cacheSize info precisionByte seqs)

/-- The intensity is the one of both products. -/
def contextUnit (c : ExecutorConfig) (seqs : List Sequence) : Unit :=
  let nb := c.nearbankPimConfig
  if nb.enableNearbankModel then
    if nb.enableContextInPim then
      .banks fun s => nb.computeGEMVLatency s.processed s.attended info.headDim precisionByte
        (NearbankPIMConfig.contextPrecision precisionByte)
    else .host
  else .roofline ((flops info seqs + flops info seqs : ℕ)
    / (cacheSize info precisionByte seqs + cacheSize info precisionByte seqs : ℕ))

def scoringPIM (c : ExecutorConfig) (seqs : List Sequence) : Stage :=
  pimStage info precisionByte c (scoringUnit info precisionByte c seqs) seqs 1
    (fun total e => { e with qkDuration := total })
    fun rb pe e => { e with
      pimRbDuration := e.pimRbDuration + rb
      pimPeDuration := e.pimPeDuration + pe
      pimRbQk := e.pimRbQk + rb
      pimPeQk := e.pimPeQk + pe }

def contextPIM (c : ExecutorConfig) (seqs : List Sequence) : Stage :=
  pimStage info precisionByte c (contextUnit info precisionByte c seqs) seqs 2
    (fun total e => { e with scoreVDuration := total })
    fun rb pe e => { e with
      pimRbDuration := e.pimRbDuration + rb
      pimPeDuration := e.pimPeDuration + pe
      pimRbSv := e.pimRbSv + rb
      pimPeSv := e.pimPeSv + pe }

def softmaxTotal (seqs : List Sequence) : ℕ :=
  (seqs.map fun s => softmaxFlops s.processed s.attended info.numHeads).sum

/-- Its flops are not reported; in the banks of the near-bank model it takes no time. -/
def softmaxPIM (c : ExecutorConfig) (seqs : List Sequence) : Stage where
  computeDuration :=
    if c.nearbankPimConfig.enableNearbankModel then
      if c.nearbankPimConfig.enableSoftmaxInPim then 0
      else duration (softmaxTotal info seqs) (hostRates precisionByte c).computePeakFlops
    else duration (softmaxTotal info seqs) (c.pimRates precisionByte).computePeakFlops
  clock := fun compute _ => compute
  record := fun total e => { e with softmaxDuration := total }

/-- The keys and values of the new tokens are quantized on the host. -/
def kvQuant (c : ExecutorConfig) (seqs : List Sequence) : ℚ :=
  let kvElements := 2 * (info.numKvHeads * info.headDim) * seqs.length
  max (duration (4 * kvElements) (hostRates precisionByte c).computePeakFlops)
    (duration (kvElements * 2) (hostRates precisionByte c).memoryBandwidth)

end AttentionGen

open AttentionGen

/-- The executors return at once where no sequence processes a token. -/
def attentionGenExecution (i : AttentionInput) (script : ℕ → List Sequence → Script) :
    Except String (Option Script) := do
  let input ← i.tensors.at 0
  let _ ← i.tensors.at 1
  let _ ← i.tensors.at 2
  if i.sequencesMetadata.getGenProcessToken = 0 then .ok none
  else .ok (some (script input.precisionByte i.sequencesMetadata.getGen))

theorem attentionGenExecution_ok {i : AttentionInput} {script : ℕ → List Sequence → Script}
    {r : Option Script} (h : attentionGenExecution i script = .ok r) :
    ∃ input key value, i.tensors[0]? = some input ∧ i.tensors[1]? = some key ∧
      i.tensors[2]? = some value ∧
      r = if i.sequencesMetadata.getGenProcessToken = 0 then none
        else some (script input.precisionByte i.sequencesMetadata.getGen) := by
  obtain ⟨input, hinput, h⟩ := bind_eq_ok h
  obtain ⟨key, hkey, h⟩ := bind_eq_ok h
  obtain ⟨value, hvalue, h⟩ := bind_eq_ok h
  refine ⟨input, key, value, Operands.at_ok.mp hinput, Operands.at_ok.mp hkey,
    Operands.at_ok.mp hvalue, ?_⟩
  split_ifs at h ⊢ with htoken
  · exact (Except.ok.inj h).symm
  · exact (Except.ok.inj h).symm

def attentionGenExecutionGPU (i : AttentionInput) : Except String (Option Script) :=
  attentionGenExecution i fun p seqs =>
    let rates := i.config.gpuRates
    { layerType := .attentionGen
      rates := rates
      stages := [AttentionGen.scoringGPU i.layerInfo p rates seqs,
        AttentionGen.contextGPU i.layerInfo p rates seqs] }

def attentionGenExecutionLogic (i : AttentionInput) : Except String (Option Script) :=
  attentionGenExecution i fun p seqs =>
    let rates := i.config.logicRates p
    { layerType := .attentionGen
      rates := rates
      stages := [logicStage i.layerInfo p rates seqs 1, logicStage i.layerInfo p rates seqs 2] }

def attentionGenExecutionPIM (i : AttentionInput) : Except String (Option Script) :=
  attentionGenExecution i fun p seqs =>
    { layerType := .attentionGen
      rates := i.config.pimRates p
      stages := [AttentionGen.scoringPIM i.layerInfo p i.config seqs,
        softmaxPIM i.layerInfo p i.config seqs, AttentionGen.contextPIM i.layerInfo p i.config seqs]
      report := fun e => { e with kvQuantDuration := kvQuant i.layerInfo p i.config seqs } }

end Executor
end LlmSystem
