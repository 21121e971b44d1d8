import LlmSystem.Executor.AttentionSum

/-! The executors of `attention_sum_impl` for multi-head latent attention, plain and absorbed. -/
namespace LlmSystem
namespace Executor
open Transfer Runs

/-! ### Latent attention -/

namespace LatentSum

/-- `block_size_r` and `block_size_c`. -/
structure Tiling where
  blockR : ℕ
  blockC : ℕ
  deriving DecidableEq, Repr

/-- The rows of four operands that fit in 256 KiB of shared memory. -/
def blockRows (k precisionByte : ℕ) : ℕ := 256 * 1024 / (4 * k * precisionByte)

def tilingGPU (k precisionByte : ℕ) : Tiling :=
  ⟨min (blockRows k precisionByte) k, blockRows k precisionByte⟩

def tilingLogic (k precisionByte : ℕ) : Tiling := ⟨blockRows k precisionByte, k⟩

/-- `num_tile_r` and `num_tile_c`, both of the processed tokens. -/
def numTile (m block : ℕ) : ℕ := (m + block - 1) / block

variable (type : ProcessorType) (rates : Rates) (info : LayerInfo) (precisionByte : ℕ)

/-- `head_dim + qk_rope_head_dim`. -/
def keyDim (info : LayerInfo) : ℕ := info.headDim + info.qkRopeHeadDim

def flashFlops (t : Tiling) (m : ℕ) : ℕ :=
  numTile m t.blockR * numTile m t.blockC
    * (2 * t.blockR * keyDim info * t.blockC + 2 * t.blockR * info.headDim * t.blockC)
    * info.numHeads

def flash (t : Tiling) (s : Sequence) : Stage :=
  let m := s.processed
  let numTileR := numTile m t.blockR
  let numTileC := numTile m t.blockC
  let q := t.blockR * keyDim info
  let kv := t.blockC * keyDim info + t.blockC * info.headDim
  let o := t.blockR * info.headDim
  let norm := t.blockR + t.blockR
  .ofWork rates (flashFlops info t m)
    ((q * numTileR * numTileC + kv * numTileC + 2 * o * numTileR * numTileC
      + 2 * norm * numTileR * numTileC) * info.numHeads * precisionByte)
    [read type 0 (.firstTwo (q * numTileR) (numTileC * info.numHeads)),
      read type 0 (.firstTwo kv (numTileC * info.numHeads)),
      read type 0 (.firstTwo (o * numTileR) (numTileC * info.numHeads)), write type 0 .keep,
      read type 0 (.firstTwo (norm * numTileR) (numTileC * info.numHeads)), write type 0 .keep]

/-- With the simulator the value is moved once for each head, without it once for each
key-value head. -/
def scoring (s : Sequence) : Stage :=
  let m := s.processed
  let k := keyDim info
  let n := s.attended
  { Stage.ofWork rates (matmulFlops m k n info.numHeads)
      (matmulSize m k n info.numHeads info.numHeads * precisionByte)
      [read type 0 (.firstTwo m (k * info.numHeads)), read type 0 (.firstTwo k (n * info.numHeads)),
        write type 0 (.firstTwo m (n * info.numHeads))] with
    ideal := [read type 0 (.firstTwo m (k * info.numHeads)),
      read type 0 (.firstTwo k (n * info.numKvHeads)),
      write type 0 (.firstTwo m (n * info.numHeads))] }

def softmax (s : Sequence) : Stage :=
  .ofWork rates (softmaxFlops s.processed s.attended info.numHeads)
    (2 * (s.processed * s.attended * info.numHeads) * precisionByte)
    [read type 0 (.firstTwo s.processed (s.attended * info.numHeads)), write type 0 .keep]

def context (s : Sequence) : Stage :=
  let m := s.processed
  let k := s.attended
  let n := info.headDim
  .ofWork rates (matmulFlops m k n info.numHeads)
    (matmulSize m k n info.numHeads info.numHeads * precisionByte)
    [read type 0 (.firstTwo m (k * info.numHeads)), read type 0 (.firstTwo k (n * info.numKvHeads)),
      write type 0 (.firstTwo m (n * info.numHeads))]

def script (tiling : Tiling) (seqs : List Sequence) : Script where
  layerType := .mlaSum
  rates := rates
  stages :=
    if info.useFlashAttention then byStage seqs [flash type rates info precisionByte tiling]
    else byStage seqs [scoring type rates info precisionByte, softmax type rates info precisionByte,
      context type rates info precisionByte]
  restored := [0]
  asserted := true

variable {type rates info precisionByte} {tiling : Tiling} {seqs : List Sequence} {P : Stage → Prop}

theorem forall_mem_stages
    (hflash : info.useFlashAttention = true →
      ∀ s ∈ seqs, P (flash type rates info precisionByte tiling s))
    (hplain : info.useFlashAttention = false →
      ∀ s ∈ seqs, P (scoring type rates info precisionByte s) ∧
        P (softmax type rates info precisionByte s) ∧ P (context type rates info precisionByte s)) :
    ∀ stage ∈ (script type rates info precisionByte tiling seqs).stages, P stage := by
  dsimp only [script]
  split_ifs with hinfo
  · rw [forall_mem_byStage, List.forall_mem_singleton]
    exact hflash hinfo
  · have hall := hplain (by simpa using hinfo)
    simp only [forall_mem_byStage, List.forall_mem_cons]
    exact ⟨fun s hs => (hall s hs).1, fun s hs => (hall s hs).2.1, fun s hs => (hall s hs).2.2,
      by simp⟩

end LatentSum

open LatentSum

/-- Where not a row fits, the number of tiles is a division by zero. -/
def multiLatentAttentionSumExecution (type : ProcessorType) (rates : ℕ → Rates)
    (tiling : ℕ → ℕ → Tiling) (i : AttentionInput) : Except String (Option Script) := do
  let input ← i.tensors.at 0
  let _ ← i.tensors.at 1
  let seqs := i.sequencesMetadata.getSum
  if input.getSize = 0 then .ok none
  else if i.layerInfo.useFlashAttention ∧ seqs ≠ []
      ∧ blockRows (keyDim i.layerInfo) input.precisionByte = 0 then .error "division by zero"
  else .ok (some (script type (rates input.precisionByte) i.layerInfo input.precisionByte
    (tiling (keyDim i.layerInfo) input.precisionByte) seqs))

theorem multiLatentAttentionSumExecution_ok {type : ProcessorType} {rates : ℕ → Rates}
    {tiling : ℕ → ℕ → Tiling} {i : AttentionInput} {r : Option Script}
    (h : multiLatentAttentionSumExecution type rates tiling i = .ok r) :
    ∃ input, i.tensors[0]? = some input ∧
      r = if input.getSize = 0 then none else some (script type (rates input.precisionByte)
        i.layerInfo input.precisionByte (tiling (keyDim i.layerInfo) input.precisionByte)
        i.sequencesMetadata.getSum) := by
  obtain ⟨input, hinput, h⟩ := bind_eq_ok h
  obtain ⟨_, -, h⟩ := bind_eq_ok h
  refine ⟨input, Operands.at_ok.mp hinput, ?_⟩
  dsimp only at h
  split_ifs at h ⊢ with hsize hrows
  · exact (Except.ok.inj h).symm
  · exact (Except.ok.inj h).symm

/-- The peak of the GPU, which the other two executors also compute with. -/
def latentRates (c : ExecutorConfig) (precisionByte : ℕ) : Rates :=
  { c.gpuRates with
    computePeakFlops := c.computePeakFlops * (if precisionByte = 1 then 2 else 1) }

def multiLatentAttentionSumExecutionGPU (i : AttentionInput) : Except String (Option Script) :=
  multiLatentAttentionSumExecution .gpu (fun _ => i.config.gpuRates) tilingGPU i

def multiLatentAttentionSumExecutionLogic (i : AttentionInput) : Except String (Option Script) :=
  multiLatentAttentionSumExecution .logic (latentRates i.config) tilingLogic i

def multiLatentAttentionSumExecutionPIM (i : AttentionInput) : Except String (Option Script) :=
  multiLatentAttentionSumExecution .pim (latentRates i.config) tilingLogic i

/-! ### Absorbed latent attention -/

namespace AbsorbSum
variable (type : ProcessorType) (rates : Rates) (info : LayerInfo) (precisionByte : ℕ)

/-- The whole shape of the tensor is set. -/
def matmulTransfers (m k n : ℕ) : List Transfer :=
  [read type 0 (.whole [m, k * info.numHeads]), read type 0 (.whole [k, n]),
    write type 0 (.whole [m, n * info.numHeads])]

/-- The latent cache is shared by all heads. -/
def matmul (m k n : ℕ) (transfers : List Transfer) : Stage :=
  .ofWork rates (matmulFlops m k n info.numHeads)
    (matmulSize m k n info.numHeads 1 * precisionByte) transfers

def scoringNope (s : Sequence) : Stage :=
  matmul rates info precisionByte s.processed info.kvLoraRank s.attended
    (matmulTransfers type info s.processed info.kvLoraRank s.attended)

def scoringRope (s : Sequence) : Stage :=
  matmul rates info precisionByte s.processed info.qkRopeHeadDim s.attended
    (matmulTransfers type info s.processed info.qkRopeHeadDim s.attended)

def context (s : Sequence) : Stage :=
  matmul rates info precisionByte s.processed s.attended info.kvLoraRank
    (matmulTransfers type info s.processed s.attended info.kvLoraRank)

def softmaxGPU (s : Sequence) : Stage :=
  .ofWork rates (softmaxFlops s.processed s.attended info.numHeads)
    (2 * (s.processed * s.attended * info.numHeads) * precisionByte)
    [read .gpu 0 (.whole [s.processed, s.attended * info.numHeads]), write .gpu 0 .keep]

/-- The scores are not written. -/
def scoringNopeLogic (s : Sequence) : Stage :=
  matmul rates info precisionByte s.processed info.kvLoraRank s.attended
    [read .logic 0 (.whole [s.processed, info.kvLoraRank * info.numHeads]),
      gemv .logic 0 (.whole [info.kvLoraRank, s.attended])]

/-- The time of the write counts twice, and the one of the cache not at all. -/
def scoringRopeLogic (s : Sequence) : Stage :=
  { scoringRope .logic rates info precisionByte s with
    measured := fun l => l[0]?.getD 0 + 2 * l[2]?.getD 0 }

/-- The memory is counted, but only the time of the computation is. -/
def softmaxLogic (s : Sequence) : Stage :=
  { Stage.ofWork rates (softmaxFlops s.processed s.attended info.numHeads)
      (2 * (s.processed * s.attended * info.numHeads) * precisionByte) [] with
    clock := fun compute _ => compute }

def contextLogic (s : Sequence) : Stage :=
  { context .logic rates info precisionByte s with measured := fun l => l.getLast?.getD 0 }

/-- A column of as many rows is moved. -/
def inBanks (rows m k n : ℕ) : Stage :=
  matmul rates info precisionByte m k n [gemv .pim 0 (.whole [rows, 1])]

end AbsorbSum

/-- The heads are the first dimension of the input. -/
def absorbMLASumExecution (rates : ℕ → Rates) (kinds : ℕ → List (Sequence → Stage))
    (i : AttentionInput) : Except String (Option Script) := do
  let input ← i.tensors.at 0
  if input.getSize = 0 then .ok none
  else do
    let heads ← dim input 0
    if i.layerInfo.numHeads ≠ heads then
      .error "input tensor shape is not match in num_head"
    else .ok (some
      { layerType := .absorbedMlaSum
        rates := rates input.precisionByte
        stages := byStage i.sequencesMetadata.getSum (kinds input.precisionByte) })

theorem absorbMLASumExecution_ok {rates : ℕ → Rates} {kinds : ℕ → List (Sequence → Stage)}
    {i : AttentionInput} {r : Option Script} (h : absorbMLASumExecution rates kinds i = .ok r) :
    ∃ input, i.tensors[0]? = some input ∧
      r = if input.getSize = 0 then none else some
        { layerType := .absorbedMlaSum
          rates := rates input.precisionByte
          stages := byStage i.sequencesMetadata.getSum (kinds input.precisionByte) } := by
  obtain ⟨input, hinput, h⟩ := bind_eq_ok h
  refine ⟨input, Operands.at_ok.mp hinput, ?_⟩
  split_ifs at h ⊢ with hsize
  · exact (Except.ok.inj h).symm
  · obtain ⟨heads, -, h⟩ := bind_eq_ok h
    split_ifs at h with hheads
    exact (Except.ok.inj h).symm

open AbsorbSum

def absorbMLASumExecutionGPU (i : AttentionInput) : Except String (Option Script) := do
  let _ ← i.tensors.at 1
  let rates := i.config.gpuRates
  let info := i.layerInfo
  let script ← absorbMLASumExecution (fun _ => rates) (fun p =>
    [scoringNope .gpu rates info p, scoringRope .gpu rates info p,
      AbsorbSum.softmaxGPU rates info p, AbsorbSum.context .gpu rates info p]) i
  .ok (script.map fun s => { s with restored := [0], asserted := true })

theorem absorbMLASumExecutionGPU_ok {i : AttentionInput} {r : Option Script}
    (h : absorbMLASumExecutionGPU i = .ok r) :
    ∃ input, i.tensors[0]? = some input ∧
      r = if input.getSize = 0 then none else some
        { layerType := .absorbedMlaSum
          rates := i.config.gpuRates
          stages := byStage i.sequencesMetadata.getSum
            [scoringNope .gpu i.config.gpuRates i.layerInfo input.precisionByte,
              scoringRope .gpu i.config.gpuRates i.layerInfo input.precisionByte,
              AbsorbSum.softmaxGPU i.config.gpuRates i.layerInfo input.precisionByte,
              AbsorbSum.context .gpu i.config.gpuRates i.layerInfo input.precisionByte]
          restored := [0]
          asserted := true } := by
  obtain ⟨_, -, h⟩ := bind_eq_ok h
  obtain ⟨r', hr', h⟩ := bind_eq_ok h
  obtain ⟨input, hinput, rfl⟩ := absorbMLASumExecution_ok hr'
  refine ⟨input, hinput, ?_⟩
  have hr := (Except.ok.inj h).symm
  split_ifs at hr ⊢ with hsize
  · exact hr
  · exact hr

def absorbMLASumExecutionLogic (i : AttentionInput) : Except String (Option Script) :=
  let rates := i.config.logicRates
  let info := i.layerInfo
  absorbMLASumExecution rates (fun p =>
    [scoringNopeLogic (rates p) info p, scoringRopeLogic (rates p) info p,
      softmaxLogic (rates p) info p, AbsorbSum.contextLogic (rates p) info p]) i

def absorbMLASumExecutionPIM (i : AttentionInput) : Except String (Option Script) :=
  let rates := i.config.pimRates
  let info := i.layerInfo
  absorbMLASumExecution rates (fun p =>
    [fun s => inBanks (rates p) info p s.processed s.processed info.kvLoraRank s.attended,
      fun s => inBanks (rates p) info p s.processed s.processed info.qkRopeHeadDim s.attended,
      AttentionSum.softmaxInBanks (rates p) info,
      fun s => inBanks (rates p) info p s.attended s.processed s.attended info.kvLoraRank]) i

end Executor
end LlmSystem
