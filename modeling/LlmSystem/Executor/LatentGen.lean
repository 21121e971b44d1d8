import LlmSystem.Executor.AttentionGen
import LlmSystem.Executor.LatentSum

/-! The executors of `attention_gen_impl` for multi-head latent attention, plain and absorbed. -/
namespace LlmSystem
namespace Executor
open Transfer Runs

/-- The sum over the sequences, in each of which the accumulated times so far are added to
`memory_duration`. -/
def accumulated (times : List ℚ) : ℚ := (times.inits.map List.sum).sum

/-- All sequences in one stage. -/
def ofAll (rates : Rates) (seqs : List Sequence) (flops memorySize : Sequence → ℕ)
    (transfers : List Transfer) : Stage :=
  .ofWork rates (seqs.map flops).sum (seqs.map memorySize).sum transfers

/-- The memory time stands in `exec_status` as well, accumulated. -/
def flashOfAll (rates : Rates) (seqs : List Sequence) (flops memorySize : Sequence → ℕ)
    (transfers : List Transfer) : Stage :=
  { ofAll rates seqs flops memorySize transfers with
    record := fun _ e => { e with
      memoryDuration := e.memoryDuration
        + accumulated (seqs.map fun s => duration (memorySize s) rates.memoryBandwidth) } }

/-! ### Latent attention -/

namespace LatentGen
open LatentSum
variable (type : ProcessorType) (rates : Rates) (info : LayerInfo) (precisionByte : ℕ)

def flashSeqFlops (s : Sequence) : ℕ :=
  2 * s.processed * keyDim info * s.attended * info.numHeads
    + 2 * s.processed * info.headDim * s.attended * info.numHeads

/-- Query, key, value and output. -/
def flashSeqSize (s : Sequence) : ℕ :=
  (s.processed * keyDim info + s.attended * keyDim info + s.attended * info.headDim
    + s.processed * info.headDim) * info.numHeads * precisionByte

def flash (seqs : List Sequence) : Stage :=
  let len := AttentionGen.attendedLen seqs
  flashOfAll rates seqs (flashSeqFlops info) (flashSeqSize info precisionByte)
    [read type 0 (.whole [seqs.length * info.numHeads, keyDim info]),
      read type 0 (.whole [len, keyDim info * info.numHeads]),
      read type 0 (.whole [len, info.headDim * info.numHeads]),
      write type 0 (.whole [seqs.length, info.numHeads * info.headDim])]

/-- For each head. -/
def seqFlops (m k n : ℕ) : ℕ := info.numHeads * (m * k * n * 2)

def seqSize (m k n : ℕ) : ℕ := info.numHeads * ((m * k + k * n + m * n) * precisionByte)

/-- The keys are in the tensor at `kCache`. -/
def scoring (kCache : ℕ) (seqs : List Sequence) : Stage :=
  let len := AttentionGen.attendedLen seqs
  ofAll rates seqs (fun s => seqFlops info s.processed (keyDim info) s.attended)
    (fun s => seqSize info precisionByte s.processed (keyDim info) s.attended)
    [read type 0 (.whole [seqs.length * info.numHeads, keyDim info]),
      read type kCache (.whole [len, keyDim info * info.numHeads]),
      write type 0 (.whole [info.numHeads, len])]

/-- The scores take time in the memory, but are not in the size that is reported. -/
def softmax (s : Sequence) : Stage :=
  { Stage.ofWork rates (softmaxFlops s.processed s.attended info.numHeads)
      (2 * s.processed * s.attended * info.numHeads * precisionByte)
      [read type 0 (.whole [s.processed, s.attended * info.numHeads]), write type 0 .keep] with
    memorySize := 0 }

def context (vCache : ℕ) (seqs : List Sequence) : Stage :=
  let len := AttentionGen.attendedLen seqs
  ofAll rates seqs (fun s => seqFlops info s.processed s.attended info.headDim)
    (fun s => seqSize info precisionByte s.processed s.attended info.headDim)
    [read type 0 (.whole [info.numHeads, len]),
      read type vCache (.whole [len, info.headDim * info.numHeads]),
      write type 0 (.whole [seqs.length, info.numHeads * info.headDim])]

def script (kCache vCache : ℕ) (seqs : List Sequence) : Script where
  layerType := .mlaGen
  rates := rates
  stages :=
    if info.useFlashMla then [flash type rates info precisionByte seqs]
    else scoring type rates info precisionByte kCache seqs
      :: (seqs.map (softmax type rates info precisionByte)
        ++ [context type rates info precisionByte vCache seqs])
  restored := [0]

variable {type rates info precisionByte} {kCache vCache : ℕ} {seqs : List Sequence}
  {P : Stage → Prop}

theorem forall_mem_stages
    (hflash : info.useFlashMla = true → P (flash type rates info precisionByte seqs))
    (hplain : info.useFlashMla = false → P (scoring type rates info precisionByte kCache seqs) ∧
      (∀ s ∈ seqs, P (softmax type rates info precisionByte s)) ∧
      P (context type rates info precisionByte vCache seqs)) :
    ∀ stage ∈ (script type rates info precisionByte kCache vCache seqs).stages, P stage := by
  dsimp only [script]
  split_ifs with hinfo
  · exact List.forall_mem_singleton.mpr (hflash hinfo)
  · obtain ⟨hscoring, hsoftmax, hcontext⟩ := hplain (by simpa using hinfo)
    simp only [List.forall_mem_cons, List.forall_mem_append, List.forall_mem_map]
    exact ⟨hscoring, hsoftmax, hcontext, by simp⟩

end LatentGen

/-- With one tensor the compressed cache is in the input. -/
def multiLatentAttentionGenExecution (type : ProcessorType) (rates : ℕ → Rates)
    (i : AttentionInput) : Except String (Option Script) := do
  let input ← i.tensors.at 0
  let (kCache, vCache) := if 1 < i.tensors.length then (1, 2) else (0, 0)
  let _ ← i.tensors.at kCache
  let _ ← i.tensors.at vCache
  if i.sequencesMetadata.getGenProcessToken = 0 then .ok none
  else .ok (some (LatentGen.script type (rates input.precisionByte) i.layerInfo
    input.precisionByte kCache vCache i.sequencesMetadata.getGen))

theorem multiLatentAttentionGenExecution_ok {type : ProcessorType} {rates : ℕ → Rates}
    {i : AttentionInput} {r : Option Script}
    (h : multiLatentAttentionGenExecution type rates i = .ok r) :
    ∃ input kCache vCache, i.tensors[0]? = some input ∧
      (if 1 < i.tensors.length then (1, 2) else (0, 0)) = (kCache, vCache) ∧
      vCache < i.tensors.length ∧
      r = if i.sequencesMetadata.getGenProcessToken = 0 then none
        else some (LatentGen.script type (rates input.precisionByte) i.layerInfo
          input.precisionByte kCache vCache i.sequencesMetadata.getGen) := by
  obtain ⟨input, hinput, h⟩ := bind_eq_ok h
  generalize hcaches : (if 1 < i.tensors.length then (1, 2) else (0, 0) : ℕ × ℕ) = caches at h
  obtain ⟨kCache, vCache⟩ := caches
  obtain ⟨_, -, h⟩ := bind_eq_ok h
  obtain ⟨value, hvalue, h⟩ := bind_eq_ok h
  refine ⟨input, kCache, vCache, Operands.at_ok.mp hinput, rfl,
    (List.getElem?_eq_some_iff.mp (Operands.at_ok.mp hvalue)).1, ?_⟩
  split_ifs at h ⊢ with htoken
  · exact (Except.ok.inj h).symm
  · exact (Except.ok.inj h).symm

def multiLatentAttentionGenExecutionGPU (i : AttentionInput) : Except String (Option Script) :=
  multiLatentAttentionGenExecution .gpu (fun _ => i.config.gpuRates) i

def multiLatentAttentionGenExecutionLogic (i : AttentionInput) : Except String (Option Script) :=
  multiLatentAttentionGenExecution .logic i.config.logicRates i

def multiLatentAttentionGenExecutionPIM (i : AttentionInput) : Except String (Option Script) :=
  multiLatentAttentionGenExecution .pim i.config.pimRates i

/-! ### Absorbed latent attention -/

namespace AbsorbGen
variable (type : ProcessorType) (rates : Rates) (info : LayerInfo) (precisionByte : ℕ)

/-- `kv_lora_rank + qk_rope_head_dim`. -/
def latentDim (info : LayerInfo) : ℕ := info.kvLoraRank + info.qkRopeHeadDim

/-- For one token, whatever the number of tokens is. -/
def flashSeqFlops (s : Sequence) : ℕ :=
  2 * info.numHeads * latentDim info * s.attended + 2 * info.numHeads * info.kvLoraRank * s.attended

def flashSeqSize (s : Sequence) : ℕ :=
  (info.numHeads * latentDim info + s.attended * latentDim info + info.numHeads * info.kvLoraRank)
    * precisionByte

def flash (seqs : List Sequence) : Stage :=
  flashOfAll rates seqs (flashSeqFlops info) (flashSeqSize info precisionByte)
    [read type 0 (.whole [seqs.length * info.numHeads, latentDim info]),
      read type 0 (.whole [AttentionGen.attendedLen seqs, latentDim info]),
      write type 0 (.whole [seqs.length, info.numHeads * info.kvLoraRank])]

/-- Scores against the `k` dimensions of the latent cache. -/
def scoring (k : ℕ) (seqs : List Sequence) : Stage :=
  let len := AttentionGen.attendedLen seqs
  ofAll rates seqs (fun s => matmulFlops s.processed k s.attended info.numHeads)
    (fun s => matmulSize s.processed k s.attended info.numHeads 1 * precisionByte)
    [read type 0 (.whole [seqs.length, k * info.numHeads]), read type 0 (.whole [k, len]),
      write type 0 (.whole [info.numHeads, len])]

/-- Only the time of the write counts. -/
def scoringRope (seqs : List Sequence) : Stage :=
  { scoring type rates info precisionByte info.qkRopeHeadDim seqs with
    measured := fun l => l.getLast?.getD 0 }

def softmax (s : Sequence) : Stage :=
  .ofWork rates (softmaxFlops s.processed s.attended info.numHeads)
    (2 * s.processed * s.attended * info.numHeads * precisionByte)
    [read type 0 (.whole [s.processed, s.attended * info.numHeads]), write type 0 .keep]

def context (seqs : List Sequence) : Stage :=
  let len := AttentionGen.attendedLen seqs
  ofAll rates seqs (fun s => matmulFlops s.processed s.attended info.kvLoraRank info.numHeads)
    (fun s => matmulSize s.processed s.attended info.kvLoraRank info.numHeads 1 * precisionByte)
    [read type 0 (.whole [info.numHeads, len]), read type 0 (.whole [len, info.kvLoraRank]),
      write type 0 (.whole [seqs.length * info.kvLoraRank, info.numHeads])]

def script (seqs : List Sequence) : Script where
  layerType := .absorbedMlaGen
  rates := rates
  stages :=
    if info.useFlashMla then [flash type rates info precisionByte seqs]
    else scoring type rates info precisionByte info.kvLoraRank seqs
      :: scoringRope type rates info precisionByte seqs
      :: (seqs.map (softmax type rates info precisionByte)
        ++ [context type rates info precisionByte seqs])
  restored := [0]

variable {type rates info precisionByte} {seqs : List Sequence} {P : Stage → Prop}

theorem forall_mem_stages
    (hflash : info.useFlashMla = true → P (flash type rates info precisionByte seqs))
    (hplain : info.useFlashMla = false →
      P (scoring type rates info precisionByte info.kvLoraRank seqs) ∧
      P (scoringRope type rates info precisionByte seqs) ∧
      (∀ s ∈ seqs, P (softmax type rates info precisionByte s)) ∧
      P (context type rates info precisionByte seqs)) :
    ∀ stage ∈ (script type rates info precisionByte seqs).stages, P stage := by
  dsimp only [script]
  split_ifs with hinfo
  · exact List.forall_mem_singleton.mpr (hflash hinfo)
  · obtain ⟨hscoring, hrope, hsoftmax, hcontext⟩ := hplain (by simpa using hinfo)
    simp only [List.forall_mem_cons, List.forall_mem_append, List.forall_mem_map]
    exact ⟨hscoring, hrope, hsoftmax, hcontext, by simp⟩

end AbsorbGen

def absorbMLAGenExecution (type : ProcessorType) (rates : ℕ → Rates) (i : AttentionInput) :
    Except String (Option Script) := do
  let input ← i.tensors.at 0
  if i.sequencesMetadata.getGenProcessToken = 0 then .ok none
  else .ok (some (AbsorbGen.script type (rates input.precisionByte) i.layerInfo
    input.precisionByte i.sequencesMetadata.getGen))

theorem absorbMLAGenExecution_ok {type : ProcessorType} {rates : ℕ → Rates} {i : AttentionInput}
    {r : Option Script} (h : absorbMLAGenExecution type rates i = .ok r) :
    ∃ input, i.tensors[0]? = some input ∧
      r = if i.sequencesMetadata.getGenProcessToken = 0 then none
        else some (AbsorbGen.script type (rates input.precisionByte) i.layerInfo
          input.precisionByte i.sequencesMetadata.getGen) := by
  obtain ⟨input, hinput, h⟩ := bind_eq_ok h
  refine ⟨input, Operands.at_ok.mp hinput, ?_⟩
  split_ifs at h ⊢ with htoken
  · exact (Except.ok.inj h).symm
  · exact (Except.ok.inj h).symm

def absorbMLAGenExecutionGPU (i : AttentionInput) : Except String (Option Script) :=
  absorbMLAGenExecution .gpu (fun _ => i.config.gpuRates) i

def absorbMLAGenExecutionLogic (i : AttentionInput) : Except String (Option Script) :=
  absorbMLAGenExecution .logic i.config.logicRates i

def absorbMLAGenExecutionPIM (i : AttentionInput) : Except String (Option Script) :=
  absorbMLAGenExecution .pim i.config.pimRates i

end Executor
end LlmSystem
