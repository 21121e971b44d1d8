import LlmSystem.Executor.Linear

/-! The executors of `attention_sum_impl`: attention over the sequences in prefill. -/
namespace LlmSystem

open Runs

/-- `num_process_token`. -/
def Sequence.processed (s : Sequence) : ℕ := s.numProcessToken.toNat

/-- `current_len + num_process_token`. -/
def Sequence.attended (s : Sequence) : ℕ := (s.currentLen + s.numProcessToken).toNat

/-- The arguments of an attention executor. -/
structure AttentionInput where
  config : ExecutorConfig
  tensors : Operands
  sequencesMetadata : BatchedSequence
  layerInfo : LayerInfo

namespace Executor
open Transfer

/-! ### Matrix products -/

/-- `m * k * n` multiplications and additions for each head. -/
def matmulFlops (m k n numHeads : ℕ) : ℕ := m * k * n * 2 * numHeads

/-- Scale, mask and softmax. -/
def softmaxFlops (m n numHeads : ℕ) : ℕ := 7 * m * n * numHeads

/-- The three operands of a product, the second one once for each key-value head. -/
def matmulSize (m k n numHeads numKvHeads : ℕ) : ℕ :=
  m * k * numHeads + k * n * numKvHeads + m * n * numHeads

/-- An executor works only on an input that is not empty. -/
def withInput (i : AttentionInput) (script : Tensor → Script) : Except String (Option Script) := do
  let input ← i.tensors.at 0
  .ok (if input.getSize = 0 then none else some (script input))

theorem withInput_ok {i : AttentionInput} {script : Tensor → Script} {r : Option Script}
    (h : withInput i script = .ok r) : ∃ input, i.tensors[0]? = some input ∧
      r = if input.getSize = 0 then none else some (script input) := by
  obtain ⟨input, hinput, h⟩ := bind_eq_ok h
  exact ⟨input, Operands.at_ok.mp hinput, (Except.ok.inj h).symm⟩

/-- One stage for each sequence, and the stages of a kind one after the other. -/
def byStage (seqs : List Sequence) (kinds : List (Sequence → Stage)) : List Stage :=
  kinds.flatMap fun kind => seqs.map kind

theorem forall_mem_byStage {seqs : List Sequence} {kinds : List (Sequence → Stage)}
    {P : Stage → Prop} :
    (∀ stage ∈ byStage seqs kinds, P stage) ↔ ∀ kind ∈ kinds, ∀ s ∈ seqs, P (kind s) := by
  simp only [byStage, List.mem_flatMap, List.mem_map]
  constructor
  · exact fun h kind hkind s hs => h _ ⟨kind, hkind, s, hs, rfl⟩
  · rintro h stage ⟨kind, hkind, s, hs, rfl⟩
    exact h kind hkind s hs

/-- The stages of a kind count together. -/
theorem sum_byStage {M : Type*} [AddCommMonoid M] (f : Stage → M) (seqs : List Sequence)
    (kinds : List (Sequence → Stage)) : ((byStage seqs kinds).map f).sum
      = (kinds.map fun kind => (seqs.map fun s => f (kind s)).sum).sum := by
  induction kinds with
  | nil => rfl
  | cons kind kinds ih =>
    simp only [byStage, List.flatMap_cons, List.map_append, List.sum_append, List.map_map,
      List.map_cons, List.sum_cons] at ih ⊢
    rw [ih]
    rfl

/-! ### Grouped-query attention -/

namespace AttentionSum
variable (rates : Rates) (info : LayerInfo) (precisionByte : ℕ)

/-- The transfers of a product on the GPU. -/
def gpuTransfers (m k n : ℕ) : List Transfer :=
  [read .gpu 0 (.firstTwo m (k * info.numHeads)), read .gpu 0 (.firstTwo k (n * info.numKvHeads)),
    write .gpu 0 (.firstTwo m (n * info.numHeads))]

def matmulGPU (m k n : ℕ) : Stage :=
  .ofWork rates (matmulFlops m k n info.numHeads)
    (matmulSize m k n info.numHeads info.numKvHeads * precisionByte) (gpuTransfers info m k n)

/-- The value is read without being timed. -/
def scoringGPU (s : Sequence) : Stage :=
  { matmulGPU rates info precisionByte s.processed info.headDim s.attended with
    measured := fun l => l[0]?.getD 0 + l[2]?.getD 0 }

/-- The scores are moved, but neither timed nor counted as memory. -/
def softmaxGPU (s : Sequence) : Stage :=
  { Stage.ofWork rates (softmaxFlops s.processed s.attended info.numHeads) 0
      [read .gpu 0 (.firstTwo s.processed (s.attended * info.numHeads)), write .gpu 0 .keep] with
    measured := fun _ => 0 }

/-- Only the time of the last transfer counts. -/
def contextGPU (s : Sequence) : Stage :=
  { matmulGPU rates info precisionByte s.processed s.attended info.headDim with
    measured := fun l => l.getLast?.getD 0 }

def scoringLogic (s : Sequence) : Stage :=
  .ofWork rates (matmulFlops s.processed info.headDim s.attended info.numHeads)
    ((s.processed * info.headDim * info.numHeads + info.headDim * s.attended * info.numKvHeads)
      * precisionByte)
    [read .logic 0 (.firstTwo s.processed (info.headDim * info.numHeads)),
      gemv .logic 0 (.firstTwo info.headDim (s.attended * info.numKvHeads))]

/-- The softmax of the scores that are in the banks. -/
def softmaxInBanks (s : Sequence) : Stage :=
  { Stage.ofWork rates (softmaxFlops s.processed s.attended info.numHeads) 0 [] with
    clock := fun compute _ => compute }

def contextLogic (s : Sequence) : Stage :=
  .ofWork rates (matmulFlops s.processed s.attended info.headDim info.numHeads)
    (s.attended * info.headDim * info.numKvHeads * precisionByte)
    [gemv .logic 0 (.firstTwo s.attended (info.headDim * info.numKvHeads))]

/-- As on the logic die, but only the first dimension of the tensor is set. -/
def scoringPIM (s : Sequence) : Stage :=
  { scoringLogic rates info precisionByte s with
    simulated := [gemv .pim 0 (.first s.processed)]
    ideal := [read .pim 0 (.first s.processed)] }

def contextPIM (s : Sequence) : Stage :=
  { contextLogic rates info precisionByte s with
    simulated := [gemv .pim 0 (.first s.attended)]
    ideal := [read .pim 0 (.first s.attended)] }

def gpuScript (seqs : List Sequence) : Script where
  layerType := .attentionSum
  rates := rates
  stages := byStage seqs
    [scoringGPU rates info precisionByte, softmaxGPU rates info,
      contextGPU rates info precisionByte]
  asserted := true

def logicScript (seqs : List Sequence) : Script where
  layerType := .attentionSum
  rates := rates
  stages := byStage seqs
    [scoringLogic rates info precisionByte, softmaxInBanks rates info,
      contextLogic rates info precisionByte]

def pimScript (seqs : List Sequence) : Script where
  layerType := .attentionSum
  rates := rates
  stages := byStage seqs
    [scoringPIM rates info precisionByte, softmaxInBanks rates info,
      contextPIM rates info precisionByte]

end AttentionSum

def attentionSumExecutionGPU (i : AttentionInput) : Except String (Option Script) := do
  let _ ← i.tensors.at 1
  withInput i fun input => AttentionSum.gpuScript i.config.gpuRates i.layerInfo input.precisionByte
    i.sequencesMetadata.getSum

def attentionSumExecutionLogic (i : AttentionInput) : Except String (Option Script) :=
  withInput i fun input => AttentionSum.logicScript (i.config.logicRates input.precisionByte)
    i.layerInfo input.precisionByte i.sequencesMetadata.getSum

def attentionSumExecutionPIM (i : AttentionInput) : Except String (Option Script) :=
  withInput i fun input => AttentionSum.pimScript (i.config.pimRates input.precisionByte)
    i.layerInfo input.precisionByte i.sequencesMetadata.getSum

theorem attentionSumExecutionGPU_ok {i : AttentionInput} {r : Option Script}
    (h : attentionSumExecutionGPU i = .ok r) : ∃ input, i.tensors[0]? = some input ∧
      r = if input.getSize = 0 then none else some (AttentionSum.gpuScript i.config.gpuRates
        i.layerInfo input.precisionByte i.sequencesMetadata.getSum) := by
  obtain ⟨_, -, h⟩ := bind_eq_ok h
  exact withInput_ok h

end Executor
end LlmSystem
