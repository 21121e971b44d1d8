import LlmSystem.Executor.Reports

/-! What the executors come to: each script, with what was read from the operands for it. -/
namespace LlmSystem

open Runs

/-- The peaks and bandwidths that executors compute with. -/
inductive ExecutorConfig.Offers (c : ExecutorConfig) : Rates → Prop
  | gpu : c.Offers c.gpuRates
  | logic (precisionByte : ℕ) : c.Offers (c.logicRates precisionByte)
  | pim (precisionByte : ℕ) : c.Offers (c.pimRates precisionByte)
  | latent (precisionByte : ℕ) : c.Offers (Executor.latentRates c precisionByte)
  | mixed : c.Offers (Executor.mixedPimRates c)

theorem keepsWork_withOpb (flops memorySize : ℕ) :
    KeepsWork (Executor.withOpb flops memorySize) := by
  constructor <;> exact fun _ => rfl

namespace Executor
open Transfer

/-! ### Operands -/

def EmptyAt (ops : Operands) (tensor : ℕ) : Prop :=
  ∃ t, ops[tensor]? = some t ∧ t.getSize = 0

def NonemptyAt (ops : Operands) (tensor : ℕ) (t : Tensor) : Prop :=
  ops[tensor]? = some t ∧ t.getSize ≠ 0

theorem NonemptyAt.not_emptyAt {ops : Operands} {tensor : ℕ} {t : Tensor}
    (h : NonemptyAt ops tensor t) : ¬ EmptyAt ops tensor := by
  rintro ⟨t', ht', hsize⟩
  have htt' : t = t' := Option.some.inj (h.1.symm.trans ht')
  exact h.2 (htt' ▸ hsize)

/-- The operands of a linear layer, as its executors read them. -/
structure LinearOperands (ops : Operands) (weight : Tensor) (m k n : ℕ) : Prop where
  input : ∃ t, NonemptyAt ops 0 t ∧ t.shape[0]? = some m ∧ t.shape[1]? = some k
  weight : ops[1]? = some weight ∧ weight.shape[1]? = some n
  output : ∃ t, ops[2]? = some t

/-- The operands of a batched linear layer, as the GPU reads them. -/
structure BatchedOperands (ops : Operands) (weight : Tensor) (numHeads m k n : ℕ) : Prop where
  input : ∃ t, NonemptyAt ops 0 t ∧ t.shape = [numHeads, m, k]
  weight : ops[1]? = some weight ∧ ∃ a b, weight.shape = [a, b, n]
  output : ∃ t, ops[2]? = some t ∧ t.shape.length = 3

/-- The operands of an activation. -/
structure ActivationOperands (ops : Operands) (memorySize : ℕ) : Prop where
  input : ∃ t, NonemptyAt ops 1 t
  size : ∃ gateOutput input output, ops[0]? = some gateOutput ∧ ops[1]? = some input ∧
    ops[2]? = some output ∧ memorySize = gateOutput.getSize + input.getSize + output.getSize

/-- The operands of an attention layer in decode. -/
structure GenOperands (i : AttentionInput) (input : Tensor) : Prop where
  input : i.tensors[0]? = some input
  token : i.sequencesMetadata.getGenProcessToken ≠ 0

/-- The keys and values that latent attention finds. -/
structure LatentCaches (ops : Operands) (kCache vCache : ℕ) : Prop where
  caches : (if 1 < ops.length then (1, 2) else (0, 0)) = (kCache, vCache)
  value : vCache < ops.length

/-! ### Scripts -/

def linearScript (rates : Rates) (weightTransfer : Transfer) (report : ExecStatus → ExecStatus)
    (precisionByte m k n : ℕ) : Script :=
  { single rates .linear (.ofWork rates (2 * m * k * n) ((m * k + k * n + m * n) * precisionByte)
      [read .gpu 0 .keep, weightTransfer, write .gpu 2 .keep]) with report := report }

def batchedScript (rates : Rates) (duplicatedInput : Bool) (precisionByte numHeads m k n : ℕ) :
    Script :=
  let stage := batchedLinearStage rates duplicatedInput precisionByte numHeads m k n
  { single rates .linear stage with
    restored := [0, 1, 2], report := withOpb stage.flops stage.memorySize }

def activationScript (rates : Rates) (flops memorySize : ℕ) (simulated ideal : List Transfer)
    (report : ExecStatus → ExecStatus) : Script :=
  { single rates .activation
      { Stage.ofWork rates flops memorySize simulated with ideal := ideal } with report := report }

def absorbSumScript (rates : Rates) (kinds : List (Sequence → Stage)) (seqs : List Sequence) :
    Script where
  layerType := .absorbedMlaSum
  rates := rates
  stages := byStage seqs kinds

def attentionGenScript (rates : Rates) (stages : List Stage) (report : ExecStatus → ExecStatus) :
    Script where
  layerType := .attentionGen
  rates := rates
  stages := stages
  report := report

def mixedScript (layerType : LayerType) (rates : Rates) (kinds : List (Sequence → Stage))
    (report : ExecStatus → ExecStatus) (seqs : List Sequence) : Script where
  layerType := layerType
  rates := rates
  stages := byStage seqs kinds
  reported := false
  report := report

/-- The weight is moved as it is. -/
def WeightTransfer (t : Transfer) : Prop := t = read .gpu 1 .keep ∨ ∃ type, t = gemv type 1 .keep

/-- The scripts of the executors. -/
inductive Scripted (i : AttentionInput) : LayerType → ProcessorType → Script → Prop
  | linear {type rates weightTransfer report weight m k n}
      (operands : LinearOperands i.tensors weight m k n) (offers : i.config.Offers rates)
      (transfer : WeightTransfer weightTransfer) (keeps : KeepsWork report) :
      Scripted i .linear type (linearScript rates weightTransfer report weight.precisionByte m k n)
  | batchedLinear {type rates weightTransfer report weight m k n} (notGPU : type ≠ .gpu)
      (operands : LinearOperands i.tensors weight m k n) (offers : i.config.Offers rates)
      (transfer : WeightTransfer weightTransfer) (keeps : KeepsWork report) :
      Scripted i .batchedLinear type
        (linearScript rates weightTransfer report weight.precisionByte m k n)
  | batchedLinearGPU {weight numHeads m k n}
      (operands : BatchedOperands i.tensors weight numHeads m k n) :
      Scripted i .batchedLinear .gpu (batchedScript i.config.gpuRates i.layerInfo.duplicatedInput
        weight.precisionByte numHeads m k n)
  | activation {type rates flops memorySize report} (notLogic : type ≠ .logic)
      (operands : ActivationOperands i.tensors memorySize) (offers : i.config.Offers rates)
      (keeps : KeepsWork report) :
      Scripted i .activation type
        (activationScript rates flops memorySize (elementwise type) (elementwise type) report)
  | activationLogic {rates memorySize}
      (operands : ActivationOperands i.tensors memorySize) (offers : i.config.Offers rates) :
      Scripted i .activation .logic (activationScript rates memorySize memorySize
        [gemv .logic 0 .keep, gemv .logic 1 .keep, gemv .logic 2 .keep] (elementwise .logic)
        fun e => e)
  | attentionSumGPU {input} (operands : NonemptyAt i.tensors 0 input) :
      Scripted i .attentionSum .gpu (AttentionSum.gpuScript i.config.gpuRates i.layerInfo
        input.precisionByte i.sequencesMetadata.getSum)
  | attentionSumLogic {input} (operands : NonemptyAt i.tensors 0 input) :
      Scripted i .attentionSum .logic (AttentionSum.logicScript
        (i.config.logicRates input.precisionByte) i.layerInfo input.precisionByte
        i.sequencesMetadata.getSum)
  | attentionSumPIM {input} (operands : NonemptyAt i.tensors 0 input) :
      Scripted i .attentionSum .pim (AttentionSum.pimScript
        (i.config.pimRates input.precisionByte) i.layerInfo input.precisionByte
        i.sequencesMetadata.getSum)
  | mlaSum {type rates input} {tiling : ℕ → ℕ → LatentSum.Tiling}
      (operands : NonemptyAt i.tensors 0 input) (offers : i.config.Offers rates)
      (tiles : if type = .gpu then tiling = LatentSum.tilingGPU
        else tiling = LatentSum.tilingLogic) :
      Scripted i .mlaSum type (LatentSum.script type rates i.layerInfo input.precisionByte
        (tiling (LatentSum.keyDim i.layerInfo) input.precisionByte) i.sequencesMetadata.getSum)
  | absorbedSumGPU {input} (operands : NonemptyAt i.tensors 0 input) :
      Scripted i .absorbedMlaSum .gpu
        { absorbSumScript i.config.gpuRates
            [AbsorbSum.scoringNope .gpu i.config.gpuRates i.layerInfo input.precisionByte,
              AbsorbSum.scoringRope .gpu i.config.gpuRates i.layerInfo input.precisionByte,
              AbsorbSum.softmaxGPU i.config.gpuRates i.layerInfo input.precisionByte,
              AbsorbSum.context .gpu i.config.gpuRates i.layerInfo input.precisionByte]
            i.sequencesMetadata.getSum with
          restored := [0], asserted := true }
  | absorbedSumLogic {input rates} (operands : NonemptyAt i.tensors 0 input)
      (hrates : rates = i.config.logicRates input.precisionByte) :
      Scripted i .absorbedMlaSum .logic (absorbSumScript rates
        [AbsorbSum.scoringNopeLogic rates i.layerInfo input.precisionByte,
          AbsorbSum.scoringRopeLogic rates i.layerInfo input.precisionByte,
          AbsorbSum.softmaxLogic rates i.layerInfo input.precisionByte,
          AbsorbSum.contextLogic rates i.layerInfo input.precisionByte]
        i.sequencesMetadata.getSum)
  | absorbedSumPIM {input rates} (operands : NonemptyAt i.tensors 0 input)
      (hrates : rates = i.config.pimRates input.precisionByte) :
      Scripted i .absorbedMlaSum .pim (absorbSumScript rates
        [fun s => AbsorbSum.inBanks rates i.layerInfo input.precisionByte s.processed s.processed
            i.layerInfo.kvLoraRank s.attended,
          fun s => AbsorbSum.inBanks rates i.layerInfo input.precisionByte s.processed s.processed
            i.layerInfo.qkRopeHeadDim s.attended,
          AttentionSum.softmaxInBanks rates i.layerInfo,
          fun s => AbsorbSum.inBanks rates i.layerInfo input.precisionByte s.attended s.processed
            s.attended i.layerInfo.kvLoraRank]
        i.sequencesMetadata.getSum)
  | attentionGenGPU {input key value} (operands : GenOperands i input)
      (hkey : i.tensors[1]? = some key) (hvalue : i.tensors[2]? = some value) :
      Scripted i .attentionGen .gpu (attentionGenScript i.config.gpuRates
        [AttentionGen.scoringGPU i.layerInfo input.precisionByte i.config.gpuRates
            i.sequencesMetadata.getGen,
          AttentionGen.contextGPU i.layerInfo input.precisionByte i.config.gpuRates
            i.sequencesMetadata.getGen] fun e => e)
  | attentionGenLogic {input key value rates} (operands : GenOperands i input)
      (hkey : i.tensors[1]? = some key) (hvalue : i.tensors[2]? = some value)
      (hrates : rates = i.config.logicRates input.precisionByte) :
      Scripted i .attentionGen .logic (attentionGenScript rates
        [AttentionGen.logicStage i.layerInfo input.precisionByte rates i.sequencesMetadata.getGen 1,
          AttentionGen.logicStage i.layerInfo input.precisionByte rates
            i.sequencesMetadata.getGen 2] fun e => e)
  | attentionGenPIM {input key value report} (operands : GenOperands i input)
      (hkey : i.tensors[1]? = some key) (hvalue : i.tensors[2]? = some value)
      (keeps : KeepsWork report) :
      Scripted i .attentionGen .pim (attentionGenScript (i.config.pimRates input.precisionByte)
        [AttentionGen.scoringPIM i.layerInfo input.precisionByte i.config
            i.sequencesMetadata.getGen,
          AttentionGen.softmaxPIM i.layerInfo input.precisionByte i.config
            i.sequencesMetadata.getGen,
          AttentionGen.contextPIM i.layerInfo input.precisionByte i.config
            i.sequencesMetadata.getGen] report)
  | mlaGen {type rates input kCache vCache} (operands : GenOperands i input)
      (caches : LatentCaches i.tensors kCache vCache) (offers : i.config.Offers rates) :
      Scripted i .mlaGen type (LatentGen.script type rates i.layerInfo input.precisionByte
        kCache vCache i.sequencesMetadata.getGen)
  | absorbedMlaGen {type rates input} (operands : GenOperands i input)
      (offers : i.config.Offers rates) :
      Scripted i .absorbedMlaGen type (AbsorbGen.script type rates i.layerInfo
        input.precisionByte i.sequencesMetadata.getGen)
  | attentionMixedGPU {precisionByte} :
      Scripted i .attentionMixed .gpu (mixedScript .attentionMixed i.config.gpuRates
        [Mixed.scoring i.config.gpuRates i.layerInfo precisionByte i.layerInfo.headDim,
          Mixed.context i.config.gpuRates i.layerInfo precisionByte] id
        i.sequencesMetadata.sequence)
  | attentionMixedPIM {rates precisionByte report} (hrates : rates = mixedPimRates i.config)
      (keeps : KeepsWork report) :
      Scripted i .attentionMixed .pim (mixedScript .attentionMixed rates
        [Mixed.scoringPIM rates i.layerInfo precisionByte i.config.nearbankPimConfig,
          Mixed.contextPIM rates i.layerInfo precisionByte i.config.nearbankPimConfig] report
        i.sequencesMetadata.sequence)
  | mlaMixed {type rates precisionByte report} (notLogic : type ≠ .logic)
      (offers : i.config.Offers rates) (keeps : KeepsWork report) :
      Scripted i .mlaMixed type (mixedScript .mlaMixed rates
        [Mixed.scoring rates i.layerInfo precisionByte (LatentSum.keyDim i.layerInfo),
          Mixed.context rates i.layerInfo precisionByte] report i.sequencesMetadata.sequence)

/-- Where an executor returns at once. -/
def Spared (i : AttentionInput) (type : ProcessorType) : LayerType → Prop
  | .activation => EmptyAt i.tensors 1
  | .linear | .batchedLinear | .attentionSum | .mlaSum | .absorbedMlaSum => EmptyAt i.tensors 0
  | .attentionGen | .mlaGen | .absorbedMlaGen => i.sequencesMetadata.getGenProcessToken = 0
  | .attentionMixed | .mlaMixed => type = .logic

/-- An executor returns at once or goes through a script. -/
def Found (i : AttentionInput) (layerType : LayerType) (type : ProcessorType) (r : Option Script) :
    Prop :=
  r = none ∧ Spared i type layerType ∨ ∃ script, r = some script ∧ Scripted i layerType type script

section Found
variable {i : AttentionInput} {layerType : LayerType} {type : ProcessorType} {r : Option Script}

theorem found_select {α : Type} {gpu logic pim : α → Except String (Option Script)} {a : α}
    (hgpu : ∀ r, gpu a = .ok r → Found i layerType .gpu r)
    (hlogic : ∀ r, logic a = .ok r → Found i layerType .logic r)
    (hpim : ∀ r, pim a = .ok r → Found i layerType .pim r)
    (h : select gpu logic pim type a = .ok r) : Found i layerType type r := by
  cases type with
  | gpu => exact hgpu r h
  | logic => exact hlogic r h
  | pim => exact hpim r h
  | none => cases h

/-- Nothing is done for a tensor that is empty. -/
theorem found_of_ite {tensor : ℕ} {input : Tensor} {script : Script}
    (hspared : EmptyAt i.tensors tensor → Spared i type layerType)
    (hinput : i.tensors[tensor]? = some input)
    (hscript : NonemptyAt i.tensors tensor input → Scripted i layerType type script) :
    Found i layerType type (if input.getSize = 0 then none else some script) := by
  split_ifs with hsize
  · exact .inl ⟨rfl, hspared ⟨input, hinput, hsize⟩⟩
  · exact .inr ⟨script, rfl, hscript ⟨hinput, hsize⟩⟩

/-- And for a batch in which nothing is processed. -/
theorem found_of_token {input : Tensor} {script : Script}
    (hspared : i.sequencesMetadata.getGenProcessToken = 0 → Spared i type layerType)
    (hinput : i.tensors[0]? = some input)
    (hscript : GenOperands i input → Scripted i layerType type script) :
    Found i layerType type
      (if i.sequencesMetadata.getGenProcessToken = 0 then none else some script) := by
  split_ifs with htoken
  · exact .inl ⟨rfl, hspared htoken⟩
  · exact .inr ⟨script, rfl, hscript ⟨hinput, htoken⟩⟩

theorem found_linear {rates : Rates} {weightTransfer : Transfer}
    (hspared : EmptyAt i.tensors 0 → Spared i type layerType)
    (hscript : ∀ {weight m k n}, LinearOperands i.tensors weight m k n →
      Scripted i layerType type
        (linearScript rates weightTransfer (fun e => e) weight.precisionByte m k n))
    (h : linearExecution rates weightTransfer i.tensors = .ok r) : Found i layerType type r := by
  obtain ⟨input, weight, output, m, k, n, hinput, hweight, houtput, hm, hk, hn, rfl⟩ :=
    linearExecution_ok h
  exact found_of_ite hspared hinput fun hne =>
    hscript ⟨⟨input, hne, hm, hk⟩, ⟨hweight, hn⟩, output, houtput⟩

theorem found_linearGPU (h : linearExecutionGPU i.config i.tensors = .ok r) :
    Found i .linear .gpu r := by
  obtain ⟨r', hr', rfl⟩ := linearExecutionGPU_ok h
  obtain ⟨input, weight, output, m, k, n, hinput, hweight, houtput, hm, hk, hn, rfl⟩ :=
    linearExecution_ok hr'
  rw [apply_ite (Option.map _)]
  exact found_of_ite id hinput fun hne => .linear
    ⟨⟨input, hne, hm, hk⟩, ⟨hweight, hn⟩, output, houtput⟩ .gpu (.inl rfl) (keepsWork_withOpb _ _)

theorem found_batchedLinearGPU
    (h : batchedLinearExecutionGPU i.config i.layerInfo.duplicatedInput i.tensors = .ok r) :
    Found i .batchedLinear .gpu r := by
  obtain ⟨input, weight, output, numHeads, m, k, n, hinput, hweight, houtput, hshape, hwshape,
    hoshape, rfl⟩ := batchedLinearExecutionGPU_ok h
  exact found_of_ite id hinput fun hne => .batchedLinearGPU
    ⟨⟨input, hne, hshape⟩, ⟨hweight, hwshape⟩, output, houtput, hoshape⟩

theorem found_activation {rates : Rates} {flops : ℕ → ℕ} {simulated ideal : List Transfer}
    (hscript : ∀ {memorySize}, ActivationOperands i.tensors memorySize →
      Scripted i .activation type
        (activationScript rates (flops memorySize) memorySize simulated ideal fun e => e))
    (h : activationExecution rates flops simulated ideal i.tensors = .ok r) :
    Found i .activation type r := by
  obtain ⟨gateOutput, input, output, memorySize, hgate, hinput, houtput, hmemory, rfl⟩ :=
    activationExecution_ok h
  exact found_of_ite id hinput fun hne =>
    hscript ⟨⟨input, hne⟩, gateOutput, input, output, hgate, hinput, houtput, hmemory⟩

theorem found_activationGPU (h : activationExecutionGPU i.config i.tensors = .ok r) :
    Found i .activation .gpu r := by
  obtain ⟨r', hr', rfl⟩ := activationExecutionGPU_ok h
  obtain ⟨gateOutput, input, output, memorySize, hgate, hinput, houtput, hmemory, rfl⟩ :=
    activationExecution_ok hr'
  rw [apply_ite (Option.map _)]
  exact found_of_ite id hinput fun hne => .activation (by decide)
    ⟨⟨input, hne⟩, gateOutput, input, output, hgate, hinput, houtput, hmemory⟩ .gpu
    (keepsWork_withOpb _ _)

theorem found_mlaSum {rates : ℕ → Rates} {tiling : ℕ → ℕ → LatentSum.Tiling}
    (hrates : ∀ precisionByte, i.config.Offers (rates precisionByte))
    (htiles : if type = .gpu then tiling = LatentSum.tilingGPU else tiling = LatentSum.tilingLogic)
    (h : multiLatentAttentionSumExecution type rates tiling i = .ok r) :
    Found i .mlaSum type r := by
  obtain ⟨input, hinput, rfl⟩ := multiLatentAttentionSumExecution_ok h
  exact found_of_ite id hinput fun hne => .mlaSum hne (hrates _) htiles

theorem found_mlaGen {rates : ℕ → Rates}
    (hrates : ∀ precisionByte, i.config.Offers (rates precisionByte))
    (h : multiLatentAttentionGenExecution type rates i = .ok r) : Found i .mlaGen type r := by
  obtain ⟨input, kCache, vCache, hinput, hcaches, hvalue, rfl⟩ :=
    multiLatentAttentionGenExecution_ok h
  exact found_of_token id hinput fun hgen => .mlaGen hgen ⟨hcaches, hvalue⟩ (hrates _)

theorem found_absorbedMlaGen {rates : ℕ → Rates}
    (hrates : ∀ precisionByte, i.config.Offers (rates precisionByte))
    (h : absorbMLAGenExecution type rates i = .ok r) : Found i .absorbedMlaGen type r := by
  obtain ⟨input, hinput, rfl⟩ := absorbMLAGenExecution_ok h
  exact found_of_token id hinput fun hgen => .absorbedMlaGen hgen (hrates _)

theorem found_attentionSum (h : executorOf .attentionSum type i = .ok r) :
    Found i .attentionSum type r := by
  refine found_select ?_ ?_ ?_ h
  · intro r h
    obtain ⟨input, hinput, rfl⟩ := attentionSumExecutionGPU_ok h
    exact found_of_ite id hinput .attentionSumGPU
  · intro r h
    obtain ⟨input, hinput, rfl⟩ := withInput_ok h
    exact found_of_ite id hinput .attentionSumLogic
  · intro r h
    obtain ⟨input, hinput, rfl⟩ := withInput_ok h
    exact found_of_ite id hinput .attentionSumPIM

theorem found_attentionGen (h : executorOf .attentionGen type i = .ok r) :
    Found i .attentionGen type r := by
  refine found_select ?_ ?_ ?_ h
  · intro r h
    obtain ⟨input, key, value, hinput, hkey, hvalue, rfl⟩ := attentionGenExecution_ok h
    exact found_of_token id hinput fun hgen => .attentionGenGPU hgen hkey hvalue
  · intro r h
    obtain ⟨input, key, value, hinput, hkey, hvalue, rfl⟩ := attentionGenExecution_ok h
    exact found_of_token id hinput fun hgen => .attentionGenLogic hgen hkey hvalue rfl
  · intro r h
    obtain ⟨input, key, value, hinput, hkey, hvalue, rfl⟩ := attentionGenExecution_ok h
    exact found_of_token id hinput fun hgen => .attentionGenPIM hgen hkey hvalue
      (by constructor <;> exact fun _ => rfl)

theorem found_absorbedMlaSum (h : executorOf .absorbedMlaSum type i = .ok r) :
    Found i .absorbedMlaSum type r := by
  refine found_select ?_ ?_ ?_ h
  · intro r h
    obtain ⟨input, hinput, rfl⟩ := absorbMLASumExecutionGPU_ok h
    exact found_of_ite id hinput .absorbedSumGPU
  · intro r h
    dsimp only [absorbMLASumExecutionLogic] at h
    obtain ⟨input, hinput, rfl⟩ := absorbMLASumExecution_ok h
    exact found_of_ite id hinput fun hne => .absorbedSumLogic hne rfl
  · intro r h
    dsimp only [absorbMLASumExecutionPIM] at h
    obtain ⟨input, hinput, rfl⟩ := absorbMLASumExecution_ok h
    exact found_of_ite id hinput fun hne => .absorbedSumPIM hne rfl

theorem found_attentionMixed (h : executorOf .attentionMixed type i = .ok r) :
    Found i .attentionMixed type r := by
  refine found_select ?_ ?_ ?_ h
  · intro r h
    obtain ⟨input, flops, memorySize, hinput, rfl⟩ := mixedExecution_ok h
    exact .inr ⟨_, rfl, .attentionMixedGPU⟩
  · intro r h
    exact .inl ⟨(Except.ok.inj h).symm, rfl⟩
  · intro r h
    dsimp only [attentionMixedExecutionPIM] at h
    obtain ⟨input, flops, memorySize, hinput, rfl⟩ := mixedExecution_ok h
    exact .inr ⟨_, rfl, .attentionMixedPIM rfl (keepsWork_withOpb _ _)⟩

theorem found_mlaMixed (h : executorOf .mlaMixed type i = .ok r) : Found i .mlaMixed type r := by
  refine found_select ?_ ?_ ?_ h
  · intro r h
    obtain ⟨input, flops, memorySize, hinput, rfl⟩ := mixedExecution_ok h
    exact .inr ⟨_, rfl, .mlaMixed (by decide) .gpu .refl⟩
  · intro r h
    exact .inl ⟨(Except.ok.inj h).symm, rfl⟩
  · intro r h
    dsimp only [multiLatentAttentionMixedExecutionPIM] at h
    obtain ⟨input, flops, memorySize, hinput, rfl⟩ := mixedExecution_ok h
    exact .inr ⟨_, rfl, .mlaMixed (by decide) .mixed (keepsWork_withOpb _ _)⟩

theorem found_linearLayer (h : executorOf .linear type i = .ok r) : Found i .linear type r := by
  refine found_select (fun _ => found_linearGPU) ?_ ?_ h
  · intro r h
    unfold linearExecutionLogic at h
    exact found_linear id (fun hops => .linear hops (.logic _) (.inr ⟨_, rfl⟩) .refl) h
  · intro r h
    unfold linearExecutionPIM at h
    exact found_linear id (fun hops => .linear hops (.pim _) (.inr ⟨_, rfl⟩) .refl) h

theorem found_batchedLayer (h : executorOf .batchedLinear type i = .ok r) :
    Found i .batchedLinear type r := by
  refine found_select (fun _ => found_batchedLinearGPU) ?_ ?_ h
  · intro r h
    unfold batchedLinearExecutionLogic linearExecutionLogic at h
    exact found_linear id
      (fun hops => .batchedLinear (by decide) hops (.logic _) (.inr ⟨_, rfl⟩) .refl) h
  · intro r h
    unfold batchedLinearExecutionPIM linearExecutionPIM at h
    exact found_linear id
      (fun hops => .batchedLinear (by decide) hops (.pim _) (.inr ⟨_, rfl⟩) .refl) h

theorem found_activationLayer (h : executorOf .activation type i = .ok r) :
    Found i .activation type r := by
  refine found_select (fun _ => found_activationGPU) ?_ ?_ h
  · intro r h
    unfold activationExecutionLogic at h
    exact found_activation (fun hops => .activationLogic hops (.logic _)) h
  · intro r h
    unfold activationExecutionPIM at h
    exact found_activation (fun hops => .activation (by decide) hops (.pim _) .refl) h

theorem found_mlaSumLayer (h : executorOf .mlaSum type i = .ok r) : Found i .mlaSum type r := by
  refine found_select ?_ ?_ ?_ h
  · intro r h
    unfold multiLatentAttentionSumExecutionGPU at h
    exact found_mlaSum (fun _ => .gpu) rfl h
  · intro r h
    unfold multiLatentAttentionSumExecutionLogic at h
    exact found_mlaSum .latent rfl h
  · intro r h
    unfold multiLatentAttentionSumExecutionPIM at h
    exact found_mlaSum .latent rfl h

theorem found_mlaGenLayer (h : executorOf .mlaGen type i = .ok r) : Found i .mlaGen type r := by
  refine found_select ?_ ?_ ?_ h
  · intro r h
    unfold multiLatentAttentionGenExecutionGPU at h
    exact found_mlaGen (fun _ => .gpu) h
  · intro r h
    unfold multiLatentAttentionGenExecutionLogic at h
    exact found_mlaGen .logic h
  · intro r h
    unfold multiLatentAttentionGenExecutionPIM at h
    exact found_mlaGen .pim h

theorem found_absorbedMlaGenLayer (h : executorOf .absorbedMlaGen type i = .ok r) :
    Found i .absorbedMlaGen type r := by
  refine found_select ?_ ?_ ?_ h
  · intro r h
    unfold absorbMLAGenExecutionGPU at h
    exact found_absorbedMlaGen (fun _ => .gpu) h
  · intro r h
    unfold absorbMLAGenExecutionLogic at h
    exact found_absorbedMlaGen .logic h
  · intro r h
    unfold absorbMLAGenExecutionPIM at h
    exact found_absorbedMlaGen .pim h

/-- All that `executePType` can come to. -/
theorem executorOf_found (h : executorOf layerType type i = .ok r) : Found i layerType type r := by
  cases layerType with
  | linear => exact found_linearLayer h
  | batchedLinear => exact found_batchedLayer h
  | activation => exact found_activationLayer h
  | attentionSum => exact found_attentionSum h
  | attentionGen => exact found_attentionGen h
  | attentionMixed => exact found_attentionMixed h
  | mlaSum => exact found_mlaSumLayer h
  | mlaGen => exact found_mlaGenLayer h
  | mlaMixed => exact found_mlaMixed h
  | absorbedMlaSum => exact found_absorbedMlaSum h
  | absorbedMlaGen => exact found_absorbedMlaGenLayer h

end Found

/-! ### What all scripts have in common -/

/-- A stage that only adds to the fields that are computed from the stages, and takes its memory
time from the transfers. -/
structure StagePlain (stage : Stage) : Prop where
  record : ∀ total, KeepsWork (stage.record total)
  fromStatus : stage.fromStatus = false

theorem StagePlain.bare {stage : Stage} (hrecord : stage.record = fun _ e => e)
    (hfrom : stage.fromStatus = false) : StagePlain stage :=
  ⟨fun _ => hrecord ▸ .refl, hfrom⟩

theorem plain_of_stages {script : Script} (h : ∀ stage ∈ script.stages, StagePlain stage)
    (hreport : KeepsWork script.report) : script.Plain :=
  ⟨fun stage hstage => (h stage hstage).record, hreport, .inr fun stage hstage =>
    (h stage hstage).fromStatus⟩

theorem plain_single {rates : Rates} {layerType : LayerType} {stage : Stage} {restored : List ℕ}
    {report : ExecStatus → ExecStatus} (hrecord : stage.record = fun _ e => e)
    (hreport : KeepsWork report) :
    Script.Plain { single rates layerType stage with restored := restored, report := report } where
  record := by
    intro stage' hstage' total
    obtain rfl := List.mem_singleton.mp hstage'
    show KeepsWork (stage.record total)
    rw [hrecord]
    exact .refl
  report := hreport
  fromStatus := .inl rfl

theorem stagePlain_gpuStage {info : LayerInfo} {precisionByte flops memorySize len cache : ℕ}
    {rates : Rates} {record : ℚ → ExecStatus → ExecStatus}
    (hrecord : ∀ total, KeepsWork (record total)) : StagePlain
      (AttentionGen.gpuStage info precisionByte rates flops memorySize len cache record) :=
  ⟨hrecord, rfl⟩

theorem stagePlain_pimStage {info : LayerInfo} {precisionByte : ℕ} {c : ExecutorConfig}
    {unit : AttentionGen.Unit} {seqs : List Sequence} {cache : ℕ}
    {record : ℚ → ExecStatus → ExecStatus} {addBanks : ℚ → ℚ → ExecStatus → ExecStatus}
    (hrecord : ∀ total, KeepsWork (record total)) (hbanks : ∀ rb pe, KeepsWork (addBanks rb pe)) :
    StagePlain (AttentionGen.pimStage info precisionByte c unit seqs cache record addBanks) := by
  cases unit with
  | banks gemv =>
    refine ⟨fun total => ?_, rfl⟩
    have hadd := hbanks (AttentionGen.bankRb info gemv seqs) (AttentionGen.bankPe info gemv seqs)
    constructor
    · exact fun e => (hadd.totalDuration _).trans ((hrecord total).totalDuration e)
    · exact fun e => (hadd.flops _).trans ((hrecord total).flops e)
    · exact fun e => (hadd.memorySize _).trans ((hrecord total).memorySize e)
    · exact fun e => (hadd.computeUtil _).trans ((hrecord total).computeUtil e)
    · exact fun e => (hadd.memoryUtil _).trans ((hrecord total).memoryUtil e)
  | host => exact ⟨hrecord, rfl⟩
  | roofline opb => exact ⟨fun _ => .refl, rfl⟩

section Scripted
variable {i : AttentionInput} {layerType : LayerType} {type : ProcessorType} {script : Script}

/-- The layers that are computed in one stage. -/
def Single (layerType : LayerType) : Prop :=
  layerType ∈ [.linear, .batchedLinear, .activation]

instance (layerType : LayerType) : Decidable (Single layerType) :=
  inferInstanceAs (Decidable (_ ∈ _))

theorem Scripted.stagePlain (h : Scripted i layerType type script) (hlayer : ¬ Single layerType) :
    ∀ stage ∈ script.stages, StagePlain stage := by
  cases h with
  | linear => exact absurd (by decide) hlayer
  | batchedLinear => exact absurd (by decide) hlayer
  | batchedLinearGPU => exact absurd (by decide) hlayer
  | activation => exact absurd (by decide) hlayer
  | activationLogic => exact absurd (by decide) hlayer
  | attentionSumGPU =>
    refine forall_mem_byStage.mpr ?_
    simp only [List.forall_mem_cons]
    exact ⟨fun _ _ => .bare rfl rfl, fun _ _ => .bare rfl rfl, fun _ _ => .bare rfl rfl, by simp⟩
  | attentionSumLogic =>
    refine forall_mem_byStage.mpr ?_
    simp only [List.forall_mem_cons]
    exact ⟨fun _ _ => .bare rfl rfl, fun _ _ => .bare rfl rfl, fun _ _ => .bare rfl rfl, by simp⟩
  | attentionSumPIM =>
    refine forall_mem_byStage.mpr ?_
    simp only [List.forall_mem_cons]
    exact ⟨fun _ _ => .bare rfl rfl, fun _ _ => .bare rfl rfl, fun _ _ => .bare rfl rfl, by simp⟩
  | mlaSum =>
    exact LatentSum.forall_mem_stages (fun _ _ _ => .bare rfl rfl)
      fun _ _ _ => ⟨.bare rfl rfl, .bare rfl rfl, .bare rfl rfl⟩
  | absorbedSumGPU =>
    refine forall_mem_byStage.mpr ?_
    simp only [List.forall_mem_cons]
    exact ⟨fun _ _ => .bare rfl rfl, fun _ _ => .bare rfl rfl, fun _ _ => .bare rfl rfl,
      fun _ _ => .bare rfl rfl, by simp⟩
  | absorbedSumLogic =>
    refine forall_mem_byStage.mpr ?_
    simp only [List.forall_mem_cons]
    exact ⟨fun _ _ => .bare rfl rfl, fun _ _ => .bare rfl rfl, fun _ _ => .bare rfl rfl,
      fun _ _ => .bare rfl rfl, by simp⟩
  | absorbedSumPIM =>
    refine forall_mem_byStage.mpr ?_
    simp only [List.forall_mem_cons]
    exact ⟨fun _ _ => .bare rfl rfl, fun _ _ => .bare rfl rfl, fun _ _ => .bare rfl rfl,
      fun _ _ => .bare rfl rfl, by simp⟩
  | attentionGenGPU =>
    simp only [attentionGenScript, List.forall_mem_cons]
    refine ⟨stagePlain_gpuStage fun _ => ?_, stagePlain_gpuStage fun _ => ?_, by simp⟩
    · constructor <;> exact fun _ => rfl
    · constructor <;> exact fun _ => rfl
  | attentionGenLogic =>
    simp only [attentionGenScript, List.forall_mem_cons]
    exact ⟨.bare rfl rfl, .bare rfl rfl, by simp⟩
  | attentionGenPIM =>
    simp only [attentionGenScript, List.forall_mem_cons]
    refine ⟨stagePlain_pimStage (fun _ => ?_) fun _ _ => ?_, ⟨fun _ => ?_, rfl⟩,
      stagePlain_pimStage (fun _ => ?_) fun _ _ => ?_, by simp⟩
    all_goals constructor <;> exact fun _ => rfl
  | mlaGen =>
    exact LatentGen.forall_mem_stages
      (fun _ => ⟨fun _ => by constructor <;> exact fun _ => rfl, rfl⟩)
      fun _ => ⟨.bare rfl rfl, fun _ _ => .bare rfl rfl, .bare rfl rfl⟩
  | absorbedMlaGen =>
    exact AbsorbGen.forall_mem_stages
      (fun _ => ⟨fun _ => by constructor <;> exact fun _ => rfl, rfl⟩)
      fun _ => ⟨.bare rfl rfl, .bare rfl rfl, fun _ _ => .bare rfl rfl, .bare rfl rfl⟩
  | attentionMixedGPU =>
    refine forall_mem_byStage.mpr ?_
    simp only [List.forall_mem_cons]
    exact ⟨fun _ _ => .bare rfl rfl, fun _ _ => .bare rfl rfl, by simp⟩
  | attentionMixedPIM =>
    refine forall_mem_byStage.mpr ?_
    simp only [List.forall_mem_cons]
    refine ⟨fun _ _ => ?_, fun _ _ => ?_, by simp⟩
    · unfold Mixed.scoringPIM
      split_ifs <;> exact .bare rfl rfl
    · unfold Mixed.contextPIM
      split_ifs <;> exact .bare rfl rfl
  | mlaMixed =>
    refine forall_mem_byStage.mpr ?_
    simp only [List.forall_mem_cons]
    exact ⟨fun _ _ => .bare rfl rfl, fun _ _ => .bare rfl rfl, by simp⟩

theorem Scripted.plain (h : Scripted i layerType type script) : script.Plain := by
  have hstages := h.stagePlain
  cases h with
  | linear _ _ _ keeps => exact plain_single rfl keeps
  | batchedLinear _ _ _ _ keeps => exact plain_single rfl keeps
  | batchedLinearGPU => exact plain_single rfl (keepsWork_withOpb _ _)
  | activation _ _ _ keeps => exact plain_single rfl keeps
  | activationLogic => exact plain_single rfl .refl
  | attentionGenPIM _ _ _ keeps => exact plain_of_stages (hstages (by decide)) keeps
  | attentionMixedPIM _ keeps => exact plain_of_stages (hstages (by decide)) keeps
  | mlaMixed _ _ keeps => exact plain_of_stages (hstages (by decide)) keeps
  | _ => exact plain_of_stages (hstages (by decide)) .refl

/-- Only the executors of mixed batches keep their work to themselves. -/
theorem Scripted.reported (h : Scripted i layerType type script)
    (hmixed : layerType ≠ .attentionMixed ∧ layerType ≠ .mlaMixed) : script.reported = true := by
  cases h with
  | attentionMixedGPU => exact absurd rfl hmixed.1
  | attentionMixedPIM => exact absurd rfl hmixed.1
  | mlaMixed => exact absurd rfl hmixed.2
  | _ => rfl

theorem Scripted.not_spared (h : Scripted i layerType type script) : ¬ Spared i type layerType := by
  cases h with
  | linear operands => exact fun hempty => operands.input.elim fun _ h => h.1.not_emptyAt hempty
  | batchedLinear _ operands =>
    exact fun hempty => operands.input.elim fun _ h => h.1.not_emptyAt hempty
  | batchedLinearGPU operands =>
    exact fun hempty => operands.input.elim fun _ h => h.1.not_emptyAt hempty
  | activation _ operands => exact fun hempty => operands.input.elim fun _ h => h.not_emptyAt hempty
  | activationLogic operands =>
    exact fun hempty => operands.input.elim fun _ h => h.not_emptyAt hempty
  | attentionSumGPU operands => exact operands.not_emptyAt
  | attentionSumLogic operands => exact operands.not_emptyAt
  | attentionSumPIM operands => exact operands.not_emptyAt
  | mlaSum operands => exact operands.not_emptyAt
  | absorbedSumGPU operands => exact operands.not_emptyAt
  | absorbedSumLogic operands => exact operands.not_emptyAt
  | absorbedSumPIM operands => exact operands.not_emptyAt
  | attentionGenGPU operands => exact operands.token
  | attentionGenLogic operands => exact operands.token
  | attentionGenPIM operands => exact operands.token
  | mlaGen operands => exact operands.token
  | absorbedMlaGen operands => exact operands.token
  | attentionMixedGPU => exact (nomatch ·)
  | attentionMixedPIM => exact (nomatch ·)
  | mlaMixed notLogic => exact notLogic

end Scripted

section Execute
variable {d : DeviceMemory} {useRamulator : Bool} {layerType : LayerType} {type : ProcessorType}
  {i : AttentionInput} {s s' : IssueState} {e : ExecStatus} {ops : Operands}

/-- `executePType` returns the status as it is constructed, or the one of a script. -/
theorem executePType_found
    (h : executePType d useRamulator layerType type i s = .ok (e, ops, s')) :
    Spared i type layerType ∧ e = { processorType := type } ∧ ops = i.tensors ∧ s' = s ∨
      ∃ script execStatus, Scripted i layerType type script ∧
        d.execute (pimHWConfig i.config type) useRamulator (some script) i.tensors s
          = .ok (execStatus, ops, s') ∧ e = { execStatus with processorType := type } := by
  obtain ⟨r, execStatus, hr, hexec, he⟩ := executePType_ok h
  rcases executorOf_found hr with ⟨rfl, hspared⟩ | ⟨script, rfl, hscript⟩
  · obtain ⟨hstatus, hrest⟩ := Prod.mk.inj (Except.ok.inj hexec)
    obtain ⟨hops, hs⟩ := Prod.mk.inj hrest
    exact .inl ⟨hspared, by rw [he, ← hstatus], hops.symm, hs.symm⟩
  · exact .inr ⟨script, execStatus, hscript, hexec, he⟩

/-- The work that is reported is the one of the script. -/
theorem executePType_work (hmixed : layerType ≠ .attentionMixed ∧ layerType ≠ .mlaMixed)
    (h : executePType d useRamulator layerType type i s = .ok (e, ops, s')) :
    Spared i type layerType ∧ e.flops = 0 ∧ e.memorySize = 0 ∨
      ∃ script, Scripted i layerType type script ∧ e.flops = script.flops ∧
        e.memorySize = script.memorySize := by
  rcases executePType_found h with ⟨hspared, rfl, -, -⟩ | ⟨script, execStatus, hscript, hexec, rfl⟩
  · exact .inl ⟨hspared, rfl, rfl⟩
  · obtain ⟨_, _, answerss, -, -, -, rfl, -, -⟩ := DeviceMemory.execute_ok hexec
    exact .inr ⟨script, hscript, Script.status_flops hscript.plain (hscript.reported hmixed)⟩

end Execute
end Executor
end LlmSystem
