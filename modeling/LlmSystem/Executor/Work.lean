import LlmSystem.Executor.Scripted
import Mathlib.Algebra.BigOperators.Ring.List

/-! The flops of a layer on the three processors. -/
namespace LlmSystem
namespace Executor

/-! ### Tiles -/

/-- The rows that whole blocks take. -/
def roundUp (m block : ℕ) : ℕ := LatentSum.numTile m block * block

/-- The blocks of the GPU, of as many keys as rows fit in shared memory, hold as many scores as the
blocks of the other processors, of one key for each dimension. -/
def SameTiles (k rows : ℕ) (seqs : List Sequence) : Prop :=
  k ≤ rows ∨ (seqs.map fun s => roundUp s.processed rows * roundUp s.processed rows).sum
    = (seqs.map fun s => roundUp s.processed rows * roundUp s.processed k).sum

namespace LatentSum

theorem flashFlops_eq (info : LayerInfo) (t : Tiling) (m : ℕ) :
    flashFlops info t m = roundUp m t.blockR * roundUp m t.blockC
      * (2 * (keyDim info + info.headDim) * info.numHeads) := by
  unfold flashFlops roundUp
  ring

theorem sum_flashFlops (info : LayerInfo) (t : Tiling) (seqs : List Sequence) :
    (seqs.map fun s => flashFlops info t s.processed).sum
      = (seqs.map fun s => roundUp s.processed t.blockR * roundUp s.processed t.blockC).sum
        * (2 * (keyDim info + info.headDim) * info.numHeads) := by
  simp only [flashFlops_eq, List.sum_map_mul_right]

theorem sum_flashFlops_iff (info : LayerInfo) (precisionByte : ℕ) (seqs : List Sequence) :
    (seqs.map fun s =>
        flashFlops info (tilingGPU (keyDim info) precisionByte) s.processed).sum
      = (seqs.map fun s =>
        flashFlops info (tilingLogic (keyDim info) precisionByte) s.processed).sum
    ↔ SameTiles (keyDim info) (blockRows (keyDim info) precisionByte) seqs := by
  have hdim : 0 < 2 * (keyDim info + info.headDim) * info.numHeads := by
    have hhead := info.headDim_pos
    have hheads := info.numHeads_pos
    positivity
  rw [sum_flashFlops, sum_flashFlops, Nat.mul_left_inj hdim.ne']
  unfold SameTiles tilingGPU tilingLogic
  dsimp only
  generalize blockRows (keyDim info) precisionByte = rows
  rcases le_or_gt (keyDim info) rows with hle | hlt
  · rw [min_eq_right hle]
    simp only [hle, true_or, iff_true]
    congr 1
    exact List.map_congr_left fun s _ => mul_comm _ _
  · rw [min_eq_left hlt.le]
    simp only [hlt.not_ge, false_or]

end LatentSum

/-! ### Scripts -/

section Scripts
variable {rates rates' : Rates} {info : LayerInfo} {p : ℕ} {type type' : ProcessorType}
  {seqs : List Sequence}

theorem AttentionSum.flops_gpuScript :
    (gpuScript rates info p seqs).flops = (logicScript rates' info p seqs).flops := by
  unfold Script.flops gpuScript logicScript
  rw [sum_byStage, sum_byStage]
  rfl

theorem AttentionSum.flops_logicScript :
    (logicScript rates info p seqs).flops = (pimScript rates' info p seqs).flops := by
  unfold Script.flops logicScript pimScript
  rw [sum_byStage, sum_byStage]
  rfl

theorem LatentSum.flops_script (tiling : Tiling) :
    (script type rates info p tiling seqs).flops
      = if info.useFlashAttention then (seqs.map fun s => flashFlops info tiling s.processed).sum
        else (seqs.map fun s => matmulFlops s.processed (keyDim info) s.attended info.numHeads
          + softmaxFlops s.processed s.attended info.numHeads
          + matmulFlops s.processed s.attended info.headDim info.numHeads).sum := by
  unfold Script.flops script
  dsimp only
  split_ifs
  · rw [sum_byStage]
    exact List.sum_singleton
  · rw [sum_byStage]
    simp only [List.map_cons, List.map_nil, List.sum_cons, List.sum_nil, List.sum_map_add]
    ring!

theorem LatentGen.flops_script {kCache vCache kCache' vCache' : ℕ} :
    (script type rates info p kCache vCache seqs).flops
      = (script type' rates' info p kCache' vCache' seqs).flops := by
  unfold Script.flops script
  dsimp only
  split_ifs
  · rfl
  · simp only [List.map_cons, List.map_append, List.map_map, List.map_nil]
    rfl

theorem AbsorbGen.flops_script :
    (script type rates info p seqs).flops = (script type' rates' info p seqs).flops := by
  unfold Script.flops script
  dsimp only
  split_ifs
  · rfl
  · simp only [List.map_cons, List.map_append, List.map_map, List.map_nil]
    rfl

theorem AttentionGen.pimStage_flops {c : ExecutorConfig} {unit : Unit} {cache : ℕ}
    {record : ℚ → ExecStatus → ExecStatus} {addBanks : ℚ → ℚ → ExecStatus → ExecStatus} :
    (pimStage info p c unit seqs cache record addBanks).flops = flops info seqs := by
  cases unit <;> rfl

theorem AttentionGen.flops_pim {c : ExecutorConfig} {report : ExecStatus → ExecStatus} :
    (attentionGenScript rates [scoringPIM info p c seqs, softmaxPIM info p c seqs,
      contextPIM info p c seqs] report).flops = flops info seqs + flops info seqs := by
  have hscoring : (scoringPIM info p c seqs).flops = flops info seqs := pimStage_flops
  have hcontext : (contextPIM info p c seqs).flops = flops info seqs := pimStage_flops
  simp [Script.flops, attentionGenScript, hscoring, hcontext, softmaxPIM]

theorem AttentionGen.pimStage_memorySize {c : ExecutorConfig} {unit : Unit} {cache : ℕ}
    {record : ℚ → ExecStatus → ExecStatus} {addBanks : ℚ → ℚ → ExecStatus → ExecStatus} :
    (pimStage info p c unit seqs cache record addBanks).memorySize = cacheSize info p seqs := by
  cases unit <;> rfl

theorem AttentionGen.memorySize_pim {c : ExecutorConfig} {report : ExecStatus → ExecStatus} :
    (attentionGenScript rates [scoringPIM info p c seqs, softmaxPIM info p c seqs,
      contextPIM info p c seqs] report).memorySize
      = cacheSize info p seqs + cacheSize info p seqs := by
  have hscoring : (scoringPIM info p c seqs).memorySize = cacheSize info p seqs :=
    pimStage_memorySize
  have hcontext : (contextPIM info p c seqs).memorySize = cacheSize info p seqs :=
    pimStage_memorySize
  simp [Script.memorySize, attentionGenScript, hscoring, hcontext, softmaxPIM]

end Scripts

/-! ### Processors -/

/-- The layers whose executors count flops. -/
def Counted (layerType : LayerType) : Prop :=
  layerType ∉ [.activation, .attentionMixed, .mlaMixed]

instance (layerType : LayerType) : Decidable (Counted layerType) :=
  inferInstanceAs (Decidable (_ ∉ _))

/-- The operands that a batched linear layer is created with. -/
def BatchedShapes (ops : Operands) : Prop :=
  ∃ numHeads m k n, ops.shapes[0]? = some [numHeads, m, k] ∧ ops.shapes[1]? = some [numHeads, k, n]

/-- Where the processors agree about the flops. -/
def SameWork (i : AttentionInput) : LayerType → Prop
  | .batchedLinear =>
      EmptyAt i.tensors 0 ∨ ∃ numHeads k, i.tensors.shapes[1]? = some [numHeads, k, 1]
  | .mlaSum => i.layerInfo.useFlashAttention = false ∨ EmptyAt i.tensors 0 ∨
      ∃ input, i.tensors[0]? = some input ∧
        SameTiles (LatentSum.keyDim i.layerInfo)
          (LatentSum.blockRows (LatentSum.keyDim i.layerInfo) input.precisionByte)
          i.sequencesMetadata.getSum
  | _ => True

section Agree
variable {i : AttentionInput} {layerType : LayerType} {gpu logic pim : Script}

theorem NonemptyAt.unique {ops : Operands} {tensor : ℕ} {t t' : Tensor}
    (h : NonemptyAt ops tensor t) (h' : NonemptyAt ops tensor t') : t = t' :=
  Option.some.inj (h.1.symm.trans h'.1)

theorem GenOperands.unique {t t' : Tensor} (h : GenOperands i t) (h' : GenOperands i t') : t = t' :=
  Option.some.inj (h.input.symm.trans h'.input)

theorem LinearOperands.unique {ops : Operands} {weight weight' : Tensor} {m k n m' k' n' : ℕ}
    (h : LinearOperands ops weight m k n) (h' : LinearOperands ops weight' m' k' n') :
    weight = weight' ∧ m = m' ∧ k = k' ∧ n = n' := by
  obtain ⟨⟨t, ht, hm, hk⟩, ⟨hweight, hn⟩, -⟩ := h
  obtain ⟨⟨t', ht', hm', hk'⟩, ⟨hweight', hn'⟩, -⟩ := h'
  obtain rfl := ht.unique ht'
  obtain rfl := Option.some.inj (hweight.symm.trans hweight')
  exact ⟨rfl, Option.some.inj (hm.symm.trans hm'), Option.some.inj (hk.symm.trans hk'),
    Option.some.inj (hn.symm.trans hn')⟩

theorem flops_linearScript {rates rates' : Rates} {t t' : Transfer}
    {report report' : ExecStatus → ExecStatus} {p p' m k n : ℕ} :
    (linearScript rates t report p m k n).flops = (linearScript rates' t' report' p' m k n).flops :=
  rfl

/-- The logic die and the PIM units count alike. -/
theorem flops_logic_eq (hlayer : Counted layerType) (hlogic : Scripted i layerType .logic logic)
    (hpim : Scripted i layerType .pim pim) : logic.flops = pim.flops := by
  cases hlogic with
  | linear operands =>
    cases hpim with
    | linear operands' =>
      obtain ⟨-, rfl, rfl, rfl⟩ := operands.unique operands'
      exact flops_linearScript
  | batchedLinear _ operands =>
    cases hpim with
    | batchedLinear _ operands' =>
      obtain ⟨-, rfl, rfl, rfl⟩ := operands.unique operands'
      exact flops_linearScript
  | activation => exact absurd (by decide) hlayer
  | activationLogic => exact absurd (by decide) hlayer
  | attentionSumLogic operands =>
    cases hpim with
    | attentionSumPIM operands' =>
      obtain rfl := operands.unique operands'
      exact AttentionSum.flops_logicScript
  | mlaSum operands _ tiles =>
    cases hpim with
    | mlaSum operands' _ tiles' =>
      obtain rfl := operands.unique operands'
      obtain rfl := (show _ = _ from tiles).trans (show _ = _ from tiles').symm
      rw [LatentSum.flops_script, LatentSum.flops_script]
  | absorbedSumLogic operands =>
    cases hpim with
    | absorbedSumPIM operands' =>
      obtain rfl := operands.unique operands'
      unfold Script.flops absorbSumScript
      rw [sum_byStage, sum_byStage]
      rfl
  | attentionGenLogic operands =>
    cases hpim with
    | attentionGenPIM operands' =>
      obtain rfl := operands.unique operands'
      rw [AttentionGen.flops_pim]
      rfl
  | mlaGen operands =>
    cases hpim with
    | mlaGen operands' =>
      obtain rfl := operands.unique operands'
      exact LatentGen.flops_script
  | absorbedMlaGen operands =>
    cases hpim with
    | absorbedMlaGen operands' =>
      obtain rfl := operands.unique operands'
      exact AbsorbGen.flops_script
  | mlaMixed => exact absurd (by decide) hlayer

theorem batched_flops_iff (hshapes : BatchedShapes i.tensors)
    (hgpu : Scripted i .batchedLinear .gpu gpu) (hlogic : Scripted i .batchedLinear .logic logic) :
    gpu.flops = logic.flops ↔ ∃ numHeads k, i.tensors.shapes[1]? = some [numHeads, k, 1] := by
  cases hgpu with
  | batchedLinear notGPU => exact absurd rfl notGPU
  | @batchedLinearGPU weight numHeads m k n operands =>
    cases hlogic with
    | @batchedLinear _ rates transfer report weight' m' k' n' _ operands' =>
      obtain ⟨⟨input, hinput, hin⟩, ⟨hweight, a, b, hw⟩, -⟩ := operands
      obtain ⟨⟨input', hinput', hm', hk'⟩, ⟨hweight', hn'⟩, -⟩ := operands'
      obtain rfl := hinput.unique hinput'
      obtain rfl := Option.some.inj (hweight.symm.trans hweight')
      rw [hin] at hm' hk'
      rw [hw] at hn'
      obtain rfl : numHeads = m' := Option.some.inj hm'
      obtain rfl : m = k' := Option.some.inj hk'
      obtain rfl : b = n' := Option.some.inj hn'
      have hne : numHeads * (m * k) ≠ 0 := by
        intro hzero
        exact hinput.2 (Tensor.getSize_eq_zero.mpr (by rw [hin]; simpa using hzero))
      obtain ⟨h, m₀, k₀, n₀, hin₀, hw₀⟩ := hshapes
      have hsecond : i.tensors.shapes[1]? = some [a, b, n] := by
        simp [Operands.shapes, hweight, hw]
      have hfirst : i.tensors.shapes[0]? = some [numHeads, m, k] := by
        simp [Operands.shapes, hinput.1, hin]
      have hbk : b = k := by
        have h₀ := Option.some.inj (hfirst.symm.trans hin₀)
        have h₁ := Option.some.inj (hsecond.symm.trans hw₀)
        simp only [List.cons.injEq] at h₀ h₁
        exact h₁.2.1.trans h₀.2.2.1.symm
      rw [hsecond, hbk]
      have hflops : (batchedScript i.config.gpuRates i.layerInfo.duplicatedInput
          weight.precisionByte numHeads m k n).flops = 2 * (numHeads * (m * k)) * n := by
        show 2 * m * k * n * numHeads + 0 = _
        ring
      have hflops' : (linearScript rates transfer report weight.precisionByte numHeads m k).flops
          = 2 * (numHeads * (m * k)) * 1 := by
        show 2 * numHeads * m * k + 0 = _
        ring
      rw [hflops, hflops', Nat.mul_right_inj (by omega)]
      constructor
      · rintro rfl
        exact ⟨a, k, rfl⟩
      · rintro ⟨h', k', heq⟩
        simp only [Option.some.injEq, List.cons.injEq] at heq
        exact heq.2.2.1

theorem flops_gpu_iff (hlayer : Counted layerType)
    (hshapes : layerType = .batchedLinear → BatchedShapes i.tensors)
    (hgpu : Scripted i layerType .gpu gpu) (hlogic : Scripted i layerType .logic logic) :
    gpu.flops = logic.flops ↔ SameWork i layerType := by
  have hempty := hgpu.not_spared
  cases layerType with
  | linear =>
    refine iff_of_true ?_ trivial
    cases hgpu with
    | linear operands =>
      cases hlogic with
      | linear operands' =>
        obtain ⟨-, rfl, rfl, rfl⟩ := operands.unique operands'
        exact flops_linearScript
  | batchedLinear =>
    rw [batched_flops_iff (hshapes rfl) hgpu hlogic]
    exact (or_iff_right hempty).symm
  | attentionSum =>
    refine iff_of_true ?_ trivial
    cases hgpu with
    | attentionSumGPU operands =>
      cases hlogic with
      | attentionSumLogic operands' =>
        obtain rfl := operands.unique operands'
        exact AttentionSum.flops_gpuScript
  | attentionGen =>
    refine iff_of_true ?_ trivial
    cases hgpu with
    | attentionGenGPU operands =>
      cases hlogic with
      | attentionGenLogic operands' => rfl
  | mlaSum =>
    cases hgpu with
    | mlaSum operands _ tiles =>
      cases hlogic with
      | mlaSum operands' _ tiles' =>
        obtain rfl := operands.unique operands'
        obtain rfl : _ = LatentSum.tilingGPU := tiles
        obtain rfl : _ = LatentSum.tilingLogic := tiles'
        rw [LatentSum.flops_script, LatentSum.flops_script]
        dsimp only [SameWork]
        rw [or_iff_right (show ¬ EmptyAt i.tensors 0 from hempty)]
        split_ifs with hflash
        · rw [LatentSum.sum_flashFlops_iff, or_iff_right (by simp [hflash])]
          exact ⟨fun h => ⟨_, operands.1, h⟩,
            fun ⟨input', hinput', h⟩ => Option.some.inj (hinput'.symm.trans operands.1) ▸ h⟩
        · exact iff_of_true rfl (.inl (by simpa using hflash))
  | absorbedMlaSum =>
    refine iff_of_true ?_ trivial
    cases hgpu with
    | absorbedSumGPU operands =>
      cases hlogic with
      | absorbedSumLogic operands' =>
        obtain rfl := operands.unique operands'
        unfold Script.flops absorbSumScript
        dsimp only
        rw [sum_byStage, sum_byStage]
        rfl
  | mlaGen =>
    refine iff_of_true ?_ trivial
    cases hgpu with
    | mlaGen operands =>
      cases hlogic with
      | mlaGen operands' =>
        obtain rfl := operands.unique operands'
        exact LatentGen.flops_script
  | absorbedMlaGen =>
    refine iff_of_true ?_ trivial
    cases hgpu with
    | absorbedMlaGen operands =>
      cases hlogic with
      | absorbedMlaGen operands' =>
        obtain rfl := operands.unique operands'
        exact AbsorbGen.flops_script
  | activation => exact absurd (by decide) hlayer
  | attentionMixed => exact absurd (by decide) hlayer
  | mlaMixed => exact absurd (by decide) hlayer

theorem sameWork_of_spared {type : ProcessorType} (hlayer : Counted layerType)
    (h : Spared i type layerType) : SameWork i layerType := by
  cases layerType with
  | batchedLinear => exact .inl h
  | mlaSum => exact .inr (.inl h)
  | activation => exact absurd (by decide) hlayer
  | attentionMixed => exact absurd (by decide) hlayer
  | mlaMixed => exact absurd (by decide) hlayer
  | _ => trivial

theorem spared_of_spared {type type' : ProcessorType} (hlayer : Counted layerType)
    (h : Spared i type layerType) : Spared i type' layerType := by
  cases layerType with
  | attentionMixed => exact absurd (by decide) hlayer
  | mlaMixed => exact absurd (by decide) hlayer
  | _ => exact h

end Agree

/-- Two layers are charged with different work on different processors: batched matrices with more
than one column, and blocks of scores that are not as many. -/
theorem flops_agree_iff {layerType : LayerType} {i : AttentionInput} (hlayer : Counted layerType)
    (hshapes : layerType = .batchedLinear → BatchedShapes i.tensors)
    {d d' d'' : DeviceMemory} {useRamulator : Bool} {s s' s'' t t' t'' : IssueState}
    {gpu logic pim : ExecStatus} {ops ops' ops'' : Operands}
    (hgpu : executePType d useRamulator layerType .gpu i s = .ok (gpu, ops, t))
    (hlogic : executePType d' useRamulator layerType .logic i s' = .ok (logic, ops', t'))
    (hpim : executePType d'' useRamulator layerType .pim i s'' = .ok (pim, ops'', t'')) :
    (gpu.flops = logic.flops ∧ logic.flops = pim.flops) ↔ SameWork i layerType := by
  have hmixed : layerType ≠ .attentionMixed ∧ layerType ≠ .mlaMixed := by
    constructor <;> rintro rfl <;> exact hlayer (by decide)
  rcases executePType_work hmixed hgpu with ⟨hspared, hzero, -⟩ | ⟨script, hscript, hflops, -⟩
  · rcases executePType_work hmixed hlogic with ⟨-, hzero', -⟩ | ⟨script', hscript', -⟩
    · rcases executePType_work hmixed hpim with ⟨-, hzero'', -⟩ | ⟨script'', hscript'', -⟩
      · rw [hzero, hzero', hzero'']
        exact iff_of_true ⟨rfl, rfl⟩ (sameWork_of_spared hlayer hspared)
      · exact absurd (spared_of_spared hlayer hspared) hscript''.not_spared
    · exact absurd (spared_of_spared hlayer hspared) hscript'.not_spared
  · rcases executePType_work hmixed hlogic with ⟨hspared, -, -⟩ | ⟨script', hscript', hflops', -⟩
    · exact absurd (spared_of_spared hlayer hspared) hscript.not_spared
    · rcases executePType_work hmixed hpim with ⟨hspared, -, -⟩ | ⟨script'', hscript'', hflops'', -⟩
      · exact absurd (spared_of_spared hlayer hspared) hscript.not_spared
      · have hsame := flops_logic_eq hlayer hscript' hscript''
        rw [hflops, hflops', hflops'', hsame, ← flops_gpu_iff hlayer hshapes hscript hscript',
          hsame]
        simp only [Nat.cast_inj, and_true]

/-- A device with units in its memory. -/
def heteroConfig : ExecutorConfig where
  computePeakFlops := 1000
  memoryBandwidth := 10
  logicMemoryBandwidth := 40
  logicOpB := 8
  pimMemoryBandwidth := 160
  pimOpB := 1

/-- Two heads of three rows, times matrices of `n` columns. -/
def twoHeads (n : ℕ) : AttentionInput where
  config := heteroConfig
  tensors := [⟨2, [2, 3, 4], 0, Nat.two_pos⟩, ⟨2, [2, 4, n], 0, Nat.two_pos⟩,
    ⟨2, [2, 3, n], 0, Nat.two_pos⟩]
  sequencesMetadata := ⟨0, 0, 0, [], [], []⟩
  layerInfo := {}

def idealMemory : DeviceMemory where
  memoryConfig := hbm3_80GB
  ramulator := fun _ => {}

theorem flops_agree_of_vectors : ∃ gpu logic pim : ExecStatus, ∃ ops ops' ops'' t t' t'',
    executePType idealMemory false .batchedLinear .gpu (twoHeads 1) {} = .ok (gpu, ops, t) ∧
    executePType idealMemory false .batchedLinear .logic (twoHeads 1) {} = .ok (logic, ops', t') ∧
    executePType idealMemory false .batchedLinear .pim (twoHeads 1) {} = .ok (pim, ops'', t'') ∧
    gpu.flops = logic.flops ∧ logic.flops = pim.flops := by
  have hreturns (type : ProcessorType) (htype : type ≠ .none) : ∃ e ops t,
      executePType idealMemory false .batchedLinear type (twoHeads 1) {} = .ok (e, ops, t) := by
    cases type with
    | none => exact absurd rfl htype
    | _ => exact ⟨_, _, _, rfl⟩
  obtain ⟨gpu, ops, t, hgpu⟩ := hreturns .gpu (by decide)
  obtain ⟨logic, ops', t', hlogic⟩ := hreturns .logic (by decide)
  obtain ⟨pim, ops'', t'', hpim⟩ := hreturns .pim (by decide)
  have hshapes : BatchedShapes (twoHeads 1).tensors := ⟨2, 3, 4, 1, rfl, rfl⟩
  exact ⟨gpu, logic, pim, ops, ops', ops'', t, t', t'', hgpu, hlogic, hpim,
    (flops_agree_iff (by decide) (fun _ => hshapes) hgpu hlogic hpim).mpr (.inr ⟨2, 4, rfl⟩)⟩

theorem flops_of_matrices_differ : ∃ gpu logic : ExecStatus, ∃ ops ops' t t',
    executePType idealMemory false .batchedLinear .gpu (twoHeads 5) {} = .ok (gpu, ops, t) ∧
    executePType idealMemory false .batchedLinear .logic (twoHeads 5) {} = .ok (logic, ops', t') ∧
    gpu.flops = 240 ∧ logic.flops = 48 := by
  refine ⟨_, _, _, _, _, _, rfl, rfl, ?_, ?_⟩
  · rfl
  · rfl

end Executor
end LlmSystem
