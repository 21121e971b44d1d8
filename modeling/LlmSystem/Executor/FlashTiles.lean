import LlmSystem.Executor.Work

/-!
The tiles of `MultiLatentAttentionSumExecution*`. Both counts are taken from the processed tokens,
and so the columns of the score matrix that belong to tokens before these may be left out.
-/
namespace LlmSystem
namespace Executor
namespace LatentSum

open Runs

/-! ### Tiles -/

theorem le_numTile_mul {block : ℕ} (h : 0 < block) (m : ℕ) : m ≤ numTile m block * block := by
  have hlast := Nat.lt_div_mul_add h (a := m + block - 1)
  unfold numTile
  omega

/-- The block sizes of a processor. -/
def tilingOf (type : ProcessorType) : ℕ → ℕ → Tiling :=
  if type = .gpu then tilingGPU else tilingLogic

/-- A tile has at least one row and one column. -/
structure Tiling.Proper (t : Tiling) : Prop where
  blockR : 0 < t.blockR
  blockC : 0 < t.blockC

theorem tilingOf_proper {k precisionByte : ℕ} (h : blockRows k precisionByte ≠ 0)
    (type : ProcessorType) : (tilingOf type k precisionByte).Proper := by
  have hrows : 0 < blockRows k precisionByte := Nat.pos_of_ne_zero h
  have hk : 0 < k := by
    apply Nat.pos_of_ne_zero
    rintro rfl
    exact h (by simp [blockRows])
  unfold tilingOf
  split_ifs
  · exact ⟨lt_min hrows hk, hrows⟩
  · exact ⟨hrows, hk⟩

/-- The columns of all tiles of a sequence. -/
def tiledColumns (t : Tiling) (s : Sequence) : ℕ := numTile s.processed t.blockC * t.blockC

variable {type : ProcessorType} {rates : Rates} {info : LayerInfo} {precisionByte : ℕ}
  {t : Tiling} {s : Sequence}

/-! ### What a stage is charged with -/

/-- The elements of the keys and values that the second transfer of a stage reads. -/
def keyValueElements (stage : Stage) : ℕ :=
  match stage.simulated with
  | _ :: ⟨_, .firstTwo rows columns, _, _, _⟩ :: _ => rows * columns
  | _ => 0

/-- A row of keys and values for each head and each column of a tile. -/
theorem keyValueElements_flash :
    keyValueElements (flash type rates info precisionByte t s)
      = tiledColumns t s * (keyDim info + info.headDim) * info.numHeads := by
  show (t.blockC * keyDim info + t.blockC * info.headDim)
    * (numTile s.processed t.blockC * info.numHeads) = _
  unfold tiledColumns
  ring

theorem flops_flash :
    (flash type rates info precisionByte t s).flops
      = numTile s.processed t.blockR * t.blockR * tiledColumns t s
        * (2 * (keyDim info + info.headDim)) * info.numHeads := by
  show flashFlops info t s.processed = _
  unfold flashFlops tiledColumns
  ring

/-- The whole score matrix of a sequence is computed, from all of its keys and values. -/
structure Covers (info : LayerInfo) (s : Sequence) (stage : Stage) : Prop where
  flops : (2 * s.processed * s.attended * keyDim info + 2 * s.processed * s.attended * info.headDim)
    * info.numHeads ≤ stage.flops
  keyValue : s.attended * (keyDim info + info.headDim) * info.numHeads ≤ keyValueElements stage

theorem covers_iff (ht : t.Proper) :
    Covers info s (flash type rates info precisionByte t s) ↔ s.attended ≤ tiledColumns t s := by
  constructor
  · intro hcovers
    have hkv := hcovers.keyValue
    have hdim : 0 < keyDim info + info.headDim := Nat.add_pos_right _ info.headDim_pos
    rw [keyValueElements_flash] at hkv
    exact Nat.le_of_mul_le_mul_right (Nat.le_of_mul_le_mul_right hkv info.numHeads_pos) hdim
  · intro hcolumns
    have hrows : s.processed ≤ numTile s.processed t.blockR * t.blockR :=
      le_numTile_mul ht.blockR s.processed
    constructor
    · rw [flops_flash]
      calc (2 * s.processed * s.attended * keyDim info
              + 2 * s.processed * s.attended * info.headDim) * info.numHeads
          = s.processed * s.attended * (2 * (keyDim info + info.headDim)) * info.numHeads := by ring
        _ ≤ numTile s.processed t.blockR * t.blockR * tiledColumns t s
              * (2 * (keyDim info + info.headDim)) * info.numHeads := by gcongr
    · rw [keyValueElements_flash]
      gcongr

/-! ### Executors -/

/-- The stages of the flash path, with tiles that are not empty. -/
theorem flash_stages {i : AttentionInput} {input : Tensor} {script : Script}
    (hinput : i.tensors[0]? = some input) (hflash : i.layerInfo.useFlashAttention = true)
    (h : executorOf .mlaSum type i = .ok (some script)) :
    ∃ rates, script.stages = i.sequencesMetadata.getSum.map (flash type rates i.layerInfo
        input.precisionByte (tilingOf type (keyDim i.layerInfo) input.precisionByte)) ∧
      (i.sequencesMetadata.getSum ≠ [] →
        (tilingOf type (keyDim i.layerInfo) input.precisionByte).Proper) := by
  have hexecution : ∃ rates, multiLatentAttentionSumExecution type rates (tilingOf type) i
      = .ok (some script) := by
    cases type with
    | gpu => exact ⟨fun _ => i.config.gpuRates, h⟩
    | logic => exact ⟨latentRates i.config, h⟩
    | pim => exact ⟨latentRates i.config, h⟩
    | none => cases h
  obtain ⟨rates, hexecution⟩ := hexecution
  obtain ⟨input', hinput', hexecution⟩ := bind_eq_ok hexecution
  obtain rfl := Option.some.inj (hinput.symm.trans (Operands.at_ok.mp hinput'))
  obtain ⟨_, -, hexecution⟩ := bind_eq_ok hexecution
  dsimp only at hexecution
  split_ifs at hexecution with hsize hrows
  · cases hexecution
  · obtain rfl := Option.some.inj (Except.ok.inj hexecution)
    refine ⟨rates input.precisionByte, ?_, fun hseqs => ?_⟩
    · simp [LatentSum.script, hflash, byStage]
    · exact tilingOf_proper (fun hzero => hrows ⟨hflash, hseqs, hzero⟩) type

/-- The score matrices are covered exactly where the tiles that the processed tokens need have
columns for all tokens. -/
theorem flash_covers_iff {i : AttentionInput} {input : Tensor} {script : Script}
    (hinput : i.tensors[0]? = some input) (hflash : i.layerInfo.useFlashAttention = true)
    (h : executorOf .mlaSum type i = .ok (some script)) :
    List.Forall₂ (Covers i.layerInfo) i.sequencesMetadata.getSum script.stages ↔
      ∀ s ∈ i.sequencesMetadata.getSum,
        s.attended ≤ tiledColumns (tilingOf type (keyDim i.layerInfo) input.precisionByte) s := by
  obtain ⟨rates, hstages, hproper⟩ := flash_stages hinput hflash h
  rw [hstages, List.forall₂_map_right_iff, List.forall₂_same]
  refine forall₂_congr fun s hs => ?_
  exact covers_iff (hproper (List.ne_nil_of_mem hs))

/-- The next 40 tokens of a prompt of which `currentLen` tokens are in the cache. -/
def onChunk (currentLen : ℤ) : AttentionInput where
  config := heteroConfig
  tensors := [⟨2, [40, 12288], 0, Nat.two_pos⟩, ⟨2, [40, 8192], 0, Nat.two_pos⟩]
  sequencesMetadata := { BatchedSequence.create 0 0 with
    sequence := [{ Sequence.start 0 0 (currentLen + 40) 8 with
      currentLen := currentLen, numProcessToken := 40 }] }
  layerInfo := { LayerInfo.wideHeads with qkRopeHeadDim := 64 }

theorem onChunk_first : ∃ script, executorOf .mlaSum .gpu (onChunk 0) = .ok (some script) ∧
    List.Forall₂ (Covers (onChunk 0).layerInfo) (onChunk 0).sequencesMetadata.getSum
      script.stages := by
  obtain ⟨script, h⟩ : ∃ script, executorOf .mlaSum .gpu (onChunk 0) = .ok (some script) :=
    ⟨_, rfl⟩
  refine ⟨script, h, (flash_covers_iff rfl rfl h).mpr ?_⟩
  decide

/-- One tile of 170 columns for 40 tokens that attend to 1000. -/
theorem onChunk_uncovered : ∃ script stage,
    executorOf .mlaSum .gpu (onChunk 960) = .ok (some script) ∧ stage ∈ script.stages ∧
      stage.flops < (2 * 40 * 1000 * (128 + 64) + 2 * 40 * 1000 * 128) * 64 ∧
      keyValueElements stage < 1000 * (128 + 64 + 128) * 64 := by
  refine ⟨_, _, rfl, List.mem_cons_self, ?_, ?_⟩
  · decide
  · decide

end LatentSum
end Executor
end LlmSystem
