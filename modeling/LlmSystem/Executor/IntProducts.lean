import LlmSystem.Executor.IntCounts
import LlmSystem.Scheduler.Runs

/-! Where the attention executors compute the flops and the memory size that their formulas
denote. -/
namespace LlmSystem
namespace Executor

open Overflow Runs

namespace IntWork

/-! ### Products that are held in 32 bits -/

section Fits
variable (info : LayerInfo) (p : ℕ) (type : ProcessorType) (s : Sequence)

/-- The product before the first `2.0` of the flops. -/
def FlopsFit : LayerType → Prop
  | .attentionSum => type = .gpu ∨ s.processed * info.headDim * s.attended < 2 ^ 31
  | .attentionGen => info.attentionGroupSize = 0 ∨
      s.processed * info.headDim * s.attended < 2 ^ 31
  | .attentionMixed => s.processed * info.headDim * s.attended < 2 ^ 31
  | .mlaMixed => s.processed * LatentSum.keyDim info * s.attended < 2 ^ 31
  | .mlaGen => info.useFlashMla = true ∨
      s.processed * LatentSum.keyDim info * s.attended < 2 ^ 31
  | _ => True

/-- The products and sums of the memory size without a `1.0` or `2.0`. -/
def SizeFit : LayerType → Prop
  | .attentionSum =>
    if type = .gpu then
      matmulSize s.processed info.headDim s.attended info.numHeads info.numKvHeads < 2 ^ 31
    else (s.processed * info.headDim * info.numHeads + info.headDim * s.attended * info.numKvHeads)
      * p < 2 ^ 31
  | .attentionGen =>
    if type = .gpu then
      s.processed * info.headDim * info.numHeads < 2 ^ 31 ∧
      s.processed * s.attended * info.numHeads < 2 ^ 31 ∧
      s.processed * info.headDim * info.numHeads / info.numKvHeads + info.headDim * s.attended
        + s.processed * s.attended * info.numHeads / info.numKvHeads < 2 ^ 31
    else info.headDim * s.attended * p < 2 ^ 31
  | .attentionMixed =>
    (s.processed * info.headDim * info.numHeads + info.headDim * s.attended * info.numKvHeads)
      * p < 2 ^ 31 ∧
    (s.processed * s.attended * info.numHeads + s.attended * info.headDim * info.numKvHeads)
      * p < 2 ^ 31
  | .mlaMixed =>
    (s.processed * LatentSum.keyDim info * info.numHeads
      + LatentSum.keyDim info * s.attended * info.numKvHeads) * p < 2 ^ 31 ∧
    (s.processed * s.attended * info.numHeads + s.attended * info.headDim * info.numKvHeads)
      * p < 2 ^ 31
  | .mlaSum => info.useFlashAttention = false ∨ type = .gpu ∨ s.processed = 0 ∨
      LatentSum.keyDim info * LatentSum.keyDim info + LatentSum.keyDim info * info.headDim < 2 ^ 31
  | .mlaGen =>
    if info.useFlashMla then s.processed * LatentSum.keyDim info < 2 ^ 31
    else (s.processed * LatentSum.keyDim info + LatentSum.keyDim info * s.attended
      + s.processed * s.attended) * p < 2 ^ 31
  | .absorbedMlaSum => type ≠ .pim ∨ s.attended * info.kvLoraRank < 2 ^ 31
  | .absorbedMlaGen => info.useFlashMla = false ∨
      info.numHeads * AbsorbGen.latentDim info < 2 ^ 31
  | _ => True

end Fits

section Reads
variable {info : LayerInfo} {p : ℕ} {type : ProcessorType} {s : Sequence}

theorem keyDim_eq (info : LayerInfo) : keyDim info = int (LatentSum.keyDim info) := int_add ..

theorem latentDim_eq (info : LayerInfo) : latentDim info = int (AbsorbGen.latentDim info) :=
  int_add ..

theorem attentionMixed_readsSize : Reads (seqSize info p type s .attentionMixed)
    (exactSize info p type s .attentionMixed : ℕ) (SizeFit info p type s .attentionMixed) := by
  unfold seqSize exactSize SizeFit
  dsimp only
  rw [Nat.cast_add]
  exact (reads_size ..).add (reads_size ..)

theorem mlaMixed_readsSize : Reads (seqSize info p type s .mlaMixed)
    (exactSize info p type s .mlaMixed : ℕ) (SizeFit info p type s .mlaMixed) := by
  unfold seqSize exactSize SizeFit
  dsimp only
  rw [Nat.cast_add, keyDim_eq]
  exact (reads_size ..).add (reads_size ..)

theorem blocks_eq (hrows : LatentSum.blockRows (LatentSum.keyDim info) p ≠ 0) :
    (if type = .gpu then blocksGPU (keyDim info) (int p) else blocksLogic (keyDim info) (int p))
      = ⟨int (tiling p type (LatentSum.keyDim info)).blockR,
        int (tiling p type (LatentSum.keyDim info)).blockC⟩ := by
  obtain ⟨hfit, -⟩ := rows_mul_le hrows
  have hkey : LatentSum.keyDim info < 2 ^ 31 := by
    by_contra hlarge
    have hp : 0 < p := Nat.pos_of_ne_zero fun hzero => hrows (by simp [hzero, LatentSum.blockRows])
    have hle := Nat.le_mul_of_pos_right (4 * LatentSum.keyDim info) hp
    omega
  unfold tiling
  rw [keyDim_eq]
  split_ifs
  · exact blocksGPU_eq hkey (by omega)
  · exact blocksLogic_eq (by omega)

theorem small_tiling (hm : s.processed ≤ 2 ^ 30)
    (hrows : LatentSum.blockRows (LatentSum.keyDim info) p ≠ 0) :
    Small (tiling p type (LatentSum.keyDim info)) s.processed (LatentSum.keyDim info)
      info.headDim := by
  have hd : info.headDim ≤ LatentSum.keyDim info := Nat.le_add_right ..
  unfold tiling
  split_ifs
  · exact small_tilingGPU hrows hm hd
  · exact small_tilingLogic hrows hm hd

section Held
variable (hinfo : Held info p)
include hinfo

theorem attentionSum_readsSize (hp : 0 < p) : Reads (seqSize info p type s .attentionSum)
    (exactSize info p type s .attentionSum : ℕ) (SizeFit info p type s .attentionSum) := by
  unfold seqSize exactSize SizeFit
  dsimp only
  split_ifs with htype
  · have hcomm : matmulSize s.processed s.attended info.headDim info.numHeads info.numKvHeads
        = matmulSize s.processed info.headDim s.attended info.numHeads info.numKvHeads := by
      unfold matmulSize
      ring
    rw [Nat.cast_add]
    have hscoring := reads_sizeGPU s.processed info.headDim s.attended info.numHeads
      info.numKvHeads p hinfo.precisionByte hp
    have hcontext := reads_sizeGPU s.processed s.attended info.headDim info.numHeads
      info.numKvHeads p hinfo.precisionByte hp
    exact (hscoring.add hcontext).congr (by simp [hcomm])
  · rw [Nat.cast_add]
    refine ((reads_size ..).add (reads_contextSize ..)).congr (and_iff_left_of_imp fun hfit => ?_)
    -- The values are no more than what scoring reads.
    have hle : s.attended * info.headDim * info.numKvHeads * p
        ≤ (s.processed * info.headDim * info.numHeads
          + info.headDim * s.attended * info.numKvHeads) * p := by
      rw [mul_comm s.attended]
      exact Nat.mul_le_mul_right p (Nat.le_add_left ..)
    omega

theorem attentionGen_readsFlops : Reads (seqFlops info p type s .attentionGen)
    (exactFlops info p type s .attentionGen : ℕ) (FlopsFit info type s .attentionGen) := by
  have hheads := info.numKvHeads_pos
  have hcomm : s.processed * s.attended * info.headDim
      = s.processed * info.headDim * s.attended := by ring
  have hsame : AttentionGen.headFlops info s.processed info.headDim s.attended
      = matmulFlops s.processed s.attended info.headDim info.attentionGroupSize := by
    unfold AttentionGen.headFlops matmulFlops
    rw [hcomm]
  have hscoring := (reads_intFlops s.processed info.headDim s.attended _
    hinfo.attentionGroupSize).natCast_mul info.numKvHeads
  have hcontext := (reads_intFlops s.processed s.attended info.headDim _
    hinfo.attentionGroupSize).natCast_mul info.numKvHeads
  rw [← hsame] at hcontext
  unfold seqFlops exactFlops FlopsFit
  dsimp only
  push_cast
  exact (hscoring.add hcontext).congr (by simp [hheads.ne', hcomm])

theorem attentionGen_readsSize (hp : 0 < p) : Reads (seqSize info p type s .attentionGen)
    (exactSize info p type s .attentionGen : ℕ) (SizeFit info p type s .attentionGen) := by
  have hheads := info.numKvHeads_pos
  unfold seqSize exactSize SizeFit
  dsimp only
  split_ifs with htype
  · have hscoring := (reads_headSizeGPU s.processed info.headDim s.attended info.numHeads
      info.numKvHeads p hheads hinfo.numKvHeads hinfo.precisionByte hp).natCast_mul info.numKvHeads
    have hcontext := (reads_headSizeGPU s.processed s.attended info.headDim info.numHeads
      info.numKvHeads p hheads hinfo.numKvHeads hinfo.precisionByte hp).natCast_mul info.numKvHeads
    have hsum : s.processed * s.attended * info.numHeads / info.numKvHeads
        + s.attended * info.headDim + s.processed * info.headDim * info.numHeads / info.numKvHeads
        = s.processed * info.headDim * info.numHeads / info.numKvHeads + info.headDim * s.attended
          + s.processed * s.attended * info.numHeads / info.numKvHeads := by
      rw [mul_comm s.attended]
      omega
    rw [Nat.cast_add, Nat.cast_mul, Nat.cast_mul]
    refine (hscoring.add hcontext).congr ?_
    rw [hsum]
    simp only [hheads.ne', false_or]
    tauto
  · have hcomm : s.attended * info.headDim = info.headDim * s.attended := mul_comm ..
    have hscoring := (reads_headSize info.headDim s.attended p).natCast_mul
      info.numKvHeads
    have hcontext := (reads_headSize s.attended info.headDim p).natCast_mul
      info.numKvHeads
    rw [hcomm] at hcontext
    push_cast at hscoring hcontext ⊢
    exact (hscoring.add hcontext).congr (by simp [hheads.ne'])

theorem attentionMixed_readsFlops : Reads (seqFlops info p type s .attentionMixed)
    (exactFlops info p type s .attentionMixed : ℕ) (FlopsFit info type s .attentionMixed) := by
  have hheads := info.numHeads_pos
  have hcomm : s.processed * s.attended * info.headDim
      = s.processed * info.headDim * s.attended := by ring
  unfold seqFlops exactFlops FlopsFit
  dsimp only
  push_cast
  exact ((reads_intFlops _ _ _ _ hinfo.numHeads).add (reads_intFlops _ _ _ _ hinfo.numHeads)).congr
    (by simp [hheads.ne', hcomm])

theorem mlaMixed_readsFlops : Reads (seqFlops info p type s .mlaMixed)
    (exactFlops info p type s .mlaMixed : ℕ) (FlopsFit info type s .mlaMixed) := by
  have hheads := info.numHeads_pos
  unfold seqFlops exactFlops FlopsFit
  dsimp only
  rw [keyDim_eq]
  push_cast
  refine ((reads_intFlops _ _ _ _ hinfo.numHeads).add
    (reads_intFlops _ _ _ _ hinfo.numHeads)).congr ?_
  simp only [hheads.ne', false_or]
  refine and_iff_left_of_imp fun hfit => ?_
  have hle : s.processed * s.attended * info.headDim
      ≤ s.processed * LatentSum.keyDim info * s.attended := by
    rw [mul_right_comm]
    exact Nat.mul_le_mul_right _ (Nat.mul_le_mul_left _ (Nat.le_add_right ..))
  omega

variable (hm : s.processed ≤ 2 ^ 30) (hn : s.attended < 2 ^ 31)
include hm hn

theorem attentionSum_readsFlops : Reads (seqFlops info p type s .attentionSum)
    (exactFlops info p type s .attentionSum : ℕ) (FlopsFit info type s .attentionSum) := by
  have hm' : s.processed < 2 ^ 31 := by omega
  have hheads := info.numHeads_pos
  have hsoftmax := softmaxFlops_eq hm' hn hinfo.numHeads
  unfold seqFlops exactFlops FlopsFit
  dsimp only
  push_cast
  split_ifs with htype
  · exact (((Reads.of_eq (doubleFlops_eq hm' hinfo.headDim hn hinfo.numHeads)).add
      (.of_eq hsoftmax)).add (.of_eq (doubleFlops_eq hm' hn hinfo.headDim hinfo.numHeads))).congr
      (by simp [htype])
  · have hcomm : s.processed * s.attended * info.headDim
        = s.processed * info.headDim * s.attended := by ring
    exact (((reads_intFlops _ _ _ _ hinfo.numHeads).add (.of_eq hsoftmax)).add
      (reads_intFlops _ _ _ _ hinfo.numHeads)).congr (by simp [hheads.ne', htype, hcomm])

theorem mlaSum_readsFlops (hrows : info.useFlashAttention = true →
    LatentSum.blockRows (LatentSum.keyDim info) p ≠ 0) : Reads (seqFlops info p type s .mlaSum)
      (exactFlops info p type s .mlaSum : ℕ) (FlopsFit info type s .mlaSum) := by
  have hm' : s.processed < 2 ^ 31 := by omega
  unfold seqFlops exactFlops FlopsFit
  dsimp only
  by_cases hflash : info.useFlashAttention = true
  · rw [if_pos hflash, if_pos hflash, blocks_eq (hrows hflash), keyDim_eq]
    exact .of_eq (flashFlops_eq (small_tiling hm (hrows hflash)) hinfo)
  · rw [if_neg hflash, if_neg hflash, keyDim_eq]
    push_cast
    exact (((Reads.of_eq (doubleFlops_eq hm' hinfo.keyDim hn hinfo.numHeads)).add
      (.of_eq (softmaxFlops_eq hm' hn hinfo.numHeads))).add
      (.of_eq (doubleFlops_eq hm' hn hinfo.headDim hinfo.numHeads))).congr (by simp)

theorem mlaSum_readsSize (hp : 0 < p) (hrows : info.useFlashAttention = true →
    LatentSum.blockRows (LatentSum.keyDim info) p ≠ 0) : Reads (seqSize info p type s .mlaSum)
      (exactSize info p type s .mlaSum : ℕ) (SizeFit info p type s .mlaSum) := by
  have hm' : s.processed < 2 ^ 31 := by omega
  unfold seqSize exactSize SizeFit
  dsimp only
  by_cases hflash : info.useFlashAttention = true
  · rw [if_pos hflash, if_pos hflash, blocks_eq (hrows hflash), keyDim_eq]
    refine (reads_flashSize (small_tiling hm (hrows hflash)) hinfo hp).congr ?_
    unfold tiling
    split_ifs with htype
    · -- The blocks of the GPU hold as many keys as rows.
      obtain ⟨-, -, hle⟩ := rows_mul_le (hrows hflash)
      have hd : info.headDim ≤ LatentSum.keyDim info := Nat.le_add_right ..
      have hvalue := Nat.mul_le_mul_left (LatentSum.blockRows (LatentSum.keyDim info) p) hd
      have hfit : (LatentSum.tilingGPU (LatentSum.keyDim info) p).blockC * LatentSum.keyDim info
          + (LatentSum.tilingGPU (LatentSum.keyDim info) p).blockC * info.headDim < 2 ^ 31 := by
        dsimp only [LatentSum.tilingGPU]
        omega
      simp only [hfit, htype, or_true, true_or]
    · simp [hflash, htype, LatentSum.tilingLogic]
  · rw [if_neg hflash, if_neg hflash, keyDim_eq, double_int hinfo.numHeads]
    rw [Nat.cast_add, Nat.cast_add]
    refine (((Reads.of_eq (doubleSize_eq hm' hinfo.keyDim hn hinfo.numHeads
      hinfo.precisionByte)).add (.of_eq (softmaxSize_eq hm' hn hinfo.numHeads
      hinfo.precisionByte))).add (.of_eq (doubleSize_eq hm' hn hinfo.headDim hinfo.numHeads
      hinfo.precisionByte))).congr ?_
    simp [hflash]

theorem mlaGen_readsFlops : Reads (seqFlops info p type s .mlaGen)
    (exactFlops info p type s .mlaGen : ℕ) (FlopsFit info type s .mlaGen) := by
  have hm' : s.processed < 2 ^ 31 := by omega
  have hheads := info.numHeads_pos
  unfold seqFlops exactFlops FlopsFit
  dsimp only
  by_cases hflash : info.useFlashMla = true
  · rw [if_pos hflash, if_pos hflash, keyDim_eq]
    refine (Reads.of_eq ?_).congr (by simp [hflash])
    rw [double_int hm', double_int hinfo.keyDim, double_int hn, double_int hinfo.headDim,
      double_int hinfo.numHeads]
    unfold LatentGen.flashSeqFlops
    push_cast
    rfl
  · rw [if_neg hflash, if_neg hflash, keyDim_eq]
    have hle : s.processed * s.attended * info.headDim
        ≤ s.processed * LatentSum.keyDim info * s.attended := by
      rw [mul_right_comm]
      exact Nat.mul_le_mul_right _ (Nat.mul_le_mul_left _ (Nat.le_add_right ..))
    have hscoring := (reads_headFlops s.processed (LatentSum.keyDim info) s.attended).natCast_mul
      info.numHeads
    have hcontext := (reads_headFlops s.processed s.attended info.headDim).natCast_mul
      info.numHeads
    rw [← Nat.cast_mul] at hscoring hcontext
    rw [Nat.cast_add, Nat.cast_add]
    refine ((hscoring.add (.of_eq (softmaxFlops_eq hm' hn hinfo.numHeads))).add hcontext).congr ?_
    simp only [hheads.ne', hflash, Bool.false_eq_true, false_or, and_true]
    exact and_iff_left_of_imp fun hfit => by omega

theorem mlaGen_readsSize (hp : 0 < p) : Reads (seqSize info p type s .mlaGen)
    (exactSize info p type s .mlaGen : ℕ) (SizeFit info p type s .mlaGen) := by
  have hm' : s.processed < 2 ^ 31 := by omega
  have hheads := info.numHeads_pos
  unfold seqSize exactSize SizeFit
  dsimp only
  by_cases hflash : info.useFlashMla = true
  · rw [if_pos hflash, if_pos hflash, if_pos hflash, keyDim_eq]
    exact reads_flashMlaSize _ _ _ _ _ hm' hinfo.keyDim hn hinfo.headDim hinfo.numHeads
      hinfo.precisionByte (Nat.mul_pos hheads hp)
  · rw [if_neg hflash, if_neg hflash, if_neg hflash, keyDim_eq]
    have hle : (s.processed * s.attended + s.attended * info.headDim
          + s.processed * info.headDim) * p
        ≤ (s.processed * LatentSum.keyDim info + LatentSum.keyDim info * s.attended
          + s.processed * s.attended) * p := by
      have hd : info.headDim ≤ LatentSum.keyDim info := Nat.le_add_right ..
      have hquery := Nat.mul_le_mul_left s.processed hd
      have hkeys := Nat.mul_le_mul_right s.attended hd
      rw [mul_comm s.attended]
      exact Nat.mul_le_mul_right p (by omega)
    have hscoring := (reads_latentHeadSize s.processed (LatentSum.keyDim info) s.attended
      p).natCast_mul info.numHeads
    have hcontext := (reads_latentHeadSize s.processed s.attended info.headDim p).natCast_mul
      info.numHeads
    rw [← Nat.cast_mul] at hscoring hcontext
    rw [Nat.cast_add]
    refine (hscoring.add hcontext).congr ?_
    simp only [hheads.ne', false_or]
    exact and_iff_left_of_imp fun hfit => by omega

theorem absorbedMlaSum_readsFlops : Reads (seqFlops info p type s .absorbedMlaSum)
    (exactFlops info p type s .absorbedMlaSum : ℕ) (FlopsFit info type s .absorbedMlaSum) := by
  have hm' : s.processed < 2 ^ 31 := by omega
  obtain ⟨hrank, hrope⟩ := hinfo.latentDims
  refine .of_eq ?_
  unfold seqFlops exactFlops
  dsimp only
  rw [doubleFlops_eq hm' hrank hn hinfo.numHeads, doubleFlops_eq hm' hrope hn hinfo.numHeads,
    softmaxFlops_eq hm' hn hinfo.numHeads, doubleFlops_eq hm' hn hrank hinfo.numHeads]
  push_cast
  rfl

theorem absorbedMlaSum_readsSize (hp : 0 < p) : Reads (seqSize info p type s .absorbedMlaSum)
    (exactSize info p type s .absorbedMlaSum : ℕ) (SizeFit info p type s .absorbedMlaSum) := by
  have hm' : s.processed < 2 ^ 31 := by omega
  obtain ⟨hrank, hrope⟩ := hinfo.latentDims
  have hnope := Reads.of_eq (doubleSize_one hm' hrank hn hinfo.numHeads hinfo.precisionByte)
  have hpe := Reads.of_eq (doubleSize_one hm' hrope hn hinfo.numHeads hinfo.precisionByte)
  have hscores := Reads.of_eq (softmaxSize_eq hm' hn hinfo.numHeads hinfo.precisionByte)
  unfold seqSize exactSize SizeFit
  dsimp only
  by_cases htype : type = .pim
  · rw [if_pos htype, if_pos htype, Nat.cast_add, Nat.cast_add]
    have hcontext := reads_latentSizePIM s.processed s.attended info.kvLoraRank info.numHeads p hm'
      hn hrank hinfo.numHeads hinfo.precisionByte hp
    exact (hnope.add (hpe.add hcontext)).congr (by simp [htype])
  · rw [if_neg htype, if_neg htype, Nat.cast_add, Nat.cast_add, Nat.cast_add]
    have hcontext := Reads.of_eq (doubleSize_one hm' hn hrank hinfo.numHeads hinfo.precisionByte)
    exact (hnope.add ((hpe.add hscores).add hcontext)).congr (by simp [htype])

theorem absorbedMlaGen_readsFlops : Reads (seqFlops info p type s .absorbedMlaGen)
    (exactFlops info p type s .absorbedMlaGen : ℕ) (FlopsFit info type s .absorbedMlaGen) := by
  have hm' : s.processed < 2 ^ 31 := by omega
  obtain ⟨hrank, hrope⟩ := hinfo.latentDims
  refine .of_eq ?_
  unfold seqFlops exactFlops
  dsimp only
  split_ifs with hflash
  · rw [latentDim_eq, double_int hinfo.latentDim, double_int hrank, double_int hn,
      double_int hinfo.numHeads]
    unfold AbsorbGen.flashSeqFlops
    push_cast
    rfl
  · rw [doubleFlops_eq hm' hrank hn hinfo.numHeads, doubleFlops_eq hm' hrope hn hinfo.numHeads,
      softmaxFlops_eq hm' hn hinfo.numHeads, doubleFlops_eq hm' hn hrank hinfo.numHeads]
    push_cast
    rfl

theorem absorbedMlaGen_readsSize (hp : 0 < p) : Reads (seqSize info p type s .absorbedMlaGen)
    (exactSize info p type s .absorbedMlaGen : ℕ) (SizeFit info p type s .absorbedMlaGen) := by
  have hm' : s.processed < 2 ^ 31 := by omega
  obtain ⟨hrank, hrope⟩ := hinfo.latentDims
  unfold seqSize exactSize SizeFit
  dsimp only
  by_cases hflash : info.useFlashMla = true
  · rw [if_pos hflash, if_pos hflash, latentDim_eq]
    exact (reads_flashAbsorbSize _ _ _ _ hinfo.latentDim hn hrank hinfo.numHeads
      hinfo.precisionByte hp).congr (by simp [hflash])
  · rw [if_neg hflash, if_neg hflash, Nat.cast_add, Nat.cast_add, Nat.cast_add]
    have hnope := Reads.of_eq (doubleSize_one hm' hrank hn hinfo.numHeads hinfo.precisionByte)
    have hpe := Reads.of_eq (doubleSize_one hm' hrope hn hinfo.numHeads hinfo.precisionByte)
    have hscores := Reads.of_eq (softmaxSize_eq hm' hn hinfo.numHeads hinfo.precisionByte)
    have hcontext := Reads.of_eq (doubleSize_one hm' hn hrank hinfo.numHeads hinfo.precisionByte)
    have hcomm : 2 * s.processed * s.attended * info.numHeads * p
        = 2 * (s.processed * s.attended * info.numHeads) * p := by ring
    rw [hcomm]
    exact (((hnope.add hpe).add hscores).add hcontext).congr (by simp [hflash])

end Held

theorem reads_seqFlops (type : ProcessorType) {layerType : LayerType}
    (hlayer : Attends layerType) (hinfo : Held info p) (hm : s.processed ≤ 2 ^ 30)
    (hn : s.attended < 2 ^ 31)
    (hrows : layerType = .mlaSum → info.useFlashAttention = true →
      LatentSum.blockRows (LatentSum.keyDim info) p ≠ 0) :
    Reads (seqFlops info p type s layerType) (exactFlops info p type s layerType : ℕ)
      (FlopsFit info type s layerType) := by
  cases layerType with
  | attentionSum => exact attentionSum_readsFlops hinfo hm hn
  | attentionGen => exact attentionGen_readsFlops hinfo
  | attentionMixed => exact attentionMixed_readsFlops hinfo
  | mlaSum => exact mlaSum_readsFlops hinfo hm hn (hrows rfl)
  | mlaGen => exact mlaGen_readsFlops hinfo hm hn
  | mlaMixed => exact mlaMixed_readsFlops hinfo
  | absorbedMlaSum => exact absorbedMlaSum_readsFlops hinfo hm hn
  | absorbedMlaGen => exact absorbedMlaGen_readsFlops hinfo hm hn
  | _ => exact absurd (by decide) hlayer

theorem reads_seqSize (type : ProcessorType) {layerType : LayerType}
    (hlayer : Attends layerType) (hinfo : Held info p) (hp : 0 < p) (hm : s.processed ≤ 2 ^ 30)
    (hn : s.attended < 2 ^ 31)
    (hrows : layerType = .mlaSum → info.useFlashAttention = true →
      LatentSum.blockRows (LatentSum.keyDim info) p ≠ 0) :
    Reads (seqSize info p type s layerType) (exactSize info p type s layerType : ℕ)
      (SizeFit info p type s layerType) := by
  cases layerType with
  | attentionSum => exact attentionSum_readsSize hinfo hp
  | attentionGen => exact attentionGen_readsSize hinfo hp
  | attentionMixed => exact attentionMixed_readsSize
  | mlaSum => exact mlaSum_readsSize hinfo hm hn hp (hrows rfl)
  | mlaGen => exact mlaGen_readsSize hinfo hm hn hp
  | mlaMixed => exact mlaMixed_readsSize
  | absorbedMlaSum => exact absorbedMlaSum_readsSize hinfo hm hn hp
  | absorbedMlaGen => exact absorbedMlaGen_readsSize hinfo hm hn hp
  | _ => exact absurd (by decide) hlayer

end Reads

/-- Latent attention in prefill goes through tiles only where a row fits in shared memory. -/
theorem rows_ne_zero {i : AttentionInput} {type : ProcessorType} {script : Script} {input : Tensor}
    (hinput : i.tensors[0]? = some input) (h : executorOf .mlaSum type i = .ok (some script))
    (hflash : i.layerInfo.useFlashAttention = true) (hseqs : i.sequencesMetadata.getSum ≠ []) :
    LatentSum.blockRows (LatentSum.keyDim i.layerInfo) input.precisionByte ≠ 0 := by
  have hrows {type : ProcessorType} {rates : ℕ → Rates} {tiles : ℕ → ℕ → LatentSum.Tiling}
      (h : multiLatentAttentionSumExecution type rates tiles i = .ok (some script)) :
      LatentSum.blockRows (LatentSum.keyDim i.layerInfo) input.precisionByte ≠ 0 := by
    obtain ⟨input', hinput', h⟩ := bind_eq_ok h
    obtain rfl := Option.some.inj (hinput.symm.trans (Operands.at_ok.mp hinput'))
    obtain ⟨_, -, h⟩ := bind_eq_ok h
    intro hzero
    dsimp only at h
    split_ifs at h with hsize hdiv
    · cases Except.ok.inj h
    · exact hdiv ⟨hflash, hseqs, hzero⟩
  cases type with
  | none => cases h
  | gpu =>
    unfold executorOf select multiLatentAttentionSumExecutionGPU at h
    exact hrows h
  | logic =>
    unfold executorOf select multiLatentAttentionSumExecutionLogic at h
    exact hrows h
  | pim =>
    unfold executorOf select multiLatentAttentionSumExecutionPIM at h
    exact hrows h

theorem mem_of_served {b : BatchedSequence} {layerType : LayerType} {s : Sequence}
    (h : s ∈ served b layerType) : s ∈ b.sequence := by
  cases layerType <;> first | exact h | exact List.mem_of_mem_filter h

end IntWork

open IntWork

/-- `total_flops` and `total_memory_size` at the end of an executor. -/
def computedWork (i : AttentionInput) (p : ℕ) (type : ProcessorType) (layerType : LayerType) :
    ℚ × ℚ :=
  (((served i.sequencesMetadata layerType).map fun s =>
      seqFlops i.layerInfo p type s layerType).sum,
    ((served i.sequencesMetadata layerType).map fun s =>
      seqSize i.layerInfo p type s layerType).sum)

/-- For every batch and all dimensions that are `int`, the flops and the memory size are computed
right exactly where no product that is held in an `int` overflows. -/
theorem computedWork_iff {i : AttentionInput} {layerType : LayerType} {type : ProcessorType}
    {script : Script} {input : Tensor} (hlayer : Attends layerType)
    (hinput : i.tensors[0]? = some input) (hinfo : Held i.layerInfo input.precisionByte)
    (hbatch : ∀ s ∈ i.sequencesMetadata.sequence, s.processed ≤ 2 ^ 30 ∧ s.attended < 2 ^ 31)
    (h : executorOf layerType type i = .ok (some script)) :
    computedWork i input.precisionByte type layerType
        = ((script.flops : ℚ), (script.memorySize : ℚ)) ↔
      ∀ s ∈ served i.sequencesMetadata layerType, FlopsFit i.layerInfo type s layerType ∧
        SizeFit i.layerInfo input.precisionByte type s layerType := by
  obtain ⟨hflops, hsize⟩ := counts hlayer hinput h
  have hrows : ∀ s ∈ served i.sequencesMetadata layerType, layerType = .mlaSum →
      i.layerInfo.useFlashAttention = true →
      LatentSum.blockRows (LatentSum.keyDim i.layerInfo) input.precisionByte ≠ 0 := by
    rintro s hs rfl hflash
    exact rows_ne_zero hinput h hflash (List.ne_nil_of_mem hs)
  have hreadsFlops := Reads.sum_map fun s hs => reads_seqFlops type hlayer hinfo
    (hbatch s (mem_of_served hs)).1 (hbatch s (mem_of_served hs)).2 (hrows s hs)
  have hreadsSize := Reads.sum_map fun s hs => reads_seqSize type hlayer hinfo
    input.precisionByte_pos (hbatch s (mem_of_served hs)).1 (hbatch s (mem_of_served hs)).2
    (hrows s hs)
  unfold computedWork
  rw [Prod.mk.injEq, hflops, hsize, forall₂_and, Nat.cast_list_sum, Nat.cast_list_sum,
    List.map_map, List.map_map]
  exact and_congr hreadsFlops.eq_iff hreadsSize.eq_iff

/-- A layer of 64 heads of 128 dimensions. -/
def onAdmitted (b : BatchedSequence) : AttentionInput where
  config := heteroConfig
  tensors := [⟨2, [8192, 10240], 0, Nat.two_pos⟩, ⟨2, [8192, 8192], 0, Nat.two_pos⟩]
  sequencesMetadata := b
  layerInfo := .wideHeads

/-- Before a prompt is admitted, of which at most 8192 tokens are processed at once. -/
def beforePrompt (inputLen : ℤ) : Scheduler :=
  Scheduler.create { numNode := 1, numDevice := 1 }
    { maxSeqLen := 16384, inputLen := inputLen, outputLen := 2 } {} 1 8192 8192 0 0

/-- Four tokens are counted right. -/
theorem computedWork_shortPrompt : ∃ h b script,
    Runs.Run History.Step (.init (beforePrompt 4)) [.pushSeq 1 [], .fillRunningQueue, .setMetadata]
      h ∧ b ∈ h.scheduler.runningQueue ∧
      executorOf .attentionSum .logic (onAdmitted b) = .ok (some script) ∧
      computedWork (onAdmitted b) 2 .logic .attentionSum
        = ((script.flops : ℚ), (script.memorySize : ℚ)) := by
  have hlayer : Attends .attentionSum := by decide
  have hinfo : Held { headDim := 128 } 2 := by constructor <;> decide
  have hiff (b : BatchedSequence) (hb : ∀ s ∈ b.sequence, s.processed ≤ 2 ^ 30 ∧
      s.attended < 2 ^ 31) (script : Script)
      (h : executorOf .attentionSum .logic (onAdmitted b) = .ok (some script)) :=
    computedWork_iff hlayer (i := onAdmitted b) rfl hinfo hb h
  refine ⟨_, _, _, .of_foldlM rfl, List.mem_cons_self .., rfl, (hiff _ ?_ _ rfl).mpr ?_⟩
  · intro s hs
    obtain rfl := List.mem_singleton.mp hs
    decide
  · intro s hs
    obtain rfl := List.mem_singleton.mp hs
    have hsize : (4 * 128 * 64 + 128 * 4 * 8) * 2 < 2 ^ 31 := by decide
    exact ⟨.inr (by decide), hsize⟩

/-- Of 8192 tokens the flops of both products are lost: a multiple of the modulus. -/
theorem computedWork_longPrompt : ∃ h b script,
    Runs.Run History.Step (.init (beforePrompt 8192))
      [.pushSeq 1 [], .fillRunningQueue, .setMetadata] h ∧ b ∈ h.scheduler.runningQueue ∧
      executorOf .attentionSum .logic (onAdmitted b) = .ok (some script) ∧
      computedWork (onAdmitted b) 2 .logic .attentionSum
        ≠ ((script.flops : ℚ), (script.memorySize : ℚ)) := by
  refine ⟨_, _, _, .of_foldlM rfl, List.mem_cons_self .., rfl, ?_⟩
  decide +kernel

end Executor
end LlmSystem
