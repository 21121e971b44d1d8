import LlmSystem.Executor.Work
import LlmSystem.Lib.Binary64
import LlmSystem.Lib.Overflow

/-! The flops and the memory size as the attention executors compute them, partly in `int` and
partly in `double`, and where these are the exact products. -/
namespace LlmSystem
namespace Executor

open Overflow Runs

/-! ### The formulas -/

namespace IntWork

section Grouped
variable (m k n numHeads numKvHeads precisionByte : Int32)

/-- `1.0 * m * k * n * 2.0 * num_heads`. -/
def doubleFlops : ℚ := double m * double k * double n * 2 * double numHeads

/-- `m * k * n * 2.0 * num_heads`: the first two products are in `int`. -/
def intFlops : ℚ := double (m * k * n) * 2 * double numHeads

def softmaxFlops : ℚ := 7 * double m * double n * double numHeads

/-- `1.0 * (...) * precision_byte`. -/
def sizeGPU : ℚ :=
  double (m * k * numHeads + k * n * numKvHeads + m * n * numHeads) * double precisionByte

/-- `(...) * precision_byte`, the products of the mixed executors as well. -/
def size : ℚ := double ((m * k * numHeads + k * n * numKvHeads) * precisionByte)

def contextSize : ℚ := double (k * n * numKvHeads * precisionByte)

def headSizeGPU : ℚ :=
  double (m * k * numHeads / numKvHeads + k * n + m * n * numHeads / numKvHeads)
    * double precisionByte

def headSize : ℚ := double (k * n * precisionByte)

end Grouped

section Latent
variable (m k n numHeads precisionByte : Int32)

/-- Each of the products in `double`. -/
def doubleSize (numKvHeads : ℚ) : ℚ :=
  (double m * double k * double numHeads + double k * double n * numKvHeads
    + double m * double n * double numHeads) * double precisionByte

/-- The cache in `int`, as the PIM units read it. -/
def latentSizePIM : ℚ :=
  (double m * double k * double numHeads + double (k * n) + double m * double n * double numHeads)
    * double precisionByte

def softmaxSize : ℚ := 2 * (double m * double n * double numHeads) * double precisionByte

/-- `m * k * n * 2.0`, for one head. -/
def headFlops : ℚ := double (m * k * n) * 2

def latentHeadSize : ℚ := double ((m * k + k * n + m * n) * precisionByte)

/-- Of the four terms only the first one has no `1.0`. -/
def flashMlaSize (headDim : Int32) : ℚ :=
  (double (m * k) + double n * double k + double n * double headDim + double m * double headDim)
    * double numHeads * double precisionByte

def flashAbsorbSize (kvLoraRank : Int32) : ℚ :=
  (double (numHeads * k) + double n * double k + double numHeads * double kvLoraRank)
    * double precisionByte

end Latent

/-! ### Tiles -/

/-- `shared_mem_size / (4 * k * precision_byte)`. -/
def sharedRows (k precisionByte : Int32) : ℚ := 256 * 1024 / double (4 * k * precisionByte)

structure Blocks where
  blockR : Int32
  blockC : Int32

def blocksGPU (k precisionByte : Int32) : Blocks :=
  ⟨Int32.ofInt (Binary64.trunc (min (sharedRows k precisionByte) (double k))),
    Int32.ofInt (Binary64.trunc (sharedRows k precisionByte))⟩

def blocksLogic (k precisionByte : Int32) : Blocks :=
  ⟨Int32.ofInt (Binary64.trunc (sharedRows k precisionByte)), k⟩

def numTile (m block : Int32) : Int32 := (m + block - 1) / block

section Flash
variable (b : Blocks) (m k headDim numHeads precisionByte : Int32)

def flashFlops : ℚ :=
  double (numTile m b.blockR) * double (numTile m b.blockC)
    * (2 * double b.blockR * double k * double b.blockC
      + 2 * double b.blockR * double headDim * double b.blockC) * double numHeads

def flashSize : ℚ :=
  (double (b.blockR * k) * double (numTile m b.blockR) * double (numTile m b.blockC)
    + double (b.blockC * k + b.blockC * headDim) * double (numTile m b.blockC)
    + 2 * double (b.blockR * headDim) * double (numTile m b.blockR) * double (numTile m b.blockC)
    + 2 * double (b.blockR + b.blockR) * double (numTile m b.blockR)
      * double (numTile m b.blockC)) * double numHeads * double precisionByte

end Flash

/-! ### The executors -/

/-- `head_dim + qk_rope_head_dim`. -/
def keyDim (info : LayerInfo) : Int32 := int info.headDim + int info.qkRopeHeadDim

/-- `kv_lora_rank + qk_rope_head_dim`. -/
def latentDim (info : LayerInfo) : Int32 := int info.kvLoraRank + int info.qkRopeHeadDim

/-- The sequences over which the executor of a layer loops. -/
def served (b : BatchedSequence) : LayerType → List Sequence
  | .attentionSum | .mlaSum | .absorbedMlaSum => b.getSum
  | .attentionMixed | .mlaMixed => b.sequence
  | _ => b.getGen

section Sequences
variable (info : LayerInfo) (p : ℕ) (type : ProcessorType) (s : Sequence)

/-- What a sequence adds to `total_flops`. -/
def seqFlops (layerType : LayerType) : ℚ :=
  let m := int s.processed
  let n := int s.attended
  let d := int info.headDim
  let h := int info.numHeads
  match layerType with
  | .attentionSum =>
    if type = .gpu then doubleFlops m d n h + softmaxFlops m n h + doubleFlops m n d h
    else intFlops m d n h + softmaxFlops m n h + intFlops m n d h
  | .attentionGen =>
    info.numKvHeads * intFlops m d n (int info.attentionGroupSize)
      + info.numKvHeads * intFlops m n d (int info.attentionGroupSize)
  | .attentionMixed => intFlops m d n h + intFlops m n d h
  | .mlaMixed => intFlops m (keyDim info) n h + intFlops m n d h
  | .mlaSum =>
    if info.useFlashAttention then
      flashFlops (if type = .gpu then blocksGPU (keyDim info) (int p)
        else blocksLogic (keyDim info) (int p)) m (keyDim info) d h
    else doubleFlops m (keyDim info) n h + softmaxFlops m n h + doubleFlops m n d h
  | .mlaGen =>
    if info.useFlashMla then
      2 * double m * double (keyDim info) * double n * double h
        + 2 * double m * double d * double n * double h
    else info.numHeads * headFlops m (keyDim info) n + softmaxFlops m n h
      + info.numHeads * headFlops m n d
  | .absorbedMlaSum => doubleFlops m (int info.kvLoraRank) n h
      + doubleFlops m (int info.qkRopeHeadDim) n h + softmaxFlops m n h
      + doubleFlops m n (int info.kvLoraRank) h
  | .absorbedMlaGen =>
    if info.useFlashMla then
      2 * double h * double (latentDim info) * double n
        + 2 * double h * double (int info.kvLoraRank) * double n
    else doubleFlops m (int info.kvLoraRank) n h + doubleFlops m (int info.qkRopeHeadDim) n h
      + softmaxFlops m n h + doubleFlops m n (int info.kvLoraRank) h
  | _ => 0

/-- What it adds to `total_memory_size`. -/
def seqSize (layerType : LayerType) : ℚ :=
  let m := int s.processed
  let n := int s.attended
  let d := int info.headDim
  let h := int info.numHeads
  let kv := int info.numKvHeads
  match layerType with
  | .attentionSum =>
    if type = .gpu then sizeGPU m d n h kv (int p) + sizeGPU m n d h kv (int p)
    else size m d n h kv (int p) + contextSize n d kv (int p)
  | .attentionGen =>
    if type = .gpu then
      info.numKvHeads * headSizeGPU m d n h kv (int p)
        + info.numKvHeads * headSizeGPU m n d h kv (int p)
    else info.numKvHeads * headSize d n (int p) + info.numKvHeads * headSize n d (int p)
  | .attentionMixed => size m d n h kv (int p) + size m n d h kv (int p)
  | .mlaMixed => size m (keyDim info) n h kv (int p) + size m n d h kv (int p)
  | .mlaSum =>
    if info.useFlashAttention then
      flashSize (if type = .gpu then blocksGPU (keyDim info) (int p)
        else blocksLogic (keyDim info) (int p)) m (keyDim info) d h (int p)
    else doubleSize m (keyDim info) n h (int p) (double h) + softmaxSize m n h (int p)
      + doubleSize m n d h (int p) (double h)
  | .mlaGen =>
    if info.useFlashMla then flashMlaSize m (keyDim info) n h (int p) d
    else info.numHeads * latentHeadSize m (keyDim info) n (int p)
      + info.numHeads * latentHeadSize m n d (int p)
  | .absorbedMlaSum =>
    doubleSize m (int info.kvLoraRank) n h (int p) 1
      + (if type = .pim then doubleSize m (int info.qkRopeHeadDim) n h (int p) 1
          + latentSizePIM m n (int info.kvLoraRank) h (int p)
        else doubleSize m (int info.qkRopeHeadDim) n h (int p) 1 + softmaxSize m n h (int p)
          + doubleSize m n (int info.kvLoraRank) h (int p) 1)
  | .absorbedMlaGen =>
    if info.useFlashMla then flashAbsorbSize (latentDim info) n h (int p) (int info.kvLoraRank)
    else doubleSize m (int info.kvLoraRank) n h (int p) 1
      + doubleSize m (int info.qkRopeHeadDim) n h (int p) 1 + softmaxSize m n h (int p)
      + doubleSize m n (int info.kvLoraRank) h (int p) 1
  | _ => 0

end Sequences

/-! ### Where the formulas are exact -/

/-- The dimensions that the executors hold in an `int`. -/
structure Held (info : LayerInfo) (p : ℕ) : Prop where
  headDim : info.headDim < 2 ^ 31
  numHeads : info.numHeads < 2 ^ 31
  numKvHeads : info.numKvHeads < 2 ^ 31
  attentionGroupSize : info.attentionGroupSize < 2 ^ 31
  keyDim : LatentSum.keyDim info < 2 ^ 31
  latentDim : AbsorbGen.latentDim info < 2 ^ 31
  precisionByte : p < 2 ^ 31

theorem Held.latentDims {info : LayerInfo} {p : ℕ} (h : Held info p) :
    info.kvLoraRank < 2 ^ 31 ∧ info.qkRopeHeadDim < 2 ^ 31 :=
  ⟨Nat.lt_of_add_right_lt h.latentDim, Nat.lt_of_add_left_lt h.latentDim⟩

section Products
variable {m k n numHeads numKvHeads p : ℕ}

theorem doubleFlops_eq (hm : m < 2 ^ 31) (hk : k < 2 ^ 31) (hn : n < 2 ^ 31)
    (hheads : numHeads < 2 ^ 31) :
    doubleFlops (int m) (int k) (int n) (int numHeads) = matmulFlops m k n numHeads := by
  unfold doubleFlops matmulFlops
  rw [double_int hm, double_int hk, double_int hn, double_int hheads]
  push_cast
  ring

theorem softmaxFlops_eq (hm : m < 2 ^ 31) (hn : n < 2 ^ 31) (hheads : numHeads < 2 ^ 31) :
    softmaxFlops (int m) (int n) (int numHeads) = Executor.softmaxFlops m n numHeads := by
  unfold softmaxFlops Executor.softmaxFlops
  rw [double_int hm, double_int hn, double_int hheads]
  push_cast
  ring

theorem doubleSize_eq (hm : m < 2 ^ 31) (hk : k < 2 ^ 31) (hn : n < 2 ^ 31)
    (hheads : numHeads < 2 ^ 31) (hp : p < 2 ^ 31) :
    doubleSize (int m) (int k) (int n) (int numHeads) (int p) numKvHeads
      = (matmulSize m k n numHeads numKvHeads * p : ℕ) := by
  unfold doubleSize matmulSize
  rw [double_int hm, double_int hk, double_int hn, double_int hheads, double_int hp]
  push_cast
  ring

/-- One cache for all heads. -/
theorem doubleSize_one (hm : m < 2 ^ 31) (hk : k < 2 ^ 31) (hn : n < 2 ^ 31)
    (hheads : numHeads < 2 ^ 31) (hp : p < 2 ^ 31) :
    doubleSize (int m) (int k) (int n) (int numHeads) (int p) 1
      = (matmulSize m k n numHeads 1 * p : ℕ) := by
  rw [← doubleSize_eq hm hk hn hheads hp, Nat.cast_one]

theorem softmaxSize_eq (hm : m < 2 ^ 31) (hn : n < 2 ^ 31) (hheads : numHeads < 2 ^ 31)
    (hp : p < 2 ^ 31) : softmaxSize (int m) (int n) (int numHeads) (int p)
      = (2 * (m * n * numHeads) * p : ℕ) := by
  unfold softmaxSize
  rw [double_int hm, double_int hn, double_int hheads, double_int hp]
  push_cast
  ring

variable (m k n numHeads numKvHeads p)

theorem reads_intFlops (hheads : numHeads < 2 ^ 31) :
    Reads (intFlops (int m) (int k) (int n) (int numHeads))
      (matmulFlops m k n numHeads : ℕ) (numHeads = 0 ∨ m * k * n < 2 ^ 31) := by
  unfold intFlops matmulFlops
  rw [int_mul, int_mul, double_int hheads]
  have hreads := ((reads_int (m * k * n)).mul one_le_two).mul_natCast numHeads
  exact_mod_cast hreads

theorem reads_sizeGPU (hp : p < 2 ^ 31) (hpos : 0 < p) :
    Reads (sizeGPU (int m) (int k) (int n) (int numHeads) (int numKvHeads) (int p))
      (matmulSize m k n numHeads numKvHeads * p : ℕ)
      (matmulSize m k n numHeads numKvHeads < 2 ^ 31) := by
  unfold sizeGPU
  simp only [int_mul, int_add, double_int hp]
  have hreads := (reads_int (matmulSize m k n numHeads numKvHeads)).mul_natCast p
  rw [← Nat.cast_mul] at hreads
  exact hreads.congr (or_iff_right hpos.ne')

theorem reads_size : Reads (size (int m) (int k) (int n) (int numHeads) (int numKvHeads) (int p))
    ((m * k * numHeads + k * n * numKvHeads) * p : ℕ)
    ((m * k * numHeads + k * n * numKvHeads) * p < 2 ^ 31) := by
  unfold size
  simp only [int_mul, int_add]
  exact reads_int _

theorem reads_contextSize : Reads (contextSize (int k) (int n) (int numKvHeads) (int p))
    (k * n * numKvHeads * p : ℕ) (k * n * numKvHeads * p < 2 ^ 31) := by
  unfold contextSize
  simp only [int_mul]
  exact reads_int _

theorem reads_headSize : Reads (headSize (int k) (int n) (int p)) (k * n * p : ℕ)
    (k * n * p < 2 ^ 31) := by
  unfold headSize
  simp only [int_mul]
  exact reads_int _

theorem reads_headSizeGPU (hkv : 0 < numKvHeads) (hkv' : numKvHeads < 2 ^ 31) (hp : p < 2 ^ 31)
    (hpos : 0 < p) :
    Reads (headSizeGPU (int m) (int k) (int n) (int numHeads) (int numKvHeads) (int p))
      ((m * k * numHeads / numKvHeads + k * n + m * n * numHeads / numKvHeads) * p : ℕ)
      (m * k * numHeads < 2 ^ 31 ∧ m * n * numHeads < 2 ^ 31
        ∧ m * k * numHeads / numKvHeads + k * n + m * n * numHeads / numKvHeads < 2 ^ 31) := by
  unfold headSizeGPU
  simp only [int_mul, double_int hp]
  have hreads := (reads_add_div (x := m * k * numHeads) (y := m * n * numHeads) (z := k * n)
    hkv hkv').mul_natCast p
  rw [← Nat.cast_mul] at hreads
  exact hreads.congr (or_iff_right hpos.ne')

theorem reads_latentSizePIM (hm : m < 2 ^ 31) (hk : k < 2 ^ 31) (hn : n < 2 ^ 31)
    (hheads : numHeads < 2 ^ 31) (hp : p < 2 ^ 31) (hpos : 0 < p) :
    Reads (latentSizePIM (int m) (int k) (int n) (int numHeads) (int p))
      (matmulSize m k n numHeads 1 * p : ℕ) (k * n < 2 ^ 31) := by
  unfold latentSizePIM matmulSize
  rw [double_int hm, double_int hk, double_int hn, double_int hheads, double_int hp, int_mul]
  have hreads := (((Reads.refl (Nat.cast_nonneg (α := ℚ) (m * k * numHeads))).add
    (reads_int (k * n))).add (.refl (Nat.cast_nonneg (m * n * numHeads)))).mul_natCast p
  push_cast at hreads ⊢
  rw [mul_one]
  exact hreads.congr (by simp [hpos.ne'])

theorem reads_headFlops : Reads (headFlops (int m) (int k) (int n)) (m * k * n * 2 : ℕ)
    (m * k * n < 2 ^ 31) := by
  unfold headFlops
  rw [int_mul, int_mul]
  have hreads := (reads_int (m * k * n)).mul one_le_two
  exact_mod_cast hreads

theorem reads_latentHeadSize : Reads (latentHeadSize (int m) (int k) (int n) (int p))
    ((m * k + k * n + m * n) * p : ℕ) ((m * k + k * n + m * n) * p < 2 ^ 31) := by
  unfold latentHeadSize
  simp only [int_mul, int_add]
  exact reads_int _

theorem reads_flashMlaSize {d : ℕ} (hm : m < 2 ^ 31) (hk : k < 2 ^ 31) (hn : n < 2 ^ 31)
    (hd : d < 2 ^ 31) (hheads : numHeads < 2 ^ 31) (hp : p < 2 ^ 31) (hpos : 0 < numHeads * p) :
    Reads (flashMlaSize (int m) (int k) (int n) (int numHeads) (int p) (int d))
      ((m * k + n * k + n * d + m * d) * numHeads * p : ℕ) (m * k < 2 ^ 31) := by
  unfold flashMlaSize
  rw [double_int hm, double_int hk, double_int hn, double_int hd, double_int hheads,
    double_int hp, int_mul, mul_assoc, mul_assoc]
  have hreads := ((((reads_int (m * k)).add (.refl (Nat.cast_nonneg (n * k)))).add
    (.refl (Nat.cast_nonneg (n * d)))).add (.refl (Nat.cast_nonneg (m * d)))).mul_natCast
      (numHeads * p)
  push_cast at hreads ⊢
  exact hreads.congr (by simp [hpos.ne'])

theorem reads_flashAbsorbSize {l : ℕ} (hk : k < 2 ^ 31) (hn : n < 2 ^ 31) (hl : l < 2 ^ 31)
    (hheads : numHeads < 2 ^ 31) (hp : p < 2 ^ 31) (hpos : 0 < p) :
    Reads (flashAbsorbSize (int k) (int n) (int numHeads) (int p) (int l))
      ((numHeads * k + n * k + numHeads * l) * p : ℕ) (numHeads * k < 2 ^ 31) := by
  unfold flashAbsorbSize
  rw [double_int hk, double_int hn, double_int hl, double_int hheads, double_int hp, int_mul]
  have hreads := (((reads_int (numHeads * k)).add (.refl (Nat.cast_nonneg (n * k)))).add
    (.refl (Nat.cast_nonneg (numHeads * l)))).mul_natCast p
  push_cast at hreads ⊢
  exact hreads.congr (by simp [hpos.ne'])

end Products

/-! ### Tiles that fit in shared memory -/

section Tiles
variable {k p : ℕ}

theorem sharedRows_eq (hfit : 4 * k * p < 2 ^ 31) :
    sharedRows (int k) (int p) = ((256 * 1024 : ℕ) : ℚ) / (4 * k * p : ℕ) := by
  have hfour : (4 : Int32) = int 4 := rfl
  unfold sharedRows
  rw [hfour, int_mul, int_mul, double_int hfit]
  norm_num

theorem trunc_natCast_div (a b : ℕ) : Binary64.trunc ((a : ℚ) / b) = (a / b : ℕ) := by
  unfold Binary64.trunc
  rw [if_pos (by positivity), Rat.floor_natCast_div_natCast, Int.natCast_ediv]

theorem trunc_min_natCast_div (a b n : ℕ) :
    Binary64.trunc (min ((a : ℚ) / b) n) = (min (a / b) n : ℕ) := by
  unfold Binary64.trunc
  rw [if_pos (by positivity), Int.floor_mono.map_min, Rat.floor_natCast_div_natCast,
    Int.floor_natCast]
  exact (Nat.cast_min _ _).symm

theorem blocksGPU_eq (hk : k < 2 ^ 31) (hfit : 4 * k * p < 2 ^ 31) :
    blocksGPU (int k) (int p)
      = ⟨int (LatentSum.tilingGPU k p).blockR, int (LatentSum.tilingGPU k p).blockC⟩ := by
  unfold blocksGPU
  rw [sharedRows_eq hfit, double_int hk, trunc_min_natCast_div, trunc_natCast_div,
    Int32.ofInt_eq_ofNat, Int32.ofInt_eq_ofNat]
  rfl

theorem blocksLogic_eq (hfit : 4 * k * p < 2 ^ 31) :
    blocksLogic (int k) (int p)
      = ⟨int (LatentSum.tilingLogic k p).blockR, int (LatentSum.tilingLogic k p).blockC⟩ := by
  unfold blocksLogic
  rw [sharedRows_eq hfit, trunc_natCast_div, Int32.ofInt_eq_ofNat]
  rfl

theorem numTile_eq {m block : ℕ} (hblock : 0 < block) (hfit : m + block < 2 ^ 31) :
    numTile (int m) (int block) = int (LatentSum.numTile m block) := by
  unfold numTile LatentSum.numTile
  have hone : (1 : Int32) = int 1 := rfl
  have hsub : int (m + block) - int 1 = int (m + block - 1) :=
    (Int32.ofNat_sub _ _ (by omega)).symm
  rw [int_add, hone, hsub, int_div (by omega) (by omega)]

theorem numTile_lt {m block : ℕ} (hfit : m + block < 2 ^ 31) :
    LatentSum.numTile m block < 2 ^ 31 := calc
  LatentSum.numTile m block ≤ m + block - 1 := Nat.div_le_self ..
  _ < 2 ^ 31 := by omega

theorem numTile_eq_zero {m block : ℕ} (hblock : 0 < block) :
    LatentSum.numTile m block = 0 ↔ m = 0 := by
  unfold LatentSum.numTile
  rw [Nat.div_eq_zero_iff]
  omega

/-- Rows and columns of a block, as the executors hold them. -/
structure Small (t : LatentSum.Tiling) (m k headDim : ℕ) : Prop where
  blockR_pos : 0 < t.blockR
  blockC_pos : 0 < t.blockC
  blockR : m + t.blockR < 2 ^ 31
  blockC : m + t.blockC < 2 ^ 31
  query : t.blockR * k < 2 ^ 31
  output : t.blockR * headDim < 2 ^ 31
  norm : t.blockR + t.blockR < 2 ^ 31

variable {t : LatentSum.Tiling} {info : LayerInfo} {m : ℕ}

theorem flashFlops_eq (ht : Small t m (LatentSum.keyDim info) info.headDim) (hinfo : Held info p) :
    flashFlops ⟨int t.blockR, int t.blockC⟩ (int m) (int (LatentSum.keyDim info))
      (int info.headDim) (int info.numHeads) = LatentSum.flashFlops info t m := by
  have hr := ht.blockR
  have hc := ht.blockC
  unfold flashFlops LatentSum.flashFlops
  dsimp only
  rw [numTile_eq ht.blockR_pos hr, numTile_eq ht.blockC_pos hc, double_int (numTile_lt hr),
    double_int (numTile_lt hc), double_int (Nat.lt_of_add_left_lt hr),
    double_int (Nat.lt_of_add_left_lt hc), double_int hinfo.keyDim, double_int hinfo.headDim,
    double_int hinfo.numHeads]
  push_cast
  ring

/-- Of the four operands only keys and values may be too many. -/
theorem reads_flashSize {type : ProcessorType} {rates : Rates} {s : Sequence}
    (ht : Small t s.processed (LatentSum.keyDim info) info.headDim) (hinfo : Held info p)
    (hpos : 0 < p) :
    Reads (flashSize ⟨int t.blockR, int t.blockC⟩ (int s.processed) (int (LatentSum.keyDim info))
        (int info.headDim) (int info.numHeads) (int p))
      (LatentSum.flash type rates info p t s).memorySize
      (s.processed = 0 ∨ t.blockC * LatentSum.keyDim info + t.blockC * info.headDim < 2 ^ 31) := by
  have hr := ht.blockR
  have hc := ht.blockC
  unfold flashSize
  dsimp only
  rw [numTile_eq ht.blockR_pos hr, numTile_eq ht.blockC_pos hc, double_int (numTile_lt hr),
    double_int (numTile_lt hc), double_int hinfo.numHeads, double_int hinfo.precisionByte]
  simp only [int_mul, int_add]
  rw [double_int ht.query, double_int ht.output, double_int ht.norm, mul_assoc]
  have hzero := numTile_eq_zero (m := s.processed) ht.blockC_pos
  have hheads := info.numHeads_pos
  show Reads _ (((t.blockR * LatentSum.keyDim info * LatentSum.numTile s.processed t.blockR
      * LatentSum.numTile s.processed t.blockC
    + (t.blockC * LatentSum.keyDim info + t.blockC * info.headDim)
      * LatentSum.numTile s.processed t.blockC
    + 2 * (t.blockR * info.headDim) * LatentSum.numTile s.processed t.blockR
      * LatentSum.numTile s.processed t.blockC
    + 2 * (t.blockR + t.blockR) * LatentSum.numTile s.processed t.blockR
      * LatentSum.numTile s.processed t.blockC) * info.numHeads * p : ℕ) : ℚ) _
  generalize LatentSum.numTile s.processed t.blockR = r
  generalize LatentSum.numTile s.processed t.blockC = c at hzero
  have hcaches := (reads_int (t.blockC * LatentSum.keyDim info
    + t.blockC * info.headDim)).mul_natCast c
  have hreads := ((((Reads.refl (Nat.cast_nonneg (α := ℚ)
    (t.blockR * LatentSum.keyDim info * r * c))).add hcaches).add
    (.refl (Nat.cast_nonneg (2 * (t.blockR * info.headDim) * r * c)))).add
    (.refl (Nat.cast_nonneg (2 * (t.blockR + t.blockR) * r * c)))).mul_natCast (info.numHeads * p)
  push_cast at hreads ⊢
  rw [mul_assoc _ (info.numHeads : ℚ)]
  exact hreads.congr (by simp [hzero, hheads.ne', hpos.ne'])

/-- Where a row of four operands fits in shared memory, the dimensions are small. -/
theorem rows_mul_le (h : LatentSum.blockRows k p ≠ 0) :
    4 * k * p ≤ 2 ^ 18 ∧ 0 < k ∧ LatentSum.blockRows k p * k ≤ 2 ^ 16 := by
  have hmul : LatentSum.blockRows k p * (4 * k * p) ≤ 256 * 1024 := Nat.div_mul_le_self _ _
  have hpos : 0 < LatentSum.blockRows k p := Nat.pos_of_ne_zero h
  have hdiv : 0 < 4 * k * p := by
    by_contra hzero
    exact h (by simp [LatentSum.blockRows, Nat.eq_zero_of_not_pos hzero])
  have hk : 0 < k := by
    by_contra hzero
    simp [Nat.eq_zero_of_not_pos hzero] at hdiv
  have hp : 1 ≤ p := by
    by_contra hzero
    simp [Nat.eq_zero_of_not_pos hzero] at hdiv
  have hrow : 4 * k * p ≤ LatentSum.blockRows k p * (4 * k * p) := Nat.le_mul_of_pos_left _ hpos
  have hbyte : LatentSum.blockRows k p * k * 1 ≤ LatentSum.blockRows k p * k * p :=
    Nat.mul_le_mul_left _ hp
  have hsplit : LatentSum.blockRows k p * (4 * k * p) = 4 * (LatentSum.blockRows k p * k * p) := by
    ring
  refine ⟨by omega, hk, ?_⟩
  omega

theorem small_tilingGPU {d : ℕ} (h : LatentSum.blockRows k p ≠ 0) (hm : m ≤ 2 ^ 30) (hd : d ≤ k) :
    Small (LatentSum.tilingGPU k p) m k d := by
  obtain ⟨-, hk, hrows⟩ := rows_mul_le h
  have hpos : 0 < LatentSum.blockRows k p := Nat.pos_of_ne_zero h
  have hle : LatentSum.blockRows k p ≤ LatentSum.blockRows k p * k := Nat.le_mul_of_pos_right _ hk
  have hmin : min (LatentSum.blockRows k p) k ≤ LatentSum.blockRows k p := min_le_left ..
  have hquery := Nat.mul_le_mul_right k hmin
  have houtput := Nat.mul_le_mul hmin hd
  constructor <;> dsimp only [LatentSum.tilingGPU] <;> omega

theorem small_tilingLogic {d : ℕ} (h : LatentSum.blockRows k p ≠ 0) (hm : m ≤ 2 ^ 30)
    (hd : d ≤ k) : Small (LatentSum.tilingLogic k p) m k d := by
  obtain ⟨hfit, hk, hrows⟩ := rows_mul_le h
  have hpos : 0 < LatentSum.blockRows k p := Nat.pos_of_ne_zero h
  have hle : LatentSum.blockRows k p ≤ LatentSum.blockRows k p * k := Nat.le_mul_of_pos_right _ hk
  have hle' : k ≤ LatentSum.blockRows k p * k := Nat.le_mul_of_pos_left _ hpos
  have houtput := Nat.mul_le_mul_left (LatentSum.blockRows k p) hd
  constructor <;> dsimp only [LatentSum.tilingLogic] <;> omega

end Tiles

end IntWork

end Executor
end LlmSystem
