import LlmSystem.Executor.Nearbank
import LlmSystem.Lib.Overflow
import Mathlib.Algebra.Order.Floor.Ring
import Mathlib.Tactic.GCongr
import Mathlib.Tactic.Linarith
import Mathlib.Tactic.NormNum

/-!
The latency of `NearbankPIMUnit::computeGEMVLatency`: while the processing elements compute on one
row buffer the next one is filled, and every fill of several takes the time of a whole row buffer.
The number of the fills is an `int`, and one that does not hold them counts a single fill.
-/
namespace LlmSystem

open Overflow

/-- With the field that only the latency reads. -/
structure NearbankPIMUnit extends NearbankPIMConfig where
  rowbufferSizeBytes : ℚ := 2048
  deriving DecidableEq, Repr

/-- With the fields that the executors do not read. -/
structure NearbankLatency extends NearbankGEMVResult where
  latencyNs : ℚ := 0
  baseGemvTimeNs : ℚ := 0
  totalBytes : ℚ := 0
  bytesPerBank : ℚ := 0
  reductionOps : ℚ := 0
  numRowbufferFills : ℤ := 0
  deriving DecidableEq, Repr

namespace NearbankPIMUnit
variable (u : NearbankPIMUnit)

/-- One fill of a whole row buffer. -/
def timePerRbFill : ℚ := u.rowbufferSizeBytes / u.dramToRbBwPerBank * 10 ^ 9

/-- `static_cast<int>` of `std::ceil`, at least 1. -/
def rowbufferFills (bytesPerBank : ℚ) : ℤ :=
  if castInt ⌈bytesPerBank / u.rowbufferSizeBytes⌉ < 1 then 1
  else castInt ⌈bytesPerBank / u.rowbufferSizeBytes⌉

/-- The formula of all three steps, for one and for several row buffers. -/
def pipelined (bytesPerBank totalPe : ℚ) : ℚ :=
  if bytesPerBank ≤ u.rowbufferSizeBytes then
    max (bytesPerBank / u.dramToRbBwPerBank * 10 ^ 9) totalPe
  else
    let firstFill := u.timePerRbFill
    let remainingFill := (u.rowbufferFills bytesPerBank - 1) * u.timePerRbFill
    firstFill + max remainingFill totalPe

/-- `computeGEMVLatency` in its order: the product, the sums of an asymmetric quantization and the
dequantization, which is added to the time of the elements last. -/
def computeGEMVLatency (m k n dataElementSize computeElementSize : ℕ) : NearbankLatency :=
  let bytesPerElement := u.bytesPerElement dataElementSize
  let peElementsPerCycle := u.peElementsPerCycle dataElementSize computeElementSize
  let peCycleForCompute := u.peCycleForCompute computeElementSize
  let totalElements : ℚ := m * k + k * n + m * n
  let totalBytes := totalElements * bytesPerElement
  let bytesPerBank := totalBytes / u.numPimBanks
  let elementsPerBank := totalElements / u.numPimBanks
  let peComputeTimeNs := elementsPerBank / peElementsPerCycle * peCycleForCompute
  let base : NearbankLatency :=
    { totalBytes
      bytesPerBank
      numRowbufferFills := u.rowbufferFills bytesPerBank
      rowbufferTimeNs := bytesPerBank / u.dramToRbBwPerBank * 10 ^ 9
      peComputeTimeNs
      baseGemvTimeNs := u.pipelined bytesPerBank peComputeTimeNs }
  let reduced :=
    if u.enableAsymmetricQuant then
      let reductionOps : ℚ := m * k + n * k
      let reductionTimeNs :=
        reductionOps / u.numPimBanks / peElementsPerCycle * peCycleForCompute
      { base with
        reductionOps
        reductionTimeNs
        latencyNs := u.pipelined bytesPerBank (peComputeTimeNs + reductionTimeNs) }
    else { base with latencyNs := base.baseGemvTimeNs }
  let implicitDequant := dataElementSize ≤ 1 ∧ 2 ≤ computeElementSize
  if implicitDequant ∨
      (u.enablePimDequant ∧ dataElementSize ≤ 1 ∧ 2 ≤ computeElementSize) then
    let dequantOps : ℚ := 2 * (k * n)
    let lowbitPeRate := u.peLowbitWidthBytes * (8 / u.kvCacheBits)
    let dequantPeTime := dequantOps / u.numPimBanks / lowbitPeRate * u.peLowbitCycleTimeNs
    { reduced with
      latencyNs := u.pipelined bytesPerBank
        (reduced.peComputeTimeNs + reduced.reductionTimeNs + dequantPeTime)
      peComputeTimeNs := reduced.peComputeTimeNs + dequantPeTime }
  else reduced

/-- Bytes of the three matrices in a bank. -/
def bankBytes (m k n dataElementSize : ℕ) : ℚ :=
  (m * k + k * n + m * n) * u.bytesPerElement dataElementSize / u.numPimBanks

/-- An `int` holds the number of the row buffers. -/
def FillsHeld (bytesPerBank : ℚ) : Prop := ⌈bytesPerBank / u.rowbufferSizeBytes⌉ < 2 ^ 31

/-- The time of the processing elements for all they do. -/
def elementTime (m k n dataElementSize computeElementSize : ℕ) : ℚ :=
  (m * k + k * n + m * n) / u.numPimBanks
      / u.peElementsPerCycle dataElementSize computeElementSize
      * u.peCycleForCompute computeElementSize
    + (if u.enableAsymmetricQuant then
        (m * k + n * k) / u.numPimBanks / u.peElementsPerCycle dataElementSize computeElementSize
          * u.peCycleForCompute computeElementSize
      else 0)
    + u.dequantTime dataElementSize computeElementSize k n

variable {u} {m k n dataElementSize computeElementSize : ℕ}

/-- The times that the executors read. -/
theorem toNearbankGEMVResult_eq :
    (u.computeGEMVLatency m k n dataElementSize computeElementSize).toNearbankGEMVResult
      = u.toNearbankPIMConfig.computeGEMVLatency m k n dataElementSize computeElementSize := by
  unfold computeGEMVLatency NearbankPIMConfig.computeGEMVLatency NearbankPIMConfig.dequantTime
  by_cases hdequant : dataElementSize ≤ 1 ∧ 2 ≤ computeElementSize
  · by_cases hasym : u.enableAsymmetricQuant
    · simp [hdequant, hasym]
    · simp [hdequant, hasym]
  · by_cases hasym : u.enableAsymmetricQuant
    · simp [hdequant, hasym]
    · simp [hdequant, hasym]

/-- Whatever is switched on, the latency is that of all bytes and all computing. -/
theorem latencyNs_eq :
    (u.computeGEMVLatency m k n dataElementSize computeElementSize).latencyNs
      = u.pipelined (u.bankBytes m k n dataElementSize)
          (u.elementTime m k n dataElementSize computeElementSize) := by
  unfold computeGEMVLatency bankBytes elementTime NearbankPIMConfig.dequantTime
  by_cases hdequant : dataElementSize ≤ 1 ∧ 2 ≤ computeElementSize
  · by_cases hasym : u.enableAsymmetricQuant
    · simp [hdequant, hasym]
    · simp [hdequant, hasym]
  · by_cases hasym : u.enableAsymmetricQuant
    · simp [hdequant, hasym]
    · simp [hdequant, hasym]

/-- The time without any overlap. -/
def sequentialTime (r : NearbankLatency) : ℚ :=
  r.rowbufferTimeNs + r.peComputeTimeNs + r.reductionTimeNs

theorem sequentialTime_eq :
    sequentialTime (u.computeGEMVLatency m k n dataElementSize computeElementSize)
      = u.bankBytes m k n dataElementSize / u.dramToRbBwPerBank * 10 ^ 9
        + u.elementTime m k n dataElementSize computeElementSize := by
  have hresult := @toNearbankGEMVResult_eq u m k n dataElementSize computeElementSize
  unfold sequentialTime
  rw [hresult]
  unfold NearbankPIMConfig.computeGEMVLatency bankBytes elementTime
  dsimp only
  split_ifs
  · ring
  · ring

/-- A configuration that describes a device. -/
structure Positive (u : NearbankPIMUnit) : Prop where
  numPimBanks : 0 < u.numPimBanks
  peWidthBytes : 0 < u.peWidthBytes
  peCycleTimeNs : 0 < u.peCycleTimeNs
  peLowbitWidthBytes : 0 < u.peLowbitWidthBytes
  peLowbitCycleTimeNs : 0 < u.peLowbitCycleTimeNs
  dramToRbBwPerBank : 0 < u.dramToRbBwPerBank
  kvCacheBits : 0 < u.kvCacheBits
  rowbufferSizeBytes : 0 < u.rowbufferSizeBytes

namespace Positive

theorem banks_cast (hu : u.Positive) : (0 : ℚ) < u.numPimBanks := Nat.cast_pos.mpr hu.numPimBanks

theorem bits_cast (hu : u.Positive) : (0 : ℚ) < u.kvCacheBits := Nat.cast_pos.mpr hu.kvCacheBits

theorem peElementsPerCycle (hu : u.Positive) (hcompute : 0 < computeElementSize) :
    0 < u.peElementsPerCycle dataElementSize computeElementSize := by
  have hbits := hu.bits_cast
  have hwidth := hu.peWidthBytes
  have hlowbit := hu.peLowbitWidthBytes
  have hsize : (0 : ℚ) < computeElementSize := Nat.cast_pos.mpr hcompute
  unfold NearbankPIMConfig.peElementsPerCycle
  split_ifs
  · positivity
  · positivity
  · positivity

theorem peCycleForCompute (hu : u.Positive) : 0 < u.peCycleForCompute computeElementSize := by
  unfold NearbankPIMConfig.peCycleForCompute
  split_ifs
  · exact hu.peLowbitCycleTimeNs
  · exact hu.peCycleTimeNs

theorem lowbitRate (hu : u.Positive) : 0 < u.peLowbitWidthBytes * (8 / (u.kvCacheBits : ℚ)) :=
  mul_pos hu.peLowbitWidthBytes (div_pos (by norm_num) hu.bits_cast)

end Positive

theorem bytesPerElement_nonneg : 0 ≤ u.bytesPerElement dataElementSize := by
  unfold NearbankPIMConfig.bytesPerElement
  split_ifs
  · positivity
  · positivity

theorem bankBytes_nonneg : 0 ≤ u.bankBytes m k n dataElementSize := by
  have hbytes := @bytesPerElement_nonneg u dataElementSize
  unfold bankBytes
  positivity

/-! ### Against the time without overlap -/

/-- The time in which the rest of the last row buffer is filled, with no data in it. -/
def emptyFillTime (u : NearbankPIMUnit) (bytesPerBank : ℚ) : ℚ :=
  (⌈bytesPerBank / u.rowbufferSizeBytes⌉ * u.rowbufferSizeBytes - bytesPerBank)
    / u.dramToRbBwPerBank * 10 ^ 9

theorem timePerRbFill_nonneg (hu : u.Positive) : 0 ≤ u.timePerRbFill := by
  have hsize := hu.rowbufferSizeBytes
  have hbw := hu.dramToRbBwPerBank
  unfold timePerRbFill
  positivity

/-- More bytes than a row buffer has need more than one fill. -/
theorem one_lt_ceil (hu : u.Positive) {bytesPerBank : ℚ}
    (h : u.rowbufferSizeBytes < bytesPerBank) : 1 < ⌈bytesPerBank / u.rowbufferSizeBytes⌉ := by
  have hmore : 1 < bytesPerBank / u.rowbufferSizeBytes := (one_lt_div hu.rowbufferSizeBytes).mpr h
  apply Int.lt_ceil.mpr
  exact_mod_cast hmore

theorem rowbufferFills_of_lt (hu : u.Positive) {bytesPerBank : ℚ}
    (h : u.rowbufferSizeBytes < bytesPerBank) (hheld : u.FillsHeld bytesPerBank) :
    u.rowbufferFills bytesPerBank = ⌈bytesPerBank / u.rowbufferSizeBytes⌉ := by
  have hfills := one_lt_ceil hu h
  unfold rowbufferFills
  rw [castInt_of_lt (by omega) hheld]
  exact if_neg (not_lt.mpr hfills.le)

/-- The smallest `int` is below 1. -/
theorem rowbufferFills_of_not_held {bytesPerBank : ℚ} (hheld : ¬ u.FillsHeld bytesPerBank) :
    u.rowbufferFills bytesPerBank = 1 := by
  unfold rowbufferFills
  rw [castInt_of_le (not_lt.mp hheld)]
  rfl

/-- All fills of several, or all computing after the first one. -/
theorem pipelined_of_lt (hu : u.Positive) {bytesPerBank totalPe : ℚ}
    (h : u.rowbufferSizeBytes < bytesPerBank) (hheld : u.FillsHeld bytesPerBank) :
    u.pipelined bytesPerBank totalPe
      = max (⌈bytesPerBank / u.rowbufferSizeBytes⌉ * u.timePerRbFill)
          (u.timePerRbFill + totalPe) := by
  unfold pipelined
  rw [if_neg (not_le.mpr h), rowbufferFills_of_lt hu h hheld, ← max_add_add_left]
  congr 1
  ring

/-- Without the count, one fill and all computing. -/
theorem pipelined_of_not_held {bytesPerBank totalPe : ℚ} (h : u.rowbufferSizeBytes < bytesPerBank)
    (hheld : ¬ u.FillsHeld bytesPerBank) (hpe : 0 ≤ totalPe) :
    u.pipelined bytesPerBank totalPe = u.timePerRbFill + totalPe := by
  unfold pipelined
  rw [if_neg (not_le.mpr h), rowbufferFills_of_not_held hheld]
  dsimp only
  rw [Int.cast_one, sub_self, zero_mul, max_eq_right hpe]

theorem FillsHeld.of_le (hu : u.Positive) {bytesPerBank : ℚ}
    (h : bytesPerBank ≤ u.rowbufferSizeBytes) : u.FillsHeld bytesPerBank := by
  have hceil : ⌈bytesPerBank / u.rowbufferSizeBytes⌉ ≤ 1 := by
    apply Int.ceil_le.mpr
    exact_mod_cast (div_le_one hu.rowbufferSizeBytes).mpr h
  exact hceil.trans_lt (by norm_num)

/-- The first fill is no longer than that of all data. -/
theorem timePerRbFill_le (hu : u.Positive) {bytesPerBank : ℚ}
    (h : u.rowbufferSizeBytes < bytesPerBank) :
    u.timePerRbFill ≤ bytesPerBank / u.dramToRbBwPerBank * 10 ^ 9 := by
  have hbw := hu.dramToRbBwPerBank
  have hle := h.le
  unfold timePerRbFill
  gcongr

theorem pipelined_le_iff (hu : u.Positive) {bytesPerBank totalPe : ℚ} (hbytes : 0 ≤ bytesPerBank)
    (hpe : 0 ≤ totalPe) :
    u.pipelined bytesPerBank totalPe ≤ bytesPerBank / u.dramToRbBwPerBank * 10 ^ 9 + totalPe ↔
      bytesPerBank ≤ u.rowbufferSizeBytes ∨ ¬ u.FillsHeld bytesPerBank ∨
        u.emptyFillTime bytesPerBank ≤ totalPe := by
  have hbw := hu.dramToRbBwPerBank
  have hfill : 0 ≤ bytesPerBank / u.dramToRbBwPerBank * 10 ^ 9 := by positivity
  by_cases hone : bytesPerBank ≤ u.rowbufferSizeBytes
  · unfold pipelined
    rw [if_pos hone]
    refine iff_of_true ?_ (.inl hone)
    apply max_le
    · linarith
    · linarith
  · have hmore := not_le.mp hone
    have hfirst := timePerRbFill_le hu hmore
    by_cases hheld : u.FillsHeld bytesPerBank
    · have hall : ⌈bytesPerBank / u.rowbufferSizeBytes⌉ * u.timePerRbFill
          = u.emptyFillTime bytesPerBank + bytesPerBank / u.dramToRbBwPerBank * 10 ^ 9 := by
        unfold timePerRbFill emptyFillTime
        ring
      rw [pipelined_of_lt hu hmore hheld, max_le_iff, hall, or_iff_right hone,
        or_iff_right (not_not.mpr hheld)]
      constructor
      · rintro ⟨hfills, -⟩
        linarith
      · intro hempty
        constructor
        · linarith
        · linarith
    · rw [pipelined_of_not_held hmore hheld hpe]
      exact iff_of_true (by linarith) (.inr (.inl hheld))

theorem dequantTime_nonneg (hu : u.Positive) :
    0 ≤ u.dequantTime dataElementSize computeElementSize k n := by
  have hrate := hu.lowbitRate
  have hcycle := hu.peLowbitCycleTimeNs
  unfold NearbankPIMConfig.dequantTime
  split_ifs
  · positivity
  · exact le_refl 0

theorem rate_nonneg (hu : u.Positive) :
    0 ≤ u.peElementsPerCycle dataElementSize computeElementSize := by
  have hwidth := hu.peWidthBytes
  have hlowbit := hu.peLowbitWidthBytes
  unfold NearbankPIMConfig.peElementsPerCycle
  split_ifs
  · positivity
  · positivity
  · positivity

theorem elementTime_nonneg (hu : u.Positive) :
    0 ≤ u.elementTime m k n dataElementSize computeElementSize := by
  have hrate : 0 ≤ u.peElementsPerCycle dataElementSize computeElementSize := rate_nonneg hu
  have hcycle : 0 < u.peCycleForCompute computeElementSize := hu.peCycleForCompute
  have hdequant : 0 ≤ u.dequantTime dataElementSize computeElementSize k n :=
    dequantTime_nonneg hu
  unfold elementTime
  split_ifs
  · positivity
  · positivity

/-- Pipelining costs no time exactly when the bytes of a bank fit into one row buffer, or need more
of them than an `int` counts, or the elements compute at least as long as the empty part of the last
row buffer is filled. -/
theorem latency_le_sequential_iff (hu : u.Positive) :
    (u.computeGEMVLatency m k n dataElementSize computeElementSize).latencyNs
        ≤ sequentialTime (u.computeGEMVLatency m k n dataElementSize computeElementSize) ↔
      u.bankBytes m k n dataElementSize ≤ u.rowbufferSizeBytes ∨
        ¬ u.FillsHeld (u.bankBytes m k n dataElementSize) ∨
        u.emptyFillTime (u.bankBytes m k n dataElementSize)
          ≤ u.elementTime m k n dataElementSize computeElementSize := by
  rw [latencyNs_eq, sequentialTime_eq]
  exact pipelined_le_iff hu bankBytes_nonneg (elementTime_nonneg hu)

/-- The configuration of `test_pipelining`. -/
def slowDram : NearbankPIMUnit where
  numPimBanks := 64
  peWidthBytes := 32
  peCycleTimeNs := 1 / 4
  dramToRbBwPerBank := 10 * 10 ^ 9
  rowbufferSizeBytes := 512

theorem slowDram_positive : slowDram.Positive := by
  constructor <;> norm_num [slowDram]

/-- A product of which each bank has less than a row buffer. -/
theorem latency_le_sequential_short :
    (slowDram.computeGEMVLatency 1 128 48 2 2).latencyNs
      ≤ sequentialTime (slowDram.computeGEMVLatency 1 128 48 2 2) :=
  (latency_le_sequential_iff slowDram_positive).mpr (.inl (by
    norm_num [bankBytes, slowDram, NearbankPIMConfig.bytesPerElement]))

/-- The product of `test_pipelining`: nine row buffers for the data of a little more than eight. -/
theorem latency_exceeds_sequential :
    sequentialTime (slowDram.computeGEMVLatency 1 128 1024 2 2)
      < (slowDram.computeGEMVLatency 1 128 1024 2 2).latencyNs := by
  have hceil : ⌈(1033 / 128 : ℚ)⌉ = 9 := by norm_num [Int.ceil_eq_iff]
  rw [latencyNs_eq, sequentialTime_eq]
  norm_num [bankBytes, elementTime, pipelined, rowbufferFills, castInt, timePerRbFill, slowDram,
    NearbankPIMConfig.bytesPerElement, NearbankPIMConfig.peElementsPerCycle,
    NearbankPIMConfig.peCycleForCompute, NearbankPIMConfig.dequantTime, hceil]

/-! ### Monotonicity -/

/-- No faster in any respect, with the same row buffers and switches. -/
structure Slower (u u' : NearbankPIMUnit) : Prop where
  numPimBanks : u'.numPimBanks ≤ u.numPimBanks
  peWidthBytes : u'.peWidthBytes ≤ u.peWidthBytes
  peCycleTimeNs : u.peCycleTimeNs ≤ u'.peCycleTimeNs
  peLowbitWidthBytes : u'.peLowbitWidthBytes ≤ u.peLowbitWidthBytes
  peLowbitCycleTimeNs : u.peLowbitCycleTimeNs ≤ u'.peLowbitCycleTimeNs
  dramToRbBwPerBank : u'.dramToRbBwPerBank ≤ u.dramToRbBwPerBank
  kvCacheBits : u.kvCacheBits ≤ u'.kvCacheBits
  rowbufferSizeBytes : u'.rowbufferSizeBytes = u.rowbufferSizeBytes
  enableAsymmetricQuant : u'.enableAsymmetricQuant = u.enableAsymmetricQuant
  enablePimDequant : u'.enablePimDequant = u.enablePimDequant

variable {u' : NearbankPIMUnit} {m' k' n' : ℕ}

theorem bytesPerElement_mono (h : u.Slower u') :
    u.bytesPerElement dataElementSize ≤ u'.bytesPerElement dataElementSize := by
  have hbits : (u.kvCacheBits : ℚ) ≤ u'.kvCacheBits := Nat.cast_le.mpr h.kvCacheBits
  unfold NearbankPIMConfig.bytesPerElement
  split_ifs
  · linarith
  · exact le_refl _

theorem peElementsPerCycle_anti (hu : u.Positive) (hu' : u'.Positive) (h : u.Slower u') :
    u'.peElementsPerCycle dataElementSize computeElementSize
      ≤ u.peElementsPerCycle dataElementSize computeElementSize := by
  have hbits : (u.kvCacheBits : ℚ) ≤ u'.kvCacheBits := Nat.cast_le.mpr h.kvCacheBits
  have hpos := hu.bits_cast
  have hpos' := hu'.bits_cast
  have hwidth := hu.peWidthBytes.le
  have hwidth' := h.peWidthBytes
  have hlowbit := hu.peLowbitWidthBytes.le
  have hlowbit' := h.peLowbitWidthBytes
  unfold NearbankPIMConfig.peElementsPerCycle
  split_ifs
  · gcongr
  · gcongr
  · gcongr

theorem peCycleForCompute_mono (h : u.Slower u') :
    u.peCycleForCompute computeElementSize ≤ u'.peCycleForCompute computeElementSize := by
  unfold NearbankPIMConfig.peCycleForCompute
  split_ifs
  · exact h.peLowbitCycleTimeNs
  · exact h.peCycleTimeNs

theorem bankBytes_mono (hu' : u'.Positive) (h : u.Slower u') (hm : m ≤ m') (hk : k ≤ k')
    (hn : n ≤ n') :
    u.bankBytes m k n dataElementSize ≤ u'.bankBytes m' k' n' dataElementSize := by
  have hbytes : u.bytesPerElement dataElementSize ≤ u'.bytesPerElement dataElementSize :=
    bytesPerElement_mono h
  have hnonneg := @bytesPerElement_nonneg u dataElementSize
  have hnonneg' := hnonneg.trans hbytes
  have hbanks := hu'.banks_cast
  have hbanks' : (u'.numPimBanks : ℚ) ≤ u.numPimBanks := Nat.cast_le.mpr h.numPimBanks
  unfold bankBytes
  gcongr

/-- Operations that the banks share, at some rate of each. -/
theorem share_mono {x x' banks banks' rate rate' cycle cycle' : ℚ} (hx : 0 ≤ x) (hxx : x ≤ x')
    (hbanks : 0 < banks') (hbb : banks' ≤ banks) (hrate : 0 < rate') (hrr : rate' ≤ rate)
    (hcycle : 0 ≤ cycle) (hcc : cycle ≤ cycle') :
    x / banks / rate * cycle ≤ x' / banks' / rate' * cycle' := by
  have hx' : 0 ≤ x' := hx.trans hxx
  have hbanks' : 0 < banks := hbanks.trans_le hbb
  have hrate' : 0 < rate := hrate.trans_le hrr
  gcongr

theorem dequantTime_mono (hu : u.Positive) (hu' : u'.Positive) (h : u.Slower u') (hk : k ≤ k')
    (hn : n ≤ n') :
    u.dequantTime dataElementSize computeElementSize k n
      ≤ u'.dequantTime dataElementSize computeElementSize k' n' := by
  have hbanks : (u'.numPimBanks : ℚ) ≤ u.numPimBanks := Nat.cast_le.mpr h.numPimBanks
  have hbits : (u.kvCacheBits : ℚ) ≤ u'.kvCacheBits := Nat.cast_le.mpr h.kvCacheBits
  have hpos := hu.bits_cast
  have hlowbit := hu.peLowbitWidthBytes.le
  have hlowbit' := h.peLowbitWidthBytes
  have hrate : u'.peLowbitWidthBytes * (8 / (u'.kvCacheBits : ℚ))
      ≤ u.peLowbitWidthBytes * (8 / (u.kvCacheBits : ℚ)) := by
    gcongr
  unfold NearbankPIMConfig.dequantTime
  split_ifs
  · apply share_mono (by positivity) _ hu'.banks_cast hbanks hu'.lowbitRate hrate
      hu.peLowbitCycleTimeNs.le h.peLowbitCycleTimeNs
    gcongr
  · exact le_refl 0

theorem elementTime_mono (hu : u.Positive) (hu' : u'.Positive) (h : u.Slower u')
    (hcompute : 0 < computeElementSize) (hm : m ≤ m') (hk : k ≤ k') (hn : n ≤ n') :
    u.elementTime m k n dataElementSize computeElementSize
      ≤ u'.elementTime m' k' n' dataElementSize computeElementSize := by
  have hbanks : (u'.numPimBanks : ℚ) ≤ u.numPimBanks := Nat.cast_le.mpr h.numPimBanks
  have hrate : 0 < u'.peElementsPerCycle dataElementSize computeElementSize :=
    hu'.peElementsPerCycle hcompute
  have hrates : u'.peElementsPerCycle dataElementSize computeElementSize
      ≤ u.peElementsPerCycle dataElementSize computeElementSize := peElementsPerCycle_anti hu hu' h
  have hcycle : 0 < u.peCycleForCompute computeElementSize := hu.peCycleForCompute
  have hcycles : u.peCycleForCompute computeElementSize ≤ u'.peCycleForCompute computeElementSize :=
    peCycleForCompute_mono h
  have hdequant : u.dequantTime dataElementSize computeElementSize k n
      ≤ u'.dequantTime dataElementSize computeElementSize k' n' := dequantTime_mono hu hu' h hk hn
  have hproduct : (m * k + k * n + m * n : ℚ) ≤ m' * k' + k' * n' + m' * n' := by gcongr
  have hsums : (m * k + n * k : ℚ) ≤ m' * k' + n' * k' := by gcongr
  have hmain := share_mono (by positivity) hproduct hu'.banks_cast hbanks hrate hrates hcycle.le
    hcycles
  have hreduction := share_mono (by positivity) hsums hu'.banks_cast hbanks hrate hrates hcycle.le
    hcycles
  unfold elementTime
  rw [h.enableAsymmetricQuant]
  split_ifs
  · linarith
  · linarith

theorem timePerRbFill_mono (hu : u.Positive) (hu' : u'.Positive) (h : u.Slower u') :
    u.timePerRbFill ≤ u'.timePerRbFill := by
  have hsize := hu.rowbufferSizeBytes
  have hbw' := hu'.dramToRbBwPerBank
  have hbws := h.dramToRbBwPerBank
  unfold timePerRbFill
  rw [h.rowbufferSizeBytes]
  gcongr

theorem ceil_mono (hu : u.Positive) (h : u.Slower u') {bytes bytes' : ℚ} (hbytes : bytes ≤ bytes') :
    ⌈bytes / u.rowbufferSizeBytes⌉ ≤ ⌈bytes' / u'.rowbufferSizeBytes⌉ := by
  have hsize := hu.rowbufferSizeBytes
  rw [h.rowbufferSizeBytes]
  apply Int.ceil_le_ceil
  gcongr

theorem FillsHeld.anti (hu : u.Positive) (h : u.Slower u') {bytes bytes' : ℚ}
    (hbytes : bytes ≤ bytes') (hheld : u'.FillsHeld bytes') : u.FillsHeld bytes :=
  (ceil_mono hu h hbytes).trans_lt hheld

/-- Also where the bytes of a bank no longer fit into one row buffer, the latency does not fall:
the first fill of several takes at least the time of the single one. -/
theorem pipelined_mono (hu : u.Positive) (hu' : u'.Positive) (h : u.Slower u')
    {bytes bytes' pe pe' : ℚ} (hnonneg : 0 ≤ bytes) (hbytes : bytes ≤ bytes') (hpe : 0 ≤ pe)
    (hpes : pe ≤ pe') (hheld : u'.FillsHeld bytes') :
    u.pipelined bytes pe ≤ u'.pipelined bytes' pe' := by
  have hbw := hu.dramToRbBwPerBank
  have hbw' := hu'.dramToRbBwPerBank
  have hbws := h.dramToRbBwPerBank
  have hfill := timePerRbFill_mono hu hu' h
  have hfill0 := timePerRbFill_nonneg hu
  have hsingle : bytes / u.dramToRbBwPerBank * 10 ^ 9 ≤ bytes' / u'.dramToRbBwPerBank * 10 ^ 9 := by
    have hnonneg' : 0 ≤ bytes' := hnonneg.trans hbytes
    gcongr
  by_cases hshort' : bytes' ≤ u'.rowbufferSizeBytes
  · have hshort : bytes ≤ u.rowbufferSizeBytes :=
      (hbytes.trans hshort').trans h.rowbufferSizeBytes.le
    unfold pipelined
    rw [if_pos hshort', if_pos hshort]
    exact max_le_max hsingle hpes
  · have hmore' := not_le.mp hshort'
    rw [pipelined_of_lt hu' hmore' hheld]
    by_cases hshort : bytes ≤ u.rowbufferSizeBytes
    · have hfirst : bytes / u.dramToRbBwPerBank * 10 ^ 9 ≤ u.timePerRbFill := by
        unfold timePerRbFill
        gcongr
      unfold pipelined
      rw [if_pos hshort]
      apply le_max_of_le_right
      apply max_le
      · linarith
      · linarith
    · have hmore := not_le.mp hshort
      have hceil : (⌈bytes / u.rowbufferSizeBytes⌉ : ℚ) ≤ ⌈bytes' / u'.rowbufferSizeBytes⌉ :=
        Int.cast_le.mpr (ceil_mono hu h hbytes)
      have hone : (1 : ℚ) < ⌈bytes' / u'.rowbufferSizeBytes⌉ := by
        exact_mod_cast one_lt_ceil hu' hmore'
      rw [pipelined_of_lt hu hmore (hheld.anti hu h hbytes)]
      exact max_le_max (mul_le_mul hceil hfill hfill0 (by linarith)) (add_le_add hfill hpes)

/-- Where the larger product has too many fills to count, only the fills of the smaller one can take
longer. -/
theorem pipelined_le_of_not_held (hu : u.Positive) (hu' : u'.Positive) (h : u.Slower u')
    {bytes bytes' pe pe' : ℚ} (hpe : 0 ≤ pe) (hpes : pe ≤ pe') (hheld' : ¬ u'.FillsHeld bytes') :
    u.pipelined bytes pe ≤ u'.pipelined bytes' pe' ↔
      ¬ u.FillsHeld bytes ∨
        ⌈bytes / u.rowbufferSizeBytes⌉ * u.timePerRbFill ≤ u'.timePerRbFill + pe' := by
  have hsize := hu.rowbufferSizeBytes
  have hbw := hu.dramToRbBwPerBank
  have hfill := timePerRbFill_mono hu hu' h
  have hfill0 := timePerRbFill_nonneg hu
  have hmore' : u'.rowbufferSizeBytes < bytes' :=
    not_le.mp fun hshort' => hheld' (.of_le hu' hshort')
  rw [pipelined_of_not_held hmore' hheld' (hpe.trans hpes)]
  by_cases hshort : bytes ≤ u.rowbufferSizeBytes
  · have hfirst : bytes / u.dramToRbBwPerBank * 10 ^ 9 ≤ u.timePerRbFill := by
      unfold timePerRbFill
      gcongr
    have hceil : (⌈bytes / u.rowbufferSizeBytes⌉ : ℚ) ≤ 1 := by
      have hdiv : bytes / u.rowbufferSizeBytes ≤ 1 := (div_le_one hsize).mpr hshort
      exact_mod_cast Int.ceil_le.mpr (by exact_mod_cast hdiv)
    have hfills := mul_le_mul_of_nonneg_right hceil hfill0
    unfold pipelined
    rw [if_pos hshort]
    refine iff_of_true (max_le ?_ ?_) (.inr ?_)
    · linarith
    · linarith
    · linarith
  · have hmore := not_le.mp hshort
    by_cases hheld : u.FillsHeld bytes
    · rw [pipelined_of_lt hu hmore hheld, max_le_iff, or_iff_right (not_not.mpr hheld)]
      exact and_iff_left (add_le_add hfill hpes)
    · rw [pipelined_of_not_held hmore hheld hpe]
      exact iff_of_true (add_le_add hfill hpes) (.inl hheld)

/-- A unit that is no faster takes no less time for a product that is no smaller, exactly unless the
fills are counted for the smaller product only and take longer than one fill and the computing of the
larger. -/
theorem latency_mono_iff (hu : u.Positive) (hu' : u'.Positive) (h : u.Slower u')
    (hcompute : 0 < computeElementSize) (hm : m ≤ m') (hk : k ≤ k') (hn : n ≤ n') :
    (u.computeGEMVLatency m k n dataElementSize computeElementSize).latencyNs
        ≤ (u'.computeGEMVLatency m' k' n' dataElementSize computeElementSize).latencyNs ↔
      u'.FillsHeld (u'.bankBytes m' k' n' dataElementSize) ∨
        ¬ u.FillsHeld (u.bankBytes m k n dataElementSize) ∨
        ⌈u.bankBytes m k n dataElementSize / u.rowbufferSizeBytes⌉ * u.timePerRbFill
          ≤ u'.timePerRbFill + u'.elementTime m' k' n' dataElementSize computeElementSize := by
  have hpe : 0 ≤ u.elementTime m k n dataElementSize computeElementSize := elementTime_nonneg hu
  have hpes : u.elementTime m k n dataElementSize computeElementSize
      ≤ u'.elementTime m' k' n' dataElementSize computeElementSize :=
    elementTime_mono hu hu' h hcompute hm hk hn
  rw [latencyNs_eq, latencyNs_eq]
  by_cases hheld' : u'.FillsHeld (u'.bankBytes m' k' n' dataElementSize)
  · exact iff_of_true
      (pipelined_mono hu hu' h bankBytes_nonneg (bankBytes_mono hu' h hm hk hn) hpe hpes hheld')
      (.inl hheld')
  · rw [or_iff_right hheld']
    exact pipelined_le_of_not_held hu hu' h hpe hpes hheld'

/-- Half of the banks and four bits for two. -/
theorem latency_mono_banks :
    (slowDram.computeGEMVLatency 1 128 1024 1 2).latencyNs
      ≤ (computeGEMVLatency { slowDram with numPimBanks := 32, kvCacheBits := 4 }
          1 128 1024 1 2).latencyNs := by
  have hceil : ⌈(1033 / 256 : ℚ)⌉ = 5 := by norm_num [Int.ceil_eq_iff]
  refine (latency_mono_iff slowDram_positive ?_ ?_ (by norm_num) (le_refl 1) (le_refl 128)
    (le_refl 1024)).mpr (.inl ?_)
  · constructor <;> norm_num [slowDram]
  · constructor <;> norm_num [slowDram]
  · norm_num [FillsHeld, bankBytes, slowDram, NearbankPIMConfig.bytesPerElement, hceil]

/-- A single bank with wide elements. -/
def oneBank : NearbankPIMUnit where
  numPimBanks := 1
  peWidthBytes := 64

/-- Four times as many columns take the 1610612736 fills of a bank to 3221225472. -/
theorem latency_falls :
    (oneBank.computeGEMVLatency (2 ^ 20) (2 ^ 20) (2 ^ 20) 2 2).latencyNs
      < (oneBank.computeGEMVLatency (2 ^ 20) (2 ^ 20) (2 ^ 18) 2 2).latencyNs := by
  rw [latencyNs_eq, latencyNs_eq]
  norm_num [bankBytes, elementTime, pipelined, rowbufferFills, castInt, timePerRbFill, oneBank,
    NearbankPIMConfig.bytesPerElement, NearbankPIMConfig.peElementsPerCycle,
    NearbankPIMConfig.peCycleForCompute, NearbankPIMConfig.dequantTime]

/-! ### Overheads -/

theorem pipelined_le_of_le {bytes pe pe' : ℚ} (hpe : pe ≤ pe') :
    u.pipelined bytes pe ≤ u.pipelined bytes pe' := by
  unfold pipelined
  split_ifs
  · exact max_le_max_left _ hpe
  · exact (add_le_add_iff_left _).mpr (max_le_max_left _ hpe)

/-- More computing delays the result by no more than its own time. -/
theorem pipelined_add_le {bytes pe more : ℚ} (hmore : 0 ≤ more) :
    u.pipelined bytes (pe + more) ≤ u.pipelined bytes pe + more := by
  have hmax : ∀ fill : ℚ, max fill (pe + more) ≤ max fill pe + more := by
    intro fill
    have hfill := le_max_left fill pe
    have hpe := le_max_right fill pe
    apply max_le
    · linarith
    · linarith
  unfold pipelined
  split_ifs
  · exact hmax _
  · dsimp only
    rw [add_assoc]
    exact (add_le_add_iff_left _).mpr (hmax _)

theorem le_pipelined (hu : u.Positive) (bytes pe : ℚ) : pe ≤ u.pipelined bytes pe := by
  have hfill := timePerRbFill_nonneg hu
  unfold pipelined
  split_ifs
  · exact le_max_right _ _
  · have hpe := le_max_right ((u.rowbufferFills bytes - 1) * u.timePerRbFill) pe
    dsimp only
    linarith

/-- All fills together hold the data, since the last one is of a whole row buffer too. A single fill
holds it only together with the computing. -/
theorem fillTime_le_pipelined_iff (hu : u.Positive) {bytes pe : ℚ} (hpe : 0 ≤ pe) :
    bytes / u.dramToRbBwPerBank * 10 ^ 9 ≤ u.pipelined bytes pe ↔
      u.FillsHeld bytes ∨ bytes / u.dramToRbBwPerBank * 10 ^ 9 ≤ u.timePerRbFill + pe := by
  have hsize := hu.rowbufferSizeBytes
  have hbw := hu.dramToRbBwPerBank
  by_cases hone : bytes ≤ u.rowbufferSizeBytes
  · unfold pipelined
    rw [if_pos hone]
    exact iff_of_true (le_max_left _ _) (.inl (.of_le hu hone))
  · have hmore := not_le.mp hone
    by_cases hheld : u.FillsHeld bytes
    · have hbytes : bytes ≤ ⌈bytes / u.rowbufferSizeBytes⌉ * u.rowbufferSizeBytes :=
        (div_le_iff₀ hsize).mp (Int.le_ceil _)
      have hfills : bytes / u.dramToRbBwPerBank * 10 ^ 9
          ≤ ⌈bytes / u.rowbufferSizeBytes⌉ * u.timePerRbFill := by
        calc bytes / u.dramToRbBwPerBank * 10 ^ 9
            ≤ ⌈bytes / u.rowbufferSizeBytes⌉ * u.rowbufferSizeBytes / u.dramToRbBwPerBank
                * 10 ^ 9 := by gcongr
          _ = ⌈bytes / u.rowbufferSizeBytes⌉ * u.timePerRbFill := by
              unfold timePerRbFill
              ring
      rw [pipelined_of_lt hu hmore hheld]
      exact iff_of_true (le_max_of_le_left hfills) (.inl hheld)
    · rw [pipelined_of_not_held hmore hheld hpe, or_iff_right hheld]

theorem baseGemvTimeNs_eq :
    (u.computeGEMVLatency m k n dataElementSize computeElementSize).baseGemvTimeNs
      = u.pipelined (u.bankBytes m k n dataElementSize)
          ((m * k + k * n + m * n) / u.numPimBanks
            / u.peElementsPerCycle dataElementSize computeElementSize
            * u.peCycleForCompute computeElementSize) := by
  unfold computeGEMVLatency bankBytes
  dsimp only
  split_ifs
  · rfl
  · rfl
  · rfl
  · rfl

theorem rowbufferTimeNs_eq :
    (u.computeGEMVLatency m k n dataElementSize computeElementSize).rowbufferTimeNs
      = u.bankBytes m k n dataElementSize / u.dramToRbBwPerBank * 10 ^ 9 := by
  rw [toNearbankGEMVResult_eq]
  rfl

/-- The reported times of the elements are those of all they do. -/
theorem peComputeTimeNs_add :
    (u.computeGEMVLatency m k n dataElementSize computeElementSize).peComputeTimeNs
        + (u.computeGEMVLatency m k n dataElementSize computeElementSize).reductionTimeNs
      = u.elementTime m k n dataElementSize computeElementSize := by
  rw [toNearbankGEMVResult_eq]
  unfold NearbankPIMConfig.computeGEMVLatency elementTime
  ring

theorem reductionTimeNs_eq :
    (u.computeGEMVLatency m k n dataElementSize computeElementSize).reductionTimeNs
      = if u.enableAsymmetricQuant then
          (m * k + n * k) / u.numPimBanks / u.peElementsPerCycle dataElementSize computeElementSize
            * u.peCycleForCompute computeElementSize
        else 0 := by
  rw [toNearbankGEMVResult_eq]
  rfl

theorem reductionTimeNs_nonneg (hu : u.Positive) :
    0 ≤ (u.computeGEMVLatency m k n dataElementSize computeElementSize).reductionTimeNs := by
  have hrate := @rate_nonneg u dataElementSize computeElementSize hu
  have hcycle := (@Positive.peCycleForCompute u computeElementSize hu).le
  rw [reductionTimeNs_eq]
  split_ifs
  · positivity
  · exact le_refl 0

/-- The same unit with the sums of an asymmetric quantization, or without. -/
def withAsymmetricQuant (u : NearbankPIMUnit) (enabled : Bool) : NearbankPIMUnit :=
  { u with enableAsymmetricQuant := enabled }

/-- The sums only add to the time of the elements. -/
theorem elementTime_withAsymmetricQuant :
    (u.withAsymmetricQuant true).elementTime m k n dataElementSize computeElementSize
      = (u.withAsymmetricQuant false).elementTime m k n dataElementSize computeElementSize
        + ((u.withAsymmetricQuant true).computeGEMVLatency m k n dataElementSize
            computeElementSize).reductionTimeNs := by
  rw [reductionTimeNs_eq]
  simp only [elementTime, withAsymmetricQuant, NearbankPIMConfig.dequantTime,
    NearbankPIMConfig.peElementsPerCycle, NearbankPIMConfig.peCycleForCompute, if_true,
    Bool.false_eq_true, if_false]
  ring

theorem latency_le_withAsymmetricQuant (hu : u.Positive) :
    ((u.withAsymmetricQuant false).computeGEMVLatency m k n dataElementSize
        computeElementSize).latencyNs
      ≤ ((u.withAsymmetricQuant true).computeGEMVLatency m k n dataElementSize
          computeElementSize).latencyNs := by
  have hon : (u.withAsymmetricQuant true).Positive := { hu with }
  have hreduction := @reductionTimeNs_nonneg _ m k n dataElementSize computeElementSize hon
  rw [latencyNs_eq, latencyNs_eq, elementTime_withAsymmetricQuant]
  exact pipelined_le_of_le (le_add_of_nonneg_right hreduction)

theorem withAsymmetricQuant_latency_le (hu : u.Positive) :
    ((u.withAsymmetricQuant true).computeGEMVLatency m k n dataElementSize
        computeElementSize).latencyNs
      ≤ ((u.withAsymmetricQuant false).computeGEMVLatency m k n dataElementSize
          computeElementSize).latencyNs
        + ((u.withAsymmetricQuant true).computeGEMVLatency m k n dataElementSize
            computeElementSize).reductionTimeNs := by
  have hon : (u.withAsymmetricQuant true).Positive := { hu with }
  have hreduction := @reductionTimeNs_nonneg _ m k n dataElementSize computeElementSize hon
  rw [latencyNs_eq, latencyNs_eq, elementTime_withAsymmetricQuant]
  exact pipelined_add_le hreduction

theorem base_le_latency (hu : u.Positive) :
    (u.computeGEMVLatency m k n dataElementSize computeElementSize).baseGemvTimeNs
      ≤ (u.computeGEMVLatency m k n dataElementSize computeElementSize).latencyNs := by
  have hreduction := @reductionTimeNs_nonneg u m k n dataElementSize computeElementSize hu
  have hdequant : 0 ≤ u.dequantTime dataElementSize computeElementSize k n :=
    dequantTime_nonneg hu
  rw [reductionTimeNs_eq] at hreduction
  rw [baseGemvTimeNs_eq, latencyNs_eq]
  apply pipelined_le_of_le
  unfold elementTime
  linarith

/-- The overheads only delay a product, no more than they compute. They hide none of its parts,
exactly unless its fills are not counted and take longer than one of them and the computing. -/
theorem latency_bounds_iff (hu : u.Positive) :
    ((u.computeGEMVLatency m k n dataElementSize computeElementSize).baseGemvTimeNs
        ≤ (u.computeGEMVLatency m k n dataElementSize computeElementSize).latencyNs ∧
      max (u.computeGEMVLatency m k n dataElementSize computeElementSize).rowbufferTimeNs
          ((u.computeGEMVLatency m k n dataElementSize computeElementSize).peComputeTimeNs
            + (u.computeGEMVLatency m k n dataElementSize computeElementSize).reductionTimeNs)
        ≤ (u.computeGEMVLatency m k n dataElementSize computeElementSize).latencyNs ∧
      ((u.withAsymmetricQuant false).computeGEMVLatency m k n dataElementSize
          computeElementSize).latencyNs
        ≤ ((u.withAsymmetricQuant true).computeGEMVLatency m k n dataElementSize
            computeElementSize).latencyNs ∧
      ((u.withAsymmetricQuant true).computeGEMVLatency m k n dataElementSize
          computeElementSize).latencyNs
        ≤ ((u.withAsymmetricQuant false).computeGEMVLatency m k n dataElementSize
            computeElementSize).latencyNs
          + ((u.withAsymmetricQuant true).computeGEMVLatency m k n dataElementSize
              computeElementSize).reductionTimeNs) ↔
      u.FillsHeld (u.bankBytes m k n dataElementSize) ∨
        u.bankBytes m k n dataElementSize / u.dramToRbBwPerBank * 10 ^ 9
          ≤ u.timePerRbFill + u.elementTime m k n dataElementSize computeElementSize := by
  have hpe : 0 ≤ u.elementTime m k n dataElementSize computeElementSize := elementTime_nonneg hu
  rw [and_iff_right (base_le_latency hu),
    and_iff_left ⟨latency_le_withAsymmetricQuant hu, withAsymmetricQuant_latency_le hu⟩,
    rowbufferTimeNs_eq, peComputeTimeNs_add, latencyNs_eq, max_le_iff,
    and_iff_left (le_pipelined hu _ _)]
  exact fillTime_le_pipelined_iff hu hpe

/-- The product of `test_pipelining` with two-bit values, which are dequantized. -/
theorem latency_bounds_quantized :
    max (slowDram.computeGEMVLatency 1 128 1024 1 2).rowbufferTimeNs
        ((slowDram.computeGEMVLatency 1 128 1024 1 2).peComputeTimeNs
          + (slowDram.computeGEMVLatency 1 128 1024 1 2).reductionTimeNs)
      ≤ (slowDram.computeGEMVLatency 1 128 1024 1 2).latencyNs := by
  have hceil : ⌈(1033 / 1024 : ℚ)⌉ = 2 := by norm_num [Int.ceil_eq_iff]
  refine ((latency_bounds_iff slowDram_positive).mpr (.inl ?_)).2.1
  norm_num [FillsHeld, bankBytes, slowDram, NearbankPIMConfig.bytesPerElement, hceil]

/-- The data of a bank alone takes four times as long. -/
theorem latency_below_fills :
    (oneBank.computeGEMVLatency (2 ^ 20) (2 ^ 20) (2 ^ 20) 2 2).latencyNs
      < (oneBank.computeGEMVLatency (2 ^ 20) (2 ^ 20) (2 ^ 20) 2 2).rowbufferTimeNs := by
  rw [latencyNs_eq, rowbufferTimeNs_eq]
  norm_num [bankBytes, elementTime, pipelined, rowbufferFills, castInt, timePerRbFill, oneBank,
    NearbankPIMConfig.bytesPerElement, NearbankPIMConfig.peElementsPerCycle,
    NearbankPIMConfig.peCycleForCompute, NearbankPIMConfig.dequantTime]

end NearbankPIMUnit
end LlmSystem
