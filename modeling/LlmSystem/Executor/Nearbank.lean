import Mathlib.Data.Rat.Floor

/-! `NearbankPIMUnit`: the times of a matrix product in the processing elements of the banks. -/
namespace LlmSystem

structure NearbankPIMConfig where
  numPimBanks : ℕ := 2048
  peWidthBytes : ℚ := 16
  peCycleTimeNs : ℚ := 1 / 2
  peLowbitWidthBytes : ℚ := 32
  peLowbitCycleTimeNs : ℚ := 1 / 2
  dramToRbBwPerBank : ℚ := 32 * 10 ^ 9
  enableNearbankModel : Bool := true
  enableSoftmaxInPim : Bool := false
  enableContextInPim : Bool := true
  enableScoringInPim : Bool := true
  enableAsymmetricQuant : Bool := false
  enablePimDequant : Bool := false
  kvCacheBits : ℕ := 2
  deriving DecidableEq, Repr

/-- The fields of the result that the executors read. -/
structure NearbankGEMVResult where
  rowbufferTimeNs : ℚ := 0
  peComputeTimeNs : ℚ := 0
  reductionTimeNs : ℚ := 0
  deriving DecidableEq, Repr

namespace NearbankPIMConfig
variable (c : NearbankPIMConfig)

def bytesPerElement (dataElementSize : ℕ) : ℚ :=
  if dataElementSize ≤ 1 then c.kvCacheBits / 8 else dataElementSize

def peElementsPerCycle (dataElementSize computeElementSize : ℕ) : ℚ :=
  if dataElementSize ≤ 1 then
    (if computeElementSize ≤ 1 then c.peLowbitWidthBytes else c.peWidthBytes) * (8 / c.kvCacheBits)
  else c.peWidthBytes / computeElementSize

def peCycleForCompute (computeElementSize : ℕ) : ℚ :=
  if computeElementSize ≤ 1 then c.peLowbitCycleTimeNs else c.peCycleTimeNs

/-- Two operations for each element of the stored matrix, at the rate of the low-bit elements. -/
def dequantTime (dataElementSize computeElementSize k n : ℕ) : ℚ :=
  if dataElementSize ≤ 1 ∧ 2 ≤ computeElementSize then
    2 * (k * n) / c.numPimBanks / (c.peLowbitWidthBytes * (8 / c.kvCacheBits))
      * c.peLowbitCycleTimeNs
  else 0

/-- All banks share the elements of the two matrices and of the result. -/
def computeGEMVLatency (m k n dataElementSize computeElementSize : ℕ) : NearbankGEMVResult where
  rowbufferTimeNs :=
    (m * k + k * n + m * n) * c.bytesPerElement dataElementSize / c.numPimBanks
      / c.dramToRbBwPerBank * 10 ^ 9
  peComputeTimeNs :=
    (m * k + k * n + m * n) / c.numPimBanks
        / c.peElementsPerCycle dataElementSize computeElementSize
        * c.peCycleForCompute computeElementSize
      + c.dequantTime dataElementSize computeElementSize k n
  reductionTimeNs :=
    if c.enableAsymmetricQuant then
      (m * k + n * k) / c.numPimBanks / c.peElementsPerCycle dataElementSize computeElementSize
        * c.peCycleForCompute computeElementSize
    else 0

/-- The elements compute in the precision of the stored matrix where it is not dequantized. -/
def scoringPrecision (precisionByte : ℕ) : ℕ :=
  if c.enablePimDequant ∧ precisionByte ≤ 1 then 2 else precisionByte

/-- Quantized values are always dequantized. -/
def contextPrecision (precisionByte : ℕ) : ℕ := if precisionByte ≤ 1 then 2 else precisionByte

/-- A matrix is loaded once and used for all heads of a group. -/
def groupLatency (groupSize : ℕ) (r : NearbankGEMVResult) : ℚ :=
  max r.rowbufferTimeNs
    ((r.peComputeTimeNs + if c.enableAsymmetricQuant then r.reductionTimeNs else 0) * groupSize)

end NearbankPIMConfig
end LlmSystem
