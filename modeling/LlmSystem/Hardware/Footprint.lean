import LlmSystem.Lib.Binary64
import LlmSystem.Lib.Overflow
import LlmSystem.Scheduler.Operations

/-!
The sizes that `checkMemorySize` and `checkHeteroMemorySize` work with: what they stand for in exact
numbers, and as the program computes them, partly in `int` and partly in `double`.
-/
namespace LlmSystem

/-- The further fields of `ModelConfig` that the two checks read. -/
structure SizedModel extends ModelConfig where
  hiddenDim : ℤ
  headDim : ℤ
  numHeads : ℤ
  numKvHeads : ℤ
  qLoraRank : ℤ := 0
  kvLoraRank : ℤ := 0
  qkRopeHeadDim : ℤ := 0
  expertIntermediateDim : ℤ
  numSharedExpert : ℤ := 0
  compressedKv : Bool := false
  useAbsorb : Bool := false
  deriving DecidableEq, Repr

structure MemorySystem extends SystemConfig where
  memoryCapacity : ℚ
  exitOutOfMemory : Bool := false
  memCapLimit : Bool := false
  deriving DecidableEq, Repr

/-- `size_vector`. -/
structure SizeVector where
  act : ℤ
  weight : ℤ
  cache : ℤ
  deriving DecidableEq, Repr

/-! ### The sizes in exact numbers -/

section Activations
variable (c : MemorySystem) (m : SizedModel) (s : Scheduler)

def numRoutedExpertPerDevice : ℤ :=
  (m.numRoutedExpert * m.eTpDg).tdiv (c.numDevice * c.numNode)

def expertBatchSize : ℤ :=
  if m.expertFreq ≠ 0 then (s.totalBatchSize * m.topK).tdiv m.numRoutedExpert else 0

def totalLen : ℤ := m.inputLen + m.outputLen

/-- The experts of a device, routed and shared, each with the given activations. -/
def moeActivation (perExpert : ℚ) : ℚ :=
  (numRoutedExpertPerDevice c m + m.numSharedExpert : ℤ) * perExpert

def decodeAbsorbActivation : ℚ :=
  let b := s.batchSizePerDp
  let e := expertBatchSize m s
  ((b * m.hiddenDim : ℤ) + (b * m.qLoraRank : ℤ) + (b * m.kvLoraRank : ℤ)
    + (b * m.qkRopeHeadDim : ℤ)
    + b * (3 * m.qkRopeHeadDim + m.headDim) * m.numHeads / m.neTpDg
    + ((b * m.numHeads * m.kvLoraRank).tdiv m.neTpDg : ℤ)
    + b * 2 * m.numHeads * totalLen m / m.neTpDg
    + ((b * m.numHeads * m.kvLoraRank).tdiv m.neTpDg : ℤ)
    + ((b * m.numHeads * m.headDim).tdiv m.neTpDg : ℤ)
    + (b * m.hiddenDim : ℤ)
    + moeActivation c m (e * 2 * m.expertIntermediateDim + (e * m.expertIntermediateDim : ℤ)
      + (e * m.hiddenDim : ℤ))) * m.precisionByte

/-- Without absorption; the caches are restored for all tokens, or for the new one. -/
def decodeActivation (restored : ℤ) : ℚ :=
  let b := s.batchSizePerDp
  let e := expertBatchSize m s
  ((b * m.hiddenDim : ℤ) + (b * m.qLoraRank : ℤ) + (b * m.kvLoraRank : ℤ)
    + (b * m.qkRopeHeadDim : ℤ)
    + b * (3 * m.qkRopeHeadDim + m.headDim) * m.numHeads / m.neTpDg
    + b * 2 * restored * m.headDim * m.numHeads / m.neTpDg
    + b * 2 * totalLen m * m.numHeads / m.neTpDg
    + ((b * m.numHeads * m.headDim).tdiv m.neTpDg : ℤ)
    + (b * m.hiddenDim : ℤ)
    + moeActivation c m (2 * (e * m.expertIntermediateDim : ℤ)
      + (e * m.expertIntermediateDim : ℤ) + (e * m.hiddenDim : ℤ))) * m.precisionByte

def prefillAbsorbActivation : ℚ :=
  let b := s.batchSizePerDp
  let l := m.inputLen
  let e := expertBatchSize m s
  ((b * l * m.hiddenDim : ℤ) + (b * l * m.qLoraRank : ℤ) + (b * l * m.kvLoraRank : ℤ)
    + (b * l * m.qkRopeHeadDim : ℤ)
    + (b * l : ℤ) * (3 * m.qkRopeHeadDim + m.headDim) * m.numHeads / m.neTpDg
    + ((b * l * m.numHeads * m.kvLoraRank).tdiv m.neTpDg : ℤ)
    + 2 * ((b * l * m.numHeads * l).tdiv m.neTpDg : ℤ)
    + ((b * l * m.numHeads * m.kvLoraRank).tdiv m.neTpDg : ℤ)
    + ((b * l * m.numHeads * m.headDim).tdiv m.neTpDg : ℤ)
    + (b * l * m.hiddenDim : ℤ)
    + moeActivation c m (2 * (e * l * m.expertIntermediateDim : ℤ)
      + (e * l * m.expertIntermediateDim : ℤ) + (e * l * m.hiddenDim : ℤ))) * m.precisionByte

def prefillActivation : ℚ :=
  let b := s.batchSizePerDp
  let l := m.inputLen
  let e := expertBatchSize m s
  ((b * l * m.hiddenDim : ℤ) + (b * l * m.qLoraRank : ℤ) + (b * l * m.kvLoraRank : ℤ)
    + (b * l * m.qkRopeHeadDim : ℤ)
    + (b * l : ℤ) * (3 * m.qkRopeHeadDim + m.headDim) * m.numHeads / m.neTpDg
    + (b * l : ℤ) * 2 * m.headDim * m.numHeads / m.neTpDg
    + 2 * ((b * l * l * m.numHeads).tdiv m.neTpDg : ℤ)
    + ((b * l * m.numHeads * m.headDim).tdiv m.neTpDg : ℤ)
    + (b * l * m.hiddenDim : ℤ)
    + moeActivation c m (2 * (e * l * m.expertIntermediateDim : ℤ)
      + (e * l * m.expertIntermediateDim : ℤ) + (e * l * m.hiddenDim : ℤ))) * m.precisionByte

/-- The activations of the latent attention. -/
def activationSize : ℤ :=
  Binary64.trunc
    (if c.decodeMode then
      if m.useAbsorb then decodeAbsorbActivation c m s
      else if m.compressedKv then decodeActivation c m s (totalLen m)
      else decodeActivation c m s 1
    else if m.useAbsorb then prefillAbsorbActivation c m s
    else prefillActivation c m s)

end Activations

section Caches
variable (m : SizedModel)

/-- The KV cache of a sequence. -/
def kvCacheSizePerSeq : ℤ :=
  if m.qkRopeHeadDim ≠ 0 ∧ m.compressedKv then
    (m.inputLen + m.outputLen) * (m.kvLoraRank + m.qkRopeHeadDim) * m.numLayers * m.precisionByte
  else
    Binary64.trunc (2 * (m.inputLen + m.outputLen : ℤ) * m.numLayers * m.headDim * m.numKvHeads
      / m.neTpDg * m.precisionByte)

/-- Divided before it is multiplied by the precision, and for the plain cache only. -/
def heteroKvCacheSizePerSeq : ℤ :=
  (2 * (m.inputLen + m.outputLen) * m.numLayers * m.headDim * m.numKvHeads).tdiv m.neTpDg
    * m.precisionByte

end Caches

/-! ### The sizes as they are computed -/

namespace IntFootprint

open Overflow

/-- The local variables of `checkMemorySize`, and the two fields of `model_config` that are read in
its formulas. -/
structure Locals where
  neTpDg : Int32
  numRoutedExpertPerDevice : Int32
  batchSizePerDp : Int32
  expertBatchSize : Int32
  inputLen : Int32
  totalLen : Int32
  hiddenDim : Int32
  qLoraRank : Int32
  kvLoraRank : Int32
  qkRopeHeadDim : Int32
  headDim : Int32
  numHeads : Int32
  expertIntermediateDim : Int32
  numSharedExpert : Int32
  precisionByte : Int32

def locals (c : MemorySystem) (m : SizedModel) (s : Scheduler) : Locals where
  neTpDg := .ofInt m.neTpDg
  numRoutedExpertPerDevice := .ofInt m.numRoutedExpert * .ofInt m.eTpDg
    / (.ofInt c.numDevice * .ofInt c.numNode)
  batchSizePerDp := .ofInt s.batchSizePerDp
  expertBatchSize := if m.expertFreq ≠ 0 then
    .ofInt s.totalBatchSize * .ofInt m.topK / .ofInt m.numRoutedExpert else 0
  inputLen := .ofInt m.inputLen
  totalLen := .ofInt m.inputLen + .ofInt m.outputLen
  hiddenDim := .ofInt m.hiddenDim
  qLoraRank := .ofInt m.qLoraRank
  kvLoraRank := .ofInt m.kvLoraRank
  qkRopeHeadDim := .ofInt m.qkRopeHeadDim
  headDim := .ofInt m.headDim
  numHeads := .ofInt m.numHeads
  expertIntermediateDim := .ofInt m.expertIntermediateDim
  numSharedExpert := .ofInt m.numSharedExpert
  precisionByte := .ofInt m.precisionByte

namespace Locals
variable (v : Locals)

/-- Input sequences, `c_q`, `c_kv` and `kr` of `t` tokens. -/
def projections (t : Int32) : Int32 :=
  t * v.hiddenDim + t * v.qLoraRank + t * v.kvLoraRank + t * v.qkRopeHeadDim

/-- `t * (3.0 * qk_rope_head_dim + head_dim) * num_heads / ne_tp_dg`. -/
def queries (t : Int32) : ℚ :=
  double t * (3 * double v.qkRopeHeadDim + double v.headDim) * double v.numHeads / double v.neTpDg

/-- The experts of a device for `t` tokens each: `first` is for gate and silu. -/
def experts (t : Int32) (first : ℚ) : ℚ :=
  double (v.numRoutedExpertPerDevice + v.numSharedExpert)
    * (first + double (t * v.expertIntermediateDim) + double (t * v.hiddenDim))

def decodeAbsorb : ℚ :=
  let b := v.batchSizePerDp
  let e := v.expertBatchSize
  (double (v.projections b) + v.queries b + double (b * v.numHeads * v.kvLoraRank / v.neTpDg)
    + double b * 2 * double v.numHeads * double v.totalLen / double v.neTpDg
    + double (b * v.numHeads * v.kvLoraRank / v.neTpDg)
    + double (b * v.numHeads * v.headDim / v.neTpDg) + double (b * v.hiddenDim)
    + v.experts e (double e * 2 * double v.expertIntermediateDim)) * double v.precisionByte

/-- Without absorption; `restored` is `total_len` with a compressed cache. -/
def decode (restored : ℚ) : ℚ :=
  let b := v.batchSizePerDp
  let e := v.expertBatchSize
  (double (v.projections b) + v.queries b
    + double b * 2 * restored * double v.headDim * double v.numHeads / double v.neTpDg
    + double b * 2 * double v.totalLen * double v.numHeads / double v.neTpDg
    + double (b * v.numHeads * v.headDim / v.neTpDg) + double (b * v.hiddenDim)
    + v.experts e (2 * double (e * v.expertIntermediateDim))) * double v.precisionByte

def prefillAbsorb : ℚ :=
  let t := v.batchSizePerDp * v.inputLen
  let e := v.expertBatchSize * v.inputLen
  (double (v.projections t) + v.queries t + double (t * v.numHeads * v.kvLoraRank / v.neTpDg)
    + 2 * double (t * v.numHeads * v.inputLen / v.neTpDg)
    + double (t * v.numHeads * v.kvLoraRank / v.neTpDg)
    + double (t * v.numHeads * v.headDim / v.neTpDg) + double (t * v.hiddenDim)
    + v.experts e (2 * double (e * v.expertIntermediateDim))) * double v.precisionByte

def prefill : ℚ :=
  let t := v.batchSizePerDp * v.inputLen
  let e := v.expertBatchSize * v.inputLen
  (double (v.projections t) + v.queries t
    + double t * 2 * double v.headDim * double v.numHeads / double v.neTpDg
    + 2 * double (t * v.inputLen * v.numHeads / v.neTpDg)
    + double (t * v.numHeads * v.headDim / v.neTpDg) + double (t * v.hiddenDim)
    + v.experts e (2 * double (e * v.expertIntermediateDim))) * double v.precisionByte

end Locals

section Computed
variable (c : MemorySystem) (m : SizedModel) (s : Scheduler)

/-- `activation_size`. -/
def activationSize : ℤ :=
  let v := locals c m s
  Binary64.trunc
    (if c.decodeMode then
      if m.useAbsorb then v.decodeAbsorb
      else if m.compressedKv then v.decode (double v.totalLen)
      else v.decode 1
    else if m.useAbsorb then v.prefillAbsorb
    else v.prefill)

/-- `kv_cache_size_per_seq` of `checkMemorySize`. -/
def kvCacheSizePerSeq : ℤ :=
  let len : Int32 := .ofInt m.inputLen + .ofInt m.outputLen
  Binary64.trunc
    (if m.qkRopeHeadDim ≠ 0 ∧ m.compressedKv then
      double len * double (.ofInt m.kvLoraRank + .ofInt m.qkRopeHeadDim)
        * double (.ofInt m.numLayers) * double (.ofInt m.precisionByte)
    else
      2 * double len * double (.ofInt m.numLayers) * double (.ofInt m.headDim)
        * double (.ofInt m.numKvHeads) / double (.ofInt m.neTpDg) * double (.ofInt m.precisionByte))

/-- `kv_cache_size_per_seq` of `checkHeteroMemorySize`, a `long` from an `int`. -/
def heteroKvCacheSizePerSeq : ℤ :=
  let len : Int32 := .ofInt m.inputLen + .ofInt m.outputLen
  (2 * len * .ofInt m.numLayers * .ofInt m.headDim * .ofInt m.numKvHeads / .ofInt m.neTpDg
    * .ofInt m.precisionByte : Int32).toInt

end Computed

end IntFootprint

end LlmSystem
