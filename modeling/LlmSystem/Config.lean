import Mathlib.Data.Rat.Defs
import Mathlib.Data.Int.Notation

/-! System and model parameters read by the modelled code. `int` is `ℤ`, and
`hw_metric`, `time_ns` (both `double`) are exact rationals. -/
namespace LlmSystem

/-- `enum class ProcessorType`. -/
inductive ProcessorType where
  | none | pim | logic | gpu
  deriving DecidableEq, Repr

/-- `enum class LayerType`. -/
inductive LayerType where
  | linear | batchedLinear | activation | attentionGen | attentionSum | attentionMixed
  | mlaGen | mlaSum | mlaMixed | absorbedMlaGen | absorbedMlaSum
  deriving DecidableEq, Repr

structure SystemConfig where
  numNode : ℤ
  numDevice : ℤ
  /-- `kv_cache_reuse_rate` applies only when this is set. -/
  reuseKvCache : Bool := false
  kvCacheReuseRate : ℚ := 0
  prefillMode : Bool := false
  decodeMode : Bool := false
  useInjectRate : Bool := false
  disaggSystem : Bool := false
  deriving DecidableEq, Repr

structure ModelConfig where
  maxSeqLen : ℤ
  inputLen : ℤ
  outputLen : ℤ
  neTpDg : ℤ := 1
  eTpDg : ℤ := 1
  numRoutedExpert : ℤ := 0
  topK : ℤ := 0
  numLayers : ℤ := 1
  expertFreq : ℤ := 1
  precisionByte : ℤ := 2
  modelName : String := ""
  deriving DecidableEq, Repr

end LlmSystem
