import LlmSystem.Hardware.Footprint
import LlmSystem.Lib.Paths
import LlmSystem.Module.RankGroups
import LlmSystem.Module.ShapeForward

/-!
The constructors of the modules: the tensors of each, with their shapes and tags, the submodules,
and the assertions about the dimensions. Every module is put in the `module_map` of its device under
its written path.
-/
namespace LlmSystem

open Nesting

/-- The further dimensions, and `batch_size_per_dp` of the scheduler. -/
structure LayerDims extends ShapeDims where
  qLoraRank : ℤ := 0
  intermediateDim : ℤ
  expertIntermediateDim : ℤ
  activationFactor : ℤ := 1
  batchSizePerDp : ℤ

namespace LayerDims

/-- The sequences of a batch. -/
def seqs (d : LayerDims) : List ℕ := List.range d.batchSizePerDp.toNat

/-- `intermediate_dim` of a feed-forward layer. -/
def ffnDim (d : LayerDims) (isExpert : Bool) : ℤ :=
  if isExpert then d.expertIntermediateDim else d.intermediateDim

end LayerDims

/-- `input_len + output_len`, for which the caches are created. -/
def LayerConfig.maxCacheLen (c : LayerConfig) : ℤ := c.inputLen + c.outputLen

/-- `tag`. -/
inductive TensorTag
  | act | weight | cache
  deriving DecidableEq, Repr

/-- A tensor as `Tensor::Create` makes it. -/
structure TensorDecl where
  name : String
  shape : List ℤ
  tag : TensorTag
  deriving DecidableEq, Repr

namespace TensorDecl

def act (name : String) (shape : List ℤ) : TensorDecl := { name, shape, tag := .act }

def weight (name : String) (shape : List ℤ) : TensorDecl := { name, shape, tag := .weight }

def cache (name : String) (shape : List ℤ) : TensorDecl := { name, shape, tag := .cache }

/-- `getSize`. -/
def getSize (precisionByte : ℤ) (t : TensorDecl) : ℤ := t.shape.foldl (· * ·) precisionByte

/-- `add_tensor`: one of the same name is replaced. -/
def addTensor (tensorList : List TensorDecl) (t : TensorDecl) : List TensorDecl :=
  if t.name ∈ tensorList.map name then
    tensorList.map fun t' => if t'.name = t.name then t else t'
  else tensorList ++ [t]

end TensorDecl

/-- A module as its constructor leaves it; its submodules are below it in a forest. -/
structure ModuleDecl where
  kind : LayerKind
  path : List String
  deviceList : List ℕ
  tensorList : List TensorDecl
  deriving DecidableEq, Repr

/-- What a constructor does: the modules that it creates, and the messages of the assertions that do
not hold, of which the first ends the program. -/
structure Construction where
  modules : Forest ModuleDecl := .nil
  failures : List String := []

namespace Construction

variable {α : Type}

/-- One after the other. -/
def all : List Construction → Construction
  | [] => {}
  | c :: cs =>
    { modules := c.modules.append (all cs).modules
      failures := c.failures ++ (all cs).failures }

/-- A loop. -/
def each (f : α → Construction) (l : List α) : Construction := all (l.map f)

def assertTrue (expr : Bool) (message : String) : Construction :=
  { failures := if expr then [] else [message] }

/-- The assertions of another part of the constructor. -/
def checked : Except String α → Construction
  | .ok _ => {}
  | .error message => { failures := [message] }

/-- A module whose constructor adds the tensors and does `inside`. -/
def create (kind : LayerKind) (path : List String) (deviceList : List ℕ)
    (tensors : List TensorDecl) (inside : Construction) : Construction :=
  { modules := .node
      { kind, path, deviceList, tensorList := tensors.foldl TensorDecl.addTensor [] }
      inside.modules .nil
    failures := inside.failures }

/-- A module without submodules. -/
def leaf (kind : LayerKind) (path : List String) (deviceList : List ℕ)
    (tensors : List TensorDecl) : Construction := create kind path deviceList tensors {}

/-- A module that only calls others. -/
def container (path : List String) (deviceList : List ℕ) (inside : List Construction) :
    Construction := create .container path deviceList [] (all inside)

/-- The program goes on if no assertion fails. -/
def run (c : Construction) : Except String (Forest ModuleDecl) :=
  match c.failures with
  | [] => .ok c.modules
  | message :: _ => .error message

end Construction

open Construction (all each assertTrue checked create leaf container)
open TensorDecl (act weight cache)

section Layers

variable (path : List String) (devices : List ℕ) (name : String)

/-! ### Linear layers -/

def Linear.construct (inputSize outputSize : ℤ) : Construction :=
  leaf .linear (name :: path) devices
    [weight "A" [inputSize, outputSize], act "Y" [inputSize, outputSize]]

def ColumnParallelLinear.construct (inputSize outputSize : ℤ) : Construction :=
  let parallelNum : ℤ := devices.length
  container (name :: path) devices [
    assertTrue (outputSize.tmod parallelNum = 0) "output_size mod parallel_num != 0",
    Linear.construct (name :: path) devices "Linear" inputSize (outputSize.tdiv parallelNum)]

/-- The size that is asserted about is not the one that is divided. -/
def RowParallelLinear.construct (inputSize outputSize : ℤ) : Construction :=
  let parallelNum : ℤ := devices.length
  container (name :: path) devices [
    assertTrue (outputSize.tmod parallelNum = 0) "output_size mod parallel_num != 0",
    Linear.construct (name :: path) devices "Linear" (inputSize.tdiv parallelNum) outputSize]

def BatchedLinear.construct (numBatchedGemm inputSize outputSize : ℤ) (usePlainLinear : Bool) :
    Construction :=
  leaf (.batchedLinear usePlainLinear) (name :: path) devices <|
    if usePlainLinear then [
      act "plain_linear_input" [inputSize, outputSize],
      act "plain_linear_output" [inputSize, outputSize],
      weight "weight" [inputSize, outputSize]]
    else [
      act "batched_linear_input" [numBatchedGemm, inputSize, outputSize],
      act "batched_linear_output" [numBatchedGemm, inputSize, outputSize],
      weight "weight" [numBatchedGemm, inputSize, outputSize],
      act "output" [inputSize, outputSize]]

def BatchedColumnParallelLinear.construct (inputSize outputSize : ℤ) (numHeads : ℕ)
    (usePlainLinear : Bool) : Construction :=
  let parallelNum : ℤ := devices.length
  let numHeadsPerDevice : ℕ := numHeads / devices.length
  container (name :: path) devices [
    assertTrue (outputSize.tmod parallelNum = 0) "output_size mod parallel_num != 0",
    BatchedLinear.construct (name :: path) devices "Batched_Linear" numHeadsPerDevice inputSize
      (outputSize.tdiv (if usePlainLinear then parallelNum else numHeads)) usePlainLinear]

def BatchedRowParallelLinear.construct (inputSize outputSize : ℤ) (numHeads : ℕ)
    (usePlainLinear : Bool) : Construction :=
  let parallelNum : ℤ := devices.length
  let numHeadsPerDevice : ℕ := numHeads / devices.length
  container (name :: path) devices [
    assertTrue (inputSize.tmod parallelNum = 0) "input_size mod parallel_num != 0",
    BatchedLinear.construct (name :: path) devices "Batched_Linear" numHeadsPerDevice
      (inputSize.tdiv (if usePlainLinear then parallelNum else numHeads)) outputSize
      usePlainLinear]

/-! ### Other layers without submodules -/

def Embedding.construct (hiddenDim nVocab : ℤ) : Construction :=
  leaf .embedding (name :: path) devices
    [weight "Embedding" [nVocab, hiddenDim], act "Hidden vector" [1, hiddenDim]]

def LmHead.construct (hiddenDim nVocab : ℤ) : Construction :=
  leaf .lmHead (name :: path) devices
    [weight "lm_head_wgt" [hiddenDim, nVocab], act "Hidden vector" [1, hiddenDim]]

def LayerNorm.construct (hiddenDim : ℤ) : Construction :=
  leaf .layerNorm (name :: path) devices
    [weight "layer_norm_weight" [hiddenDim, 1], act "layer_norm_output" [hiddenDim, 1]]

def Residual.construct : Construction :=
  leaf .residual (name :: path) devices [act "residual_out" [1, 1]]

def RoPE.construct : Construction :=
  leaf .rope (name :: path) devices [act "sin_cos" [1, 1], act "rope_out" [1, 1]]

def BatchedRoPE.construct : Construction :=
  leaf .batchedRope (name :: path) devices [act "sin_cos" [1, 1], act "rope_out" [1, 1]]

def AllReduce.construct : Construction :=
  leaf .allReduce (name :: path) devices [act "allreduce_output" [1, 1]]

/-- With an empty device list. -/
def Activation.construct : Construction :=
  leaf .activation (name :: path) [] [act "ActOut" [1, 1], act "GateOut" [1, 1]]

/-! ### Attention -/

variable (c : LayerConfig) (d : LayerDims)

def CompressedKVRestore.construct : Construction :=
  leaf .compressedKVRestore (name :: path) devices <|
    (if d.compressedKv then
      d.seqs.flatMap fun seqIdx => [
        cache ("c_kv_cache_" ++ toString seqIdx) [c.maxCacheLen, d.kvLoraRank],
        cache ("c_pe_cache_" ++ toString seqIdx) [c.maxCacheLen, c.qkRopeHeadDim]]
    else []) ++ [act "concated_latent_kv" [1, 1], act "concated_k_rope" [1, 1]]

/-- The key and value caches of every head of every sequence. -/
def kvCaches (numKvHeads : ℕ) : List TensorDecl :=
  d.seqs.flatMap fun seqIdx => (List.range numKvHeads).flatMap fun kvIdx => [
    cache ("k_cache_" ++ toString seqIdx ++ "_" ++ toString kvIdx) [c.maxCacheLen, d.headDim],
    cache ("v_cache_" ++ toString seqIdx ++ "_" ++ toString kvIdx) [c.maxCacheLen, d.headDim]]

def SelfAttentionSum.construct (numKvHeads : ℕ) : Construction :=
  leaf .selfAttentionSum (name :: path) devices
    [act "attn_output" [d.batchSizePerDp, c.maxCacheLen, numKvHeads, d.headDim]]

def SelfAttentionGen.construct (numKvHeads : ℕ) : Construction :=
  leaf .selfAttentionGen (name :: path) devices
    (kvCaches c d numKvHeads ++ [act "attn_output" [c.maxCacheLen, d.headDim]])

def MultiLatentAttentionSum.construct (numKvHeads : ℕ) : Construction :=
  leaf .multiLatentAttentionSum (name :: path) devices
    [act "attn_output" [d.batchSizePerDp, c.maxCacheLen, numKvHeads, d.headDim]]

def MultiLatentAttentionGen.construct (numKvHeads : ℕ) : Construction :=
  leaf .multiLatentAttentionGen (name :: path) devices
    ((if d.compressedKv then [] else kvCaches c d numKvHeads)
      ++ [act "attn_output" [c.maxCacheLen, d.headDim]])

/-- The heads of a device are divided by the devices once more. -/
def AbsorbMLASum.construct (numKvHeads : ℕ) : Construction :=
  leaf .absorbMLASum (name :: path) devices
    [act "attn_output" [(numKvHeads / devices.length : ℕ), c.maxCacheLen, d.kvLoraRank]]

def AbsorbMLAGen.construct (numKvHeads : ℕ) : Construction :=
  leaf .absorbMLAGen (name :: path) devices <|
    (d.seqs.flatMap fun seqIdx => [
      cache ("latent_kv_cache_" ++ toString seqIdx) [c.maxCacheLen, d.kvLoraRank],
      cache ("latent_pe_cache_" ++ toString seqIdx) [c.maxCacheLen, c.qkRopeHeadDim]])
      ++ [act "attn_output" [(numKvHeads / devices.length : ℕ), c.maxCacheLen, d.kvLoraRank]]

/-- The four modules of every attention. -/
def attentionModules (sum gen : List String → List ℕ → String → Construction) :
    List Construction := [
  leaf .attentionSplit ("AttentionSplit" :: path) devices
    [act "sum_tensor" [1, 1], act "gen_tensor" [1, 1]],
  sum path devices "AttentionSum",
  gen path devices "AttentionGen",
  leaf .attentionMerge ("AttentionMerge" :: path) devices [act "output_tensor" [1, 1]]]

def SelfAttentionParallel.construct : Construction :=
  let numKvHeads := d.numKvHeads / devices.length
  container (name :: path) devices <| [
    assertTrue (c.numHeads % devices.length = 0) "num_head mod parallel_num == 0",
    assertTrue (d.numKvHeads % devices.length = 0) "num_kv_head mod parallel_num == 0"] ++
    attentionModules (name :: path) devices
      (fun path devices name => SelfAttentionSum.construct path devices name c d numKvHeads)
      (fun path devices name => SelfAttentionGen.construct path devices name c d numKvHeads)

/-- Only the query heads are asserted about. -/
def MultiLatentAttentionParallel.construct : Construction :=
  let numKvHeads := d.numKvHeads / devices.length
  container (name :: path) devices <| [
    assertTrue (c.numHeads % devices.length = 0) "num_head mod parallel_num == 0"] ++
    attentionModules (name :: path) devices
      (fun path devices name => MultiLatentAttentionSum.construct path devices name c d numKvHeads)
      (fun path devices name => MultiLatentAttentionGen.construct path devices name c d numKvHeads)

def AbsorbMLAParallel.construct : Construction :=
  let numKvHeads := d.numKvHeads / devices.length
  container (name :: path) devices <| [
    assertTrue (c.numHeads % devices.length = 0) "num_head mod parallel_num == 0"] ++
    attentionModules (name :: path) devices
      (fun path devices name => AbsorbMLASum.construct path devices name c d numKvHeads)
      (fun path devices name => AbsorbMLAGen.construct path devices name c d numKvHeads)

def Attention.construct : Construction :=
  let path := name :: path
  container path devices [
    ColumnParallelLinear.construct path devices "attn_qkv_proj" d.hiddenDim
      (d.headDim * (c.numHeads + 2 * d.numKvHeads)),
    SelfAttentionParallel.construct path devices "self_attention" c d,
    RowParallelLinear.construct path devices "attn_o_proj" (d.headDim * c.numHeads) d.hiddenDim,
    AllReduce.construct path devices "all_reduce"]

/-- The absorbed branch of `MultiLatentAttention`, after its layer norms. -/
def MultiLatentAttention.constructAbsorbed : List Construction := [
  BatchedColumnParallelLinear.construct path devices "attn_q_up_proj" d.qLoraRank
    (c.numHeads * c.qkNopeHeadDim) c.numHeads false,
  BatchedColumnParallelLinear.construct path devices "attn_qr_proj" d.qLoraRank
    (c.numHeads * c.qkRopeHeadDim) c.numHeads false,
  BatchedRoPE.construct path devices "q_rope",
  BatchedRowParallelLinear.construct path devices "attn_tr_k_up_proj" (d.headDim * c.numHeads)
    d.kvLoraRank c.numHeads false,
  AbsorbMLAParallel.construct path devices "attn_mla_absorbed" c d,
  BatchedColumnParallelLinear.construct path devices "attn_v_up_proj" d.kvLoraRank
    (c.numHeads * d.headDim) c.numHeads false,
  BatchedRowParallelLinear.construct path devices "attn_o_proj" (c.numHeads * c.qkNopeHeadDim)
    d.hiddenDim c.numHeads true,
  AllReduce.construct path devices "all_reduce"]

/-- The other branch. -/
def MultiLatentAttention.constructRestored : List Construction := [
  ColumnParallelLinear.construct path devices "attn_q_up_proj" d.qLoraRank
    (c.numHeads * c.qkNopeHeadDim),
  ColumnParallelLinear.construct path devices "attn_qr_proj" d.qLoraRank
    (c.numHeads * c.qkRopeHeadDim),
  RoPE.construct path devices "q_rope",
  CompressedKVRestore.construct path devices "c_kv_restore" c d,
  ColumnParallelLinear.construct path devices "attn_kv_up_proj" d.kvLoraRank
    (c.numHeads * 2 * d.headDim),
  MultiLatentAttentionParallel.construct path devices "multi_latent_attention" c d,
  RowParallelLinear.construct path devices "attn_o_proj" (d.headDim * c.numHeads) d.hiddenDim,
  AllReduce.construct path devices "all_reduce"]

def MultiLatentAttention.construct : Construction :=
  let path := name :: path
  container path devices <| [
    Linear.construct path devices "attn_q_down_proj" d.hiddenDim d.qLoraRank,
    Linear.construct path devices "attn_kv_down_proj" d.hiddenDim d.kvLoraRank,
    Linear.construct path devices "attn_kr_proj" d.hiddenDim c.qkRopeHeadDim,
    RoPE.construct path devices "k_rope",
    LayerNorm.construct path devices "latent_q_layer_norm" d.qLoraRank,
    LayerNorm.construct path devices "latent_kv_layer_norm" d.kvLoraRank] ++
    if c.useAbsorb then MultiLatentAttention.constructAbsorbed path devices c d
    else MultiLatentAttention.constructRestored path devices c d

/-- The module "attention" of both decoders. -/
def constructAttention : Construction :=
  if c.qkRopeHeadDim = 0 then Attention.construct path devices "attention" c d
  else MultiLatentAttention.construct path devices "attention" c d

/-! ### Feed-forward layers -/

/-- `use_dp` is not looked at. -/
def FeedForward2Way.construct (isExpert : Bool) : Construction :=
  let path := name :: path
  container path devices [
    ColumnParallelLinear.construct path devices "ffn_up_proj" d.hiddenDim
      (d.ffnDim isExpert * d.activationFactor),
    Activation.construct path "activation",
    RowParallelLinear.construct path devices "ffn_down_proj" (d.ffnDim isExpert) d.hiddenDim]

def FeedForward3Way.construct (isExpert useDp : Bool) : Construction :=
  let path := name :: path
  let column := if useDp then Linear.construct else ColumnParallelLinear.construct
  let row := if useDp then Linear.construct else RowParallelLinear.construct
  container path devices [
    column path devices "gate_proj" d.hiddenDim (d.ffnDim isExpert * d.activationFactor),
    Activation.construct path "activation",
    row path devices "down_proj" (d.ffnDim isExpert) d.hiddenDim,
    column path devices "up_proj" d.hiddenDim (d.ffnDim isExpert)]

/-- There are none but for two and three ways. -/
def constructFeedForward (isExpert useDp : Bool) : Construction :=
  if c.ffnWay = 2 then FeedForward2Way.construct path devices name d isExpert
  else if c.ffnWay = 3 then FeedForward3Way.construct path devices name d isExpert useDp
  else {}

def Sync.construct : Construction :=
  let path := name :: path
  container path devices [
    leaf .syncSet ("sync__set" :: path) devices [act "sync" [1, 1]],
    leaf .sync ("sync__" :: path) devices []]

end Layers

/-! ### Decoders -/

section Decoders

variable (b : LlmDevice) (d : LayerDims)

/-- The routed experts of the device. -/
def LlmDevice.expertFFN (b : LlmDevice) : ExpertFFN :=
  (ExpertFFN.create b.moe b.rank).toOption.getD ⟨0, 0⟩

variable (path : List String) (name : String)

/-- The modules of an `ExpertFFN` after the gate. -/
def ExpertFFN.constructRouted : List Construction := [
  leaf .gateUpdate ("gate_update" :: path) b.deviceList [act "gate_update_output" [1, 1]],
  leaf .moeScatter ("moe_scatter" :: path) b.deviceList [act "moe_scatter_output" [1, 1]],
  leaf (.route b.expertFFN.expertOffset b.moe.numRoutedExpert) ("moe_route" :: path) b.deviceList
    (weight "route_weight" [d.hiddenDim, b.moe.numRoutedExpert] ::
      (List.range b.moe.numRoutedExpert).map fun expert =>
        act ("expert_input_" ++ toString expert) [1, 1]),
  each (fun expert : ℕ => constructFeedForward path b.expertDeviceList
    ("expert_FFN_" ++ toString expert) b.config d true false) b.expertFFN.experts,
  each (fun k : ℕ => constructFeedForward path b.nonMoeDeviceList
    ("shared_expert_FFN_" ++ toString k) b.config d true true)
    (List.range b.config.numSharedExpert),
  AllReduce.construct path b.expertDeviceList "moe_all_reduce_for_e_tp",
  leaf .moeGather ("moe_gather" :: path) b.deviceList [act "moe_gather_output" [1, 1]],
  AllReduce.construct path b.nonMoeDeviceList "moe_all_reduce_for_gather",
  Sync.construct path b.deviceList "sync_0",
  Sync.construct path b.deviceList "sync_for_moe_scatter",
  Sync.construct path b.deviceList "sync_2",
  Sync.construct path b.deviceList "sync_3",
  Sync.construct path b.deviceList "sync_for_moe_gather",
  Sync.construct path b.deviceList "sync_5",
  Sync.construct path b.deviceList "sync_6"]

/-- The gate is on the device itself. -/
def ExpertFFN.construct : Construction :=
  let path := name :: path
  container path b.deviceList <| [
    checked (ExpertFFN.create b.moe b.rank),
    ColumnParallelLinear.construct path [b.rank] "gate_fn" d.hiddenDim b.moe.numRoutedExpert] ++
    ExpertFFN.constructRouted b d path

def Decoder.constructDense : Construction :=
  let path := name :: path
  let devices := b.nonMoeDeviceList
  container path b.deviceList [
    checked (Decoder.create b.moe b.rank),
    LayerNorm.construct path devices "input_layer_norm" d.hiddenDim,
    constructAttention path devices b.config d,
    Residual.construct path devices "residual_1",
    LayerNorm.construct path devices "post_attn_layer_norm" d.hiddenDim,
    constructFeedForward path devices "feedforward" b.config d false false,
    AllReduce.construct path devices "all_reduce",
    Residual.construct path devices "residual_2"]

def MoEDecoder.construct : Construction :=
  let path := name :: path
  let devices := b.nonMoeDeviceList
  container path b.deviceList [
    checked (Decoder.create b.moe b.rank),
    LayerNorm.construct path devices "input_layer_norm" d.hiddenDim,
    constructAttention path devices b.config d,
    LayerNorm.construct path devices "residual_1" d.hiddenDim,
    LayerNorm.construct path devices "post_attn_layer_norm" d.hiddenDim,
    ExpertFFN.construct b d path "expertFFN",
    LayerNorm.construct path devices "residual_2" d.hiddenDim]

def Decoder.construct : Decoder → Construction
  | .dense layer => Decoder.constructDense b d path ("decoder_" ++ toString layer)
  | .moe layer => MoEDecoder.construct b d path ("MoE_decoder_" ++ toString layer)

namespace LLM

def construct : Construction :=
  container ["LLM"] [] [
    Embedding.construct ["LLM"] b.deviceList "Embedding_layer" d.hiddenDim d.nVocab,
    each (Decoder.construct b d ["LLM"]) (decoders b.config.toLlmConfig),
    LmHead.construct ["LLM"] b.deviceList "lm_head" d.hiddenDim d.nVocab]

/-- The modules of a device. -/
def create : Except String (Forest ModuleDecl) := (construct b d).run

end LLM

end Decoders

/-! ### The maps of the modules -/

/-- `module_map_name`. -/
def moduleMapName (path : List String) : String := written "::" path

/-- The modules of a device by their names. -/
abbrev ModuleMap := List (String × ModuleDecl)

/-- `Cluster::add_module`. -/
def ModuleMap.addModule (map : ModuleMap) (m : ModuleDecl) : Except String ModuleMap :=
  match map.lookup (moduleMapName m.path) with
  | none => .ok ((moduleMapName m.path, m) :: map)
  | some _ => .error "Cluster::add_module, same module name"

namespace Model

variable (config : LayerConfig) (moe : MoeConfig) (d : LayerDims)

/-- A module is added when its constructor is done, so after those below it. -/
def addModules (modules : Forest ModuleDecl) : Except String ModuleMap :=
  modules.postorder.foldlM ModuleMap.addModule []

def moduleMapOf (rank : ℕ) : Except String ModuleMap := do
  addModules (← LLM.create { config, moe, rank } d)

/-- `module_map`, after the constructor of the model has gone over the devices. -/
def moduleMap : Except String (List ModuleMap) :=
  (List.range moe.totalNumDevice).mapM (moduleMapOf config moe d)

end Model

namespace ModuleDecl

/-- What the tensors of a module with this tag take. -/
def tagSize (precisionByte : ℤ) (tag : TensorTag) (m : ModuleDecl) : ℤ :=
  ((m.tensorList.filter fun t => t.tag = tag).map (·.getSize precisionByte)).sum

/-- `get_size`, of all modules of a forest. -/
def getSize (precisionByte : ℤ) : Forest ModuleDecl → SizeVector
  | .nil => ⟨0, 0, 0⟩
  | .node m children rest =>
    let below := getSize precisionByte children
    let after := getSize precisionByte rest
    { act := m.tagSize precisionByte .act + below.act + after.act
      weight := m.tagSize precisionByte .weight + below.weight + after.weight
      cache := m.tagSize precisionByte .cache + below.cache + after.cache }

end ModuleDecl
end LlmSystem
