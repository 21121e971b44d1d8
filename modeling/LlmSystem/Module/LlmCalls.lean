import LlmSystem.Lib.Nesting
import LlmSystem.Module.Graph
import LlmSystem.Module.Placement
import LlmSystem.Module.TraceLayers

/-!
The calls that `LLM::forward` makes when the graphs are built. Every module calls its submodules
with `Module::operator()`, which records the call around what the submodule calls in turn; here a
forward function returns these calls with its output. Shapes of tensors, and the assertions about
them, are left out.
-/
namespace LlmSystem

open Nesting

/-- With the fields that decide which modules are created. -/
structure LayerConfig extends LlmConfig where
  ffnWay : ℤ := 2
  numSharedExpert : ℕ := 0
  numHeads : ℕ := 1
  qkNopeHeadDim : ℤ := 0
  qkRopeHeadDim : ℤ := 0
  useAbsorb : Bool := false
  deriving DecidableEq, Repr

/-- A tensor of a device, by the path of its module, innermost name first, and its own name. -/
structure TensorName where
  path : List String
  name : String
  deriving DecidableEq, Repr

/-- The class of a module. Modules that only call others are not told apart. -/
inductive LayerKind
  | container
  | embedding | lmHead
  | layerNorm | residual
  | rope | batchedRope
  | allReduce
  | linear | batchedLinear (usePlainLinear : Bool) | activation
  | compressedKVRestore
  | attentionSplit | attentionMerge
  | selfAttentionSum | selfAttentionGen
  | multiLatentAttentionSum | multiLatentAttentionGen
  | absorbMLASum | absorbMLAGen
  | syncSet | sync
  | gateUpdate
  | moeScatter | moeGather
  | route (expertOffset numRoutedExpert : ℕ)
  deriving DecidableEq, Repr

/-- A recorded call. -/
structure LayerCall where
  kind : LayerKind
  path : List String
  deviceList : List ℕ
  input : GraphInput TensorName
  output : GraphInput TensorName

namespace LayerCall

def name (c : LayerCall) : String := c.path.headD ""

/-- The tensor of the called module with this name. -/
def tensor (c : LayerCall) (name : String) : TensorName := ⟨c.path, name⟩

end LayerCall

/-- What a forward function returns, and the calls that it has made. -/
structure Calls (α : Type) where
  calls : Forest LayerCall
  result : α

namespace Calls

variable {α β : Type}

instance : Monad Calls where
  pure a := ⟨.nil, a⟩
  bind x f := ⟨x.calls.append (f x.result).calls, (f x.result).result⟩

@[simp] theorem calls_pure (a : α) : (pure a : Calls α).calls = .nil := rfl

@[simp] theorem result_pure (a : α) : (pure a : Calls α).result = a := rfl

@[simp] theorem calls_bind (x : Calls α) (f : α → Calls β) :
    (x >>= f).calls = x.calls.append (f x.result).calls := rfl

/-- The names of the called modules. -/
def names (x : Calls α) : Forest String := x.calls.map LayerCall.name

theorem names_bind (x : Calls α) (f : α → Calls β) :
    (x >>= f).names = x.names.append (f x.result).names := Forest.map_append _

/-- A loop over calls. -/
def each (f : α → Calls β) : List α → Calls (List β)
  | [] => pure []
  | a :: as => do
    let b ← f a
    let bs ← each f as
    pure (b :: bs)

/-- `operator()` on a tensor. -/
def onTensor (kind : LayerKind) (path : List String) (deviceList : List ℕ) (input : TensorName)
    (forward : Calls TensorName) : Calls TensorName :=
  ⟨.node { kind, path, deviceList, input := .tensor input, output := .tensor forward.result }
    forward.calls .nil, forward.result⟩

theorem names_onTensor (kind : LayerKind) (name : String) (path : List String)
    (deviceList : List ℕ) (input : TensorName) (forward : Calls TensorName) :
    (onTensor kind (name :: path) deviceList input forward).names
      = .node name forward.names .nil := rfl

/-- `operator()` on a `TensorVec`. -/
def onTensorVec (kind : LayerKind) (path : List String) (deviceList : List ℕ)
    (input : List TensorName) (forward : Calls (List TensorName)) : Calls (List TensorName) :=
  ⟨.node { kind, path, deviceList, input := .tensorVec input
           output := .tensorVec forward.result } forward.calls .nil, forward.result⟩

/-- A module without submodules returns its tensor `output`. -/
def leaf (kind : LayerKind) (path : List String) (deviceList : List ℕ) (output : String)
    (input : TensorName) : Calls TensorName :=
  onTensor kind path deviceList input (pure ⟨path, output⟩)

end Calls

/-! ### Linear layers -/

section Layers

variable (path : List String) (devices : List ℕ)

def Linear.forward (name : String) (input : TensorName) : Calls TensorName :=
  Calls.leaf .linear (name :: path) devices "Y" input

def parallelLinear (name : String) (input : TensorName) : Calls TensorName :=
  Calls.onTensor .container (name :: path) devices input
    (Linear.forward (name :: path) devices "Linear" input)

def ColumnParallelLinear.forward := parallelLinear path devices

def RowParallelLinear.forward := parallelLinear path devices

/-- A plain linear layer returns one tensor, the others one for each input. -/
def BatchedLinear.forward (usePlainLinear : Bool) (name : String) (input : List TensorName) :
    Calls (List TensorName) :=
  Calls.onTensorVec (.batchedLinear usePlainLinear) (name :: path) devices input
    (pure (if usePlainLinear then [⟨name :: path, "plain_linear_output"⟩]
      else input.map fun _ => ⟨name :: path, "output"⟩))

def batchedParallelLinear (usePlainLinear : Bool) (name : String) (input : List TensorName) :
    Calls (List TensorName) :=
  Calls.onTensorVec .container (name :: path) devices input
    (BatchedLinear.forward (name :: path) devices usePlainLinear "Batched_Linear" input)

def BatchedColumnParallelLinear.forward := batchedParallelLinear path devices

def BatchedRowParallelLinear.forward := batchedParallelLinear path devices

/-! ### Other layers without submodules -/

def LayerNorm.forward (name : String) (input : TensorName) : Calls TensorName :=
  Calls.leaf .layerNorm (name :: path) devices "layer_norm_output" input

def Residual.forward (name : String) (input : TensorName) : Calls TensorName :=
  Calls.leaf .residual (name :: path) devices "residual_out" input

def RoPE.forward (name : String) (input : TensorName) : Calls TensorName :=
  Calls.leaf .rope (name :: path) devices "rope_out" input

/-- Returns its input. -/
def BatchedRoPE.forward (name : String) (input : List TensorName) : Calls (List TensorName) :=
  Calls.onTensorVec .batchedRope (name :: path) devices input (pure input)

def AllReduce.forward (name : String) (input : TensorName) : Calls TensorName :=
  Calls.leaf .allReduce (name :: path) devices "allreduce_output" input

/-- Its device list is empty. -/
def Activation.forward (name : String) (input : TensorName) : Calls TensorName :=
  Calls.leaf .activation (name :: path) [] "ActOut" input

def CompressedKVRestore.forward (name : String) (input : List TensorName) :
    Calls (List TensorName) :=
  Calls.onTensorVec .compressedKVRestore (name :: path) devices input
    (pure [⟨name :: path, "concated_latent_kv"⟩, ⟨name :: path, "concated_k_rope"⟩])

/-! ### Attention -/

/-- The four modules of every attention; `AttentionMerge` returns its tensor `merged` times. -/
def attentionParallel (sum gen : LayerKind) (merged : ℕ) (input : List TensorName) :
    Calls (List TensorName) := do
  let sumTensor : TensorName := ⟨"AttentionSplit" :: path, "sum_tensor"⟩
  let genTensor : TensorName := ⟨"AttentionSplit" :: path, "gen_tensor"⟩
  let _ ← Calls.onTensorVec .attentionSplit ("AttentionSplit" :: path) devices input
    (pure [sumTensor, genTensor])
  let sumOut ← Calls.leaf sum ("AttentionSum" :: path) devices "attn_output" sumTensor
  let genOut ← Calls.leaf gen ("AttentionGen" :: path) devices "attn_output" genTensor
  Calls.onTensorVec .attentionMerge ("AttentionMerge" :: path) devices [sumOut, genOut]
    (pure (List.replicate merged ⟨"AttentionMerge" :: path, "output_tensor"⟩))

def SelfAttentionParallel.forward (name : String) (input : TensorName) : Calls TensorName :=
  Calls.onTensor .container (name :: path) devices input do
    let out ← attentionParallel (name :: path) devices .selfAttentionSum .selfAttentionGen 1
      [input]
    pure (out.headD input)

def MultiLatentAttentionParallel.forward (name : String) (input : List TensorName) :
    Calls (List TensorName) :=
  Calls.onTensorVec .container (name :: path) devices input
    (attentionParallel (name :: path) devices .multiLatentAttentionSum .multiLatentAttentionGen 1
      (input.take 1))

def AbsorbMLAParallel.forward (numHeads : ℕ) (name : String) (input : List TensorName) :
    Calls (List TensorName) :=
  Calls.onTensorVec .container (name :: path) devices input
    (attentionParallel (name :: path) devices .absorbMLASum .absorbMLAGen
      (numHeads / devices.length) input)

def Attention.forward (name : String) (input : TensorName) : Calls TensorName :=
  Calls.onTensor .container (name :: path) devices input do
    let path := name :: path
    let qkv ← ColumnParallelLinear.forward path devices "attn_qkv_proj" input
    let attnOut ← SelfAttentionParallel.forward path devices "self_attention" qkv
    let oProj ← RowParallelLinear.forward path devices "attn_o_proj" attnOut
    AllReduce.forward path devices "all_reduce" oProj

/-- The absorbed branch of `MultiLatentAttention`, after its layer norms. -/
def MultiLatentAttention.absorbed (numHeads : ℕ) (qLnOut : TensorName) : Calls TensorName := do
  let latentQueryVec := List.replicate (numHeads / devices.length) qLnOut
  let query ← BatchedColumnParallelLinear.forward path devices false "attn_q_up_proj"
    latentQueryVec
  let attnQrProjOut ← BatchedColumnParallelLinear.forward path devices false "attn_qr_proj"
    latentQueryVec
  let _ ← BatchedRoPE.forward path devices "q_rope" attnQrProjOut
  let queryXWUK ← BatchedRowParallelLinear.forward path devices false "attn_tr_k_up_proj" query
  let attnMlaOut ← AbsorbMLAParallel.forward path devices numHeads "attn_mla_absorbed" queryXWUK
  let vUpOut ← BatchedColumnParallelLinear.forward path devices false "attn_v_up_proj" attnMlaOut
  let attnOut ← BatchedRowParallelLinear.forward path devices true "attn_o_proj" vUpOut
  AllReduce.forward path devices "all_reduce" (attnOut.headD qLnOut)

/-- The other branch. It does not call `q_rope`. -/
def MultiLatentAttention.restored (qLnOut kvLnOut kRopeOut : TensorName) : Calls TensorName := do
  let restoredKv ← CompressedKVRestore.forward path devices "c_kv_restore" [kvLnOut, kRopeOut]
  let query ← ColumnParallelLinear.forward path devices "attn_q_up_proj" qLnOut
  let qRopeOut ← ColumnParallelLinear.forward path devices "attn_qr_proj" qLnOut
  let keyValue ← ColumnParallelLinear.forward path devices "attn_kv_up_proj"
    (restoredKv.headD kvLnOut)
  let attnOut ← MultiLatentAttentionParallel.forward path devices "multi_latent_attention"
    [query, keyValue, qRopeOut, kRopeOut]
  let oProj ← RowParallelLinear.forward path devices "attn_o_proj" (attnOut.headD query)
  AllReduce.forward path devices "all_reduce" oProj

def MultiLatentAttention.forward (useAbsorb : Bool) (numHeads : ℕ) (name : String)
    (input : TensorName) : Calls TensorName :=
  Calls.onTensor .container (name :: path) devices input do
    let path := name :: path
    let latentQ ← Linear.forward path devices "attn_q_down_proj" input
    let latentKv ← Linear.forward path devices "attn_kv_down_proj" input
    let attnKrProjOut ← Linear.forward path devices "attn_kr_proj" input
    let kRopeOut ← RoPE.forward path devices "k_rope" attnKrProjOut
    let qLnOut ← LayerNorm.forward path devices "latent_q_layer_norm" latentQ
    let kvLnOut ← LayerNorm.forward path devices "latent_kv_layer_norm" latentKv
    if useAbsorb then MultiLatentAttention.absorbed path devices numHeads qLnOut
    else MultiLatentAttention.restored path devices qLnOut kvLnOut kRopeOut

/-- The module "attention" of both decoders. -/
def attention (c : LayerConfig) (input : TensorName) : Calls TensorName :=
  if c.qkRopeHeadDim = 0 then Attention.forward path devices "attention" input
  else MultiLatentAttention.forward path devices c.useAbsorb c.numHeads "attention" input

/-! ### Feed-forward layers -/

/-- `perform_all_reduce` is set in none of them, so none calls its `all_reduce`. -/
def FeedForward2Way.forward (name : String) (input : TensorName) : Calls TensorName :=
  Calls.onTensor .container (name :: path) devices input do
    let path := name :: path
    let ffnUp ← ColumnParallelLinear.forward path devices "ffn_up_proj" input
    let actOut ← Activation.forward path "activation" ffnUp
    RowParallelLinear.forward path devices "ffn_down_proj" actOut

/-- With `use_dp`, the projections are plain linear layers. -/
def FeedForward3Way.forward (useDp : Bool) (name : String) (input : TensorName) :
    Calls TensorName :=
  Calls.onTensor .container (name :: path) devices input do
    let path := name :: path
    let linear := if useDp then Linear.forward path devices else parallelLinear path devices
    let gateOut ← linear "gate_proj" input
    let _ ← Activation.forward path "activation" gateOut
    let upProjOut ← linear "up_proj" input
    linear "down_proj" upProjOut

def feedForward (c : LayerConfig) (useDp : Bool) (name : String) (input : TensorName) :
    Calls TensorName :=
  if c.ffnWay = 2 then FeedForward2Way.forward path devices name input
  else FeedForward3Way.forward path devices useDp name input

/-- What linear layers and activations have, and chains and modules of them keep, is had by every
feed-forward layer. -/
theorem feedForward_rule {P : Calls TensorName → Prop}
    (hlinear : ∀ path name input, P (Linear.forward path devices name input))
    (hactivation : ∀ path name input, P (Activation.forward path name input))
    (hcontainer : ∀ path input x, P x → P (Calls.onTensor .container path devices input x))
    (hbind : ∀ (x : Calls TensorName) (f : TensorName → Calls TensorName),
      P x → P (f x.result) → P (x >>= f))
    (c : LayerConfig) (useDp : Bool) (name : String) (input : TensorName) :
    P (feedForward path devices c useDp name input) := by
  have hparallel : ∀ path name input, P (parallelLinear path devices name input) :=
    fun _ _ _ => hcontainer _ _ _ (hlinear ..)
  unfold feedForward
  split_ifs
  · exact hcontainer _ _ _
      (hbind _ _ (hparallel ..) (hbind _ _ (hactivation ..) (hparallel ..)))
  · cases useDp with
    | false =>
      exact hcontainer _ _ _ (hbind _ _ (hparallel ..)
        (hbind _ _ (hactivation ..) (hbind _ _ (hparallel ..) (hparallel ..))))
    | true =>
      exact hcontainer _ _ _ (hbind _ _ (hlinear ..)
        (hbind _ _ (hactivation ..) (hbind _ _ (hlinear ..) (hlinear ..))))

/-! ### Decoders -/

/-- `Sync` with its two modules; the second returns its input. -/
def Sync.forward (name : String) (input : TensorName) : Calls TensorName :=
  Calls.onTensor .container (name :: path) devices input do
    let path := name :: path
    let temp ← Calls.leaf .syncSet ("sync__set" :: path) devices "sync" input
    Calls.onTensor .sync ("sync__" :: path) devices temp (pure temp)

end Layers

/-- What the modules of one device are created with. -/
structure LlmDevice where
  config : LayerConfig
  moe : MoeConfig
  rank : ℕ
  deriving DecidableEq, Repr

namespace LlmDevice

/-- `device_list` of the LLM. -/
def deviceList (b : LlmDevice) : List ℕ := MoeConfig.deviceList 0 b.moe.totalNumDevice

def nonMoeDeviceList (b : LlmDevice) : List ℕ :=
  MoeConfig.deviceList (b.rank / b.moe.neTpDg * b.moe.neTpDg) b.moe.neTpDg

def expertDeviceList (b : LlmDevice) : List ℕ :=
  MoeConfig.deviceList (b.rank / b.moe.eTpDg * b.moe.eTpDg) b.moe.eTpDg

end LlmDevice

variable (b : LlmDevice)

/-- Most results are not used; the module returns that of its last call but `sync_6`. -/
def ExpertFFN.callForward (f : ExpertFFN) (path : List String) (name : String) (input : TensorName) :
    Calls TensorName :=
  Calls.onTensor .container (name :: path) b.deviceList input do
    let path := name :: path
    let routeTensor : ℕ → TensorName := fun expert =>
      ⟨"moe_route" :: path, "expert_input_" ++ toString expert⟩
    let _ ← Sync.forward path b.deviceList "sync_0" input
    let _ ← ColumnParallelLinear.forward path [b.rank] "gate_fn" input
    let gateUpdateOut ← Calls.leaf .gateUpdate ("gate_update" :: path) b.deviceList
      "gate_update_output" input
    let scatterOut ← Calls.leaf .moeScatter ("moe_scatter" :: path) b.deviceList
      "moe_scatter_output" gateUpdateOut
    let _ ← Sync.forward path b.deviceList "sync_for_moe_scatter" input
    let _ ← Calls.onTensorVec (.route f.expertOffset b.moe.numRoutedExpert) ("moe_route" :: path)
      b.deviceList [scatterOut] (pure ((List.range b.moe.numRoutedExpert).map routeTensor))
    let expertOut ← Calls.each (fun expert => feedForward path b.expertDeviceList b.config false
      ("expert_FFN_" ++ toString expert) (routeTensor expert)) f.experts
    let _ ← Sync.forward path b.deviceList "sync_2" input
    let _ ← AllReduce.forward path b.expertDeviceList "moe_all_reduce_for_e_tp" input
    let _ ← Sync.forward path b.deviceList "sync_3" input
    let _ ← Calls.onTensorVec .moeGather ("moe_gather" :: path) b.deviceList expertOut
      (pure expertOut)
    let _ ← Sync.forward path b.deviceList "sync_for_moe_gather" input
    let result ← AllReduce.forward path b.nonMoeDeviceList "moe_all_reduce_for_gather" input
    let _ ← Sync.forward path b.deviceList "sync_5" input
    let shared ← Calls.each (fun k => feedForward path b.nonMoeDeviceList b.config true
      ("shared_expert_FFN_" ++ toString k) input) (List.range b.config.numSharedExpert)
    let _ ← Sync.forward path b.deviceList "sync_6" input
    pure (shared.getLastD result)

/-- `residual_2` is created, but the second residual is `residual_1` again. -/
def Decoder.denseForward (path : List String) (name : String) (input : TensorName) :
    Calls TensorName :=
  Calls.onTensor .container (name :: path) b.deviceList input do
    let path := name :: path
    let devices := b.nonMoeDeviceList
    let inputLnOut ← LayerNorm.forward path devices "input_layer_norm" input
    let attentionOut ← attention path devices b.config inputLnOut
    let _ ← Residual.forward path devices "residual_1" attentionOut
    let postAttnLnOut ← LayerNorm.forward path devices "post_attn_layer_norm" attentionOut
    let ffnOut ← feedForward path devices b.config false "feedforward" postAttnLnOut
    let result ← AllReduce.forward path devices "all_reduce" ffnOut
    Residual.forward path devices "residual_1" result

/-- Its residuals are layer norms. -/
def MoEDecoder.forward (f : ExpertFFN) (path : List String) (name : String) (input : TensorName) :
    Calls TensorName :=
  Calls.onTensor .container (name :: path) b.deviceList input do
    let path := name :: path
    let devices := b.nonMoeDeviceList
    let inputLnOut ← LayerNorm.forward path devices "input_layer_norm" input
    let attentionOut ← attention path devices b.config inputLnOut
    let _ ← LayerNorm.forward path devices "residual_1" attentionOut
    let postAttnLnOut ← LayerNorm.forward path devices "post_attn_layer_norm" attentionOut
    let result ← ExpertFFN.callForward b f path "expertFFN" postAttnLnOut
    LayerNorm.forward path devices "residual_2" result

def Decoder.forward (f : ExpertFFN) (path : List String) (input : TensorName) :
    Decoder → Calls TensorName
  | .dense layer => Decoder.denseForward b path ("decoder_" ++ toString layer) input
  | .moe layer => MoEDecoder.forward b f path ("MoE_decoder_" ++ toString layer) input

namespace LLM

/-- Every decoder gets the output of the embedding. -/
def callForward (f : ExpertFFN) (input : TensorName) : Calls TensorName :=
  Calls.onTensor .container ["LLM"] [] input do
    let temp ← Calls.leaf .embedding ["Embedding_layer", "LLM"] b.deviceList "Hidden vector"
      input
    let outs ← Calls.each (Decoder.forward b f ["LLM"] temp) (decoders b.config.toLlmConfig)
    Calls.leaf .lmHead ["lm_head", "LLM"] b.deviceList "Hidden vector" (outs.getLastD temp)

/-- The calls of a device, if the model can be created and called: without a decoder, the input
of the head is null, and the feed-forward modules exist for two and three ways only. -/
def build (input : TensorName) : Except String (Forest LayerCall) :=
  if decoders b.config.toLlmConfig = [] then .error "null"
  else if b.config.ffnWay ≠ 2 ∧ b.config.ffnWay ≠ 3 then .error "map::at"
  else if (decoders b.config.toLlmConfig).any (·.hasExperts) then do
    let f ← ExpertFFN.create b.moe b.rank
    .ok (callForward b f input).calls
  else .ok (callForward b ⟨0, 0⟩ input).calls

theorem build_calls {b : LlmDevice} {input : TensorName} {F : Forest LayerCall}
    (h : build b input = .ok F) : ∃ f, F = (callForward b f input).calls := by
  unfold build at h
  split_ifs at h
  · obtain ⟨f, -, h⟩ := Runs.bind_eq_ok h
    exact ⟨f, (Except.ok.inj h).symm⟩
  · exact ⟨_, (Except.ok.inj h).symm⟩

end LLM
end LlmSystem
