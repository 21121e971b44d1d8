import LlmSystem.Module.Peers

/-!
`checkMemorySize` looks at device 0 only. The constructors of two devices differ in the groups and
in the numbers of the experts, but the same assertions hold, and the tensors are the same, so that
the sizes of device 0 are those of every device.
-/
namespace LlmSystem

open Nesting

namespace Construction

/-- The tensors of the modules, in the order of these, and the failed assertions. -/
def content (c : Construction) : List (List TensorDecl) × List String :=
  (c.modules.toList.map (·.tensorList), c.failures)

variable {α : Type} {kind : LayerKind} {path : List String} {devices : List ℕ}
  {tensors : List TensorDecl}

@[simp] theorem content_all (l : List Construction) : (all l).content
    = ((l.map content).flatMap Prod.fst, (l.map content).flatMap Prod.snd) := by
  induction l with
  | nil => rfl
  | cons c l ih =>
    obtain ⟨hmodules, hfailures⟩ := Prod.mk.inj ih
    simp [all, content, hmodules, hfailures]

@[simp] theorem content_each (f : α → Construction) (l : List α) : (each f l).content
    = ((l.map fun a => (f a).content).flatMap Prod.fst,
        (l.map fun a => (f a).content).flatMap Prod.snd) := by
  simp [each, Function.comp_def]

@[simp] theorem content_leaf : (leaf kind path devices tensors).content
    = ([tensors.foldl TensorDecl.addTensor []], []) := rfl

@[simp] theorem content_container (inside : List Construction) :
    (container path devices inside).content
      = ([] :: (all inside).content.1, (all inside).content.2) := by
  simp [container, create, content, Forest.toList]

/-- A loop of constructors that do the same. -/
theorem content_each_const {f g : ℕ → Construction} {l l' : List ℕ} (hlength : l.length = l'.length)
    (h : ∀ a a', (f a).content = (g a').content) : (each f l).content = (each g l').content := by
  have hmap : (l.map fun a => (f a).content) = l'.map fun a => (g a).content := by
    apply List.ext_getElem
    · simp [hlength]
    · intro i _ _
      simpa using h _ _
  simp [hmap]

end Construction

open Construction

section Layers

variable (path path' : List String) {devices devices' : List ℕ} (name name' : String)
  (hlength : devices.length = devices'.length) (c : LayerConfig) (d : LayerDims)
include hlength

theorem content_attention : (constructAttention path devices c d).content
    = (constructAttention path' devices' c d).content := by
  unfold constructAttention
  split_ifs
  · simp [Attention.construct, ColumnParallelLinear.construct, RowParallelLinear.construct,
      Linear.construct, SelfAttentionParallel.construct, attentionModules,
      SelfAttentionSum.construct, SelfAttentionGen.construct, AllReduce.construct, hlength]
  · cases habsorb : c.useAbsorb with
    | false =>
      simp [MultiLatentAttention.construct, habsorb, MultiLatentAttention.constructRestored,
        ColumnParallelLinear.construct, RowParallelLinear.construct, Linear.construct,
        RoPE.construct, LayerNorm.construct, CompressedKVRestore.construct,
        MultiLatentAttentionParallel.construct, attentionModules,
        MultiLatentAttentionSum.construct, MultiLatentAttentionGen.construct,
        AllReduce.construct, hlength]
    | true =>
      simp [MultiLatentAttention.construct, habsorb, MultiLatentAttention.constructAbsorbed,
        BatchedColumnParallelLinear.construct, BatchedRowParallelLinear.construct,
        BatchedLinear.construct, Linear.construct, RoPE.construct, BatchedRoPE.construct,
        LayerNorm.construct, AbsorbMLAParallel.construct, attentionModules,
        AbsorbMLASum.construct, AbsorbMLAGen.construct, AllReduce.construct, hlength]

theorem content_feedForward (isExpert useDp : Bool) :
    (constructFeedForward path devices name c d isExpert useDp).content
      = (constructFeedForward path' devices' name' c d isExpert useDp).content := by
  unfold constructFeedForward
  split_ifs
  · simp [FeedForward2Way.construct, ColumnParallelLinear.construct, RowParallelLinear.construct,
      Linear.construct, Activation.construct, hlength]
  · cases useDp with
    | false =>
      simp [FeedForward3Way.construct, ColumnParallelLinear.construct,
        RowParallelLinear.construct, Linear.construct, Activation.construct, hlength]
    | true => simp [FeedForward3Way.construct, Linear.construct, Activation.construct]
  · rfl

end Layers

section Devices

variable (config : LayerConfig) (moe : MoeConfig) (d : LayerDims) (rank rank' : ℕ)

/-- The experts of two devices have other numbers, but are as many. -/
theorem experts_length : (LlmDevice.expertFFN { config, moe, rank }).experts.length
    = (LlmDevice.expertFFN { config, moe, rank := rank' }).experts.length := by
  simp only [LlmDevice.expertFFN, ExpertFFN.experts, ExpertFFN.create, MoeConfig.deviceList,
    List.length_range']
  split_ifs <;> rfl

theorem content_create : (checked (ExpertFFN.create moe rank)).content
    = (checked (ExpertFFN.create moe rank')).content := by
  simp only [ExpertFFN.create, MoeConfig.deviceList, List.length_range']
  split_ifs <;> rfl

theorem content_experts (path : List String) (isExpert useDp : Bool) (stem stem' : String) :
    (each (fun n : ℕ => constructFeedForward path (LlmDevice.expertDeviceList { config, moe, rank })
      (stem ++ toString n) config d isExpert useDp)
        (LlmDevice.expertFFN { config, moe, rank }).experts).content
      = (each (fun n : ℕ => constructFeedForward path
        (LlmDevice.expertDeviceList { config, moe, rank := rank' }) (stem' ++ toString n) config d
          isExpert useDp) (LlmDevice.expertFFN { config, moe, rank := rank' }).experts).content :=
  content_each_const (experts_length config moe rank rank') fun _ _ =>
    content_feedForward _ _ _ _ (by simp [LlmDevice.expertDeviceList, MoeConfig.deviceList]) ..

theorem content_shared (path : List String) (isExpert useDp : Bool) (stem : String) (l : List ℕ) :
    (each (fun n : ℕ => constructFeedForward path (LlmDevice.nonMoeDeviceList { config, moe, rank })
      (stem ++ toString n) config d isExpert useDp) l).content
      = (each (fun n : ℕ => constructFeedForward path
        (LlmDevice.nonMoeDeviceList { config, moe, rank := rank' }) (stem ++ toString n) config d
          isExpert useDp) l).content :=
  content_each_const rfl fun _ _ =>
    content_feedForward _ _ _ _ (by simp [LlmDevice.nonMoeDeviceList, MoeConfig.deviceList]) ..

theorem content_expertFFN (path : List String) (name : String) :
    (ExpertFFN.construct { config, moe, rank } d path name).content
      = (ExpertFFN.construct { config, moe, rank := rank' } d path name).content := by
  simp only [ExpertFFN.construct, ExpertFFN.constructRouted, content_container, content_all,
    List.map_append, List.map_cons, content_create moe rank rank',
    content_experts config moe d rank rank' _ true false "expert_FFN_" "expert_FFN_",
    content_shared config moe d rank rank' _ true true "shared_expert_FFN_"]
  rfl

theorem content_decoder (path : List String) (x : Decoder) :
    (Decoder.construct { config, moe, rank } d path x).content
      = (Decoder.construct { config, moe, rank := rank' } d path x).content := by
  have hlength : (LlmDevice.nonMoeDeviceList { config, moe, rank }).length
      = (LlmDevice.nonMoeDeviceList { config, moe, rank := rank' }).length := by
    simp [LlmDevice.nonMoeDeviceList, MoeConfig.deviceList]
  have hgroup : (checked (Decoder.create moe rank)).content
      = (checked (Decoder.create moe rank')).content := by
    unfold Decoder.create
    split_ifs <;> rfl
  have hattention (path : List String) := content_attention path path hlength config d
  cases x with
  | dense layer =>
    have hffn (path : List String) :=
      content_feedForward path path "feedforward" "feedforward" hlength config d false false
    simp only [Decoder.construct, Decoder.constructDense, content_container, content_all,
      List.map_cons, hgroup, hattention, hffn]
    rfl
  | moe layer =>
    simp only [Decoder.construct, MoEDecoder.construct, content_container, content_all,
      List.map_cons, hgroup, hattention, content_expertFFN config moe d rank rank']
    rfl

theorem content_llm : (LLM.construct { config, moe, rank } d).content
    = (LLM.construct { config, moe, rank := rank' } d).content := by
  have hdecoders : (each (Decoder.construct { config, moe, rank } d ["LLM"])
      (LLM.decoders config.toLlmConfig)).content
        = (each (Decoder.construct { config, moe, rank := rank' } d ["LLM"])
          (LLM.decoders config.toLlmConfig)).content := by
    simp only [content_each, content_decoder config moe d rank rank']
  simp only [LLM.construct, content_container, content_all, List.map_cons, hdecoders]
  rfl

end Devices

/-! ### Sizes -/

namespace ModuleDecl

/-- The sizes of a list of modules, by their tensors. -/
def tensorsSize (precisionByte : ℤ) (tag : TensorTag) (tensors : List (List TensorDecl)) : ℤ :=
  (tensors.map fun l => ((l.filter fun t => t.tag = tag).map (·.getSize precisionByte)).sum).sum

/-- `get_size` adds up the tensors of all modules. -/
theorem getSize_eq (precisionByte : ℤ) (F : Forest ModuleDecl) :
    getSize precisionByte F =
      { act := tensorsSize precisionByte .act (F.toList.map (·.tensorList))
        weight := tensorsSize precisionByte .weight (F.toList.map (·.tensorList))
        cache := tensorsSize precisionByte .cache (F.toList.map (·.tensorList)) } := by
  induction F with
  | nil => rfl
  | node m children rest hchildren hrest =>
    simp [getSize, hchildren, hrest, tensorsSize, tagSize, Forest.toList, add_assoc]

end ModuleDecl

namespace LLM

variable {config : LayerConfig} {moe : MoeConfig} {d : LayerDims} {rank : ℕ} {M : Forest ModuleDecl}

/-- If one device is built, all are, and the tensors of each take as much as those of device 0. -/
theorem create_size (h : create { config, moe, rank } d = .ok M) (rank' : ℕ) :
    ∃ M', create { config, moe, rank := rank' } d = .ok M' ∧ ∀ precisionByte,
      ModuleDecl.getSize precisionByte M' = ModuleDecl.getSize precisionByte M := by
  obtain ⟨htensors, hfailures⟩ := Prod.mk.inj (content_llm config moe d rank rank')
  have hM := create_modules h
  refine ⟨(construct { config, moe, rank := rank' } d).modules, ?_, fun precisionByte => ?_⟩
  · unfold create Construction.run at h ⊢
    rw [← hfailures]
    split at h
    · rfl
    · cases h
  · rw [ModuleDecl.getSize_eq, ModuleDecl.getSize_eq, hM, htensors]

/-- The second device of the small model beside the first. -/
theorem small_create_size :
    ∃ M', create { config := smallConfig, moe := smallDevices, rank := 1 } smallDims = .ok M' ∧
      ∀ precisionByte, ModuleDecl.getSize precisionByte M' = ModuleDecl.getSize precisionByte
        (construct { config := smallConfig, moe := smallDevices, rank := 0 } smallDims).modules :=
  create_size (small_create (by decide)) 1

end LLM
end LlmSystem
