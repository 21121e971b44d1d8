import LlmSystem.Module.CacheSizes

/-!
How a tensor-parallel group shares the weights of a model without experts. The parts of its devices
are the whole of every matrix that is divided, so the memory check counts each weight once; but a
feed-forward layer of two ways may be divided where its dimension cannot be.
-/
namespace LlmSystem

open Nesting Construction

namespace Construction

variable {α : Type} {kind : LayerKind} {path : List String} {devices : List ℕ}
  {tensors : List TensorDecl} {inside : List Construction} {precisionByte : ℤ}

/-- What the weights of all modules take. -/
def weightSize (precisionByte : ℤ) (c : Construction) : ℤ :=
  ModuleDecl.tensorsSize precisionByte .weight c.content.1

@[simp] theorem weightSize_empty : ({} : Construction).weightSize precisionByte = 0 := rfl

@[simp] theorem weightSize_all (l : List Construction) :
    (all l).weightSize precisionByte = (l.map (·.weightSize precisionByte)).sum := by
  induction l with
  | nil => rfl
  | cons c l ih =>
    rw [List.map_cons, List.sum_cons, ← ih]
    simp [all, weightSize, content, ModuleDecl.tensorsSize]

@[simp] theorem weightSize_each (f : α → Construction) (l : List α) :
    (each f l).weightSize precisionByte = (l.map fun a => (f a).weightSize precisionByte).sum := by
  simp [each, Function.comp_def]

@[simp] theorem weightSize_container : (container path devices inside).weightSize precisionByte
    = (inside.map (·.weightSize precisionByte)).sum := by
  rw [← weightSize_all]
  simp [weightSize, ModuleDecl.tensorsSize]

theorem weightSize_leaf_of_plain (h : ∀ t ∈ tensors, t.tag ≠ .weight) :
    (leaf kind path devices tensors).weightSize precisionByte = 0 := by
  have hnone : (tensors.foldl TensorDecl.addTensor []).filter (fun t => t.tag = .weight) = [] := by
    simpa using TensorDecl.tag_foldl_addTensor (l := []) (by simp) h
  simp [weightSize, ModuleDecl.tensorsSize, hnone]

@[simp] theorem weightSize_assertTrue {expr : Bool} {message : String} :
    (assertTrue expr message).weightSize precisionByte = 0 := rfl

@[simp] theorem weightSize_checked {x : Except String α} :
    (checked x).weightSize precisionByte = 0 := by
  cases x <;> rfl

end Construction

section Layers

variable {path : List String} {devices : List ℕ} {name : String} {m n : ℤ} {c : LayerConfig}
  {d : LayerDims} {precisionByte : ℤ}

attribute [local simp] TensorDecl.act TensorDecl.weight TensorDecl.cache

@[simp] theorem weightSize_linear :
    (Linear.construct path devices name m n).weightSize precisionByte = precisionByte * m * n := by
  simp [Linear.construct, Construction.weightSize, ModuleDecl.tensorsSize, TensorDecl.addTensor,
    TensorDecl.getSize]

@[simp] theorem weightSize_columnParallelLinear :
    (ColumnParallelLinear.construct path devices name m n).weightSize precisionByte
      = precisionByte * m * n.tdiv devices.length := by
  simp [ColumnParallelLinear.construct]

@[simp] theorem weightSize_rowParallelLinear :
    (RowParallelLinear.construct path devices name m n).weightSize precisionByte
      = precisionByte * m.tdiv devices.length * n := by
  simp [RowParallelLinear.construct]

theorem weightSize_batchedLinear {k : ℤ} {plain : Bool} :
    (BatchedLinear.construct path devices name k m n plain).weightSize precisionByte
      = if plain then precisionByte * m * n else precisionByte * k * m * n := by
  cases plain <;> simp [BatchedLinear.construct, Construction.weightSize,
    ModuleDecl.tensorsSize, TensorDecl.addTensor, TensorDecl.getSize]

@[simp] theorem weightSize_layerNorm :
    (LayerNorm.construct path devices name n).weightSize precisionByte = precisionByte * n := by
  simp [LayerNorm.construct, Construction.weightSize, ModuleDecl.tensorsSize,
    TensorDecl.addTensor, TensorDecl.getSize]

@[simp] theorem weightSize_batchedColumnParallelLinear {heads : ℕ} :
    (BatchedColumnParallelLinear.construct path devices name m n heads false).weightSize
      precisionByte = precisionByte * (heads / devices.length : ℕ) * m * n.tdiv heads := by
  simp [BatchedColumnParallelLinear.construct, weightSize_batchedLinear]

@[simp] theorem weightSize_batchedRowParallelLinear {heads : ℕ} {plain : Bool} :
    (BatchedRowParallelLinear.construct path devices name m n heads plain).weightSize precisionByte
      = if plain then precisionByte * m.tdiv devices.length * n
        else precisionByte * (heads / devices.length : ℕ) * m.tdiv heads * n := by
  cases plain <;> simp [BatchedRowParallelLinear.construct, weightSize_batchedLinear]

@[simp] theorem weightSize_rope :
    (RoPE.construct path devices name).weightSize precisionByte = 0 :=
  Construction.weightSize_leaf_of_plain (by simp)

@[simp] theorem weightSize_batchedRoPE :
    (BatchedRoPE.construct path devices name).weightSize precisionByte = 0 :=
  Construction.weightSize_leaf_of_plain (by simp)

@[simp] theorem weightSize_allReduce :
    (AllReduce.construct path devices name).weightSize precisionByte = 0 :=
  Construction.weightSize_leaf_of_plain (by simp)

@[simp] theorem weightSize_residual :
    (Residual.construct path devices name).weightSize precisionByte = 0 :=
  Construction.weightSize_leaf_of_plain (by simp)

@[simp] theorem weightSize_activation :
    (Activation.construct path name).weightSize precisionByte = 0 :=
  Construction.weightSize_leaf_of_plain (by simp)

theorem kvCaches_tag_ne {k : ℕ} : ∀ t ∈ kvCaches c d k, t.tag ≠ .weight := fun t ht => by
  simp [kvCaches_tag t ht]

theorem latentCaches_tag_ne (kvStem peStem : String) :
    ∀ t ∈ latentCaches c d kvStem peStem, t.tag ≠ .weight := fun t ht => by
  simp [latentCaches_tag t ht]

@[simp] theorem weightSize_compressedKVRestore :
    (CompressedKVRestore.construct path devices name c d).weightSize precisionByte = 0 := by
  apply Construction.weightSize_leaf_of_plain
  rw [List.forall_mem_append]
  refine ⟨?_, by simp⟩
  split_ifs
  · exact latentCaches_tag_ne "c_kv_cache_" _
  · simp

theorem weightSize_attentionModules {sum gen : List String → List ℕ → String → Construction}
    (hsum : (sum path devices "AttentionSum").weightSize precisionByte = 0)
    (hgen : (gen path devices "AttentionGen").weightSize precisionByte = 0) :
    ((attentionModules path devices sum gen).map (·.weightSize precisionByte)).sum = 0 := by
  simp [attentionModules, hsum, hgen, Construction.weightSize_leaf_of_plain]

@[simp] theorem weightSize_selfAttentionParallel :
    (SelfAttentionParallel.construct path devices name c d).weightSize precisionByte = 0 := by
  rw [SelfAttentionParallel.construct, Construction.weightSize_container, List.map_append,
    List.sum_append, weightSize_attentionModules (Construction.weightSize_leaf_of_plain (by simp))]
  · rfl
  · apply Construction.weightSize_leaf_of_plain
    rw [List.forall_mem_append]
    exact ⟨kvCaches_tag_ne, by simp⟩

@[simp] theorem weightSize_multiLatentAttentionParallel :
    (MultiLatentAttentionParallel.construct path devices name c d).weightSize precisionByte
      = 0 := by
  rw [MultiLatentAttentionParallel.construct, Construction.weightSize_container, List.map_append,
    List.sum_append, weightSize_attentionModules (Construction.weightSize_leaf_of_plain (by simp))]
  · rfl
  · apply Construction.weightSize_leaf_of_plain
    rw [List.forall_mem_append]
    refine ⟨?_, by simp⟩
    split_ifs
    · simp
    · exact kvCaches_tag_ne

@[simp] theorem weightSize_absorbMLAParallel :
    (AbsorbMLAParallel.construct path devices name c d).weightSize precisionByte = 0 := by
  rw [AbsorbMLAParallel.construct, Construction.weightSize_container, List.map_append,
    List.sum_append, weightSize_attentionModules (Construction.weightSize_leaf_of_plain (by simp))]
  · rfl
  · apply Construction.weightSize_leaf_of_plain
    rw [List.forall_mem_append]
    exact ⟨latentCaches_tag_ne _ _, by simp⟩

/-- The projections of latent attention that every device has as a whole. -/
def replicatedWeights (c : LayerConfig) (d : LayerDims) (precisionByte : ℤ) : ℤ :=
  if c.qkRopeHeadDim = 0 then 0
  else precisionByte * d.hiddenDim * d.qLoraRank + precisionByte * d.hiddenDim * d.kvLoraRank
    + precisionByte * d.hiddenDim * c.qkRopeHeadDim + precisionByte * d.qLoraRank
    + precisionByte * d.kvLoraRank

/-- Everything else is in parts that are the whole together. -/
theorem attention_shares (path path' : List String) (precisionByte : ℤ) {devices' : List ℕ}
    (hone : devices'.length = 1) (h : AttentionSplits c d devices.length) :
    devices.length * (constructAttention path devices c d).weightSize precisionByte
      = (constructAttention path' devices' c d).weightSize precisionByte
        + (devices.length - 1) * replicatedWeights c d precisionByte := by
  have hheads : (devices.length : ℤ) * (c.numHeads / devices.length : ℕ) = c.numHeads := by
    exact_mod_cast Nat.mul_div_cancel' h.heads
  have hparts (k : ℤ) : (devices.length : ℤ) * (c.numHeads * k).tdiv devices.length
      = c.numHeads * k :=
    Int.mul_tdiv_cancel' ((Int.natCast_dvd_natCast.mpr h.heads).mul_right k)
  unfold constructAttention replicatedWeights
  split_ifs with hrope
  · have hqkv : (devices.length : ℤ)
        * (d.headDim * (c.numHeads + 2 * d.numKvHeads)).tdiv devices.length
          = d.headDim * (c.numHeads + 2 * d.numKvHeads) :=
      Int.mul_tdiv_cancel' (Dvd.dvd.mul_left (dvd_add (Int.natCast_dvd_natCast.mpr h.heads)
        (Dvd.dvd.mul_left (Int.natCast_dvd_natCast.mpr (h.kvHeads hrope)) 2)) _)
    have hout := hparts d.headDim
    rw [mul_comm (c.numHeads : ℤ)] at hout
    simp [Attention.construct, hone]
    linear_combination precisionByte * d.hiddenDim * hqkv + precisionByte * d.hiddenDim * hout
  · cases habsorb : c.useAbsorb with
    | true =>
      simp [MultiLatentAttention.construct, MultiLatentAttention.constructAbsorbed, habsorb, hone]
      push_cast at hheads
      have hnope := hparts c.qkNopeHeadDim
      linear_combination precisionByte * (
          d.qLoraRank * (c.numHeads * c.qkNopeHeadDim).tdiv c.numHeads
          + d.qLoraRank * (c.numHeads * c.qkRopeHeadDim).tdiv c.numHeads
          + (d.headDim * c.numHeads).tdiv c.numHeads * d.kvLoraRank
          + d.kvLoraRank * (c.numHeads * d.headDim).tdiv c.numHeads) * hheads
        + precisionByte * d.hiddenDim * hnope
    | false =>
      simp [MultiLatentAttention.construct, MultiLatentAttention.constructRestored, habsorb, hone]
      have hnope := hparts c.qkNopeHeadDim
      have hrot := hparts c.qkRopeHeadDim
      have hkv := hparts (2 * d.headDim)
      have hout := hparts d.headDim
      rw [← mul_assoc] at hkv
      rw [mul_comm (c.numHeads : ℤ)] at hout
      linear_combination precisionByte * d.qLoraRank * hnope + precisionByte * d.qLoraRank * hrot
        + precisionByte * d.kvLoraRank * hkv + precisionByte * d.hiddenDim * hout

/-- What a group loses of a feed-forward layer of two ways, where nothing asserts that its dimension
can be divided. -/
def lostWeights (c : LayerConfig) (d : LayerDims) (precisionByte : ℤ) (isExpert : Bool)
    (p : ℕ) : ℤ :=
  if c.ffnWay = 2 then precisionByte * d.hiddenDim * (d.ffnDim isExpert).tmod p else 0

theorem feedForward_shares (path path' : List String) (name : String) (precisionByte : ℤ)
    {devices' : List ℕ} {isExpert : Bool} (hone : devices'.length = 1)
    (h : FfnSplits c d isExpert false devices.length) :
    devices.length * (constructFeedForward path devices name c d isExpert false).weightSize
        precisionByte
      = (constructFeedForward path' devices' name c d isExpert false).weightSize precisionByte
        - lostWeights c d precisionByte isExpert devices.length := by
  unfold constructFeedForward lostWeights
  split_ifs with htwo hthree
  · have hup := Int.mul_tdiv_cancel' (h.twoWay htwo).1
    have hdown := Int.mul_tdiv_add_tmod (d.ffnDim isExpert) devices.length
    simp [FeedForward2Way.construct, hone]
    linear_combination precisionByte * d.hiddenDim * hup + precisionByte * d.hiddenDim * hdown
  · obtain ⟨hffn, -⟩ := h.threeWay hthree rfl
    have hgate := Int.mul_tdiv_cancel' (hffn.mul_right d.activationFactor)
    have hup := Int.mul_tdiv_cancel' hffn
    simp [FeedForward3Way.construct, hone]
    linear_combination precisionByte * d.hiddenDim * hgate + 2 * precisionByte * d.hiddenDim * hup
  · simp

end Layers

/-- The model with one device in a group. -/
def LlmDevice.alone (b : LlmDevice) : LlmDevice :=
  { b with config := { b.config with neTpDg := 1 }, moe := { b.moe with neTpDg := 1 } }

section Devices

variable {b : LlmDevice} {d : LayerDims} {path : List String} {x : Decoder} {precisionByte : ℤ}

theorem constructAttention_alone {devices : List ℕ} :
    constructAttention path devices b.alone.config d = constructAttention path devices b.config d :=
  rfl

theorem constructFeedForward_alone {devices : List ℕ} {name : String} {isExpert useDp : Bool} :
    constructFeedForward path devices name b.alone.config d isExpert useDp
      = constructFeedForward path devices name b.config d isExpert useDp :=
  rfl

theorem weightSize_dense {name : String} :
    (Decoder.constructDense b d path name).weightSize precisionByte
      = (constructAttention (name :: path) b.nonMoeDeviceList b.config d).weightSize precisionByte
        + (constructFeedForward (name :: path) b.nonMoeDeviceList "feedforward" b.config d false
          false).weightSize precisionByte
        + 2 * (precisionByte * d.hiddenDim) := by
  simp [Decoder.constructDense]
  ring

/-- A layer of a model without experts has its norms on every device. -/
theorem decoder_shares (path : List String) (precisionByte : ℤ) (hx : x.hasExperts = false)
    (hattention : AttentionSplits b.config d b.moe.neTpDg)
    (hfeed : DecoderSplits b.config b.moe d x) :
    b.moe.neTpDg * (Decoder.construct b d path x).weightSize precisionByte
      = (Decoder.construct b.alone d path x).weightSize precisionByte
        + (b.moe.neTpDg - 1)
          * (replicatedWeights b.config d precisionByte + 2 * (precisionByte * d.hiddenDim))
        - lostWeights b.config d precisionByte false b.moe.neTpDg := by
  have hdevices : b.nonMoeDeviceList.length = b.moe.neTpDg := by
    simp [LlmDevice.nonMoeDeviceList, MoeConfig.deviceList]
  have hone : b.alone.nonMoeDeviceList.length = 1 := by
    simp [LlmDevice.nonMoeDeviceList, MoeConfig.deviceList, LlmDevice.alone]
  cases x with
  | moe layer => cases hx
  | dense layer =>
    have hfeed : FfnSplits b.config d false false b.moe.neTpDg := hfeed
    rw [← hdevices] at hattention hfeed
    have hattn := attention_shares (("decoder_" ++ toString layer) :: path)
      (("decoder_" ++ toString layer) :: path) precisionByte hone hattention
    have hffn := feedForward_shares (("decoder_" ++ toString layer) :: path)
      (("decoder_" ++ toString layer) :: path) "feedforward" precisionByte hone hfeed
    rw [hdevices] at hattn hffn
    rw [Decoder.construct, Decoder.construct, weightSize_dense, weightSize_dense,
      constructAttention_alone, constructFeedForward_alone]
    change _ = _ + _ + 2 * (precisionByte * d.hiddenDim) + _ - _
    linear_combination hattn + hffn

theorem decoders_shares (path : List String) (precisionByte : ℤ) (l : List Decoder)
    (h : ∀ x ∈ l, x.hasExperts = false ∧ AttentionSplits b.config d b.moe.neTpDg
      ∧ DecoderSplits b.config b.moe d x) :
    b.moe.neTpDg
        * (l.map fun x => (Decoder.construct b d path x).weightSize precisionByte).sum
      = (l.map fun x => (Decoder.construct b.alone d path x).weightSize precisionByte).sum
        + (b.moe.neTpDg - 1) * (l.length
          * (replicatedWeights b.config d precisionByte + 2 * (precisionByte * d.hiddenDim)))
        - l.length * lostWeights b.config d precisionByte false b.moe.neTpDg := by
  induction l with
  | nil => simp
  | cons x l ih =>
    obtain ⟨⟨hx, hattention, hfeed⟩, hl⟩ := List.forall_mem_cons.mp h
    have hdecoder := decoder_shares path precisionByte hx hattention hfeed
    have hrest := ih hl
    simp only [List.map_cons, List.sum_cons, List.length_cons]
    push_cast
    linear_combination hdecoder + hrest

theorem weightSize_llm : (LLM.construct b d).weightSize precisionByte
    = 2 * (precisionByte * d.hiddenDim * d.nVocab)
      + ((LLM.decoders b.config.toLlmConfig).map fun x =>
        (Decoder.construct b d ["LLM"] x).weightSize precisionByte).sum := by
  have hembedding : (Embedding.construct ["LLM"] b.deviceList "Embedding_layer" d.hiddenDim
      d.nVocab).weightSize precisionByte = precisionByte * d.nVocab * d.hiddenDim := by
    simp [Embedding.construct, Construction.weightSize, ModuleDecl.tensorsSize,
      TensorDecl.addTensor, TensorDecl.getSize, TensorDecl.act, TensorDecl.weight]
  have hhead : (LmHead.construct ["LLM"] b.deviceList "lm_head" d.hiddenDim
      d.nVocab).weightSize precisionByte = precisionByte * d.hiddenDim * d.nVocab := by
    simp [LmHead.construct, Construction.weightSize, ModuleDecl.tensorsSize,
      TensorDecl.addTensor, TensorDecl.getSize, TensorDecl.act, TensorDecl.weight]
  simp only [LLM.construct, weightSize_container, List.map_cons, List.map_nil, List.sum_cons,
    List.sum_nil, weightSize_each, hembedding, hhead]
  ring

end Devices

namespace LLM

variable {config : LayerConfig} {moe : MoeConfig} {rank : ℕ} {d : LayerDims}
  {M : Forest ModuleDecl}

theorem weight_getSize {b : LlmDevice} {precisionByte : ℤ} (hM : create b d = .ok M) :
    (ModuleDecl.getSize precisionByte M).weight = (construct b d).weightSize precisionByte := by
  rw [ModuleDecl.getSize_eq, create_modules hM]
  rfl

/-- The devices of a group have the embedding, the head and the norms each, and of a model without
experts they have everything else once between them, but for what a layer of two ways loses. -/
theorem create_weight_shares (hrank : rank < moe.totalNumDevice)
    (hM : create { config, moe, rank } d = .ok M)
    (hdense : ∀ x ∈ decoders config.toLlmConfig, x.hasExperts = false) :
    ∃ M', create (LlmDevice.alone { config, moe, rank }) d = .ok M' ∧ ∀ precisionByte,
      moe.neTpDg * (ModuleDecl.getSize precisionByte M).weight
        = (ModuleDecl.getSize precisionByte M').weight
          + (moe.neTpDg - 1) * (2 * (precisionByte * d.hiddenDim * d.nVocab)
            + (decoders config.toLlmConfig).length
              * (replicatedWeights config d precisionByte + 2 * (precisionByte * d.hiddenDim)))
          - (decoders config.toLlmConfig).length
            * lostWeights config d precisionByte false moe.neTpDg := by
  have hsplits := (create_ok_iff hrank).mp ⟨M, hM⟩
  obtain ⟨M', hM'⟩ : ∃ M', create (LlmDevice.alone { config, moe, rank }) d = .ok M' := by
    have haccepted :=
      @create_ok_iff { config with neTpDg := 1 } { moe with neTpDg := 1 } d rank hrank
    refine haccepted.mpr fun x hx => ⟨Nat.one_le_of_lt hrank, ?_, ?_⟩
    · exact ⟨one_dvd _, fun _ => one_dvd _, fun _ => by simp⟩
    · cases x with
      | moe layer => cases hdense _ hx
      | dense layer => exact ⟨fun _ => by simp, fun _ _ => by simp⟩
  refine ⟨M', hM', fun precisionByte => ?_⟩
  have hdecoders := decoders_shares (b := { config, moe, rank }) ["LLM"] precisionByte _
    fun x hx => ⟨hdense x hx, (hsplits x hx).2⟩
  rw [weight_getSize hM, weight_getSize hM', weightSize_llm, weightSize_llm]
  change _ = _ + ((decoders config.toLlmConfig).map _).sum + _ - _
  linear_combination hdecoders

end LLM

/-- Two layers of two ways, whose dimension two devices cannot divide. -/
def unevenConfig : LayerConfig :=
  { smallConfig with modelName := "llama", expertFreq := 0, ffnWay := 2 }

def unevenDims : LayerDims := { smallDims with intermediateDim := 3, activationFactor := 2 }

/-- One of three columns of the second matrix is lost in each layer. -/
theorem uneven_weight_shares :
    let b : LlmDevice := { config := unevenConfig, moe := smallDevices, rank := 0 }
    ∃ M', LLM.create b.alone unevenDims = .ok M' ∧
      2 * (ModuleDecl.getSize 2 (LLM.construct b unevenDims).modules).weight
        = (ModuleDecl.getSize 2 M').weight + 272 - 2 * 8 := by
  intro b
  have hM : LLM.create b unevenDims = .ok (LLM.construct b unevenDims).modules :=
    LLM.create_of_failures (by decide +kernel)
  obtain ⟨M', hM', hshares⟩ := LLM.create_weight_shares (by decide) hM (by decide)
  exact ⟨M', hM', hshares 2⟩

end LlmSystem
