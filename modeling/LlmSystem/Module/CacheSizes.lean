import LlmSystem.Hardware.MemoryLimit
import LlmSystem.Module.Acceptance

/-!
`checkMemorySize` takes the size of all caches from the tensors, and that of one sequence from a
formula. The two agree, so the batch that it writes is smaller than the one the caches have been
created for, and every sequence in generation still finds its own.
-/
namespace LlmSystem

open Nesting

namespace TensorDecl

variable {added l : List TensorDecl}

/-- Tensors with different names are added behind each other. -/
theorem foldl_addTensor_of_nodup (h : ((l ++ added).map (·.name)).Nodup) :
    added.foldl addTensor l = l ++ added := by
  induction added generalizing l with
  | nil => simp
  | cons t added ih =>
    have hsplit : l ++ t :: added = l ++ [t] ++ added := by simp
    rw [hsplit] at h ⊢
    have hfresh : t.name ∉ l.map (·.name) := by
      rw [List.append_assoc, List.map_append] at h
      exact fun hmem => List.disjoint_of_nodup_append h hmem (by simp)
    rw [List.foldl_cons, addTensor, if_neg hfresh, ih h]

theorem tag_addTensor {tag : TensorTag} {t : TensorDecl} (h : ∀ t' ∈ l, t'.tag ≠ tag)
    (ht : t.tag ≠ tag) : ∀ t' ∈ addTensor l t, t'.tag ≠ tag := by
  unfold addTensor
  split_ifs
  · intro t' hmem
    obtain ⟨t'', hin, rfl⟩ := List.mem_map.mp hmem
    split_ifs
    · exact ht
    · exact h t'' hin
  · simpa [or_imp, forall_and] using ⟨h, ht⟩

/-- No tensor gets a tag that none of those added has. -/
theorem tag_foldl_addTensor {tag : TensorTag} (hl : ∀ t ∈ l, t.tag ≠ tag)
    (h : ∀ t ∈ added, t.tag ≠ tag) : ∀ t ∈ added.foldl addTensor l, t.tag ≠ tag := by
  induction added generalizing l with
  | nil => exact hl
  | cons t added ih =>
    obtain ⟨ht, hadded⟩ := List.forall_mem_cons.mp h
    exact ih (tag_addTensor hl ht) hadded

end TensorDecl

namespace Construction

variable {α : Type} {kind : LayerKind} {path : List String} {devices : List ℕ}
  {tensors : List TensorDecl} {inside : List Construction}

/-- The caches of all modules. -/
def caches (c : Construction) : List TensorDecl :=
  c.content.1.flatten.filter fun t => t.tag = .cache

@[simp] theorem caches_all (l : List Construction) : (all l).caches = l.flatMap caches := by
  induction l with
  | nil => rfl
  | cons c l ih =>
    rw [List.flatMap_cons, ← ih]
    simp [all, caches, content]

@[simp] theorem caches_each (f : α → Construction) (l : List α) :
    (each f l).caches = l.flatMap fun a => (f a).caches := by
  simp [each, List.flatMap_map]

@[simp] theorem caches_container :
    (container path devices inside).caches = inside.flatMap caches := by
  rw [← caches_all]
  simp [caches]

theorem caches_leaf (h : (tensors.map (·.name)).Nodup) :
    (leaf kind path devices tensors).caches = tensors.filter fun t => t.tag = .cache := by
  simp [caches, TensorDecl.foldl_addTensor_of_nodup (l := []) h]

theorem caches_leaf_of_plain (h : ∀ t ∈ tensors, t.tag ≠ .cache) :
    (leaf kind path devices tensors).caches = [] := by
  simpa [caches] using TensorDecl.tag_foldl_addTensor (l := []) (by simp) h

/-- A leaf with some caches, whose other tensors have names with other letters. -/
theorem caches_leaf_append {l l' : List TensorDecl} (hl : ∀ t ∈ l, t.tag = .cache)
    (hl' : ∀ t ∈ l', t.tag ≠ .cache) (hnodup : (l.map (·.name)).Nodup)
    (hnodup' : (l'.map (·.name)).Nodup)
    (hletters : ∀ a ∈ l.map (·.name), ∀ b ∈ l'.map (·.name), letters a ≠ letters b) :
    (leaf kind path devices (l ++ l')).caches = l := by
  have hnames : ((l ++ l').map (·.name)).Nodup := by
    rw [List.map_append]
    exact nodup_append_of_letters hnodup hnodup' hletters
  have hcaches : l.filter (fun t => t.tag = .cache) = l := by simpa using hl
  have hplain : l'.filter (fun t => t.tag = .cache) = [] := by simpa using hl'
  rw [caches_leaf hnames, List.filter_append, hcaches, hplain, List.append_nil]

end Construction

/-! ### Names of caches -/

/-- Two numbers behind a stem are told apart by the underscore between them. -/
theorem pairName_inj {stem : String} {i j i' j' : ℕ}
    (h : stem ++ toString i ++ "_" ++ toString j = stem ++ toString i' ++ "_" ++ toString j') :
    i = i' ∧ j = j' := by
  have hchars := congrArg String.toList h
  simp only [String.toList_append, List.append_assoc, List.append_cancel_left_eq] at hchars
  obtain ⟨hi, hj⟩ := append_cons_cancel (notMem_toString (c := '_') rfl j)
    (notMem_toString (c := '_') rfl j') hchars
  exact ⟨toString_nat_injective (String.toList_inj.mp hi),
    toString_nat_injective (String.toList_inj.mp hj)⟩

theorem letters_pairName (stem : String) (i j : ℕ) :
    letters (stem ++ toString i ++ "_" ++ toString j) = letters (stem ++ "_") := by
  simp only [letters_append, letters_toString_nat, List.append_nil]

theorem nodup_flatMap_of_inj {α β : Type} {l : List α} {f : α → List β} (hl : l.Nodup)
    (hf : ∀ a ∈ l, (f a).Nodup) (h : ∀ a a' b, b ∈ f a → b ∈ f a' → a = a') :
    (l.flatMap f).Nodup := by
  refine List.nodup_flatMap.mpr ⟨hf, hl.imp fun hne => ?_⟩
  exact fun b hb hb' => hne (h _ _ b hb hb')

section Caches

variable {c : LayerConfig} {d : LayerDims}

/-- The latent caches of every sequence, by the stems of their names. -/
def latentCaches (c : LayerConfig) (d : LayerDims) (kvStem peStem : String) : List TensorDecl :=
  d.seqs.flatMap fun seqIdx => [
    TensorDecl.cache (kvStem ++ toString seqIdx) [c.maxCacheLen, d.kvLoraRank],
    TensorDecl.cache (peStem ++ toString seqIdx) [c.maxCacheLen, c.qkRopeHeadDim]]

theorem latentCaches_nodup {kvStem peStem : String} (h : letters kvStem ≠ letters peStem) :
    ((latentCaches c d kvStem peStem).map (·.name)).Nodup := by
  have hnames : (latentCaches c d kvStem peStem).map (·.name)
      = d.seqs.flatMap fun i => [kvStem ++ toString i, peStem ++ toString i] :=
    List.map_flatMap
  have hne (i i' : ℕ) : kvStem ++ toString i ≠ peStem ++ toString i' := fun heq =>
    h (by rw [← letters_numbered kvStem i, heq, letters_numbered])
  have hinj (stem : String) {i i' : ℕ} (heq : stem ++ toString i = stem ++ toString i') : i = i' :=
    toString_nat_injective ((String.append_right_inj stem).mp heq)
  rw [hnames]
  refine nodup_flatMap_of_inj List.nodup_range ?_ ?_
  · intro i _
    exact List.nodup_cons.mpr ⟨List.mem_singleton.not.mpr (hne i i), List.nodup_singleton _⟩
  · simp only [List.mem_cons, List.not_mem_nil, or_false]
    rintro i i' name (rfl | rfl) (heq | heq)
    · exact hinj kvStem heq
    · exact absurd heq (hne i i')
    · exact absurd heq.symm (hne i' i)
    · exact hinj peStem heq

theorem kvCaches_nodup (n : ℕ) : ((kvCaches c d n).map (·.name)).Nodup := by
  have hstems : letters "k_cache__" ≠ letters "v_cache__" := by decide
  have hne (i j i' j' : ℕ) : "k_cache_" ++ toString i ++ "_" ++ toString j
      ≠ "v_cache_" ++ toString i' ++ "_" ++ toString j' := fun heq =>
    hstems ((letters_pairName "k_cache_" i j).symm.trans (heq ▸ letters_pairName "v_cache_" i' j'))
  have hnames : (kvCaches c d n).map (·.name) = d.seqs.flatMap fun i => (List.range n).flatMap
      fun j => ["k_cache_" ++ toString i ++ "_" ++ toString j,
        "v_cache_" ++ toString i ++ "_" ++ toString j] := by
    simp only [kvCaches, List.map_flatMap]
    rfl
  have hinj {i j i' j' : ℕ} {name : String}
      (h : name = "k_cache_" ++ toString i ++ "_" ++ toString j
        ∨ name = "v_cache_" ++ toString i ++ "_" ++ toString j)
      (h' : name = "k_cache_" ++ toString i' ++ "_" ++ toString j'
        ∨ name = "v_cache_" ++ toString i' ++ "_" ++ toString j') : i = i' ∧ j = j' := by
    rcases h with rfl | rfl
    · exact pairName_inj (h'.resolve_right (hne i j i' j'))
    · exact pairName_inj (h'.resolve_left fun heq => hne i' j' i j heq.symm)
  rw [hnames]
  refine nodup_flatMap_of_inj List.nodup_range ?_ ?_
  · intro i _
    refine nodup_flatMap_of_inj List.nodup_range ?_ ?_
    · intro j _
      exact List.nodup_cons.mpr ⟨List.mem_singleton.not.mpr (hne i j i j), List.nodup_singleton _⟩
    · intro j j' name hj hj'
      exact (hinj (List.mem_pair.mp hj) (List.mem_pair.mp hj')).2
  · intro i i' name hi hi'
    obtain ⟨j, -, hj⟩ := List.mem_flatMap.mp hi
    obtain ⟨j', -, hj'⟩ := List.mem_flatMap.mp hi'
    exact (hinj (List.mem_pair.mp hj) (List.mem_pair.mp hj')).1

theorem kvCaches_tag {n : ℕ} : ∀ t ∈ kvCaches c d n, t.tag = .cache := by
  simp only [kvCaches, List.mem_flatMap]
  rintro t ⟨i, -, j, -, ht⟩
  rcases List.mem_pair.mp ht with rfl | rfl
  · rfl
  · rfl

theorem latentCaches_tag {kvStem peStem : String} :
    ∀ t ∈ latentCaches c d kvStem peStem, t.tag = .cache := by
  simp only [latentCaches, List.mem_flatMap]
  rintro t ⟨i, -, ht⟩
  rcases List.mem_pair.mp ht with rfl | rfl
  · rfl
  · rfl

theorem kvCaches_letters {n : ℕ} : ∀ a ∈ (kvCaches c d n).map (·.name),
    letters a = letters "k_cache__" ∨ letters a = letters "v_cache__" := by
  simp only [kvCaches, List.map_flatMap, List.mem_flatMap]
  rintro a ⟨i, -, j, -, ha⟩
  rcases List.mem_pair.mp ha with rfl | rfl
  · exact .inl (letters_pairName "k_cache_" i j)
  · exact .inr (letters_pairName "v_cache_" i j)

theorem latentCaches_letters {kvStem peStem : String} :
    ∀ a ∈ (latentCaches c d kvStem peStem).map (·.name),
      letters a = letters kvStem ∨ letters a = letters peStem := by
  simp only [latentCaches, List.map_flatMap, List.mem_flatMap]
  rintro a ⟨i, -, ha⟩
  rcases List.mem_pair.mp ha with rfl | rfl
  · exact .inl (letters_numbered kvStem i)
  · exact .inr (letters_numbered peStem i)

variable {path : List String} {devices : List ℕ} {name : String}

/-- The key and value caches, beside other tensors. -/
theorem caches_leaf_kv {kind : LayerKind} {n : ℕ} {l : List TensorDecl}
    (hl : ∀ t ∈ l, t.tag ≠ .cache) (hnodup : (l.map (·.name)).Nodup)
    (hletters : ∀ b ∈ l.map (·.name),
      letters "k_cache__" ≠ letters b ∧ letters "v_cache__" ≠ letters b) :
    (Construction.leaf kind path devices (kvCaches c d n ++ l)).caches = kvCaches c d n := by
  refine Construction.caches_leaf_append kvCaches_tag hl (kvCaches_nodup n) hnodup ?_
  intro a ha b hb
  rcases kvCaches_letters a ha with heq | heq
  · exact heq ▸ (hletters b hb).1
  · exact heq ▸ (hletters b hb).2

theorem caches_leaf_latent {kind : LayerKind} {kvStem peStem : String} {l : List TensorDecl}
    (hstems : letters kvStem ≠ letters peStem) (hl : ∀ t ∈ l, t.tag ≠ .cache)
    (hnodup : (l.map (·.name)).Nodup)
    (hletters : ∀ b ∈ l.map (·.name), letters kvStem ≠ letters b ∧ letters peStem ≠ letters b) :
    (Construction.leaf kind path devices (latentCaches c d kvStem peStem ++ l)).caches
      = latentCaches c d kvStem peStem := by
  refine Construction.caches_leaf_append latentCaches_tag hl (latentCaches_nodup hstems) hnodup ?_
  intro a ha b hb
  rcases latentCaches_letters a ha with heq | heq
  · exact heq ▸ (hletters b hb).1
  · exact heq ▸ (hletters b hb).2

/-- The caches of an attention on one of `p` devices. -/
def attentionCaches (c : LayerConfig) (d : LayerDims) (p : ℕ) : List TensorDecl :=
  if c.qkRopeHeadDim = 0 then kvCaches c d (d.numKvHeads / p)
  else if c.useAbsorb then latentCaches c d "latent_kv_cache_" "latent_pe_cache_"
  else if d.compressedKv then latentCaches c d "c_kv_cache_" "c_pe_cache_"
  else kvCaches c d (d.numKvHeads / p)

theorem caches_selfAttentionGen {n : ℕ} :
    (SelfAttentionGen.construct path devices name c d n).caches = kvCaches c d n :=
  caches_leaf_kv (by simp [TensorDecl.act]) (by simp) (by simp [TensorDecl.act]; decide)

theorem caches_multiLatentAttentionGen {n : ℕ} :
    (MultiLatentAttentionGen.construct path devices name c d n).caches
      = if d.compressedKv then [] else kvCaches c d n := by
  unfold MultiLatentAttentionGen.construct
  split_ifs
  · exact Construction.caches_leaf_of_plain (by simp [TensorDecl.act])
  · exact caches_leaf_kv (by simp [TensorDecl.act]) (by simp) (by simp [TensorDecl.act]; decide)

theorem caches_absorbMLAGen {n : ℕ} :
    (AbsorbMLAGen.construct path devices name c d n).caches
      = latentCaches c d "latent_kv_cache_" "latent_pe_cache_" :=
  caches_leaf_latent (by decide) (by simp [TensorDecl.act]) (by simp)
    (by simp [TensorDecl.act]; decide)

theorem caches_compressedKVRestore :
    (CompressedKVRestore.construct path devices name c d).caches
      = if d.compressedKv then latentCaches c d "c_kv_cache_" "c_pe_cache_" else [] := by
  unfold CompressedKVRestore.construct
  split_ifs
  · exact caches_leaf_latent (by decide) (by simp [TensorDecl.act]) (by decide) (by simp; decide)
  · exact Construction.caches_leaf_of_plain (by simp [TensorDecl.act])

attribute [local simp] TensorDecl.act TensorDecl.weight

variable {m n : ℤ}

@[simp] theorem caches_assertTrue {expr : Bool} {message : String} :
    (Construction.assertTrue expr message).caches = [] := rfl

@[simp] theorem caches_checked {α : Type} {x : Except String α} :
    (Construction.checked x).caches = [] := by
  cases x <;> rfl

@[simp] theorem caches_linear : (Linear.construct path devices name m n).caches = [] :=
  Construction.caches_leaf_of_plain (by simp)

@[simp] theorem caches_columnParallelLinear :
    (ColumnParallelLinear.construct path devices name m n).caches = [] := by
  simp [ColumnParallelLinear.construct]

@[simp] theorem caches_rowParallelLinear :
    (RowParallelLinear.construct path devices name m n).caches = [] := by
  simp [RowParallelLinear.construct]

@[simp] theorem caches_batchedLinear {k : ℤ} {plain : Bool} :
    (BatchedLinear.construct path devices name k m n plain).caches = [] := by
  refine Construction.caches_leaf_of_plain ?_
  cases plain <;> simp

@[simp] theorem caches_batchedColumnParallelLinear {heads : ℕ} {plain : Bool} :
    (BatchedColumnParallelLinear.construct path devices name m n heads plain).caches = [] := by
  simp [BatchedColumnParallelLinear.construct]

@[simp] theorem caches_batchedRowParallelLinear {heads : ℕ} {plain : Bool} :
    (BatchedRowParallelLinear.construct path devices name m n heads plain).caches = [] := by
  simp [BatchedRowParallelLinear.construct]

@[simp] theorem caches_layerNorm : (LayerNorm.construct path devices name n).caches = [] :=
  Construction.caches_leaf_of_plain (by simp)

@[simp] theorem caches_residual : (Residual.construct path devices name).caches = [] :=
  Construction.caches_leaf_of_plain (by simp)

@[simp] theorem caches_rope : (RoPE.construct path devices name).caches = [] :=
  Construction.caches_leaf_of_plain (by simp)

@[simp] theorem caches_batchedRoPE : (BatchedRoPE.construct path devices name).caches = [] :=
  Construction.caches_leaf_of_plain (by simp)

@[simp] theorem caches_allReduce : (AllReduce.construct path devices name).caches = [] :=
  Construction.caches_leaf_of_plain (by simp)

@[simp] theorem caches_activation : (Activation.construct path name).caches = [] :=
  Construction.caches_leaf_of_plain (by simp)

/-- Only the module for the sequences in generation has caches. -/
theorem caches_attentionModules {sum gen : List String → List ℕ → String → Construction}
    (hsum : (sum path devices "AttentionSum").caches = []) :
    (attentionModules path devices sum gen).flatMap Construction.caches
      = (gen path devices "AttentionGen").caches := by
  have hsplit : (Construction.leaf .attentionSplit ("AttentionSplit" :: path) devices
      [.act "sum_tensor" [1, 1], .act "gen_tensor" [1, 1]]).caches = [] :=
    Construction.caches_leaf_of_plain (by simp)
  have hmerge : (Construction.leaf .attentionMerge ("AttentionMerge" :: path) devices
      [.act "output_tensor" [1, 1]]).caches = [] := Construction.caches_leaf_of_plain (by simp)
  simp only [attentionModules, List.flatMap_cons, List.flatMap_nil, hsplit, hsum, hmerge,
    List.nil_append, List.append_nil]

theorem caches_selfAttentionParallel :
    (SelfAttentionParallel.construct path devices name c d).caches
      = kvCaches c d (d.numKvHeads / devices.length) := by
  have hsum : (SelfAttentionSum.construct (name :: path) devices "AttentionSum" c d
      (d.numKvHeads / devices.length)).caches = [] := Construction.caches_leaf_of_plain (by simp)
  rw [SelfAttentionParallel.construct, Construction.caches_container, List.flatMap_append,
    caches_attentionModules hsum, caches_selfAttentionGen]
  rfl

theorem caches_multiLatentAttentionParallel :
    (MultiLatentAttentionParallel.construct path devices name c d).caches
      = if d.compressedKv then [] else kvCaches c d (d.numKvHeads / devices.length) := by
  have hsum : (MultiLatentAttentionSum.construct (name :: path) devices "AttentionSum" c d
      (d.numKvHeads / devices.length)).caches = [] := Construction.caches_leaf_of_plain (by simp)
  rw [MultiLatentAttentionParallel.construct, Construction.caches_container, List.flatMap_append,
    caches_attentionModules hsum, caches_multiLatentAttentionGen]
  rfl

theorem caches_absorbMLAParallel : (AbsorbMLAParallel.construct path devices name c d).caches
    = latentCaches c d "latent_kv_cache_" "latent_pe_cache_" := by
  have hsum : (AbsorbMLASum.construct (name :: path) devices "AttentionSum" c d
      (d.numKvHeads / devices.length)).caches = [] := Construction.caches_leaf_of_plain (by simp)
  rw [AbsorbMLAParallel.construct, Construction.caches_container, List.flatMap_append,
    caches_attentionModules hsum, caches_absorbMLAGen]
  rfl

theorem caches_attention : (constructAttention path devices c d).caches
    = attentionCaches c d devices.length := by
  unfold constructAttention attentionCaches
  split_ifs with hrope habsorb hcompressed
  · simp [Attention.construct, caches_selfAttentionParallel]
  · simp [MultiLatentAttention.construct, habsorb, MultiLatentAttention.constructAbsorbed,
      caches_absorbMLAParallel]
  · simp [MultiLatentAttention.construct, habsorb, MultiLatentAttention.constructRestored,
      caches_multiLatentAttentionParallel, caches_compressedKVRestore, hcompressed]
  · simp [MultiLatentAttention.construct, habsorb, MultiLatentAttention.constructRestored,
      caches_multiLatentAttentionParallel, caches_compressedKVRestore, hcompressed]

theorem caches_feedForward {isExpert useDp : Bool} :
    (constructFeedForward path devices name c d isExpert useDp).caches = [] := by
  unfold constructFeedForward
  split_ifs
  · simp [FeedForward2Way.construct]
  · cases useDp <;> simp [FeedForward3Way.construct]
  · rfl

theorem caches_sync : (Sync.construct path devices name).caches = [] := by
  simp [Sync.construct, Construction.caches_leaf_of_plain]

end Caches

section Devices

variable {b : LlmDevice} {d : LayerDims} {path : List String} {name : String}

attribute [local simp] TensorDecl.act TensorDecl.weight

theorem caches_expertFFN : (ExpertFFN.construct b d path name).caches = [] := by
  simp [ExpertFFN.construct, ExpertFFN.constructRouted, Construction.caches_leaf_of_plain,
    caches_feedForward, caches_sync]

theorem caches_decoder (x : Decoder) : (Decoder.construct b d path x).caches
    = attentionCaches b.config d b.moe.neTpDg := by
  have hdevices : b.nonMoeDeviceList.length = b.moe.neTpDg := List.length_range'
  cases x with
  | dense layer =>
    simp [Decoder.construct, Decoder.constructDense, caches_attention, caches_feedForward, hdevices]
  | moe layer =>
    simp [Decoder.construct, MoEDecoder.construct, caches_attention, caches_expertFFN, hdevices]

/-- Every decoder has the caches of one attention, and there are no others. -/
theorem LLM.caches_construct : (LLM.construct b d).caches
    = (LLM.decoders b.config.toLlmConfig).flatMap fun _ =>
        attentionCaches b.config d b.moe.neTpDg := by
  simp [LLM.construct, Embedding.construct, LmHead.construct, Construction.caches_leaf_of_plain,
    caches_decoder]

end Devices

/-! ### Sizes -/

namespace TensorDecl

/-- What tensors take together. -/
def totalSize (precisionByte : ℤ) (l : List TensorDecl) : ℤ := (l.map (·.getSize precisionByte)).sum

theorem totalSize_flatMap_const {α : Type} (precisionByte size : ℤ) (l : List α)
    {f : α → List TensorDecl} (h : ∀ a, totalSize precisionByte (f a) = size) :
    totalSize precisionByte (l.flatMap f) = l.length * size := by
  induction l with
  | nil => simp [totalSize]
  | cons a l ih =>
    have ha := h a
    unfold totalSize at ha ih ⊢
    rw [List.flatMap_cons, List.map_append, List.sum_append, ha, ih, List.length_cons]
    push_cast
    ring

end TensorDecl

open TensorDecl (totalSize)

/-- The record of `ModelConfig`, with the sizes that `checkMemorySize` reads. -/
def LlmDevice.sizedModel (b : LlmDevice) (d : LayerDims) : SizedModel :=
  { b.config.toModelConfig with
    neTpDg := b.moe.neTpDg
    eTpDg := b.moe.eTpDg
    numRoutedExpert := b.moe.numRoutedExpert
    precisionByte := b.moe.precisionByte
    hiddenDim := d.hiddenDim
    headDim := d.headDim
    numHeads := b.config.numHeads
    numKvHeads := d.numKvHeads
    qLoraRank := d.qLoraRank
    kvLoraRank := d.kvLoraRank
    qkRopeHeadDim := b.config.qkRopeHeadDim
    expertIntermediateDim := d.expertIntermediateDim
    numSharedExpert := b.config.numSharedExpert
    compressedKv := d.compressedKv
    useAbsorb := b.config.useAbsorb }

section Sizes

variable {c : LayerConfig} {d : LayerDims} {precisionByte : ℤ}

theorem totalSize_kvCaches (n : ℕ) : totalSize precisionByte (kvCaches c d n)
    = d.seqs.length * (n * (2 * (precisionByte * c.maxCacheLen * d.headDim))) := by
  refine TensorDecl.totalSize_flatMap_const _ _ _ fun i => ?_
  have hpair (j : ℕ) : totalSize precisionByte [
      TensorDecl.cache ("k_cache_" ++ toString i ++ "_" ++ toString j) [c.maxCacheLen, d.headDim],
      TensorDecl.cache ("v_cache_" ++ toString i ++ "_" ++ toString j) [c.maxCacheLen, d.headDim]]
      = 2 * (precisionByte * c.maxCacheLen * d.headDim) := by
    simp [totalSize, TensorDecl.getSize, TensorDecl.cache]
    ring
  rw [TensorDecl.totalSize_flatMap_const _ _ _ hpair, List.length_range]

theorem totalSize_latentCaches (kvStem peStem : String) :
    totalSize precisionByte (latentCaches c d kvStem peStem)
      = d.seqs.length * (precisionByte * c.maxCacheLen * (d.kvLoraRank + c.qkRopeHeadDim)) := by
  refine TensorDecl.totalSize_flatMap_const _ _ _ fun i => ?_
  simp [totalSize, TensorDecl.getSize, TensorDecl.cache]
  ring

end Sizes

/-- When the formula counts the caches that are created: the layers are as many as `num_layers`, the
heads are divided evenly, and the absorbed attention, whose caches are compressed, is not combined
with caches that are not. -/
structure CachesCounted (b : LlmDevice) (d : LayerDims) : Prop where
  batch : 0 ≤ d.batchSizePerDp
  numLayers : 0 ≤ b.config.numLayers
  firstKDense : b.config.modelName = "deepseekV3" →
    0 ≤ b.config.firstKDense ∧ b.config.firstKDense ≤ b.config.numLayers
  heads : b.config.qkRopeHeadDim = 0 ∨ d.compressedKv = false → b.moe.neTpDg ∣ d.numKvHeads
  absorb : b.config.qkRopeHeadDim ≠ 0 → b.config.useAbsorb = true → d.compressedKv = true

namespace LLM

variable {b : LlmDevice} {d : LayerDims} {M : Forest ModuleDecl}

theorem layers_length (first last : ℤ) : (layers first last).length = (last - first).toNat := by
  simp [layers]

/-- There are as many decoders as layers. -/
theorem decoders_length (h : CachesCounted b d) :
    ((decoders b.config.toLlmConfig).length : ℤ) = b.config.numLayers := by
  unfold decoders
  split_ifs with hname
  · have := h.numLayers
    rw [List.length_map, layers_length]
    omega
  · obtain ⟨hdense, hle⟩ := h.firstKDense (not_not.mp hname)
    rw [List.length_append, List.length_map, List.length_map, layers_length, layers_length]
    omega

/-- The quotient of the formula is an integer. -/
theorem kvCacheSizePerSeq_plain {m : SizedModel} (hm : m.qkRopeHeadDim = 0 ∨ m.compressedKv = false)
    {k : ℤ} (hk : m.numKvHeads = m.neTpDg * k) (hne : m.neTpDg = 0 → k = 0) :
    kvCacheSizePerSeq m
      = 2 * (m.inputLen + m.outputLen) * m.numLayers * m.headDim * k * m.precisionByte := by
  have hplain : ¬ (m.qkRopeHeadDim ≠ 0 ∧ m.compressedKv = true) := by
    rcases hm with h | h <;> simp [h]
  have hquotient : (2 * (m.inputLen + m.outputLen : ℤ) * m.numLayers * m.headDim * m.numKvHeads
      / m.neTpDg * m.precisionByte : ℚ)
        = ((2 * (m.inputLen + m.outputLen) * m.numLayers * m.headDim * k * m.precisionByte : ℤ) :
          ℚ) := by
    rw [hk]
    push_cast
    by_cases hzero : m.neTpDg = 0
    · simp [hzero, hne hzero]
    · have : (m.neTpDg : ℚ) ≠ 0 := by exact_mod_cast hzero
      field_simp
  rw [kvCacheSizePerSeq, if_neg hplain, hquotient, Binary64.trunc]
  split_ifs
  · exact Int.floor_intCast _
  · exact Int.ceil_intCast _

/-- What all layers cache for the sequences of a group. -/
theorem attentionCaches_size (h : CachesCounted b d) :
    b.config.numLayers * totalSize b.moe.precisionByte (attentionCaches b.config d b.moe.neTpDg)
      = d.batchSizePerDp * kvCacheSizePerSeq (b.sizedModel d) := by
  have hseqs : (d.seqs.length : ℤ) = d.batchSizePerDp := by
    have := h.batch
    rw [LayerDims.seqs, List.length_range]
    omega
  have hplain (hm : b.config.qkRopeHeadDim = 0 ∨ d.compressedKv = false) :
      kvCacheSizePerSeq (b.sizedModel d) = 2 * (b.config.inputLen + b.config.outputLen)
        * b.config.numLayers * d.headDim * (d.numKvHeads / b.moe.neTpDg : ℕ)
        * b.moe.precisionByte := by
    have hk : (d.numKvHeads : ℤ) = b.moe.neTpDg * (d.numKvHeads / b.moe.neTpDg : ℕ) := by
      exact_mod_cast (Nat.mul_div_cancel' (h.heads hm)).symm
    have hne (hzero : (b.moe.neTpDg : ℤ) = 0) : ((d.numKvHeads / b.moe.neTpDg : ℕ) : ℤ) = 0 := by
      have hzero : b.moe.neTpDg = 0 := by exact_mod_cast hzero
      simp [hzero]
    exact kvCacheSizePerSeq_plain hm hk hne
  have hlatent (hrope : b.config.qkRopeHeadDim ≠ 0) (hcompressed : d.compressedKv = true) :
      kvCacheSizePerSeq (b.sizedModel d) = (b.config.inputLen + b.config.outputLen)
        * (d.kvLoraRank + b.config.qkRopeHeadDim) * b.config.numLayers * b.moe.precisionByte :=
    if_pos ⟨hrope, hcompressed⟩
  unfold attentionCaches
  split_ifs with hrope habsorb hcompressed
  · rw [totalSize_kvCaches, hseqs, hplain (.inl hrope), LayerConfig.maxCacheLen]
    ring
  · rw [totalSize_latentCaches, hseqs, hlatent hrope (h.absorb hrope habsorb),
      LayerConfig.maxCacheLen]
    ring
  · rw [totalSize_latentCaches, hseqs, hlatent hrope hcompressed, LayerConfig.maxCacheLen]
    ring
  · rw [totalSize_kvCaches, hseqs, hplain (.inr (by simpa using hcompressed)),
      LayerConfig.maxCacheLen]
    ring

/-- The caches of a device are those of all sequences of a group. -/
theorem create_cache_size (hM : create b d = .ok M) (h : CachesCounted b d) :
    (ModuleDecl.getSize b.moe.precisionByte M).cache
      = d.batchSizePerDp * kvCacheSizePerSeq (b.sizedModel d) := by
  have hcaches : ModuleDecl.tensorsSize b.moe.precisionByte .cache (construct b d).content.1
      = totalSize b.moe.precisionByte (construct b d).caches := by
    simp only [ModuleDecl.tensorsSize, totalSize, Construction.caches, List.filter_flatten,
      List.map_flatten, List.sum_flatten, List.map_map, Function.comp_def]
  rw [ModuleDecl.getSize_eq, create_modules hM]
  change ModuleDecl.tensorsSize b.moe.precisionByte .cache (construct b d).content.1 = _
  rw [hcaches, caches_construct, TensorDecl.totalSize_flatMap_const _ _ _ fun _ => rfl,
    decoders_length h, attentionCaches_size h]

end LLM

theorem small_counted :
    CachesCounted { config := smallConfig, moe := smallDevices, rank := 0 } smallDims where
  batch := by decide
  numLayers := by decide
  firstKDense _ := by decide
  heads _ := by decide
  absorb _ _ := rfl

/-- Four sequences of 128 bytes each, on the first device. -/
theorem small_cache_size : (ModuleDecl.getSize 2 (LLM.construct
      { config := smallConfig, moe := smallDevices, rank := 0 } smallDims).modules).cache
    = 4 * kvCacheSizePerSeq
      (LlmDevice.sizedModel { config := smallConfig, moe := smallDevices, rank := 0 } smallDims) :=
  LLM.create_cache_size (small_create (by decide)) small_counted

/-! ### The batch after the check -/

/-- Where the caches of the batch do not fit, the batch that is written is smaller. -/
theorem limitBatch_lt {s s' : Scheduler} {capacity : ℚ} {activation weight kv : ℤ}
    (hdp : 0 < s.dpDegree) (hint : s.dpDegree < 2 ^ 31) (hbatch : 0 ≤ s.batchSizePerDp)
    (htotal : s.batchSizePerDp * s.dpDegree < 2 ^ 31)
    (hfull : ¬ Fits capacity activation weight kv s.batchSizePerDp)
    (h : s.limitBatch (capacity - activation - weight) kv = .ok s') :
    s'.batchSizePerDp < s.batchSizePerDp := by
  have havail : 0 ≤ capacity - activation - weight := by
    by_contra hneg
    unfold Scheduler.limitBatch at h
    rw [if_pos (not_le.mp hneg)] at h
    cases h
  have hkv : 0 < kv := by
    by_contra hle
    have hcast : ((s.batchSizePerDp * kv : ℤ) : ℚ) ≤ 0 := by
      exact_mod_cast mul_nonpos_of_nonneg_of_nonpos hbatch (not_lt.mp hle)
    apply hfull
    unfold Fits
    push_cast at hcast ⊢
    linarith
  have hlt := (Scheduler.fits_iff_le_trunc hkv havail).not.mp hfull
  have hzero := (Scheduler.fits_iff_le_trunc hkv havail).mp (fits_zero_iff.mpr havail)
  have hcount : s.Counted (capacity - activation - weight) kv := by
    have hlow := Int.mul_nonneg hzero hdp.le
    have hhigh := Int.mul_le_mul_of_nonneg_right (not_le.mp hlt).le hdp.le
    exact ⟨hkv.ne', by omega, by omega⟩
  obtain ⟨s'', hok, -, -, hper⟩ := Scheduler.limitBatch_counted hdp hint havail hcount
  obtain rfl := Except.ok.inj (h.symm.trans hok)
  rcases hzero.eq_or_lt with hq | hq
  · rw [← hq, Int.zero_mul, Int.zero_sub, Int.neg_tdiv] at hper
    have := Int.tdiv_nonneg (show (0 : ℤ) ≤ 1 by decide) hdp.le
    omega
  · rw [Scheduler.tdiv_mul_sub_one hdp hq] at hper
    omega

/-- The batch of the scheduler is the one that the caches are created for, its product with the
data-parallel degree is held in an `int`, and the cache of a sequence is computed exactly. -/
structure BatchCounted (b : LlmDevice) (d : LayerDims) (s : Scheduler) : Prop where
  batch : s.batchSizePerDp = d.batchSizePerDp
  dpDegree : 0 < s.dpDegree ∧ s.dpDegree < 2 ^ 31
  total : s.batchSizePerDp * s.dpDegree < 2 ^ 31
  cache : IntFootprint.kvCacheSizePerSeq (b.sizedModel d) = kvCacheSizePerSeq (b.sizedModel d)

namespace LLM

variable {b : LlmDevice} {d : LayerDims} {M : Forest ModuleDecl} {c : MemorySystem}
  {s s' : Scheduler} {stop : Bool}

/-- The memory check makes the batch smaller, or leaves it as it is. -/
theorem checkMemorySize_batch (hM : create b d = .ok M) (hcount : CachesCounted b d)
    (hs : BatchCounted b d s)
    (hcheck : checkMemorySize c (b.sizedModel d) (ModuleDecl.getSize b.moe.precisionByte M) s
      = .ok (stop, s')) :
    (Rewrites c (b.sizedModel d) (ModuleDecl.getSize b.moe.precisionByte M) s →
        s'.batchSizePerDp < s.batchSizePerDp) ∧
      (¬ Rewrites c (b.sizedModel d) (ModuleDecl.getSize b.moe.precisionByte M) s →
        s'.batchSizePerDp = s.batchSizePerDp) := by
  constructor
  · intro h
    have hlimit := checkMemorySize_of_rewrites h
    rw [hcheck, hs.cache] at hlimit
    apply limitBatch_lt hs.dpDegree.1 hs.dpDegree.2 (hs.batch ▸ hcount.batch) hs.total ?_
      hlimit.symm
    have hcache := create_cache_size hM hcount
    have hlarge := h.1
    rw [hcache, ← hs.batch] at hlarge
    unfold Fits
    push_cast at hlarge ⊢
    linarith
  · intro h
    unfold checkMemorySize at hcheck
    split_ifs at hcheck with hsize hexit hlimit
    · obtain ⟨-, rfl⟩ := Prod.mk.inj (Except.ok.inj hcheck)
      rfl
    · exact absurd ⟨hsize, by simpa using hexit, hlimit⟩ h
    · obtain ⟨-, rfl⟩ := Prod.mk.inj (Except.ok.inj hcheck)
      rfl
    · obtain ⟨-, rfl⟩ := Prod.mk.inj (Except.ok.inj hcheck)
      rfl

/-- The check leaves the batch as it is or makes it smaller, so afterwards all sequences of a batch
still find their caches. -/
theorem checkMemorySize_calls_found {input : TensorName} {F : Forest LayerCall}
    (hM : create b d = .ok M) (hcount : CachesCounted b d) (hbuild : build b input = .ok F)
    (hs : BatchCounted b d s) (hbatch : 1 ≤ d.batchSizePerDp)
    (hheads : 0 < d.numKvHeads / b.moe.neTpDg)
    (hcheck : checkMemorySize c (b.sizedModel d) (ModuleDecl.getSize b.moe.precisionByte M) s
      = .ok (stop, s')) :
    (Rewrites c (b.sizedModel d) (ModuleDecl.getSize b.moe.precisionByte M) s →
        s'.batchSizePerDp < s.batchSizePerDp) ∧
      (¬ Rewrites c (b.sizedModel d) (ModuleDecl.getSize b.moe.precisionByte M) s →
        s'.batchSizePerDp = s.batchSizePerDp) ∧
      ∀ gens : ℕ, (gens : ℤ) ≤ s'.batchSizePerDp →
        F.Answered (LayerCall.Finds d.compressedKv gens) M := by
  obtain ⟨hless, hsame⟩ := checkMemorySize_batch hM hcount hs hcheck
  have hle : s'.batchSizePerDp ≤ d.batchSizePerDp := by
    by_cases h : Rewrites c (b.sizedModel d) (ModuleDecl.getSize b.moe.precisionByte M) s
    · exact hs.batch ▸ (hless h).le
    · exact hs.batch ▸ (hsame h).le
  exact ⟨hless, hsame, fun gens hgens =>
    answered_build hM hbuild ⟨hbatch, hgens.trans hle, hheads⟩⟩

/-- Room for three of the four sequences of the small model. -/
def smallMemory : MemorySystem where
  numNode := 1
  numDevice := 2
  memoryCapacity := 2976
  memCapLimit := true

/-- Two are left, and find their caches. -/
theorem small_checkMemorySize :
    let b : LlmDevice := { config := smallConfig, moe := smallDevices, rank := 0 }
    let M := (construct b smallDims).modules
    let s := Scheduler.create smallMemory.toSystemConfig (b.sizedModel smallDims).toModelConfig {} 4
      64 64 0 0
    ∃ stop s', checkMemorySize smallMemory (b.sizedModel smallDims) (ModuleDecl.getSize 2 M) s
        = .ok (stop, s') ∧ s'.batchSizePerDp = 2 ∧
      (callForward b ⟨0, 2⟩ ⟨["LLM"], "input"⟩).calls.Answered (LayerCall.Finds true 2) M := by
  intro b M s
  have htwo : (checkMemorySize smallMemory (b.sizedModel smallDims) (ModuleDecl.getSize 2 M) s).map
      (fun r => r.2.batchSizePerDp) = .ok 2 := by decide +kernel
  cases hcheck : checkMemorySize smallMemory (b.sizedModel smallDims) (ModuleDecl.getSize 2 M)
    s with
  | error e =>
    rw [hcheck] at htwo
    cases htwo
  | ok r =>
    obtain ⟨stop, s'⟩ := r
    rw [hcheck] at htwo
    have hbatch : s'.batchSizePerDp = 2 := Except.ok.inj htwo
    have hcounted : BatchCounted b smallDims s := by
      constructor
      · decide +kernel
      · decide +kernel
      · decide +kernel
      · decide +kernel
    have hfound := checkMemorySize_calls_found (small_create (by decide)) small_counted
      (small_build ⟨["LLM"], "input"⟩) hcounted (by decide) (by decide) hcheck
    exact ⟨stop, s', rfl, hbatch, hfound.2.2 2 hbatch.ge⟩

end LLM

end LlmSystem
