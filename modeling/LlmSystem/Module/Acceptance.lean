import LlmSystem.Module.EqualDevices

/-!
Which configurations the constructors accept. Most of their assertions follow from the others: it
comes down to the numbers of heads and to the dimensions that row-parallel layers have as outputs.
-/
namespace LlmSystem

open Nesting Construction

namespace Construction

variable {kind : LayerKind} {path : List String} {devices : List ℕ} {tensors : List TensorDecl}
  {inside l : List Construction} {α : Type}

/-- No assertion fails. -/
def Passes (c : Construction) : Prop := c.failures = []

@[simp] theorem passes_all : (all l).Passes ↔ ∀ c ∈ l, c.Passes := by
  induction l with
  | nil => simp [all, Passes]
  | cons c l ih =>
    simp only [Passes] at ih
    simp [all, Passes, ih]

@[simp] theorem passes_each (f : α → Construction) (l : List α) :
    (each f l).Passes ↔ ∀ a ∈ l, (f a).Passes := by
  simp [each]

theorem passes_each_const {f : α → Construction} {l : List α} {P : Prop}
    (h : ∀ a, (f a).Passes ↔ P) : (each f l).Passes ↔ (l ≠ [] → P) := by
  simp only [passes_each, h]
  exact ⟨fun hl hne => (List.exists_mem_of_ne_nil l hne).elim hl, fun hP a ha =>
    hP (List.ne_nil_of_mem ha)⟩

@[simp] theorem passes_leaf : (leaf kind path devices tensors).Passes := rfl

@[simp] theorem passes_container :
    (container path devices inside).Passes ↔ ∀ c ∈ inside, c.Passes :=
  passes_all

@[simp] theorem passes_assertTrue (expr : Bool) (message : String) :
    (assertTrue expr message).Passes ↔ expr = true := by
  cases expr <;> simp [assertTrue, Passes]

@[simp] theorem passes_checked (x : Except String α) : (checked x).Passes ↔ ∃ a, x = .ok a := by
  cases x <;> simp [checked, Passes]

theorem passes_iff {c : Construction} : c.Passes ↔ c.run = .ok c.modules := by
  unfold Passes run
  cases c.failures <;> simp

end Construction

section Layers

variable {path : List String} {devices : List ℕ} {name : String} {m n : ℤ} {c : LayerConfig}
  {d : LayerDims}

@[simp] theorem passes_linear : (Linear.construct path devices name m n).Passes := rfl

@[simp] theorem passes_columnParallelLinear :
    (ColumnParallelLinear.construct path devices name m n).Passes ↔ (devices.length : ℤ) ∣ n := by
  simp [ColumnParallelLinear.construct, Int.dvd_iff_tmod_eq_zero]

@[simp] theorem passes_rowParallelLinear :
    (RowParallelLinear.construct path devices name m n).Passes ↔ (devices.length : ℤ) ∣ n := by
  simp [RowParallelLinear.construct, Int.dvd_iff_tmod_eq_zero]

@[simp] theorem passes_batchedColumnParallelLinear {heads : ℕ} {plain : Bool} :
    (BatchedColumnParallelLinear.construct path devices name m n heads plain).Passes
      ↔ (devices.length : ℤ) ∣ n := by
  simp [BatchedColumnParallelLinear.construct, BatchedLinear.construct,
    Int.dvd_iff_tmod_eq_zero]

@[simp] theorem passes_batchedRowParallelLinear {heads : ℕ} {plain : Bool} :
    (BatchedRowParallelLinear.construct path devices name m n heads plain).Passes
      ↔ (devices.length : ℤ) ∣ m := by
  simp [BatchedRowParallelLinear.construct, BatchedLinear.construct, Int.dvd_iff_tmod_eq_zero]

@[simp] theorem passes_allReduce : (AllReduce.construct path devices name).Passes := rfl

@[simp] theorem passes_layerNorm : (LayerNorm.construct path devices name m).Passes := rfl

@[simp] theorem passes_activation : (Activation.construct path name).Passes := rfl

@[simp] theorem passes_residual : (Residual.construct path devices name).Passes := rfl

@[simp] theorem passes_rope : (RoPE.construct path devices name).Passes := rfl

@[simp] theorem passes_batchedRoPE : (BatchedRoPE.construct path devices name).Passes := rfl

@[simp] theorem passes_compressedKVRestore :
    (CompressedKVRestore.construct path devices name c d).Passes := rfl

@[simp] theorem passes_attentionModules
    {sum gen : List String → List ℕ → String → Construction} :
    (∀ c ∈ attentionModules path devices sum gen, c.Passes)
      ↔ (sum path devices "AttentionSum").Passes ∧ (gen path devices "AttentionGen").Passes := by
  simp [attentionModules]

/-- How a group of `p` devices can divide the attention. -/
@[mk_iff] structure AttentionSplits (c : LayerConfig) (d : LayerDims) (p : ℕ) : Prop where
  heads : p ∣ c.numHeads
  /-- Latent attention does not ask for this. -/
  kvHeads : c.qkRopeHeadDim = 0 → p ∣ d.numKvHeads
  /-- Absorbed attention does not ask for this. -/
  hidden : c.qkRopeHeadDim = 0 ∨ c.useAbsorb = false → (p : ℤ) ∣ d.hiddenDim

theorem passes_selfAttentionParallel :
    (SelfAttentionParallel.construct path devices name c d).Passes ↔
      devices.length ∣ c.numHeads ∧ devices.length ∣ d.numKvHeads := by
  simp [SelfAttentionParallel.construct, SelfAttentionSum.construct, SelfAttentionGen.construct,
    Nat.dvd_iff_mod_eq_zero, or_imp, forall_and]

theorem passes_multiLatentAttentionParallel :
    (MultiLatentAttentionParallel.construct path devices name c d).Passes
      ↔ devices.length ∣ c.numHeads := by
  simp [MultiLatentAttentionParallel.construct, MultiLatentAttentionSum.construct,
    MultiLatentAttentionGen.construct, Nat.dvd_iff_mod_eq_zero, or_imp, forall_and]

theorem passes_absorbMLAParallel : (AbsorbMLAParallel.construct path devices name c d).Passes
    ↔ devices.length ∣ c.numHeads := by
  simp [AbsorbMLAParallel.construct, AbsorbMLASum.construct, AbsorbMLAGen.construct,
    Nat.dvd_iff_mod_eq_zero, or_imp, forall_and]

/-- What the projections ask for follows from the heads. -/
theorem passes_selfAttention : (Attention.construct path devices name c d).Passes
    ↔ (devices.length ∣ c.numHeads ∧ devices.length ∣ d.numKvHeads)
      ∧ (devices.length : ℤ) ∣ d.hiddenDim := by
  have hqkv : devices.length ∣ c.numHeads → devices.length ∣ d.numKvHeads →
      (devices.length : ℤ) ∣ d.headDim * (c.numHeads + 2 * d.numKvHeads) := fun hheads hkv =>
    Dvd.dvd.mul_left (dvd_add (Int.natCast_dvd_natCast.mpr hheads)
      (Dvd.dvd.mul_left (Int.natCast_dvd_natCast.mpr hkv) 2)) _
  simp only [Attention.construct, passes_container, List.forall_mem_cons, List.not_mem_nil,
    passes_columnParallelLinear, passes_selfAttentionParallel, passes_rowParallelLinear,
    passes_allReduce, false_implies, implies_true, and_true]
  tauto

theorem passes_absorbed : (∀ m ∈ MultiLatentAttention.constructAbsorbed path devices c d, m.Passes)
    ↔ devices.length ∣ c.numHeads := by
  have hmul (h : devices.length ∣ c.numHeads) (k : ℤ) : (devices.length : ℤ) ∣ c.numHeads * k :=
    (Int.natCast_dvd_natCast.mpr h).mul_right k
  simp only [MultiLatentAttention.constructAbsorbed, List.forall_mem_cons, List.not_mem_nil,
    passes_batchedColumnParallelLinear, passes_batchedRowParallelLinear, passes_batchedRoPE,
    passes_absorbMLAParallel, passes_allReduce, false_implies, implies_true, and_true, true_and]
  constructor
  · rintro ⟨-, -, -, h, -⟩
    exact h
  · intro h
    exact ⟨hmul h _, hmul h _, mul_comm (c.numHeads : ℤ) _ ▸ hmul h _, h, hmul h _, hmul h _⟩

theorem passes_restored : (∀ m ∈ MultiLatentAttention.constructRestored path devices c d, m.Passes)
    ↔ devices.length ∣ c.numHeads ∧ (devices.length : ℤ) ∣ d.hiddenDim := by
  have hmul (h : devices.length ∣ c.numHeads) (k : ℤ) : (devices.length : ℤ) ∣ c.numHeads * k :=
    (Int.natCast_dvd_natCast.mpr h).mul_right k
  simp only [MultiLatentAttention.constructRestored, List.forall_mem_cons, List.not_mem_nil,
    passes_columnParallelLinear, passes_rowParallelLinear, passes_rope, passes_compressedKVRestore,
    passes_multiLatentAttentionParallel, passes_allReduce, false_implies, implies_true, and_true,
    true_and]
  constructor
  · rintro ⟨-, -, -, h, hhidden⟩
    exact ⟨h, hhidden⟩
  · rintro ⟨h, hhidden⟩
    exact ⟨hmul h _, hmul h _, mul_assoc (c.numHeads : ℤ) 2 _ ▸ hmul h _, h, hhidden⟩

theorem passes_multiLatentAttention : (MultiLatentAttention.construct path devices name c d).Passes
    ↔ devices.length ∣ c.numHeads
      ∧ (c.useAbsorb = false → (devices.length : ℤ) ∣ d.hiddenDim) := by
  simp only [MultiLatentAttention.construct, passes_container, List.forall_mem_append,
    List.forall_mem_cons, List.not_mem_nil, passes_linear, passes_rope, passes_layerNorm,
    false_implies, implies_true, and_true, true_and]
  cases hc : c.useAbsorb
  · simpa using passes_restored
  · simpa using passes_absorbed

theorem passes_attention : (constructAttention path devices c d).Passes
    ↔ AttentionSplits c d devices.length := by
  unfold constructAttention
  rw [attentionSplits_iff]
  split_ifs with hrope
  · rw [passes_selfAttention]
    simp [hrope, and_assoc]
  · rw [passes_multiLatentAttention]
    simp [hrope]

/-- How it can divide a feed-forward layer. -/
@[mk_iff] structure FfnSplits (c : LayerConfig) (d : LayerDims) (isExpert useDp : Bool) (p : ℕ) :
    Prop where
  /-- The dimension of the gate is asserted about, but not the one that is divided. -/
  twoWay : c.ffnWay = 2 →
    (p : ℤ) ∣ d.ffnDim isExpert * d.activationFactor ∧ (p : ℤ) ∣ d.hiddenDim
  threeWay : c.ffnWay = 3 → useDp = false → (p : ℤ) ∣ d.ffnDim isExpert ∧ (p : ℤ) ∣ d.hiddenDim

theorem passes_feedForward {isExpert useDp : Bool} :
    (constructFeedForward path devices name c d isExpert useDp).Passes
      ↔ FfnSplits c d isExpert useDp devices.length := by
  rw [ffnSplits_iff]
  unfold constructFeedForward
  split_ifs with htwo hthree
  · simp [FeedForward2Way.construct, htwo]
  · cases useDp with
    | true => simp [FeedForward3Way.construct, hthree]
    | false =>
      have hgate : (devices.length : ℤ) ∣ d.ffnDim isExpert →
          (devices.length : ℤ) ∣ d.ffnDim isExpert * d.activationFactor :=
        fun h => h.mul_right _
      simp only [FeedForward3Way.construct, Bool.false_eq_true, if_false, passes_container,
        List.forall_mem_cons, List.not_mem_nil, passes_columnParallelLinear,
        passes_rowParallelLinear, passes_activation, hthree]
      norm_num
      tauto
  · simp [htwo, hthree, Passes]

end Layers

namespace ExpertFFN

variable {moe : MoeConfig} {rank : ℕ}

/-- The groups of the experts are no larger than all devices. -/
theorem create_iff : (∃ f, create moe rank = .ok f)
    ↔ Accepted moe ∧ moe.eTpDg ≤ moe.totalNumDevice := by
  constructor
  · rintro ⟨f, h⟩
    refine ⟨(create_ok h).1, ?_⟩
    unfold create at h
    simp only [MoeConfig.deviceList, List.length_range'] at h
    split_ifs at h with _ _ _ hdev
    exact hdev.2
  · rintro ⟨h, hle⟩
    unfold create
    simp [MoeConfig.deviceList, Nat.mod_eq_zero_of_dvd h.ne_dvd,
      Nat.mod_eq_zero_of_dvd h.e_dvd_expert, Nat.mod_eq_zero_of_dvd h.e_dvd_device, hle,
      not_lt.mpr h.ne_le, not_lt.mpr h.group_le]

/-- On a device that exists, an accepted layer has experts. -/
theorem experts_ne_nil {f : ExpertFFN} (h : create moe rank = .ok f)
    (hrank : rank < moe.totalNumDevice) : f.experts ≠ [] := by
  obtain ⟨hmoe, hcount, -⟩ := create_ok h
  obtain ⟨-, hle⟩ := create_iff.mp ⟨f, h⟩
  have he : 0 < moe.eTpDg := Nat.pos_of_dvd_of_pos hmoe.e_dvd_device (Nat.zero_lt_of_lt hrank)
  have hcount : 0 < f.numExpertPerDevice := by
    rw [hcount]
    exact Nat.div_pos hmoe.group_le (Nat.div_pos hle he)
  simp [experts, hcount.ne']

end ExpertFFN

section Devices

variable {config : LayerConfig} {moe : MoeConfig} {d : LayerDims} {rank : ℕ} {path : List String}
  {name : String}

/-- How the devices can divide a layer of experts. -/
structure ExpertsSplit (config : LayerConfig) (moe : MoeConfig) (d : LayerDims) : Prop where
  accepted : ExpertFFN.Accepted moe
  group_le : moe.eTpDg ≤ moe.totalNumDevice
  routed : FfnSplits config d true false moe.eTpDg
  shared : 0 < config.numSharedExpert → FfnSplits config d true true moe.neTpDg

theorem passes_sync {devices : List ℕ} : (Sync.construct path devices name).Passes := by
  simp [Sync.construct]

theorem passes_routed : (∀ m ∈ ExpertFFN.constructRouted { config, moe, rank } d path, m.Passes)
    ↔ ((LlmDevice.expertFFN { config, moe, rank }).experts ≠ [] →
        FfnSplits config d true false moe.eTpDg)
      ∧ (0 < config.numSharedExpert → FfnSplits config d true true moe.neTpDg) := by
  have hrouted (expert : ℕ) : (constructFeedForward path
      (LlmDevice.expertDeviceList { config, moe, rank }) ("expert_FFN_" ++ toString expert) config d
        true false).Passes ↔ FfnSplits config d true false moe.eTpDg := by
    simp [passes_feedForward, LlmDevice.expertDeviceList, MoeConfig.deviceList]
  have hshared (k : ℕ) : (constructFeedForward path
      (LlmDevice.nonMoeDeviceList { config, moe, rank }) ("shared_expert_FFN_" ++ toString k)
        config d true true).Passes ↔ FfnSplits config d true true moe.neTpDg := by
    simp [passes_feedForward, LlmDevice.nonMoeDeviceList, MoeConfig.deviceList]
  simp only [ExpertFFN.constructRouted, List.forall_mem_cons, List.not_mem_nil,
    passes_each_const hrouted, passes_each_const hshared, passes_leaf, passes_allReduce,
    passes_sync]
  simp [pos_iff_ne_zero]

theorem passes_expertFFN (hrank : rank < moe.totalNumDevice) :
    (ExpertFFN.construct { config, moe, rank } d path name).Passes ↔ ExpertsSplit config moe d := by
  have hgate : (([rank] : List ℕ).length : ℤ) ∣ moe.numRoutedExpert := by simp
  simp only [ExpertFFN.construct, passes_container, List.forall_mem_append, List.forall_mem_cons,
    List.not_mem_nil, passes_checked, passes_columnParallelLinear, passes_routed,
    ExpertFFN.create_iff, hgate, false_implies, implies_true, and_true]
  constructor
  · rintro ⟨⟨hmoe, hle⟩, hrouted, hshared⟩
    obtain ⟨f, hf⟩ : ∃ f, ExpertFFN.create moe rank = .ok f :=
      ExpertFFN.create_iff.mpr ⟨hmoe, hle⟩
    refine ⟨hmoe, hle, hrouted ?_, hshared⟩
    simpa [LlmDevice.expertFFN, hf, Except.toOption] using ExpertFFN.experts_ne_nil hf hrank
  · rintro ⟨hmoe, hle, hrouted, hshared⟩
    exact ⟨⟨hmoe, hle⟩, fun _ => hrouted, hshared⟩

/-- How they can divide a decoder. -/
def DecoderSplits (config : LayerConfig) (moe : MoeConfig) (d : LayerDims) : Decoder → Prop
  | .dense _ => FfnSplits config d false false moe.neTpDg
  | .moe _ => ExpertsSplit config moe d

theorem passes_decoder (hrank : rank < moe.totalNumDevice) (x : Decoder) :
    (Decoder.construct { config, moe, rank } d path x).Passes
      ↔ moe.neTpDg ≤ moe.totalNumDevice ∧ AttentionSplits config d moe.neTpDg
        ∧ DecoderSplits config moe d x := by
  have hdevices : (LlmDevice.nonMoeDeviceList { config, moe, rank }).length = moe.neTpDg := by
    simp [LlmDevice.nonMoeDeviceList, MoeConfig.deviceList]
  have hgroup : (checked (Decoder.create moe rank)).Passes ↔ moe.neTpDg ≤ moe.totalNumDevice := by
    rw [passes_checked, Decoder.create]
    split_ifs with hlt
    · simp [hlt]
    · simp [not_lt.mp hlt]
  cases x with
  | dense layer =>
    simp [Decoder.construct, Decoder.constructDense, hgroup, passes_attention, passes_feedForward,
      hdevices, DecoderSplits]
  | moe layer =>
    simp [Decoder.construct, MoEDecoder.construct, hgroup, passes_attention,
      passes_expertFFN hrank, hdevices, DecoderSplits]

end Devices

namespace LLM

variable {config : LayerConfig} {moe : MoeConfig} {d : LayerDims} {rank : ℕ}

/-- The configurations that the constructors accept are those whose heads and whose dimensions the
groups of devices can divide. -/
theorem create_ok_iff (hrank : rank < moe.totalNumDevice) :
    (∃ M, create { config, moe, rank } d = .ok M) ↔ ∀ x ∈ decoders config.toLlmConfig,
      moe.neTpDg ≤ moe.totalNumDevice ∧ AttentionSplits config d moe.neTpDg
        ∧ DecoderSplits config moe d x := by
  have hpasses : (∃ M, create { config, moe, rank } d = .ok M)
      ↔ (construct { config, moe, rank } d).Passes :=
    ⟨fun ⟨M, h⟩ => passes_iff.mpr (create_modules h ▸ h), fun h => ⟨_, passes_iff.mp h⟩⟩
  rw [hpasses]
  simp [construct, Embedding.construct, LmHead.construct, passes_decoder hrank]

/-- The second device of the small model. -/
theorem small_create_ok_iff :
    (∃ M, create { config := smallConfig, moe := smallDevices, rank := 1 } smallDims = .ok M) ↔
      ∀ x ∈ decoders smallConfig.toLlmConfig, smallDevices.neTpDg ≤ smallDevices.totalNumDevice
        ∧ AttentionSplits smallConfig smallDims smallDevices.neTpDg
        ∧ DecoderSplits smallConfig smallDevices smallDims x :=
  create_ok_iff (by decide)

end LLM
end LlmSystem
