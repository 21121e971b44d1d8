import LlmSystem.Module.Construction
import LlmSystem.Module.TimeBreakDown

/-!
No two modules of a device have the same name, so `Cluster::add_module` never fails, and
`module_map` finds every module that the constructors have created, and no other.
-/
namespace LlmSystem

open Nesting

/-! ### Names with numbers -/

theorem toString_nat_injective : Function.Injective (toString : ℕ → String) := by
  intro m n h
  have hdigits : Nat.toDigits 10 m = Nat.toDigits 10 n := by
    simpa using congrArg String.toList h
  have hback := congrArg (Nat.ofDigitChars 10 · 0) hdigits
  simpa using hback

theorem notMem_toString {c : Char} (hc : c.isDigit = false) (n : ℕ) : c ∉ (toString n).toList := by
  intro hmem
  rw [Nat.isDigit_of_mem_toDigits (b := 10) (n := n) (by decide) (by decide) (by simpa using hmem)]
    at hc
  cases hc

theorem toString_int_injective : Function.Injective (toString : ℤ → String) := by
  have hsign : ∀ m n : ℕ, toString m ≠ "-" ++ toString (n + 1) := by
    intro m n h
    apply notMem_toString (c := '-') rfl m
    rw [h, String.toList_append]
    exact List.mem_append_left _ (by decide)
  intro x y h
  cases x with
  | ofNat m =>
    cases y with
    | ofNat n => exact congrArg Int.ofNat (toString_nat_injective h)
    | negSucc n => exact absurd h (hsign m n)
  | negSucc m =>
    cases y with
    | ofNat n => exact absurd h.symm (hsign n m)
    | negSucc n =>
      change "-" ++ toString (m + 1) = "-" ++ toString (n + 1) at h
      have heq := toString_nat_injective ((String.append_right_inj "-").mp h)
      rw [Nat.succ_injective heq]

theorem letters_append_int (stem : String) (n : ℤ) :
    letters (stem ++ toString n) = letters stem := by
  rw [letters_append, letters_toString_int, List.append_nil]

theorem letters_numbered (stem : String) (n : ℕ) :
    letters (stem ++ toString n) = letters stem := by
  rw [letters_append, letters_toString_nat, List.append_nil]

/-- Names that differ in more than digits. -/
theorem nodup_append_of_letters {l l' : List String} (hl : l.Nodup) (hl' : l'.Nodup)
    (h : ∀ a ∈ l, ∀ b ∈ l', letters a ≠ letters b) : (l ++ l').Nodup := by
  rw [List.nodup_append]
  exact ⟨hl, hl', fun a ha b hb heq => h a ha b hb (congrArg letters heq)⟩

theorem numbered_nodup (stem : String) {l : List ℕ} (hl : l.Nodup) :
    (l.map fun n => stem ++ toString n).Nodup :=
  hl.map fun _ _ h => toString_nat_injective ((String.append_right_inj stem).mp h)

/-- Without the separator of module names. -/
def PlainName (name : String) : Prop := ':' ∉ name.toList

instance (name : String) : Decidable (PlainName name) := inferInstanceAs (Decidable (_ ∉ _))

theorem PlainName.append {s t : String} (hs : PlainName s) (ht : PlainName t) :
    PlainName (s ++ t) := by
  unfold PlainName at *
  rw [String.toList_append, List.mem_append, not_or]
  exact ⟨hs, ht⟩

theorem plainName_of_letters {s : String} (h : letters s = []) : PlainName s := by
  intro hmem
  have hnumeral := List.filter_eq_nil_iff.mp h _ hmem
  revert hnumeral
  decide

/-! ### Paths of the modules -/

namespace Construction

variable {c : Construction} {l : List Construction} {kind : LayerKind} {path : List String}
  {deviceList : List ℕ} {tensors : List TensorDecl} {inside : List Construction} {α : Type}

/-- The paths of the modules at the top. -/
def tops (c : Construction) : List (List String) := c.modules.roots.map (·.path)

/-- The modules are below each other as their paths say. -/
def Named (c : Construction) : Prop :=
  c.modules.Licensed fun m children => children.Level PlainName ModuleDecl.path m.path

@[simp] theorem tops_all : (all l).tops = l.flatMap tops := by
  induction l with
  | nil => rfl
  | cons c l ih =>
    simp only [tops] at ih
    simp [all, tops, ih]

@[simp] theorem named_all : (all l).Named ↔ ∀ c ∈ l, c.Named := by
  induction l with
  | nil => simp [all, Named, Forest.Licensed]
  | cons c l ih =>
    simp only [Named] at ih
    simp [all, Named, ih]

@[simp] theorem tops_each (f : α → Construction) (l : List α) :
    (each f l).tops = l.flatMap fun a => (f a).tops := by
  simp [each, List.flatMap_map]

@[simp] theorem named_each (f : α → Construction) (l : List α) :
    (each f l).Named ↔ ∀ a ∈ l, (f a).Named := by
  simp [each]

@[simp] theorem tops_assertTrue (expr : Bool) (message : String) :
    (assertTrue expr message).tops = [] := rfl

@[simp] theorem named_assertTrue (expr : Bool) (message : String) :
    (assertTrue expr message).Named := trivial

@[simp] theorem tops_checked (x : Except String α) : (checked x).tops = [] := by
  cases x <;> rfl

@[simp] theorem named_checked (x : Except String α) : (checked x).Named := by
  cases x <;> trivial

@[simp] theorem tops_leaf : (leaf kind path deviceList tensors).tops = [path] := rfl

@[simp] theorem named_leaf : (leaf kind path deviceList tensors).Named :=
  ⟨⟨[], List.nodup_nil, by simp, rfl⟩, trivial, trivial⟩

@[simp] theorem tops_container : (container path deviceList inside).tops = [path] := rfl

/-- The names of the submodules are given. -/
theorem named_container (names : List String)
    (hnames : names.Nodup ∧ ∀ name ∈ names, PlainName name)
    (htops : inside.flatMap tops = names.map (· :: path)) (hinside : ∀ c ∈ inside, c.Named) :
    (container path deviceList inside).Named := by
  refine ⟨⟨names, hnames.1, hnames.2, ?_⟩, named_all.mpr hinside, trivial⟩
  rw [← htops, ← tops_all]
  rfl

end Construction

open Construction

section Layers

variable (path : List String) (devices : List ℕ) (name : String)

@[simp] theorem tops_linear (m n : ℤ) :
    (Linear.construct path devices name m n).tops = [name :: path] := rfl

@[simp] theorem named_linear (m n : ℤ) : (Linear.construct path devices name m n).Named :=
  named_leaf

@[simp] theorem tops_columnParallelLinear (m n : ℤ) :
    (ColumnParallelLinear.construct path devices name m n).tops = [name :: path] := rfl

@[simp] theorem named_columnParallelLinear (m n : ℤ) :
    (ColumnParallelLinear.construct path devices name m n).Named :=
  named_container ["Linear"] (by decide) rfl (by simp)

@[simp] theorem named_rowParallelLinear (m n : ℤ) :
    (RowParallelLinear.construct path devices name m n).Named :=
  named_container ["Linear"] (by decide) rfl (by simp)

@[simp] theorem named_batchedLinear (k m n : ℤ) (plain : Bool) :
    (BatchedLinear.construct path devices name k m n plain).Named := named_leaf

@[simp] theorem named_batchedColumnParallelLinear (m n : ℤ) (heads : ℕ) (plain : Bool) :
    (BatchedColumnParallelLinear.construct path devices name m n heads plain).Named :=
  named_container ["Batched_Linear"] (by decide) rfl (by simp)

@[simp] theorem named_batchedRowParallelLinear (m n : ℤ) (heads : ℕ) (plain : Bool) :
    (BatchedRowParallelLinear.construct path devices name m n heads plain).Named :=
  named_container ["Batched_Linear"] (by decide) rfl (by simp)

@[simp] theorem named_layerNorm (n : ℤ) : (LayerNorm.construct path devices name n).Named :=
  named_leaf

@[simp] theorem named_residual : (Residual.construct path devices name).Named := named_leaf

@[simp] theorem named_rope : (RoPE.construct path devices name).Named := named_leaf

@[simp] theorem named_batchedRope : (BatchedRoPE.construct path devices name).Named := named_leaf

@[simp] theorem named_allReduce : (AllReduce.construct path devices name).Named := named_leaf

@[simp] theorem named_activation : (Activation.construct path name).Named := named_leaf

variable (c : LayerConfig) (d : LayerDims)

@[simp] theorem named_compressedKVRestore :
    (CompressedKVRestore.construct path devices name c d).Named := named_leaf

@[simp] theorem named_selfAttentionParallel :
    (SelfAttentionParallel.construct path devices name c d).Named :=
  named_container ["AttentionSplit", "AttentionSum", "AttentionGen", "AttentionMerge"] (by decide)
    rfl (by simp [attentionModules, SelfAttentionSum.construct, SelfAttentionGen.construct])

@[simp] theorem named_multiLatentAttentionParallel :
    (MultiLatentAttentionParallel.construct path devices name c d).Named :=
  named_container ["AttentionSplit", "AttentionSum", "AttentionGen", "AttentionMerge"] (by decide)
    rfl (by
      simp [attentionModules, MultiLatentAttentionSum.construct, MultiLatentAttentionGen.construct])

@[simp] theorem named_absorbMLAParallel :
    (AbsorbMLAParallel.construct path devices name c d).Named :=
  named_container ["AttentionSplit", "AttentionSum", "AttentionGen", "AttentionMerge"] (by decide)
    rfl (by simp [attentionModules, AbsorbMLASum.construct, AbsorbMLAGen.construct])

@[simp] theorem tops_attention :
    (constructAttention path devices c d).tops = ["attention" :: path] := by
  unfold constructAttention
  split_ifs <;> rfl

@[simp] theorem named_attention : (constructAttention path devices c d).Named := by
  unfold constructAttention
  split_ifs
  · exact named_container ["attn_qkv_proj", "self_attention", "attn_o_proj", "all_reduce"]
      (by decide) rfl (by simp)
  · cases habsorb : c.useAbsorb with
    | false =>
      refine named_container ["attn_q_down_proj", "attn_kv_down_proj", "attn_kr_proj", "k_rope",
        "latent_q_layer_norm", "latent_kv_layer_norm", "attn_q_up_proj", "attn_qr_proj", "q_rope",
        "c_kv_restore", "attn_kv_up_proj", "multi_latent_attention", "attn_o_proj", "all_reduce"]
        (by decide) ?_ ?_
      · rw [habsorb]
        rfl
      · simp [habsorb, MultiLatentAttention.constructRestored]
    | true =>
      refine named_container ["attn_q_down_proj", "attn_kv_down_proj", "attn_kr_proj", "k_rope",
        "latent_q_layer_norm", "latent_kv_layer_norm", "attn_q_up_proj", "attn_qr_proj", "q_rope",
        "attn_tr_k_up_proj", "attn_mla_absorbed", "attn_v_up_proj", "attn_o_proj", "all_reduce"]
        (by decide) ?_ ?_
      · rw [habsorb]
        rfl
      · simp [habsorb, MultiLatentAttention.constructAbsorbed]

/-- The paths of feed-forward layers, of which there are none but for two and three ways. -/
theorem tops_feedForward (isExpert useDp : Bool) :
    (constructFeedForward path devices name c d isExpert useDp).tops
      = if c.ffnWay = 2 ∨ c.ffnWay = 3 then [name :: path] else [] := by
  unfold constructFeedForward
  by_cases htwo : c.ffnWay = 2
  · rw [if_pos htwo, if_pos (.inl htwo)]
    rfl
  · by_cases hthree : c.ffnWay = 3
    · rw [if_neg htwo, if_pos hthree, if_pos (.inr hthree)]
      rfl
    · rw [if_neg htwo, if_neg hthree, if_neg (not_or.mpr ⟨htwo, hthree⟩)]
      rfl

@[simp] theorem named_feedForward (isExpert useDp : Bool) :
    (constructFeedForward path devices name c d isExpert useDp).Named := by
  unfold constructFeedForward
  split_ifs
  · exact named_container ["ffn_up_proj", "activation", "ffn_down_proj"] (by decide) rfl (by simp)
  · cases useDp with
    | false =>
      exact named_container ["gate_proj", "activation", "down_proj", "up_proj"] (by decide) rfl
        (by simp)
    | true =>
      exact named_container ["gate_proj", "activation", "down_proj", "up_proj"] (by decide) rfl
        (by simp)
  · trivial

@[simp] theorem named_sync : (Sync.construct path devices name).Named :=
  named_container ["sync__set", "sync__"] (by decide) rfl (by simp)

end Layers

section Decoders

variable (b : LlmDevice) (d : LayerDims) (path : List String) (name : String)

/-- The names of numbered feed-forward layers. -/
def ffnNames (c : LayerConfig) (stem : String) (l : List ℕ) : List String :=
  if c.ffnWay = 2 ∨ c.ffnWay = 3 then l.map fun n => stem ++ toString n else []

theorem ffnNames_nodup (c : LayerConfig) (stem : String) {l : List ℕ} (hl : l.Nodup) :
    (ffnNames c stem l).Nodup := by
  unfold ffnNames
  split_ifs
  · exact numbered_nodup stem hl
  · exact List.nodup_nil

theorem plainName_ffnNames {c : LayerConfig} {stem : String} (hstem : PlainName stem)
    {l : List ℕ} : ∀ a ∈ ffnNames c stem l, PlainName a := by
  intro a ha
  unfold ffnNames at ha
  split_ifs at ha
  · obtain ⟨n, -, rfl⟩ := List.mem_map.mp ha
    exact hstem.append (plainName_of_letters (letters_toString_nat n))
  · cases ha

theorem letters_ffnNames {c : LayerConfig} {stem : String} {l : List ℕ} :
    ∀ a ∈ ffnNames c stem l, letters a = letters stem := by
  intro a ha
  unfold ffnNames at ha
  split_ifs at ha
  · obtain ⟨n, -, rfl⟩ := List.mem_map.mp ha
    exact letters_numbered stem n
  · cases ha

theorem tops_each_feedForward (devices : List ℕ) (c : LayerConfig) (stem : String)
    (isExpert useDp : Bool) (l : List ℕ) :
    (each (fun n : ℕ => constructFeedForward path devices (stem ++ toString n) c d isExpert useDp)
      l).tops = (ffnNames c stem l).map (· :: path) := by
  simp only [tops_each, tops_feedForward, ffnNames]
  split_ifs
  · rw [List.map_map, List.map_eq_flatMap]
    rfl
  · simp

/-- The names of what an `ExpertFFN` creates before its experts. -/
def gateNames : List String := ["gate_fn", "gate_update", "moe_scatter", "moe_route"]

/-- The names of what it creates after them. -/
def gatherNames : List String := ["moe_all_reduce_for_e_tp", "moe_gather",
  "moe_all_reduce_for_gather", "sync_0", "sync_for_moe_scatter", "sync_2", "sync_3",
  "sync_for_moe_gather", "sync_5", "sync_6"]

theorem named_expertFFN : (ExpertFFN.construct b d path name).Named := by
  refine named_container (gateNames ++ (ffnNames b.config "expert_FFN_" b.expertFFN.experts
    ++ (ffnNames b.config "shared_expert_FFN_" (List.range b.config.numSharedExpert)
      ++ gatherNames))) ⟨?_, ?_⟩ ?_ ?_
  · have hexperts := ffnNames_nodup b.config "expert_FFN_"
      (List.nodup_range' (s := b.expertFFN.expertOffset) (n := b.expertFFN.numExpertPerDevice))
    have hshared := ffnNames_nodup b.config "shared_expert_FFN_"
      (List.nodup_range (n := b.config.numSharedExpert))
    have hfixed : ∀ a ∈ gateNames ++ gatherNames, letters a ≠ letters "expert_FFN_" ∧
        letters a ≠ letters "shared_expert_FFN_" := by decide
    have hends : ∀ a ∈ gateNames, ∀ a' ∈ gatherNames, letters a ≠ letters a' := by decide
    have hstems : letters "expert_FFN_" ≠ letters "shared_expert_FFN_" := by decide
    apply nodup_append_of_letters (by decide)
    · apply nodup_append_of_letters hexperts
      · apply nodup_append_of_letters hshared (by decide)
        intro a ha a' ha'
        rw [letters_ffnNames a ha]
        exact (hfixed a' (List.mem_append_right _ ha')).2.symm
      · intro a ha a' ha'
        rw [letters_ffnNames a ha]
        rcases List.mem_append.mp ha' with ha' | ha'
        · rw [letters_ffnNames a' ha']
          exact hstems
        · exact (hfixed a' (List.mem_append_right _ ha')).1.symm
    · intro a ha a' ha'
      have hgate := hfixed a (List.mem_append_left _ ha)
      rcases List.mem_append.mp ha' with ha' | ha'
      · rw [letters_ffnNames a' ha']
        exact hgate.1
      · rcases List.mem_append.mp ha' with ha' | ha'
        · rw [letters_ffnNames a' ha']
          exact hgate.2
        · exact hends a ha a' ha'
  · have hfixed : ∀ a ∈ gateNames ++ gatherNames, PlainName a := by decide
    intro a ha
    rcases List.mem_append.mp ha with ha | ha
    · exact hfixed a (List.mem_append_left _ ha)
    · rcases List.mem_append.mp ha with ha | ha
      · exact plainName_ffnNames (by decide) a ha
      · rcases List.mem_append.mp ha with ha | ha
        · exact plainName_ffnNames (by decide) a ha
        · exact hfixed a (List.mem_append_right _ ha)
  · simp only [ExpertFFN.constructRouted, List.cons_append, List.nil_append, List.flatMap_cons,
      List.flatMap_nil, tops_each_feedForward, tops_checked, List.map_append]
    rfl
  · simp [ExpertFFN.constructRouted]

theorem named_denseDecoder : (Decoder.constructDense b d path name).Named := by
  by_cases hway : b.config.ffnWay = 2 ∨ b.config.ffnWay = 3
  · refine named_container ["input_layer_norm", "attention", "residual_1", "post_attn_layer_norm",
      "feedforward", "all_reduce", "residual_2"] (by decide) ?_ (by simp)
    simp only [List.flatMap_cons, tops_checked, tops_attention, tops_feedForward, if_pos hway]
    rfl
  · refine named_container ["input_layer_norm", "attention", "residual_1", "post_attn_layer_norm",
      "all_reduce", "residual_2"] (by decide) ?_ (by simp)
    simp only [List.flatMap_cons, tops_checked, tops_attention, tops_feedForward, if_neg hway]
    rfl

theorem named_moeDecoder : (MoEDecoder.construct b d path name).Named := by
  refine named_container ["input_layer_norm", "attention", "residual_1", "post_attn_layer_norm",
    "expertFFN", "residual_2"] (by decide) ?_ (by simp [named_expertFFN])
  simp only [List.flatMap_cons, tops_checked, tops_attention]
  rfl

theorem named_decoder (x : Decoder) : (Decoder.construct b d path x).Named := by
  cases x with
  | dense layer => exact named_denseDecoder b d path _
  | moe layer => exact named_moeDecoder b d path _

/-- The module name of a decoder. -/
def Decoder.moduleName : Decoder → String
  | .dense layer => "decoder_" ++ toString layer
  | .moe layer => "MoE_decoder_" ++ toString layer

theorem tops_decoder (x : Decoder) :
    (Decoder.construct b d path x).tops = [x.moduleName :: path] := by
  cases x <;> rfl

theorem Decoder.letters_moduleName (x : Decoder) : letters x.moduleName
    = if x.hasExperts then letters "MoE_decoder_" else letters "decoder_" := by
  cases x with
  | dense layer => exact letters_append_int "decoder_" layer
  | moe layer => exact letters_append_int "MoE_decoder_" layer

theorem Decoder.plainName_moduleName (x : Decoder) : PlainName x.moduleName := by
  have hstems : PlainName "MoE_decoder_" ∧ PlainName "decoder_" := by decide
  cases x with
  | dense layer => exact hstems.2.append (plainName_of_letters (letters_toString_int layer))
  | moe layer => exact hstems.1.append (plainName_of_letters (letters_toString_int layer))

theorem Decoder.moduleName_injective : Function.Injective Decoder.moduleName := by
  have hstems : letters "MoE_decoder_" ≠ letters "decoder_" := by decide
  intro x y h
  have hletters := congrArg letters h
  rw [letters_moduleName, letters_moduleName] at hletters
  cases x with
  | dense layer =>
    cases y with
    | dense layer' =>
      exact congrArg _ (toString_int_injective ((String.append_right_inj "decoder_").mp h))
    | moe layer' => exact absurd hletters.symm hstems
  | moe layer =>
    cases y with
    | dense layer' => exact absurd hletters hstems
    | moe layer' =>
      exact congrArg _ (toString_int_injective ((String.append_right_inj "MoE_decoder_").mp h))

namespace LLM

theorem layers_nodup (first last : ℤ) : (layers first last).Nodup :=
  List.nodup_range.map fun i j h => by simpa using h

/-- No layer has two decoders of a kind. -/
theorem decoders_nodup (c : LlmConfig) : (decoders c).Nodup := by
  unfold decoders
  split_ifs
  · apply (layers_nodup 0 c.numLayers).map
    intro x y h
    dsimp only at h
    split_ifs at h with hx hy hy
    · exact Decoder.moe.inj h
    · exact Decoder.dense.inj h
  · rw [List.nodup_append]
    refine ⟨(layers_nodup _ _).map fun x y h => Decoder.dense.inj h,
      (layers_nodup _ _).map fun x y h => Decoder.moe.inj h, ?_⟩
    intro x hx y hy heq
    obtain ⟨layer, -, rfl⟩ := List.mem_map.mp hx
    obtain ⟨layer', -, rfl⟩ := List.mem_map.mp hy
    cases heq

theorem named_construct : (construct b d).Named := by
  refine named_container (["Embedding_layer"]
    ++ ((decoders b.config.toLlmConfig).map Decoder.moduleName ++ ["lm_head"])) ⟨?_, ?_⟩ ?_ ?_
  · have hfixed : ∀ stem ∈ ["MoE_decoder_", "decoder_"], letters stem ≠ letters "Embedding_layer" ∧
        letters stem ≠ letters "lm_head" := by decide
    have hdecoder : ∀ a ∈ (decoders b.config.toLlmConfig).map Decoder.moduleName,
        letters a ≠ letters "Embedding_layer" ∧ letters a ≠ letters "lm_head" := by
      intro a ha
      obtain ⟨x, -, rfl⟩ := List.mem_map.mp ha
      rw [Decoder.letters_moduleName]
      split_ifs
      · exact hfixed _ (by simp)
      · exact hfixed _ (by simp)
    have hends : letters "Embedding_layer" ≠ letters "lm_head" := by decide
    apply nodup_append_of_letters (by decide)
    · apply nodup_append_of_letters
        ((decoders_nodup _).map Decoder.moduleName_injective) (by decide)
      intro a ha a' ha'
      rw [List.mem_singleton.mp ha']
      exact (hdecoder a ha).2
    · intro a ha a' ha'
      rw [List.mem_singleton.mp ha]
      rcases List.mem_append.mp ha' with ha' | ha'
      · exact (hdecoder a' ha').1.symm
      · rw [List.mem_singleton.mp ha']
        exact hends
  · intro a ha
    rcases List.mem_append.mp ha with ha | ha
    · rw [List.mem_singleton.mp ha]
      decide
    · rcases List.mem_append.mp ha with ha | ha
      · obtain ⟨x, -, rfl⟩ := List.mem_map.mp ha
        exact Decoder.plainName_moduleName x
      · rw [List.mem_singleton.mp ha]
        decide
  · have hdecoders : (each (Decoder.construct b d ["LLM"]) (decoders b.config.toLlmConfig)).tops
        = ((decoders b.config.toLlmConfig).map Decoder.moduleName).map (· :: ["LLM"]) := by
      simp only [tops_each, tops_decoder]
      rw [List.map_map, List.map_eq_flatMap]
      rfl
    simp only [List.flatMap_cons, List.flatMap_nil, hdecoders, List.map_append]
    rfl
  · simp [named_decoder, Embedding.construct, LmHead.construct]

/-- All modules are below the LLM as their paths say. -/
theorem named_modules :
    (construct b d).modules.Named PlainName ModuleDecl.path [] :=
  ⟨⟨["LLM"], by decide, by decide, rfl⟩, named_construct b d⟩

/-- No two modules of a device have the same name. -/
theorem moduleMapNames_nodup :
    ((construct b d).modules.toList.map fun m => moduleMapName m.path).Nodup := by
  have hpaths := (named_modules b d).nodup
  have hplain := (named_modules b d).forall_mem (by simp)
  rw [← Function.comp_def, ← List.map_map]
  refine hpaths.map_on ?_
  intro p hp q hq h
  obtain ⟨m, hm, rfl⟩ := List.mem_map.mp hp
  obtain ⟨m', hm', rfl⟩ := List.mem_map.mp hq
  exact written_injective [':'] rfl (hplain m hm) (hplain m' hm') h

theorem create_modules {b : LlmDevice} {d : LayerDims} {M : Forest ModuleDecl}
    (h : create b d = .ok M) : M = (construct b d).modules := by
  unfold create Construction.run at h
  split at h
  · exact (Except.ok.inj h).symm
  · cases h

theorem create_of_failures {b : LlmDevice} {d : LayerDims} (h : (construct b d).failures = []) :
    create b d = .ok (construct b d).modules := by
  unfold create Construction.run
  rw [h]

end LLM
end Decoders

/-! ### The map of a device -/

namespace ModuleMap

/-- Modules under new names are all added. -/
theorem foldlM_addModule {ms : List ModuleDecl} (map : ModuleMap)
    (hms : (ms.map fun m => moduleMapName m.path).Nodup)
    (hnew : ∀ m ∈ ms, map.lookup (moduleMapName m.path) = none) :
    ms.foldlM addModule map
      = .ok ((ms.map fun m => (moduleMapName m.path, m)).reverse ++ map) := by
  induction ms generalizing map with
  | nil => rfl
  | cons m ms ih =>
    obtain ⟨hfirst, hms⟩ := List.nodup_cons.mp hms
    obtain ⟨hm, hnew⟩ := List.forall_mem_cons.mp hnew
    have hadd : addModule map m = .ok ((moduleMapName m.path, m) :: map) := by
      simp [addModule, hm]
    rw [List.foldlM_cons, hadd]
    have hrest := ih ((moduleMapName m.path, m) :: map) hms (by
      intro m' hm'
      have hne : moduleMapName m'.path ≠ moduleMapName m.path := by
        intro heq
        exact hfirst (List.mem_map.mpr ⟨m', hm', heq⟩)
      rw [List.lookup_cons, beq_eq_false_iff_ne.mpr hne]
      exact hnew m' hm')
    simpa [bind, Except.bind] using hrest

/-- The map has the modules, each under its name. -/
def Holds (map : ModuleMap) (modules : Forest ModuleDecl) : Prop :=
  ∀ name m, map.lookup name = some m ↔ m ∈ modules.toList ∧ name = moduleMapName m.path

end ModuleMap

namespace Model

/-- The modules of a device are all added to its map, which then finds each of them under its name,
and nothing else. -/
theorem addModules_holds {b : LlmDevice} {d : LayerDims} {modules : Forest ModuleDecl}
    (h : LLM.create b d = .ok modules) :
    ∃ map, addModules modules = .ok map ∧ map.Holds modules := by
  have hmodules := LLM.create_modules h
  have hperm := modules.postorder_perm
  have hnodup : (modules.postorder.map fun m => moduleMapName m.path).Nodup := by
    rw [(hperm.map _).nodup_iff, hmodules]
    exact LLM.moduleMapNames_nodup b d
  refine ⟨_, ModuleMap.foldlM_addModule [] hnodup (by simp), ?_⟩
  intro name m
  rw [Keyed.lookup_eq_some_iff]
  · simp [hperm.mem_iff, eq_comm]
  · simpa [Function.comp_def] using hnodup

variable {config : LayerConfig} {moe : MoeConfig} {d : LayerDims} {maps : List ModuleMap}

theorem moduleMap_get (h : moduleMap config moe d = .ok maps) {rank : ℕ}
    (hrank : rank < moe.totalNumDevice) : ∃ M map, LLM.create { config, moe, rank } d = .ok M ∧
      maps[rank]? = some map ∧ map.Holds M := by
  obtain ⟨map, hmap, hof⟩ := (Runs.getElem?_of_mapM h).2 rank rank (List.getElem?_range hrank)
  obtain ⟨M, hM, hadd⟩ := Runs.bind_eq_ok hof
  obtain ⟨map', hadd', hholds⟩ := addModules_holds hM
  obtain rfl := Except.ok.inj (hadd'.symm.trans hadd)
  exact ⟨M, map', hM, hmap, hholds⟩

/-- Modules are added to maps that have none of their names. -/
theorem moduleMap_ok
    (h : ∀ rank < moe.totalNumDevice, ∃ M, LLM.create { config, moe, rank } d = .ok M) :
    ∃ maps, moduleMap config moe d = .ok maps := by
  apply Runs.exists_mapM
  intro rank hrank
  obtain ⟨M, hM⟩ := h rank (List.mem_range.mp hrank)
  obtain ⟨map, hadd, -⟩ := addModules_holds hM
  exact ⟨map, by simp [moduleMapOf, hM, hadd, bind, Except.bind]⟩

/-- No module has the name of another: where the assertions of the constructors hold, the model is
built, and the map of each device has its modules. -/
theorem moduleMap_holds
    (h : ∀ rank < moe.totalNumDevice, ∃ M, LLM.create { config, moe, rank } d = .ok M) :
    ∃ maps, moduleMap config moe d = .ok maps ∧ maps.length = moe.totalNumDevice ∧
      ∀ rank < moe.totalNumDevice, ∀ M, LLM.create { config, moe, rank } d = .ok M →
        ∃ map, maps[rank]? = some map ∧ map.Holds M := by
  obtain ⟨maps, hmaps⟩ := moduleMap_ok h
  refine ⟨maps, hmaps, ?_, ?_⟩
  · rw [(Runs.getElem?_of_mapM hmaps).1, List.length_range]
  · intro rank hrank M hM
    obtain ⟨M', map, hM', hmap, hholds⟩ := moduleMap_get hmaps hrank
    obtain rfl := Except.ok.inj (hM'.symm.trans hM)
    exact ⟨map, hmap, hholds⟩

end Model

/-! ### A small model -/

/-- Latent attention in a decoder without experts and one with them. -/
def smallConfig : LayerConfig where
  maxSeqLen := 8
  inputLen := 4
  outputLen := 4
  neTpDg := 2
  eTpDg := 2
  numRoutedExpert := 2
  topK := 1
  numLayers := 2
  modelName := "deepseekV3"
  firstKDense := 1
  ffnWay := 3
  numSharedExpert := 1
  numHeads := 2
  qkNopeHeadDim := 2
  qkRopeHeadDim := 2
  useAbsorb := true

/-- On two devices. -/
def smallDevices : MoeConfig where
  numNode := 1
  numDevice := 2
  neTpDg := 2
  eTpDg := 2
  numRoutedExpert := 2
  modelName := "deepseekV3"

def smallDims : LayerDims where
  hiddenDim := 4
  nVocab := 8
  headDim := 2
  numKvHeads := 2
  kvLoraRank := 2
  compressedKv := true
  qLoraRank := 2
  intermediateDim := 4
  expertIntermediateDim := 4
  batchSizePerDp := 4

theorem small_create {rank : ℕ} (hrank : rank < smallDevices.totalNumDevice) :
    LLM.create { config := smallConfig, moe := smallDevices, rank } smallDims = .ok
      (LLM.construct { config := smallConfig, moe := smallDevices, rank } smallDims).modules := by
  change rank < 2 at hrank
  apply LLM.create_of_failures
  interval_cases rank
  · decide +kernel
  · decide +kernel

/-- The two devices have a map of their modules each. -/
theorem small_moduleMap : ∃ maps, Model.moduleMap smallConfig smallDevices smallDims = .ok maps ∧
    maps.length = 2 ∧ ∀ rank < 2, ∀ M,
      LLM.create { config := smallConfig, moe := smallDevices, rank } smallDims = .ok M →
        ∃ map, maps[rank]? = some map ∧ map.Holds M :=
  Model.moduleMap_holds fun _ hrank => ⟨_, small_create hrank⟩

end LlmSystem
