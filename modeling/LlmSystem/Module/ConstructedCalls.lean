import LlmSystem.Module.ModuleNames

/-!
The forward functions and the constructors are written apart from each other. Every call that a
forward function makes goes to a submodule that its constructor has created, and every tensor that
the called module looks up is among those that its own constructor has added.
-/
namespace LlmSystem

open Nesting Construction

/-- The name that `get_cache` looks up. -/
def cacheName (name : String) (seqIdx kvIdx : ℕ) (compressedKv : Bool) : String :=
  if compressedKv then name ++ "_" ++ toString seqIdx
  else name ++ "_" ++ toString seqIdx ++ "_" ++ toString kvIdx

namespace LayerCall

/-- The caches that the forward function looks up, for `gens` sequences in generation. -/
def cachesUsed (compressedKv : Bool) (gens : ℕ) (c : LayerCall) : List String :=
  match c.kind with
  | .selfAttentionGen => [cacheName "k_cache" 0 0 false, cacheName "v_cache" 0 0 false]
  | .multiLatentAttentionGen =>
    if compressedKv then []
    else [cacheName "k_cache" 0 0 false, cacheName "v_cache" 0 0 false]
  | .compressedKVRestore =>
    if compressedKv then [cacheName "c_kv_cache" 0 0 true, cacheName "c_pe_cache" 0 0 true] else []
  | .absorbMLAGen =>
    (List.range gens).flatMap fun seqIdx =>
      [cacheName "latent_kv_cache" seqIdx 0 true, cacheName "latent_pe_cache" seqIdx 0 true]
  | _ => []

/-- The weights that it looks up. -/
def weightsUsed (c : LayerCall) : List String :=
  match c.kind with
  | .linear => ["A"]
  | .batchedLinear _ => ["weight"]
  | .layerNorm => ["layer_norm_weight"]
  | _ => []

/-- All names that it looks up in the `tensor_list` of the module. -/
def tensorsUsed (compressedKv : Bool) (gens : ℕ) (c : LayerCall) : List String :=
  c.activations.map (·.name) ++ c.weightsUsed ++ c.cachesUsed compressedKv gens

/-- The module is the one that is called, and has the tensors. -/
structure Finds (compressedKv : Bool) (gens : ℕ) (c : LayerCall) (m : ModuleDecl) : Prop where
  kind : m.kind = c.kind
  path : m.path = c.path
  deviceList : m.deviceList = c.deviceList
  tensors : ∀ name ∈ c.tensorsUsed compressedKv gens, name ∈ m.tensorList.map (·.name)

end LayerCall

theorem TensorDecl.names_addTensor (l : List TensorDecl) (t : TensorDecl) (name : String) :
    name ∈ (addTensor l t).map (·.name) ↔ name ∈ l.map (·.name) ∨ name = t.name := by
  unfold addTensor
  split_ifs with h
  · have hnames : (l.map fun t' => if t'.name = t.name then t else t').map (·.name)
        = l.map (·.name) := by
      rw [List.map_map]
      apply List.map_congr_left
      intro t' _
      by_cases heq : t'.name = t.name <;> simp [heq]
    rw [hnames]
    constructor
    · exact .inl
    · rintro (hmem | rfl)
      · exact hmem
      · exact h
  · simp [or_comm, eq_comm]

/-- Every tensor that is added is found. -/
theorem TensorDecl.names_foldl_addTensor (added l : List TensorDecl) (name : String) :
    name ∈ (added.foldl addTensor l).map (·.name)
      ↔ name ∈ l.map (·.name) ∨ name ∈ added.map (·.name) := by
  induction added generalizing l with
  | nil => simp
  | cons t added ih =>
    rw [List.foldl_cons, ih, names_addTensor, List.map_cons, List.mem_cons, or_assoc]

namespace Construction

theorem nodes_all (l : List Construction) :
    (all l).modules.nodes = l.flatMap fun c => c.modules.nodes := by
  induction l with
  | nil => rfl
  | cons c l ih => simp [all, ih]

/-- What the constructor creates at its position `i` is there. -/
theorem nodes_subset {inside : List Construction} {c : Construction} (i : ℕ)
    (h : inside[i]? = some c) : c.modules.nodes ⊆ (all inside).modules.nodes := by
  rw [nodes_all]
  exact fun x hx => List.mem_flatMap.mpr ⟨c, List.mem_of_getElem? h, hx⟩

theorem nodes_each_subset {α : Type} {f : α → Construction} {l : List α} {a : α} (ha : a ∈ l) :
    (f a).modules.nodes ⊆ (each f l).modules.nodes := by
  unfold each
  rw [nodes_all]
  exact fun x hx => List.mem_flatMap.mpr ⟨f a, List.mem_map_of_mem ha, hx⟩

end Construction

section Found

variable {compressedKv : Bool} {gens : ℕ} {M : Forest ModuleDecl} {kind : LayerKind}
  {path : List String} {devices : List ℕ} {name : String} {α β : Type}

/-- The calls find their modules among `M`, and what these call below them. -/
def Calls.Found (compressedKv : Bool) (gens : ℕ) (M : Forest ModuleDecl) (x : Calls α) : Prop :=
  x.calls.Answered (LayerCall.Finds compressedKv gens) M

namespace Calls

@[simp] theorem found_pure (a : α) : (pure a : Calls α).Found compressedKv gens M := trivial

@[simp] theorem found_bind (x : Calls α) (f : α → Calls β) :
    (x >>= f).Found compressedKv gens M ↔
      x.Found compressedKv gens M ∧ (f x.result).Found compressedKv gens M :=
  Forest.answered_append

theorem found_each {f : α → Calls β} {l : List α} (h : ∀ a ∈ l, (f a).Found compressedKv gens M) :
    (each f l).Found compressedKv gens M := by
  induction l with
  | nil => trivial
  | cons a l ih =>
    obtain ⟨ha, hl⟩ := List.forall_mem_cons.mp h
    simp [each, ha, ih hl]

theorem each_congr {f g : α → Calls β} {l : List α} (h : ∀ a ∈ l, f a = g a) :
    each f l = each g l := by
  induction l with
  | nil => rfl
  | cons a l ih =>
    obtain ⟨ha, hl⟩ := List.forall_mem_cons.mp h
    rw [each, each, ha, ih hl]

/-- A call of one module, given how it finds its tensors and what it calls. -/
theorem found_node {c : LayerCall} {calls : Forest LayerCall} (tensors : List TensorDecl)
    (inside : Construction)
    (hM : (create c.kind c.path c.deviceList tensors inside).modules.nodes ⊆ M.nodes)
    (htensors : ∀ name ∈ c.tensorsUsed compressedKv gens, name ∈ tensors.map (·.name))
    (hcalls : calls.Answered (LayerCall.Finds compressedKv gens) inside.modules) :
    (Forest.node c calls .nil).Answered (LayerCall.Finds compressedKv gens) M := by
  refine ⟨⟨_, _, hM (List.mem_cons_self ..), ⟨rfl, rfl, rfl, ?_⟩, hcalls⟩, trivial⟩
  intro name hname
  exact (TensorDecl.names_foldl_addTensor tensors [] name).mpr (.inr (htensors name hname))

theorem found_leaf {tensors : List TensorDecl} {output : String} {input : TensorName}
    (hM : (Construction.leaf kind path devices tensors).modules.nodes ⊆ M.nodes)
    (htensors : ∀ name ∈ LayerCall.tensorsUsed compressedKv gens
      ⟨kind, path, devices, .tensor input, .tensor ⟨path, output⟩⟩, name ∈ tensors.map (·.name)) :
    (leaf kind path devices output input).Found compressedKv gens M :=
  found_node _ {} hM htensors trivial

theorem found_leafVec {tensors : List TensorDecl} {input output : List TensorName}
    (hM : (Construction.leaf kind path devices tensors).modules.nodes ⊆ M.nodes)
    (htensors : ∀ name ∈ LayerCall.tensorsUsed compressedKv gens
      ⟨kind, path, devices, .tensorVec input, .tensorVec output⟩, name ∈ tensors.map (·.name)) :
    (onTensorVec kind path devices input (pure output)).Found compressedKv gens M :=
  found_node _ {} hM htensors trivial

theorem found_container {inside : List Construction} {input : TensorName} {x : Calls TensorName}
    (hM : (container path devices inside).modules.nodes ⊆ M.nodes)
    (hx : x.Found compressedKv gens (all inside).modules) :
    (onTensor .container path devices input x).Found compressedKv gens M :=
  found_node [] _ hM (by simp [LayerCall.tensorsUsed, LayerCall.activations,
    LayerCall.weightsUsed, LayerCall.cachesUsed]) hx

theorem found_containerVec {inside : List Construction} {input : List TensorName}
    {x : Calls (List TensorName)}
    (hM : (container path devices inside).modules.nodes ⊆ M.nodes)
    (hx : x.Found compressedKv gens (all inside).modules) :
    (onTensorVec .container path devices input x).Found compressedKv gens M :=
  found_node [] _ hM (by simp [LayerCall.tensorsUsed, LayerCall.activations,
    LayerCall.weightsUsed, LayerCall.cachesUsed]) hx

end Calls

open Calls

attribute [local simp] LayerCall.tensorsUsed LayerCall.activations LayerCall.weightsUsed
  LayerCall.cachesUsed LayerCall.tensor TensorDecl.act TensorDecl.weight TensorDecl.cache

variable {m n : ℤ} {input : TensorName} {inputs : List TensorName}

theorem found_linear (hM : (Linear.construct path devices name m n).modules.nodes ⊆ M.nodes) :
    (Linear.forward path devices name input).Found compressedKv gens M :=
  found_leaf hM (by simp)

theorem found_columnParallelLinear
    (hM : (ColumnParallelLinear.construct path devices name m n).modules.nodes ⊆ M.nodes) :
    (ColumnParallelLinear.forward path devices name input).Found compressedKv gens M :=
  found_container hM (found_linear (nodes_subset 1 rfl))

theorem found_rowParallelLinear
    (hM : (RowParallelLinear.construct path devices name m n).modules.nodes ⊆ M.nodes) :
    (RowParallelLinear.forward path devices name input).Found compressedKv gens M :=
  found_container hM (found_linear (nodes_subset 1 rfl))

theorem found_batchedLinear {k : ℤ} {plain : Bool}
    (hM : (BatchedLinear.construct path devices name k m n plain).modules.nodes ⊆ M.nodes) :
    (BatchedLinear.forward path devices plain name inputs).Found compressedKv gens M := by
  cases plain with
  | false => exact found_leafVec hM (by simp)
  | true => exact found_leafVec hM (by simp)

theorem found_batchedColumnParallelLinear {heads : ℕ} {plain : Bool}
    (hM : (BatchedColumnParallelLinear.construct path devices name m n heads plain).modules.nodes
      ⊆ M.nodes) :
    (BatchedColumnParallelLinear.forward path devices plain name inputs).Found compressedKv gens
      M :=
  found_containerVec hM (found_batchedLinear (nodes_subset 1 rfl))

theorem found_batchedRowParallelLinear {heads : ℕ} {plain : Bool}
    (hM : (BatchedRowParallelLinear.construct path devices name m n heads plain).modules.nodes
      ⊆ M.nodes) :
    (BatchedRowParallelLinear.forward path devices plain name inputs).Found compressedKv gens M :=
  found_containerVec hM (found_batchedLinear (nodes_subset 1 rfl))

theorem found_layerNorm (hM : (LayerNorm.construct path devices name n).modules.nodes ⊆ M.nodes) :
    (LayerNorm.forward path devices name input).Found compressedKv gens M :=
  found_leaf hM (by simp)

theorem found_residual (hM : (Residual.construct path devices name).modules.nodes ⊆ M.nodes) :
    (Residual.forward path devices name input).Found compressedKv gens M :=
  found_leaf hM (by simp)

theorem found_rope (hM : (RoPE.construct path devices name).modules.nodes ⊆ M.nodes) :
    (RoPE.forward path devices name input).Found compressedKv gens M :=
  found_leaf hM (by simp)

theorem found_batchedRope (hM : (BatchedRoPE.construct path devices name).modules.nodes ⊆ M.nodes) :
    (BatchedRoPE.forward path devices name inputs).Found compressedKv gens M :=
  found_leafVec hM (by simp)

theorem found_allReduce (hM : (AllReduce.construct path devices name).modules.nodes ⊆ M.nodes) :
    (AllReduce.forward path devices name input).Found compressedKv gens M :=
  found_leaf hM (by simp)

theorem found_activation (hM : (Activation.construct path name).modules.nodes ⊆ M.nodes) :
    (Activation.forward path name input).Found compressedKv gens M :=
  found_leaf hM (by simp)

/-! ### Attention -/

/-- There is a cache for each sequence in generation, and one for each head that is used. -/
structure CachesFit (d : LayerDims) (gens numKvHeads : ℕ) : Prop where
  batch : 1 ≤ d.batchSizePerDp
  gens : (gens : ℤ) ≤ d.batchSizePerDp
  heads : 0 < numKvHeads

variable {c : LayerConfig} {d : LayerDims}

theorem LayerDims.mem_seqs {seqIdx : ℕ} : seqIdx ∈ d.seqs ↔ (seqIdx : ℤ) < d.batchSizePerDp := by
  unfold LayerDims.seqs
  rw [List.mem_range]
  omega

/-- The caches that the attention modules look up have sequence and head 0. -/
theorem kvCaches_used {numKvHeads : ℕ} (hfit : CachesFit d gens numKvHeads) :
    ∀ name ∈ [cacheName "k_cache" 0 0 false, cacheName "v_cache" 0 0 false],
      name ∈ (kvCaches c d numKvHeads).map (·.name) := by
  have hseq : 0 ∈ d.seqs := LayerDims.mem_seqs.mpr hfit.batch
  have hhead : 0 ∈ List.range numKvHeads := List.mem_range.mpr hfit.heads
  intro name hname
  have hpair : name ∈ [cacheName "k_cache" 0 0 false, cacheName "v_cache" 0 0 false] := hname
  rw [kvCaches, List.map_flatMap]
  refine List.mem_flatMap.mpr ⟨0, hseq, ?_⟩
  rw [List.map_flatMap]
  exact List.mem_flatMap.mpr ⟨0, hhead, hpair⟩

theorem found_selfAttentionParallel
    (hM : (SelfAttentionParallel.construct path devices name c d).modules.nodes ⊆ M.nodes)
    (hfit : CachesFit d gens (d.numKvHeads / devices.length)) :
    (SelfAttentionParallel.forward path devices name input).Found d.compressedKv gens M := by
  apply found_container hM
  simp only [attentionParallel, found_bind, found_pure, and_true]
  refine ⟨?_, ?_, ?_, ?_⟩
  · exact found_leafVec (nodes_subset 2 rfl) (by simp)
  · exact found_leaf (nodes_subset 3 rfl) (by simp)
  · apply found_leaf (nodes_subset 4 rfl)
    intro name hname
    rw [List.map_append, List.mem_append]
    simp only [LayerCall.tensorsUsed, LayerCall.activations, LayerCall.weightsUsed,
      LayerCall.cachesUsed, List.append_nil, List.mem_append] at hname
    exact (hname.imp id fun h => kvCaches_used hfit name h).symm
  · exact found_leafVec (nodes_subset 5 rfl) (by simp)

theorem found_multiLatentAttentionParallel
    (hM : (MultiLatentAttentionParallel.construct path devices name c d).modules.nodes ⊆ M.nodes)
    (hfit : CachesFit d gens (d.numKvHeads / devices.length)) :
    (MultiLatentAttentionParallel.forward path devices name inputs).Found d.compressedKv gens
      M := by
  apply found_containerVec hM
  simp only [attentionParallel, found_bind]
  refine ⟨?_, ?_, ?_, ?_⟩
  · exact found_leafVec (nodes_subset 1 rfl) (by simp)
  · exact found_leaf (nodes_subset 2 rfl) (by simp)
  · apply found_leaf (nodes_subset 3 rfl)
    intro name hname
    rw [List.map_append, List.mem_append]
    simp only [LayerCall.tensorsUsed, LayerCall.activations, LayerCall.weightsUsed,
      LayerCall.cachesUsed, List.append_nil, List.mem_append] at hname
    refine (hname.imp id fun h => ?_).symm
    split_ifs at h ⊢
    · exact h
    · exact kvCaches_used hfit name h
  · exact found_leafVec (nodes_subset 4 rfl) (by simp)

/-- The absorbed attention looks up the caches of all sequences in generation. -/
theorem found_absorbMLAParallel {heads : ℕ}
    (hM : (AbsorbMLAParallel.construct path devices name c d).modules.nodes ⊆ M.nodes)
    (hgens : (gens : ℤ) ≤ d.batchSizePerDp) :
    (AbsorbMLAParallel.forward path devices heads name inputs).Found d.compressedKv gens M := by
  apply found_containerVec hM
  simp only [attentionParallel, found_bind]
  refine ⟨?_, ?_, ?_, ?_⟩
  · exact found_leafVec (nodes_subset 1 rfl) (by simp)
  · exact found_leaf (nodes_subset 2 rfl) (by simp)
  · apply found_leaf (nodes_subset 3 rfl)
    intro name hname
    rw [List.map_append, List.mem_append]
    simp only [LayerCall.tensorsUsed, LayerCall.activations, LayerCall.weightsUsed,
      LayerCall.cachesUsed, List.append_nil, List.mem_append] at hname
    refine (hname.imp id fun h => ?_).symm
    obtain ⟨seqIdx, hseq, hpair⟩ := List.mem_flatMap.mp h
    have hlt := List.mem_range.mp hseq
    rw [List.map_flatMap]
    exact List.mem_flatMap.mpr ⟨seqIdx, LayerDims.mem_seqs.mpr (by omega), hpair⟩
  · exact found_leafVec (nodes_subset 4 rfl) (by simp)

theorem found_compressedKVRestore
    (hM : (CompressedKVRestore.construct path devices name c d).modules.nodes ⊆ M.nodes)
    (hbatch : 1 ≤ d.batchSizePerDp) :
    (CompressedKVRestore.forward path devices name inputs).Found d.compressedKv gens M := by
  apply found_leafVec hM
  intro name hname
  rw [List.map_append, List.mem_append]
  simp only [LayerCall.tensorsUsed, LayerCall.activations, LayerCall.weightsUsed,
    LayerCall.cachesUsed, List.append_nil, List.mem_append] at hname
  refine (hname.imp id fun h => ?_).symm
  split_ifs at h ⊢
  · rw [List.map_flatMap]
    exact List.mem_flatMap.mpr ⟨0, LayerDims.mem_seqs.mpr hbatch, h⟩
  · exact h

theorem found_attention
    (hM : (constructAttention path devices c d).modules.nodes ⊆ M.nodes)
    (hfit : CachesFit d gens (d.numKvHeads / devices.length)) :
    (attention path devices c input).Found d.compressedKv gens M := by
  unfold constructAttention at hM
  unfold attention
  split_ifs at hM ⊢ with hrope
  · apply found_container hM
    simp only [found_bind]
    refine ⟨?_, ?_, ?_, ?_⟩
    · exact found_columnParallelLinear (nodes_subset 0 rfl)
    · exact found_selfAttentionParallel (nodes_subset 1 rfl) hfit
    · exact found_rowParallelLinear (nodes_subset 2 rfl)
    · exact found_allReduce (nodes_subset 3 rfl)
  · apply found_container hM
    simp only [found_bind]
    refine ⟨?_, ?_, ?_, ?_, ?_, ?_, ?_⟩
    · exact found_linear (nodes_subset 0 rfl)
    · exact found_linear (nodes_subset 1 rfl)
    · exact found_linear (nodes_subset 2 rfl)
    · exact found_rope (nodes_subset 3 rfl)
    · exact found_layerNorm (nodes_subset 4 rfl)
    · exact found_layerNorm (nodes_subset 5 rfl)
    · cases habsorb : c.useAbsorb with
      | false =>
        simp only [MultiLatentAttention.restored, Bool.false_eq_true, if_false, found_bind]
        refine ⟨?_, ?_, ?_, ?_, ?_, ?_, ?_⟩
        · exact found_compressedKVRestore (nodes_subset 9 rfl) hfit.batch
        · exact found_columnParallelLinear (nodes_subset 6 rfl)
        · exact found_columnParallelLinear (nodes_subset 7 rfl)
        · exact found_columnParallelLinear (nodes_subset 10 rfl)
        · exact found_multiLatentAttentionParallel (nodes_subset 11 rfl) hfit
        · exact found_rowParallelLinear (nodes_subset 12 rfl)
        · exact found_allReduce (nodes_subset 13 rfl)
      | true =>
        simp only [MultiLatentAttention.absorbed, if_true, found_bind]
        refine ⟨?_, ?_, ?_, ?_, ?_, ?_, ?_, ?_⟩
        · exact found_batchedColumnParallelLinear (nodes_subset 6 rfl)
        · exact found_batchedColumnParallelLinear (nodes_subset 7 rfl)
        · exact found_batchedRope (nodes_subset 8 rfl)
        · exact found_batchedRowParallelLinear (nodes_subset 9 rfl)
        · exact found_absorbMLAParallel (nodes_subset 10 rfl) hfit.gens
        · exact found_batchedColumnParallelLinear (nodes_subset 11 rfl)
        · exact found_batchedRowParallelLinear (nodes_subset 12 rfl)
        · exact found_allReduce (nodes_subset 13 rfl)

/-! ### Feed-forward layers and decoders -/

theorem found_feedForward {isExpert useDp : Bool} (hway : c.ffnWay = 2 ∨ c.ffnWay = 3)
    (hM : (constructFeedForward path devices name c d isExpert useDp).modules.nodes ⊆ M.nodes) :
    (feedForward path devices c useDp name input).Found d.compressedKv gens M := by
  unfold constructFeedForward at hM
  unfold feedForward
  by_cases htwo : c.ffnWay = 2
  · rw [if_pos htwo] at hM ⊢
    apply found_container hM
    simp only [found_bind]
    refine ⟨?_, ?_, ?_⟩
    · exact found_columnParallelLinear (nodes_subset 0 rfl)
    · exact found_activation (nodes_subset 1 rfl)
    · exact found_rowParallelLinear (nodes_subset 2 rfl)
  · rw [if_neg htwo, if_pos (hway.resolve_left htwo)] at hM
    rw [if_neg htwo]
    apply found_container hM
    simp only [found_bind]
    refine ⟨?_, ?_, ?_, ?_⟩
    · cases useDp with
      | false => exact found_columnParallelLinear (nodes_subset 0 rfl)
      | true => exact found_linear (nodes_subset 0 rfl)
    · exact found_activation (nodes_subset 1 rfl)
    · cases useDp with
      | false => exact found_columnParallelLinear (nodes_subset 3 rfl)
      | true => exact found_linear (nodes_subset 3 rfl)
    · cases useDp with
      | false => exact found_rowParallelLinear (nodes_subset 2 rfl)
      | true => exact found_linear (nodes_subset 2 rfl)

/-- Numbered feed-forward layers, each with an input of its own. -/
theorem found_each_feedForward {isExpert useDp : Bool} {stem : String} {l : List ℕ}
    {inputOf : ℕ → TensorName} (hway : c.ffnWay = 2 ∨ c.ffnWay = 3)
    (hM : (each (fun n : ℕ => constructFeedForward path devices (stem ++ toString n) c d isExpert
      useDp) l).modules.nodes ⊆ M.nodes) :
    (Calls.each (fun n : ℕ => feedForward path devices c useDp (stem ++ toString n) (inputOf n))
      l).Found d.compressedKv gens M := by
  apply found_each
  intro n hn
  have hsub := nodes_each_subset (f := fun n : ℕ => constructFeedForward path devices
    (stem ++ toString n) c d isExpert useDp) hn
  exact found_feedForward hway (List.Subset.trans hsub hM)

theorem found_sync (hM : (Sync.construct path devices name).modules.nodes ⊆ M.nodes) :
    (Sync.forward path devices name input).Found compressedKv gens M := by
  apply found_container hM
  simp only [found_bind]
  refine ⟨?_, ?_⟩
  · exact found_leaf (nodes_subset 0 rfl) (by simp)
  · exact found_node _ {} (nodes_subset 1 rfl) (by simp) trivial

variable {b : LlmDevice}

theorem found_expertFFN (hway : b.config.ffnWay = 2 ∨ b.config.ffnWay = 3)
    (hM : (ExpertFFN.construct b d path name).modules.nodes ⊆ M.nodes) :
    (ExpertFFN.callForward b b.expertFFN path name input).Found d.compressedKv gens M := by
  apply found_container hM
  simp only [found_bind, found_pure, and_true]
  refine ⟨?_, ?_, ?_, ?_, ?_, ?_, ?_, ?_, ?_, ?_, ?_, ?_, ?_, ?_, ?_, ?_⟩
  · exact found_sync (nodes_subset 10 rfl)
  · exact found_columnParallelLinear (nodes_subset 1 rfl)
  · exact found_leaf (nodes_subset 2 rfl) (by simp)
  · exact found_leaf (nodes_subset 3 rfl) (by simp)
  · exact found_sync (nodes_subset 11 rfl)
  · apply found_leafVec (nodes_subset 4 rfl)
    simp only [LayerCall.tensorsUsed, LayerCall.activations, LayerCall.weightsUsed,
      LayerCall.cachesUsed, List.append_nil, List.map_cons, List.map_map]
    intro name hname
    exact List.mem_cons_of_mem _ hname
  · exact found_each_feedForward hway (nodes_subset 5 rfl)
  · exact found_sync (nodes_subset 12 rfl)
  · exact found_allReduce (nodes_subset 7 rfl)
  · exact found_sync (nodes_subset 13 rfl)
  · exact found_leafVec (nodes_subset 8 rfl) (by simp)
  · exact found_sync (nodes_subset 14 rfl)
  · exact found_allReduce (nodes_subset 9 rfl)
  · exact found_sync (nodes_subset 15 rfl)
  · exact found_each_feedForward hway (nodes_subset 6 rfl)
  · exact found_sync (nodes_subset 16 rfl)

theorem found_denseDecoder (hway : b.config.ffnWay = 2 ∨ b.config.ffnWay = 3)
    (hfit : CachesFit d gens (d.numKvHeads / b.nonMoeDeviceList.length))
    (hM : (Decoder.constructDense b d path name).modules.nodes ⊆ M.nodes) :
    (Decoder.denseForward b path name input).Found d.compressedKv gens M := by
  apply found_container hM
  simp only [found_bind]
  refine ⟨?_, ?_, ?_, ?_, ?_, ?_, ?_⟩
  · exact found_layerNorm (nodes_subset 1 rfl)
  · exact found_attention (nodes_subset 2 rfl) hfit
  · exact found_residual (nodes_subset 3 rfl)
  · exact found_layerNorm (nodes_subset 4 rfl)
  · exact found_feedForward hway (nodes_subset 5 rfl)
  · exact found_allReduce (nodes_subset 6 rfl)
  · exact found_residual (nodes_subset 3 rfl)

theorem found_moeDecoder (hway : b.config.ffnWay = 2 ∨ b.config.ffnWay = 3)
    (hfit : CachesFit d gens (d.numKvHeads / b.nonMoeDeviceList.length))
    (hM : (MoEDecoder.construct b d path name).modules.nodes ⊆ M.nodes) :
    (MoEDecoder.forward b b.expertFFN path name input).Found d.compressedKv gens M := by
  apply found_container hM
  simp only [found_bind]
  refine ⟨?_, ?_, ?_, ?_, ?_, ?_⟩
  · exact found_layerNorm (nodes_subset 1 rfl)
  · exact found_attention (nodes_subset 2 rfl) hfit
  · exact found_layerNorm (nodes_subset 3 rfl)
  · exact found_layerNorm (nodes_subset 4 rfl)
  · exact found_expertFFN hway (nodes_subset 5 rfl)
  · exact found_layerNorm (nodes_subset 6 rfl)

theorem found_llm (hway : b.config.ffnWay = 2 ∨ b.config.ffnWay = 3)
    (hfit : CachesFit d gens (d.numKvHeads / b.nonMoeDeviceList.length)) :
    (LLM.callForward b b.expertFFN input).Found d.compressedKv gens
      (LLM.construct b d).modules := by
  apply found_container (List.Subset.refl _)
  simp only [found_bind]
  refine ⟨?_, ?_, ?_⟩
  · exact found_leaf (nodes_subset 0 rfl) (by simp)
  · apply found_each
    intro x hx
    cases x with
    | dense layer =>
      refine found_denseDecoder hway hfit (List.Subset.trans ?_ (nodes_subset 1 rfl))
      exact nodes_each_subset (f := Decoder.construct b d ["LLM"]) hx
    | moe layer =>
      refine found_moeDecoder hway hfit (List.Subset.trans ?_ (nodes_subset 1 rfl))
      exact nodes_each_subset (f := Decoder.construct b d ["LLM"]) hx
  · exact found_leaf (nodes_subset 2 rfl) (by simp)

end Found

namespace LLM

variable {b : LlmDevice} {d : LayerDims} {input : TensorName} {F : Forest LayerCall}
  {M : Forest ModuleDecl}

/-- The calls are those with the experts of the device. -/
theorem build_expertFFN (h : build b input = .ok F) :
    F = (callForward b b.expertFFN input).calls ∧ (b.config.ffnWay = 2 ∨ b.config.ffnWay = 3) := by
  unfold build at h
  split_ifs at h with hnone hway hexperts
  · obtain ⟨f, hf, h⟩ := Runs.bind_eq_ok h
    have hsame : b.expertFFN = f := by simp [LlmDevice.expertFFN, hf, Except.toOption]
    rw [hsame]
    exact ⟨(Except.ok.inj h).symm, by tauto⟩
  · -- without experts, the calls do not depend on them
    refine ⟨?_, by tauto⟩
    have hdense : ∀ temp, Calls.each (Decoder.forward b ⟨0, 0⟩ ["LLM"] temp)
        (decoders b.config.toLlmConfig) = Calls.each (Decoder.forward b b.expertFFN ["LLM"] temp)
          (decoders b.config.toLlmConfig) := by
      intro temp
      apply Calls.each_congr
      intro x hx
      cases x with
      | dense layer => rfl
      | moe layer => exact absurd (List.any_eq_true.mpr ⟨_, hx, rfl⟩) hexperts
    rw [← Except.ok.inj h]
    simp only [callForward, hdense]

theorem answered_build {gens : ℕ} (hcreate : create b d = .ok M) (hbuild : build b input = .ok F)
    (hfit : CachesFit d gens (d.numKvHeads / b.moe.neTpDg)) :
    F.Answered (LayerCall.Finds d.compressedKv gens) M := by
  obtain ⟨rfl, hway⟩ := build_expertFFN hbuild
  have hlength : b.nonMoeDeviceList.length = b.moe.neTpDg := List.length_range'
  rw [create_modules hcreate]
  exact found_llm hway (hlength.symm ▸ hfit)

/-- Every call of a forward goes to a module that the constructors have created, one level below the
caller's, and every tensor that it looks up is there. -/
theorem calls_found {gens : ℕ} (hcreate : create b d = .ok M) (hbuild : build b input = .ok F)
    (hbatch : 1 ≤ d.batchSizePerDp) (hgens : (gens : ℤ) ≤ d.batchSizePerDp)
    (hheads : 0 < d.numKvHeads / b.moe.neTpDg) :
    F.Answered (LayerCall.Finds d.compressedKv gens) M :=
  answered_build hcreate hbuild ⟨hbatch, hgens, hheads⟩

/-- The calls of the first device of the small model. -/
theorem small_build (input : TensorName) :
    build { config := smallConfig, moe := smallDevices, rank := 0 } input
      = .ok (callForward { config := smallConfig, moe := smallDevices, rank := 0 } ⟨0, 2⟩
        input).calls := by
  have hexperts : (decoders smallConfig.toLlmConfig).any (·.hasExperts) = true := by decide +kernel
  have hdecoders : decoders smallConfig.toLlmConfig ≠ [] := by decide +kernel
  have hway : ¬ (smallConfig.ffnWay ≠ 2 ∧ smallConfig.ffnWay ≠ 3) := by decide
  have hcreate : ExpertFFN.create smallDevices 0 = .ok ⟨0, 2⟩ := by decide
  unfold build
  rw [if_neg hdecoders, if_neg hway, if_pos hexperts, hcreate]
  rfl

/-- Two sequences in generation, on the first device. -/
theorem small_calls_found :
    (callForward { config := smallConfig, moe := smallDevices, rank := 0 } ⟨0, 2⟩
      ⟨["LLM"], "input"⟩).calls.Answered (LayerCall.Finds true 2)
      (construct { config := smallConfig, moe := smallDevices, rank := 0 } smallDims).modules :=
  calls_found (small_create (by decide)) (small_build _) (by decide) (by decide) (by decide)

end LLM
end LlmSystem
