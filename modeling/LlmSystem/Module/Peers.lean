import LlmSystem.Module.ConstructedCalls

/-!
`set_dependency_tensor` looks up the input of a sync module on every device of its group, by the
name of the module that owns it. The devices construct their modules apart from each other, with
experts of their own; still each of them has a module of that name with that tensor.
-/
namespace LlmSystem

open Nesting Construction

namespace Cluster

/-- The tensor of this name on a device. -/
def dependencyTensor (moduleMap : List ModuleMap) (t : TensorName) (rank : ℕ) :
    Except String (ℕ × TensorName) :=
  match moduleMap[rank]? with
  | none => .error "vector::at"
  | some map =>
    match map.lookup (moduleMapName t.path) with
    | none => .error "map::at"
    | some m =>
      if t.name ∈ m.tensorList.map (·.name) then .ok (rank, ⟨m.path, t.name⟩)
      else .error "Unvalid activation tensor request"

/-- `set_dependency_tensor`. -/
def setDependencyTensor (moduleMap : List ModuleMap) (t : TensorName) (deviceList : List ℕ) :
    Except String (List (ℕ × TensorName)) :=
  deviceList.mapM (dependencyTensor moduleMap t)

end Cluster

/-! ### The inputs of the sync modules -/

namespace Calls

variable {α β : Type} {P : List ℕ → TensorName → Prop}

theorem result_bind (x : Calls α) (f : α → Calls β) : (x >>= f).result = (f x.result).result := rfl

theorem result_onTensor (kind : LayerKind) (path : List String) (devices : List ℕ)
    (input : TensorName) (x : Calls TensorName) :
    (onTensor kind path devices input x).result = x.result := rfl

theorem result_onTensorVec (kind : LayerKind) (path : List String) (devices : List ℕ)
    (input : List TensorName) (x : Calls (List TensorName)) :
    (onTensorVec kind path devices input x).result = x.result := rfl

theorem result_leaf (kind : LayerKind) (path : List String) (devices : List ℕ) (output : String)
    (input : TensorName) : (leaf kind path devices output input).result = ⟨path, output⟩ := rfl

/-- The single inputs of the sync modules satisfy `P`, with the group of the module. -/
def SyncInputs (P : List ℕ → TensorName → Prop) (x : Calls α) : Prop :=
  ∀ c ∈ x.calls.toList, c.isSync = true → ∀ t, c.input = .tensor t → P c.deviceList t

@[simp] theorem syncInputs_pure (a : α) : (pure a : Calls α).SyncInputs P := by
  simp [SyncInputs, Forest.toList]

@[simp] theorem syncInputs_bind (x : Calls α) (f : α → Calls β) :
    (x >>= f).SyncInputs P ↔ x.SyncInputs P ∧ (f x.result).SyncInputs P := by
  simp only [SyncInputs, calls_bind, Forest.toList_append, List.mem_append, or_imp, forall_and]

@[simp] theorem syncInputs_onTensor (kind : LayerKind) (path : List String) (devices : List ℕ)
    (input : TensorName) (x : Calls TensorName) :
    (onTensor kind path devices input x).SyncInputs P ↔
      (LayerCall.isSync ⟨kind, path, devices, .tensor input, .tensor x.result⟩ = true →
        P devices input) ∧ x.SyncInputs P := by
  simp [SyncInputs, onTensor, Forest.toList]

@[simp] theorem syncInputs_onTensorVec (kind : LayerKind) (path : List String) (devices : List ℕ)
    (input : List TensorName) (x : Calls (List TensorName)) :
    (onTensorVec kind path devices input x).SyncInputs P ↔ x.SyncInputs P := by
  simp [SyncInputs, onTensorVec, Forest.toList]

@[simp] theorem syncInputs_leaf (kind : LayerKind) (path : List String) (devices : List ℕ)
    (output : String) (input : TensorName) :
    (leaf kind path devices output input).SyncInputs P ↔
      (LayerCall.isSync ⟨kind, path, devices, .tensor input, .tensor ⟨path, output⟩⟩ = true →
        P devices input) := by
  simp [leaf]

theorem syncInputs_each {f : α → Calls β} {l : List α} (h : ∀ a ∈ l, (f a).SyncInputs P) :
    (each f l).SyncInputs P := by
  induction l with
  | nil => exact syncInputs_pure _
  | cons a l ih =>
    obtain ⟨ha, hl⟩ := List.forall_mem_cons.mp h
    simp [each, ha, ih hl]

end Calls

namespace Construction

/-- All tensors of the created modules satisfy `Q`. -/
def Supplies (Q : TensorName → Prop) (c : Construction) : Prop :=
  ∀ m ∈ c.modules.toList, ∀ name ∈ m.tensorList.map (·.name), Q ⟨m.path, name⟩

variable {Q : TensorName → Prop}

theorem Supplies.of_subset {c c' : Construction} (h : c.Supplies Q)
    (hsub : c'.modules.nodes ⊆ c.modules.nodes) : c'.Supplies Q := by
  have hmem : ∀ (F : Forest ModuleDecl) (m : ModuleDecl), m ∈ F.toList →
      ∃ n ∈ F.nodes, m = n.1 ∨ m ∈ n.2.toList := by
    intro F m hm
    induction F with
    | nil => cases hm
    | node a children rest _ ih =>
      rcases List.mem_cons.mp hm with rfl | hm
      · exact ⟨_, List.mem_cons_self .., .inl rfl⟩
      · rcases List.mem_append.mp hm with hm | hm
        · exact ⟨_, List.mem_cons_self .., .inr hm⟩
        · obtain ⟨n, hn, h⟩ := ih hm
          exact ⟨n, List.mem_cons_of_mem _ hn, h⟩
  intro m hm
  obtain ⟨⟨a, below⟩, hn, heq | hbelow⟩ := hmem _ m hm
  · subst heq
    exact h _ (Forest.mem_toList_of_nodes (hsub hn)).1
  · exact h m ((Forest.mem_toList_of_nodes (hsub hn)).2 hbelow)

/-- What a container has at its position `i`. -/
theorem Supplies.inside {path : List String} {devices : List ℕ} {inside : List Construction}
    {c : Construction} (h : (container path devices inside).Supplies Q) (i : ℕ)
    (hi : inside[i]? = some c) : c.Supplies Q := by
  have hall : (all inside).Supplies Q := by
    intro m hm
    apply h m
    simp [container, create, Forest.toList, hm]
  exact hall.of_subset (nodes_subset i hi)

/-- The tensors of a module without submodules. -/
theorem Supplies.leaf {kind : LayerKind} {path : List String} {devices : List ℕ}
    {tensors : List TensorDecl} (h : (leaf kind path devices tensors).Supplies Q) (name : String)
    (hname : name ∈ tensors.map (·.name)) : Q ⟨path, name⟩ :=
  h _ (List.mem_cons_self ..) name
    ((TensorDecl.names_foldl_addTensor tensors [] name).mpr (.inr hname))

end Construction

section Layers

variable {P : List ℕ → TensorName → Prop} {path : List String} {devices devices' : List ℕ}
  {name : String} {input : TensorName} {m n : ℤ}

attribute [local simp] LayerCall.isSync TensorDecl.act TensorDecl.weight TensorDecl.cache

theorem supplies_linear {Q : TensorName → Prop}
    (h : (Linear.construct path devices' name m n).Supplies Q) : Q ⟨name :: path, "Y"⟩ :=
  h.leaf _ (by simp)

theorem supplies_rowParallelLinear {Q : TensorName → Prop}
    (h : (RowParallelLinear.construct path devices' name m n).Supplies Q) :
    Q ⟨"Linear" :: name :: path, "Y"⟩ :=
  supplies_linear (h.inside 1 rfl)

theorem supplies_batchedRowParallelLinear {Q : TensorName → Prop} {heads : ℕ}
    (h : (BatchedRowParallelLinear.construct path devices' name m n heads true).Supplies Q) :
    Q ⟨"Batched_Linear" :: name :: path, "plain_linear_output"⟩ :=
  (h.inside 1 rfl).leaf _ (by simp)

variable {c : LayerConfig} {d : LayerDims}

attribute [local simp] Calls.result_bind Calls.result_onTensor Calls.result_onTensorVec
  Calls.result_leaf

/-- Its reduction gets the output projection, wherever the attention is constructed. -/
theorem syncInputs_attention (input : TensorName)
    (h : (constructAttention path devices' c d).Supplies (P devices)) :
    (attention path devices c input).SyncInputs P := by
  unfold constructAttention at h
  unfold attention
  split_ifs at h ⊢
  · have hout := supplies_rowParallelLinear (h.inside 2 rfl)
    simpa [Attention.forward, SelfAttentionParallel.forward, attentionParallel,
      ColumnParallelLinear.forward, RowParallelLinear.forward, parallelLinear, Linear.forward,
      AllReduce.forward] using hout
  · unfold MultiLatentAttention.construct at h
    unfold MultiLatentAttention.forward
    split_ifs at h ⊢
    · have hout := supplies_batchedRowParallelLinear (h.inside 12 rfl)
      simpa [MultiLatentAttention.absorbed, AbsorbMLAParallel.forward, attentionParallel,
        BatchedColumnParallelLinear.forward, BatchedRowParallelLinear.forward,
        batchedParallelLinear, BatchedLinear.forward, BatchedRoPE.forward, Linear.forward,
        RoPE.forward, LayerNorm.forward, AllReduce.forward] using hout
    · have hout := supplies_rowParallelLinear (h.inside 12 rfl)
      simpa [MultiLatentAttention.restored, MultiLatentAttentionParallel.forward,
        attentionParallel, CompressedKVRestore.forward, ColumnParallelLinear.forward,
        RowParallelLinear.forward, parallelLinear, Linear.forward, RoPE.forward,
        LayerNorm.forward, AllReduce.forward] using hout

@[simp] theorem syncInputs_feedForward (useDp : Bool) :
    (feedForward path devices c useDp name input).SyncInputs P := by
  unfold feedForward
  split_ifs
  · simp [FeedForward2Way.forward, ColumnParallelLinear.forward, RowParallelLinear.forward,
      parallelLinear, Linear.forward, Activation.forward]
  · cases useDp with
    | false => simp [FeedForward3Way.forward, parallelLinear, Linear.forward, Activation.forward]
    | true => simp [FeedForward3Way.forward, Linear.forward, Activation.forward]

@[simp] theorem syncInputs_each_feedForward (useDp : Bool) (nameOf : ℕ → String)
    (inputOf : ℕ → TensorName) (l : List ℕ) :
    (Calls.each (fun n => feedForward path devices c useDp (nameOf n) (inputOf n)) l).SyncInputs
      P := Calls.syncInputs_each fun _ _ => syncInputs_feedForward _

theorem supplies_feedForward {Q : TensorName → Prop} {isExpert : Bool} (devices : List ℕ)
    (input : TensorName)
    (hway : c.ffnWay = 2 ∨ c.ffnWay = 3)
    (h : (constructFeedForward path devices' name c d isExpert false).Supplies Q) :
    Q (feedForward path devices c false name input).result := by
  unfold constructFeedForward at h
  unfold feedForward
  by_cases htwo : c.ffnWay = 2
  · rw [if_pos htwo] at h ⊢
    exact supplies_rowParallelLinear (h.inside 2 rfl)
  · rw [if_neg htwo, if_pos (hway.resolve_left htwo)] at h
    rw [if_neg htwo]
    exact supplies_rowParallelLinear (h.inside 2 rfl)

theorem syncInputs_sync (h : (Sync.construct path devices' name).Supplies (P devices)) :
    (Sync.forward path devices name input).SyncInputs P := by
  have hset := (h.inside 0 rfl).leaf "sync" (by simp)
  simpa [Sync.forward] using hset

/-! ### The decoders of two devices -/

variable {b : LlmDevice} {f : ExpertFFN} {rank : ℕ}

theorem syncInputs_expertFFN
    (h : (ExpertFFN.construct { b with rank } d path name).Supplies (P b.deviceList))
    (hexpert : P b.expertDeviceList input) (hnonMoe : P b.nonMoeDeviceList input) :
    (ExpertFFN.callForward b f path name input).SyncInputs P := by
  have hgate := (h.inside 2 rfl).leaf "gate_update_output" (by simp)
  have hsyncs : ∀ i syncName, (([checked (ExpertFFN.create b.moe rank),
      ColumnParallelLinear.construct (name :: path) [rank] "gate_fn" d.hiddenDim
        b.moe.numRoutedExpert]
        ++ ExpertFFN.constructRouted { b with rank } d (name :: path)))[i]?
          = some (Sync.construct (name :: path) b.deviceList syncName) →
      (Sync.forward (name :: path) b.deviceList syncName input).SyncInputs P := fun i syncName hi =>
    syncInputs_sync (h.inside i hi)
  have h₀ := hsyncs 10 "sync_0" rfl
  have hscatter := hsyncs 11 "sync_for_moe_scatter" rfl
  have h₂ := hsyncs 12 "sync_2" rfl
  have h₃ := hsyncs 13 "sync_3" rfl
  have hgather := hsyncs 14 "sync_for_moe_gather" rfl
  have h₅ := hsyncs 15 "sync_5" rfl
  have h₆ := hsyncs 16 "sync_6" rfl
  simp [ExpertFFN.callForward, h₀, hscatter, h₂, h₃, hgather, h₅, h₆, hgate, hexpert, hnonMoe,
    ColumnParallelLinear.forward, parallelLinear, Linear.forward, AllReduce.forward]

/-- The reduction after the feed-forward layer gets its output. -/
theorem syncInputs_denseDecoder (hway : b.config.ffnWay = 2 ∨ b.config.ffnWay = 3)
    (h : (Decoder.constructDense { b with rank } d path name).Supplies (P b.nonMoeDeviceList)) :
    (Decoder.denseForward b path name input).SyncInputs P := by
  have hattention (input : TensorName) := syncInputs_attention input (h.inside 2 rfl)
  have hout (input : TensorName) := supplies_feedForward b.nonMoeDeviceList input hway
    (h.inside 5 rfl)
  simp [Decoder.denseForward, hattention, hout, LayerNorm.forward, Residual.forward,
    AllReduce.forward]

theorem syncInputs_moeDecoder
    (h : ∀ devices ∈ [b.deviceList, b.expertDeviceList, b.nonMoeDeviceList],
      (MoEDecoder.construct { b with rank } d path name).Supplies (P devices)) :
    (MoEDecoder.forward b f path name input).SyncInputs P := by
  have hall := h _ (List.mem_cons_self ..)
  have hexpert := h b.expertDeviceList (by simp)
  have hnonMoe := h b.nonMoeDeviceList (by simp)
  have hattention (input : TensorName) :=
    syncInputs_attention input (hnonMoe.inside 2 rfl)
  have hinput (devices : List ℕ)
      (h : (MoEDecoder.construct { b with rank } d path name).Supplies (P devices)) :
      P devices ⟨"post_attn_layer_norm" :: name :: path, "layer_norm_output"⟩ :=
    (h.inside 4 rfl).leaf _ (by simp)
  have hffn := syncInputs_expertFFN (f := f) (hall.inside 5 rfl) (hinput _ hexpert)
    (hinput _ hnonMoe)
  simp [MoEDecoder.forward, hattention, hffn, LayerNorm.forward]

/-- The inputs of the sync modules of a device, by what another device has constructed. -/
theorem syncInputs_llm (hway : b.config.ffnWay = 2 ∨ b.config.ffnWay = 3)
    (hnonMoe : (LLM.construct { b with rank } d).Supplies (P b.nonMoeDeviceList))
    (h : (LLM.decoders b.config.toLlmConfig).any (·.hasExperts) = true →
      ∀ devices ∈ [b.deviceList, b.expertDeviceList], (LLM.construct { b with rank } d).Supplies
        (P devices)) :
    (LLM.callForward b f input).SyncInputs P := by
  have hdecoders : ∀ temp, (Calls.each (Decoder.forward b f ["LLM"] temp)
      (LLM.decoders b.config.toLlmConfig)).SyncInputs P := by
    intro temp
    apply Calls.syncInputs_each
    intro x hx
    have hinside {devices : List ℕ}
        (h : (LLM.construct { b with rank } d).Supplies (P devices)) :
        (Decoder.construct { b with rank } d ["LLM"] x).Supplies (P devices) :=
      (h.inside 1 rfl).of_subset (nodes_each_subset hx)
    cases x with
    | dense layer => exact syncInputs_denseDecoder hway (hinside hnonMoe)
    | moe layer =>
      have hexperts := h (List.any_eq_true.mpr ⟨_, hx, rfl⟩)
      apply syncInputs_moeDecoder
      intro devices hdevices
      rcases List.mem_cons.mp hdevices with rfl | hdevices
      · exact hinside (hexperts _ (by simp))
      · rcases List.mem_cons.mp hdevices with rfl | hdevices
        · exact hinside (hexperts _ (by simp))
        · rw [List.mem_singleton.mp hdevices]
          exact hinside hnonMoe
  simp [LLM.callForward, hdecoders]

end Layers

/-! ### The lookup -/

namespace Cluster

variable {config : LayerConfig} {moe : MoeConfig} {d : LayerDims} {maps : List ModuleMap}
  {rank : ℕ} {input : TensorName} {F : Forest LayerCall}

/-- The ranks of a group of a device. -/
theorem mem_group_lt {size n rank e : ℕ} (hdvd : size ∣ n) (hrank : rank < n)
    (he : e ∈ MoeConfig.deviceList (rank / size * size) size) : e < n :=
  (MoeConfig.partitions_of_dvd (Nat.pos_of_dvd_of_pos hdvd (by omega)) hdvd).inside rank hrank e he

/-- A device finds the tensors that it has constructed itself. -/
theorem supplies_dependencyTensor (hmaps : Model.moduleMap config moe d = .ok maps) {e : ℕ}
    (he : e < moe.totalNumDevice) : (LLM.construct { config, moe, rank := e } d).Supplies
      fun t => dependencyTensor maps t e = .ok (e, t) := by
  obtain ⟨M, map, hM, hmap, hholds⟩ := Model.moduleMap_get hmaps he
  rw [Construction.Supplies, ← LLM.create_modules hM]
  intro m hm name hname
  have hlookup := (hholds (moduleMapName m.path) m).mpr ⟨hm, rfl⟩
  simp [dependencyTensor, hmap, hlookup, hname]

/-- For every sync module that a device calls, the lookup gives the tensor of every device of the
group. -/
theorem setDependencyTensor_ok (hmaps : Model.moduleMap config moe d = .ok maps)
    (hbuild : LLM.build { config, moe, rank } input = .ok F) (hrank : rank < moe.totalNumDevice)
    (hdvd : moe.neTpDg ∣ moe.totalNumDevice) : ∀ c ∈ F.toList, c.isSync = true →
      ∀ t, c.input = .tensor t → setDependencyTensor maps t c.deviceList
        = .ok (c.deviceList.map (·, t)) := by
  obtain ⟨hcalls, hway⟩ := LLM.build_expertFFN hbuild
  -- each device by itself: the modules of the group members are constructed apart
  have hsync : ∀ e, (LLM.callForward { config, moe, rank }
      (LlmDevice.expertFFN { config, moe, rank }) input).SyncInputs
        fun devices t => e ∈ devices → dependencyTensor maps t e = .ok (e, t) := by
    intro e
    have hsupplies : ∀ devices : List ℕ, (e ∈ devices → e < moe.totalNumDevice) →
        (LLM.construct { config, moe, rank := e } d).Supplies
          fun t => e ∈ devices → dependencyTensor maps t e = .ok (e, t) := fun devices hin m hm
        name hname hmem => supplies_dependencyTensor hmaps (hin hmem) m hm name hname
    refine syncInputs_llm
      (P := fun devices t => e ∈ devices → dependencyTensor maps t e = .ok (e, t)) hway
      (hsupplies _ (mem_group_lt hdvd hrank)) ?_
    intro hexperts devices hdevices
    rcases List.mem_cons.mp hdevices with rfl | hdevices
    · apply hsupplies
      intro he
      simpa [LlmDevice.deviceList, MoeConfig.deviceList] using he
    · obtain rfl := List.mem_singleton.mp hdevices
      obtain ⟨f, hf⟩ : ∃ f, ExpertFFN.create moe rank = .ok f := by
        unfold LLM.build at hbuild
        rw [if_pos hexperts] at hbuild
        split_ifs at hbuild
        obtain ⟨f, hf, -⟩ := Runs.bind_eq_ok hbuild
        exact ⟨f, hf⟩
      exact hsupplies _ (mem_group_lt (ExpertFFN.create_ok hf).1.e_dvd_device hrank)
  intro c hc hissync t ht
  rw [hcalls] at hc
  exact Runs.mapM_ok fun e he => hsync e c hc hissync t ht he

/-- The first of the two devices of the small model. -/
theorem small_dependencies : ∃ maps F,
    Model.moduleMap smallConfig smallDevices smallDims = .ok maps ∧
    LLM.build { config := smallConfig, moe := smallDevices, rank := 0 } ⟨["LLM"], "input"⟩ = .ok F ∧
    ∀ c ∈ F.toList, c.isSync = true → ∀ t, c.input = .tensor t →
      setDependencyTensor maps t c.deviceList = .ok (c.deviceList.map (·, t)) := by
  obtain ⟨maps, hmaps⟩ := Model.moduleMap_ok fun _ hrank => ⟨_, small_create hrank⟩
  exact ⟨maps, _, hmaps, LLM.small_build _,
    setDependencyTensor_ok hmaps (LLM.small_build _) (by decide) (by decide)⟩

end Cluster
end LlmSystem
