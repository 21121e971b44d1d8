import LlmSystem.Executor.Scratch
import LlmSystem.Module.LeafStamps
import LlmSystem.Scheduler.TokenLimits

/-!
The shapes that the forward functions set. Those of the attention modules are computed here; the
shapes of other activations, and those in which executors leave their scratch operands, may be
any.
-/
namespace LlmSystem

/-- The dimensions that the modules are created with. -/
structure ShapeDims where
  hiddenDim : ℤ
  nVocab : ℤ
  headDim : ℤ
  numKvHeads : ℕ
  kvLoraRank : ℤ
  compressedKv : Bool

/-- The shapes of the tensors of a device. A run goes on after a failed assertion here, whose message
is kept. -/
structure DeviceShapes where
  shape : TensorName → List ℤ
  failures : List String := []

namespace DeviceShapes

/-- `get_activation`, which gives the tensor a shape. -/
def getActivation (t : TensorName) (shape : List ℤ) (x : DeviceShapes) : DeviceShapes :=
  { x with shape := Function.update x.shape t shape }

def assertTrue (expr : Bool) (message : String) (x : DeviceShapes) : DeviceShapes :=
  if expr then x else { x with failures := x.failures ++ [message] }

/-- `dim(0)`. -/
def rows (x : DeviceShapes) (t : TensorName) : Option ℤ := (x.shape t).head?

/-- An execution leaves its scratch operands in the shapes `left`. -/
def execute (layer : LayerType) (operands : List TensorName) (left : ℕ → List ℤ)
    (x : DeviceShapes) : DeviceShapes where
  shape t :=
    match layer.scratch.find? fun i => operands[i]? = some t with
    | some i => left i
    | none => x.shape t
  failures := x.failures

variable {x : DeviceShapes} {t t' : TensorName} {shape : List ℤ}

@[simp] theorem getActivation_shape_self : (x.getActivation t shape).shape t = shape :=
  Function.update_self ..

theorem getActivation_shape_of_ne (h : t' ≠ t) :
    (x.getActivation t shape).shape t' = x.shape t' := Function.update_of_ne h ..

@[simp] theorem getActivation_rows_self : (x.getActivation t shape).rows t = shape.head? :=
  congrArg List.head? getActivation_shape_self

@[simp] theorem getActivation_failures : (x.getActivation t shape).failures = x.failures := rfl

@[simp] theorem assertTrue_shape (expr : Bool) (message : String) :
    (x.assertTrue expr message).shape = x.shape := by
  unfold assertTrue
  split_ifs <;> rfl

@[simp] theorem assertTrue_true (message : String) : x.assertTrue true message = x := rfl

theorem assertTrue_grow (expr : Bool) (message : String) :
    x.failures <+: (x.assertTrue expr message).failures := by
  unfold assertTrue
  split_ifs
  · exact List.prefix_rfl
  · exact List.prefix_append _ _

section Execute
variable {layer : LayerType} {operands : List TensorName} {left : ℕ → List ℤ}

@[simp] theorem execute_failures : (x.execute layer operands left).failures = x.failures := rfl

theorem execute_shape_of_ne (h : ∀ i ∈ layer.scratch, operands[i]? ≠ some t) :
    (x.execute layer operands left).shape t = x.shape t := by
  have hnone : (layer.scratch.find? fun i => operands[i]? = some t) = none := by
    simpa using h
  unfold execute
  dsimp only
  rw [hnone]

theorem execute_shape_of_mem (hnodup : operands.Nodup) {i : ℕ} (hi : i ∈ layer.scratch)
    (ht : operands[i]? = some t) : (x.execute layer operands left).shape t = left i := by
  have hfound : (layer.scratch.find? fun i => operands[i]? = some t) = some i := by
    cases hfind : layer.scratch.find? fun i => operands[i]? = some t with
    | none => exact absurd ht (by simpa using List.find?_eq_none.mp hfind i hi)
    | some j =>
      have hj : operands[j]? = some t := by simpa using List.find?_some hfind
      obtain ⟨hlt, -⟩ := List.getElem?_eq_some_iff.mp ht
      rw [(List.getElem?_inj hlt hnodup).mp (ht.trans hj.symm)]
  unfold execute
  dsimp only
  rw [hfound]

/-- All that the executors of a layer do to the shapes, each candidate on what the ones before it
have left. -/
theorem execute_turns {d : DeviceMemory} {u : Bool} {i : AttentionInput}
    {types : List ProcessorType} {ops : Operands} {s : IssueState} {ts : List Executor.Turn}
    (h : Executor.turns d u layer i types ops s = .ok ts) (hnodup : operands.Nodup)
    (hops : ops.map (·.shape.map Nat.cast) = operands.map x.shape) : ∀ turn ∈ ts, ∃ left,
      turn.after.map (·.shape.map Nat.cast) = operands.map (x.execute layer operands left).shape := by
  intro turn hturn
  obtain ⟨hlength, hsame⟩ := Executor.turns_keep h turn hturn
  have hlen : ops.length = operands.length := by simpa using congrArg List.length hops
  refine ⟨fun j => ((turn.after.shape? j).getD []).map Nat.cast, List.ext_getElem? fun j => ?_⟩
  rw [List.getElem?_map, List.getElem?_map]
  cases ht : operands[j]? with
  | none =>
    have hout : turn.after[j]? = none := by
      rw [List.getElem?_eq_none_iff] at ht ⊢
      omega
    rw [hout]
    rfl
  | some t =>
    have hlt : j < turn.after.length := by
      have hj := (List.getElem?_eq_some_iff.mp ht).1
      omega
    rw [Option.map_some]
    by_cases hj : j ∈ layer.scratch
    · rw [execute_shape_of_mem hnodup hj ht, List.getElem?_eq_getElem hlt]
      simp [Operands.shape?, hlt]
    · have hother : ∀ i ∈ layer.scratch, operands[i]? ≠ some t := by
        intro i hi hti
        obtain ⟨hjlt, -⟩ := List.getElem?_eq_some_iff.mp ht
        rw [← (List.getElem?_inj hjlt hnodup).mp (ht.trans hti.symm)] at hi
        exact hj hi
      rw [execute_shape_of_ne hother]
      have hbefore := congrArg (·[j]?) hops
      simp only [List.getElem?_map, ht, Option.map_some] at hbefore
      rw [← hbefore]
      have hshape := congrArg (Option.map (List.map (Nat.cast : ℕ → ℤ))) (hsame j hj)
      simpa [Operands.shape?, Function.comp_def] using hshape

end Execute
end DeviceShapes

/-- `use_absorb` of the attention modules. -/
def LayerConfig.absorbs (config : LayerConfig) : Bool :=
  decide (config.qkRopeHeadDim ≠ 0) && config.useAbsorb

/-- The output that has the rows of the whole batch. -/
def LayerKind.fullOutput : LayerKind → Option String
  | .attentionMerge => some "output_tensor"
  | .embedding | .lmHead => some "Hidden vector"
  | _ => none

theorem LayerKind.fullOutput_name {kind : LayerKind} {name : String}
    (h : kind.fullOutput = some name) : name = "output_tensor" ∨ name = "Hidden vector" := by
  cases kind
  case attentionMerge => exact .inl (Option.some.inj h).symm
  case embedding | lmHead => exact .inr (Option.some.inj h).symm
  all_goals cases h

theorem LayerKind.half_name {kind : LayerKind} {half : String} (h : kind.half = some half) :
    half = "sum_tensor" ∨ half = "gen_tensor" := by
  cases kind
  case selfAttentionSum | multiLatentAttentionSum | absorbMLASum =>
    exact .inl (Option.some.inj h).symm
  case selfAttentionGen | multiLatentAttentionGen | absorbMLAGen =>
    exact .inr (Option.some.inj h).symm
  all_goals cases h

namespace LayerCall

/-- The input of an attention module, which is a single tensor. -/
def attnInput (c : LayerCall) : TensorName := c.input.tensors.headD (c.tensor "attn_output")

def caches (c : LayerCall) : List TensorName := [c.tensor "k_cache_0_0", c.tensor "v_cache_0_0"]

section Forward
variable (config : LayerConfig) (dims : ShapeDims)

/-- `num_heads` of a module, of which its devices have equal parts. -/
def numHeads (c : LayerCall) : ℕ := config.numHeads / c.deviceList.length

def numKvHeads (c : LayerCall) : ℕ := dims.numKvHeads / c.deviceList.length

/-- `sum_shape` and `gen_shape` of `AttentionSplit`. -/
def splitShape (token : ℤ) (c : LayerCall) : List ℤ :=
  if config.qkRopeHeadDim = 0 then
    [token, (c.numHeads config + c.numKvHeads dims * 2) * dims.headDim]
  else if config.absorbs then [c.input.tensors.length, token, dims.kvLoraRank]
  else [token, c.numHeads config * (2 * (dims.headDim + config.qkRopeHeadDim) + dims.headDim)]

/-- The attention modules set the shape of their output, then they execute. -/
def attentionShapes (layer : LayerType) (shape : List ℤ) (operands : List TensorName)
    (left : ℕ → List ℤ) (c : LayerCall) (x : DeviceShapes) : DeviceShapes :=
  (x.getActivation (c.tensor "attn_output") shape).execute layer operands left

/-- `AttentionMerge`, which has its assertions in one branch only. -/
def mergeShapes (batch : BatchedSequence) (c : LayerCall) (x : DeviceShapes) : DeviceShapes :=
  let sumToken := batch.getSumProcessToken
  let genToken := batch.getGenProcessToken
  if config.absorbs then
    x.getActivation (c.tensor "output_tensor") [sumToken + genToken, dims.kvLoraRank]
  else
    let message := "Dimenison of input tensor of AttentionMerge is not matched"
    ((x.assertTrue (decide (c.input.tensors[0]?.bind x.rows = some sumToken)) message).assertTrue
      (decide (c.input.tensors[1]?.bind x.rows = some genToken)) message).getActivation
        (c.tensor "output_tensor") [sumToken + genToken, c.numHeads config * dims.headDim]

/-- What the forward function does to the shapes of its device. Executions of the layers without
attention have no scratch operands. -/
def forwardShapes (rest : TensorName → List ℤ) (left : ℕ → List ℤ) (batch : BatchedSequence)
    (c : LayerCall) (x : DeviceShapes) : DeviceShapes :=
  let input := c.attnInput
  let output := c.tensor "attn_output"
  let attnShape := [(x.shape input).headD 0, c.numHeads config * dims.headDim]
  match c.kind with
  | .embedding => x.getActivation (c.tensor "Hidden vector") [batch.getProcessToken, dims.hiddenDim]
  | .lmHead => x.getActivation (c.tensor "Hidden vector") [batch.getProcessToken, dims.nVocab]
  | .attentionSplit =>
    (x.getActivation (c.tensor "sum_tensor")
      (c.splitShape config dims batch.getSumProcessToken)).getActivation
        (c.tensor "gen_tensor") (c.splitShape config dims batch.getGenProcessToken)
  | .attentionMerge => c.mergeShapes config dims batch x
  | .selfAttentionSum => c.attentionShapes .attentionSum attnShape [input, output] left x
  | .selfAttentionGen => c.attentionShapes .attentionGen attnShape (input :: c.caches) left x
  | .multiLatentAttentionSum => c.attentionShapes .mlaSum (x.shape input) [input, output] left x
  | .multiLatentAttentionGen =>
    c.attentionShapes .mlaGen attnShape (if dims.compressedKv then [input] else input :: c.caches)
      left x
  | .absorbMLASum => c.attentionShapes .absorbedMlaSum (x.shape input) [input, output] left x
  | .absorbMLAGen => c.attentionShapes .absorbedMlaGen (x.shape input) [input] left x
  | .container | .layerNorm | .residual | .rope | .batchedRope | .allReduce | .linear
  | .batchedLinear _ | .activation | .compressedKVRestore | .syncSet | .sync | .gateUpdate
  | .moeScatter | .moeGather | .route _ _ =>
    c.activations.foldl (fun x t => x.getActivation t (rest t)) x

end Forward

section Effect
variable {config : LayerConfig} {dims : ShapeDims} {rest : TensorName → List ℤ} {left : ℕ → List ℤ}
  {batch : BatchedSequence} {c : LayerCall} {x : DeviceShapes} {t : TensorName} {n : ℤ}

/-- An attention module: its scratch operands, and the rows of its output. -/
theorem forwardShapes_half (h : c.kind.half ≠ none) : ∃ layer shape operands,
    c.forwardShapes config dims rest left batch x
      = c.attentionShapes layer shape operands left x ∧
    (∀ i ∈ layer.scratch, ∀ t, operands[i]? = some t → t ∈ c.attnInput :: c.caches) ∧
    ∀ n, x.rows c.attnInput = some n → shape.head? = some n := by
  have hnone : ∀ {operands : List TensorName}, ∀ i ∈ ([] : List ℕ), ∀ t, operands[i]? = some t →
      t ∈ c.attnInput :: c.caches := fun i hi => absurd hi List.not_mem_nil
  have hsum : ∀ i ∈ [0], ∀ t, [c.attnInput, c.tensor "attn_output"][i]? = some t →
      t ∈ c.attnInput :: c.caches := by simp
  have hgen : ∀ i ∈ [1, 2], ∀ t, (c.attnInput :: c.caches)[i]? = some t →
      t ∈ c.attnInput :: c.caches := fun i _ t ht => List.mem_of_getElem? ht
  have hrows : ∀ n m, x.rows c.attnInput = some n →
      [(x.shape c.attnInput).headD 0, m].head? = some n := by
    intro n m hn
    unfold DeviceShapes.rows at hn
    simp [List.headD_eq_head?_getD, hn]
  unfold forwardShapes
  cases hkind : c.kind
  all_goals rw [hkind] at h
  case selfAttentionSum => exact ⟨_, _, _, rfl, hsum, fun n => hrows n _⟩
  case selfAttentionGen => exact ⟨_, _, _, rfl, hgen, fun n => hrows n _⟩
  case multiLatentAttentionSum => exact ⟨_, _, _, rfl, hnone, fun n hn => hn⟩
  case multiLatentAttentionGen =>
    refine ⟨_, _, _, rfl, ?_, fun n => hrows n _⟩
    split_ifs
    · simp [LayerType.scratch]
    · exact hgen
  case absorbMLASum => exact ⟨_, _, _, rfl, hsum, fun n hn => hn⟩
  case absorbMLAGen => exact ⟨_, _, _, rfl, hnone, fun n hn => hn⟩
  all_goals exact absurd rfl h

/-- Of the batch only the sequences matter. -/
theorem forwardShapes_congr {batch' : BatchedSequence} (h : batch.sequence = batch'.sequence) :
    c.forwardShapes config dims rest left batch x
      = c.forwardShapes config dims rest left batch' x := by
  unfold forwardShapes mergeShapes BatchedSequence.getProcessToken
    BatchedSequence.getSumProcessToken BatchedSequence.getGenProcessToken BatchedSequence.getSum
    BatchedSequence.getGen
  rw [h]

theorem activations_half (h : c.kind.half ≠ none) : c.activations = [c.tensor "attn_output"] := by
  unfold activations
  generalize c.kind = kind at h
  cases kind
  case selfAttentionSum | selfAttentionGen | multiLatentAttentionSum | multiLatentAttentionGen
    | absorbMLASum | absorbMLAGen => rfl
  all_goals exact absurd rfl h

theorem foldl_getActivation (l : List TensorName) (x : DeviceShapes) :
    (t ∉ l → (l.foldl (fun x t => x.getActivation t (rest t)) x).shape t = x.shape t) ∧
      (l.foldl (fun x t => x.getActivation t (rest t)) x).failures = x.failures := by
  induction l generalizing x with
  | nil => exact ⟨fun _ => rfl, rfl⟩
  | cons t' l ih =>
    obtain ⟨hshape, hfailures⟩ := ih (x.getActivation t' (rest t'))
    refine ⟨fun ht => ?_, hfailures⟩
    exact (hshape (List.not_mem_of_not_mem_cons ht)).trans
      (DeviceShapes.getActivation_shape_of_ne (List.ne_of_not_mem_cons ht))

/-- The other tensors keep their shapes. -/
theorem forwardShapes_frame (hactivation : t ∉ c.activations)
    (hscratch : c.kind.half ≠ none → t ∉ c.attnInput :: c.caches) :
    (c.forwardShapes config dims rest left batch x).shape t = x.shape t := by
  by_cases hhalf : c.kind.half = none
  · clear hscratch
    unfold forwardShapes
    unfold activations at hactivation
    cases hkind : c.kind
    all_goals rw [hkind] at hhalf hactivation
    case embedding | lmHead =>
      exact DeviceShapes.getActivation_shape_of_ne (by simpa using hactivation)
    case attentionSplit =>
      obtain ⟨hsum, hgen⟩ : t ≠ c.tensor "sum_tensor" ∧ t ≠ c.tensor "gen_tensor" := by
        simpa using hactivation
      dsimp only
      rw [DeviceShapes.getActivation_shape_of_ne hgen, DeviceShapes.getActivation_shape_of_ne hsum]
    case attentionMerge =>
      have hne : t ≠ c.tensor "output_tensor" := by simpa using hactivation
      dsimp only [mergeShapes]
      split_ifs
      · exact DeviceShapes.getActivation_shape_of_ne hne
      · rw [DeviceShapes.getActivation_shape_of_ne hne]
        simp
    case selfAttentionSum | selfAttentionGen | multiLatentAttentionSum | multiLatentAttentionGen
      | absorbMLASum | absorbMLAGen => cases hhalf
    all_goals
      refine (foldl_getActivation _ _).1 ?_
      unfold activations
      rw [hkind]
      exact hactivation
  · obtain ⟨layer, shape, operands, heq, hoperands, -⟩ :=
      @forwardShapes_half config dims rest left batch c x hhalf
    have hne : t ≠ c.tensor "attn_output" := by simpa [activations_half hhalf] using hactivation
    rw [heq]
    unfold attentionShapes
    rw [DeviceShapes.execute_shape_of_ne fun i hi hti => hscratch hhalf (hoperands i hi t hti),
      DeviceShapes.getActivation_shape_of_ne hne]

theorem rows_half (h : c.kind.half ≠ none) (hinput : x.rows c.attnInput = some n)
    (hne : c.tensor "attn_output" ∉ c.attnInput :: c.caches) :
    (c.forwardShapes config dims rest left batch x).rows (c.tensor "attn_output") = some n := by
  obtain ⟨layer, shape, operands, heq, hoperands, hshape⟩ :=
    @forwardShapes_half config dims rest left batch c x h
  rw [heq]
  unfold attentionShapes DeviceShapes.rows
  rw [DeviceShapes.execute_shape_of_ne fun i hi hti => hne (hoperands i hi _ hti),
    DeviceShapes.getActivation_shape_self]
  exact hshape n hinput

theorem rows_split (h : c.kind = .attentionSplit) (habsorbs : config.absorbs = false) :
    (c.forwardShapes config dims rest left batch x).rows (c.tensor "sum_tensor")
        = some batch.getSumProcessToken ∧
      (c.forwardShapes config dims rest left batch x).rows (c.tensor "gen_tensor")
        = some batch.getGenProcessToken := by
  have hrows : ∀ token, (c.splitShape config dims token).head? = some token := by
    intro token
    unfold splitShape
    rw [if_neg (by simp [habsorbs] : ¬config.absorbs = true)]
    split_ifs
    · rfl
    · rfl
  have hne : c.tensor "sum_tensor" ≠ c.tensor "gen_tensor" := by simp [tensor]
  unfold forwardShapes
  rw [h]
  dsimp only
  constructor
  · unfold DeviceShapes.rows
    rw [DeviceShapes.getActivation_shape_of_ne hne, DeviceShapes.getActivation_shape_self]
    exact hrows _
  · rw [DeviceShapes.getActivation_rows_self]
    exact hrows _

/-- The output of `AttentionMerge` has all rows, and its assertions hold where its inputs have
theirs. -/
theorem rows_merge (h : c.kind = .attentionMerge) :
    (c.forwardShapes config dims rest left batch x).rows (c.tensor "output_tensor")
        = some batch.getProcessToken ∧
      ((config.absorbs = false → c.input.tensors[0]?.bind x.rows = some batch.getSumProcessToken ∧
          c.input.tensors[1]?.bind x.rows = some batch.getGenProcessToken) →
        (c.forwardShapes config dims rest left batch x).failures = x.failures) := by
  unfold forwardShapes
  rw [h]
  dsimp only [mergeShapes]
  rw [Scheduler.getProcessToken_eq]
  split_ifs with habsorbs
  · exact ⟨DeviceShapes.getActivation_rows_self, fun _ => rfl⟩
  · refine ⟨DeviceShapes.getActivation_rows_self, fun hrows => ?_⟩
    obtain ⟨hsum, hgen⟩ := hrows (by simpa using habsorbs)
    simp [hsum, hgen]

theorem rows_full {name : String} (h : c.kind.fullOutput = some name) :
    (c.forwardShapes config dims rest left batch x).rows (c.tensor name)
      = some batch.getProcessToken := by
  cases hkind : c.kind
  all_goals rw [hkind] at h
  case embedding | lmHead =>
    obtain rfl := Option.some.inj h
    unfold forwardShapes
    rw [hkind]
    exact DeviceShapes.getActivation_rows_self
  case attentionMerge =>
    obtain rfl := Option.some.inj h
    exact (rows_merge hkind).1
  all_goals cases h

theorem activations_name (h : c.kind.fullOutput = none) :
    ∀ t ∈ c.activations, t.name ≠ "output_tensor" ∧ t.name ≠ "Hidden vector" := by
  have hroute : ∀ expert : ℕ, ∀ name ∈ ["output_tensor", "Hidden vector"],
      "expert_input_" ++ toString expert ≠ name := by
    intro expert name hname heq
    have hhead : name.toList.head? = some 'e' := by
      rw [← heq, String.toList_append]
      rfl
    have hother : ∀ name ∈ ["output_tensor", "Hidden vector"], name.toList.head? ≠ some 'e' := by
      decide
    exact hother name hname hhead
  unfold activations
  cases hkind : c.kind
  all_goals rw [hkind] at h
  case embedding | lmHead | attentionMerge => cases h
  case route expertOffset numRoutedExpert =>
    refine List.forall_mem_map.mpr fun expert _ => ⟨?_, ?_⟩
    · exact hroute expert _ (by decide)
    · exact hroute expert _ (by decide)
  case batchedLinear usePlainLinear =>
    cases usePlainLinear
    · simp [tensor]
    · simp [tensor]
  all_goals simp [tensor]

theorem activations_full {name : String} (h : c.kind.fullOutput = some name) :
    c.activations = [c.tensor name] := by
  unfold activations
  cases hkind : c.kind
  all_goals rw [hkind] at h
  case embedding | lmHead | attentionMerge =>
    obtain rfl := Option.some.inj h
    rfl
  all_goals cases h

/-- Rows that have been set from the batch stay. -/
theorem rows_kept (hname : t.name = "output_tensor" ∨ t.name = "Hidden vector")
    (hwired : ∀ half ∈ c.kind.half, c.attnInput.name = half)
    (ht : x.rows t = some batch.getProcessToken) :
    (c.forwardShapes config dims rest left batch x).rows t = some batch.getProcessToken := by
  by_cases hactivation : t ∈ c.activations
  · cases hfull : c.kind.fullOutput with
    | none =>
      obtain ⟨houtput, hhidden⟩ := activations_name hfull t hactivation
      exact absurd hname (not_or_intro houtput hhidden)
    | some name =>
      rw [activations_full hfull] at hactivation
      obtain rfl := List.mem_singleton.mp hactivation
      exact rows_full hfull
  · refine (congrArg List.head? (forwardShapes_frame hactivation fun hhalf hmem => ?_)).trans ht
    obtain ⟨half, hhalf⟩ := Option.ne_none_iff_exists'.mp hhalf
    have hscratch : t.name ∈ ["sum_tensor", "gen_tensor", "k_cache_0_0", "v_cache_0_0"] := by
      rcases List.mem_cons.mp hmem with rfl | hmem
      · rw [hwired half hhalf]
        rcases LayerKind.half_name hhalf with rfl | rfl
        · decide
        · decide
      · rcases (by simpa [caches] using hmem : t = c.tensor "k_cache_0_0" ∨ _) with rfl | rfl
        · simp [tensor]
        · simp [tensor]
    rcases hname with h | h
    · rw [h] at hscratch
      exact absurd hscratch (by decide)
    · rw [h] at hscratch
      exact absurd hscratch (by decide)

theorem failures_of_ne (h : c.kind ≠ .attentionMerge) :
    (c.forwardShapes config dims rest left batch x).failures = x.failures := by
  unfold forwardShapes
  cases hkind : c.kind
  all_goals rw [hkind] at h
  case attentionMerge => exact absurd rfl h
  case embedding | lmHead | attentionSplit | selfAttentionSum | selfAttentionGen
    | multiLatentAttentionSum | multiLatentAttentionGen | absorbMLASum | absorbMLAGen => rfl
  all_goals exact (foldl_getActivation (t := c.attnInput) _ _).2

theorem failures_grow : x.failures <+: (c.forwardShapes config dims rest left batch x).failures := by
  by_cases h : c.kind = .attentionMerge
  · unfold forwardShapes
    rw [h]
    dsimp only
    unfold mergeShapes
    split_ifs
    · exact List.prefix_rfl
    · exact (DeviceShapes.assertTrue_grow _ _).trans (DeviceShapes.assertTrue_grow _ _)
  · rw [failures_of_ne h]

end Effect
end LayerCall

/-! ### All devices -/

/-- The batch and the tensors of each device. -/
structure ShapeState (N : ℕ) where
  sequencesMetadata : Fin N → BatchedSequence
  device : Fin N → DeviceShapes

/-- What the forward functions of the devices compute besides: other shapes, and the counts of tokens
in the batches, of which they leave the sequences. -/
structure ShapeModel (N : ℕ) where
  dims : ShapeDims
  rest : Fin N → LayerCall → ShapeState N → TensorName → List ℤ
  left : Fin N → LayerCall → ShapeState N → ℕ → List ℤ
  counts : Fin N → LayerCall → ShapeState N → Fin N → BatchedSequence

variable {N : ℕ}

/-- A forward function of the device `d`. -/
def LayerCall.updateShapes (config : LayerConfig) (p : ShapeModel N) (d : Fin N) (c : LayerCall)
    (x : ShapeState N) : ShapeState N where
  sequencesMetadata e :=
    { p.counts d c x e with sequence := (x.sequencesMetadata e).sequence }
  device := Function.update x.device d
    (c.forwardShapes config p.dims (p.rest d c x) (p.left d c x) (x.sequencesMetadata d)
      (x.device d))

/-- The cluster with these shapes. -/
def LlmCluster.withShapes (b : LlmCluster N (ShapeState N)) (p : ShapeModel N) :
    LlmCluster N (ShapeState N) :=
  { b with costs := fun d => { b.costs d with update := LayerCall.updateShapes b.config p d } }

end LlmSystem
