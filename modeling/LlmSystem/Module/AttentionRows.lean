import LlmSystem.Module.SharedRuns
import LlmSystem.Module.ShapeForward

/-!
The rows of the attention modules. `AttentionSplit` and `AttentionMerge` each take them from the
batch anew; between the two, the tensors carry them in their shapes.
-/
namespace LlmSystem

open Runs Nesting

/-! ### The calls of an attention stand together -/

namespace LayerKind

/-- The four modules of `attentionParallel`. -/
def inAttention (kind : LayerKind) : Prop :=
  kind = .attentionSplit ∨ kind = .attentionMerge ∨ kind.half ≠ none

instance (kind : LayerKind) : Decidable kind.inAttention := inferInstanceAs (Decidable (_ ∨ _ ∨ _))

end LayerKind

/-- The four calls of an attention. -/
def attentionCalls (path : List String) (devices : List ℕ) (sum gen : LayerKind) (merged : ℕ)
    (input : List TensorName) : Forest LayerCall :=
  (attentionParallel path devices sum gen merged input).calls

/-- The called module has all four modules of an attention below it, or none. -/
def LayerCall.Housed (_ : LayerCall) (children : Forest LayerCall) : Prop :=
  (∀ c ∈ children.roots, ¬c.kind.inAttention) ∨ ∃ path devices sum gen merged input,
    sum.half = some "sum_tensor" ∧ gen.half = some "gen_tensor" ∧
      children = attentionCalls path devices sum gen merged input

namespace Calls

/-- An attention is nowhere but in modules of its own. -/
def Housed {α : Type} (x : Calls α) : Prop :=
  (∀ c ∈ x.calls.roots, ¬c.kind.inAttention) ∧ x.calls.Licensed LayerCall.Housed

variable {α β : Type}

@[simp] theorem housed_pure (a : α) : (pure a : Calls α).Housed :=
  ⟨fun _ h => absurd h List.not_mem_nil, trivial⟩

@[simp] theorem housed_bind (x : Calls α) (f : α → Calls β) :
    (x >>= f).Housed ↔ x.Housed ∧ (f x.result).Housed := by
  unfold Housed
  simp only [calls_bind, Forest.roots_append, List.forall_mem_append, Forest.licensed_append]
  tauto

@[simp] theorem housed_onTensor {kind : LayerKind} (path : List String) (devices : List ℕ)
    (input : TensorName) {x : Calls TensorName} (hkind : ¬kind.inAttention) (hx : x.Housed) :
    (onTensor kind path devices input x).Housed :=
  ⟨List.forall_mem_singleton.mpr hkind, .inl hx.1, hx.2, trivial⟩

@[simp] theorem housed_onTensorVec {kind : LayerKind} (path : List String) (devices : List ℕ)
    (input : List TensorName) {x : Calls (List TensorName)} (hkind : ¬kind.inAttention)
    (hx : x.Housed) : (onTensorVec kind path devices input x).Housed :=
  ⟨List.forall_mem_singleton.mpr hkind, .inl hx.1, hx.2, trivial⟩

theorem housed_each {f : α → Calls β} (h : ∀ a, (f a).Housed) (l : List α) :
    (each f l).Housed := by
  induction l with
  | nil => exact housed_pure _
  | cons a l ih => simp [each, h a, ih]

end Calls

section Housed
variable (path : List String) (devices : List ℕ) (name : String)

theorem licensed_attentionCalls (sum gen : LayerKind) (merged : ℕ) (input : List TensorName) :
    (attentionCalls path devices sum gen merged input).Licensed LayerCall.Housed := by
  have hleaf : ∀ c, LayerCall.Housed c .nil := fun c => .inl fun _ h => absurd h List.not_mem_nil
  exact ⟨hleaf _, trivial, hleaf _, trivial, hleaf _, trivial, hleaf _, trivial, trivial⟩

variable {sum gen : LayerKind} {merged : ℕ} {input : List TensorName} {path devices} in
theorem housed_attentionCalls {α : Type} {x : Calls α} {c : LayerCall}
    (hx : x.calls = .node c (attentionCalls path devices sum gen merged input) .nil)
    (hc : c.kind = .container) (hsum : sum.half = some "sum_tensor")
    (hgen : gen.half = some "gen_tensor") : x.Housed := by
  unfold Calls.Housed
  rw [hx]
  refine ⟨List.forall_mem_singleton.mpr (by rw [hc]; decide), ?_, licensed_attentionCalls .., trivial⟩
  exact .inr ⟨_, _, _, _, _, _, hsum, hgen, rfl⟩

@[simp] theorem housed_selfAttention (input : TensorName) :
    (SelfAttentionParallel.forward path devices name input).Housed :=
  housed_attentionCalls (congrArg (Forest.node _ · .nil) (Forest.append_nil _)) rfl rfl rfl

@[simp] theorem housed_latentAttention (input : List TensorName) :
    (MultiLatentAttentionParallel.forward path devices name input).Housed :=
  housed_attentionCalls rfl rfl rfl rfl

@[simp] theorem housed_absorbedAttention (numHeads : ℕ) (input : List TensorName) :
    (AbsorbMLAParallel.forward path devices numHeads name input).Housed :=
  housed_attentionCalls rfl rfl rfl rfl

attribute [local simp] LayerKind.inAttention LayerKind.half Calls.leaf

@[simp] theorem housed_linear (input : TensorName) :
    (Linear.forward path devices name input).Housed := by
  simp [Linear.forward]

@[simp] theorem housed_parallelLinear (input : TensorName) :
    (parallelLinear path devices name input).Housed := by
  simp [parallelLinear]

@[simp] theorem housed_batchedParallelLinear (usePlainLinear : Bool) (input : List TensorName) :
    (batchedParallelLinear path devices usePlainLinear name input).Housed := by
  simp [batchedParallelLinear, BatchedLinear.forward]

@[simp] theorem housed_sync (input : TensorName) :
    (Sync.forward path devices name input).Housed := by
  simp [Sync.forward]

@[simp] theorem housed_attention (c : LayerConfig) (input : TensorName) :
    (attention path devices c input).Housed := by
  unfold attention
  split_ifs
  · simp [Attention.forward, ColumnParallelLinear.forward, RowParallelLinear.forward,
      AllReduce.forward]
  · cases habsorb : c.useAbsorb with
    | false =>
      simp [MultiLatentAttention.forward, MultiLatentAttention.restored, RoPE.forward,
        LayerNorm.forward, CompressedKVRestore.forward, ColumnParallelLinear.forward,
        RowParallelLinear.forward, AllReduce.forward]
    | true =>
      simp [MultiLatentAttention.forward, MultiLatentAttention.absorbed, RoPE.forward,
        LayerNorm.forward, BatchedRoPE.forward, BatchedColumnParallelLinear.forward,
        BatchedRowParallelLinear.forward, AllReduce.forward]

@[simp] theorem housed_feedForward (c : LayerConfig) (useDp : Bool) (input : TensorName) :
    (feedForward path devices c useDp name input).Housed :=
  feedForward_rule path devices (housed_linear · devices) (by simp [Activation.forward])
    (fun _ _ _ hx => Calls.housed_onTensor _ _ _ (by decide) hx)
    (fun x f hx hf => (Calls.housed_bind x f).mpr ⟨hx, hf⟩) c useDp name input

variable (b : LlmDevice) (f : ExpertFFN)

@[simp] theorem housed_expertFFN (input : TensorName) :
    (ExpertFFN.callForward b f path name input).Housed := by
  simp [ExpertFFN.callForward, ColumnParallelLinear.forward, AllReduce.forward, Calls.housed_each]

theorem housed_decoder (input : TensorName) (decoder : Decoder) :
    (Decoder.forward b f path input decoder).Housed := by
  cases decoder with
  | dense layer =>
    simp [Decoder.forward, Decoder.denseForward, LayerNorm.forward, Residual.forward,
      AllReduce.forward]
  | moe layer => simp [Decoder.forward, MoEDecoder.forward, LayerNorm.forward]

theorem housed_llm (input : TensorName) : (LLM.callForward b f input).Housed := by
  simp [LLM.callForward, Calls.housed_each (housed_decoder _ b f _)]

end Housed

namespace LayerCall

/-- Not a module that only calls others. -/
def Executes (c : LayerCall) : Prop := c.kind ≠ .container

instance (c : LayerCall) : Decidable c.Executes := inferInstanceAs (Decidable (_ ≠ _))

end LayerCall

/-- How the four modules of an attention are connected. -/
structure AttentionBlock (split sum gen merge : LayerCall) : Prop where
  split_kind : split.kind = .attentionSplit
  sum_half : sum.kind.half = some "sum_tensor"
  gen_half : gen.kind.half = some "gen_tensor"
  merge_kind : merge.kind = .attentionMerge
  sum_input : sum.attnInput = split.tensor "sum_tensor"
  gen_input : gen.attnInput = split.tensor "gen_tensor"
  merge_input : merge.input = .tensorVec [sum.tensor "attn_output", gen.tensor "attn_output"]
  paths : sum.path ≠ gen.path

theorem exists_attentionBlock (path : List String) (devices : List ℕ) {sum gen : LayerKind}
    (merged : ℕ) (input : List TensorName) (hsum : sum.half = some "sum_tensor")
    (hgen : gen.half = some "gen_tensor") : ∃ split sum' gen' merge,
      (attentionCalls path devices sum gen merged input).toList = [split, sum', gen', merge] ∧
        AttentionBlock split sum' gen' merge :=
  ⟨_, _, _, _, rfl, rfl, hsum, hgen, rfl, rfl, rfl, rfl, by simp⟩

theorem AttentionBlock.executes {split sum gen merge : LayerCall}
    (h : AttentionBlock split sum gen merge) : ∀ c ∈ [split, sum, gen, merge], c.Executes := by
  have hhalf : ∀ {c : LayerCall} {half}, c.kind.half = some half → c.Executes := by
    intro c half hc hkind
    rw [hkind] at hc
    cases hc
  have hsplit : split.Executes := by simp [LayerCall.Executes, h.split_kind]
  have hmerge : merge.Executes := by simp [LayerCall.Executes, h.merge_kind]
  simp [hsplit, hhalf h.sum_half, hhalf h.gen_half, hmerge]

/-- Calls in which those of an attention stand together. -/
inductive Blocks : List LayerCall → Prop
  | nil : Blocks []
  | plain {c : LayerCall} {l : List LayerCall} (hc : ¬c.kind.inAttention) (hl : Blocks l) :
      Blocks (c :: l)
  | attention {split sum gen merge : LayerCall} {l : List LayerCall}
      (h : AttentionBlock split sum gen merge) (hl : Blocks l) :
      Blocks (split :: sum :: gen :: merge :: l)

theorem Blocks.append {l l' : List LayerCall} (h : Blocks l) (h' : Blocks l') :
    Blocks (l ++ l') := by
  induction h with
  | nil => exact h'
  | plain hc _ ih => exact .plain hc ih
  | attention h _ ih => exact .attention h ih

theorem blocks_of_housed {F : Forest LayerCall} (hroots : ∀ c ∈ F.roots, ¬c.kind.inAttention)
    (h : F.Licensed LayerCall.Housed) : Blocks (F.toList.filter fun c => decide c.Executes) := by
  induction F with
  | nil => exact .nil
  | node a children rest hchildren hrest =>
    obtain ⟨ha, hbelow, hafter⟩ := h
    obtain ⟨hroot, hroots⟩ := List.forall_mem_cons.mp hroots
    have hin : Blocks (children.toList.filter fun c => decide c.Executes) := by
      rcases ha with hplain | ⟨path, devices, sum, gen, merged, input, hsum, hgen, rfl⟩
      · exact hchildren hplain hbelow
      · obtain ⟨_, _, _, _, heq, hblock⟩ :=
          exists_attentionBlock path devices merged input hsum hgen
        rw [heq, List.filter_eq_self.mpr fun c hc => decide_eq_true (hblock.executes c hc)]
        exact .attention hblock .nil
    have hall := hin.append (hrest hroots hafter)
    rw [← List.filter_append] at hall
    by_cases hexec : a.Executes
    · rw [Forest.toList, List.filter_cons_of_pos (by simpa using hexec)]
      exact .plain hroot hall
    · rw [Forest.toList, List.filter_cons_of_neg (by simpa using hexec)]
      exact hall

/-! ### Runs of calls -/

/-- An execution of the call on the shapes of its device, whatever else it depends on. -/
def ShapeStep (config : LayerConfig) (dims : ShapeDims) (batch : BatchedSequence) (x : DeviceShapes)
    (c : LayerCall) (x' : DeviceShapes) : Prop :=
  ∃ rest left, c.forwardShapes config dims rest left batch x = x'

section Steps
variable {config : LayerConfig} {dims : ShapeDims} {batch : BatchedSequence} {x x' : DeviceShapes}
  {calls : List LayerCall}

theorem AttentionBlock.attn_input {split sum gen merge : LayerCall}
    (h : AttentionBlock split sum gen merge) :
    sum.tensor "attn_output" ∉ sum.attnInput :: sum.caches ∧
      gen.tensor "attn_output" ∉ gen.attnInput :: gen.caches ∧
      split.tensor "gen_tensor" ∉ sum.attnInput :: sum.caches ∧
      sum.tensor "attn_output" ∉ gen.attnInput :: gen.caches := by
  rw [h.sum_input, h.gen_input]
  simp [LayerCall.caches, LayerCall.tensor]

/-- From `AttentionSplit` to `AttentionMerge`, each half keeps its rows. -/
theorem AttentionBlock.failures {split sum gen merge : LayerCall}
    (hblock : AttentionBlock split sum gen merge)
    (h : Run (ShapeStep config dims batch) x [split, sum, gen, merge] x') :
    x'.failures = x.failures := by
  obtain _ | ⟨⟨rest₁, left₁, h₁⟩, h⟩ := h
  obtain _ | ⟨⟨rest₂, left₂, h₂⟩, h⟩ := h
  obtain _ | ⟨⟨rest₃, left₃, h₃⟩, h⟩ := h
  obtain _ | ⟨⟨rest₄, left₄, h₄⟩, ⟨⟩⟩ := h
  rename_i x₁ x₂ x₃
  have hsumHalf : sum.kind.half ≠ none := by simp [hblock.sum_half]
  have hgenHalf : gen.kind.half ≠ none := by simp [hblock.gen_half]
  have hsumKind : sum.kind ≠ .attentionMerge := fun h => hsumHalf (by rw [h]; rfl)
  have hgenKind : gen.kind ≠ .attentionMerge := fun h => hgenHalf (by rw [h]; rfl)
  obtain ⟨hsumOut, hgenOut, hgenTensor, hother⟩ := hblock.attn_input
  have hbefore : x₃.failures = x.failures := by
    rw [← h₃, LayerCall.failures_of_ne hgenKind, ← h₂, LayerCall.failures_of_ne hsumKind, ← h₁,
      LayerCall.failures_of_ne (by simp [hblock.split_kind])]
  rw [← h₄, (LayerCall.rows_merge hblock.merge_kind).2 fun habsorbs => ?_, hbefore]
  obtain ⟨hsum₁, hgen₁⟩ :=
    @LayerCall.rows_split config dims rest₁ left₁ batch split x hblock.split_kind habsorbs
  rw [h₁] at hsum₁ hgen₁
  have hsum₂ : x₂.rows (sum.tensor "attn_output") = some batch.getSumProcessToken := by
    rw [← h₂]
    exact LayerCall.rows_half hsumHalf (hblock.sum_input ▸ hsum₁) hsumOut
  have hgen₂ : x₂.rows (split.tensor "gen_tensor") = some batch.getGenProcessToken := by
    rw [← hgen₁, ← h₂]
    refine congrArg List.head? (LayerCall.forwardShapes_frame ?_ fun _ => hgenTensor)
    simp [LayerCall.activations_half hsumHalf, LayerCall.tensor]
  have hsum₃ : x₃.rows (sum.tensor "attn_output") = some batch.getSumProcessToken := by
    rw [← hsum₂, ← h₃]
    refine congrArg List.head? (LayerCall.forwardShapes_frame ?_ fun _ => hother)
    simp [LayerCall.activations_half hgenHalf, LayerCall.tensor, hblock.paths]
  have hgen₃ : x₃.rows (gen.tensor "attn_output") = some batch.getGenProcessToken := by
    rw [← h₃]
    exact LayerCall.rows_half hgenHalf (hblock.gen_input ▸ hgen₂) hgenOut
  rw [hblock.merge_input]
  exact ⟨hsum₃, hgen₃⟩

theorem Blocks.failures (hcalls : Blocks calls)
    (h : Run (ShapeStep config dims batch) x calls x') : x'.failures = x.failures := by
  induction hcalls generalizing x with
  | nil =>
    cases h
    rfl
  | plain hc _ ih =>
    obtain _ | ⟨⟨rest, left, rfl⟩, h⟩ := h
    rw [ih h, LayerCall.failures_of_ne fun hkind => hc (.inr (.inl hkind))]
  | attention hblock _ ih =>
    obtain _ | ⟨h₁, _ | ⟨h₂, _ | ⟨h₃, _ | ⟨h₄, h⟩⟩⟩⟩ := h
    rw [ih h, hblock.failures (.cons h₁ (.cons h₂ (.cons h₃ (.single h₄))))]

/-- No assertion fails, wherever the run stands. -/
theorem Blocks.failures_at {done : List LayerCall} (hcalls : Blocks calls)
    (hdone : done <+: calls) (h : Run (ShapeStep config dims batch) x done x') :
    x'.failures = x.failures := by
  have hgrow : ∀ {y y' : DeviceShapes} {l : List LayerCall},
      Run (ShapeStep config dims batch) y l y' → y.failures <+: y'.failures := by
    intro y y' l hrun
    apply hrun.invariant (I := fun z => y.failures <+: z.failures) _ List.prefix_rfl
    rintro z c - hz ⟨rest, left, rfl⟩
    exact hz.trans LayerCall.failures_grow
  obtain ⟨ahead, rfl⟩ := hdone
  have htotal : ∀ y c, ∃ y', ShapeStep config dims batch y c y' :=
    fun y c => ⟨_, fun _ => [], fun _ => [], rfl⟩
  obtain ⟨x'', hrest⟩ := Run.exists_of_total htotal x' ahead
  have hall := hcalls.failures (h.append hrest)
  have hbefore := hgrow h
  have hafter := hgrow hrest
  rw [hall] at hafter
  exact hafter.eq_of_length_le hbefore.length_le

/-- The input of an attention module is a tensor of `AttentionSplit`. -/
def LayerCall.TakesHalf (c : LayerCall) : Prop := ∀ half ∈ c.kind.half, c.attnInput.name = half

theorem LayerCall.Wired.takesHalf {absorbed : Prop} {c : LayerCall} {children : Forest LayerCall}
    (h : c.Wired absorbed children) : c.TakesHalf := by
  intro half hhalf
  have houtput : c.kind.execOutput = some "attn_output" := by
    generalize c.kind = kind at hhalf
    cases kind
    case selfAttentionSum | selfAttentionGen | multiLatentAttentionSum | multiLatentAttentionGen
      | absorbMLASum | absorbMLAGen => rfl
    all_goals cases hhalf
  obtain ⟨-, -, t, hinput, hname⟩ := h.2 _ houtput
  unfold LayerCall.attnInput
  rw [hinput]
  exact hname half hhalf

theorem rows_kept_of_run {t : TensorName}
    (hname : t.name = "output_tensor" ∨ t.name = "Hidden vector")
    (hwired : ∀ c ∈ calls, c.TakesHalf) (h : Run (ShapeStep config dims batch) x calls x')
    (ht : x.rows t = some batch.getProcessToken) : x'.rows t = some batch.getProcessToken := by
  induction h with
  | nil => exact ht
  | cons hstep _ ih =>
    obtain ⟨hc, hwired⟩ := List.forall_mem_cons.mp hwired
    obtain ⟨rest, left, rfl⟩ := hstep
    exact ih hwired (LayerCall.rows_kept hname hc ht)

/-- The outputs with all rows, of what has been executed. -/
theorem rows_of_run (hwired : ∀ c ∈ calls, c.TakesHalf)
    (h : Run (ShapeStep config dims batch) x calls x') :
    ∀ c ∈ calls, ∀ name, c.kind.fullOutput = some name →
      x'.rows (c.tensor name) = some batch.getProcessToken := by
  induction h with
  | nil => exact fun c hc => absurd hc List.not_mem_nil
  | cons hstep hrest ih =>
    obtain ⟨-, hwired⟩ := List.forall_mem_cons.mp hwired
    refine List.forall_mem_cons.mpr ⟨fun name hname => ?_, ih hwired⟩
    obtain ⟨rest, left, rfl⟩ := hstep
    exact rows_kept_of_run (LayerKind.fullOutput_name hname) hwired hrest (LayerCall.rows_full hname)

end Steps

/-! ### Runs of the cluster -/

namespace LlmCluster
variable {N : ℕ} {σ : Type} (b : LlmCluster N σ) (input : TensorName)

/-- The calls that `d` has executed, at the position `p` of its graph. -/
def executedCalls (d : Fin N) (p : ℕ) : List LayerCall :=
  (((b.layerCalls input d).events.take p).filterMap Event.pushed).filter
    fun c => decide c.Executes

variable {b input} {C : CallGraphs N TensorName σ}

theorem Builds.layerCalls_eq (hbuild : b.Builds input C) (d : Fin N) : ∃ f,
    b.layerCalls input d = (LLM.callForward ⟨b.config, b.moe, d.val⟩ f input).calls := by
  obtain ⟨F, hF, -⟩ := hbuild.calls d
  unfold layerCalls
  rw [hF]
  exact LLM.build_calls hF

theorem Builds.blocks (hbuild : b.Builds input C) (d : Fin N) :
    Blocks ((b.layerCalls input d).toList.filter fun c => decide c.Executes) := by
  obtain ⟨f, hcalls⟩ := hbuild.layerCalls_eq d
  rw [hcalls]
  obtain ⟨hroots, hhoused⟩ := housed_llm ⟨b.config, b.moe, d.val⟩ f input
  exact blocks_of_housed hroots hhoused

/-- The embedding comes first. -/
theorem Builds.embedding_first (hbuild : b.Builds input C) (d : Fin N) : ∃ embedding rest,
    (b.layerCalls input d).toList.filter (fun c => decide c.Executes) = embedding :: rest ∧
      embedding.kind = .embedding ∧ embedding.path = ["Embedding_layer", "LLM"] := by
  obtain ⟨f, hcalls⟩ := hbuild.layerCalls_eq d
  rw [hcalls]
  exact ⟨_, _, rfl, rfl, rfl⟩

theorem executedCalls_initial (d : Fin N) (p : ℕ) : b.executedCalls input d p
    <+: (b.layerCalls input d).toList.filter fun c => decide c.Executes := by
  rw [← Forest.pushed_events]
  have htake := List.take_prefix p (b.layerCalls input d).events
  exact (htake.filterMap _).filter _

/-- The modules of a graph that are executed are those of the calls. -/
theorem Builds.executed_take (hbuild : b.Builds input C) (d : Fin N) (p : ℕ) :
    executed ((C.toGraphs.graph d).take p) = (b.executedCalls input d p).map fun c =>
      (c.toCall b.units (b.costs d) N).module := by
  have hall : ∀ events : List (Event LayerCall),
      executed ((events.map (Event.map (LayerCall.toCall b.units (b.costs d) N))).map Call.node)
        = ((events.filterMap Event.pushed).filter fun c => decide c.Executes).map fun c =>
          (c.toCall b.units (b.costs d) N).module := by
    intro events
    induction events with
    | nil => rfl
    | cons e events ih =>
      rw [List.map_cons, List.map_cons, ← List.singleton_append, executed_append, ih]
      cases e with
      | pop c =>
        rw [executed_of_not fun m hm => Option.some_ne_none m hm.1.symm]
        rfl
      | push c =>
        by_cases hc : c.Executes
        · rw [executed_of_executes ⟨rfl, decide_eq_true hc⟩,
            List.filterMap_cons_some (Event.pushed_push c),
            List.filter_cons_of_pos (by simpa using hc)]
          rfl
        · rw [executed_of_not, List.filterMap_cons_some (Event.pushed_push c),
            List.filter_cons_of_neg (by simpa using hc)]
          · rfl
          · rintro m ⟨hm, hexecution⟩
            obtain rfl := Option.some.inj hm
            exact hc (of_decide_eq_true hexecution)
  unfold CallGraphs.toGraphs executedCalls
  dsimp only
  rw [hbuild.calls_eq, Forest.events_map, ← List.map_take, ← List.map_take]
  exact hall _

end LlmCluster

namespace ShapeState
variable {N : ℕ}

/-- What only the forward functions of the device write, and what none does. -/
def part (d : Fin N) (x : ShapeState N) : List Sequence × DeviceShapes :=
  ((x.sequencesMetadata d).sequence, x.device d)

end ShapeState

namespace LlmCluster
variable {N : ℕ} {b : LlmCluster N (ShapeState N)} {p : ShapeModel N} {input : TensorName}
  {C : CallGraphs N TensorName (ShapeState N)} {d : Fin N}

theorem Builds.private_part (hbuild : (b.withShapes p).Builds input C) :
    C.toGraphs.Private d (ShapeState.part d) := by
  intro e hed n hn m hm x w
  obtain ⟨event, hevent, rfl⟩ := List.mem_map.mp hn
  cases event with
  | pop c => exact absurd hm.1.symm (Option.some_ne_none m)
  | push c =>
    obtain ⟨c', rfl⟩ := hbuild.of_mem (Forest.mem_of_push_mem hevent)
    obtain rfl := Option.some.inj hm.1
    exact Prod.ext rfl (Function.update_of_ne hed.symm _ _)

/-- The shapes of a device come from its own calls, one after the other. -/
theorem Builds.shapes_run (hbuild : (b.withShapes p).Builds input C)
    {s t : ClusterState N TensorName (ShapeState N)}
    (h : C.toGraphs.Followed d (ShapeState.part d) (ShapeState.part d s.shared) t) :
    Run (ShapeStep b.config p.dims (s.shared.sequencesMetadata d)) (s.shared.device d)
      (b.executedCalls input d (t.device d).current) (t.shared.device d) := by
  unfold Graphs.Followed at h
  rw [hbuild.executed_take] at h
  refine (Run.image (f := Prod.snd)
    (I := fun y => y.1 = (s.shared.sequencesMetadata d).sequence) ?_ h rfl).2
  rintro y c y' hy ⟨x, w, rfl, rfl⟩
  refine ⟨hy, p.rest d c x, p.left d c x, ?_⟩
  rw [← LayerCall.forwardShapes_congr hy]
  exact (Function.update_self d _ x.device).symm

end LlmCluster

/-- The sequences of a batch in its two stages, and their tokens. -/
structure BatchedSequence.Splits (batch : BatchedSequence) : Prop where
  disjoint : batch.getSum.Disjoint batch.getGen
  sum_order : batch.getSum.Sublist batch.sequence
  gen_order : batch.getGen.Sublist batch.sequence
  once : (batch.getSum ++ batch.getGen).Perm batch.sequence
  tokens : batch.getSumProcessToken + batch.getGenProcessToken = batch.getProcessToken

theorem BatchedSequence.splits (batch : BatchedSequence) : batch.Splits where
  disjoint := by
    intro t hsum hgen
    have hin := (List.mem_filter.mp hsum).2
    have hout := (List.mem_filter.mp hgen).2
    simp [hin] at hout
  sum_order := List.filter_sublist
  gen_order := List.filter_sublist
  once := List.filter_append_perm _ _
  tokens := (Scheduler.getProcessToken_eq batch).symm

namespace LlmCluster
variable {N : ℕ}

/-- Every batch is split into its two stages; and wherever a run of an LLM stands, no assertion of
`AttentionMerge` has failed, and the outputs that it has set have the rows of the embedding. -/
theorem attention_merge_rows (b : LlmCluster N (ShapeState N)) (p : ShapeModel N)
    {input : TensorName} {C : CallGraphs N TensorName (ShapeState N)}
    (hbuild : (b.withShapes p).Builds input C) {s s₀ t : ClusterState N TensorName (ShapeState N)}
    (hrestart : C.toGraphs.restartModuleGraph s = .ok s₀) {order : List (Fin N)}
    (hrun : Run (fun x d y => C.toGraphs.run d x = .ok y) s₀ order t) :
    (∀ batch : BatchedSequence, batch.Splits) ∧ ∀ d,
      (t.shared.device d).failures = (s.shared.device d).failures ∧
      ∀ merge ∈ b.executedCalls input d (t.device d).current, merge.kind = .attentionMerge →
        (t.shared.device d).rows (merge.tensor "output_tensor")
            = (t.shared.device d).rows ⟨["Embedding_layer", "LLM"], "Hidden vector"⟩ ∧
          (t.shared.device d).rows ⟨["Embedding_layer", "LLM"], "Hidden vector"⟩
            = some (s.shared.sequencesMetadata d).getProcessToken := by
  refine ⟨BatchedSequence.splits, fun d => ?_⟩
  obtain ⟨hgraph, hstart⟩ : C.toGraphs.InGraph s₀ ∧
      C.toGraphs.Followed d (ShapeState.part d) (ShapeState.part d s.shared) s₀ :=
    Graphs.followed_restart hrestart
  have hshapes := hbuild.shapes_run (hstart.runs hbuild.private_part hgraph hrun).2
  have hinitial : (b.withShapes p).executedCalls input d (t.device d).current <+: _ :=
    executedCalls_initial d _
  refine ⟨(hbuild.blocks d).failures_at hinitial hshapes, fun merge hmerge hkind => ?_⟩
  have hwired : ∀ c ∈ b.executedCalls input d (t.device d).current, c.TakesHalf := by
    intro c hc
    obtain ⟨children, hc⟩ := (hbuild.wired d).forall_mem c
      (List.mem_of_mem_filter (hinitial.subset hc))
    exact hc.takesHalf
  have hrows := rows_of_run hwired hshapes
  obtain ⟨embedding, rest, hall, hfirst, hpath⟩ := hbuild.embedding_first d
  have hembedding : (t.shared.device d).rows ⟨["Embedding_layer", "LLM"], "Hidden vector"⟩
      = some (s.shared.sequencesMetadata d).getProcessToken := by
    rw [hall] at hinitial
    have hne := List.ne_nil_of_mem hmerge
    have hhead : (b.executedCalls input d (t.device d).current).head hne = embedding :=
      List.IsPrefix.head hinitial hne
    have hin : embedding ∈ b.executedCalls input d (t.device d).current :=
      hhead ▸ List.head_mem hne
    have hname : embedding.tensor "Hidden vector"
        = ⟨["Embedding_layer", "LLM"], "Hidden vector"⟩ := by
      unfold LayerCall.tensor
      rw [hpath]
    rw [← hname]
    exact hrows embedding hin "Hidden vector" (by rw [hfirst]; rfl)
  rw [hembedding]
  exact ⟨hrows merge hmerge "output_tensor" (by rw [hkind]; rfl), rfl⟩

/-- A sequence of three tokens in prefill and one that generates. -/
def mixedBatch : BatchedSequence where
  numExpert := 0
  topK := 0
  localNumTokenInExpert := []
  numTokenInExpert := []
  sequence := [{ Sequence.start 0 0 3 1 with numProcessToken := 3 },
    { Sequence.start 1 1 2 4 with currentLen := 2, numProcessToken := 1 }]

/-- One device, in which executors leave other shapes in their scratch operands. -/
def mixedShapes : ShapeModel 1 where
  dims :=
    { hiddenDim := 4, nVocab := 8, headDim := 4, numKvHeads := 1, kvLoraRank := 0
      compressedKv := false }
  rest _ _ _ _ := [1, 1]
  left _ _ _ _ := [7, 7]
  counts _ _ x := x.sequencesMetadata

def mixedDecoder : LlmCluster 1 (ShapeState 1) where
  config := denseConfig
  moe := { numNode := 1, numDevice := 1, neTpDg := 1, eTpDg := 1, numRoutedExpert := 0 }
  units := {}
  costs _ :=
    { executePType := fun _ _ _ _ => {}
      totalTime := fun _ _ => 0
      getIdxHigh := fun _ _ => []
      performWithOptimal := fun _ _ => true
      update := fun _ => id }
  dramPowers _ _ := {}

def mixedRun : Except String (ClusterState 1 TensorName (ShapeState 1)) := do
  let C := ((mixedDecoder.withShapes mixedShapes).callGraphs ⟨[], "input"⟩).toGraphs
  let s ← C.restartModuleGraph
    { device := (Graphs.newCluster 1 TensorName).device
      shared := ⟨fun _ => mixedBatch, fun _ => { shape := fun _ => [1, 1] }⟩ }
  C.runNode (List.finRange 1) s

theorem attention_merge_rows_mixed : ∃ t, mixedRun = .ok t ∧ (t.shared.device 0).failures = [] ∧
    ∃ merge ∈ mixedDecoder.executedCalls ⟨[], "input"⟩ 0 (t.device 0).current,
      merge.kind = .attentionMerge ∧
        (t.shared.device 0).rows (merge.tensor "output_tensor") = some 4 := by
  have hany : mixedRun.toOption.any (fun t : ClusterState 1 TensorName (ShapeState 1) =>
      decide (∃ merge ∈ mixedDecoder.executedCalls ⟨[], "input"⟩ 0 (t.device 0).current,
        merge.kind = .attentionMerge)) = true := by
    decide +kernel
  obtain ⟨t, hrun, ht⟩ := exists_ok_of_any hany
  obtain ⟨merge, hmerge, hkind⟩ := of_decide_eq_true ht
  obtain ⟨s₀, h₀, h⟩ := bind_eq_ok hrun
  have hbuild : (mixedDecoder.withShapes mixedShapes).Builds ⟨[], "input"⟩
      ((mixedDecoder.withShapes mixedShapes).callGraphs ⟨[], "input"⟩) :=
    builds_callGraphs fun _ => ⟨_, rfl⟩
  obtain ⟨hfailures, hrows⟩ :=
    (attention_merge_rows mixedDecoder mixedShapes hbuild h₀ (.of_foldlM h)).2 0
  obtain ⟨hsame, htokens⟩ := hrows merge hmerge hkind
  exact ⟨t, hrun, hfailures, merge, hmerge, hkind, hsame.trans htokens⟩

end LlmCluster
end LlmSystem
