import LlmSystem.Module.Charges
import LlmSystem.Module.LlmCalls

/-!
What the forward functions of the modules do to their device. The times that they charge depend
on shapes of tensors and on the batches, which are part of the shared state here; `Costs` stands
for the functions that read and write these.
-/
namespace LlmSystem

open Nesting

/-- The fields of `SystemConfig` that decide where tensors are processed. -/
structure UnitConfig where
  processorType : List ProcessorType := []
  parallelExecution : Bool := false
  heteroSubbatch : Bool := false
  highProcessorType : ProcessorType := .gpu
  lowProcessorType : ProcessorType := .logic
  useLowUnitMoeOnly : Bool := false
  communicationHiding : Bool := false
  deriving DecidableEq, Repr

/-- What a forward function computes from the shapes and the batches. -/
structure Costs (σ : Type) where
  /-- `executePType`, before it sets the processor. -/
  executePType : LayerType → LayerCall → σ → ProcessorType → ExecStatus
  /-- The time that a communication, residual, layer norm or rotary embedding adds. -/
  totalTime : LayerCall → σ → ℚ
  /-- `getIdxHigh`. -/
  getIdxHigh : LayerCall → σ → List ℕ
  performWithOptimal : TensorName → σ → Bool
  /-- The shapes, flags and counts that it sets. -/
  update : LayerCall → σ → σ

namespace Executor

/-- One round of the loop of `execution`. -/
def consider (executePType : ProcessorType → ExecStatus) (best : ExecStatus × ℚ)
    (type : ProcessorType) : ExecStatus × ℚ :=
  let status := { executePType type with processorType := type }
  if best.2 = 0 ∨ status.totalDuration < best.2 then (status, status.totalDuration) else best

/-- `Executor::execution`. -/
def execution (executePType : ProcessorType → ExecStatus) (types : List ProcessorType) :
    ExecStatus := (types.foldl (consider executePType) ({}, 0)).1

theorem execution_nonneg {executePType : ProcessorType → ExecStatus}
    (h : ∀ type, 0 ≤ (executePType type).totalDuration) (types : List ProcessorType) :
    0 ≤ (execution executePType types).totalDuration := by
  unfold execution
  have hinit : 0 ≤ (({}, 0) : ExecStatus × ℚ).1.totalDuration := le_refl 0
  generalize (({}, 0) : ExecStatus × ℚ) = best at hinit ⊢
  induction types generalizing best with
  | nil => exact hinit
  | cons type types ih =>
    apply ih
    unfold consider
    dsimp only
    split_ifs
    · exact h type
    · exact hinit

end Executor

namespace Placement

def high : Placement := { parallelExecution := true, performAtHigh := true }

def low : Placement := { parallelExecution := true, performAtHigh := false }

/-- The two tensors of `AttentionSplit` are each on their own side. -/
def Fits (p : Placement) (t : TensorName) : Prop :=
  (t.name = "sum_tensor" → p.performAtHigh = true) ∧
    (t.name = "gen_tensor" → p.performAtHigh = false)

theorem fits_of_ne {p : Placement} {path : List String} {name : String} (hsum : name ≠ "sum_tensor")
    (hgen : name ≠ "gen_tensor") : p.Fits ⟨path, name⟩ :=
  ⟨fun h => absurd h hsum, fun h => absurd h hgen⟩

end Placement

namespace UnitConfig

/-- The side of a tensor that is processed on one side only. -/
def side (u : UnitConfig) (p : Placement) : ProcessorType :=
  if p.performAtHigh then u.highProcessorType else u.lowProcessorType

/-- Some forward functions put tensors on one side, of which others follow from these. -/
def Divides (u : UnitConfig) : Prop :=
  u.heteroSubbatch = true ∨ u.parallelExecution = true ∨ u.useLowUnitMoeOnly = true ∨
    u.processorType.length ≠ 1

end UnitConfig

namespace LayerCall

variable {σ : Type} (u : UnitConfig) (k : Costs σ)

/-- The placement of the input, or of the first one. -/
def placement (c : LayerCall) (w : Work TensorName) : Placement :=
  match c.input.tensors with
  | [] => {}
  | t :: _ => w.placement t

def execute (layer : LayerType) (c : LayerCall) (x : σ) (types : List ProcessorType) :
    WorkStep TensorName := .execute (Executor.execution (k.executePType layer c x) types)

/-- `Linear`, `BatchedLinear` and `Activation`: a tensor stays on its side, and so does the output.
Only `BatchedLinear` does not look at `hetero_subbatch`. -/
def routed (layer : LayerType) (output : TensorName) (hetero : Bool) (c : LayerCall) (x : σ)
    (w : Work TensorName) : List (WorkStep TensorName) :=
  let p := c.placement w
  if p.parallelExecution then
    [.place output p, c.execute k layer x [u.side p]]
  else if hetero then [c.execute k layer x [u.highProcessorType]]
  else if u.processorType.length ≠ 1 ∧
      c.input.tensors.head?.any (k.performWithOptimal · x) = false then
    [c.execute k layer x [u.highProcessorType]]
  else [c.execute k layer x u.processorType]

/-- The attention modules: an input on one side goes to `type`, with the output at `q`. Those of the
latent attention use the high units also for an input on both, where there are several types. -/
def attention (layer : LayerType) (type : ProcessorType) (q : Placement) (latent : Bool)
    (c : LayerCall) (x : σ) (w : Work TensorName) : List (WorkStep TensorName) :=
  let output := c.tensor "attn_output"
  if (c.placement w).parallelExecution then
    [.place output q, c.execute k layer x [type]]
  else if latent ∧ u.processorType.length ≠ 1 then
    [.place output .high, c.execute k layer x [u.highProcessorType]]
  else [c.execute k layer x u.processorType]

/-- `Route::forward` places each of its outputs. -/
def route (expertOffset numRoutedExpert : ℕ) (c : LayerCall) (x : σ) :
    List (WorkStep TensorName) :=
  (List.range numRoutedExpert).flatMap fun expert =>
    let output := c.tensor ("expert_input_" ++ toString expert)
    if u.heteroSubbatch then [.place output .low]
    else if u.parallelExecution then
      if (k.getIdxHigh c x).any (fun i => decide (i + expertOffset = expert)) then
        [.place output .high]
      else [.place output .low]
    else if u.useLowUnitMoeOnly then [.place output .low]
    else []

/-- What the forward function does to its device, in this order. -/
def steps (c : LayerCall) (x : σ) (w : Work TensorName) : List (WorkStep TensorName) :=
  match c.kind with
  | .linear => c.routed u k .linear (c.tensor "Y") u.heteroSubbatch x w
  | .activation => c.routed u k .activation (c.tensor "ActOut") u.heteroSubbatch x w
  | .batchedLinear true => c.routed u k .linear (c.tensor "plain_linear_output") false x w
  | .batchedLinear false => c.routed u k .batchedLinear (c.tensor "output") false x w
  | .selfAttentionSum => c.attention u k .attentionSum u.highProcessorType .high false x w
  | .selfAttentionGen => c.attention u k .attentionGen u.lowProcessorType .low false x w
  | .multiLatentAttentionSum => c.attention u k .mlaSum u.highProcessorType .high true x w
  | .multiLatentAttentionGen => c.attention u k .mlaGen u.lowProcessorType .low true x w
  | .absorbMLASum => c.attention u k .absorbedMlaSum u.highProcessorType .high true x w
  | .absorbMLAGen => c.attention u k .absorbedMlaGen u.highProcessorType .high true x w
  | .attentionSplit =>
    .align :: if u.parallelExecution then
        [.place (c.tensor "sum_tensor") .high, .place (c.tensor "gen_tensor") .low]
      else []
  | .attentionMerge | .syncSet => [.align]
  | .layerNorm | .residual => [.elapse (k.totalTime c x) (c.placement w) false]
  | .rope | .batchedRope | .allReduce | .moeScatter | .moeGather =>
    [.elapse (k.totalTime c x) (c.placement w) u.communicationHiding]
  | .route expertOffset numRoutedExpert => c.route u k expertOffset numRoutedExpert x
  | .container | .embedding | .lmHead | .compressedKVRestore | .gateUpdate | .sync => []

/-- The names that the forward function passes to `get_activation`. -/
def activations (c : LayerCall) : List TensorName :=
  match c.kind with
  | .container | .sync => []
  | .embedding | .lmHead => [c.tensor "Hidden vector"]
  | .layerNorm => [c.tensor "layer_norm_output"]
  | .residual => [c.tensor "residual_out"]
  | .rope | .batchedRope => [c.tensor "sin_cos", c.tensor "rope_out"]
  | .allReduce => [c.tensor "allreduce_output"]
  | .linear => [c.tensor "Y"]
  | .batchedLinear true => [c.tensor "plain_linear_input", c.tensor "plain_linear_output"]
  | .batchedLinear false =>
    [c.tensor "batched_linear_input", c.tensor "batched_linear_output", c.tensor "output"]
  | .activation => [c.tensor "ActOut", c.tensor "GateOut"]
  | .compressedKVRestore => [c.tensor "concated_latent_kv", c.tensor "concated_k_rope"]
  | .attentionSplit => [c.tensor "sum_tensor", c.tensor "gen_tensor"]
  | .attentionMerge => [c.tensor "output_tensor"]
  | .selfAttentionSum | .selfAttentionGen | .multiLatentAttentionSum | .multiLatentAttentionGen
  | .absorbMLASum | .absorbMLAGen => [c.tensor "attn_output"]
  | .syncSet => [c.tensor "sync"]
  | .gateUpdate => [c.tensor "gate_update_output"]
  | .moeScatter => [c.tensor "moe_scatter_output"]
  | .moeGather => [c.tensor "moe_gather_output"]
  | .route _ numRoutedExpert =>
    (List.range numRoutedExpert).map fun expert => c.tensor ("expert_input_" ++ toString expert)

def isSync (c : LayerCall) : Bool :=
  match c.kind with
  | .allReduce | .moeScatter | .sync => true
  | _ => false

/-- The call as its graph has it; the ranks of `deviceList` are consecutive. Tensors without a
reader of `ready`, such as weights, are left out. -/
def toCall (N : ℕ) (c : LayerCall) : Call N TensorName σ where
  name := c.name
  module :=
    { graphExecution := decide (c.kind ≠ .container)
      sync := c.isSync
      deviceList := (List.finRange N).filter fun e => decide (e.val ∈ c.deviceList)
      tensorList := c.activations
      activations := c.activations
      activations_mem := fun _ h => h
      forward := fun x w => (k.update c x, (c.steps u k x w).foldl (fun w a => a.apply w) w) }
  input := c.input
  output := c.output

/-! ### What they do in general -/

variable {u k} {P : WorkStep TensorName → Prop} {c : LayerCall} {x : σ} {w : Work TensorName}

theorem toCall_acts (N : ℕ) (h : ∀ x w, ∀ a ∈ c.steps u k x w, P a) :
    (c.toCall u k N).module.Acts P := fun x w => ⟨c.steps u k x w, h x w, rfl⟩

theorem forall_routed {layer : LayerType} {output : TensorName} {hetero : Bool}
    (hexecute : ∀ layer types, P (c.execute k layer x types))
    (hplace : (c.placement w).parallelExecution = true → P (.place output (c.placement w))) :
    ∀ a ∈ c.routed u k layer output hetero x w, P a := by
  unfold routed
  dsimp only
  split_ifs with hside
  · simpa using ⟨hplace hside, hexecute layer _⟩
  all_goals simpa using hexecute layer _

theorem forall_attention {layer : LayerType} {type : ProcessorType} {q : Placement} {latent : Bool}
    (hexecute : ∀ layer types, P (c.execute k layer x types))
    (hplace : (c.placement w).parallelExecution = true → P (.place (c.tensor "attn_output") q))
    (hhigh : u.processorType.length ≠ 1 → P (.place (c.tensor "attn_output") .high)) :
    ∀ a ∈ c.attention u k layer type q latent x w, P a := by
  unfold attention
  dsimp only
  split_ifs with hside hlatent
  · simpa using ⟨hplace hside, hexecute layer _⟩
  · simpa using ⟨hhigh hlatent.2, hexecute layer _⟩
  · simpa using hexecute layer _

theorem forall_route {expertOffset numRoutedExpert : ℕ}
    (hplace : ∀ t p, Placement.Fits p t → u.Divides → P (.place t p)) :
    ∀ a ∈ c.route u k expertOffset numRoutedExpert x, P a := by
  intro a ha
  unfold route at ha
  obtain ⟨expert, -, ha⟩ := List.mem_flatMap.mp ha
  dsimp only at ha
  have hinput :
      ∀ name ∈ ["sum_tensor", "gen_tensor"], "expert_input_" ++ toString expert ≠ name := by
    intro name hname heq
    have hhead : name.toList.head? = some 'e' := by
      rw [← heq, String.toList_append]
      rfl
    have hother : ∀ name ∈ ["sum_tensor", "gen_tensor"], name.toList.head? ≠ some 'e' := by decide
    exact hother name hname hhead
  have hplace : ∀ p, u.Divides →
      P (.place (c.tensor ("expert_input_" ++ toString expert)) p) := fun p =>
    hplace _ p (Placement.fits_of_ne (hinput _ (by decide)) (hinput _ (by decide)))
  split_ifs at ha with hhetero hparallel hin hlow
  · exact List.mem_singleton.mp ha ▸ hplace _ (.inl hhetero)
  · exact List.mem_singleton.mp ha ▸ hplace _ (.inr (.inl hparallel))
  · exact List.mem_singleton.mp ha ▸ hplace _ (.inr (.inl hparallel))
  · exact List.mem_singleton.mp ha ▸ hplace _ (.inr (.inr (.inl hlow)))
  · cases ha

/-- All that a forward function can do. -/
theorem forall_steps (hexecute : ∀ layer types, P (c.execute k layer x types))
    (helapse : ∀ p hidden, P (.elapse (k.totalTime c x) p hidden)) (halign : P .align)
    (hplace : ∀ t p, Placement.Fits p t →
      (c.placement w).parallelExecution = true ∨ u.Divides → P (.place t p)) :
    ∀ a ∈ c.steps u k x w, P a := by
  have hrouted : ∀ {layer name hetero}, name ≠ "sum_tensor" → name ≠ "gen_tensor" →
      ∀ a ∈ c.routed u k layer (c.tensor name) hetero x w, P a := fun hsum hgen =>
    forall_routed hexecute fun hside => hplace _ _ (Placement.fits_of_ne hsum hgen) (.inl hside)
  have hfits : ∀ p, Placement.Fits p (c.tensor "attn_output") := fun p =>
    Placement.fits_of_ne (by decide) (by decide)
  have hattention : ∀ {layer type q latent}, ∀ a ∈ c.attention u k layer type q latent x w, P a :=
    forall_attention hexecute (fun hside => hplace _ _ (hfits _) (.inl hside))
      fun htypes => hplace _ _ (hfits _) (.inr (.inr (.inr (.inr htypes))))
  unfold steps
  cases c.kind with
  | batchedLinear usePlainLinear =>
    cases usePlainLinear
    · exact hrouted (by decide) (by decide)
    · exact hrouted (by decide) (by decide)
  | linear | activation => exact hrouted (by decide) (by decide)
  | selfAttentionSum | selfAttentionGen | multiLatentAttentionSum | multiLatentAttentionGen
  | absorbMLASum | absorbMLAGen => exact hattention
  | route expertOffset numRoutedExpert =>
    exact forall_route fun t p hp hu => hplace t p hp (.inr hu)
  | attentionSplit =>
    split_ifs with hparallel
    · have hsum : Placement.Fits .high (c.tensor "sum_tensor") :=
        ⟨fun _ => rfl, fun h => absurd h (by decide : "sum_tensor" ≠ "gen_tensor")⟩
      have hgen : Placement.Fits .low (c.tensor "gen_tensor") :=
        ⟨fun h => absurd h (by decide : "gen_tensor" ≠ "sum_tensor"), fun _ => rfl⟩
      simpa using ⟨halign, hplace _ _ hsum (.inr (.inr (.inl hparallel))),
        hplace _ _ hgen (.inr (.inr (.inl hparallel)))⟩
    · simpa using halign
  | attentionMerge | syncSet => simpa using halign
  | layerNorm | residual | rope | batchedRope | allReduce | moeScatter | moeGather =>
    simpa using helapse _ _
  | container | embedding | lmHead | compressedKVRestore | gateUpdate | sync => simp

end LayerCall

/-- Executions and communication take no negative time. -/
structure Costs.Nonneg {σ : Type} (k : Costs σ) : Prop where
  execute : ∀ layer c x type, 0 ≤ (k.executePType layer c x type).totalDuration
  elapse : ∀ c x, 0 ≤ k.totalTime c x

theorem LayerCall.steps_nonneg {σ : Type} {u : UnitConfig} {k : Costs σ} (hk : k.Nonneg)
    (c : LayerCall) (x : σ) (w : Work TensorName) : ∀ a ∈ c.steps u k x w, a.Nonneg :=
  forall_steps (fun layer types => Executor.execution_nonneg (hk.execute layer c x) types)
    (fun _ _ => hk.elapse c x) trivial fun _ _ _ _ => trivial

theorem WorkStep.foldl_placement {τ : Type} [DecidableEq τ] {steps : List (WorkStep τ)}
    (h : ∀ a ∈ steps, ∀ t p, a ≠ .place t p) (w : Work τ) :
    (steps.foldl (fun w a => a.apply w) w).placement = w.placement := by
  induction steps generalizing w with
  | nil => rfl
  | cons a steps ih =>
    obtain ⟨ha, hsteps⟩ := List.forall_mem_cons.mp h
    have happly : (a.apply w).placement = w.placement := by
      cases a with
      | place t p => exact absurd rfl (ha t p)
      | elapse | align | execute => rfl
    exact (ih hsteps _).trans happly

/-- Without any of the options, what is processed on both sides stays there. -/
theorem LayerCall.steps_plain {σ : Type} {u : UnitConfig} (hu : ¬u.Divides) (k : Costs σ)
    (c : LayerCall) (x : σ) {w : Work TensorName} (hw : w.Plain) :
    ((c.steps u k x w).foldl (fun w a => a.apply w) w).Plain := by
  have hside : (c.placement w).parallelExecution = false := by
    unfold placement
    split
    · rfl
    · exact hw _
  have hsteps : ∀ a ∈ c.steps u k x w, ∀ t p, a ≠ .place t p := by
    apply forall_steps
    · intro layer types t p
      exact nofun
    · intro p hidden t q
      exact nofun
    · intro t p
      exact nofun
    · intro t p _ h
      simp [hside, hu] at h
  intro t
  rw [WorkStep.foldl_placement hsteps]
  exact hw t

/-! ### The graphs of all devices -/

/-- A cluster of `N` devices that all create their modules from the same configurations. -/
structure LlmCluster (N : ℕ) (σ : Type) where
  config : LayerConfig
  moe : MoeConfig
  units : UnitConfig
  costs : Fin N → Costs σ
  dramPowers : Fin N → ProcessorType → DramEnergy

namespace LlmCluster
variable {N : ℕ} {σ : Type}

/-- `C` holds the graphs that the devices build for the input. -/
structure Builds (b : LlmCluster N σ) (input : TensorName) (C : CallGraphs N TensorName σ) :
    Prop where
  calls : ∀ d, ∃ F, LLM.build ⟨b.config, b.moe, d.val⟩ input = .ok F ∧
    C.calls d = F.map (LayerCall.toCall b.units (b.costs d) N)
  dramPowers : C.dramPowers = b.dramPowers

/-- The calls of a device that can build its graph. -/
def layerCalls (b : LlmCluster N σ) (input : TensorName) (d : Fin N) : Forest LayerCall :=
  match LLM.build ⟨b.config, b.moe, d.val⟩ input with
  | .ok F => F
  | .error _ => .nil

def callGraphs (b : LlmCluster N σ) (input : TensorName) : CallGraphs N TensorName σ where
  calls d := (b.layerCalls input d).map (LayerCall.toCall b.units (b.costs d) N)
  dramPowers := b.dramPowers

variable {b : LlmCluster N σ} {input : TensorName} {C : CallGraphs N TensorName σ}

theorem builds_callGraphs (h : ∀ d : Fin N, ∃ F, LLM.build ⟨b.config, b.moe, d.val⟩ input = .ok F) :
    b.Builds input (b.callGraphs input) := by
  refine ⟨fun d => ?_, rfl⟩
  obtain ⟨F, hF⟩ := h d
  refine ⟨F, hF, ?_⟩
  unfold callGraphs layerCalls
  dsimp only
  rw [hF]

theorem Builds.calls_eq (h : b.Builds input C) (d : Fin N) :
    C.calls d = (b.layerCalls input d).map (LayerCall.toCall b.units (b.costs d) N) := by
  obtain ⟨F, hF, hcalls⟩ := h.calls d
  unfold layerCalls
  rw [hcalls, hF]

theorem Builds.names (h : b.Builds input C) (d : Fin N) :
    ∃ F, LLM.build ⟨b.config, b.moe, d.val⟩ input = .ok F ∧ C.names d = F.map LayerCall.name := by
  obtain ⟨F, hF, hcalls⟩ := h.calls d
  refine ⟨F, hF, ?_⟩
  unfold CallGraphs.names
  rw [hcalls, Forest.map_map]
  rfl

theorem Builds.of_mem (h : b.Builds input C) {d : Fin N} {c : Call N TensorName σ}
    (hc : c ∈ (C.calls d).toList) : ∃ c', c = LayerCall.toCall b.units (b.costs d) N c' := by
  obtain ⟨F, -, hcalls⟩ := h.calls d
  rw [hcalls, Forest.toList_map] at hc
  obtain ⟨c', -, rfl⟩ := List.mem_map.mp hc
  exact ⟨c', rfl⟩

theorem Builds.acts (h : b.Builds input C) (hcosts : ∀ d, (b.costs d).Nonneg) :
    C.Acts WorkStep.Nonneg := by
  intro d c hc
  obtain ⟨c', rfl⟩ := h.of_mem hc
  exact LayerCall.toCall_acts N fun x w => c'.steps_nonneg (hcosts d) x w

theorem Builds.plain (h : b.Builds input C) (hunits : ¬b.units.Divides) :
    C.Forwards fun w w' => w.Plain → w'.Plain := by
  intro d c hc x w hw
  obtain ⟨c', rfl⟩ := h.of_mem hc
  exact c'.steps_plain hunits (b.costs d) x hw

/-- A single dense decoder, with plain attention. -/
def denseConfig : LayerConfig := { maxSeqLen := 2, inputLen := 1, outputLen := 1, expertFreq := 0 }

/-- One device with one decoder; an execution takes 2, and what takes time without one takes 1. -/
def oneDecoder (config : LayerConfig) (units : UnitConfig) : LlmCluster 1 Unit where
  config := config
  moe := { numNode := 1, numDevice := 1, neTpDg := 1, eTpDg := 1, numRoutedExpert := 0 }
  units := units
  costs _ :=
    { executePType := fun _ _ _ _ => { totalDuration := 2 }
      totalTime := fun _ _ => 1
      getIdxHigh := fun _ _ => []
      performWithOptimal := fun _ _ => true
      update := fun _ => id }
  dramPowers _ _ := {}

def oneDecoderRun (config : LayerConfig) (units : UnitConfig) :
    Except String (TimedState 1 TensorName Unit) := do
  let C := (oneDecoder config units).callGraphs ⟨[], "input"⟩
  let s ← C.restart ⟨Graphs.newCluster 1 TensorName, fun _ => {}⟩
  C.run 0 s

end LlmCluster
end LlmSystem
