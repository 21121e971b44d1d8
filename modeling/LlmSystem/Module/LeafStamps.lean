import LlmSystem.Lib.Pairing
import LlmSystem.Module.Intervals
import LlmSystem.Module.LlmForward

/-!
The stamps of modules that execute on one side only. Such a stamp opens on the clock of the side of
its tensor and closes on the clock of the processor that has been charged; these are the same but
for `AbsorbMLAGen`, which takes a tensor of the low side to the high units.
-/
namespace LlmSystem

open Runs Nesting

/-! ### What the graphs look like at these modules -/

namespace LayerKind

/-- The output of a module that calls `execution` on a single tensor. -/
def execOutput : LayerKind → Option String
  | .linear => some "Y"
  | .activation => some "ActOut"
  | .selfAttentionSum | .selfAttentionGen | .multiLatentAttentionSum | .multiLatentAttentionGen
  | .absorbMLASum | .absorbMLAGen => some "attn_output"
  | _ => none

/-- The tensor of `AttentionSplit` that an attention module takes. -/
def half : LayerKind → Option String
  | .selfAttentionSum | .multiLatentAttentionSum | .absorbMLASum => some "sum_tensor"
  | .selfAttentionGen | .multiLatentAttentionGen | .absorbMLAGen => some "gen_tensor"
  | _ => none

end LayerKind

/-- The module calls no other, and takes and returns these tensors. -/
def LayerCall.Wired (absorbed : Prop) (c : LayerCall) (children : Forest LayerCall) : Prop :=
  (c.kind = .absorbMLAGen → absorbed) ∧ ∀ output ∈ c.kind.execOutput,
    children = .nil ∧ c.output = .tensor (c.tensor output) ∧
      ∃ t, c.input = .tensor t ∧ ∀ half ∈ c.kind.half, t.name = half

namespace Calls

def Wired (absorbed : Prop) {α : Type} (x : Calls α) : Prop :=
  x.calls.Licensed (LayerCall.Wired absorbed)

variable {absorbed : Prop} {α β : Type}

@[simp] theorem wired_pure (a : α) : (pure a : Calls α).Wired absorbed := trivial

@[simp] theorem wired_bind (x : Calls α) (f : α → Calls β) :
    (x >>= f).Wired absorbed ↔ x.Wired absorbed ∧ (f x.result).Wired absorbed :=
  Forest.licensed_append

@[simp] theorem wired_onTensor (kind : LayerKind) (path : List String) (devices : List ℕ)
    (input : TensorName) (x : Calls TensorName) :
    (onTensor kind path devices input x).Wired absorbed ↔
      LayerCall.Wired absorbed ⟨kind, path, devices, .tensor input, .tensor x.result⟩ x.calls ∧
        x.Wired absorbed := and_congr_right fun _ => and_iff_left trivial

@[simp] theorem wired_onTensorVec (kind : LayerKind) (path : List String) (devices : List ℕ)
    (input : List TensorName) (x : Calls (List TensorName)) :
    (onTensorVec kind path devices input x).Wired absorbed ↔
      LayerCall.Wired absorbed ⟨kind, path, devices, .tensorVec input, .tensorVec x.result⟩ x.calls ∧
        x.Wired absorbed := and_congr_right fun _ => and_iff_left trivial

theorem wired_each {f : α → Calls β} (h : ∀ a, (f a).Wired absorbed) (l : List α) :
    (each f l).Wired absorbed := by
  induction l with
  | nil => trivial
  | cons a l ih => simp [each, h a, ih]

end Calls

section Wired
variable {absorbed : Prop} (path : List String) (devices : List ℕ) (name : String)

attribute [local simp] LayerCall.Wired LayerKind.execOutput LayerKind.half LayerCall.tensor Calls.leaf

@[simp] theorem wired_linear (input : TensorName) :
    (Linear.forward path devices name input).Wired absorbed := by
  simp [Linear.forward]

@[simp] theorem wired_parallelLinear (input : TensorName) :
    (parallelLinear path devices name input).Wired absorbed := by
  simp [parallelLinear]

@[simp] theorem wired_batchedParallelLinear (usePlainLinear : Bool) (input : List TensorName) :
    (batchedParallelLinear path devices usePlainLinear name input).Wired absorbed := by
  simp [batchedParallelLinear, BatchedLinear.forward]

@[simp] theorem wired_sync (input : TensorName) :
    (Sync.forward path devices name input).Wired absorbed := by
  simp [Sync.forward]

theorem wired_attention (c : LayerConfig) (input : TensorName)
    (habsorbed : c.qkRopeHeadDim ≠ 0 → c.useAbsorb = true → absorbed) :
    (attention path devices c input).Wired absorbed := by
  unfold attention
  split_ifs with hrope
  · simp [Attention.forward, SelfAttentionParallel.forward, attentionParallel,
      ColumnParallelLinear.forward, RowParallelLinear.forward, AllReduce.forward]
  · cases habsorb : c.useAbsorb with
    | false =>
      simp [MultiLatentAttention.forward, MultiLatentAttention.restored, RoPE.forward,
        LayerNorm.forward, CompressedKVRestore.forward, ColumnParallelLinear.forward,
        RowParallelLinear.forward, AllReduce.forward, MultiLatentAttentionParallel.forward,
        attentionParallel]
    | true =>
      simp [MultiLatentAttention.forward, MultiLatentAttention.absorbed, RoPE.forward,
        LayerNorm.forward, BatchedRoPE.forward, BatchedColumnParallelLinear.forward,
        BatchedRowParallelLinear.forward, AllReduce.forward, AbsorbMLAParallel.forward,
        attentionParallel, habsorbed hrope habsorb]

@[simp] theorem wired_feedForward (c : LayerConfig) (useDp : Bool) (input : TensorName) :
    (feedForward path devices c useDp name input).Wired absorbed :=
  feedForward_rule path devices (wired_linear · devices) (by simp [Activation.forward]) (by simp)
    (fun x f hx hf => (Calls.wired_bind x f).mpr ⟨hx, hf⟩) c useDp name input

variable (b : LlmDevice) (f : ExpertFFN)

@[simp] theorem wired_expertFFN (input : TensorName) :
    (ExpertFFN.callForward b f path name input).Wired absorbed := by
  simp [ExpertFFN.callForward, ColumnParallelLinear.forward, AllReduce.forward, Calls.wired_each]

theorem wired_build (input : TensorName)
    (habsorbed : b.config.qkRopeHeadDim ≠ 0 → b.config.useAbsorb = true → absorbed)
    {F : Forest LayerCall} (h : LLM.build b input = .ok F) :
    F.Licensed (LayerCall.Wired absorbed) := by
  have hattention : ∀ path devices input, (attention path devices b.config input).Wired absorbed :=
    fun path devices input => wired_attention path devices b.config input habsorbed
  have hdecoder : ∀ f path input decoder,
      (Decoder.forward b f path input decoder).Wired absorbed := by
    intro f path input decoder
    cases decoder with
    | dense layer =>
      simp [Decoder.forward, Decoder.denseForward, LayerNorm.forward, Residual.forward,
        AllReduce.forward, hattention]
    | moe layer => simp [Decoder.forward, MoEDecoder.forward, LayerNorm.forward, hattention]
  have hall : ∀ f, (LLM.callForward b f input).Wired absorbed := by
    intro f
    simp [LLM.callForward, Calls.wired_each (hdecoder f _ _)]
  obtain ⟨f, rfl⟩ := LLM.build_calls h
  exact hall f

end Wired

/-! ### Both sides of a device -/

namespace StatusBoard

/-- The clock that an execution on this processor advances. -/
def clock (s : StatusBoard) : ProcessorType → ℚ
  | .gpu => s.highTime
  | _ => s.lowTime

/-- The clock of a side. -/
def sideTime (s : StatusBoard) (p : Placement) : ℚ := if p.performAtHigh then s.highTime else s.lowTime

theorem setPushStatus_side {s : StatusBoard} {input : Option Placement}
    (h : (s.setPushStatus input).parallelExecution = true) : ∃ p, input = some p ∧
      p.parallelExecution = true ∧ (s.setPushStatus input).deviceTime = s.sideTime p ∧
      (s.setPushStatus input).highTime = s.highTime ∧
      (s.setPushStatus input).lowTime = s.lowTime := by
  cases input with
  | none => cases h
  | some p =>
    by_cases hp : p.parallelExecution = true
    · refine ⟨p, rfl, hp, ?_⟩
      unfold setPushStatus
      dsimp only
      rw [if_pos hp]
      exact ⟨rfl, rfl, rfl⟩
    · unfold setPushStatus at h
      dsimp only at h
      rw [if_neg hp] at h
      cases h

theorem setPopStatus_side {s : StatusBoard} {p : Placement} {e : ExecStatus}
    (hp : p.parallelExecution = true) (he : e.processorType ≠ .none)
    (dramPowers : ProcessorType → DramEnergy) :
    (s.setPopStatus dramPowers (some p) e).deviceTime
      = s.clock e.processorType + e.totalDuration := by
  unfold setPopStatus
  dsimp only
  rw [(charge_times dramPowers _ e).1]
  unfold chargeDuration clock
  rw [if_pos hp]
  cases htype : e.processorType with
  | none => exact absurd htype he
  | gpu | pim | logic => rfl

end StatusBoard

/-- The processors that the two sides are configured with. -/
structure UnitConfig.TwoSided (u : UnitConfig) : Prop where
  high : u.highProcessorType = .gpu
  low : u.lowProcessorType = .pim ∨ u.lowProcessorType = .logic

theorem UnitConfig.TwoSided.clock_side {u : UnitConfig} (hu : u.TwoSided) (s : StatusBoard)
    (p : Placement) : s.clock (u.side p) = s.sideTime p ∧ u.side p ≠ .none := by
  unfold UnitConfig.side StatusBoard.sideTime
  split_ifs
  · rw [hu.high]
    exact ⟨rfl, nofun⟩
  · rcases hu.low with hlow | hlow
    · rw [hlow]
      exact ⟨rfl, nofun⟩
    · rw [hlow]
      exact ⟨rfl, nofun⟩

/-- The tensors of `AttentionSplit` are on their sides, if at all. -/
def Halved (placement : TensorName → Placement) : Prop :=
  ∀ t, (placement t).parallelExecution = true → (placement t).Fits t

namespace LayerCall
variable {σ : Type} {u : UnitConfig} {k : Costs σ} {c : LayerCall} {x : σ} {w : Work TensorName}

theorem placement_of_input {p : Placement} (h : c.input.placement w = some p) :
    c.placement w = p := by
  unfold placement
  cases hinput : c.input with
  | tensor t =>
    rw [hinput] at h
    exact Option.some.inj h
  | tensorVec ts =>
    rw [hinput] at h
    cases h

theorem steps_halved (u : UnitConfig) (k : Costs σ) (c : LayerCall) (x : σ)
    (hw : Halved w.placement) :
    Halved ((c.steps u k x w).foldl (fun w a => a.apply w) w).placement := by
  have hsteps : ∀ a ∈ c.steps u k x w, ∀ t p, a = .place t p → p.Fits t := by
    apply forall_steps
    · intro layer types t p
      exact nofun
    · intro p hidden t q
      exact nofun
    · intro t p
      exact nofun
    · rintro t p hfits - t' p' heq
      obtain ⟨rfl, rfl⟩ := WorkStep.place.inj heq
      exact hfits
  generalize c.steps u k x w = steps at hsteps
  induction steps generalizing w with
  | nil => exact hw
  | cons a steps ih =>
    obtain ⟨ha, hsteps⟩ := List.forall_mem_cons.mp hsteps
    refine ih ?_ hsteps
    cases a with
    | place t p =>
      intro t' ht'
      change (Function.update w.placement t p t').Fits t'
      by_cases heq : t' = t
      · subst heq
        rw [Function.update_self]
        exact ha t' p rfl
      · change (Function.update w.placement t p t').parallelExecution = true at ht'
        rw [Function.update_of_ne heq] at ht' ⊢
        exact hw t' ht'
    | elapse | align | execute => exact hw

theorem routed_side (hside : (c.placement w).parallelExecution = true) (layer : LayerType)
    (output : TensorName) (hetero : Bool) : c.routed u k layer output hetero x w =
      [.place output (c.placement w), c.execute k layer x [u.side (c.placement w)]] := if_pos hside

theorem attention_side (hside : (c.placement w).parallelExecution = true) (layer : LayerType)
    (type : ProcessorType) (q : Placement) (latent : Bool) :
    c.attention u k layer type q latent x w =
      [.place (c.tensor "attn_output") q, c.execute k layer x [type]] := if_pos hside

theorem Wired.side_of_half {absorbed : Prop} {children : Forest LayerCall}
    (hc : c.Wired absorbed children) {output : String} (houtput : c.kind.execOutput = some output)
    (hw : Halved w.placement) (hside : (c.placement w).parallelExecution = true) :
    (c.kind.half = some "sum_tensor" → (c.placement w).performAtHigh = true) ∧
      (c.kind.half = some "gen_tensor" → (c.placement w).performAtHigh = false) := by
  obtain ⟨-, -, t, hinput, hhalf⟩ := hc.2 output houtput
  have hplacement : c.placement w = w.placement t := by
    unfold placement
    rw [hinput]
    rfl
  rw [hplacement] at hside ⊢
  exact ⟨fun h => (hw t hside).1 (hhalf _ h), fun h => (hw t hside).2 (hhalf _ h)⟩

/-- A module on one side places its output, and executes on one kind of processor. -/
theorem steps_side {absorbed : Prop} {children : Forest LayerCall} (hc : c.Wired absorbed children)
    {output : String} (houtput : c.kind.execOutput = some output) (hw : Halved w.placement)
    (hside : (c.placement w).parallelExecution = true) (x : σ) : ∃ q layer type,
      c.steps u k x w = [.place (c.tensor output) q, c.execute k layer x [type]] ∧
      q.parallelExecution = true ∧
      type = if c.kind = .absorbMLAGen then u.highProcessorType else u.side (c.placement w) := by
  obtain ⟨hsum, hgen⟩ := hc.side_of_half houtput hw hside
  have hhigh : c.kind.half = some "sum_tensor" → u.side (c.placement w) = u.highProcessorType :=
    fun h => if_pos (hsum h)
  have hlow : c.kind.half = some "gen_tensor" → u.side (c.placement w) = u.lowProcessorType :=
    fun h => if_neg (by simp [hgen h])
  unfold steps
  cases hkind : c.kind
  all_goals rw [hkind] at houtput hhigh hlow
  case linear =>
    obtain rfl := Option.some.inj houtput
    exact ⟨_, _, _, routed_side hside _ _ _, hside, (if_neg nofun).symm⟩
  case activation =>
    obtain rfl := Option.some.inj houtput
    exact ⟨_, _, _, routed_side hside _ _ _, hside, (if_neg nofun).symm⟩
  case absorbMLAGen =>
    obtain rfl := Option.some.inj houtput
    exact ⟨_, _, _, attention_side hside _ _ _ _, rfl, (if_pos rfl).symm⟩
  case selfAttentionSum | multiLatentAttentionSum | absorbMLASum =>
    obtain rfl := Option.some.inj houtput
    refine ⟨_, _, _, attention_side hside _ _ _ _, rfl, ?_⟩
    rw [if_neg nofun, hhigh rfl]
  case selfAttentionGen | multiLatentAttentionGen =>
    obtain rfl := Option.some.inj houtput
    refine ⟨_, _, _, attention_side hside _ _ _ _, rfl, ?_⟩
    rw [if_neg nofun, hlow rfl]
  all_goals cases houtput

end LayerCall

/-! ### The stamps, with their modules -/

/-- The module executes on a single tensor, and its stamp was opened for one side. -/
def OnSide (q : LayerCall × Stamp) : Prop :=
  q.1.kind.execOutput ≠ none ∧ q.2.status.parallelExecution = true

instance (q : LayerCall × Stamp) : Decidable (OnSide q) := inferInstanceAs (Decidable (_ ∧ _))

/-- How far the clock that is charged is from the one on which the stamp has opened. -/
def drift (q : LayerCall × Stamp) : ℚ :=
  if q.1.kind = .absorbMLAGen then q.2.status.highTime - q.2.status.lowTime else 0

/-- Neither the placements nor what a return charges, or to which clocks, have changed. -/
structure Work.SameSides (w w' : Work TensorName) : Prop where
  placement : w'.placement = w.placement
  execStatus : w'.execStatus = w.execStatus
  highTime : w'.status.highTime = w.status.highTime
  lowTime : w'.status.lowTime = w.status.lowTime

theorem kept_sameSides : Kept Work.SameSides where
  refl _ := ⟨rfl, rfl, rfl, rfl⟩
  trans h h' := ⟨h'.placement.trans h.placement, h'.execStatus.trans h.execStatus,
    h'.highTime.trans h.highTime, h'.lowTime.trans h.lowTime⟩
  sync _ _ _ := ⟨rfl, rfl, rfl, rfl⟩

/-- The module of an open stamp has not executed. -/
structure Opened (w : Work TensorName) (q : LayerCall × Stamp) : Prop where
  side : (q.1.placement w).parallelExecution = true
  deviceTime : q.2.status.deviceTime = w.status.sideTime (q.1.placement w)
  highTime : q.2.status.highTime = w.status.highTime
  lowTime : q.2.status.lowTime = w.status.lowTime

/-- It has executed, and the return will charge this. -/
structure Due (nonneg : Prop) (w : Work TensorName) (q : LayerCall × Stamp) : Prop where
  side : ∀ p, q.1.output.placement w = some p → p.parallelExecution = true
  processorType : w.execStatus.processorType ≠ .none
  clock : w.status.clock w.execStatus.processorType = q.2.status.deviceTime + drift q
  duration : nonneg → 0 ≤ w.execStatus.totalDuration

section Execute
variable {σ : Type} {u : UnitConfig} {k : Costs σ} {w w' : Work TensorName} {q : LayerCall × Stamp}
  {absorbed nonneg : Prop} {children : Forest LayerCall} {output : String}

theorem Opened.same (h : Opened w q) (hw : w.SameSides w') : Opened w' q := by
  have hplacement : q.1.placement w' = q.1.placement w := by
    unfold LayerCall.placement
    rw [hw.placement]
  refine ⟨hplacement ▸ h.side, ?_, h.highTime.trans hw.highTime.symm,
    h.lowTime.trans hw.lowTime.symm⟩
  rw [hplacement, h.deviceTime]
  unfold StatusBoard.sideTime
  rw [hw.highTime, hw.lowTime]

theorem Due.same (h : Due nonneg w q) (hw : w.SameSides w') : Due nonneg w' q := by
  have hplacement : q.1.output.placement w' = q.1.output.placement w := by
    unfold GraphInput.placement
    rw [hw.placement]
  refine ⟨hplacement ▸ h.side, hw.execStatus ▸ h.processorType, ?_, hw.execStatus ▸ h.duration⟩
  rw [hw.execStatus, ← h.clock]
  unfold StatusBoard.clock
  rw [hw.highTime, hw.lowTime]

theorem Opened.execute (h : Opened w q) (hu : u.TwoSided) (hc : q.1.Wired absorbed children)
    (houtput : q.1.kind.execOutput = some output) (hw : Halved w.placement) (x : σ) :
    Due k.Nonneg ((q.1.steps u k x w).foldl (fun w a => a.apply w) w) q := by
  obtain ⟨p, layer, type, hsteps, hp, htype⟩ := LayerCall.steps_side hc houtput hw h.side x
  obtain ⟨-, hresult, -⟩ := hc.2 output houtput
  obtain ⟨hclock, hside⟩ := hu.clock_side w.status (q.1.placement w)
  rw [hsteps]
  refine ⟨?_, ?_, ?_, fun hk => Executor.execution_nonneg (hk.execute layer q.1 x) _⟩
  · intro p' hp'
    rw [hresult] at hp'
    obtain rfl := Option.some.inj hp'
    change (Function.update w.placement (q.1.tensor output) p _).parallelExecution = true
    rw [Function.update_self]
    exact hp
  · change type ≠ .none
    rw [htype, hu.high]
    split_ifs
    · exact nofun
    · exact hside
  · change w.status.clock type = q.2.status.deviceTime + drift q
    rw [htype, h.deviceTime, drift, h.highTime, h.lowTime]
    split_ifs with hkind
    · -- from the low side to the high clock
      have hlow : (q.1.placement w).performAtHigh = false :=
        (hc.side_of_half houtput hw h.side).2 (by rw [hkind]; rfl)
      unfold StatusBoard.sideTime
      rw [hu.high, if_neg (by simp [hlow]), add_sub_cancel]
      rfl
    · rw [hclock, add_zero]

/-- The stamp that the return leaves. -/
theorem Due.close (h : Due nonneg w q) (hc : q.1.Wired absorbed children)
    (houtput : q.1.kind.execOutput = some output) (dramPowers : ProcessorType → DramEnergy) :
    (q.2.setStatus (w.status.setPopStatus dramPowers (q.1.output.placement w) w.execStatus)
      w.execStatus).getDuration = w.execStatus.totalDuration + drift q := by
  obtain ⟨-, hresult, -⟩ := hc.2 output houtput
  have hside := h.side
  rw [hresult] at hside ⊢
  have hend :=
    StatusBoard.setPopStatus_side (s := w.status) (hside _ rfl) h.processorType dramPowers
  unfold Stamp.getDuration Stamp.setStatus
  dsimp only
  change (w.status.setPopStatus dramPowers (some _) w.execStatus).deviceTime - _ = _
  rw [hend, h.clock]
  ring

end Execute

/-- Where the module of an innermost stamp is. -/
inductive Inner (events : List (Event LayerCall)) (nonneg : Prop) (y : DeviceState TensorName)
    (q : LayerCall × Stamp) : Prop
  | opened (hstamped : y.stamped y.current = true) (hat : events[y.current]? = some (.push q.1))
      (h : OnSide q → Opened y.work q)
  | due (hstamped : y.stamped y.current = false) (hat : events[y.current]? = some (.pop q.1))
      (h : OnSide q → Due nonneg y.work q)

namespace LlmCluster
variable {N : ℕ} {σ : Type} (b : LlmCluster N σ) (input : TensorName)

/-- The stamps that have been closed, each with the call that it is of. -/
def closedStamps (s : TimedState N TensorName σ) (d : Fin N) : List (LayerCall × Stamp) :=
  match ((b.layerCalls input d).events.take (CallGraphs.stampedEvents s d)).foldlM Cursor.step {} with
  | some calls => (calls.pair (s.board d).tree).finished
  | none => []

/-- When an `AbsorbMLAGen` is called for one side, both are at the same time. -/
def Level (s : TimedState N TensorName σ) : Prop := ∀ d c,
  (b.layerCalls input d).events[(s.cluster.device d).current]? = some (.push c) →
  c.kind = .absorbMLAGen → (c.placement (s.cluster.device d).work).parallelExecution = true →
  (s.cluster.device d).work.status.highTime = (s.cluster.device d).work.status.lowTime

/-- `P` has the stamps of the board with their calls. With `level`, none has drifted. -/
structure Traced (level : Prop) (s : TimedState N TensorName σ) (d : Fin N)
    (P : Cursor (LayerCall × Stamp)) : Prop where
  calls : ((b.layerCalls input d).events.take (CallGraphs.stampedEvents s d)).foldlM Cursor.step {}
    = some (P.map Prod.fst)
  tree : (s.board d).tree = P.map Prod.snd
  finished : ∀ q ∈ P.finished, OnSide q →
    q.2.getDuration = q.2.charged.totalDuration + drift q ∧
      ((b.costs d).Nonneg → 0 ≤ q.2.charged.totalDuration)
  level : level → ∀ q, q ∈ P.openNodes ∨ q ∈ P.finished → OnSide q → drift q = 0
  inner : ∀ q, P.openNodes.head? = some q → q.1.kind.execOutput ≠ none →
    Inner (b.layerCalls input d).events (b.costs d).Nonneg (s.cluster.device d) q
  outer : ∀ q ∈ P.openNodes.tail, q.1.kind.execOutput = none

variable {b input} {C : CallGraphs N TensorName σ} {level : Prop} {s s' : TimedState N TensorName σ}
  {d : Fin N} {P : Cursor (LayerCall × Stamp)}

theorem Traced.closedStamps_eq (h : b.Traced input level s d P) :
    b.closedStamps input s d = P.finished := by
  unfold closedStamps
  rw [h.calls, h.tree]
  dsimp only
  rw [Cursor.pair_map]

/-- Steps that leave the position of the device. -/
theorem Traced.same (h : b.Traced input level s d P)
    (hcurrent : (s'.cluster.device d).current = (s.cluster.device d).current)
    (hstamped : (s'.cluster.device d).stamped = (s.cluster.device d).stamped)
    (hboard : s'.board d = s.board d)
    (hwork : (s.cluster.device d).work.SameSides (s'.cluster.device d).work) :
    b.Traced input level s' d P := by
  have hevents : CallGraphs.stampedEvents s' d = CallGraphs.stampedEvents s d := by
    unfold CallGraphs.stampedEvents
    rw [hcurrent, hstamped]
  refine ⟨hevents ▸ h.calls, hboard ▸ h.tree, h.finished, h.level, fun q hq hkind => ?_, h.outer⟩
  cases h.inner q hq hkind with
  | opened hs hat hq =>
    exact .opened (by rw [hcurrent, hstamped, hs]) (by rw [hcurrent, hat]) fun hside =>
      (hq hside).same hwork
  | due hs hat hq =>
    exact .due (by rw [hcurrent, hstamped, hs]) (by rw [hcurrent, hat]) fun hside =>
      (hq hside).same hwork

/-- The calls as they have been recorded. -/
theorem Builds.at_layer (hbuild : b.Builds input C) {e : Event (Call N TensorName σ)}
    (hat : C.At d s e) : ∃ e', e = e'.map (LayerCall.toCall b.units (b.costs d) N) ∧
      (b.layerCalls input d).events[(s.cluster.device d).current]? = some e' := by
  unfold CallGraphs.At at hat
  rw [hbuild.calls_eq, Forest.events_map, List.getElem?_map] at hat
  obtain ⟨e', he', rfl⟩ := Option.map_eq_some_iff.mp hat
  exact ⟨e', rfl, he'⟩

/-- A stamp opens on the side of the input. -/
theorem Traced.push (h : b.Traced input level s d P) (hlevel : level → b.Level input s)
    {c : LayerCall} (hat : (b.layerCalls input d).events[(s.cluster.device d).current]?
      = some (.push c))
    (hstamped : (s.cluster.device d).stamped (s.cluster.device d).current = false)
    (hcurrent : (s'.cluster.device d).current = (s.cluster.device d).current)
    (hstamps : (s'.cluster.device d).stamped (s.cluster.device d).current = true)
    (hwork : (s'.cluster.device d).work = { (s.cluster.device d).work with
      status := (s.cluster.device d).work.status.setPushStatus
        (c.input.placement (s.cluster.device d).work) })
    (hboard : s'.board d = { s.board d with
      tree := (s.board d).tree.push { name := c.name, status := (s'.cluster.device d).work.status } }) :
    ∃ P', b.Traced input level s' d P' := by
  set x : Stamp := { name := c.name, status := (s'.cluster.device d).work.status } with hx
  have hbefore : CallGraphs.stampedEvents s d = (s.cluster.device d).current := by
    unfold CallGraphs.stampedEvents
    rw [hstamped, if_neg Bool.false_ne_true, Nat.add_zero]
  have hafter : CallGraphs.stampedEvents s' d = (s.cluster.device d).current + 1 := by
    unfold CallGraphs.stampedEvents
    rw [hcurrent, hstamps, if_pos rfl]
  have hcalls := h.calls
  rw [hbefore] at hcalls
  -- a module that executes has no open calls below it
  have hopen : ∀ q ∈ P.openNodes, q.1.kind.execOutput = none := by
    have hinner := h.inner
    have houter := h.outer
    cases hP : P.openNodes with
    | nil => exact fun q hq => absurd hq List.not_mem_nil
    | cons a rest =>
      rw [hP] at hinner houter
      intro q hq
      rcases List.mem_cons.mp hq with rfl | hq
      · by_contra hkind
        cases hinner q rfl hkind with
        | opened hs _ _ => exact Bool.false_ne_true (hstamped.symm.trans hs)
        | due _ hpop _ => cases Option.some.inj (hat.symm.trans hpop)
      · exact houter q hq
  have hclocks : x.status.parallelExecution = true → Opened (s'.cluster.device d).work (c, x) ∧
      (c.placement (s.cluster.device d).work).parallelExecution = true ∧
      x.status.highTime = (s.cluster.device d).work.status.highTime ∧
      x.status.lowTime = (s.cluster.device d).work.status.lowTime := by
    intro hflag
    have hstatus : x.status = (s.cluster.device d).work.status.setPushStatus
        (c.input.placement (s.cluster.device d).work) := by rw [hx, hwork]
    rw [hstatus] at hflag
    obtain ⟨p, hinput, hp, htime, hhigh, hlow⟩ := StatusBoard.setPushStatus_side hflag
    have hplacement := LayerCall.placement_of_input hinput
    have hplacement' : c.placement (s'.cluster.device d).work = p := by
      rw [hwork]
      exact hplacement
    rw [← hstatus] at htime hhigh hlow
    refine ⟨⟨hplacement' ▸ hp, ?_, rfl, rfl⟩, hplacement ▸ hp, hhigh, hlow⟩
    change x.status.deviceTime = x.status.sideTime (c.placement (s'.cluster.device d).work)
    rw [htime, hplacement']
    unfold StatusBoard.sideTime
    rw [hhigh, hlow]
  refine ⟨P.push (c, x), hafter ▸ Cursor.replay_push x hcalls hat, ?_, ?_, ?_, ?_, ?_⟩
  · rw [hboard, h.tree]
    rfl
  · rw [Cursor.finished_push]
    exact h.finished
  · intro hl q hq hside
    rw [Cursor.openNodes_push, Cursor.finished_push, List.mem_cons] at hq
    rcases hq with (rfl | hq) | hq
    · obtain ⟨-, hflag, hhigh, hlow⟩ := hclocks hside.2
      unfold drift
      split_ifs with hkind
      · exact sub_eq_zero.mpr (hhigh.trans ((hlevel hl d c hat hkind hflag).trans hlow.symm))
      · rfl
    · exact h.level hl q (.inl hq) hside
    · exact h.level hl q (.inr hq) hside
  · intro q hq _
    obtain rfl := Option.some.inj hq
    exact .opened (by rw [hcurrent, hstamps]) (by rw [hcurrent, hat]) fun hq => (hclocks hq.2).1
  · exact hopen

/-- A stamp closes, of a module that has executed if it can. -/
theorem Traced.pop (h : b.Traced input level s d P) {absorbed : Prop}
    (hwired : (b.layerCalls input d).Licensed (LayerCall.Wired absorbed)) {c : LayerCall}
    (hat : (b.layerCalls input d).events[(s.cluster.device d).current]? = some (.pop c))
    (hstamped : (s.cluster.device d).stamped (s.cluster.device d).current = false)
    (hcurrent : (s'.cluster.device d).current = (s.cluster.device d).current)
    (hstamps : (s'.cluster.device d).stamped (s.cluster.device d).current = true)
    {dramPowers : ProcessorType → DramEnergy} {status : StatusBoard}
    (hstatus : status = (s.cluster.device d).work.status.setPopStatus dramPowers
      (c.output.placement (s.cluster.device d).work) (s.cluster.device d).work.execStatus)
    {tree : Cursor Stamp} (hpop : (s.board d).tree.pop
      (·.setStatus status (s.cluster.device d).work.execStatus) = some tree)
    (hboard : s'.board d = { s.board d with tree }) : ∃ P', b.Traced input level s' d P' := by
  have hbefore : CallGraphs.stampedEvents s d = (s.cluster.device d).current := by
    unfold CallGraphs.stampedEvents
    rw [hstamped, if_neg Bool.false_ne_true, Nat.add_zero]
  have hafter : CallGraphs.stampedEvents s' d = (s.cluster.device d).current + 1 := by
    unfold CallGraphs.stampedEvents
    rw [hcurrent, hstamps, if_pos rfl]
  have hcalls := h.calls
  rw [hbefore] at hcalls
  rw [h.tree] at hpop
  obtain ⟨P', hP', rfl, hreplay⟩ := Cursor.replay_pop hcalls hat hpop
  obtain ⟨q, hopen, hfinished⟩ := Cursor.pop_cases hP'
  have houter := h.outer
  rw [hopen] at houter
  have hclosed : OnSide q → (q.2.setStatus status (s.cluster.device d).work.execStatus).getDuration
      = (s.cluster.device d).work.execStatus.totalDuration + drift q ∧
      ((b.costs d).Nonneg → 0 ≤ (s.cluster.device d).work.execStatus.totalDuration) := by
    intro hside
    cases h.inner q (by rw [hopen]; rfl) hside.1 with
    | opened hs _ _ => exact absurd (hstamped.symm.trans hs) Bool.false_ne_true
    | due _ hat' hdue =>
      obtain rfl := Event.pop.inj (Option.some.inj (hat.symm.trans hat'))
      obtain ⟨children, hc⟩ :=
        hwired.forall_mem q.1 (Forest.mem_of_pop_mem (List.mem_of_getElem? hat))
      obtain ⟨output, houtput⟩ := Option.ne_none_iff_exists'.mp hside.1
      rw [hstatus]
      exact ⟨(hdue hside).close hc houtput dramPowers, (hdue hside).duration⟩
  refine ⟨P', hafter ▸ hreplay, by rw [hboard], ?_, ?_, ?_, ?_⟩
  · intro q' hq' hside
    rcases hfinished q' hq' with rfl | hq'
    · exact hclosed hside
    · exact h.finished q' hq' hside
  · intro hl q' hq' hside
    rcases hq' with hq' | hq'
    · exact h.level hl q' (.inl (hopen ▸ List.mem_cons_of_mem _ hq')) hside
    · rcases hfinished q' hq' with rfl | hq'
      · exact h.level hl q (.inl (hopen ▸ List.mem_cons_self)) hside
      · exact h.level hl q' (.inr hq') hside
  · intro q' hq' hkind
    exact absurd (houter q' (List.mem_of_mem_head? hq')) hkind
  · intro q' hq'
    exact houter q' (List.mem_of_mem_tail hq')

/-- The module of the innermost stamp executes. -/
theorem Traced.advance (h : b.Traced input level s d P) (hbuild : b.Builds input C)
    (hu : b.units.TwoSided) {absorbed : Prop}
    (hwired : (b.layerCalls input d).Licensed (LayerCall.Wired absorbed))
    (hhalved : Halved (s.cluster.device d).work.placement) (hm : C.Mirrors d s)
    {e : Event (Call N TensorName σ)} (hat : C.At d s e)
    (hstamped : (s.cluster.device d).stamped (s.cluster.device d).current = true)
    {cluster : ClusterState N TensorName σ}
    (hrun : (Call.node e).run d s.cluster = .ok (true, cluster)) :
    b.Traced input level { s with cluster := cluster.modify d (·.next) } d P := by
  have hdevice : (cluster.modify d (·.next)).device d = (cluster.device d).next :=
    ClusterState.modify_device_self ..
  obtain ⟨hcur, hst, -⟩ := (ModuleGraph.run_outcome hrun).frame d
  have hcurrent : ((cluster.modify d (·.next)).device d).current
      = (s.cluster.device d).current + 1 := by
    rw [hdevice]
    exact congrArg (· + 1) hcur
  have hnew : ((cluster.modify d (·.next)).device d).stamped ((s.cluster.device d).current + 1)
      = false := by
    rw [hdevice]
    change (cluster.device d).stamped _ = false
    rw [hst]
    exact hm.unstamped _ (Nat.lt_succ_self _)
  have hevents : CallGraphs.stampedEvents { s with cluster := cluster.modify d (·.next) } d
      = CallGraphs.stampedEvents s d := by
    unfold CallGraphs.stampedEvents
    dsimp only
    rw [hcurrent, hnew, hstamped]
    rfl
  refine ⟨hevents ▸ h.calls, h.tree, h.finished, h.level, fun q hq hkind => ?_, h.outer⟩
  cases h.inner q hq hkind with
  | due hs _ _ => exact absurd (hs.symm.trans hstamped) Bool.false_ne_true
  | opened _ hpush hopened =>
    obtain ⟨e', rfl, hat'⟩ := hbuild.at_layer hat
    obtain rfl := Option.some.inj (hat'.symm.trans hpush)
    obtain ⟨output, houtput⟩ := Option.ne_none_iff_exists'.mp hkind
    obtain ⟨children, hc⟩ :=
      hwired.forall_mem q.1 (Forest.mem_of_push_mem (List.mem_of_getElem? hpush))
    have hpop := hwired.events_pop (fun children hc => (hc.2 output houtput).1) hpush
    refine .due (by rw [hcurrent, hnew]) (by rw [hcurrent, hpop]) fun hside => ?_
    have hexecutes : (Call.node (Event.map (LayerCall.toCall b.units (b.costs d) N)
        (.push q.1))).Executes (q.1.toCall b.units (b.costs d) N).module := by
      refine ⟨rfl, decide_eq_true fun hcontainer => ?_⟩
      rw [hcontainer] at houtput
      cases houtput
    have hasync : (q.1.toCall b.units (b.costs d) N).module.sync = false := by
      change q.1.isSync = false
      unfold LayerCall.isSync
      split
      · next hall =>
        rw [hall] at houtput
        cases houtput
      · next hscatter =>
        rw [hscatter] at houtput
        cases houtput
      · next hsync =>
        rw [hsync] at houtput
        cases houtput
      · rfl
    have hwork : (cluster.device d).work = (q.1.steps b.units (b.costs d) s.cluster.shared
        (s.cluster.device d).work).foldl (fun w a => a.apply w) (s.cluster.device d).work := by
      have hsync : ∀ {m}, (Call.node (Event.map (LayerCall.toCall b.units (b.costs d) N)
          (.push q.1))).Executes m → m.sync = true → False := by
        intro m hm hsync
        rw [hm.unique hexecutes, hasync] at hsync
        cases hsync
      cases ModuleGraph.run_outcome hrun with
      | skip hnone => exact absurd hexecutes (hnone _)
      | forward hm _ =>
        obtain rfl := hm.unique hexecutes
        rw [ModuleGraph.forward_device_self, ClusterState.modify_device_self]
        rfl
      | syncFirst hm hs => exact absurd hs (hsync hm)
      | syncLater hm hs => exact absurd hs (hsync hm)
    rw [hdevice]
    change Due _ (cluster.device d).work q
    rw [hwork]
    exact (hopened hside).execute hu hc houtput hhalved _

theorem Traced.stamp (h : b.Traced input level s d P) (hlevel : level → b.Level input s)
    (hbuild : b.Builds input C) {absorbed : Prop}
    (hwired : (b.layerCalls input d).Licensed (LayerCall.Wired absorbed)) (hm : C.Mirrors d s')
    {e : Event (Call N TensorName σ)} (hat : C.At d s e) (hset : C.setStamp d e s = .ok s') :
    ∃ P', b.Traced input level s' d P' := by
  obtain ⟨hcurrent, hstamps, -⟩ := CallGraphs.setStamp_frame hset
  have hstamps' : (s'.cluster.device d).stamped (s.cluster.device d).current = true := by
    rw [hstamps, Function.update_self]
  obtain ⟨e', rfl, hat'⟩ := hbuild.at_layer hat
  obtain ⟨-, ⟨-, rfl⟩ | ⟨hstamped, -⟩⟩ := CallGraphs.setStamp_cases hset
  · exact ⟨P, h⟩
  · rcases hm.stamp_cases hset with rfl | ⟨c, hevent, hwork, hboard⟩ |
      ⟨c, tree, hevent, hwork, hpop, hboard⟩
    · exact ⟨P, h⟩
    · cases e' with
      | pop c' => cases hevent
      | push c' =>
        obtain rfl := Event.push.inj hevent
        exact h.push hlevel hat' hstamped (hcurrent d) hstamps' hwork hboard
    · cases e' with
      | push c' => cases hevent
      | pop c' =>
        obtain rfl := Event.pop.inj hevent
        exact h.pop hwired hat' hstamped (hcurrent d) hstamps' (by rw [hwork]; rfl) hpop hboard

theorem Traced.move (h : b.Traced input level s d P) (hlevel : level → b.Level input s)
    (hbuild : b.Builds input C) (hu : b.units.TwoSided) {absorbed : Prop}
    (hwired : (b.layerCalls input d).Licensed (LayerCall.Wired absorbed))
    (hhalved : Halved (s.cluster.device d).work.placement) (hm : C.Mirrors d s) {e : Fin N}
    (hmove : C.Move s e s') : ∃ P', b.Traced input level s' d P' := by
  have hm' := hm.move hmove
  cases hmove with
  | stamp hat hset =>
    by_cases hde : d = e
    · subst hde
      exact h.stamp hlevel hbuild hwired hm' hat hset
    · obtain ⟨-, -, hother⟩ := CallGraphs.setStamp_frame hset
      obtain ⟨hdevice, hboard⟩ := hother d hde
      exact ⟨P, h.same (by rw [hdevice]) (by rw [hdevice]) hboard
        (hdevice ▸ kept_sameSides.refl _)⟩
  | @advance _ event cluster hat hstamped hrun =>
    by_cases hde : d = e
    · subst hde
      exact ⟨P, h.advance hbuild hu hwired hhalved hm hat hstamped hrun⟩
    · have hdevice : (cluster.modify e (·.next)).device d = cluster.device d :=
        ClusterState.modify_device_of_ne hde ..
      obtain ⟨hcur, hst, -⟩ := (ModuleGraph.run_outcome hrun).frame d
      refine ⟨P, h.same ((congrArg _ hdevice).trans hcur) ((congrArg _ hdevice).trans hst) rfl ?_⟩
      change Work.SameSides _ ((cluster.modify e (·.next)).device d).work
      rw [hdevice]
      exact kept_sameSides.outcome (fun heq => absurd heq hde) (ModuleGraph.run_outcome hrun)
  | block hat hrun =>
    cases ModuleGraph.run_outcome hrun
    exact ⟨P, h⟩

theorem Builds.wired (hbuild : b.Builds input C) (d : Fin N) :
    (b.layerCalls input d).Licensed (LayerCall.Wired
      (b.config.qkRopeHeadDim ≠ 0 ∧ b.config.useAbsorb = true)) := by
  obtain ⟨F, hF, -⟩ := hbuild.calls d
  unfold layerCalls
  rw [hF]
  exact wired_build _ _ And.intro hF

theorem Builds.halved (hbuild : b.Builds input C) :
    C.Forwards fun w w' => Halved w.placement → Halved w'.placement := by
  intro d c hc x w hw
  obtain ⟨c', rfl⟩ := hbuild.of_mem hc
  exact c'.steps_halved b.units (b.costs d) x hw

/-- Without the absorbed attention there is nothing to ask for. -/
theorem Builds.isLevel (hbuild : b.Builds input C)
    (hconfig : b.config.qkRopeHeadDim = 0 ∨ b.config.useAbsorb = false) : b.Level input s := by
  intro d c hat hkind
  obtain ⟨children, hc, -⟩ := (hbuild.wired d).forall_mem c
    (Forest.mem_of_push_mem (List.mem_of_getElem? hat))
  obtain ⟨hrope, habsorb⟩ := hc hkind
  rcases hconfig with h | h
  · exact absurd h hrope
  · exact absurd (h.symm.trans habsorb) Bool.false_ne_true

theorem Traced.run (hbuild : b.Builds input C) (hu : b.units.TwoSided)
    {s₀ s : TimedState N TensorName σ} (hinit : C.Init s₀)
    (hnew : ∀ d t, ((s₀.cluster.device d).work.placement t).parallelExecution = false)
    {as : List (Option (Fin N))}
    (hrun : Run (fun s a s' => (level → b.Level input s) ∧ C.Step s a s') s₀ as s) (d : Fin N) :
    ∃ P, b.Traced input level s d P := by
  have hempty : ∀ {s s' : TimedState N TensorName σ}, C.restart s = .ok s' →
      b.Traced input level s' d {} := by
    intro s s' hrestart
    obtain ⟨cluster, hcluster, h⟩ := bind_eq_ok hrestart
    obtain rfl := Except.ok.inj h
    obtain ⟨n, root, -, -, hdevice⟩ := Graphs.restartModuleGraph_device hcluster d
    have hevents : CallGraphs.stampedEvents
        ⟨cluster, fun d => (s.board d).resetTimeboard⟩ d = 0 := by
      unfold CallGraphs.stampedEvents
      dsimp only
      rw [hdevice]
      rfl
    refine ⟨by rw [hevents]; rfl, rfl, ?_, ?_, ?_, ?_⟩
    · exact fun q hq => absurd hq List.not_mem_nil
    · exact fun _ q hq => absurd (or_self_iff.mp hq) List.not_mem_nil
    · exact fun q hq => by cases hq
    · exact fun q hq => absurd hq List.not_mem_nil
  have hstep : ∀ (s : TimedState N TensorName σ) (a : Option (Fin N))
      (s' : TimedState N TensorName σ),
      (C.Mirrors d s ∧ (∀ e, Halved (s.cluster.device e).work.placement) ∧
        ∃ P, b.Traced input level s d P) → ((level → b.Level input s) ∧ C.Step s a s') →
      C.Mirrors d s' ∧ (∀ e, Halved (s'.cluster.device e).work.placement) ∧
        ∃ P, b.Traced input level s' d P := by
    rintro s a s' ⟨hm, hhalved, P, hP⟩ ⟨hlevel, hstep⟩
    have hhalved' := hstep.placement hbuild.halved hhalved
    cases hstep with
    | restart hrestart =>
      exact ⟨CallGraphs.Mirrors.restart hrestart d, hhalved', _, hempty hrestart⟩
    | move hmove =>
      exact ⟨hm.move hmove, hhalved',
        hP.move hlevel hbuild hu (hbuild.wired d) (hhalved d) hm hmove⟩
  obtain ⟨s₁, -, hrestart⟩ := hinit
  have hhalved : ∀ e, Halved (s₀.cluster.device e).work.placement := by
    intro e t ht
    rw [hnew e t] at ht
    cases ht
  exact (hrun.invariant (fun s a s' => hstep s a s')
    ⟨CallGraphs.Mirrors.restart hrestart d, hhalved, _, hempty hrestart⟩).2.2

/-- In every run of an LLM, over any number of restarts, a module that executes on one side: its
closed stamp is as long as what its return has charged, unless the module is `AbsorbMLAGen` and the
two sides were not at the same time when the stamp opened. So all are in runs where these always
are. -/
theorem leaf_stamps_exact (hbuild : b.Builds input C) (hu : b.units.TwoSided)
    {s₀ : TimedState N TensorName σ} (hinit : C.Init s₀)
    (hnew : ∀ d t, ((s₀.cluster.device d).work.placement t).parallelExecution = false) :
    (∀ as s, Run C.Step s₀ as s → ∀ d, ∀ q ∈ b.closedStamps input s d, OnSide q →
      (q.2.getDuration = q.2.charged.totalDuration ↔
        (q.1.kind = .absorbMLAGen → q.2.status.highTime = q.2.status.lowTime))) ∧
    ∀ as s, Run (fun s a s' => b.Level input s ∧ C.Step s a s') s₀ as s → ∀ d,
      ∀ q ∈ b.closedStamps input s d, OnSide q → q.2.getDuration = q.2.charged.totalDuration ∧
        ((b.costs d).Nonneg → 0 ≤ q.2.getDuration) := by
  constructor
  · intro as s hrun d q hq hside
    obtain ⟨P, hP⟩ : ∃ P, b.Traced input False s d P := Traced.run hbuild hu hinit hnew
      (hrun.mono fun _ _ _ h => ⟨False.elim, h⟩) d
    rw [hP.closedStamps_eq] at hq
    rw [(hP.finished q hq hside).1, add_eq_left]
    unfold drift
    split_ifs with hkind
    · simp [hkind, sub_eq_zero]
    · simp [hkind]
  · intro as s hrun d q hq hside
    obtain ⟨P, hP⟩ : ∃ P, b.Traced input True s d P := Traced.run hbuild hu hinit hnew
      (hrun.mono fun _ _ _ h => ⟨fun _ => h.1, h.2⟩) d
    rw [hP.closedStamps_eq] at hq
    obtain ⟨hexact, hnonneg⟩ := hP.finished q hq hside
    rw [hP.level trivial q (.inr hq) hside, add_zero] at hexact
    exact ⟨hexact, fun hk => hexact ▸ hnonneg hk⟩

def twoSided : UnitConfig :=
  { processorType := [.gpu, .pim], parallelExecution := true, lowProcessorType := .pim }

theorem twoSided_twoSided : twoSided.TwoSided := ⟨rfl, .inl rfl⟩

/-- The two attention modules of a plain attention. -/
theorem leaf_stamps_exact_plain : ∃ s, oneDecoderRun denseConfig twoSided = .ok s ∧
    (((oneDecoder denseConfig twoSided).closedStamps ⟨[], "input"⟩ s 0).filter fun q =>
      decide (OnSide q)).length = 2 ∧
    ∀ q ∈ (oneDecoder denseConfig twoSided).closedStamps ⟨[], "input"⟩ s 0, OnSide q →
      q.2.getDuration = q.2.charged.totalDuration := by
  set b := oneDecoder denseConfig twoSided with hb
  have hany : (oneDecoderRun denseConfig twoSided).toOption.any (fun s =>
      decide (((b.closedStamps ⟨[], "input"⟩ s 0).filter fun q =>
        decide (OnSide q)).length = 2)) = true := by
    decide +kernel
  obtain ⟨s, hrun, hs⟩ := exists_ok_of_any hany
  obtain ⟨s₀, h₀, h⟩ := bind_eq_ok hrun
  have hbuild : b.Builds ⟨[], "input"⟩ (b.callGraphs ⟨[], "input"⟩) :=
    builds_callGraphs fun _ => ⟨_, rfl⟩
  obtain ⟨as, hsteps⟩ := CallGraphs.runs_steps (.single h)
  have hnew : ∀ d t, ((s₀.cluster.device d).work.placement t).parallelExecution = false := by
    intro d t
    rw [(CallGraphs.restart_work h₀ d).1]
    rfl
  have hlevel := hsteps.mono fun s _ _ h =>
    And.intro (hbuild.isLevel (s := s) (.inl rfl)) h
  exact ⟨s, hrun, of_decide_eq_true hs, fun q hq hside =>
    ((leaf_stamps_exact hbuild twoSided_twoSided ⟨_, fun _ => rfl, h₀⟩ hnew).2 as s hlevel 0 q hq
      hside).1⟩

def absorbedConfig : LayerConfig :=
  { denseConfig with qkNopeHeadDim := 1, qkRopeHeadDim := 1, useAbsorb := true }

/-- With the absorbed attention, the stamp of "AttentionGen" opens at 17 on the low side and closes
at 21 on the high side, and the return has charged 2. -/
theorem leaf_stamps_drift : twoSided.parallelExecution = true ∧ twoSided.TwoSided ∧
    ¬∀ s, oneDecoderRun absorbedConfig twoSided = .ok s →
      ∀ q ∈ (oneDecoder absorbedConfig twoSided).closedStamps ⟨[], "input"⟩ s 0, OnSide q →
        q.2.getDuration = q.2.charged.totalDuration := by
  refine ⟨rfl, twoSided_twoSided, fun hall => ?_⟩
  have hany : (oneDecoderRun absorbedConfig twoSided).toOption.any (fun s =>
      decide (∃ q ∈ (oneDecoder absorbedConfig twoSided).closedStamps ⟨[], "input"⟩ s 0, OnSide q ∧
        q.2.getDuration ≠ q.2.charged.totalDuration)) = true := by
    decide +kernel
  obtain ⟨s, hrun, hs⟩ := exists_ok_of_any hany
  obtain ⟨q, hq, hside, hne⟩ := of_decide_eq_true hs
  exact hne (hall s hrun q hq hside)

end LlmCluster
end LlmSystem
