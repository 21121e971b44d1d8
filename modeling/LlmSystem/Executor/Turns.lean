import LlmSystem.Executor.Answers
import LlmSystem.Executor.IdealCounts
import LlmSystem.Executor.Roofline
import LlmSystem.Executor.Shapes

/-!
The loop of `Executor::execution`. Its candidates share the operands of the layer, the status that
the device keeps of its last memory access, and the `execution_time_cache`.
-/
namespace LlmSystem

open Runs

/-! ### What the memory answers -/

namespace DeviceMemory
variable {d : DeviceMemory} {u : Bool} {s s₀ s' s₀' : IssueState} {calls : List IssueCall}
  {es es₀ : List ExecStatus}

theorem askAll_append {calls' : List IssueCall} {es' : List ExecStatus} {s₁ : IssueState}
    (h : d.askAll u s calls = .ok (es, s₁)) (h' : d.askAll u s₁ calls' = .ok (es', s')) :
    d.askAll u s (calls ++ calls') = .ok (es ++ es', s') := by
  induction calls generalizing s es with
  | nil =>
    obtain ⟨rfl, rfl⟩ := Prod.mk.inj (Except.ok.inj h)
    exact h'
  | cons call calls ih =>
    obtain ⟨⟨e, s₂⟩, hone, h⟩ := bind_eq_ok h
    obtain ⟨⟨es, s₃⟩, hrest, h⟩ := bind_eq_ok h
    obtain ⟨rfl, rfl⟩ := Prod.mk.inj (Except.ok.inj h)
    rw [List.cons_append]
    unfold askAll
    rw [hone]
    show Except.bind (d.askAll u s₂ (calls ++ calls')) _ = _
    rw [ih hrest]
    rfl

/-- The calls of all stages are answered one after the other. -/
theorem askEach_flatten {callss : List (List IssueCall)} {answerss : List (List ExecStatus)}
    (h : d.askEach u s callss = .ok (answerss, s')) :
    d.askAll u s callss.flatten = .ok (answerss.flatten, s') ∧
      answerss.map List.length = callss.map List.length := by
  induction callss generalizing s answerss with
  | nil =>
    obtain ⟨rfl, rfl⟩ := Prod.mk.inj (Except.ok.inj h)
    exact ⟨rfl, rfl⟩
  | cons calls callss ih =>
    obtain ⟨⟨es, s₁⟩, hone, h⟩ := bind_eq_ok h
    obtain ⟨⟨ess, s₂⟩, hrest, h⟩ := bind_eq_ok h
    obtain ⟨rfl, rfl⟩ := Prod.mk.inj (Except.ok.inj h)
    obtain ⟨hflat, hlengths⟩ := ih hrest
    exact ⟨askAll_append hone hflat, congrArg₂ List.cons (askAll_length hone) hlengths⟩

theorem askAll_ideal_cons {call : IssueCall}
    (h : d.askAll false s (call :: calls) = .ok (es, s')) : ∃ es',
      es = (d.getIdealMemoryStatus s call).1 :: es' ∧
      d.askAll false (d.getIdealMemoryStatus s call).2 calls = .ok (es', s') := by
  obtain ⟨⟨e, s₁⟩, hone, h⟩ := bind_eq_ok h
  obtain ⟨⟨es', s₂⟩, hrest, h⟩ := bind_eq_ok h
  obtain ⟨rfl, rfl⟩ := Prod.mk.inj (Except.ok.inj h)
  obtain ⟨rfl, rfl⟩ := Prod.mk.inj (Except.ok.inj hone)
  exact ⟨es', rfl, hrest⟩

/-- Without the simulator the answers depend on the status that the device keeps. -/
theorem askAll_ideal_congr (hstatus : s.execStatus = s₀.execStatus)
    (h : d.askAll false s calls = .ok (es, s')) (h₀ : d.askAll false s₀ calls = .ok (es₀, s₀')) :
    es = es₀ := by
  induction calls generalizing s s₀ es es₀ with
  | nil =>
    obtain ⟨rfl, -⟩ := Prod.mk.inj (Except.ok.inj h)
    obtain ⟨rfl, -⟩ := Prod.mk.inj (Except.ok.inj h₀)
    rfl
  | cons call calls ih =>
    obtain ⟨es, rfl, hrest⟩ := askAll_ideal_cons h
    obtain ⟨es₀, rfl, hrest₀⟩ := askAll_ideal_cons h₀
    have hanswer : (d.getIdealMemoryStatus s call).1 = (d.getIdealMemoryStatus s₀ call).1 :=
      congrArg (runIdeal d.memoryConfig call.dramRequestType call.tensor.size) hstatus
    rw [hanswer, ih hanswer hrest hrest₀]

/-- On nothing, where the first tensor has bytes. -/
theorem askAll_ideal_eq (hfirst : ∀ call, calls.head? = some call → call.tensor.size ≠ 0)
    (h : d.askAll false s calls = .ok (es, s')) (h₀ : d.askAll false s₀ calls = .ok (es₀, s₀')) :
    es = es₀ := by
  cases calls with
  | nil =>
    obtain ⟨rfl, -⟩ := Prod.mk.inj (Except.ok.inj h)
    obtain ⟨rfl, -⟩ := Prod.mk.inj (Except.ok.inj h₀)
    rfl
  | cons call calls =>
    obtain ⟨es, rfl, hrest⟩ := askAll_ideal_cons h
    obtain ⟨es₀, rfl, hrest₀⟩ := askAll_ideal_cons h₀
    have hsize := hfirst call rfl
    have hanswer : (d.getIdealMemoryStatus s call).1 = (d.getIdealMemoryStatus s₀ call).1 :=
      (runIdeal_fresh hsize s.execStatus).trans (runIdeal_fresh hsize s₀.execStatus).symm
    rw [hanswer, askAll_ideal_congr hanswer hrest hrest₀]

/-- What the simulator says of a call on a device that has run nothing before. -/
def fresh (d : DeviceMemory) (call : IssueCall) : Except String ExecStatus :=
  freshStatus d.memoryConfig d.memoryScaleFactor d.ramulator call

/-- With it they are what the cache holds in the end. -/
theorem askAll_simulated (h : d.askAll true s calls = .ok (es, s')) :
    (∀ k, (s'.executionTimeCache.lookup k).map Except.ok
        = ((s.executionTimeCache.lookup k).map .ok).or
          ((Memo.first IssueCall.key calls k).map d.fresh)) ∧
      es.map some = calls.map fun call => s'.executionTimeCache.lookup call.key := by
  have hissue : issueAll d.memoryConfig d.memoryScaleFactor d.ramulator s calls = .ok (es, s') := by
    induction calls generalizing s es with
    | nil => exact h
    | cons call calls ih =>
      obtain ⟨⟨e, s₁⟩, hone, h⟩ := bind_eq_ok h
      obtain ⟨⟨es, s₂⟩, hrest, h⟩ := bind_eq_ok h
      obtain ⟨rfl, rfl⟩ := Prod.mk.inj (Except.ok.inj h)
      unfold issueAll
      rw [show issueRamulator d.memoryConfig d.memoryScaleFactor d.ramulator s call = _ from hone]
      show Except.bind (issueAll _ _ _ s₁ calls) _ = _
      rw [ih hrest]
      rfl
  exact Memo.callAll_lookup (issueAll_callAll hissue)

end DeviceMemory

namespace Executor

/-! ### The answers to a candidate -/

/-- The calls of a candidate on the operands of the layer, one after the other. -/
def callsOf (useRamulator : Bool) (layerType : LayerType) (i : AttentionInput)
    (type : ProcessorType) : Except String (List IssueCall) := do
  match ← executorOf layerType type i with
  | none => .ok []
  | some script =>
    let (callss, _) ← script.calls (pimHWConfig i.config type) useRamulator i.tensors
    .ok callss.flatten

section Executions
variable {i : AttentionInput} {layerType : LayerType} {type : ProcessorType} {d : DeviceMemory}
  {u : Bool} {s s' s₀ s₀' : IssueState} {e e₀ : ExecStatus} {ops ops₀ : Operands}

/-- A status is computed from the answers to these calls. -/
theorem executePType_answers (h : executePType d u layerType type i s = .ok (e, ops, s')) :
    ∃ calls es, callsOf u layerType i type = .ok calls ∧ d.askAll u s calls = .ok (es, s') ∧
      ∀ s₀ e₀ ops₀ s₀', executePType d u layerType type i s₀ = .ok (e₀, ops₀, s₀') →
        (∀ es₀, d.askAll u s₀ calls = .ok (es₀, s₀') → es = es₀) → e = e₀ := by
  obtain ⟨r, execStatus, hr, hexec, rfl⟩ := executePType_ok h
  unfold callsOf
  rw [hr]
  rcases r with _ | script
  · obtain ⟨rfl, hrest⟩ := Prod.mk.inj (Except.ok.inj hexec)
    obtain ⟨-, rfl⟩ := Prod.mk.inj hrest
    refine ⟨[], [], rfl, rfl, fun s₀ e₀ ops₀ s₀' h₀ _ => ?_⟩
    obtain ⟨r₀, execStatus₀, hr₀, hexec₀, rfl⟩ := executePType_ok h₀
    obtain rfl := Except.ok.inj (hr.symm.trans hr₀)
    obtain ⟨rfl, -⟩ := Prod.mk.inj (Except.ok.inj hexec₀)
    rfl
  · obtain ⟨callss, ops', answerss, hcalls, hanswers, -, rfl, -, -⟩ := DeviceMemory.execute_ok hexec
    obtain ⟨hflat, hlengths⟩ := DeviceMemory.askEach_flatten hanswers
    refine ⟨callss.flatten, answerss.flatten, ?_, hflat, fun s₀ e₀ ops₀ s₀' h₀ hsame => ?_⟩
    · show Except.bind (script.calls _ u i.tensors) _ = _
      rw [hcalls]
      rfl
    · obtain ⟨r₀, execStatus₀, hr₀, hexec₀, rfl⟩ := executePType_ok h₀
      obtain rfl := Except.ok.inj (hr.symm.trans hr₀)
      obtain ⟨callss₀, _, answerss₀, hcalls₀, hanswers₀, -, rfl, -, -⟩ :=
        DeviceMemory.execute_ok hexec₀
      obtain ⟨rfl, -⟩ := Prod.mk.inj (Except.ok.inj (hcalls.symm.trans hcalls₀))
      obtain ⟨hflat₀, hlengths₀⟩ := DeviceMemory.askEach_flatten hanswers₀
      obtain rfl : answerss = answerss₀ :=
        List.eq_iff_flatten_eq.mpr ⟨hsame _ hflat₀, hlengths.trans hlengths₀.symm⟩
      rfl

theorem executePType_shapes_iff (h : executePType d u layerType type i s = .ok (e, ops, s')) :
    ops.map (·.setShape []) = i.tensors.map (·.setShape []) ∧
      (ops.shapes = i.tensors.shapes ↔ KeepsShapes i layerType type) := by
  rcases executePType_found h with ⟨hspared, -, rfl, -⟩ | ⟨script, execStatus, hscript, hexec, -⟩
  · refine ⟨rfl, iff_of_true rfl ?_⟩
    cases layerType with
    | attentionSum => exact .inl hspared
    | absorbedMlaSum => exact .inl hspared
    | attentionGen => exact .inl hspared
    | mlaGen => exact .inl hspared
    | _ => trivial
  · obtain ⟨hframe, hkeeps⟩ := Script.execute_keeps_iff hexec
    exact ⟨hframe, hkeeps.trans hscript.keeps_iff⟩

/-- Work and times, which are what the candidates are compared by. -/
structure SameTimes (e e' : ExecStatus) : Prop where
  totalDuration : e.totalDuration = e'.totalDuration
  flops : e.flops = e'.flops
  memorySize : e.memorySize = e'.memorySize
  computeUtil : e.computeUtil = e'.computeUtil
  memoryUtil : e.memoryUtil = e'.memoryUtil

/-- Without the simulator they depend on the operands only, not on what the device has done. -/
theorem executePType_sameTimes (hs : s.execStatus.Counts) (hs₀ : s₀.execStatus.Counts)
    (h : executePType d false layerType type i s = .ok (e, ops, s'))
    (h₀ : executePType d false layerType type i s₀ = .ok (e₀, ops₀, s₀')) : SameTimes e e₀ := by
  obtain ⟨r, execStatus, hr, hexec, rfl⟩ := executePType_ok h
  obtain ⟨r₀, execStatus₀, hr₀, hexec₀, rfl⟩ := executePType_ok h₀
  obtain rfl := Except.ok.inj (hr.symm.trans hr₀)
  rcases executorOf_found hr with ⟨rfl, -⟩ | ⟨script, rfl, hscript⟩
  · obtain ⟨rfl, -⟩ := Prod.mk.inj (Except.ok.inj hexec)
    obtain ⟨rfl, -⟩ := Prod.mk.inj (Except.ok.inj hexec₀)
    exact ⟨rfl, rfl, rfl, rfl, rfl⟩
  · have hplain := hscript.plain
    obtain ⟨_, _, answerss, -, hanswers, hlen, rfl, -, -⟩ := DeviceMemory.execute_ok hexec
    obtain ⟨_, _, answerss₀, -, hanswers₀, hlen₀, rfl, -, -⟩ := DeviceMemory.execute_ok hexec₀
    have htotal := Script.status_totalDuration hplain hlen
      (DeviceMemory.askEach_counts hs hanswers).1
    have htotal₀ := Script.status_totalDuration hplain hlen₀
      (DeviceMemory.askEach_counts hs₀ hanswers₀).1
    have hsame : (script.status false answerss).totalDuration
        = (script.status false answerss₀).totalDuration := htotal.trans htotal₀.symm
    have hcharged := hsame
    unfold Script.status at hcharged
    rw [Script.finish_totalDuration hplain, Script.finish_totalDuration hplain] at hcharged
    obtain ⟨hflops, hmemory⟩ : (script.status false answerss).flops = _ ∧ _ = _ :=
      Script.status_work hplain
    obtain ⟨hflops₀, hmemory₀⟩ : (script.status false answerss₀).flops = _ ∧ _ = _ :=
      Script.status_work hplain
    obtain ⟨hcompute, hbytes⟩ := Script.finish_utils hplain
      (Script.charge false {} script.stages answerss)
    obtain ⟨hcompute₀, hbytes₀⟩ := Script.finish_utils hplain
      (Script.charge false {} script.stages answerss₀)
    rw [hcharged] at hcompute hbytes
    exact ⟨hsame, hflops.trans hflops₀.symm, hmemory.trans hmemory₀.symm,
      hcompute.trans hcompute₀.symm, hbytes.trans hbytes₀.symm⟩

/-! ### The turns of the candidates -/

/-- A turn of the loop of `Executor::execution`. -/
structure Turn where
  type : ProcessorType
  state : IssueState
  before : Operands
  status : ExecStatus
  after : Operands

/-- The loop of `Executor::execution`: all candidates are given the same tensors, as the ones
before them have left them. -/
def turns (d : DeviceMemory) (useRamulator : Bool) (layerType : LayerType) (i : AttentionInput) :
    List ProcessorType → Operands → IssueState → Except String (List Turn)
  | [], _, _ => .ok []
  | type :: types, ops, s => do
    let (e, ops', s') ← executePType d useRamulator layerType type { i with tensors := ops } s
    let rest ← turns d useRamulator layerType i types ops' s'
    .ok (⟨type, s, ops, e, ops'⟩ :: rest)

theorem turns_cons {types : List ProcessorType} {ts : List Turn}
    (h : turns d u layerType i (type :: types) ops s = .ok ts) : ∃ e ops' s' rest,
      executePType d u layerType type { i with tensors := ops } s = .ok (e, ops', s') ∧
      turns d u layerType i types ops' s' = .ok rest ∧ ts = ⟨type, s, ops, e, ops'⟩ :: rest := by
  obtain ⟨⟨e, ops', s'⟩, hone, h⟩ := bind_eq_ok h
  obtain ⟨rest, hrest, h⟩ := bind_eq_ok h
  exact ⟨e, ops', s', rest, hone, hrest, (Except.ok.inj h).symm⟩

/-- As long as shapes are kept, every candidate has the operands of the first. -/
theorem turns_kept_iff {types : List ProcessorType} {ts : List Turn}
    (h : turns d u layerType i types i.tensors s = .ok ts) :
    (∀ turn ∈ ts, turn.after.shapes = turn.before.shapes) ↔
      ∀ type ∈ types, KeepsShapes i layerType type := by
  induction types generalizing s ts with
  | nil =>
    obtain rfl := Except.ok.inj h
    simp
  | cons type types ih =>
    obtain ⟨e, ops', s', rest, hone, hrest, rfl⟩ := turns_cons h
    obtain ⟨hframe, hkeeps⟩ := executePType_shapes_iff hone
    rw [List.forall_mem_cons, List.forall_mem_cons]
    constructor
    · rintro ⟨hshapes, hall⟩
      obtain rfl : ops' = i.tensors := Operands.ext_shapes hframe hshapes
      exact ⟨hkeeps.mp hshapes, (ih hrest).mp hall⟩
    · rintro ⟨hkeep, hall⟩
      have hshapes : ops'.shapes = i.tensors.shapes := hkeeps.mpr hkeep
      obtain rfl : ops' = i.tensors := Operands.ext_shapes hframe hshapes
      exact ⟨hshapes, (ih hrest).mpr hall⟩

theorem turns_status {types : List ProcessorType} {ts : List Turn}
    (h : turns d u layerType i types i.tensors s = .ok ts)
    (hkept : ∀ turn ∈ ts, turn.after.shapes = turn.before.shapes) : ∀ turn ∈ ts, ∃ s',
      executePType d u layerType turn.type i turn.state = .ok (turn.status, i.tensors, s') := by
  induction types generalizing s ts with
  | nil =>
    obtain rfl := Except.ok.inj h
    simp
  | cons type types ih =>
    obtain ⟨e, ops', s', rest, hone, hrest, rfl⟩ := turns_cons h
    obtain ⟨hframe, -⟩ := executePType_shapes_iff hone
    obtain ⟨hshapes, hall⟩ := List.forall_mem_cons.mp hkept
    obtain rfl : ops' = i.tensors := Operands.ext_shapes hframe hshapes
    exact List.forall_mem_cons.mpr ⟨⟨s', hone⟩, ih hrest hall⟩

/-- Without the simulator no candidate makes the memory keep a time. -/
theorem turns_counts {types : List ProcessorType} {ts : List Turn} (hs : s.execStatus.Counts)
    (h : turns d false layerType i types ops s = .ok ts) :
    ∀ turn ∈ ts, turn.state.execStatus.Counts := by
  induction types generalizing s ops ts with
  | nil =>
    obtain rfl := Except.ok.inj h
    simp
  | cons type types ih =>
    obtain ⟨e, ops', s', rest, hone, hrest, rfl⟩ := turns_cons h
    exact List.forall_mem_cons.mpr ⟨hs, ih (executePType_counts hs hone) hrest⟩

/-- While shapes are kept, what a candidate keeps of the device is kept by the turns. -/
theorem turns_state {types : List ProcessorType} {ts : List Turn} {I : IssueState → Prop}
    (hstep : ∀ type ∈ types, ∀ s e ops s', I s →
      executePType d u layerType type i s = .ok (e, ops, s') → I s')
    (hs : I s) (h : turns d u layerType i types i.tensors s = .ok ts)
    (hkept : ∀ turn ∈ ts, turn.after.shapes = turn.before.shapes) :
    ∀ turn ∈ ts, turn.type ∈ types ∧ I turn.state := by
  induction types generalizing s ts with
  | nil =>
    obtain rfl := Except.ok.inj h
    simp
  | cons type types ih =>
    obtain ⟨e, ops', s', rest, hone, hrest, rfl⟩ := turns_cons h
    obtain ⟨hframe, -⟩ := executePType_shapes_iff hone
    obtain ⟨hshapes, hall⟩ := List.forall_mem_cons.mp hkept
    obtain rfl : ops' = i.tensors := Operands.ext_shapes hframe hshapes
    obtain ⟨hfirst, hothers⟩ := List.forall_mem_cons.mp hstep
    refine List.forall_mem_cons.mpr ⟨⟨.head _, hs⟩, fun turn hturn => ?_⟩
    obtain ⟨htype, hstate⟩ := ih hothers (hfirst s e _ s' hs hone) hrest hall turn hturn
    exact ⟨.tail _ htype, hstate⟩

/-! ### Candidates that do not disturb each other -/

/-- In whatever order candidates of the layer are taken, each of them leaves the shapes that it
finds, and has the same status. -/
structure Undisturbed (d : DeviceMemory) (u : Bool) (layerType : LayerType) (i : AttentionInput)
    (types : List ProcessorType) (s : IssueState) : Prop where
  shapes : ∀ order, order.Subperm types → ∀ ts, turns d u layerType i order i.tensors s = .ok ts →
    ∀ turn ∈ ts, turn.after.shapes = turn.before.shapes
  status : ∀ order order', order.Subperm types → order'.Subperm types → ∀ ts ts',
    turns d u layerType i order i.tensors s = .ok ts →
    turns d u layerType i order' i.tensors s = .ok ts' →
    ∀ turn ∈ ts, ∀ turn' ∈ ts', turn.type = turn'.type → turn.status = turn'.status

/-- Wherever both calls have a key that is not in the cache, the earliest of either gets the same
status in a fresh run. -/
def KeysAgree (d : DeviceMemory) (s : IssueState) (calls calls' : List IssueCall) : Prop :=
  ∀ k, s.executionTimeCache.lookup k = none → ∀ call call',
    Memo.first IssueCall.key calls k = some call →
    Memo.first IssueCall.key calls' k = some call' → d.fresh call = d.fresh call'

/-- The memory does not tell candidates apart by those before them: with the simulator, the keys of
any two agree; without it, none begins with a tensor without bytes, unless it is the only one. -/
def AnswersAgree (d : DeviceMemory) (u : Bool) (layerType : LayerType) (i : AttentionInput)
    (types : List ProcessorType) (s : IssueState) : Prop :=
  if u then ∀ type ∈ types, ∀ type' ∈ types, ∀ calls calls',
    callsOf true layerType i type = .ok calls → callsOf true layerType i type' = .ok calls' →
    KeysAgree d s calls calls'
  else types.length ≤ 1 ∨ ∀ type ∈ types, ∀ calls, callsOf false layerType i type = .ok calls →
    ∀ call, calls.head? = some call → call.tensor.size ≠ 0

/-- What the cache holds beyond `s₀` is what candidates have put there. -/
def FilledBy (d : DeviceMemory) (layerType : LayerType) (i : AttentionInput)
    (types : List ProcessorType) (s₀ s : IssueState) : Prop :=
  ∀ k, s.executionTimeCache.lookup k = s₀.executionTimeCache.lookup k ∨
    s₀.executionTimeCache.lookup k = none ∧ ∃ type ∈ types, ∃ calls call,
      callsOf true layerType i type = .ok calls ∧ Memo.first IssueCall.key calls k = some call ∧
      (s.executionTimeCache.lookup k).map Except.ok = some (d.fresh call)

variable {types : List ProcessorType}

theorem FilledBy.executePType (hs : FilledBy d layerType i types s₀ s) (htype : type ∈ types)
    (h : executePType d true layerType type i s = .ok (e, ops, s')) :
    FilledBy d layerType i types s₀ s' := by
  obtain ⟨calls, es, hcalls, hask, -⟩ := executePType_answers h
  obtain ⟨hlookup, -⟩ := DeviceMemory.askAll_simulated hask
  intro k
  have hk := hlookup k
  cases hold : s.executionTimeCache.lookup k with
  | some e =>
    -- entries stay
    rw [hold] at hk
    obtain ⟨e', he', heq⟩ := Option.map_eq_some_iff.mp hk
    obtain rfl := Except.ok.inj heq
    rw [he', ← hold]
    exact hs k
  | none =>
    rw [hold, Option.map_none, Option.none_or] at hk
    have hnone : s₀.executionTimeCache.lookup k = none := by
      rcases hs k with hsame | ⟨hnone, -⟩
      · exact hsame.symm.trans hold
      · exact hnone
    cases hfirst : Memo.first IssueCall.key calls k with
    | none =>
      rw [hfirst, Option.map_none] at hk
      rw [Option.map_eq_none_iff.mp hk, hnone]
      exact .inl rfl
    | some call =>
      rw [hfirst, Option.map_some] at hk
      exact .inr ⟨hnone, type, htype, calls, call, hcalls, hfirst, hk⟩

/-- So two caches agree on what both hold. -/
theorem FilledBy.lookup_eq (hagree : AnswersAgree d true layerType i types s)
    (h : FilledBy d layerType i types s s₀) (h' : FilledBy d layerType i types s s₀')
    {k : CacheKey} (hk : s₀.executionTimeCache.lookup k ≠ none)
    (hk' : s₀'.executionTimeCache.lookup k ≠ none) :
    s₀.executionTimeCache.lookup k = s₀'.executionTimeCache.lookup k := by
  rcases h k with hsame | ⟨hnone, type, htype, calls, call, hcalls, hfirst, hfresh⟩
  · rcases h' k with hsame' | ⟨hnone', -⟩
    · exact hsame.trans hsame'.symm
    · exact absurd (hsame.trans hnone') hk
  · rcases h' k with hsame' | ⟨-, type', htype', calls', call', hcalls', hfirst', hfresh'⟩
    · exact absurd (hsame'.trans hnone) hk'
    · have hone := hagree type htype type' htype' calls calls' hcalls hcalls' k hnone call call'
        hfirst hfirst'
      rw [hone, ← hfresh'] at hfresh
      exact Option.map_injective (fun _ _ => Except.ok.inj) hfresh

/-- With the simulator, from any two caches that the candidates have filled. -/
theorem executePType_of_agree (hagree : AnswersAgree d true layerType i types s)
    (htype : type ∈ types) (hs : FilledBy d layerType i types s s₀)
    (hs' : FilledBy d layerType i types s s₀') {s₁ s₁' : IssueState}
    (h : executePType d true layerType type i s₀ = .ok (e, ops, s₁))
    (h' : executePType d true layerType type i s₀' = .ok (e₀, ops₀, s₁')) : e = e₀ := by
  obtain ⟨calls, es, -, hask, hsame⟩ := executePType_answers h
  obtain ⟨-, hanswers⟩ := DeviceMemory.askAll_simulated hask
  refine hsame s₀' e₀ ops₀ s₁' h' fun es₀ hask₀ => ?_
  obtain ⟨-, hanswers₀⟩ := DeviceMemory.askAll_simulated hask₀
  -- what has been answered is in the cache
  have hheld : ∀ {es : List ExecStatus} {s₁ : IssueState},
      es.map some = calls.map (fun call => s₁.executionTimeCache.lookup call.key) →
      ∀ call ∈ calls, s₁.executionTimeCache.lookup call.key ≠ none := by
    intro es s₁ hes call hcall hnone
    have hmem : none ∈ es.map some := hes ▸ List.mem_map.mpr ⟨call, hcall, hnone⟩
    simp at hmem
  have hlookups : calls.map (fun call => s₁.executionTimeCache.lookup call.key)
      = calls.map fun call => s₁'.executionTimeCache.lookup call.key :=
    List.map_congr_left fun call hcall => FilledBy.lookup_eq hagree (hs.executePType htype h)
      (hs'.executePType htype h') (hheld hanswers call hcall) (hheld hanswers₀ call hcall)
  exact List.map_injective_iff.mpr (Option.some_injective _)
    (hanswers.trans (hlookups.trans hanswers₀.symm))

/-- After another candidate, one is answered as it would be at first only if their keys agree. -/
theorem keysAgree_of_answers {calls calls' : List IssueCall} {es es' es₁ : List ExecStatus}
    {s₁ s₂ : IssueState} (hother : d.askAll true s calls' = .ok (es', s'))
    (hfirst : d.askAll true s calls = .ok (es, s₁)) (hnext : d.askAll true s' calls = .ok (es₁, s₂))
    (hsame : es = es₁) : KeysAgree d s calls calls' := by
  obtain ⟨hfilled, -⟩ := DeviceMemory.askAll_simulated hother
  obtain ⟨hlookup, hanswers⟩ := DeviceMemory.askAll_simulated hfirst
  obtain ⟨hlookup', hanswers'⟩ := DeviceMemory.askAll_simulated hnext
  intro k hnone call call' hcall hcall'
  have hmem : call ∈ calls := List.mem_of_find?_eq_some hcall
  have hkey : call.key = k := by simpa using List.find?_some hcall
  have heq := List.map_inj_left.mp (hanswers.symm.trans (hsame ▸ hanswers')) call hmem
  have hown := hlookup k
  have hkept := hlookup' k
  rw [hfilled k, hnone, hcall', Option.map_none, Option.none_or, Option.map_some,
    Option.some_or, ← hkey, ← heq, hkey] at hkept
  rw [hnone, hcall, Option.map_none, Option.none_or, Option.map_some, hkept] at hown
  exact (Option.some.inj hown).symm

theorem turns_first (htypes : types.length ≤ 1) {ts : List Turn}
    (h : turns d u layerType i types ops s = .ok ts) : ∀ turn ∈ ts, turn.state = s := by
  rcases types with _ | ⟨type, _ | _⟩
  · obtain rfl := Except.ok.inj h
    simp
  · obtain ⟨e, ops', s', rest, -, hrest, rfl⟩ := turns_cons h
    obtain rfl := Except.ok.inj hrest
    simp
  · simp at htypes

/-- Where shapes are kept and the memory answers alike, the order of the candidates is all one. -/
theorem undisturbed_of_agree (hkeeps : ∀ type ∈ types, KeepsShapes i layerType type)
    (hagree : AnswersAgree d u layerType i types s) : Undisturbed d u layerType i types s := by
  have hshapes : ∀ order, order.Subperm types → ∀ ts,
      turns d u layerType i order i.tensors s = .ok ts →
      ∀ turn ∈ ts, turn.after.shapes = turn.before.shapes :=
    fun order horder ts h => (turns_kept_iff h).mpr fun type htype =>
      hkeeps type (horder.subset htype)
  refine ⟨hshapes, fun order order' horder horder' ts ts' h h' turn hturn turn' hturn' heq => ?_⟩
  obtain ⟨s₁, hone⟩ := turns_status h (hshapes order horder ts h) turn hturn
  obtain ⟨s₁', hone'⟩ := turns_status h' (hshapes order' horder' ts' h') turn' hturn'
  rw [← heq] at hone'
  have hmem : turn.type ∈ types :=
    horder.subset (turns_state (I := fun _ => True) (fun _ _ _ _ _ _ _ _ => trivial) trivial h
      (hshapes order horder ts h) turn hturn).1
  cases u with
  | true =>
    have hfilled : ∀ order, order.Subperm types → ∀ ts,
        turns d true layerType i order i.tensors s = .ok ts →
        ∀ turn ∈ ts, FilledBy d layerType i types s turn.state := by
      intro order horder ts h turn hturn
      refine (turns_state (fun type htype s e ops s' hs hrun => ?_) (fun k => .inl rfl) h
        (hshapes order horder ts h) turn hturn).2
      exact hs.executePType (horder.subset htype) hrun
    exact executePType_of_agree hagree hmem (hfilled order horder ts h turn hturn)
      (hfilled order' horder' ts' h' turn' hturn') hone hone'
  | false =>
    rcases hagree with hlength | hfull
    · rw [turns_first (horder.length_le.trans hlength) h turn hturn] at hone
      rw [turns_first (horder'.length_le.trans hlength) h' turn' hturn'] at hone'
      exact congrArg Prod.fst (Except.ok.inj (hone.symm.trans hone'))
    · obtain ⟨calls, es, hcalls, hask, hsame⟩ := executePType_answers hone
      exact hsame _ _ _ _ hone' fun es₀ hask₀ =>
        DeviceMemory.askAll_ideal_eq (hfull turn.type hmem calls hcalls) hask hask₀

/-- Candidates leave the operands alone exactly where each of them finds the shapes that it would
leave, and where the memory answers alike too, the order of the candidates is all one. With the
simulator, a candidate is otherwise answered for another one. Without it, the times are the ones of
a first turn in any case. -/
theorem candidates_undisturbed {ts : List Turn}
    (h : turns d u layerType i types i.tensors s = .ok ts) :
    ((∀ turn ∈ ts, turn.after.shapes = turn.before.shapes) ↔
        ∀ type ∈ types, KeepsShapes i layerType type) ∧
      (Undisturbed d u layerType i types s → ∀ type ∈ types, KeepsShapes i layerType type) ∧
      ((∀ type ∈ types, KeepsShapes i layerType type) → AnswersAgree d u layerType i types s →
        Undisturbed d u layerType i types s) ∧
      (∀ calls calls' es es' es₁ s' s₁ s₂, d.askAll true s calls' = .ok (es', s') →
        d.askAll true s calls = .ok (es, s₁) → d.askAll true s' calls = .ok (es₁, s₂) →
        es = es₁ → KeysAgree d s calls calls') ∧
      ((∀ type ∈ types, KeepsShapes i layerType type) → u = false → s.execStatus.Counts →
        ∀ turn ∈ ts, ∀ e ops s', executePType d u layerType turn.type i s = .ok (e, ops, s') →
          SameTimes turn.status e) := by
  refine ⟨turns_kept_iff h, fun hundisturbed => ?_, undisturbed_of_agree, ?_, ?_⟩
  · exact (turns_kept_iff h).mp (hundisturbed.shapes types (List.Subperm.refl types) ts h)
  · intro calls calls' es es' es₁ s' s₁ s₂ hother hfirst hnext hsame
    exact keysAgree_of_answers hother hfirst hnext hsame
  · rintro hkeeps rfl hs turn hturn e ops s' hfirst
    obtain ⟨s'', hone⟩ := turns_status h ((turns_kept_iff h).mpr hkeeps) turn hturn
    exact executePType_sameTimes (turns_counts hs h turn hturn) hs hone hfirst

end Executions

/-- A batch in decode whose caches have the tokens that are read on the logic die and in PIM. -/
def onPaddedCaches : AttentionInput :=
  { besideWaiting 63 with
    tensors := [⟨2, [2, 64], 0, Nat.two_pos⟩, ⟨2, [68, 8], 0, Nat.two_pos⟩,
      ⟨2, [68, 8], 0, Nat.two_pos⟩] }

theorem candidates_undisturbed_of_padded :
    Undisturbed idealMemory false .attentionGen onPaddedCaches [.logic, .pim] {} := by
  obtain ⟨ts, h⟩ : ∃ ts, turns idealMemory false .attentionGen onPaddedCaches [.logic, .pim]
      onPaddedCaches.tensors {} = .ok ts := ⟨_, rfl⟩
  have hfit : CachesFit onPaddedCaches [68, 8] [68, 8] := ⟨rfl, rfl⟩
  refine (candidates_undisturbed h).2.2.1 (fun type htype => ?_)
    (.inr fun type htype calls hcalls call hcall => ?_)
  · rcases List.mem_pair.mp htype with rfl | rfl
    · exact .inr hfit
    · exact .inr hfit
  · rcases List.mem_pair.mp htype with rfl | rfl
    · obtain rfl := Except.ok.inj hcalls
      obtain rfl := Option.some.inj hcall
      decide +kernel
    · obtain rfl := Except.ok.inj hcalls
      obtain rfl := Option.some.inj hcall
      decide +kernel

/-- A prompt of 400 tokens beside the keys and values of eight heads. -/
def onPrompt : AttentionInput where
  config := rooflineConfig
  tensors := [⟨2, [400, 80], 0, Nat.two_pos⟩, ⟨2, [400, 64], 0, Nat.two_pos⟩]
  sequencesMetadata := { BatchedSequence.create 0 0 with
    sequence := [{ Sequence.start 0 0 400 8 with numProcessToken := 400 }] }
  layerInfo := {}

/-- A simulator that counts the commands for rank 1. -/
def rankOne : DeviceMemory where
  memoryConfig := hbm3_80GB
  ramulator l := { issuedDramCmd t := if t = .kREAD then l.countP (·.addrVec.rank == 1) else 0 }

/-- A linear layer with an input of 320 bundles. -/
def onSharedKey : AttentionInput where
  config := rooflineConfig
  tensors := [⟨2, [2, 2560], 0, Nat.two_pos⟩, ⟨2, [2560, 1], 0, Nat.two_pos⟩,
    ⟨2, [2, 1], 0, Nat.two_pos⟩]
  sequencesMetadata := BatchedSequence.create 0 0
  layerInfo := {}

/-- The GPU leaves the prompt without its keys and values, and PIM then reads less of it. The GPU and
the logic die read the input of the linear layer with one key, although it is mapped to two ranks
for the one and to one rank for the other. -/
theorem candidates_disturb :
    (∃ ts ts',
      turns idealMemory false .attentionSum onPrompt [.gpu, .pim] onPrompt.tensors {} = .ok ts ∧
      turns idealMemory false .attentionSum onPrompt [.pim, .gpu] onPrompt.tensors {} = .ok ts' ∧
      (∃ turn ∈ ts, turn.after.shapes ≠ turn.before.shapes) ∧
      ∃ turn ∈ ts, ∃ turn' ∈ ts', turn.type = turn'.type ∧ turn.status ≠ turn'.status) ∧
    (turns rankOne true .linear onSharedKey [.gpu, .logic] onSharedKey.tensors {}).map
        (·.map fun turn => (turn.type, turn.status.readCount)) = .ok [(.gpu, 2), (.logic, 2)] ∧
    (turns rankOne true .linear onSharedKey [.logic, .gpu] onSharedKey.tensors {}).map
        (·.map fun turn => (turn.type, turn.status.readCount)) = .ok [(.logic, 0), (.gpu, 0)] := by
  refine ⟨⟨_, _, rfl, rfl, ⟨_, .head _, ?_⟩, _, .tail _ (.head _), _, .head _, rfl, ?_⟩, ?_, ?_⟩
  · decide +kernel
  · decide +kernel
  · decide +kernel
  · decide +kernel

end Executor
end LlmSystem
