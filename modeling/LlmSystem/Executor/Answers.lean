import LlmSystem.Executor.Scripted

/-!
What the memory answers, whatever it has been asked before: the time that it took itself, and no
time of a stage.
-/
namespace LlmSystem

open Runs

/-- No time but that of the memory. -/
structure ExecStatus.MemoryOnly (e : ExecStatus) : Prop where
  totalDuration : e.totalDuration = 0
  qkDuration : e.qkDuration = 0
  softmaxDuration : e.softmaxDuration = 0
  scoreVDuration : e.scoreVDuration = 0

/-- The durations that the stages of an attention layer add to or set. -/
structure ExecStatus.Times (e : ExecStatus) (total qk softmax scoreV : ℚ) : Prop where
  totalDuration : e.totalDuration = total
  qkDuration : e.qkDuration = qk
  softmaxDuration : e.softmaxDuration = softmax
  scoreVDuration : e.scoreVDuration = scoreV

section Times
variable {total qk softmax scoreV : ℚ}

theorem ExecStatus.foldl_add_times {answers : List ExecStatus} (h : ∀ a ∈ answers, a.MemoryOnly)
    {e : ExecStatus} (he : e.Times total qk softmax scoreV) :
    (answers.foldl add e).Times total qk softmax scoreV := by
  induction answers generalizing e with
  | nil => exact he
  | cons a answers ih =>
    obtain ⟨ha, hanswers⟩ := List.forall_mem_cons.mp h
    apply ih hanswers
    constructor
    · simp [add, ha.totalDuration, he.totalDuration]
    · simp [add, ha.qkDuration, he.qkDuration]
    · simp [add, ha.softmaxDuration, he.softmaxDuration]
    · simp [add, ha.scoreVDuration, he.scoreVDuration]

/-- The end of a script does not change them, unless it reports them itself. -/
theorem Script.finish_times {script : Script}
    (hreport : ∀ e : ExecStatus, e.Times total qk softmax scoreV →
      (script.report e).Times total qk softmax scoreV)
    {e : ExecStatus} (he : e.Times total qk softmax scoreV) :
    (script.finish e).Times total qk softmax scoreV := by
  unfold finish
  dsimp only
  apply hreport
  split_ifs
  · exact ⟨he.totalDuration, he.qkDuration, he.softmaxDuration, he.scoreVDuration⟩
  · exact ⟨he.totalDuration, he.qkDuration, he.softmaxDuration, he.scoreVDuration⟩

end Times

namespace DeviceMemory
variable {d : DeviceMemory} {useRamulator : Bool} {s s' : IssueState} {call : IssueCall}
  {e : ExecStatus}

/-- What a device comes to: it asks its memory, and finds in the cache of the cluster what another
device has put there. -/
inductive Reached (d : DeviceMemory) : IssueState → Prop
  | start : Reached d {}
  | ask {u : Bool} {s₁ s₂ : IssueState} {c : IssueCall} {a : ExecStatus} :
      Reached d s₁ → d.ask u s₁ c = .ok (a, s₂) → Reached d s₂
  | share {s₁ s₂ : IssueState} : Reached d s₁ → Reached d s₂ →
      Reached d { s₁ with executionTimeCache := s₂.executionTimeCache }

/-- All that is remembered satisfies `answer`. -/
def Remembers (answer : ExecStatus → Prop) (s : IssueState) : Prop :=
  answer s.execStatus ∧ ∀ entry ∈ s.executionTimeCache, answer entry.2

/-- An answer is remembered, or a new one. -/
theorem remembers_ask {answer : ExecStatus → Prop}
    (hideal : ∀ {s call}, answer s.execStatus → answer (d.getIdealMemoryStatus s call).1)
    (hsimulated : ∀ {call e e'}, runRamulator d.memoryConfig d.memoryScaleFactor d.ramulator call e
      = .ok e' → answer e')
    (hs : Remembers answer s) (h : d.ask useRamulator s call = .ok (e, s')) :
    answer e ∧ Remembers answer s' := by
  unfold ask issueRamulator at h
  cases useRamulator with
  | false =>
    obtain ⟨rfl, rfl⟩ := Prod.mk.inj (Except.ok.inj h)
    have hnew : answer (d.getIdealMemoryStatus s call).1 := hideal hs.1
    exact ⟨hnew, hnew, hs.2⟩
  | true =>
    cases hlookup : s.executionTimeCache.lookup call.key with
    | some remembered =>
      rw [if_pos rfl, hlookup] at h
      obtain ⟨rfl, rfl⟩ := Prod.mk.inj (Except.ok.inj h)
      obtain ⟨l, l', hcache, -⟩ := List.lookup_eq_some_iff.mp hlookup
      refine ⟨hs.2 (call.key, remembered) ?_, hs⟩
      simp [hcache]
    | none =>
      rw [if_pos rfl, hlookup] at h
      obtain ⟨e', hrun, h⟩ := bind_eq_ok h
      obtain ⟨rfl, rfl⟩ := Prod.mk.inj (Except.ok.inj h)
      have hnew : answer e' := hsimulated hrun
      exact ⟨hnew, hnew, List.forall_mem_cons.mpr ⟨hnew, hs.2⟩⟩

theorem memoryOnly_ask (hs : Remembers ExecStatus.MemoryOnly s)
    (h : d.ask useRamulator s call = .ok (e, s')) :
    e.MemoryOnly ∧ Remembers ExecStatus.MemoryOnly s' := by
  refine remembers_ask ?_ ?_ hs h
  · intro s call hold
    unfold getIdealMemoryStatus runIdeal
    dsimp only
    split
    · exact hold
    · split <;> exact ⟨rfl, rfl, rfl, rfl⟩
  · intro call e e' hrun
    obtain ⟨commands, -, hrun⟩ := bind_eq_ok hrun
    obtain rfl := Except.ok.inj hrun
    exact ⟨rfl, rfl, rfl, rfl⟩

/-- What holds of the first status and of every answer holds of all that is remembered. -/
theorem Reached.remembers {answer : ExecStatus → Prop} (hs : d.Reached s) (hstart : answer {})
    (hask : ∀ {useRamulator s s' call e}, Remembers answer s →
      d.ask useRamulator s call = .ok (e, s') → answer e ∧ Remembers answer s') :
    Remembers answer s := by
  induction hs with
  | start => exact ⟨hstart, by simp⟩
  | ask _ h ih => exact (hask ih h).2
  | share _ _ ih ih' => exact ⟨ih.1, ih'.2⟩

theorem Reached.askEach_memoryOnly {callss : List (List IssueCall)}
    {answerss : List (List ExecStatus)} (hs : d.Reached s)
    (h : d.askEach useRamulator s callss = .ok (answerss, s')) :
    ∀ answers ∈ answerss, ∀ e ∈ answers, e.MemoryOnly :=
  (askEach_all ExecStatus.MemoryOnly (Remembers ExecStatus.MemoryOnly) memoryOnly_ask
    (hs.remembers ⟨rfl, rfl, rfl, rfl⟩ memoryOnly_ask) h).1

end DeviceMemory

/-! ### The time of a stage -/

namespace Stage
variable {stage : Stage} {useRamulator : Bool} {answers : List ExecStatus} {e : ExecStatus}

/-- The memory time that a stage counts with. -/
def memoryTime (stage : Stage) (useRamulator : Bool) (answers : List ExecStatus) : ℚ :=
  if useRamulator then stage.measured (answers.map (·.memoryDuration)) else stage.memoryDuration

/-- The time by which a stage delays the result. -/
def time (stage : Stage) (useRamulator : Bool) (answers : List ExecStatus) : ℚ :=
  stage.clock stage.computeDuration (stage.memoryTime useRamulator answers)

/-- The time of a stage is added, and what else becomes of the durations is up to its record. -/
theorem charge_times {total qk softmax scoreV total' qk' softmax' scoreV' : ℚ}
    (hfrom : stage.fromStatus = false) (hanswers : ∀ a ∈ answers, a.MemoryOnly)
    (hrecord : ∀ e : ExecStatus,
      e.Times (total + stage.time useRamulator answers) qk softmax scoreV →
      (stage.record (stage.time useRamulator answers) e).Times total' qk' softmax' scoreV')
    (he : e.Times total qk softmax scoreV) :
    (stage.charge useRamulator e answers).Times total' qk' softmax' scoreV' := by
  have hadded := ExecStatus.foldl_add_times hanswers he
  have htime : stage.charge useRamulator e answers
      = stage.record (stage.time useRamulator answers)
          { answers.foldl ExecStatus.add e with
            totalDuration := (answers.foldl ExecStatus.add e).totalDuration
              + stage.time useRamulator answers } := by
    simp [charge, time, memoryTime, hfrom]
  rw [htime]
  apply hrecord
  exact ⟨by rw [hadded.totalDuration], hadded.qkDuration, hadded.softmaxDuration,
    hadded.scoreVDuration⟩

end Stage

/-! ### The time of the memory -/

/-- The memory time of all answers. -/
def answeredTime (answerss : List (List ExecStatus)) : ℚ :=
  (answerss.map fun answers => (answers.map (·.memoryDuration)).sum).sum

/-- One answer for each of the transfers. -/
def Answered (useRamulator : Bool) (stages : List Stage) (answerss : List (List ExecStatus)) :
    Prop :=
  List.Forall₂ (fun stage answers => answers.length = (stage.transfers useRamulator).length)
    stages answerss

section Answered
variable {d : DeviceMemory} {useRamulator : Bool} {s s' : IssueState}

theorem DeviceMemory.askAll_length {calls : List IssueCall} {answers : List ExecStatus}
    (h : d.askAll useRamulator s calls = .ok (answers, s')) : answers.length = calls.length := by
  induction calls generalizing s answers with
  | nil =>
    obtain ⟨rfl, -⟩ := Prod.mk.inj (Except.ok.inj h)
    rfl
  | cons call calls ih =>
    obtain ⟨⟨e, s₁⟩, -, h⟩ := bind_eq_ok h
    obtain ⟨⟨es, s₂⟩, hrest, h⟩ := bind_eq_ok h
    obtain ⟨rfl, rfl⟩ := Prod.mk.inj (Except.ok.inj h)
    rw [List.length_cons, List.length_cons, ih hrest]

theorem answered_of_askEach {layerType : LayerType} {pimHWConfig : PIMHWConfig}
    {stages : List Stage} {ops ops' : Operands} {callss : List (List IssueCall)}
    {answerss : List (List ExecStatus)}
    (hcalls : Script.stageCalls layerType pimHWConfig useRamulator stages ops = .ok (callss, ops'))
    (h : d.askEach useRamulator s callss = .ok (answerss, s')) :
    Answered useRamulator stages answerss := by
  induction stages generalizing ops callss s answerss with
  | nil =>
    obtain ⟨rfl, -⟩ := Prod.mk.inj (Except.ok.inj hcalls)
    obtain ⟨rfl, -⟩ := Prod.mk.inj (Except.ok.inj h)
    exact .nil
  | cons stage stages ih =>
    obtain ⟨calls, ops₁, callss, hone, hrest, rfl⟩ := Script.stageCalls_cons hcalls
    obtain ⟨⟨es, s₁⟩, hanswers, h⟩ := bind_eq_ok h
    obtain ⟨⟨ess, s₂⟩, hanswerss, h⟩ := bind_eq_ok h
    obtain ⟨rfl, rfl⟩ := Prod.mk.inj (Except.ok.inj h)
    refine .cons ?_ (ih hrest hanswerss)
    rw [DeviceMemory.askAll_length hanswers, Transfer.calls_length hone]

end Answered

namespace Executor

/-- The memory time of all requests that a layer issues to the simulator. -/
def simulatedTime (d : DeviceMemory) (layerType : LayerType) (type : ProcessorType)
    (i : AttentionInput) (s : IssueState) : Except String ℚ := do
  match ← executorOf layerType type i with
  | none => .ok 0
  | some script =>
    let (callss, _) ← script.calls (pimHWConfig i.config type) true i.tensors
    let (answerss, _) ← d.askEach true s callss
    .ok (answeredTime answerss)

/-- A layer that does not return at once reports what its script makes of the answers. -/
theorem executePType_answered {d : DeviceMemory} {useRamulator : Bool} {layerType : LayerType}
    {type : ProcessorType} {i : AttentionInput} {s s' : IssueState} {e : ExecStatus}
    {ops' : Operands} {script : Script}
    (hscript : executorOf layerType type i = .ok (some script))
    (h : executePType d useRamulator layerType type i s = .ok (e, ops', s')) :
    ∃ callss answerss, Answered useRamulator script.stages answerss ∧
      d.askEach useRamulator s callss = .ok (answerss, s') ∧
      e = { script.status useRamulator answerss with processorType := type } ∧
      (useRamulator = true → simulatedTime d layerType type i s = .ok (answeredTime answerss)) := by
  obtain ⟨script', execStatus, hscript', hexec, rfl⟩ := executePType_ok h
  obtain rfl := Except.ok.inj (hscript.symm.trans hscript')
  obtain ⟨callss, ops'', answerss, hcalls, hanswers, -, rfl, -, -⟩ := DeviceMemory.execute_ok hexec
  refine ⟨callss, answerss, answered_of_askEach hcalls hanswers, hanswers, rfl, ?_⟩
  rintro rfl
  unfold simulatedTime
  rw [hscript]
  show Except.bind (script.calls _ true i.tensors) _ = _
  rw [hcalls]
  show Except.bind (d.askEach true s callss) _ = _
  rw [hanswers]
  rfl

/-- One that does reports nothing. -/
theorem executePType_spared {d : DeviceMemory} {useRamulator : Bool} {layerType : LayerType}
    {type : ProcessorType} {i : AttentionInput} {s s' : IssueState} {e : ExecStatus}
    {ops' : Operands} (hscript : executorOf layerType type i = .ok none)
    (h : executePType d useRamulator layerType type i s = .ok (e, ops', s')) :
    e = { processorType := type } := by
  obtain ⟨script, execStatus, hscript', hexec, rfl⟩ := executePType_ok h
  obtain rfl := Except.ok.inj (hscript.symm.trans hscript')
  obtain ⟨rfl, -⟩ := Prod.mk.inj (Except.ok.inj hexec)
  rfl

end Executor
end LlmSystem
