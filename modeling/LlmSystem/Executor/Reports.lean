import LlmSystem.Executor.Dispatch

/-! What every executor reports: the work of its stages and, without the simulator, their times. -/
namespace LlmSystem

open Runs

/-! ### Fields that further fields leave alone -/

/-- The fields that are computed from the stages. -/
structure KeepsWork (f : ExecStatus → ExecStatus) : Prop where
  totalDuration : ∀ e, (f e).totalDuration = e.totalDuration
  flops : ∀ e, (f e).flops = e.flops
  memorySize : ∀ e, (f e).memorySize = e.memorySize
  computeUtil : ∀ e, (f e).computeUtil = e.computeUtil
  memoryUtil : ∀ e, (f e).memoryUtil = e.memoryUtil

theorem KeepsWork.refl : KeepsWork fun e => e :=
  ⟨fun _ => rfl, fun _ => rfl, fun _ => rfl, fun _ => rfl, fun _ => rfl⟩

/-- Stages and the end of a script only add to these fields; the memory time of `exec_status` is
used in a script of one stage only. -/
structure Script.Plain (script : Script) : Prop where
  record : ∀ stage ∈ script.stages, ∀ total, KeepsWork (stage.record total)
  report : KeepsWork script.report
  fromStatus : script.stages.length = 1 ∨ ∀ stage ∈ script.stages, stage.fromStatus = false

/-! ### The answers of the memory -/

/-- The status of a memory that is not simulated only counts commands. -/
def ExecStatus.Counts (e : ExecStatus) : Prop := e.totalDuration = 0 ∧ e.memoryDuration = 0

namespace DeviceMemory
variable {d : DeviceMemory} {useRamulator : Bool} {s s' : IssueState}

theorem counts_getIdealMemoryStatus (hs : s.execStatus.Counts) (call : IssueCall) :
    (d.getIdealMemoryStatus s call).1.Counts ∧
      (d.getIdealMemoryStatus s call).2.execStatus.Counts := by
  suffices h : (d.getIdealMemoryStatus s call).1.Counts from ⟨h, h⟩
  unfold getIdealMemoryStatus runIdeal
  dsimp only
  split
  · exact hs
  · split <;> exact ⟨rfl, rfl⟩

theorem askEach_length {callss : List (List IssueCall)} {answerss : List (List ExecStatus)}
    (h : d.askEach useRamulator s callss = .ok (answerss, s')) :
    answerss.length = callss.length := by
  induction callss generalizing s s' answerss with
  | nil =>
    obtain ⟨rfl, -⟩ := Prod.mk.inj (Except.ok.inj h)
    rfl
  | cons calls callss ih =>
    obtain ⟨⟨es, s₁⟩, -, h⟩ := bind_eq_ok h
    obtain ⟨⟨ess, s₂⟩, hrest, h⟩ := bind_eq_ok h
    obtain ⟨rfl, -⟩ := Prod.mk.inj (Except.ok.inj h)
    rw [List.length_cons, List.length_cons, ih hrest]

/-- The invariant rule of the memory: what one question keeps, all questions keep. -/
theorem askAll_all (answer : ExecStatus → Prop) (state : IssueState → Prop)
    (hask : ∀ {s s' call e}, state s → d.ask useRamulator s call = .ok (e, s') →
      answer e ∧ state s')
    {calls : List IssueCall} {statuses : List ExecStatus} (hs : state s)
    (h : d.askAll useRamulator s calls = .ok (statuses, s')) :
    (∀ e ∈ statuses, answer e) ∧ state s' := by
  induction calls generalizing s statuses with
  | nil =>
    obtain ⟨rfl, rfl⟩ := Prod.mk.inj (Except.ok.inj h)
    exact ⟨by simp, hs⟩
  | cons call calls ih =>
    obtain ⟨⟨e, s₁⟩, hone, h⟩ := bind_eq_ok h
    obtain ⟨⟨es, s₂⟩, hrest, h⟩ := bind_eq_ok h
    obtain ⟨rfl, rfl⟩ := Prod.mk.inj (Except.ok.inj h)
    obtain ⟨he, hs₁⟩ := hask hs hone
    obtain ⟨hes, hs'⟩ := ih hs₁ hrest
    exact ⟨List.forall_mem_cons.mpr ⟨he, hes⟩, hs'⟩

theorem askEach_all (answer : ExecStatus → Prop) (state : IssueState → Prop)
    (hask : ∀ {s s' call e}, state s → d.ask useRamulator s call = .ok (e, s') →
      answer e ∧ state s')
    {callss : List (List IssueCall)} {answerss : List (List ExecStatus)} (hs : state s)
    (h : d.askEach useRamulator s callss = .ok (answerss, s')) :
    (∀ answers ∈ answerss, ∀ e ∈ answers, answer e) ∧ state s' := by
  induction callss generalizing s answerss with
  | nil =>
    obtain ⟨rfl, rfl⟩ := Prod.mk.inj (Except.ok.inj h)
    exact ⟨by simp, hs⟩
  | cons calls callss ih =>
    obtain ⟨⟨es, s₁⟩, hone, h⟩ := bind_eq_ok h
    obtain ⟨⟨ess, s₂⟩, hrest, h⟩ := bind_eq_ok h
    obtain ⟨rfl, rfl⟩ := Prod.mk.inj (Except.ok.inj h)
    obtain ⟨hes, hs₁⟩ := askAll_all answer state hask hs hone
    obtain ⟨hess, hs'⟩ := ih hs₁ hrest
    exact ⟨List.forall_mem_cons.mpr ⟨hes, hess⟩, hs'⟩

theorem askEach_counts {callss : List (List IssueCall)} {answerss : List (List ExecStatus)}
    (hs : s.execStatus.Counts) (h : d.askEach false s callss = .ok (answerss, s')) :
    (∀ answers ∈ answerss, ∀ e ∈ answers, e.Counts) ∧ s'.execStatus.Counts := by
  apply askEach_all ExecStatus.Counts (fun s => s.execStatus.Counts) _ hs h
  intro s s' call e hs hone
  obtain ⟨rfl, rfl⟩ := Prod.mk.inj (Except.ok.inj hone)
  exact counts_getIdealMemoryStatus hs call

end DeviceMemory

/-! ### Stages and scripts -/

theorem Transfer.calls_length {layerType : LayerType} {pimHWConfig : PIMHWConfig}
    {transfers : List Transfer} {ops ops' : Operands} {calls : List IssueCall}
    (h : Transfer.calls layerType pimHWConfig transfers ops = .ok (calls, ops')) :
    calls.length = transfers.length := by
  induction transfers generalizing ops calls with
  | nil =>
    obtain ⟨rfl, -⟩ := Prod.mk.inj (Except.ok.inj h)
    rfl
  | cons t ts ih =>
    obtain ⟨c, ops₁, cs, -, hrest, rfl⟩ := Transfer.calls_cons h
    rw [List.length_cons, List.length_cons, ih hrest]

namespace ExecStatus

@[simp] theorem add_totalDuration (e a : ExecStatus) :
    (e.add a).totalDuration = e.totalDuration + a.totalDuration := rfl

@[simp] theorem add_memoryDuration (e a : ExecStatus) :
    (e.add a).memoryDuration = e.memoryDuration + a.memoryDuration := rfl

theorem foldl_add_flops (answers : List ExecStatus) (e : ExecStatus) :
    (answers.foldl add e).flops = e.flops ∧ (answers.foldl add e).memorySize = e.memorySize := by
  induction answers generalizing e with
  | nil => exact ⟨rfl, rfl⟩
  | cons a answers ih => exact ih (e.add a)

theorem foldl_add_counts {answers : List ExecStatus} (h : ∀ a ∈ answers, a.Counts)
    (e : ExecStatus) : (answers.foldl add e).totalDuration = e.totalDuration ∧
      (answers.foldl add e).memoryDuration = e.memoryDuration := by
  induction answers generalizing e with
  | nil => exact ⟨rfl, rfl⟩
  | cons a answers ih =>
    obtain ⟨⟨htotal, hmemory⟩, hrest⟩ := List.forall_mem_cons.mp h
    obtain ⟨htotals, hmemorys⟩ := ih hrest (e.add a)
    constructor
    · exact htotals.trans (by rw [add_totalDuration, htotal, add_zero])
    · exact hmemorys.trans (by rw [add_memoryDuration, hmemory, add_zero])

end ExecStatus

namespace Stage
variable {stage : Stage} {e : ExecStatus} {answers : List ExecStatus}

/-- The time of a stage without the simulator. -/
def idealTime (stage : Stage) : ℚ := stage.clock stage.computeDuration stage.memoryDuration

theorem charge_totalDuration (hrecord : ∀ total, KeepsWork (stage.record total))
    (hstatus : stage.fromStatus = false ∨ e.memoryDuration = 0) (h : ∀ a ∈ answers, a.Counts) :
    (stage.charge false e answers).totalDuration = e.totalDuration + stage.idealTime := by
  obtain ⟨htotal, hmemory⟩ := ExecStatus.foldl_add_counts h e
  unfold charge idealTime
  dsimp only
  rw [(hrecord _).totalDuration]
  by_cases hfrom : stage.fromStatus = true
  · have hzero := hstatus.resolve_left (by simp [hfrom])
    simp [hfrom, htotal, hmemory, hzero]
  · simp [hfrom, htotal]

end Stage

namespace Script
variable {script : Script} {useRamulator : Bool} {answerss : List (List ExecStatus)}

theorem charge_totalDuration {stages : List Stage} (hlen : answerss.length = stages.length)
    (hrecord : ∀ stage ∈ stages, ∀ total, KeepsWork (stage.record total))
    (hfrom : ∀ stage ∈ stages, stage.fromStatus = false)
    (hcounts : ∀ answers ∈ answerss, ∀ e ∈ answers, e.Counts) (e : ExecStatus) :
    (charge false e stages answerss).totalDuration
      = e.totalDuration + (stages.map Stage.idealTime).sum := by
  induction stages generalizing answerss e with
  | nil =>
    rw [List.length_eq_zero_iff.mp hlen]
    simp [charge]
  | cons stage stages ih =>
    obtain ⟨answers, answerss, rfl⟩ := List.exists_cons_of_length_eq_add_one hlen
    obtain ⟨hrec, hrecs⟩ := List.forall_mem_cons.mp hrecord
    obtain ⟨hfr, hfrs⟩ := List.forall_mem_cons.mp hfrom
    obtain ⟨hcount, hcountss⟩ := List.forall_mem_cons.mp hcounts
    unfold charge
    rw [ih (Nat.succ.inj hlen) hrecs hfrs hcountss,
      Stage.charge_totalDuration hrec (.inl hfr) hcount,
      List.map_cons, List.sum_cons, add_assoc]

theorem status_flops (hplain : script.Plain) (hreported : script.reported = true) :
    (script.status useRamulator answerss).flops = script.flops ∧
      (script.status useRamulator answerss).memorySize = script.memorySize := by
  unfold status finish
  dsimp only
  rw [hplain.report.flops, hplain.report.memorySize, if_pos hreported]
  exact ⟨rfl, rfl⟩

theorem finish_totalDuration (hplain : script.Plain) (e : ExecStatus) :
    (script.finish e).totalDuration = e.totalDuration := by
  unfold finish
  dsimp only
  rw [hplain.report.totalDuration]
  split <;> rfl

theorem finish_utils (hplain : script.Plain) (e : ExecStatus) :
    (script.finish e).computeUtil
        = 1000 * 1000 * 1000 * script.flops / script.rates.computePeakFlops / e.totalDuration ∧
      (script.finish e).memoryUtil
        = 1000 * 1000 * 1000 * script.memorySize / script.rates.memoryBandwidth
          / e.totalDuration := by
  unfold finish
  dsimp only
  rw [hplain.report.computeUtil, hplain.report.memoryUtil]
  split <;> exact ⟨rfl, rfl⟩

/-- The times of the stages add up. -/
theorem status_totalDuration (hplain : script.Plain)
    (hlen : answerss.length = script.stages.length)
    (hcounts : ∀ answers ∈ answerss, ∀ e ∈ answers, e.Counts) :
    (script.status false answerss).totalDuration = (script.stages.map Stage.idealTime).sum := by
  unfold status
  rw [finish_totalDuration hplain]
  rcases hplain.fromStatus with hone | hfrom
  · obtain ⟨stage, hstage⟩ := List.length_eq_one_iff.mp hone
    rw [hstage] at hlen ⊢
    obtain ⟨answers, hanswers⟩ := List.length_eq_one_iff.mp hlen
    rw [hanswers] at hcounts ⊢
    have hrecord := hplain.record stage (by rw [hstage]; exact List.mem_singleton_self _)
    have hcount := hcounts answers (List.mem_singleton_self _)
    show (stage.charge false {} answers).totalDuration = _
    rw [Stage.charge_totalDuration hrecord (.inr rfl) hcount]
    simp
  · rw [charge_totalDuration hlen hplain.record hfrom hcounts]
    exact zero_add _

theorem stageCalls_length {layerType : LayerType} {pimHWConfig : PIMHWConfig} {stages : List Stage}
    {ops ops' : Operands} {callss : List (List IssueCall)}
    (h : stageCalls layerType pimHWConfig useRamulator stages ops = .ok (callss, ops')) :
    callss.length = stages.length := by
  induction stages generalizing ops ops' callss with
  | nil =>
    obtain ⟨rfl, -⟩ := Prod.mk.inj (Except.ok.inj h)
    rfl
  | cons stage stages ih =>
    obtain ⟨⟨calls, ops₁⟩, -, h⟩ := bind_eq_ok h
    obtain ⟨⟨callss', ops₂⟩, hrest, h⟩ := bind_eq_ok h
    obtain ⟨rfl, -⟩ := Prod.mk.inj (Except.ok.inj h)
    rw [List.length_cons, List.length_cons, ih hrest]

end Script

/-! ### Executors -/

section Execute
variable {d : DeviceMemory} {useRamulator : Bool} {s s' : IssueState} {ops ops' : Operands}
  {e : ExecStatus} {pimHWConfig : PIMHWConfig} {script : Script}

theorem DeviceMemory.execute_ok
    (h : d.execute pimHWConfig useRamulator (some script) ops s = .ok (e, ops', s')) :
    ∃ callss ops'' answerss, script.calls pimHWConfig useRamulator ops = .ok (callss, ops'') ∧
      d.askEach useRamulator s callss = .ok (answerss, s') ∧
      answerss.length = script.stages.length ∧
      e = script.status useRamulator answerss ∧ ops' = script.restore ops ops'' ∧
      (script.asserted = true → 0 < script.flops ∧ 0 < script.memorySize) := by
  obtain ⟨⟨callss, ops''⟩, hcalls, h⟩ := bind_eq_ok h
  obtain ⟨⟨answerss, s''⟩, hanswers, h⟩ := bind_eq_ok h
  dsimp only at h
  split_ifs at h with hassert
  obtain ⟨he, hrest⟩ := Prod.mk.inj (Except.ok.inj h)
  obtain ⟨rfl, rfl⟩ := Prod.mk.inj hrest
  refine ⟨callss, ops'', answerss, hcalls, hanswers, ?_, he.symm, rfl, ?_⟩
  · rw [DeviceMemory.askEach_length hanswers, Script.stageCalls_length hcalls]
  · intro hasserted
    by_contra hnot
    exact hassert ⟨hasserted, hnot⟩

variable {layerType : LayerType} {type : ProcessorType} {i : AttentionInput}

theorem Executor.executePType_ok
    (h : Executor.executePType d useRamulator layerType type i s = .ok (e, ops', s')) :
    ∃ script execStatus, Executor.executorOf layerType type i = .ok script ∧
      d.execute (Executor.pimHWConfig i.config type) useRamulator script i.tensors s
        = .ok (execStatus, ops', s') ∧ e = { execStatus with processorType := type } := by
  obtain ⟨script, hscript, h⟩ := bind_eq_ok h
  obtain ⟨⟨execStatus, ops₁, s₁⟩, hexec, h⟩ := bind_eq_ok h
  obtain ⟨he, hrest⟩ := Prod.mk.inj (Except.ok.inj h)
  obtain ⟨rfl, rfl⟩ := Prod.mk.inj hrest
  exact ⟨script, execStatus, hscript, hexec, he.symm⟩

end Execute
end LlmSystem
