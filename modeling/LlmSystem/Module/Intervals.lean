import LlmSystem.Module.Overlap
import LlmSystem.Module.TimeBoard
import LlmSystem.Module.WorkSteps

/-!
The intervals of the stamps. Where nothing runs on one side only, every writer of a clock moves
it forward: pushes, returns, forward functions, and the barriers of other devices. A stamp that
is open while its device is blocked has started before whatever follows.
-/
namespace LlmSystem

open Runs Nesting

variable {N : ℕ} {τ σ : Type}

/-- No tensor has `parallel_execution` set. -/
def Work.Plain (w : Work τ) : Prop := ∀ t, (w.placement t).parallelExecution = false

/-- The device works on both sides at once, and owes no negative time. -/
structure Work.Sequential (w : Work τ) : Prop where
  charge : 0 ≤ w.execStatus.totalDuration
  status : w.status.parallelExecution = false

theorem GraphInput.placement_plain {i : GraphInput τ} {w : Work τ} (hw : w.Plain) :
    ∀ p ∈ i.placement w, p.parallelExecution = false := by
  intro p hp
  cases i with
  | tensor t =>
    obtain rfl := Option.some.inj hp
    exact hw t
  | tensorVec ts => cases hp

namespace StatusBoard

theorem setPushStatus_sequential {s : StatusBoard} {input : Option Placement}
    (hinput : ∀ p ∈ input, p.parallelExecution = false) :
    s.deviceTime ≤ (s.setPushStatus input).deviceTime ∧
      (s.setPushStatus input).parallelExecution = false := by
  cases input with
  | none => exact ⟨le_max_left _ _, rfl⟩
  | some p =>
    unfold setPushStatus
    dsimp only
    rw [if_neg (by simp [hinput p rfl])]
    exact ⟨le_max_left _ _, rfl⟩

theorem charge_parallelExecution (dramPowers : ProcessorType → DramEnergy) (s : StatusBoard)
    (e : ExecStatus) : (chargeWork (chargeEnergy dramPowers s e) e).parallelExecution
      = s.parallelExecution := by
  unfold chargeEnergy
  split_ifs
  · rfl
  · rfl

theorem setPopStatus_sequential {s : StatusBoard} {output : Option Placement}
    (dramPowers : ProcessorType → DramEnergy) (e : ExecStatus)
    (hs : s.parallelExecution = false) (houtput : ∀ p ∈ output, p.parallelExecution = false) :
    (s.setPopStatus dramPowers output e).deviceTime = s.deviceTime + e.totalDuration ∧
      (s.setPopStatus dramPowers output e).parallelExecution = false := by
  have hcharge : ∀ s' : StatusBoard, s'.parallelExecution = false →
      s'.deviceTime = s.deviceTime →
      (chargeWork (chargeEnergy dramPowers (s'.chargeDuration e) e) e).deviceTime
          = s.deviceTime + e.totalDuration ∧
        (chargeWork (chargeEnergy dramPowers (s'.chargeDuration e) e) e).parallelExecution
          = false := by
    intro s' hs' htime
    rw [(charge_times dramPowers _ e).1, charge_parallelExecution]
    unfold chargeDuration
    rw [if_neg (by simp [hs'])]
    exact ⟨by rw [htime], hs'⟩
  unfold setPopStatus
  cases output with
  | none => exact hcharge _ hs rfl
  | some p => exact hcharge _ (houtput p rfl) rfl

end StatusBoard

/-- Sequential work stays so, and its clock does not go back. -/
theorem carried_sequential [DecidableEq τ] : Carried (τ := τ) WorkStep.Nonneg fun w w' =>
    w.Sequential → w'.Sequential ∧ w.status.deviceTime ≤ w'.status.deviceTime where
  refl w hw := ⟨hw, le_refl _⟩
  trans h h' hw := by
    obtain ⟨hw₁, hle⟩ := h hw
    obtain ⟨hw₂, hle'⟩ := h' hw₁
    exact ⟨hw₂, hle.trans hle'⟩
  sync w time hle hw := ⟨⟨hw.charge, hw.status⟩, hle⟩
  apply a ha w hw := by
    cases a with
    | elapse time input hidden => exact ⟨⟨hw.charge, hw.status⟩, le_add_of_nonneg_right ha⟩
    | align => exact ⟨⟨hw.charge, hw.status⟩, le_max_left _ _⟩
    | execute e => exact ⟨⟨ha, hw.status⟩, le_refl _⟩
    | place output p => exact ⟨⟨hw.charge, hw.status⟩, le_refl _⟩

theorem DeviceState.setStamp_placement (dramPowers : ProcessorType → DramEnergy)
    (n : ModuleGraph N τ σ) (x : DeviceState τ) :
    (x.setStamp dramPowers n).work.placement = x.work.placement := by
  unfold setStamp
  split_ifs
  · rfl
  · cases n.module with
    | none => rfl
    | some m => rfl

namespace CallGraphs
variable [DecidableEq τ] {C : CallGraphs N τ σ}

/-- All forward functions relate the work before and after by `W`. -/
def Forwards (C : CallGraphs N τ σ) (W : Work τ → Work τ → Prop) : Prop :=
  ∀ d, ∀ c ∈ (C.calls d).toList, ∀ x w, W w (c.module.forward x w).2

/-- All that the called modules do to their devices are steps with `P`. -/
def Acts (C : CallGraphs N τ σ) (P : WorkStep τ → Prop) : Prop :=
  ∀ d, ∀ c ∈ (C.calls d).toList, c.module.Acts P

theorem Acts.forwards {P : WorkStep τ → Prop} {W : Work τ → Work τ → Prop} (hC : C.Acts P)
    (hW : Carried P W) : C.Forwards W := fun d c hc => hW.forward (hC d c hc)

omit [DecidableEq τ] in
theorem Forwards.executes {W : Work τ → Work τ → Prop} (hC : C.Forwards W) {d : Fin N}
    {s : TimedState N τ σ} {e : Event (Call N τ σ)} (hat : C.At d s e) {m : Module N τ σ}
    (hm : (Call.node e).Executes m) : ∀ x w, W w (m.forward x w).2 := by
  cases e with
  | push c =>
    obtain rfl := Option.some.inj hm.1
    exact hC d c (Forest.mem_of_push_mem (List.mem_of_getElem? hat))
  | pop c => cases hm.1

/-- What a step of `e` does at `d`: it stamps, if these are the same, or leaves the time board and
has its work related to that before. -/
theorem Move.cases {W : Work τ → Work τ → Prop} (hW : Kept W) (hC : C.Forwards W)
    {s s' : TimedState N τ σ} {e : Fin N} (hmove : C.Move s e s') (d : Fin N) :
    (∃ event, C.setStamp d event s = .ok s') ∨
      (W (s.cluster.device d).work (s'.cluster.device d).work ∧ s'.board d = s.board d) := by
  cases hmove with
  | stamp _ hset =>
    by_cases hde : d = e
    · subst hde
      exact .inl ⟨_, hset⟩
    · obtain ⟨-, -, hother⟩ := setStamp_frame hset
      obtain ⟨hdevice, hboard⟩ := hother d hde
      exact .inr ⟨hdevice ▸ hW.refl _, hboard⟩
  | @advance _ event cluster hat _ hrun =>
    have hwork : ((cluster.modify e (·.next)).device d).work = (cluster.device d).work := by
      by_cases hde : d = e
      · subst hde
        rw [ClusterState.modify_device_self]
        rfl
      · rw [ClusterState.modify_device_of_ne hde]
    refine .inr ⟨?_, rfl⟩
    change W _ ((cluster.modify e (·.next)).device d).work
    rw [hwork]
    exact hW.outcome (fun _ m hm => hC.executes hat hm) (ModuleGraph.run_outcome hrun)
  | block hat hrun =>
    exact .inr ⟨hW.outcome (fun _ m hm => hC.executes hat hm) (ModuleGraph.run_outcome hrun), rfl⟩

def deviceTime (s : TimedState N τ σ) (d : Fin N) : ℚ :=
  (s.cluster.device d).work.status.deviceTime

/-- Nothing is processed on one side only. -/
def Plain (s : TimedState N τ σ) : Prop := ∀ d, (s.cluster.device d).work.Plain

/-- The intervals of the stamps of `d`, up to its clock. -/
def Nested (s : TimedState N τ σ) (d : Fin N) : Prop :=
  (s.board d).tree.Within (·.status.deviceTime) (·.startTime) (·.endTime) 0 (deviceTime s d)

/-- What holds while the graphs run. -/
structure Paced (C : CallGraphs N τ σ) (d : Fin N) (s : TimedState N τ σ) : Prop where
  mirrors : C.Mirrors d s
  sequential : (s.cluster.device d).work.Sequential
  nested : Nested s d
  top : (s.board d).top = {}

omit [DecidableEq τ] in
/-- A stamp opens or closes at the clock that the status has just been set to. -/
theorem Paced.stamp {s s' : TimedState N τ σ} {d : Fin N} {event : Event (Call N τ σ)}
    (h : C.Paced d s) (hplain : Plain s) (hm : C.Mirrors d s')
    (hset : C.setStamp d event s = .ok s') : C.Paced d s' ∧ deviceTime s d ≤ deviceTime s' d := by
  obtain ⟨hcharge, hside⟩ := h.sequential
  rcases hm.stamp_cases hset with rfl | ⟨c, -, hwork, hboard⟩ | ⟨c, tree, -, hwork, hpop, hboard⟩
  · exact ⟨h, le_refl _⟩
  · obtain ⟨htime, hparallel⟩ := StatusBoard.setPushStatus_sequential
      (s := (s.cluster.device d).work.status) (c.input.placement_plain (hplain d))
    have hle : deviceTime s d ≤ deviceTime s' d := by
      unfold deviceTime
      rw [hwork]
      exact htime
    have hseq : (s'.cluster.device d).work.Sequential := by
      rw [hwork]
      exact ⟨hcharge, hparallel⟩
    refine ⟨⟨hm, hseq, ?_, by rw [hboard]; exact h.top⟩, hle⟩
    unfold Nested
    rw [hboard]
    exact Cursor.Within.push h.nested hle
  · obtain ⟨htime, hparallel⟩ := StatusBoard.setPopStatus_sequential (C.dramPowers d)
      (s.cluster.device d).work.execStatus hside (c.output.placement_plain (hplain d))
    have hle : deviceTime s d ≤ deviceTime s' d := by
      unfold deviceTime
      rw [hwork]
      exact (le_add_of_nonneg_right hcharge).trans_eq htime.symm
    have hseq : (s'.cluster.device d).work.Sequential := by
      rw [hwork]
      exact ⟨le_refl _, hparallel⟩
    refine ⟨⟨hm, hseq, ?_, by rw [hboard]; exact h.top⟩, hle⟩
    unfold Nested
    rw [hboard]
    exact Cursor.Within.pop h.nested (fun _ => rfl) (fun _ => rfl) hle hpop

/-- No step turns back the clock of any device. -/
theorem Paced.move (hC : C.Acts WorkStep.Nonneg) {s s' : TimedState N τ σ} {d e : Fin N}
    (h : C.Paced d s) (hplain : Plain s) (hmove : C.Move s e s') :
    C.Paced d s' ∧ deviceTime s d ≤ deviceTime s' d := by
  have hm := h.mirrors.move hmove
  rcases hmove.cases carried_sequential.toKept (hC.forwards carried_sequential) d with
    ⟨event, hset⟩ | ⟨hcarried, hboard⟩
  · exact h.stamp hplain hm hset
  · obtain ⟨hseq, hle⟩ := hcarried h.sequential
    have hnested : Nested s' d := by
      unfold Nested
      rw [hboard]
      exact h.nested.later hle
    exact ⟨⟨hm, hseq, hnested, hboard ▸ h.top⟩, hle⟩

theorem restart_work {s s₀ : TimedState N τ σ} (h : C.restart s = .ok s₀) (d : Fin N) :
    (s₀.cluster.device d).work = { (s.cluster.device d).work with status := {} } ∧
      s₀.board d = (s.board d).resetTimeboard := by
  obtain ⟨cluster, hcluster, h⟩ := bind_eq_ok h
  obtain rfl := Except.ok.inj h
  obtain ⟨n, root, -, -, hdevice⟩ := Graphs.restartModuleGraph_device hcluster d
  refine ⟨?_, rfl⟩
  change (cluster.device d).work = _
  rw [hdevice]
  rfl

theorem Paced.restart {s s₀ : TimedState N τ σ} {d : Fin N} (h : C.restart s = .ok s₀)
    (hseq : (s₀.cluster.device d).work.Sequential) (htop : (s.board d).top = {}) :
    C.Paced d s₀ := by
  obtain ⟨hwork, hboard⟩ := restart_work h d
  refine ⟨Mirrors.restart h d, hseq, ?_, by rw [hboard]; exact htop⟩
  unfold Nested deviceTime
  rw [hwork, hboard]
  exact le_refl (0 : ℚ)

/-! ### Runs -/

/-- Runs of devices in small steps, and restarts before further iterations. -/
inductive Step (C : CallGraphs N τ σ) : TimedState N τ σ → Option (Fin N) → TimedState N τ σ → Prop
  | restart {s s' : TimedState N τ σ} (h : C.restart s = .ok s') : Step C s none s'
  | move {s s' : TimedState N τ σ} {d : Fin N} (h : C.Move s d s') : Step C s (some d) s'

/-- The first restart, with new time boards. -/
def Init (C : CallGraphs N τ σ) (s₀ : TimedState N τ σ) : Prop :=
  ∃ s, (∀ d, s.board d = {}) ∧ C.restart s = .ok s₀

/-- A step from a state where nothing is processed on one side. -/
def PlainStep (C : CallGraphs N τ σ) (s : TimedState N τ σ) (a : Option (Fin N))
    (s' : TimedState N τ σ) : Prop := Plain s ∧ C.Step s a s'

theorem Paced.step (hC : C.Acts WorkStep.Nonneg) {s s' : TimedState N τ σ} {d : Fin N}
    {a : Option (Fin N)} (h : C.Paced d s) (hstep : C.PlainStep s a s') : C.Paced d s' := by
  obtain ⟨hplain, hstep⟩ := hstep
  cases hstep with
  | restart hrestart =>
    apply Paced.restart hrestart _ h.top
    rw [(restart_work hrestart d).1]
    exact ⟨h.sequential.charge, rfl⟩
  | move hmove => exact (h.move hC hplain hmove).1

/-- What forward functions keep of the placements is kept by every step. -/
theorem Step.placement {Q : (τ → Placement) → Prop}
    (hC : C.Forwards fun w w' => Q w.placement → Q w'.placement) {s s' : TimedState N τ σ}
    {a : Option (Fin N)} (hstep : C.Step s a s')
    (hs : ∀ d, Q (s.cluster.device d).work.placement) (d : Fin N) :
    Q (s'.cluster.device d).work.placement := by
  have hkept : Kept (τ := τ) fun w w' => Q w.placement → Q w'.placement :=
    ⟨fun _ => id, fun h h' => h' ∘ h, fun _ _ _ => id⟩
  cases hstep with
  | restart hrestart =>
    rw [(restart_work hrestart d).1]
    exact hs d
  | move hmove =>
    rcases hmove.cases hkept hC d with ⟨event, hset⟩ | ⟨hcarried, -⟩
    · obtain ⟨hcluster, -⟩ := setStamp_cases hset
      rw [hcluster]
      unfold Graphs.stamp
      rw [ClusterState.modify_device_self, DeviceState.setStamp_placement]
      exact hs d
    · exact hcarried (hs d)

/-- Where forward functions put nothing on one side, the whole run is plain. -/
theorem Plain.run (hC : C.Forwards fun w w' => w.Plain → w'.Plain) {s s' : TimedState N τ σ}
    (hplain : Plain s) {as : List (Option (Fin N))} (hrun : Run C.Step s as s') :
    Run C.PlainStep s as s' ∧ Plain s' := by
  induction hrun with
  | nil s => exact ⟨.nil s, hplain⟩
  | cons hone _ ih =>
    obtain ⟨hrest, hend⟩ := ih (hone.placement (Q := fun p => ∀ t, (p t).parallelExecution = false)
      hC hplain)
    exact ⟨.cons ⟨hplain, hone⟩ hrest, hend⟩

theorem moves_steps {s s' : TimedState N τ σ} {ds : List (Fin N)} (h : Run C.Move s ds s') :
    Run C.Step s (ds.map some) s' := by
  induction h with
  | nil s => exact .nil s
  | cons hmove _ ih => exact .cons (.move hmove) ih

/-- The runs of the devices, after one restart. -/
theorem runs_steps {s s' : TimedState N τ σ} {ds : List (Fin N)}
    (h : Run (fun s d t => C.run d s = .ok t) s ds s') : ∃ as, Run C.Step s as s' := by
  induction h with
  | nil s => exact ⟨[], .nil s⟩
  | cons hone _ ih =>
    obtain ⟨ds, -, hmoves⟩ := run_moves hone
    obtain ⟨as, hsteps⟩ := ih
    exact ⟨_, (moves_steps hmoves).append hsteps⟩

omit [DecidableEq τ] in
/-- The whole tree of a device at its end, and what `find_stamp` selects from it. -/
theorem Paced.complete {s : TimedState N τ σ} {d : Fin N} (h : C.Paced d s)
    (hend : ¬C.toGraphs.Remains s.cluster d) :
    (s.board d).tree.closed.Within Stamp.startTime Stamp.endTime 0 (deviceTime s d) ∧
      ∀ name, (((s.board d).findStamp name).map Stamp.getDuration).sum ≤ deviceTime s d := by
  obtain ⟨hframes, -⟩ := h.mirrors.complete hend
  have hnested := h.nested
  unfold Nested Cursor.Within at hnested
  rw [hframes] at hnested
  refine ⟨hnested, fun name => ?_⟩
  unfold TimeBoard.findStamp
  split_ifs
  · rw [h.top]
    simpa [Stamp.getDuration] using Forest.Within.le hnested
  · rw [Cursor.forest_eq_closed hframes]
    have hle := Forest.Within.select_le hnested (·.hasName name)
    rw [sub_zero] at hle
    exact hle

theorem Paced.run (hC : C.Acts WorkStep.Nonneg) {s₀ s : TimedState N τ σ} (hinit : C.Init s₀)
    (hcharge : ∀ d, 0 ≤ (s₀.cluster.device d).work.execStatus.totalDuration)
    {as : List (Option (Fin N))} (hrun : Run C.PlainStep s₀ as s) (d : Fin N) : C.Paced d s := by
  obtain ⟨s₁, hnew, hrestart⟩ := hinit
  have hstart : C.Paced d s₀ := by
    refine Paced.restart hrestart ⟨hcharge d, ?_⟩ (by rw [hnew])
    rw [(restart_work hrestart d).1]
  exact hrun.invariant (I := C.Paced d) (fun _ _ _ hx hxy => hx.step hC hxy) hstart

/-- In every run, over any number of restarts, where no tensor has `parallel_execution` set and
nothing takes negative time: no step of any device turns back the clock of a device; the intervals
of the stamps nest, also below open ones; and at the end of a device, the stamps that are found
under a name together are not longer than its run. -/
theorem intervals_nest (C : CallGraphs N τ σ) (hC : C.Acts WorkStep.Nonneg)
    {s₀ s : TimedState N τ σ} (hinit : C.Init s₀)
    (hcharge : ∀ d, 0 ≤ (s₀.cluster.device d).work.execStatus.totalDuration)
    {as : List (Option (Fin N))} (hrun : Run C.PlainStep s₀ as s) (hplain : Plain s) (d : Fin N) :
    (∀ e s', C.Move s e s' → deviceTime s d ≤ deviceTime s' d) ∧ Nested s d ∧
    (¬C.toGraphs.Remains s.cluster d →
      (s.board d).tree.closed.Within Stamp.startTime Stamp.endTime 0 (deviceTime s d) ∧
      ∀ name, (((s.board d).findStamp name).map Stamp.getDuration).sum ≤ deviceTime s d) := by
  have hpaced := Paced.run hC hinit hcharge hrun d
  exact ⟨fun e s' hmove => (hpaced.move hC hplain hmove).2, hpaced.nested, hpaced.complete⟩

theorem twoCalls_acts {P : WorkStep ℕ → Prop} (halign : P .align)
    (hexecute : ∀ e : ExecStatus, 0 ≤ e.totalDuration → P (.execute e)) : twoCalls.Acts P := by
  intro d c hc
  unfold twoCalls at hc
  simp only [Forest.toList, List.append_nil, List.nil_append, List.mem_cons, List.not_mem_nil,
    or_false] at hc
  rcases hc with rfl | rfl | rfl | rfl
  · exact fun x w => ⟨[], by simp, rfl⟩
  · intro x w
    refine ⟨[_], List.forall_mem_singleton.mpr (hexecute _ ?_), rfl⟩
    exact add_nonneg (Nat.cast_nonneg _) zero_le_one
  · exact fun x w => ⟨[.align], by simpa using halign, rfl⟩
  · exact fun x w => ⟨[], by simp, rfl⟩

/-- The first device waits from 1 to 2 in its `sync__`. -/
theorem intervals_nest_two_devices : ∃ s, twoCallsRun = .ok s ∧
    ((s.board 0).findStamp "sync__").map Stamp.getDuration = [0, 1] ∧
    (((s.board 0).findStamp "sync__").map Stamp.getDuration).sum ≤ deviceTime s 0 := by
  have hrun : ∃ s, twoCallsRun = .ok s ∧ ¬twoCalls.toGraphs.Remains s.cluster 0 ∧
      ((s.board 0).findStamp "sync__").map Stamp.getDuration = [0, 1] := by
    refine ⟨_, rfl, ?_⟩
    decide +kernel
  obtain ⟨s, hrun, hend, hfound⟩ := hrun
  obtain ⟨s₀, h₀, h⟩ := bind_eq_ok hrun
  obtain ⟨s₁, h₁, h⟩ := bind_eq_ok h
  obtain ⟨s₂, h₂, h₃⟩ := bind_eq_ok h
  obtain ⟨as, hsteps⟩ := runs_steps (.cons h₁ (.cons h₂ (.single h₃)))
  have hplaced : twoCalls.Forwards fun w w' => w.Plain → w'.Plain := by
    intro d c hc
    unfold twoCalls at hc
    simp only [Forest.toList, List.append_nil, List.nil_append, List.mem_cons, List.not_mem_nil,
      or_false] at hc
    rcases hc with rfl | rfl | rfl | rfl
    all_goals exact fun x w => id
  have hplain : Plain s₀ := by
    intro d
    rw [(restart_work h₀ d).1]
    exact fun _ => rfl
  have hcharge : ∀ d, 0 ≤ (s₀.cluster.device d).work.execStatus.totalDuration := by
    intro d
    rw [(restart_work h₀ d).1]
    exact le_refl 0
  obtain ⟨hsteps, hplain⟩ := hplain.run hplaced hsteps
  exact ⟨s, hrun, hfound, ((intervals_nest twoCalls (twoCalls_acts trivial fun _ h => h)
    ⟨_, fun _ => rfl, h₀⟩ hcharge hsteps hplain 0).2.2 hend).2 "sync__"⟩

end CallGraphs
end LlmSystem
