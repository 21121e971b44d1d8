import LlmSystem.Executor.StageTimes

/-!
What becomes of the times that the simulator answers with. Each executor adds them up by hand, and
in some stages not all of them are part of the sum.
-/
namespace LlmSystem

open Executor Runs

/-! ### Stages -/

namespace Stage
variable {stage : Stage}

/-- The time of a stage is no less than that of its transfers together, whatever these take. -/
def Charges (stage : Stage) : Prop :=
  ∀ l : List ℚ, l.length = stage.simulated.length → (∀ t ∈ l, 0 ≤ t) →
    l.sum ≤ stage.clock stage.computeDuration (stage.measured l)

/-- The transfers of a stage may take any time while the stage itself takes no more than some. -/
def Loses (stage : Stage) : Prop :=
  ∃ bound : ℚ, ∀ time : ℚ, 0 ≤ time → ∃ l : List ℚ, l.length = stage.simulated.length ∧
    (∀ t ∈ l, 0 ≤ t) ∧ time ≤ l.sum ∧ stage.clock stage.computeDuration (stage.measured l) ≤ bound

theorem Charges.of_sum (hclock : stage.clock = max) (hmeasured : stage.measured = List.sum) :
    stage.Charges := by
  intro l _ _
  rw [hclock, hmeasured]
  exact le_max_right _ _

/-- A stage that moves nothing takes the time of the computation. -/
theorem Charges.of_compute (hsimulated : stage.simulated = [])
    (hclock : stage.clock = fun compute _ => compute) (hcompute : 0 ≤ stage.computeDuration) :
    stage.Charges := by
  intro l hlength _
  rw [hsimulated, List.length_nil, List.length_eq_zero_iff] at hlength
  rw [hlength, hclock]
  exact hcompute

/-- The first transfer is not measured. -/
theorem Loses.of_first (h : 0 < stage.simulated.length)
    (hmeasured : ∀ t, stage.measured (t :: List.replicate (stage.simulated.length - 1) 0) = 0) :
    stage.Loses := by
  refine ⟨stage.clock stage.computeDuration 0, fun time htime =>
    ⟨time :: List.replicate (stage.simulated.length - 1) 0, ?_, ?_, ?_, ?_⟩⟩
  · rw [List.length_cons, List.length_replicate, Nat.sub_add_cancel h]
  · simp only [List.forall_mem_cons, List.mem_replicate]
    exact ⟨htime, fun t ht => ht.2.ge⟩
  · simp
  · rw [hmeasured]

/-- The second transfer is not measured. -/
theorem Loses.of_second (h : stage.simulated.length = 3)
    (hmeasured : ∀ t, stage.measured [0, t, 0] = 0) : stage.Loses := by
  refine ⟨stage.clock stage.computeDuration 0, fun time htime => ⟨[0, time, 0], ?_, ?_, ?_, ?_⟩⟩
  · rw [h]
    rfl
  · simp [htime]
  · simp
  · rw [hmeasured]

end Stage

/-! ### Answers -/

/-- An answer of the simulator: a memory time that is not negative. -/
def ExecStatus.Measured (e : ExecStatus) : Prop := e.MemoryOnly ∧ 0 ≤ e.memoryDuration

namespace DeviceMemory
variable {d : DeviceMemory} {useRamulator : Bool} {s s' : IssueState}

/-- The simulator takes no negative time. -/
structure Forward (d : DeviceMemory) : Prop where
  memoryScaleFactor : 0 ≤ d.memoryScaleFactor
  ramulator : ∀ commands, (d.ramulator commands).start ≤ (d.ramulator commands).end

theorem measured_ask (hd : d.Forward) {call : IssueCall} {e : ExecStatus}
    (hs : Remembers ExecStatus.Measured s) (h : d.ask useRamulator s call = .ok (e, s')) :
    e.Measured ∧ Remembers ExecStatus.Measured s' := by
  refine remembers_ask ?_ ?_ hs h
  · intro s call hold
    unfold getIdealMemoryStatus runIdeal
    dsimp only
    split
    · exact hold
    · split <;> exact ⟨⟨rfl, rfl, rfl, rfl⟩, le_refl 0⟩
  · intro call e e' hrun
    obtain ⟨commands, -, hrun⟩ := bind_eq_ok hrun
    obtain rfl := Except.ok.inj hrun
    refine ⟨⟨rfl, rfl, rfl, rfl⟩, ?_⟩
    have hforward : ((d.ramulator commands).start : ℚ) ≤ (d.ramulator commands).end :=
      Int.cast_le.mpr (hd.ramulator commands)
    have hduration : (0 : ℚ) ≤ ((d.ramulator commands).end - (d.ramulator commands).start : ℤ) := by
      push_cast
      linarith
    exact add_nonneg (le_refl 0) (mul_nonneg hduration hd.memoryScaleFactor)

theorem Reached.askEach_measured (hd : d.Forward) (hs : d.Reached s)
    {callss : List (List IssueCall)} {answerss : List (List ExecStatus)}
    (h : d.askEach useRamulator s callss = .ok (answerss, s')) :
    ∀ answers ∈ answerss, ∀ e ∈ answers, e.Measured :=
  (askEach_all ExecStatus.Measured (Remembers ExecStatus.Measured) (measured_ask hd)
    (hs.remembers ⟨⟨rfl, rfl, rfl, rfl⟩, le_refl 0⟩ (measured_ask hd)) h).1

end DeviceMemory

/-- The times of the stages together. -/
def stageTime (useRamulator : Bool) (stages : List Stage) (answerss : List (List ExecStatus)) : ℚ :=
  (List.zipWith (fun stage answers => stage.time useRamulator answers) stages answerss).sum

theorem Stage.charge_time {stage : Stage} {useRamulator : Bool} {answers : List ExecStatus}
    (hplain : StagePlain stage) (h : ∀ a ∈ answers, a.MemoryOnly) (e : ExecStatus) :
    (stage.charge useRamulator e answers).totalDuration
      = e.totalDuration + stage.time useRamulator answers := by
  have hadded := ExecStatus.foldl_add_times h (⟨rfl, rfl, rfl, rfl⟩ : e.Times _ _ _ _)
  unfold charge time memoryTime
  simp only [hplain.fromStatus, (hplain.record _).totalDuration, Bool.false_eq_true, false_and,
    if_false, hadded.totalDuration]

theorem Script.charge_time {stages : List Stage} {useRamulator : Bool}
    {answerss : List (List ExecStatus)} (hplain : ∀ stage ∈ stages, StagePlain stage)
    (hanswered : Answered useRamulator stages answerss)
    (hmemory : ∀ answers ∈ answerss, ∀ a ∈ answers, a.MemoryOnly) (e : ExecStatus) :
    (charge useRamulator e stages answerss).totalDuration
      = e.totalDuration + stageTime useRamulator stages answerss := by
  induction hanswered generalizing e with
  | nil => simp [charge, stageTime]
  | @cons stage answers stages answerss _ _ ih =>
    obtain ⟨hstage, hstages⟩ := List.forall_mem_cons.mp hplain
    obtain ⟨hone, hrest⟩ := List.forall_mem_cons.mp hmemory
    unfold charge
    rw [ih hstages hrest, Stage.charge_time hstage hone]
    simp only [stageTime, List.zipWith_cons_cons, List.sum_cons]
    ring

/-- Where every stage charges for its transfers, all time is charged. -/
theorem answeredTime_le_stageTime {stages : List Stage} {answerss : List (List ExecStatus)}
    (hstages : ∀ stage ∈ stages, stage.Charges) (hanswered : Answered true stages answerss)
    (hmeasured : ∀ answers ∈ answerss, ∀ a ∈ answers, a.Measured) :
    answeredTime answerss ≤ stageTime true stages answerss := by
  induction hanswered with
  | nil => exact le_refl 0
  | @cons stage answers stages answerss hlength _ ih =>
    obtain ⟨hcharges, hrest⟩ := List.forall_mem_cons.mp hstages
    obtain ⟨hone, hmeasured⟩ := List.forall_mem_cons.mp hmeasured
    have hstage : (answers.map (·.memoryDuration)).sum ≤ stage.time true answers := by
      apply hcharges
      · rw [List.length_map]
        exact hlength
      · intro t ht
        obtain ⟨a, ha, rfl⟩ := List.mem_map.mp ht
        exact (hone a ha).2
    exact add_le_add hstage (ih hrest hmeasured)

/-- The answers that take these times. -/
def answersOf (l : List ℚ) : List ExecStatus := l.map fun t => { memoryDuration := t }

theorem answersOf_measured {l : List ℚ} (h : ∀ t ∈ l, 0 ≤ t) : ∀ a ∈ answersOf l, a.Measured := by
  intro a ha
  obtain ⟨t, ht, rfl⟩ := List.mem_map.mp ha
  exact ⟨⟨rfl, rfl, rfl, rfl⟩, h t ht⟩

theorem answersOf_memoryDuration (l : List ℚ) : (answersOf l).map (·.memoryDuration) = l := by
  simp [answersOf, Function.comp_def]

/-- All transfers of some stages take no time. -/
theorem exists_answered (stages : List Stage) : ∃ answerss, Answered true stages answerss ∧
    (∀ answers ∈ answerss, ∀ a ∈ answers, a.Measured) ∧ answeredTime answerss = 0 := by
  induction stages with
  | nil => exact ⟨[], .nil, by simp, rfl⟩
  | cons stage stages ih =>
    obtain ⟨answerss, hanswered, hmeasured, htime⟩ := ih
    refine ⟨answersOf (List.replicate stage.simulated.length 0) :: answerss, .cons ?_ hanswered,
      List.forall_mem_cons.mpr ⟨answersOf_measured ?_, hmeasured⟩, ?_⟩
    · simp [answersOf, Stage.transfers]
    · intro t ht
      exact (List.mem_replicate.mp ht).2.ge
    · simp only [answeredTime, List.map_cons, List.sum_cons, answersOf_memoryDuration,
        List.sum_replicate, nsmul_zero, zero_add]
      exact htime

/-- Where one stage loses time, the answers may exceed the time of all stages by any amount. -/
theorem exists_exceeding {stages : List Stage} (h : ∃ stage ∈ stages, stage.Loses) (excess : ℚ) :
    ∃ answerss, Answered true stages answerss ∧
      (∀ answers ∈ answerss, ∀ a ∈ answers, a.Measured) ∧
      stageTime true stages answerss + excess < answeredTime answerss := by
  induction stages generalizing excess with
  | nil => simp at h
  | cons stage stages ih =>
    obtain ⟨losing, hlosing, hloses⟩ := h
    rcases List.mem_cons.mp hlosing with hhead | hmem
    · obtain ⟨bound, hbound⟩ := hhead ▸ hloses
      obtain ⟨answerss, hanswered, hmeasured, htime⟩ := exists_answered stages
      have hle : bound + stageTime true stages answerss + excess
          ≤ |bound + stageTime true stages answerss + excess| := le_abs_self _
      obtain ⟨l, hlength, hnonneg, hsum, hclock⟩ :=
        hbound (|bound + stageTime true stages answerss + excess| + 1) (by positivity)
      refine ⟨answersOf l :: answerss, .cons ?_ hanswered,
        List.forall_mem_cons.mpr ⟨answersOf_measured hnonneg, hmeasured⟩, ?_⟩
      · rw [answersOf, List.length_map]
        exact hlength
      · have hstage : stage.time true (answersOf l) ≤ bound := by
          simpa [Stage.time, Stage.memoryTime, answersOf_memoryDuration] using hclock
        have hanswers : answeredTime (answersOf l :: answerss) = l.sum := by
          simp only [answeredTime, List.map_cons, List.sum_cons, answersOf_memoryDuration]
          rw [← answeredTime, htime, add_zero]
        have htotal : stageTime true (stage :: stages) (answersOf l :: answerss)
            = stage.time true (answersOf l) + stageTime true stages answerss := rfl
        rw [hanswers, htotal]
        linarith
    · have hzero : (List.replicate stage.simulated.length (0 : ℚ)).sum = 0 := by simp
      obtain ⟨answerss, hanswered, hmeasured, hexceeds⟩ :=
        ih ⟨losing, hmem, hloses⟩
        (excess + stage.time true (answersOf (List.replicate stage.simulated.length 0)))
      refine ⟨answersOf (List.replicate stage.simulated.length 0) :: answerss,
        .cons ?_ hanswered, List.forall_mem_cons.mpr ⟨answersOf_measured ?_, hmeasured⟩, ?_⟩
      · simp [answersOf, Stage.transfers]
      · intro t ht
        exact (List.mem_replicate.mp ht).2.ge
      · have hanswers : answeredTime
            (answersOf (List.replicate stage.simulated.length 0) :: answerss)
              = answeredTime answerss := by
          simp only [answeredTime, List.map_cons, List.sum_cons, answersOf_memoryDuration, hzero,
            zero_add]
        have htotal : stageTime true (stage :: stages)
            (answersOf (List.replicate stage.simulated.length 0) :: answerss)
            = stage.time true (answersOf (List.replicate stage.simulated.length 0))
              + stageTime true stages answerss := rfl
        rw [hanswers, htotal]
        linarith

/-! ### Scripts -/

/-- A script takes no less time than the memory, however the simulator answers. -/
def Script.ChargesInFull (script : Script) : Prop :=
  ∀ answerss, Answered true script.stages answerss →
    (∀ answers ∈ answerss, ∀ a ∈ answers, a.Measured) →
    answeredTime answerss ≤ (script.status true answerss).totalDuration

theorem Script.status_stageTime {script : Script} (hreport : KeepsWork script.report)
    (hplain : ∀ stage ∈ script.stages, StagePlain stage) {answerss : List (List ExecStatus)}
    (hanswered : Answered true script.stages answerss)
    (hmeasured : ∀ answers ∈ answerss, ∀ a ∈ answers, a.Measured) :
    (script.status true answerss).totalDuration = stageTime true script.stages answerss := by
  unfold status
  rw [finish_totalDuration (plain_of_stages hplain hreport), charge_time hplain hanswered
    fun answers hanswers a ha => (hmeasured answers hanswers a ha).1]
  exact zero_add _

theorem Script.chargesInFull_of_charges {script : Script} (hreport : KeepsWork script.report)
    (hplain : ∀ stage ∈ script.stages, StagePlain stage)
    (h : ∀ stage ∈ script.stages, stage.Charges) : script.ChargesInFull := by
  intro answerss hanswered hmeasured
  rw [status_stageTime hreport hplain hanswered hmeasured]
  exact answeredTime_le_stageTime h hanswered hmeasured

theorem Script.not_chargesInFull {script : Script} (hreport : KeepsWork script.report)
    (hplain : ∀ stage ∈ script.stages, StagePlain stage)
    (h : ∃ stage ∈ script.stages, stage.Loses) : ¬ script.ChargesInFull := by
  intro hfull
  obtain ⟨answerss, hanswered, hmeasured, hexceeds⟩ := exists_exceeding h 0
  have hle := hfull answerss hanswered hmeasured
  rw [status_stageTime hreport hplain hanswered hmeasured] at hle
  linarith

/-! ### Executors -/

/-- No peak is negative. -/
structure ExecutorConfig.Rated (c : ExecutorConfig) : Prop where
  computePeakFlops : 0 ≤ c.computePeakFlops
  logicMemoryBandwidth : 0 ≤ c.logicMemoryBandwidth
  logicOpB : 0 ≤ c.logicOpB
  pimMemoryBandwidth : 0 ≤ c.pimMemoryBandwidth
  pimOpB : 0 ≤ c.pimOpB

theorem ExecutorConfig.Rated.rates {c : ExecutorConfig} (hc : c.Rated) {rates : Rates}
    (h : c.Offers rates) : 0 ≤ rates.computePeakFlops := by
  have hgpu := hc.computePeakFlops
  have hlogic := mul_nonneg hc.logicMemoryBandwidth hc.logicOpB
  have hpim := mul_nonneg hc.pimMemoryBandwidth hc.pimOpB
  cases h with
  | gpu => exact hgpu
  | logic precisionByte =>
    refine mul_nonneg hlogic ?_
    split_ifs <;> norm_num
  | pim precisionByte =>
    refine mul_nonneg hpim ?_
    split_ifs <;> norm_num
  | latent precisionByte =>
    refine mul_nonneg hgpu ?_
    split_ifs <;> norm_num
  | mixed => exact hpim

namespace Executor

/-- The layers of `attention_sum_impl`, and the latent ones of the other two. -/
def Charged (layerType : LayerType) : Prop :=
  layerType ∈ [.attentionSum, .mlaSum, .absorbedMlaSum, .mlaGen, .absorbedMlaGen, .mlaMixed]

instance (layerType : LayerType) : Decidable (Charged layerType) :=
  inferInstanceAs (Decidable (_ ∈ _))

/-- The stages of a sequence in prefill on the GPU, and of absorbed latent attention on the logic
die, leave out a transfer, and so does the second scoring of absorbed latent attention in decode. -/
def LeavesNothingOut (i : AttentionInput) (type : ProcessorType) : LayerType → Prop
  | .attentionSum => type = .gpu → i.sequencesMetadata.getSum = []
  | .absorbedMlaSum => type = .logic → i.sequencesMetadata.getSum = []
  | .absorbedMlaGen => i.layerInfo.useFlashMla = true
  | _ => True

section Stages
variable {rates : Rates} {info : LayerInfo} {precisionByte : ℕ}

theorem loses_scoringGPU (s : Sequence) :
    (AttentionSum.scoringGPU rates info precisionByte s).Loses :=
  .of_second rfl fun t => by simp [AttentionSum.scoringGPU]

theorem loses_scoringRopeLogic (s : Sequence) :
    (AbsorbSum.scoringRopeLogic rates info precisionByte s).Loses :=
  .of_second rfl fun t => by simp [AbsorbSum.scoringRopeLogic]

theorem loses_scoringRope {type : ProcessorType} (seqs : List Sequence) :
    (AbsorbGen.scoringRope type rates info precisionByte seqs).Loses :=
  .of_first (by decide : 0 < 3) fun _ => rfl

theorem charges_softmaxInBanks (hrates : 0 ≤ rates.computePeakFlops) (s : Sequence) :
    (AttentionSum.softmaxInBanks rates info s).Charges :=
  .of_compute rfl rfl (duration_nonneg hrates _)

end Stages

section Scripted
variable {i : AttentionInput} {layerType : LayerType} {type : ProcessorType} {script : Script}

/-- The stages of an executor that leaves nothing out. -/
theorem Scripted.charges (hc : i.config.Rated) (hlayer : Charged layerType)
    (hscript : Scripted i layerType type script) (hout : LeavesNothingOut i type layerType) :
    ∀ stage ∈ script.stages, stage.Charges := by
  cases hscript with
  | attentionSumGPU =>
    intro stage hstage
    simp [AttentionSum.gpuScript, byStage, hout rfl] at hstage
  | attentionSumLogic =>
    refine forall_mem_byStage.mpr ?_
    simp only [List.forall_mem_cons]
    exact ⟨fun s _ => .of_sum rfl rfl, fun s _ => charges_softmaxInBanks (hc.rates (.logic _)) s,
      fun s _ => .of_sum rfl rfl, by simp⟩
  | attentionSumPIM =>
    refine forall_mem_byStage.mpr ?_
    simp only [List.forall_mem_cons]
    exact ⟨fun s _ => .of_sum rfl rfl, fun s _ => charges_softmaxInBanks (hc.rates (.pim _)) s,
      fun s _ => .of_sum rfl rfl, by simp⟩
  | mlaSum =>
    exact LatentSum.forall_mem_stages (fun _ s _ => .of_sum rfl rfl)
      fun _ s _ => ⟨.of_sum rfl rfl, .of_sum rfl rfl, .of_sum rfl rfl⟩
  | absorbedSumGPU =>
    refine forall_mem_byStage.mpr ?_
    simp only [List.forall_mem_cons]
    exact ⟨fun s _ => .of_sum rfl rfl, fun s _ => .of_sum rfl rfl, fun s _ => .of_sum rfl rfl,
      fun s _ => .of_sum rfl rfl, by simp⟩
  | absorbedSumLogic =>
    intro stage hstage
    simp [absorbSumScript, byStage, hout rfl] at hstage
  | absorbedSumPIM _ hrates =>
    subst hrates
    refine forall_mem_byStage.mpr ?_
    simp only [List.forall_mem_cons]
    exact ⟨fun s _ => .of_sum rfl rfl, fun s _ => .of_sum rfl rfl,
      fun s _ => charges_softmaxInBanks (hc.rates (.pim _)) s, fun s _ => .of_sum rfl rfl, by simp⟩
  | mlaGen =>
    exact LatentGen.forall_mem_stages (fun _ => .of_sum rfl rfl)
      fun _ => ⟨.of_sum rfl rfl, fun s _ => .of_sum rfl rfl, .of_sum rfl rfl⟩
  | absorbedMlaGen =>
    have hflash : i.layerInfo.useFlashMla = true := hout
    exact AbsorbGen.forall_mem_stages (fun _ => .of_sum rfl rfl)
      fun hplain => absurd hflash (by simp [hplain])
  | mlaMixed =>
    refine forall_mem_byStage.mpr ?_
    simp only [List.forall_mem_cons]
    exact ⟨fun s _ => .of_sum rfl rfl, fun s _ => .of_sum rfl rfl, by simp⟩
  | _ => exact absurd hlayer (by decide)

/-- The others have a stage that leaves out a transfer. -/
theorem Scripted.loses (hscript : Scripted i layerType type script)
    (hout : ¬ LeavesNothingOut i type layerType) : ∃ stage ∈ script.stages, stage.Loses := by
  cases hscript with
  | attentionSumGPU =>
    obtain ⟨s, hs⟩ := List.exists_mem_of_ne_nil _ fun h => hout fun _ => h
    exact ⟨_, List.mem_flatMap.mpr ⟨_, List.mem_cons_self, List.mem_map_of_mem hs⟩,
      loses_scoringGPU s⟩
  | absorbedSumLogic =>
    obtain ⟨s, hs⟩ := List.exists_mem_of_ne_nil _ fun h => hout fun _ => h
    exact ⟨_, List.mem_flatMap.mpr
      ⟨_, List.mem_cons_of_mem _ List.mem_cons_self, List.mem_map_of_mem hs⟩,
      loses_scoringRopeLogic s⟩
  | @absorbedMlaGen _ rates input =>
    have hplain : ¬ i.layerInfo.useFlashMla = true := hout
    refine ⟨AbsorbGen.scoringRope type rates i.layerInfo input.precisionByte
      i.sequencesMetadata.getGen, ?_, loses_scoringRope _⟩
    dsimp only [AbsorbGen.script]
    rw [if_neg hplain]
    exact List.mem_cons_of_mem _ List.mem_cons_self
  | attentionSumLogic => exact absurd (nomatch ·) hout
  | attentionSumPIM => exact absurd (nomatch ·) hout
  | absorbedSumGPU => exact absurd (nomatch ·) hout
  | absorbedSumPIM => exact absurd (nomatch ·) hout
  | _ => exact absurd trivial hout

end Scripted

section Executions
variable {i : AttentionInput} {layerType : LayerType} {type : ProcessorType}

theorem charged_not_single (h : Charged layerType) : ¬ Single layerType := by
  revert h
  cases layerType <;> decide

/-- An executor takes at least the time in which the simulator answers exactly where none of its
stages leaves out a transfer. -/
theorem chargesInFull_iff (hc : i.config.Rated) (hlayer : Charged layerType) {r : Option Script}
    (hr : executorOf layerType type i = .ok r) :
    (∀ script, r = some script → script.ChargesInFull) ↔
      Spared i type layerType ∨ LeavesNothingOut i type layerType := by
  rcases executorOf_found hr with ⟨rfl, hspared⟩ | ⟨script, rfl, hscript⟩
  · exact iff_of_true (fun _ h => nomatch h) (.inl hspared)
  · rw [or_iff_right hscript.not_spared]
    have hstages := hscript.stagePlain (charged_not_single hlayer)
    constructor
    · intro hfull
      by_contra hout
      exact Script.not_chargesInFull hscript.plain.report hstages (hscript.loses hout)
        (hfull script rfl)
    · rintro hout _ ⟨rfl⟩
      exact Script.chargesInFull_of_charges hscript.plain.report hstages
        (hscript.charges hc hlayer hout)

/-- Then a run of it takes no less time than the simulator does for all of its requests. -/
theorem executePType_charges {d : DeviceMemory} {s s' : IssueState} {e : ExecStatus}
    {ops' : Operands} {script : Script} {time : ℚ} (hd : d.Forward) (hs : d.Reached s)
    (hscript : executorOf layerType type i = .ok (some script)) (hfull : script.ChargesInFull)
    (htime : simulatedTime d layerType type i s = .ok time)
    (h : executePType d true layerType type i s = .ok (e, ops', s')) : time ≤ e.totalDuration := by
  obtain ⟨callss, answerss, hanswered, hasks, rfl, hsimulated⟩ := executePType_answered hscript h
  obtain rfl := Except.ok.inj (htime.symm.trans (hsimulated rfl))
  exact hfull answerss hanswered (hs.askEach_measured hd hasks)

end Executions

/-- A prompt of four tokens on a device. -/
def onFourTokens : AttentionInput where
  config := heteroConfig
  tensors := [⟨2, [4, 80], 0, Nat.two_pos⟩, ⟨2, [4, 64], 0, Nat.two_pos⟩]
  sequencesMetadata := { BatchedSequence.create 0 0 with
    sequence := [{ Sequence.start 0 0 4 8 with numProcessToken := 4 }] }
  layerInfo := {}

theorem heteroConfig_rated : heteroConfig.Rated := by
  constructor <;> norm_num [heteroConfig]

theorem chargesInFull_logic : ∃ script, executorOf .attentionSum .logic onFourTokens
    = .ok (some script) ∧ script.ChargesInFull := by
  have hlayer : Charged .attentionSum := by decide
  have hout : LeavesNothingOut onFourTokens .logic .attentionSum := fun h => nomatch h
  exact ⟨_, rfl, (chargesInFull_iff heteroConfig_rated hlayer rfl).mpr (.inr hout) _ rfl⟩

/-- A memory in which every request takes ten seconds. -/
def slowMemory : DeviceMemory where
  memoryConfig := hbm3_80GB
  ramulator := fun _ => { «end» := 10 ^ 10 }

/-- On the GPU three of the eight requests for a prompt are charged. -/
theorem onFourTokens_uncharged : ∃ e ops s time,
    executePType slowMemory true .attentionSum .gpu onFourTokens {} = .ok (e, ops, s) ∧
      simulatedTime slowMemory .attentionSum .gpu onFourTokens {} = .ok time ∧
      e.totalDuration < time := by
  refine ⟨_, _, _, _, rfl, rfl, ?_⟩
  decide +kernel

end Executor
end LlmSystem
