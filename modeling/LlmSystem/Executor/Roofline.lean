import LlmSystem.Executor.Work
import Mathlib.Algebra.BigOperators.Ring.Finset
import Mathlib.Algebra.Order.BigOperators.Group.List
import Mathlib.Tactic.FieldSimp
import Mathlib.Tactic.GCongr
import Mathlib.Tactic.Linarith

/-!
The time of an executor against the peaks that it computes with: where the memory is not simulated
and not near the banks, an executor is as fast as its rates allow, and in two cases faster.
-/
namespace LlmSystem

/-- Every processor computes at least one operation for a byte that it reads. -/
structure ExecutorConfig.Positive (c : ExecutorConfig) : Prop where
  computePeakFlops : 0 < c.computePeakFlops
  memoryBandwidth : 0 < c.memoryBandwidth
  logicMemoryBandwidth : 0 < c.logicMemoryBandwidth
  logicOpB : 1 ≤ c.logicOpB
  pimMemoryBandwidth : 0 < c.pimMemoryBandwidth
  pimOpB : 1 ≤ c.pimOpB

/-- Operations for a byte, twice as many for operands of one byte. -/
def unitOpB (opB : ℚ) (precisionByte : ℕ) : ℚ := opB * (if precisionByte = 1 then 2 else 1)

theorem one_le_unitOpB {opB : ℚ} (h : 1 ≤ opB) (precisionByte : ℕ) :
    1 ≤ unitOpB opB precisionByte := by
  unfold unitOpB
  split_ifs
  · linarith
  · linarith

namespace Rates

structure Positive (rates : Rates) : Prop where
  computePeakFlops : 0 < rates.computePeakFlops
  memoryBandwidth : 0 < rates.memoryBandwidth

/-- Units with `opB` operations for a byte. -/
structure IsUnit (rates : Rates) (opB : ℚ) : Prop where
  one_le : 1 ≤ opB
  memoryBandwidth : 0 < rates.memoryBandwidth
  computePeakFlops : rates.computePeakFlops = rates.memoryBandwidth * opB

theorem IsUnit.positive {rates : Rates} {opB : ℚ} (h : rates.IsUnit opB) : rates.Positive where
  computePeakFlops := by
    rw [h.computePeakFlops]
    exact mul_pos h.memoryBandwidth (one_pos.trans_le h.one_le)
  memoryBandwidth := h.memoryBandwidth

end Rates

namespace ExecutorConfig.Positive
variable {c : ExecutorConfig} (hc : c.Positive)
include hc

theorem gpu : c.gpuRates.Positive := ⟨hc.computePeakFlops, hc.memoryBandwidth⟩

theorem logic (precisionByte : ℕ) :
    (c.logicRates precisionByte).IsUnit (unitOpB c.logicOpB precisionByte) :=
  ⟨one_le_unitOpB hc.logicOpB precisionByte, hc.logicMemoryBandwidth, mul_assoc _ _ _⟩

theorem pim (precisionByte : ℕ) :
    (c.pimRates precisionByte).IsUnit (unitOpB c.pimOpB precisionByte) :=
  ⟨one_le_unitOpB hc.pimOpB precisionByte, hc.pimMemoryBandwidth, mul_assoc _ _ _⟩

theorem rates {rates : Rates} (h : c.Offers rates) : rates.Positive := by
  cases h with
  | gpu => exact hc.gpu
  | logic precisionByte => exact (hc.logic precisionByte).positive
  | pim precisionByte => exact (hc.pim precisionByte).positive
  | latent precisionByte =>
    refine ⟨mul_pos hc.computePeakFlops ?_, hc.memoryBandwidth⟩
    split_ifs
    · exact two_pos
    · exact one_pos
  | mixed => exact ⟨mul_pos hc.pimMemoryBandwidth (one_pos.trans_le hc.pimOpB),
      hc.pimMemoryBandwidth⟩

end ExecutorConfig.Positive

/-! ### Times -/

theorem duration_nonneg {rate : ℚ} (h : 0 ≤ rate) (work : ℕ) : 0 ≤ duration work rate := by
  unfold duration
  positivity

theorem duration_zero (rate : ℚ) : duration 0 rate = 0 := by
  simp [duration]

theorem duration_add (work work' : ℕ) (rate : ℚ) :
    duration (work + work') rate = duration work rate + duration work' rate := by
  unfold duration
  push_cast
  ring

theorem duration_sum {α : Type*} (work : α → ℕ) (l : List α) (rate : ℚ) :
    duration (l.map work).sum rate = (l.map fun a => duration (work a) rate).sum := by
  induction l with
  | nil => exact duration_zero rate
  | cons a l ih =>
    rw [List.map_cons, List.sum_cons, duration_add, ih]
    rfl

/-- No time is saved at a higher rate only for work at the lower one. -/
theorem duration_anti {rate rate' : ℚ} (h : 0 < rate) (hle : rate ≤ rate') (work : ℕ) :
    duration work rate' ≤ duration work rate := by
  unfold duration
  gcongr

theorem duration_mul_rate {rate : ℚ} (h : 0 < rate) (work : ℕ) :
    duration work rate * rate = work * 10 ^ 9 := by
  unfold duration
  field_simp
  ring

theorem Rates.IsUnit.duration_mul {rates : Rates} {o : ℚ} (h : rates.IsUnit o) (work : ℕ) :
    duration work rates.computePeakFlops * rates.memoryBandwidth = work / o * 10 ^ 9 := by
  have hbyte := h.memoryBandwidth
  have ho := one_pos.trans_le h.one_le
  unfold duration
  rw [h.computePeakFlops]
  field_simp
  ring

/-! ### Stages -/

namespace Stage

/-- A stage takes no less time than its work does at the given rates. -/
structure Within (rates : Rates) (stage : Stage) : Prop where
  compute : duration stage.flops rates.computePeakFlops ≤ stage.idealTime
  memory : duration stage.memorySize rates.memoryBandwidth ≤ stage.idealTime

section Within
variable {rates : Rates} {stage : Stage}

theorem Within.of_max (hclock : stage.clock = max)
    (hcompute : duration stage.flops rates.computePeakFlops ≤ stage.computeDuration)
    (hmemory : duration stage.memorySize rates.memoryBandwidth ≤ stage.memoryDuration) :
    stage.Within rates := by
  have htime : stage.idealTime = max stage.computeDuration stage.memoryDuration := by
    unfold idealTime
    rw [hclock]
  constructor
  · rw [htime]
    exact hcompute.trans (le_max_left _ _)
  · rw [htime]
    exact hmemory.trans (le_max_right _ _)

/-- A stage that moves nothing may take the time of the computation only. -/
theorem Within.of_compute (hrates : rates.Positive)
    (hclock : stage.clock = fun compute _ => compute)
    (hcompute : duration stage.flops rates.computePeakFlops = stage.computeDuration)
    (hmemory : stage.memorySize = 0) : stage.Within rates := by
  have htime : stage.idealTime = duration stage.flops rates.computePeakFlops := by
    unfold idealTime
    rw [hclock, hcompute]
  constructor
  · exact htime.ge
  · rw [htime, hmemory, duration_zero]
    exact duration_nonneg hrates.computePeakFlops.le _

/-- The bytes of a stage and those that could be moved besides. -/
theorem idealTime_ofWork {o : ℚ} (h : rates.IsUnit o) (flops memorySize : ℕ)
    (transfers : List Transfer) :
    (ofWork rates flops memorySize transfers).idealTime * rates.memoryBandwidth
      = (memorySize + max 0 (flops / o - memorySize : ℚ)) * 10 ^ 9 := by
  show max (duration flops rates.computePeakFlops) (duration memorySize rates.memoryBandwidth)
    * rates.memoryBandwidth = _
  rw [max_mul_of_nonneg _ _ h.memoryBandwidth.le, h.duration_mul,
    duration_mul_rate h.memoryBandwidth, ← max_add_add_left, add_zero, add_sub_cancel,
    max_mul_of_nonneg _ _ (by positivity), max_comm]

end Within
end Stage

/-! ### Scripts -/

theorem Stage.charge_flops {stage : Stage} (hrecord : ∀ total, KeepsWork (stage.record total))
    (useRamulator : Bool) (e : ExecStatus) (answers : List ExecStatus) :
    (stage.charge useRamulator e answers).flops = e.flops ∧
      (stage.charge useRamulator e answers).memorySize = e.memorySize := by
  obtain ⟨hflops, hmemory⟩ := ExecStatus.foldl_add_flops answers e
  unfold charge
  dsimp only
  rw [(hrecord _).flops, (hrecord _).memorySize]
  by_cases hstatus : stage.fromStatus ∧ ¬ useRamulator
  · simp only [if_pos hstatus]
    exact ⟨hflops, hmemory⟩
  · simp only [if_neg hstatus]
    exact ⟨hflops, hmemory⟩

namespace Script
variable {script : Script} {useRamulator : Bool} {answerss : List (List ExecStatus)}

theorem charge_flops {stages : List Stage}
    (hrecord : ∀ stage ∈ stages, ∀ total, KeepsWork (stage.record total)) (e : ExecStatus) :
    (charge useRamulator e stages answerss).flops = e.flops ∧
      (charge useRamulator e stages answerss).memorySize = e.memorySize := by
  induction stages generalizing answerss e with
  | nil =>
    unfold charge
    exact ⟨rfl, rfl⟩
  | cons stage stages ih =>
    obtain ⟨hone, hrest⟩ := List.forall_mem_cons.mp hrecord
    cases answerss with
    | nil =>
      unfold charge
      exact ⟨rfl, rfl⟩
    | cons answers answerss =>
      unfold charge
      obtain ⟨hflops, hmemory⟩ := Stage.charge_flops hone useRamulator e answers
      obtain ⟨hflops', hmemory'⟩ := ih hrest (stage.charge useRamulator e answers)
      exact ⟨hflops'.trans hflops, hmemory'.trans hmemory⟩

/-- Work that is not reported is reported as none. -/
theorem status_work (hplain : script.Plain) :
    (script.status useRamulator answerss).flops
        = (if script.reported then script.flops else 0 : ℕ) ∧
      (script.status useRamulator answerss).memorySize
        = (if script.reported then script.memorySize else 0 : ℕ) := by
  by_cases hreported : script.reported = true
  · rw [if_pos hreported, if_pos hreported]
    exact status_flops hplain hreported
  · have hnone : (charge useRamulator {} script.stages answerss).flops = 0 ∧
        (charge useRamulator {} script.stages answerss).memorySize = 0 :=
      charge_flops hplain.record {}
    unfold status finish
    dsimp only
    rw [hplain.report.flops, hplain.report.memorySize, if_neg hreported, if_neg hreported,
      if_neg hreported, Nat.cast_zero]
    exact hnone

/-- The time of all stages, without the simulator. -/
def idealTotal (script : Script) : ℚ := (script.stages.map Stage.idealTime).sum

/-- The time is enough for all work at the rates of the executor. -/
structure Within (script : Script) : Prop where
  compute : duration script.flops script.rates.computePeakFlops ≤ script.idealTotal
  memory : duration script.memorySize script.rates.memoryBandwidth ≤ script.idealTotal

theorem compute_of_stages
    (h : ∀ stage ∈ script.stages,
      duration stage.flops script.rates.computePeakFlops ≤ stage.idealTime) :
    duration script.flops script.rates.computePeakFlops ≤ script.idealTotal := by
  unfold flops idealTotal
  rw [duration_sum]
  exact List.sum_le_sum h

theorem memory_of_stages
    (h : ∀ stage ∈ script.stages,
      duration stage.memorySize script.rates.memoryBandwidth ≤ stage.idealTime) :
    duration script.memorySize script.rates.memoryBandwidth ≤ script.idealTotal := by
  unfold memorySize idealTotal
  rw [duration_sum]
  exact List.sum_le_sum h

/-- It is, where each stage's time is enough for its own work. -/
theorem within_of_stages (h : ∀ stage ∈ script.stages, stage.Within script.rates) :
    script.Within where
  compute := compute_of_stages fun stage hstage => (h stage hstage).compute
  memory := memory_of_stages fun stage hstage => (h stage hstage).memory

end Script

/-! ### Reports -/

/-- What is reported of a layer that took any time keeps to the rates of the executor. -/
structure ExecStatus.Within (rates : Rates) (e : ExecStatus) : Prop where
  flops : e.flops / rates.computePeakFlops * 10 ^ 9 ≤ e.totalDuration
  memorySize : e.memorySize / rates.memoryBandwidth * 10 ^ 9 ≤ e.totalDuration
  computeUtil : e.computeUtil ≤ 1
  memoryUtil : e.memoryUtil ≤ 1

/-- A utilization is the part of the time that the work takes. -/
theorem util_le_one_iff {work : ℕ} {rate total : ℚ} (htotal : 0 < total) :
    1000 * 1000 * 1000 * work / rate / total ≤ 1 ↔ duration work rate ≤ total := by
  have hwork : 1000 * 1000 * 1000 * (work : ℚ) / rate = duration work rate := by
    unfold duration
    ring
  rw [hwork, div_le_one htotal]

theorem Script.status_within_iff {script : Script} {answerss : List (List ExecStatus)}
    (hplain : script.Plain) (hrates : script.rates.Positive)
    (hlen : answerss.length = script.stages.length)
    (hcounts : ∀ answers ∈ answerss, ∀ e ∈ answers, e.Counts)
    (htotal : 0 < (script.status false answerss).totalDuration) :
    (script.status false answerss).Within script.rates ↔ script.Within := by
  have hideal : (script.status false answerss).totalDuration = script.idealTotal :=
    status_totalDuration hplain hlen hcounts
  obtain ⟨hcompute, hmemory⟩ := finish_utils hplain (charge false {} script.stages answerss)
  have hsame : (charge false {} script.stages answerss).totalDuration = script.idealTotal :=
    (finish_totalDuration hplain _).symm.trans hideal
  rw [hideal] at htotal
  constructor
  · intro h
    have hutil := h.computeUtil
    have hutil' := h.memoryUtil
    unfold status at hutil hutil'
    rw [hcompute, hsame, util_le_one_iff htotal] at hutil
    rw [hmemory, hsame, util_le_one_iff htotal] at hutil'
    exact ⟨hutil, hutil'⟩
  · intro h
    obtain ⟨hwork, hwork'⟩ : (script.status false answerss).flops = _ ∧ _ = _ :=
      status_work hplain
    have hflops : (script.status false answerss).flops ≤ script.flops := by
      rw [hwork]
      split_ifs <;> simp
    have hsize : (script.status false answerss).memorySize ≤ script.memorySize := by
      rw [hwork']
      split_ifs <;> simp
    have hflop := hrates.computePeakFlops
    have hbyte := hrates.memoryBandwidth
    constructor
    · rw [hideal]
      refine le_trans ?_ h.compute
      unfold duration
      rw [mul_assoc, mul_assoc, show (1000 * (1000 * 1000) : ℚ) = 10 ^ 9 by norm_num]
      gcongr
    · rw [hideal]
      refine le_trans ?_ h.memory
      unfold duration
      rw [mul_assoc, mul_assoc, show (1000 * (1000 * 1000) : ℚ) = 10 ^ 9 by norm_num]
      gcongr
    · unfold status
      rw [hcompute, hsame, util_le_one_iff htotal]
      exact h.compute
    · unfold status
      rw [hmemory, hsame, util_le_one_iff htotal]
      exact h.memory

/-! ### Executors -/

namespace Executor

section Stages
variable {rates : Rates} {info : LayerInfo} {p : ℕ}

/-- The GPU computes at half of its peak. -/
theorem within_gpuStage {flops memorySize len cache : ℕ} {record : ℚ → ExecStatus → ExecStatus}
    (hrates : rates.Positive) :
    (AttentionGen.gpuStage info p rates flops memorySize len cache record).Within rates := by
  have hpeak := hrates.computePeakFlops
  have hhalf : 0 < (AttentionGen.effective rates).computePeakFlops := by
    unfold AttentionGen.effective
    dsimp only
    positivity
  apply Stage.Within.of_max rfl
  · have hslow : duration flops rates.computePeakFlops
        ≤ duration flops (AttentionGen.effective rates).computePeakFlops := by
      apply duration_anti hhalf
      unfold AttentionGen.effective
      dsimp only
      linarith
    have hdequant : 0 ≤ AttentionGen.dequantTime info p rates len := by
      unfold AttentionGen.dequantTime
      split_ifs
      · exact duration_nonneg hhalf.le _
      · exact le_refl 0
    exact hslow.trans (le_add_of_nonneg_right hdequant)
  · exact le_refl _

theorem within_softmaxInBanks (hrates : rates.Positive) (s : Sequence) :
    (AttentionSum.softmaxInBanks rates info s).Within rates :=
  Stage.Within.of_compute hrates rfl rfl rfl

/-- The scores take time that is not needed for the size that is reported. -/
theorem within_latentSoftmax {type : ProcessorType} (hrates : rates.Positive) (s : Sequence) :
    (LatentGen.softmax type rates info p s).Within rates := by
  apply Stage.Within.of_max rfl (le_refl _)
  show duration 0 _ ≤ _
  rw [duration_zero]
  exact duration_nonneg hrates.memoryBandwidth.le _

end Stages

/-! ### Keys and values in the banks -/

/-- The operations on the keys and values are no fewer than their bytes, where those of the softmax
come `o` to a byte. -/
def GenIntense (info : LayerInfo) (p : ℕ) (o : ℚ) (seqs : List Sequence) : Prop :=
  (∀ s ∈ seqs, s.processed * s.attended = 0) ∨
    (seqs.map fun s => (s.attended * (2 * info.numKvHeads * info.headDim * p) : ℚ)).sum
      ≤ (seqs.map fun s => (s.processed * s.attended * (4 * info.numKvHeads * info.headDim
          * info.attentionGroupSize + 7 * info.numHeads / o) : ℚ)).sum

section Banks
variable {info : LayerInfo} {p : ℕ} {o : ℚ} {c : ExecutorConfig} {seqs : List Sequence}

theorem two_mul_cacheSize : (2 * AttentionGen.cacheSize info p seqs : ℚ)
    = (seqs.map fun s => (s.attended * (2 * info.numKvHeads * info.headDim * p) : ℚ)).sum := by
  unfold AttentionGen.cacheSize
  rw [Nat.cast_list_sum, List.map_map, ← List.sum_map_mul_left]
  congr 1
  refine List.map_congr_left fun s _ => ?_
  simp only [Function.comp_apply]
  push_cast
  ring

theorem two_mul_flops_add_softmax : (2 * AttentionGen.flops info seqs
      + AttentionGen.softmaxTotal info seqs / o : ℚ)
    = (seqs.map fun s => (s.processed * s.attended * (4 * info.numKvHeads * info.headDim
        * info.attentionGroupSize + 7 * info.numHeads / o) : ℚ)).sum := by
  unfold AttentionGen.flops AttentionGen.softmaxTotal
  rw [Nat.cast_list_sum, Nat.cast_list_sum, List.map_map, List.map_map, ← List.sum_map_mul_left,
    div_eq_mul_inv, ← List.sum_map_mul_right, ← List.sum_map_add]
  congr 1
  refine List.map_congr_left fun s _ => ?_
  simp only [Function.comp_apply, AttentionGen.headFlops, softmaxFlops]
  push_cast
  ring

/-- Without bytes there are no operations. -/
theorem flops_eq_zero_of_cacheSize (hp : 0 < p) (h : AttentionGen.cacheSize info p seqs = 0) :
    AttentionGen.flops info seqs = 0 := by
  unfold AttentionGen.cacheSize at h
  unfold AttentionGen.flops
  rw [List.sum_eq_zero_iff] at h ⊢
  simp only [List.mem_map, forall_exists_index, and_imp, forall_apply_eq_imp_iff₂] at h ⊢
  intro s hs
  have hnone : s.attended = 0 := by
    have hzero := h s hs
    have hheads := info.numKvHeads_pos
    have hdim := info.headDim_pos
    simpa [hheads.ne', hdim.ne', hp.ne'] using hzero
  unfold AttentionGen.headFlops
  rw [hnone]
  ring

theorem softmaxTotal_eq_zero :
    AttentionGen.softmaxTotal info seqs = 0 ↔ ∀ s ∈ seqs, s.processed * s.attended = 0 := by
  unfold AttentionGen.softmaxTotal
  rw [List.sum_eq_zero_iff]
  simp only [List.mem_map, forall_exists_index, and_imp, forall_apply_eq_imp_iff₂, softmaxFlops,
    mul_assoc, Nat.mul_eq_zero, info.numHeads_pos.ne', or_false, OfNat.ofNat_ne_zero, false_or]

theorem flops_eq_zero_of_idle (h : ∀ s ∈ seqs, s.processed * s.attended = 0) :
    AttentionGen.flops info seqs = 0 := by
  unfold AttentionGen.flops
  rw [List.sum_eq_zero_iff]
  simp only [List.mem_map, forall_exists_index, and_imp, forall_apply_eq_imp_iff₂]
  intro s hs
  calc info.numKvHeads * (s.processed * info.headDim * s.attended * 2 * info.attentionGroupSize)
      = s.processed * s.attended
          * (info.numKvHeads * info.headDim * 2 * info.attentionGroupSize) := by ring
    _ = 0 := by rw [h s hs, zero_mul]

/-- The memory time, scaled with the operations for each byte, is the time in which as many bytes
are moved as there are operations. -/
theorem duration_mul_intensity {rate : ℚ} {bytes flops : ℕ} (h : bytes = 0 → flops = 0) :
    duration bytes rate * (flops / bytes) = duration flops rate := by
  by_cases hbytes : bytes = 0
  · rw [hbytes, h hbytes]
    simp [duration]
  · have hne : (bytes : ℚ) ≠ 0 := Nat.cast_ne_zero.mpr hbytes
    unfold duration
    field_simp

theorem idealTime_scoringPIM (hp : 0 < p)
    (hnearbank : c.nearbankPimConfig.enableNearbankModel = false) :
    (AttentionGen.scoringPIM info p c seqs).idealTime
      = duration (AttentionGen.flops info seqs) (c.pimRates p).memoryBandwidth := by
  unfold AttentionGen.scoringPIM AttentionGen.scoringUnit
  dsimp only
  rw [hnearbank, if_neg (by simp)]
  exact duration_mul_intensity (flops_eq_zero_of_cacheSize hp)

theorem idealTime_contextPIM (hp : 0 < p)
    (hnearbank : c.nearbankPimConfig.enableNearbankModel = false) :
    (AttentionGen.contextPIM info p c seqs).idealTime
      = duration (AttentionGen.flops info seqs) (c.pimRates p).memoryBandwidth := by
  have hsame : ((AttentionGen.flops info seqs + AttentionGen.flops info seqs : ℕ) : ℚ)
        / (AttentionGen.cacheSize info p seqs + AttentionGen.cacheSize info p seqs : ℕ)
      = AttentionGen.flops info seqs / AttentionGen.cacheSize info p seqs := by
    push_cast
    rw [← two_mul, ← two_mul, mul_div_mul_left _ _ two_ne_zero]
  unfold AttentionGen.contextPIM AttentionGen.contextUnit
  dsimp only
  rw [hnearbank, if_neg (by simp), hsame]
  exact duration_mul_intensity (flops_eq_zero_of_cacheSize hp)

theorem idealTime_softmaxPIM (hnearbank : c.nearbankPimConfig.enableNearbankModel = false) :
    (AttentionGen.softmaxPIM info p c seqs).idealTime
      = duration (AttentionGen.softmaxTotal info seqs) (c.pimRates p).computePeakFlops := by
  show (if c.nearbankPimConfig.enableNearbankModel = true then _ else _) = _
  rw [hnearbank, if_neg (by simp)]

/-- The three stages of the executor. -/
def banksScript (info : LayerInfo) (p : ℕ) (c : ExecutorConfig) (seqs : List Sequence)
    (report : ExecStatus → ExecStatus) : Script :=
  attentionGenScript (c.pimRates p) [AttentionGen.scoringPIM info p c seqs,
    AttentionGen.softmaxPIM info p c seqs, AttentionGen.contextPIM info p c seqs] report

variable {report : ExecStatus → ExecStatus}

theorem idealTotal_banksScript (hp : 0 < p) (hc : c.Positive)
    (hnearbank : c.nearbankPimConfig.enableNearbankModel = false) :
    (banksScript info p c seqs report).idealTotal * (c.pimRates p).memoryBandwidth
      = (2 * AttentionGen.flops info seqs
        + AttentionGen.softmaxTotal info seqs / unitOpB c.pimOpB p) * 10 ^ 9 := by
  have hstages : (banksScript info p c seqs report).idealTotal
      = (AttentionGen.scoringPIM info p c seqs).idealTime
        + ((AttentionGen.softmaxPIM info p c seqs).idealTime
          + ((AttentionGen.contextPIM info p c seqs).idealTime + 0)) := rfl
  have hunit := hc.pim p
  rw [hstages, idealTime_scoringPIM hp hnearbank, idealTime_softmaxPIM hnearbank,
    idealTime_contextPIM hp hnearbank, add_zero, add_mul, add_mul,
    duration_mul_rate hunit.memoryBandwidth, hunit.duration_mul]
  ring

/-- Where there are more bytes than operations, the time is not enough to move them. -/
theorem banksScript_within_iff (hp : 0 < p) (hc : c.Positive)
    (hnearbank : c.nearbankPimConfig.enableNearbankModel = false) :
    (0 < (banksScript info p c seqs report).idealTotal →
        (banksScript info p c seqs report).Within) ↔
      GenIntense info p (unitOpB c.pimOpB p) seqs := by
  have hunit := hc.pim p
  have hbyte := hunit.memoryBandwidth
  have ho := one_pos.trans_le hunit.one_le
  have htotal : (banksScript info p c seqs report).idealTotal * (c.pimRates p).memoryBandwidth
      = _ := idealTotal_banksScript hp hc hnearbank
  by_cases hidle : ∀ s ∈ seqs, s.processed * s.attended = 0
  · refine iff_of_true (fun hpos => ?_) (.inl hidle)
    rw [flops_eq_zero_of_idle hidle, softmaxTotal_eq_zero.mpr hidle] at htotal
    have hzero := mul_pos hpos hbyte
    simp [htotal] at hzero
  · have hsoftmax : 0 < AttentionGen.softmaxTotal info seqs :=
      Nat.pos_of_ne_zero fun hzero => hidle (softmaxTotal_eq_zero.mp hzero)
    have hpos : 0 < (banksScript info p c seqs report).idealTotal := by
      apply pos_of_mul_pos_left _ hbyte.le
      rw [htotal]
      positivity
    have hcompute : duration (banksScript info p c seqs report).flops
        (c.pimRates p).computePeakFlops ≤ (banksScript info p c seqs report).idealTotal := by
      have hfewer : (AttentionGen.flops info seqs + AttentionGen.flops info seqs : ℚ)
            / unitOpB c.pimOpB p
          ≤ AttentionGen.flops info seqs + AttentionGen.flops info seqs :=
        div_le_self (by positivity) hunit.one_le
      have hrest : (0 : ℚ) ≤ AttentionGen.softmaxTotal info seqs / unitOpB c.pimOpB p := by
        positivity
      apply le_of_mul_le_mul_right _ hbyte
      rw [htotal, hunit.duration_mul, banksScript, AttentionGen.flops_pim]
      push_cast
      linarith
    have hmemory : duration (banksScript info p c seqs report).memorySize
          (c.pimRates p).memoryBandwidth ≤ (banksScript info p c seqs report).idealTotal ↔
        (2 * AttentionGen.cacheSize info p seqs : ℚ) ≤ 2 * AttentionGen.flops info seqs
          + AttentionGen.softmaxTotal info seqs / unitOpB c.pimOpB p := by
      rw [← mul_le_mul_iff_left₀ hbyte, htotal, duration_mul_rate hbyte, banksScript,
        AttentionGen.memorySize_pim,
        mul_le_mul_iff_left₀ (by positivity)]
      push_cast
      rw [two_mul, two_mul]
    unfold GenIntense
    rw [or_iff_right hidle, ← two_mul_cacheSize, ← two_mul_flops_add_softmax, ← hmemory]
    exact ⟨fun h => (h hpos).memory, fun h _ => ⟨hcompute, h⟩⟩

end Banks

/-! ### Scores on the logic die -/

/-- The bytes that could be moved during a product, besides its own. -/
def headroom (info : LayerInfo) (p : ℕ) (o : ℚ) (k : ℕ) (s : Sequence) : ℚ :=
  max 0 (matmulFlops s.processed k s.attended info.numHeads / o
    - matmulSize s.processed k s.attended info.numHeads 1 * p)

/-- The scores could be moved in the time of the softmax and of the three products. -/
def ScoresHidden (info : LayerInfo) (p : ℕ) (o : ℚ) (seqs : List Sequence) : Prop :=
  (seqs.map fun s => (2 * (s.processed * s.attended * info.numHeads) * p : ℚ)).sum
    ≤ (seqs.map fun s => 7 * s.processed * s.attended * info.numHeads / o
        + 2 * headroom info p o info.kvLoraRank s + headroom info p o info.qkRopeHeadDim s).sum

section Scores
variable {rates : Rates} {info : LayerInfo} {p : ℕ} {o : ℚ} {seqs : List Sequence}

/-- The bytes of the three products. -/
def productBytes (info : LayerInfo) (p : ℕ) (s : Sequence) : ℕ :=
  matmulSize s.processed info.kvLoraRank s.attended info.numHeads 1 * p
    + matmulSize s.processed info.qkRopeHeadDim s.attended info.numHeads 1 * p
    + matmulSize s.processed s.attended info.kvLoraRank info.numHeads 1 * p

theorem scores_le_productBytes (s : Sequence) :
    2 * (s.processed * s.attended * info.numHeads) * p ≤ productBytes info p s := by
  unfold productBytes matmulSize
  have hsplit : (s.processed * info.kvLoraRank * info.numHeads + info.kvLoraRank * s.attended * 1
        + s.processed * s.attended * info.numHeads) * p
      + (s.processed * info.qkRopeHeadDim * info.numHeads + info.qkRopeHeadDim * s.attended * 1
        + s.processed * s.attended * info.numHeads) * p
      + (s.processed * s.attended * info.numHeads + s.attended * info.kvLoraRank * 1
        + s.processed * info.kvLoraRank * info.numHeads) * p
      = 2 * (s.processed * s.attended * info.numHeads) * p
        + ((2 * s.processed * info.kvLoraRank * info.numHeads
          + 2 * info.kvLoraRank * s.attended + s.processed * info.qkRopeHeadDim * info.numHeads
          + info.qkRopeHeadDim * s.attended + s.processed * s.attended * info.numHeads) * p) := by
    ring
  rw [hsplit]
  exact Nat.le_add_right _ _

theorem headroom_nonneg (k : ℕ) (s : Sequence) : 0 ≤ headroom info p o k s := le_max_left _ _

theorem headroom_context (s : Sequence) :
    max 0 (matmulFlops s.processed s.attended info.kvLoraRank info.numHeads / o
      - (matmulSize s.processed s.attended info.kvLoraRank info.numHeads 1 * p : ℕ))
      = headroom info p o info.kvLoraRank s := by
  unfold headroom matmulFlops matmulSize
  push_cast
  congr 2
  · ring
  · ring

/-- The time of a sequence in bytes: those of the products, and those that could be moved besides
in the time of the products and of the softmax. -/
theorem sequence_time (h : rates.IsUnit o) (s : Sequence) :
    ((AbsorbSum.scoringNopeLogic rates info p s).idealTime
        + (AbsorbSum.scoringRopeLogic rates info p s).idealTime
        + (AbsorbSum.softmaxLogic rates info p s).idealTime
        + (AbsorbSum.contextLogic rates info p s).idealTime) * rates.memoryBandwidth
      = (productBytes info p s + (7 * s.processed * s.attended * info.numHeads / o
          + 2 * headroom info p o info.kvLoraRank s
          + headroom info p o info.qkRopeHeadDim s)) * 10 ^ 9 := by
  have hnope : (AbsorbSum.scoringNopeLogic rates info p s).idealTime * rates.memoryBandwidth = _ :=
    Stage.idealTime_ofWork h _ _ []
  have hrope : (AbsorbSum.scoringRopeLogic rates info p s).idealTime * rates.memoryBandwidth = _ :=
    Stage.idealTime_ofWork h _ _ []
  have hcontext : (AbsorbSum.contextLogic rates info p s).idealTime * rates.memoryBandwidth = _ :=
    Stage.idealTime_ofWork h _ _ []
  have hsoftmax : (AbsorbSum.softmaxLogic rates info p s).idealTime * rates.memoryBandwidth = _ :=
    h.duration_mul (softmaxFlops s.processed s.attended info.numHeads)
  rw [add_mul, add_mul, add_mul, hnope, hrope, hsoftmax, hcontext, headroom_context]
  unfold productBytes headroom softmaxFlops
  push_cast
  ring

/-- The four stages of the executor. -/
def scoresScript (rates : Rates) (info : LayerInfo) (p : ℕ) (seqs : List Sequence) : Script :=
  absorbSumScript rates
    [AbsorbSum.scoringNopeLogic rates info p, AbsorbSum.scoringRopeLogic rates info p,
      AbsorbSum.softmaxLogic rates info p, AbsorbSum.contextLogic rates info p] seqs

theorem compute_scoresScript :
    duration (scoresScript rates info p seqs).flops rates.computePeakFlops
      ≤ (scoresScript rates info p seqs).idealTotal := by
  apply Script.compute_of_stages
  refine forall_mem_byStage.mpr ?_
  simp only [List.forall_mem_cons]
  exact ⟨fun s _ => le_max_left _ _, fun s _ => le_max_left _ _, fun s _ => le_refl _,
    fun s _ => le_max_left _ _, by simp⟩

theorem memorySize_scoresScript : (scoresScript rates info p seqs).memorySize
    = (seqs.map (productBytes info p)).sum
      + (seqs.map fun s => 2 * (s.processed * s.attended * info.numHeads) * p).sum := by
  unfold Script.memorySize scoresScript absorbSumScript
  dsimp only
  rw [sum_byStage]
  simp only [List.map_cons, List.map_nil, List.sum_cons, List.sum_nil, add_zero,
    ← List.sum_map_add]
  congr 1
  refine List.map_congr_left fun s _ => ?_
  have hstages : productBytes info p s = (AbsorbSum.scoringNopeLogic rates info p s).memorySize
    + (AbsorbSum.scoringRopeLogic rates info p s).memorySize
    + (AbsorbSum.contextLogic rates info p s).memorySize := rfl
  have hscores : (AbsorbSum.softmaxLogic rates info p s).memorySize
    = 2 * (s.processed * s.attended * info.numHeads) * p := rfl
  rw [hstages, hscores]
  ring

theorem idealTotal_scoresScript (h : rates.IsUnit o) :
    (scoresScript rates info p seqs).idealTotal * rates.memoryBandwidth
      = ((seqs.map fun s => (productBytes info p s : ℚ)).sum
        + (seqs.map fun s => 7 * s.processed * s.attended * info.numHeads / o
          + 2 * headroom info p o info.kvLoraRank s
          + headroom info p o info.qkRopeHeadDim s).sum) * 10 ^ 9 := by
  unfold Script.idealTotal scoresScript absorbSumScript
  dsimp only
  rw [sum_byStage]
  simp only [List.map_cons, List.map_nil, List.sum_cons, List.sum_nil, add_zero,
    ← List.sum_map_add, ← List.sum_map_mul_right]
  congr 1
  refine List.map_congr_left fun s _ => ?_
  rw [← sequence_time h]
  ring

/-- Where the scores cannot be hidden, the time is not enough to move them. -/
theorem scoresScript_within_iff (h : rates.IsUnit o) :
    (0 < (scoresScript rates info p seqs).idealTotal → (scoresScript rates info p seqs).Within) ↔
      ScoresHidden info p o seqs := by
  have hbyte := h.memoryBandwidth
  have ho := one_pos.trans_le h.one_le
  have htotal : (scoresScript rates info p seqs).idealTotal * rates.memoryBandwidth = _ :=
    idealTotal_scoresScript h
  have hscores : (seqs.map fun s => (2 * (s.processed * s.attended * info.numHeads) * p : ℚ)).sum
      ≤ (seqs.map fun s => (productBytes info p s : ℚ)).sum := by
    apply List.sum_le_sum
    intro s _
    have hbytes : 2 * (s.processed * s.attended * info.numHeads) * p ≤ productBytes info p s :=
      scores_le_productBytes s
    exact_mod_cast hbytes
  have hhidden : 0 ≤ (seqs.map fun s => 7 * s.processed * s.attended * info.numHeads / o
      + 2 * headroom info p o info.kvLoraRank s
      + headroom info p o info.qkRopeHeadDim s).sum := by
    apply List.sum_nonneg
    simp only [List.mem_map, forall_exists_index, and_imp, forall_apply_eq_imp_iff₂]
    intro s _
    have hnope : 0 ≤ headroom info p o info.kvLoraRank s := headroom_nonneg _ s
    have hrope : 0 ≤ headroom info p o info.qkRopeHeadDim s := headroom_nonneg _ s
    positivity
  have hmemory : duration (scoresScript rates info p seqs).memorySize rates.memoryBandwidth
      ≤ (scoresScript rates info p seqs).idealTotal ↔ ScoresHidden info p o seqs := by
    rw [← mul_le_mul_iff_left₀ hbyte, htotal, duration_mul_rate hbyte, memorySize_scoresScript,
      mul_le_mul_iff_left₀ (by positivity), Nat.cast_add, Nat.cast_list_sum, Nat.cast_list_sum,
      List.map_map, List.map_map, Function.comp_def, Function.comp_def]
    push_cast
    exact add_le_add_iff_left _
  constructor
  · intro hwithin
    by_cases hpos : 0 < (scoresScript rates info p seqs).idealTotal
    · exact hmemory.mp (hwithin hpos).memory
    · -- No time means that nothing is moved, not even scores.
      have hnone := mul_nonpos_of_nonpos_of_nonneg (not_lt.mp hpos) hbyte.le
      rw [htotal] at hnone
      unfold ScoresHidden
      linarith
  · exact fun hhide _ => ⟨compute_scoresScript, hmemory.mpr hhide⟩

end Scores

/-- Where an executor is no faster than its rates. -/
def KeepsRoofline (i : AttentionInput) : LayerType → ProcessorType → Prop
  | .attentionGen, .pim => Spared i .pim .attentionGen ∨ ∃ input, i.tensors[0]? = some input ∧
      GenIntense i.layerInfo input.precisionByte
        (unitOpB i.config.pimOpB input.precisionByte) i.sequencesMetadata.getGen
  | .absorbedMlaSum, .logic => Spared i .logic .absorbedMlaSum ∨
      ∃ input, i.tensors[0]? = some input ∧ ScoresHidden i.layerInfo input.precisionByte
        (unitOpB i.config.logicOpB input.precisionByte) i.sequencesMetadata.getSum
  | _, _ => True

section Scripts
variable {i : AttentionInput} {layerType : LayerType} {type : ProcessorType} {script : Script}

/-- Every stage is slow enough, but for two executors. -/
theorem Scripted.within_stages (hc : i.config.Positive)
    (hnearbank : i.config.nearbankPimConfig.enableNearbankModel = false)
    (hscript : Scripted i layerType type script)
    (hgen : ¬ (layerType = .attentionGen ∧ type = .pim))
    (hsum : ¬ (layerType = .absorbedMlaSum ∧ type = .logic)) :
    ∀ stage ∈ script.stages, stage.Within script.rates := by
  cases hscript with
  | linear => exact List.forall_mem_singleton.mpr (.of_max rfl (le_refl _) (le_refl _))
  | batchedLinear => exact List.forall_mem_singleton.mpr (.of_max rfl (le_refl _) (le_refl _))
  | batchedLinearGPU => exact List.forall_mem_singleton.mpr (.of_max rfl (le_refl _) (le_refl _))
  | activation => exact List.forall_mem_singleton.mpr (.of_max rfl (le_refl _) (le_refl _))
  | activationLogic => exact List.forall_mem_singleton.mpr (.of_max rfl (le_refl _) (le_refl _))
  | attentionSumGPU =>
    refine forall_mem_byStage.mpr ?_
    simp only [List.forall_mem_cons]
    refine ⟨fun s _ => ?_, fun s _ => ?_, fun s _ => ?_, by simp⟩
    all_goals exact .of_max rfl (le_refl _) (le_refl _)
  | @attentionSumLogic input =>
    have hrates := (hc.logic input.precisionByte).positive
    refine forall_mem_byStage.mpr ?_
    simp only [List.forall_mem_cons]
    exact ⟨fun s _ => .of_max rfl (le_refl _) (le_refl _),
      fun s _ => within_softmaxInBanks hrates s,
      fun s _ => .of_max rfl (le_refl _) (le_refl _), by simp⟩
  | @attentionSumPIM input =>
    have hrates := (hc.pim input.precisionByte).positive
    refine forall_mem_byStage.mpr ?_
    simp only [List.forall_mem_cons]
    exact ⟨fun s _ => .of_max rfl (le_refl _) (le_refl _),
      fun s _ => within_softmaxInBanks hrates s,
      fun s _ => .of_max rfl (le_refl _) (le_refl _), by simp⟩
  | mlaSum =>
    refine LatentSum.forall_mem_stages (fun _ s _ => .of_max rfl (le_refl _) (le_refl _))
      fun _ s _ => ⟨?_, ?_, ?_⟩
    all_goals exact .of_max rfl (le_refl _) (le_refl _)
  | absorbedSumGPU =>
    refine forall_mem_byStage.mpr ?_
    simp only [List.forall_mem_cons]
    refine ⟨fun s _ => ?_, fun s _ => ?_, fun s _ => ?_, fun s _ => ?_, by simp⟩
    all_goals exact .of_max rfl (le_refl _) (le_refl _)
  | absorbedSumLogic => exact absurd ⟨rfl, rfl⟩ hsum
  | @absorbedSumPIM input _ _ hpim =>
    have hrates := (hc.pim input.precisionByte).positive
    rw [← hpim] at hrates
    refine forall_mem_byStage.mpr ?_
    simp only [List.forall_mem_cons]
    exact ⟨fun s _ => .of_max rfl (le_refl _) (le_refl _),
      fun s _ => .of_max rfl (le_refl _) (le_refl _), fun s _ => within_softmaxInBanks hrates s,
      fun s _ => .of_max rfl (le_refl _) (le_refl _), by simp⟩
  | attentionGenGPU =>
    simp only [attentionGenScript, List.forall_mem_cons]
    exact ⟨within_gpuStage hc.gpu, within_gpuStage hc.gpu, by simp⟩
  | attentionGenLogic =>
    simp only [attentionGenScript, List.forall_mem_cons]
    exact ⟨.of_max rfl (le_refl _) (le_refl _), .of_max rfl (le_refl _) (le_refl _), by simp⟩
  | attentionGenPIM => exact absurd ⟨rfl, rfl⟩ hgen
  | mlaGen _ _ offers =>
    exact LatentGen.forall_mem_stages (fun _ => .of_max rfl (le_refl _) (le_refl _))
      fun _ => ⟨.of_max rfl (le_refl _) (le_refl _),
        fun s _ => within_latentSoftmax (hc.rates offers) s,
        .of_max rfl (le_refl _) (le_refl _)⟩
  | absorbedMlaGen =>
    exact AbsorbGen.forall_mem_stages (fun _ => .of_max rfl (le_refl _) (le_refl _))
      fun _ => ⟨.of_max rfl (le_refl _) (le_refl _), .of_max rfl (le_refl _) (le_refl _),
        fun s _ => .of_max rfl (le_refl _) (le_refl _), .of_max rfl (le_refl _) (le_refl _)⟩
  | attentionMixedGPU =>
    refine forall_mem_byStage.mpr ?_
    simp only [List.forall_mem_cons]
    refine ⟨fun s _ => ?_, fun s _ => ?_, by simp⟩
    all_goals exact .of_max rfl (le_refl _) (le_refl _)
  | attentionMixedPIM =>
    refine forall_mem_byStage.mpr ?_
    simp only [List.forall_mem_cons]
    refine ⟨fun s _ => ?_, fun s _ => ?_, by simp⟩
    · unfold Mixed.scoringPIM
      rw [hnearbank, if_neg (by simp)]
      exact .of_max rfl (le_refl _) (le_refl _)
    · unfold Mixed.contextPIM
      rw [hnearbank, if_neg (by simp)]
      exact .of_max rfl (le_refl _) (le_refl _)
  | mlaMixed =>
    refine forall_mem_byStage.mpr ?_
    simp only [List.forall_mem_cons]
    refine ⟨fun s _ => ?_, fun s _ => ?_, by simp⟩
    all_goals exact .of_max rfl (le_refl _) (le_refl _)

theorem Scripted.within_iff (hc : i.config.Positive)
    (hnearbank : i.config.nearbankPimConfig.enableNearbankModel = false)
    (hscript : Scripted i layerType type script) :
    (0 < script.idealTotal → script.Within) ↔ KeepsRoofline i layerType type := by
  by_cases hgen : layerType = .attentionGen ∧ type = .pim
  · obtain ⟨rfl, rfl⟩ := hgen
    have hbusy := hscript.not_spared
    dsimp only [KeepsRoofline]
    rw [or_iff_right hbusy]
    cases hscript with
    | @attentionGenPIM input _ _ report operands =>
      have hbanks : (0 < (banksScript i.layerInfo input.precisionByte i.config
            i.sequencesMetadata.getGen report).idealTotal → _) ↔ _ :=
        banksScript_within_iff input.precisionByte_pos hc hnearbank
      refine hbanks.trans ⟨fun h => ⟨input, operands.input, h⟩, ?_⟩
      rintro ⟨input', hinput', h⟩
      exact Option.some.inj (hinput'.symm.trans operands.input) ▸ h
  by_cases hsum : layerType = .absorbedMlaSum ∧ type = .logic
  · obtain ⟨rfl, rfl⟩ := hsum
    have hbusy := hscript.not_spared
    dsimp only [KeepsRoofline]
    rw [or_iff_right hbusy]
    cases hscript with
    | @absorbedSumLogic input _ operands hrates =>
      have hunit := hc.logic input.precisionByte
      rw [← hrates] at hunit
      have hscores : (0 < (scoresScript _ i.layerInfo input.precisionByte
            i.sequencesMetadata.getSum).idealTotal → _) ↔ _ := scoresScript_within_iff hunit
      refine hscores.trans ⟨fun h => ⟨input, operands.1, h⟩, ?_⟩
      rintro ⟨input', hinput', h⟩
      exact Option.some.inj (hinput'.symm.trans operands.1) ▸ h
  have hstages := hscript.within_stages hc hnearbank hgen hsum
  refine iff_of_true (fun _ => Script.within_of_stages hstages) ?_
  cases layerType with
  | attentionGen =>
    cases type with
    | pim => exact absurd ⟨rfl, rfl⟩ hgen
    | _ => trivial
  | absorbedMlaSum =>
    cases type with
    | logic => exact absurd ⟨rfl, rfl⟩ hsum
    | _ => trivial
  | _ => trivial

theorem Scripted.rates_positive (hc : i.config.Positive)
    (hscript : Scripted i layerType type script) : script.rates.Positive := by
  cases hscript with
  | linear _ offers => exact hc.rates offers
  | batchedLinear _ _ offers => exact hc.rates offers
  | activation _ _ offers => exact hc.rates offers
  | activationLogic _ offers => exact hc.rates offers
  | mlaSum _ offers => exact hc.rates offers
  | mlaGen _ _ offers => exact hc.rates offers
  | absorbedMlaGen _ offers => exact hc.rates offers
  | mlaMixed _ offers => exact hc.rates offers
  | attentionSumLogic => exact hc.rates (.logic _)
  | attentionSumPIM => exact hc.rates (.pim _)
  | absorbedSumLogic _ hrates => exact hrates ▸ hc.rates (.logic _)
  | absorbedSumPIM _ hrates => exact hrates ▸ hc.rates (.pim _)
  | attentionGenLogic _ _ _ hrates => exact hrates ▸ hc.rates (.logic _)
  | attentionGenPIM => exact hc.rates (.pim _)
  | attentionMixedPIM hrates => exact hrates ▸ hc.rates .mixed
  | _ => exact hc.gpu

end Scripts

/-! ### Executions -/

section Executions
variable {i : AttentionInput} {layerType : LayerType} {type : ProcessorType} {d : DeviceMemory}
  {s s' : IssueState} {e : ExecStatus} {ops : Operands}

/-- Without the simulator the memory never keeps a time. -/
theorem executePType_counts (hs : s.execStatus.Counts)
    (h : executePType d false layerType type i s = .ok (e, ops, s')) : s'.execStatus.Counts := by
  rcases executePType_found h with ⟨-, -, -, rfl⟩ | ⟨script, execStatus, -, hexec, -⟩
  · exact hs
  · obtain ⟨_, _, _, -, hanswers, -⟩ := DeviceMemory.execute_ok hexec
    exact (DeviceMemory.askEach_counts hs hanswers).2

/-- What a layer that took any time reports keeps to the rates of its executor, but for keys and
values in the banks that are more bytes than operations, and scores on the logic die that take more
time than the computation. -/
theorem roofline_iff (hc : i.config.Positive)
    (hnearbank : i.config.nearbankPimConfig.enableNearbankModel = false)
    (hs : s.execStatus.Counts)
    (h : executePType d false layerType type i s = .ok (e, ops, s')) :
    (0 < e.totalDuration → ∀ script, executorOf layerType type i = .ok (some script) →
        e.Within script.rates) ↔ KeepsRoofline i layerType type := by
  obtain ⟨r, execStatus, hr, hexec, he⟩ := executePType_ok h
  rcases executorOf_found hr with ⟨rfl, hspared⟩ | ⟨script, rfl, hscript⟩
  · refine iff_of_true (fun _ script hscript => ?_) ?_
    · rw [hr] at hscript
      cases hscript
    · unfold KeepsRoofline
      split
      · exact .inl hspared
      · exact .inl hspared
      · trivial
  · rw [← hscript.within_iff hc hnearbank]
    obtain ⟨callss, _, answerss, -, hanswers, hlen, rfl, -, -⟩ := DeviceMemory.execute_ok hexec
    have hcounts := (DeviceMemory.askEach_counts hs hanswers).1
    have htotal : e.totalDuration = script.idealTotal := by
      rw [he]
      exact Script.status_totalDuration hscript.plain hlen hcounts
    rw [htotal]
    refine imp_congr_right fun hpos => ?_
    have hiff := Script.status_within_iff hscript.plain (hscript.rates_positive hc) hlen hcounts
      ((Script.status_totalDuration hscript.plain hlen hcounts).symm ▸ hpos)
    rw [← hiff]
    constructor
    · intro hall
      have hwithin := hall script hr
      rw [he] at hwithin
      exact ⟨hwithin.flops, hwithin.memorySize, hwithin.computeUtil, hwithin.memoryUtil⟩
    · intro hwithin script' hscript'
      rw [hr] at hscript'
      obtain rfl := Option.some.inj (Except.ok.inj hscript')
      rw [he]
      exact ⟨hwithin.flops, hwithin.memorySize, hwithin.computeUtil, hwithin.memoryUtil⟩

end Executions
/-- Without the near-bank model. -/
def rooflineConfig : ExecutorConfig :=
  { heteroConfig with nearbankPimConfig := { enableNearbankModel := false } }

theorem rooflineConfig_positive : rooflineConfig.Positive := by
  constructor <;> norm_num [rooflineConfig, heteroConfig]

/-- A sequence in its first step of decode, beside one that waits with `len` tokens. -/
def besideWaiting (len : ℤ) : AttentionInput where
  config := rooflineConfig
  tensors := [⟨2, [2, 64], 0, Nat.two_pos⟩, ⟨2, [64, 8], 0, Nat.two_pos⟩, ⟨2, [64, 8], 0, Nat.two_pos⟩]
  sequencesMetadata := { BatchedSequence.create 0 0 with
    sequence := [{ Sequence.start 0 0 1 8 with currentLen := 1, numProcessToken := 1 },
      { Sequence.start 1 0 len 8 with currentLen := len, genStartTime := 1 }] }
  layerInfo := {}

theorem roofline_of_short : ∃ e ops s,
    executePType idealMemory false .attentionGen .pim (besideWaiting 4) {} = .ok (e, ops, s) ∧
    (0 < e.totalDuration → ∀ script,
      executorOf .attentionGen .pim (besideWaiting 4) = .ok (some script) →
        e.Within script.rates) := by
  obtain ⟨e, ops, s, h⟩ : ∃ e ops s,
      executePType idealMemory false .attentionGen .pim (besideWaiting 4) {} = .ok (e, ops, s) :=
    ⟨_, _, _, rfl⟩
  refine ⟨e, ops, s, h, (roofline_iff rooflineConfig_positive rfl ⟨rfl, rfl⟩ h).mpr ?_⟩
  refine .inr ⟨_, rfl, .inr ?_⟩
  decide +kernel

/-- A prompt of one token. -/
def onToken : AttentionInput where
  config := rooflineConfig
  tensors := [⟨2, [64, 128], 0, Nat.two_pos⟩]
  sequencesMetadata := { BatchedSequence.create 0 0 with
    sequence := [{ Sequence.start 0 0 1 8 with numProcessToken := 1 }] }
  layerInfo := { kvLoraRank := 512, qkRopeHeadDim := 64 }

theorem roofline_exceeded :
    (∃ e ops s, executePType idealMemory false .attentionGen .pim (besideWaiting 63) {}
        = .ok (e, ops, s) ∧ 0 < e.totalDuration ∧ 1 < e.memoryUtil) ∧
      ∃ e ops s, executePType idealMemory false .absorbedMlaSum .logic onToken {}
        = .ok (e, ops, s) ∧ 0 < e.totalDuration ∧ 1 < e.memoryUtil := by
  constructor
  · refine ⟨_, _, _, rfl, ?_, ?_⟩
    · decide +kernel
    · decide +kernel
  · refine ⟨_, _, _, rfl, ?_, ?_⟩
    · decide +kernel
    · decide +kernel

end Executor
end LlmSystem
