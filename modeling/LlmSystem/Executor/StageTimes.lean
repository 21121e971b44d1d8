import LlmSystem.Executor.Answers
import LlmSystem.Executor.Idle

/-!
The times of the stages of `attention_gen_impl`, as they are reported besides the time of the
layer: they make it up unless the PIM units work without the near-bank model.
-/
namespace LlmSystem

open Runs

/-- The reported stages make up the time of the layer. -/
def ExecStatus.AddsUp (e : ExecStatus) : Prop :=
  e.totalDuration = e.qkDuration + e.softmaxDuration + e.scoreVDuration

theorem ExecStatus.Times.addsUp_iff {e : ExecStatus} {total qk softmax scoreV : ℚ}
    (h : e.Times total qk softmax scoreV) : e.AddsUp ↔ total = qk + softmax + scoreV := by
  unfold AddsUp
  rw [h.totalDuration, h.qkDuration, h.softmaxDuration, h.scoreVDuration]

/-- Also where nothing is done. -/
theorem ExecStatus.addsUp_none (type : ProcessorType) :
    ExecStatus.AddsUp { processorType := type } := by
  norm_num [AddsUp]

namespace Executor
namespace AttentionGen
variable {info : LayerInfo} {precisionByte : ℕ} {useRamulator : Bool} {seqs : List Sequence}
  {c : ExecutorConfig} {e : ExecStatus} {answers : List ExecStatus}
  {total qk softmax scoreV : ℚ}

/-! ### Stages -/

theorem scoringGPU_times {rates : Rates} (hanswers : ∀ a ∈ answers, a.MemoryOnly)
    (he : e.Times total qk softmax scoreV) :
    ((scoringGPU info precisionByte rates seqs).charge useRamulator e answers).Times
      (total + (scoringGPU info precisionByte rates seqs).time useRamulator answers)
      ((scoringGPU info precisionByte rates seqs).time useRamulator answers) softmax scoreV :=
  Stage.charge_times rfl hanswers
    (fun _ h => ⟨h.totalDuration, rfl, h.softmaxDuration, h.scoreVDuration⟩) he

theorem contextGPU_times {rates : Rates} (hanswers : ∀ a ∈ answers, a.MemoryOnly)
    (he : e.Times total qk softmax scoreV) :
    ((contextGPU info precisionByte rates seqs).charge useRamulator e answers).Times
      (total + (contextGPU info precisionByte rates seqs).time useRamulator answers) qk softmax
      ((contextGPU info precisionByte rates seqs).time useRamulator answers) :=
  Stage.charge_times rfl hanswers
    (fun _ h => ⟨h.totalDuration, h.qkDuration, h.softmaxDuration, rfl⟩) he

theorem softmaxPIM_times (hanswers : ∀ a ∈ answers, a.MemoryOnly)
    (he : e.Times total qk softmax scoreV) :
    ((softmaxPIM info precisionByte c seqs).charge useRamulator e answers).Times
      (total + (softmaxPIM info precisionByte c seqs).time useRamulator answers) qk
      ((softmaxPIM info precisionByte c seqs).time useRamulator answers) scoreV :=
  Stage.charge_times rfl hanswers
    (fun _ h => ⟨h.totalDuration, h.qkDuration, rfl, h.scoreVDuration⟩) he

/-- The near-bank model records the time of scoring. -/
theorem scoringPIM_times (hnear : c.nearbankPimConfig.enableNearbankModel = true)
    (hanswers : ∀ a ∈ answers, a.MemoryOnly) (he : e.Times total qk softmax scoreV) :
    ((scoringPIM info precisionByte c seqs).charge useRamulator e answers).Times
      (total + (scoringPIM info precisionByte c seqs).time useRamulator answers)
      ((scoringPIM info precisionByte c seqs).time useRamulator answers) softmax scoreV := by
  unfold scoringPIM scoringUnit
  simp only [hnear, if_true]
  split_ifs
  · exact Stage.charge_times rfl hanswers
      (fun _ h => ⟨h.totalDuration, rfl, h.softmaxDuration, h.scoreVDuration⟩) he
  · exact Stage.charge_times rfl hanswers
      (fun _ h => ⟨h.totalDuration, rfl, h.softmaxDuration, h.scoreVDuration⟩) he

/-- And the one of the context. -/
theorem contextPIM_times (hnear : c.nearbankPimConfig.enableNearbankModel = true)
    (hanswers : ∀ a ∈ answers, a.MemoryOnly) (he : e.Times total qk softmax scoreV) :
    ((contextPIM info precisionByte c seqs).charge useRamulator e answers).Times
      (total + (contextPIM info precisionByte c seqs).time useRamulator answers) qk softmax
      ((contextPIM info precisionByte c seqs).time useRamulator answers) := by
  unfold contextPIM contextUnit
  simp only [hnear, if_true]
  split_ifs
  · exact Stage.charge_times rfl hanswers
      (fun _ h => ⟨h.totalDuration, h.qkDuration, h.softmaxDuration, rfl⟩) he
  · exact Stage.charge_times rfl hanswers
      (fun _ h => ⟨h.totalDuration, h.qkDuration, h.softmaxDuration, rfl⟩) he

/-- Without it they only delay the result, by their memory time scaled with the intensity. -/
theorem scoringPIM_unrecorded (hfar : c.nearbankPimConfig.enableNearbankModel = false)
    (hanswers : ∀ a ∈ answers, a.MemoryOnly) (he : e.Times total qk softmax scoreV) :
    ((scoringPIM info precisionByte c seqs).charge useRamulator e answers).Times
      (total + (scoringPIM info precisionByte c seqs).time useRamulator answers) qk softmax
      scoreV := by
  unfold scoringPIM scoringUnit
  simp only [hfar, Bool.false_eq_true, if_false]
  exact Stage.charge_times rfl hanswers (fun _ h => h) he

theorem contextPIM_unrecorded (hfar : c.nearbankPimConfig.enableNearbankModel = false)
    (hanswers : ∀ a ∈ answers, a.MemoryOnly) (he : e.Times total qk softmax scoreV) :
    ((contextPIM info precisionByte c seqs).charge useRamulator e answers).Times
      (total + (contextPIM info precisionByte c seqs).time useRamulator answers) qk softmax
      scoreV := by
  unfold contextPIM contextUnit
  simp only [hfar, Bool.false_eq_true, if_false]
  exact Stage.charge_times rfl hanswers (fun _ h => h) he

/-! ### Products without the near-bank model -/

/-- Operations for a byte of the cache. -/
def intensity (info : LayerInfo) (precisionByte : ℕ) (seqs : List Sequence) : ℚ :=
  flops info seqs / cacheSize info precisionByte seqs

/-- Where nothing is read, nothing is computed. -/
theorem flops_eq_zero_of_cacheSize (hp : 0 < precisionByte)
    (h : cacheSize info precisionByte seqs = 0) : flops info seqs = 0 := by
  unfold cacheSize at h
  unfold flops headFlops
  rw [List.sum_eq_zero_iff] at h ⊢
  intro x hx
  obtain ⟨s, hs, rfl⟩ := List.mem_map.mp hx
  have hzero := h _ (List.mem_map_of_mem hs)
  simp only [Nat.mul_eq_zero, hp.ne', or_false] at hzero ⊢
  tauto

theorem intensity_eq_zero (hp : 0 < precisionByte) :
    intensity info precisionByte seqs = 0 ↔ flops info seqs = 0 := by
  unfold intensity
  rw [div_eq_zero_iff, Nat.cast_eq_zero, Nat.cast_eq_zero]
  exact or_iff_left_of_imp (flops_eq_zero_of_cacheSize hp)

theorem contextIntensity_eq (info : LayerInfo) (precisionByte : ℕ) (seqs : List Sequence) :
    ((flops info seqs + flops info seqs : ℕ) : ℚ)
        / (cacheSize info precisionByte seqs + cacheSize info precisionByte seqs : ℕ)
      = intensity info precisionByte seqs := by
  unfold intensity
  push_cast
  rw [← two_mul, ← two_mul, mul_div_mul_left _ _ two_ne_zero]

/-- The memory time of a product: the answer to its one request, or its bytes at the bandwidth. -/
def productTime (info : LayerInfo) (precisionByte : ℕ) (c : ExecutorConfig) (seqs : List Sequence)
    (useRamulator : Bool) (answers : List ExecStatus) : ℚ :=
  if useRamulator then (answers.map (·.memoryDuration)).sum
  else duration (cacheSize info precisionByte seqs) (c.pimRates precisionByte).memoryBandwidth

theorem scoringPIM_time (hfar : c.nearbankPimConfig.enableNearbankModel = false) :
    (scoringPIM info precisionByte c seqs).time useRamulator answers
      = productTime info precisionByte c seqs useRamulator answers
        * intensity info precisionByte seqs := by
  unfold scoringPIM scoringUnit
  simp only [hfar, Bool.false_eq_true, if_false]
  rfl

theorem contextPIM_time (hfar : c.nearbankPimConfig.enableNearbankModel = false) :
    (contextPIM info precisionByte c seqs).time useRamulator answers
      = productTime info precisionByte c seqs useRamulator answers
        * intensity info precisionByte seqs := by
  unfold contextPIM contextUnit
  simp only [hfar, Bool.false_eq_true, if_false, contextIntensity_eq]
  rfl

/-! ### Scripts -/

theorem times_start : ExecStatus.Times {} 0 0 0 0 := ⟨rfl, rfl, rfl, rfl⟩

theorem gpuScript_addsUp {rates : Rates} {answerss : List (List ExecStatus)}
    (hanswered : Answered useRamulator
      [scoringGPU info precisionByte rates seqs, contextGPU info precisionByte rates seqs] answerss)
    (hmemory : ∀ answers ∈ answerss, ∀ a ∈ answers, a.MemoryOnly) :
    ((attentionGenScript rates [scoringGPU info precisionByte rates seqs,
      contextGPU info precisionByte rates seqs] fun e => e).status useRamulator answerss).AddsUp := by
  obtain - | @⟨_, answers₁, _, _, -, hanswered⟩ := hanswered
  obtain - | @⟨_, answers₂, _, _, -, hanswered⟩ := hanswered
  obtain - | - := hanswered
  obtain ⟨hmemory₁, hmemory⟩ := List.forall_mem_cons.mp hmemory
  obtain ⟨hmemory₂, -⟩ := List.forall_mem_cons.mp hmemory
  have htimes : (Script.charge useRamulator {} [scoringGPU info precisionByte rates seqs,
      contextGPU info precisionByte rates seqs] [answers₁, answers₂]).Times _ _ _ _ :=
    contextGPU_times hmemory₂ (scoringGPU_times hmemory₁ times_start)
  exact (Script.finish_times (fun _ h => h) htimes).addsUp_iff.mpr (by ring)

/-- The script of the PIM units. -/
def pimScript (info : LayerInfo) (precisionByte : ℕ) (c : ExecutorConfig) (seqs : List Sequence) :
    Script where
  layerType := .attentionGen
  rates := c.pimRates precisionByte
  stages := [scoringPIM info precisionByte c seqs, softmaxPIM info precisionByte c seqs,
    contextPIM info precisionByte c seqs]
  report := fun e => { e with kvQuantDuration := kvQuant info precisionByte c seqs }

theorem pimScript_addsUp_iff (hp : 0 < precisionByte) {answerss : List (List ExecStatus)}
    (hanswered : Answered useRamulator (pimScript info precisionByte c seqs).stages answerss)
    (hmemory : ∀ answers ∈ answerss, ∀ a ∈ answers, a.MemoryOnly) :
    ((pimScript info precisionByte c seqs).status useRamulator answerss).AddsUp ↔
      c.nearbankPimConfig.enableNearbankModel = true ∨ flops info seqs = 0 ∨
        (if useRamulator then answeredTime answerss
          else 2 * duration (cacheSize info precisionByte seqs)
            (c.pimRates precisionByte).memoryBandwidth) = 0 := by
  obtain - | @⟨_, answers₁, _, _, -, hanswered⟩ := hanswered
  obtain - | @⟨_, answers₂, _, _, hsoftmax, hanswered⟩ := hanswered
  obtain - | @⟨_, answers₃, _, _, -, hanswered⟩ := hanswered
  obtain - | - := hanswered
  obtain ⟨hmemory₁, hmemory⟩ := List.forall_mem_cons.mp hmemory
  obtain ⟨hmemory₂, hmemory⟩ := List.forall_mem_cons.mp hmemory
  obtain ⟨hmemory₃, -⟩ := List.forall_mem_cons.mp hmemory
  by_cases hnear : c.nearbankPimConfig.enableNearbankModel = true
  · have htimes : (Script.charge useRamulator {} (pimScript info precisionByte c seqs).stages
        [answers₁, answers₂, answers₃]).Times _ _ _ _ :=
      contextPIM_times hnear hmemory₃
        (softmaxPIM_times hmemory₂ (scoringPIM_times hnear hmemory₁ times_start))
    refine iff_of_true ?_ (.inl hnear)
    exact (Script.finish_times (fun _ h => ⟨h.1, h.2, h.3, h.4⟩) htimes).addsUp_iff.mpr (by ring)
  · have hfar : c.nearbankPimConfig.enableNearbankModel = false := by simpa using hnear
    have htimes : (Script.charge useRamulator {} (pimScript info precisionByte c seqs).stages
        [answers₁, answers₂, answers₃]).Times _ _ _ _ :=
      contextPIM_unrecorded hfar hmemory₃
        (softmaxPIM_times hmemory₂ (scoringPIM_unrecorded hfar hmemory₁ times_start))
    have hnone : answers₂ = [] := by
      rw [← List.length_eq_zero_iff, hsoftmax]
      cases useRamulator <;> rfl
    have hstatus : ((pimScript info precisionByte c seqs).status useRamulator
        [answers₁, answers₂, answers₃]).Times _ _ _ _ :=
      Script.finish_times (fun _ h => ⟨h.1, h.2, h.3, h.4⟩) htimes
    rw [hstatus.addsUp_iff, scoringPIM_time hfar, contextPIM_time hfar, or_iff_right hnear,
      ← intensity_eq_zero hp, or_comm, ← mul_eq_zero]
    have hproducts : (if useRamulator then answeredTime [answers₁, answers₂, answers₃]
          else 2 * duration (cacheSize info precisionByte seqs)
            (c.pimRates precisionByte).memoryBandwidth)
        = productTime info precisionByte c seqs useRamulator answers₁
          + productTime info precisionByte c seqs useRamulator answers₃ := by
      unfold productTime answeredTime
      split_ifs
      · simp [hnone]
      · ring
    rw [hproducts, add_mul]
    constructor
    · intro h
      linarith
    · intro h
      linarith

/-! ### Executors -/

/-- When the reported stages make up the time of the layer; a ratio of zeros is read as zero. -/
def Accounted (d : DeviceMemory) (useRamulator : Bool) (type : ProcessorType) (i : AttentionInput)
    (s : IssueState) : Prop :=
  type = .gpu ∨ i.config.nearbankPimConfig.enableNearbankModel = true ∨
    i.sequencesMetadata.getGenProcessToken = 0 ∨
    flops i.layerInfo i.sequencesMetadata.getGen = 0 ∨
    (useRamulator = true ∧ simulatedTime d .attentionGen type i s = .ok 0)

/-- They do on the GPU and with the near-bank model; without it the PIM units do not report the
times of the two products, unless these take none. -/
theorem attentionGen_addsUp_iff {d : DeviceMemory} {type : ProcessorType}
    {i : AttentionInput} {s s' : IssueState} {ops' : Operands} (htype : type = .gpu ∨ type = .pim)
    (hbandwidth : 0 < i.config.pimMemoryBandwidth) (hs : d.Reached s)
    (h : executePType d useRamulator .attentionGen type i s = .ok (e, ops', s')) :
    e.totalDuration = e.qkDuration + e.softmaxDuration + e.scoreVDuration ↔
      Accounted d useRamulator type i s := by
  obtain ⟨script, -, hscript, -, -⟩ := executePType_ok h
  show e.AddsUp ↔ _
  rcases htype with rfl | rfl
  · have hgpu : attentionGenExecutionGPU i = .ok script := hscript
    obtain ⟨input, -, -, -, -, -, rfl⟩ := attentionGenExecution_ok hgpu
    refine iff_of_true ?_ (.inl rfl)
    split_ifs at hscript with htoken
    · rw [executePType_spared hscript h]
      exact ExecStatus.addsUp_none _
    · obtain ⟨callss, answerss, hanswered, hasks, rfl, -⟩ := executePType_answered hscript h
      exact gpuScript_addsUp hanswered (hs.askEach_memoryOnly hasks)
  · have hpim : attentionGenExecutionPIM i = .ok script := hscript
    obtain ⟨input, -, -, -, -, -, rfl⟩ := attentionGenExecution_ok hpim
    split_ifs at hscript with htoken
    · rw [executePType_spared hscript h]
      exact iff_of_true (ExecStatus.addsUp_none _) (.inr (.inr (.inl htoken)))
    · obtain ⟨callss, answerss, hanswered, hasks, rfl, hsimulated⟩ :=
        executePType_answered hscript h
      have hadds := pimScript_addsUp_iff input.precisionByte_pos hanswered
        (hs.askEach_memoryOnly hasks)
      unfold Accounted
      rw [or_iff_right (by decide), or_iff_right htoken]
      refine Iff.trans hadds (or_congr_right (or_congr_right' fun hflops => ?_))
      cases useRamulator with
      | true => simp [hsimulated rfl]
      | false =>
        have hcache : cacheSize i.layerInfo input.precisionByte i.sequencesMetadata.getGen ≠ 0 :=
          fun hzero => hflops (flops_eq_zero_of_cacheSize input.precisionByte_pos hzero)
        have hrate : (i.config.pimRates input.precisionByte).memoryBandwidth ≠ 0 := hbandwidth.ne'
        simp [duration, hcache, hrate]

/-- Two sequences in decode, with the near-bank model. -/
def nearBanks : AttentionInput := { onDecode with config := heteroConfig }

theorem nearBanks_addsUp : ∃ e ops s,
    executePType idealMemory false .attentionGen .pim nearBanks {} = .ok (e, ops, s) ∧
      e.totalDuration = e.qkDuration + e.softmaxDuration + e.scoreVDuration := by
  obtain ⟨e, ops, s, h⟩ : ∃ e ops s,
      executePType idealMemory false .attentionGen .pim nearBanks {} = .ok (e, ops, s) :=
    ⟨_, _, _, rfl⟩
  refine ⟨e, ops, s, h, (attentionGen_addsUp_iff (.inr rfl) ?_ .start h).mpr (.inr (.inl rfl))⟩
  norm_num [nearBanks, heteroConfig]

/-- The same sequences without it: only the softmax is reported. -/
theorem onDecode_unrecorded : ∃ e ops s,
    executePType idealMemory false .attentionGen .pim onDecode {} = .ok (e, ops, s) ∧
      e.totalDuration ≠ e.qkDuration + e.softmaxDuration + e.scoreVDuration := by
  refine ⟨_, _, _, rfl, ?_⟩
  decide +kernel

end AttentionGen
end Executor
end LlmSystem
