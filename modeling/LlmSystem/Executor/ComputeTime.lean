import LlmSystem.Executor.Idle

/-!
`compute_duration` as the latent executors of `attention_gen_impl` add it up. On the flash path the
running total is added in each sequence, and not the time of the sequence.
-/
namespace LlmSystem

open Runs

namespace Executor

/-! ### Running totals -/

/-- `exec_status.compute_duration += accumul_compute_duration`, in a loop that adds each time to
`accumul_compute_duration` before. -/
def runningTotals (times : List ℚ) : ℚ :=
  (times.foldl (fun r t => (r.1 + t, r.2 + (r.1 + t))) ((0, 0) : ℚ × ℚ)).2

theorem accumulated_cons (t : ℚ) (times : List ℚ) :
    accumulated (t :: times) = (times.length + 1) * t + accumulated times := by
  have hprefixes : ∀ prefixes : List (List ℚ), (prefixes.map fun l => t + l.sum).sum
      = prefixes.length * t + (prefixes.map List.sum).sum := by
    intro prefixes
    rw [List.sum_map_add, List.map_const', List.sum_replicate, nsmul_eq_mul]
  simp only [accumulated, List.inits_cons, List.map_cons, List.map_map, List.sum_cons,
    List.sum_nil, Function.comp_def, zero_add]
  rw [hprefixes, List.length_inits]
  push_cast
  ring

theorem foldl_runningTotals (times : List ℚ) (accumul compute : ℚ) :
    (times.foldl (fun r t => (r.1 + t, r.2 + (r.1 + t))) (accumul, compute)).2
      = compute + times.length * accumul + accumulated times := by
  induction times generalizing accumul compute with
  | nil => simp [accumulated]
  | cons t times ih =>
    rw [List.foldl_cons, ih, accumulated_cons, List.length_cons]
    push_cast
    ring

theorem runningTotals_eq (times : List ℚ) : runningTotals times = accumulated times := by
  unfold runningTotals
  rw [foldl_runningTotals]
  simp

/-- Each time is counted for all later ones as well, so only the last one may differ from zero. -/
theorem runningTotals_eq_sum_iff {times : List ℚ} (h : ∀ t ∈ times, 0 ≤ t) :
    runningTotals times = times.sum ↔ ∀ t ∈ times.dropLast, t = 0 := by
  have hle : ∀ times : List ℚ, (∀ t ∈ times, 0 ≤ t) → times.sum ≤ accumulated times := by
    intro times h
    induction times with
    | nil => simp [accumulated]
    | cons t times ih =>
      obtain ⟨ht, hrest⟩ := List.forall_mem_cons.mp h
      have hmore : 0 ≤ times.length * t := by positivity
      have hsum := ih hrest
      rw [accumulated_cons, List.sum_cons]
      linarith
  rw [runningTotals_eq]
  induction times with
  | nil => simp [accumulated]
  | cons t times ih =>
    obtain ⟨ht, hrest⟩ := List.forall_mem_cons.mp h
    have hmore : 0 ≤ times.length * t := by positivity
    have hsum := hle times hrest
    rw [accumulated_cons, List.sum_cons]
    cases times with
    | nil => simp [accumulated]
    | cons t' times =>
      have hrests : accumulated (t' :: times) = (t' :: times).sum ↔
          ∀ t ∈ (t' :: times).dropLast, t = 0 := ih hrest
      rw [List.dropLast_cons_cons, List.forall_mem_cons, ← hrests]
      constructor
      · intro heq
        have hzero : ((t' :: times).length : ℚ) * t = 0 := by linarith
        have hlength : ((t' :: times).length : ℚ) ≠ 0 := by simp; positivity
        exact ⟨(mul_eq_zero.mp hzero).resolve_left hlength, by linarith⟩
      · rintro ⟨rfl, heq⟩
        linarith

/-- In every order of the times, only for one of them or for none that counts. -/
theorem runningTotals_invariant_iff {α : Type*} {time : α → ℚ} {l : List α}
    (h : ∀ a ∈ l, 0 ≤ time a) :
    (runningTotals (l.map time) = (l.map time).sum ∧
      ∀ l' : List α, l'.Perm l → runningTotals (l'.map time) = runningTotals (l.map time)) ↔
      l.length ≤ 1 ∨ ∀ a ∈ l, time a = 0 := by
  have hnonneg : ∀ l' : List α, l'.Perm l → ∀ t ∈ l'.map time, 0 ≤ t := by
    intro l' hl' t ht
    obtain ⟨a, ha, rfl⟩ := List.mem_map.mp ht
    exact h a (hl'.mem_iff.mp ha)
  constructor
  · rintro ⟨heq, hperm⟩
    by_contra hnot
    obtain ⟨hlength, hbusy⟩ := not_or.mp hnot
    push Not at hbusy
    obtain ⟨a, ha, hbusy⟩ := hbusy
    obtain ⟨l₁, l₂, rfl⟩ := List.append_of_mem ha
    have hfirst : (a :: (l₁ ++ l₂)).Perm (l₁ ++ a :: l₂) := List.perm_middle.symm
    have hsum : runningTotals ((a :: (l₁ ++ l₂)).map time)
        = ((a :: (l₁ ++ l₂)).map time).sum := by
      rw [hperm _ hfirst, heq, (hfirst.map time).sum_eq]
    have hzero := (runningTotals_eq_sum_iff (hnonneg _ hfirst)).mp hsum
    obtain ⟨b, rest, hrest⟩ : ∃ b rest, l₁ ++ l₂ = b :: rest := by
      apply List.exists_cons_of_ne_nil
      intro hnil
      obtain ⟨rfl, rfl⟩ := List.append_eq_nil_iff.mp hnil
      exact hlength (le_refl 1)
    rw [hrest, List.map_cons, List.map_cons, List.dropLast_cons_cons] at hzero
    exact hbusy (hzero _ List.mem_cons_self)
  · intro hfew
    have hsum : ∀ l' : List α, l'.Perm l → runningTotals (l'.map time) = (l'.map time).sum := by
      intro l' hl'
      rw [runningTotals_eq_sum_iff (hnonneg l' hl')]
      intro t ht
      rcases hfew with hone | hidle
      · have hnone : (l'.map time).dropLast = [] := by
          rw [← List.length_eq_zero_iff, List.length_dropLast, List.length_map, hl'.length_eq]
          omega
        rw [hnone] at ht
        cases ht
      · obtain ⟨a, ha, rfl⟩ := List.mem_map.mp (List.mem_of_mem_dropLast ht)
        exact hidle a (hl'.mem_iff.mp ha)
    refine ⟨hsum l (.refl l), fun l' hl' => ?_⟩
    rw [hsum l' hl', hsum l (.refl l), (hl'.map time).sum_eq]

/-! ### Loops -/

/-- The compute time of `work` flops. -/
def computeTime (rates : Rates) (work : ℕ) : ℚ := duration work rates.computePeakFlops

namespace LatentGen
variable (rates : Rates) (info : LayerInfo) (seqs : List Sequence)

/-- The loops of the flash path, and those over the heads of each product without it. -/
def computeDuration : ℚ :=
  if info.useFlashMla then
    runningTotals (seqs.map fun s => computeTime rates (flashSeqFlops info s))
  else
    (seqs.flatMap fun s => List.replicate info.numHeads
      (computeTime rates (s.processed * LatentSum.keyDim info * s.attended * 2))).sum
    + (seqs.flatMap fun s => List.replicate info.numHeads
      (computeTime rates (s.processed * s.attended * info.headDim * 2))).sum

/-- The flops of the products, without those of the softmax. -/
def productFlops : ℕ :=
  if info.useFlashMla then (seqs.map (flashSeqFlops info)).sum
  else (seqs.map fun s => seqFlops info s.processed (LatentSum.keyDim info) s.attended).sum
    + (seqs.map fun s => seqFlops info s.processed s.attended info.headDim).sum

end LatentGen

namespace AbsorbGen
variable (rates : Rates) (info : LayerInfo) (seqs : List Sequence)

/-- Without the flash path, one loop for each of the three products. -/
def computeDuration : ℚ :=
  if info.useFlashMla then
    runningTotals (seqs.map fun s => computeTime rates (flashSeqFlops info s))
  else
    (seqs.map fun s => computeTime rates
      (matmulFlops s.processed info.kvLoraRank s.attended info.numHeads)).sum
    + (seqs.map fun s => computeTime rates
      (matmulFlops s.processed info.qkRopeHeadDim s.attended info.numHeads)).sum
    + (seqs.map fun s => computeTime rates
      (matmulFlops s.processed s.attended info.kvLoraRank info.numHeads)).sum

def productFlops : ℕ :=
  if info.useFlashMla then (seqs.map (flashSeqFlops info)).sum
  else (seqs.map fun s => matmulFlops s.processed info.kvLoraRank s.attended info.numHeads).sum
    + (seqs.map fun s => matmulFlops s.processed info.qkRopeHeadDim s.attended info.numHeads).sum
    + (seqs.map fun s => matmulFlops s.processed s.attended info.kvLoraRank info.numHeads).sum

end AbsorbGen

theorem computeTime_sum {α : Type*} (rates : Rates) (work : α → ℕ) (l : List α) :
    (l.map fun a => computeTime rates (work a)).sum
      = computeTime rates (l.map work).sum :=
  (duration_sum work l rates.computePeakFlops).symm

theorem computeTime_eq_zero {rates : Rates} (h : 0 < rates.computePeakFlops) {work : ℕ} :
    computeTime rates work = 0 ↔ work = 0 := by
  have hrate := h.ne'
  simp [computeTime, duration, hrate]

/-- A product for each head. -/
theorem sum_replicate_computeTime (rates : Rates) (heads : ℕ) (work : Sequence → ℕ)
    (seqs : List Sequence) :
    (seqs.flatMap fun s => List.replicate heads (computeTime rates (work s))).sum
      = computeTime rates (seqs.map fun s => heads * work s).sum := by
  rw [← computeTime_sum]
  induction seqs with
  | nil => rfl
  | cons s seqs ih =>
    rw [List.flatMap_cons, List.sum_append, List.sum_replicate, nsmul_eq_mul, ih, List.map_cons,
      List.sum_cons]
    congr 1
    unfold computeTime duration
    push_cast
    ring

/-! ### The work of the layers -/

/-- A sequence that the flash path charges with no operation. -/
def Unworked (layerType : LayerType) (info : LayerInfo) (s : Sequence) : Prop :=
  if layerType = .mlaGen then s.processed = 0 ∨ s.attended = 0
  else s.attended = 0 ∨ info.kvLoraRank = 0 ∧ info.qkRopeHeadDim = 0

theorem flashSeqFlops_eq_zero {info : LayerInfo} {s : Sequence} :
    LatentGen.flashSeqFlops info s = 0 ↔ Unworked .mlaGen info s := by
  have hheads := info.numHeads_pos.ne'
  have hdim := info.headDim_pos.ne'
  simp [LatentGen.flashSeqFlops, Unworked, hheads, hdim, LatentSum.keyDim]

theorem absorbSeqFlops_eq_zero {info : LayerInfo} {s : Sequence} :
    AbsorbGen.flashSeqFlops info s = 0 ↔ Unworked .absorbedMlaGen info s := by
  have hheads := info.numHeads_pos.ne'
  simp [AbsorbGen.flashSeqFlops, Unworked, hheads, AbsorbGen.latentDim]
  tauto

/-! ### Executors -/

/-- The rates that an executor computes with, if it does not return at once. -/
def executorRates (layerType : LayerType) (type : ProcessorType) (i : AttentionInput) :
    Except String (Option Rates) :=
  (executorOf layerType type i).map (Option.map (·.rates))

/-- `compute_duration` of the status that is returned for a latent layer in decode. -/
def computeDuration (layerType : LayerType) (type : ProcessorType) (i : AttentionInput) :
    Except String ℚ :=
  (executorRates layerType type i).map fun
    | none => 0
    | some rates =>
      if layerType = .mlaGen then
        LatentGen.computeDuration rates i.layerInfo i.sequencesMetadata.getGen
      else AbsorbGen.computeDuration rates i.layerInfo i.sequencesMetadata.getGen

/-- The time of all products at the peak of the executor. -/
def productsTime (layerType : LayerType) (type : ProcessorType) (i : AttentionInput) :
    Except String ℚ :=
  (executorRates layerType type i).map fun
    | none => 0
    | some rates => computeTime rates
      (if layerType = .mlaGen then
        LatentGen.productFlops i.layerInfo i.sequencesMetadata.getGen
      else AbsorbGen.productFlops i.layerInfo i.sequencesMetadata.getGen)

end Executor

/-- The same layer, for the sequences in another order. -/
def AttentionInput.reordered (i : AttentionInput) (sequence : List Sequence) : AttentionInput :=
  { i with sequencesMetadata := { i.sequencesMetadata with sequence } }

namespace Executor
variable {i : AttentionInput} {layerType : LayerType} {type : ProcessorType} {r : Option Script}
  {sequence : List Sequence}

theorem getGen_reordered (h : sequence.Perm i.sequencesMetadata.sequence) :
    (i.reordered sequence).sequencesMetadata.getGen.Perm i.sequencesMetadata.getGen :=
  h.filter _

/-- Every order of the sequences in decode is that of a batch. -/
theorem exists_reordered {gen : List Sequence} (h : gen.Perm i.sequencesMetadata.getGen) :
    ∃ sequence, sequence.Perm i.sequencesMetadata.sequence ∧
      (i.reordered sequence).sequencesMetadata.getGen = gen := by
  refine ⟨gen ++ i.sequencesMetadata.getSum, ?_, ?_⟩
  · have hsplit : (i.sequencesMetadata.getSum ++ i.sequencesMetadata.getGen).Perm
        i.sequencesMetadata.sequence := List.filter_append_perm _ _
    exact (h.append_right _).trans (List.perm_append_comm.trans hsplit)
  · have hgen : gen.filter (fun s => !decide s.InSum) = gen := by
      rw [List.filter_eq_self]
      intro s hs
      exact (List.mem_filter.mp (h.mem_iff.mp hs)).2
    have hsum : i.sequencesMetadata.getSum.filter (fun s => !decide s.InSum) = [] := by
      rw [List.filter_eq_nil_iff]
      intro s hs
      simpa using (List.mem_filter.mp hs).2
    show (gen ++ i.sequencesMetadata.getSum).filter _ = gen
    rw [List.filter_append, hgen, hsum, List.append_nil]

theorem getGenProcessToken_reordered (h : sequence.Perm i.sequencesMetadata.sequence) :
    (i.reordered sequence).sequencesMetadata.getGenProcessToken
      = i.sequencesMetadata.getGenProcessToken :=
  ((getGen_reordered h).map _).sum_eq

theorem mlaGen_rates (rates : ℕ → Rates)
    (h : multiLatentAttentionGenExecution type rates i = .ok r) :
    ∃ p, ∀ sequence : List Sequence, sequence.Perm i.sequencesMetadata.sequence →
      (multiLatentAttentionGenExecution type rates (i.reordered sequence)).map
          (Option.map (·.rates))
        = .ok (if i.sequencesMetadata.getGenProcessToken = 0 then none else some (rates p)) := by
  obtain ⟨input, hinput, h⟩ := bind_eq_ok h
  refine ⟨input.precisionByte, fun sequence hperm => ?_⟩
  have hsame : (i.reordered sequence).tensors = i.tensors := rfl
  unfold multiLatentAttentionGenExecution
  rw [hsame, getGenProcessToken_reordered hperm]
  generalize (if 1 < i.tensors.length then (1, 2) else (0, 0) : ℕ × ℕ) = caches at h ⊢
  obtain ⟨_, hkey, h⟩ := bind_eq_ok h
  obtain ⟨_, hvalue, h⟩ := bind_eq_ok h
  simp only [hinput, hkey, hvalue, bind, Except.bind]
  split_ifs
  · rfl
  · rfl

theorem absorbedMlaGen_rates (rates : ℕ → Rates)
    (h : absorbMLAGenExecution type rates i = .ok r) :
    ∃ p, ∀ sequence : List Sequence, sequence.Perm i.sequencesMetadata.sequence →
      (absorbMLAGenExecution type rates (i.reordered sequence)).map (Option.map (·.rates))
        = .ok (if i.sequencesMetadata.getGenProcessToken = 0 then none else some (rates p)) := by
  obtain ⟨input, hinput, h⟩ := bind_eq_ok h
  refine ⟨input.precisionByte, fun sequence hperm => ?_⟩
  have hsame : (i.reordered sequence).tensors = i.tensors := rfl
  unfold absorbMLAGenExecution
  rw [hsame, getGenProcessToken_reordered hperm]
  simp only [hinput, bind, Except.bind]
  split_ifs
  · rfl
  · rfl

/-- The rates do not depend on the order of the sequences. -/
theorem executorRates_reordered (hlayer : layerType = .mlaGen ∨ layerType = .absorbedMlaGen)
    (h : executorOf layerType type i = .ok r) :
    ∃ rates, i.config.Offers rates ∧
      ∀ sequence : List Sequence, sequence.Perm i.sequencesMetadata.sequence →
        executorRates layerType type (i.reordered sequence)
          = .ok (if i.sequencesMetadata.getGenProcessToken = 0 then none else some rates) := by
  rcases hlayer with rfl | rfl
  · cases type with
    | gpu =>
      obtain ⟨p, hp⟩ := mlaGen_rates (fun _ => i.config.gpuRates) h
      exact ⟨_, .gpu, hp⟩
    | logic =>
      obtain ⟨p, hp⟩ := mlaGen_rates i.config.logicRates h
      exact ⟨_, .logic p, hp⟩
    | pim =>
      obtain ⟨p, hp⟩ := mlaGen_rates i.config.pimRates h
      exact ⟨_, .pim p, hp⟩
    | none => cases h
  · cases type with
    | gpu =>
      obtain ⟨p, hp⟩ := absorbedMlaGen_rates (fun _ => i.config.gpuRates) h
      exact ⟨_, .gpu, hp⟩
    | logic =>
      obtain ⟨p, hp⟩ := absorbedMlaGen_rates i.config.logicRates h
      exact ⟨_, .logic p, hp⟩
    | pim =>
      obtain ⟨p, hp⟩ := absorbedMlaGen_rates i.config.pimRates h
      exact ⟨_, .pim p, hp⟩
    | none => cases h

/-- The products of a layer, in one order of its sequences. -/
theorem computeDuration_eq {rates : Rates} {b : AttentionInput}
    (hrates : executorRates layerType type b = .ok (some rates)) :
    computeDuration layerType type b = .ok
      (if layerType = .mlaGen then
        LatentGen.computeDuration rates b.layerInfo b.sequencesMetadata.getGen
      else AbsorbGen.computeDuration rates b.layerInfo b.sequencesMetadata.getGen) := by
  unfold computeDuration
  rw [hrates]
  rfl

theorem productsTime_eq {rates : Rates} {b : AttentionInput}
    (hrates : executorRates layerType type b = .ok (some rates)) :
    productsTime layerType type b = .ok (computeTime rates
      (if layerType = .mlaGen then
        LatentGen.productFlops b.layerInfo b.sequencesMetadata.getGen
      else AbsorbGen.productFlops b.layerInfo b.sequencesMetadata.getGen)) := by
  unfold productsTime
  rw [hrates]
  rfl

/-- The flops of a sequence on the flash path. -/
def flashFlopsOf (layerType : LayerType) (info : LayerInfo) (s : Sequence) : ℕ :=
  if layerType = .mlaGen then LatentGen.flashSeqFlops info s else AbsorbGen.flashSeqFlops info s

theorem flashFlopsOf_eq_zero {info : LayerInfo} {s : Sequence}
    (hlayer : layerType = .mlaGen ∨ layerType = .absorbedMlaGen) :
    flashFlopsOf layerType info s = 0 ↔ Unworked layerType info s := by
  rcases hlayer with rfl | rfl
  · exact flashSeqFlops_eq_zero
  · exact absorbSeqFlops_eq_zero

/-- Without the flash path all increments are added, in whatever order. -/
theorem computeDuration_plain (rates : Rates) {info : LayerInfo}
    (hplain : info.useFlashMla = false) (seqs : List Sequence) :
    LatentGen.computeDuration rates info seqs
        = computeTime rates (LatentGen.productFlops info seqs) ∧
      AbsorbGen.computeDuration rates info seqs
        = computeTime rates (AbsorbGen.productFlops info seqs) := by
  have hadd : ∀ work work', computeTime rates (work + work')
      = computeTime rates work + computeTime rates work' := fun work work' =>
    duration_add work work' rates.computePeakFlops
  constructor
  · unfold LatentGen.computeDuration LatentGen.productFlops LatentGen.seqFlops
    rw [if_neg (by simp [hplain]), if_neg (by simp [hplain]), hadd, sum_replicate_computeTime,
      sum_replicate_computeTime]
  · unfold AbsorbGen.computeDuration AbsorbGen.productFlops
    rw [if_neg (by simp [hplain]), if_neg (by simp [hplain]), hadd, hadd, computeTime_sum,
      computeTime_sum, computeTime_sum]

theorem productFlops_perm (info : LayerInfo) {seqs seqs' : List Sequence} (h : seqs.Perm seqs') :
    LatentGen.productFlops info seqs = LatentGen.productFlops info seqs' ∧
      AbsorbGen.productFlops info seqs = AbsorbGen.productFlops info seqs' := by
  have hsum : ∀ work : Sequence → ℕ, (seqs.map work).sum = (seqs'.map work).sum :=
    fun work => (h.map work).sum_eq
  unfold LatentGen.productFlops AbsorbGen.productFlops
  simp only [hsum]
  exact ⟨trivial, trivial⟩

/-- On the flash path the running totals are added. -/
theorem computeDuration_flash {rates : Rates} {b : AttentionInput}
    (hflash : b.layerInfo.useFlashMla = true)
    (hrates : executorRates layerType type b = .ok (some rates)) :
    computeDuration layerType type b = .ok (runningTotals (b.sequencesMetadata.getGen.map fun s =>
        computeTime rates (flashFlopsOf layerType b.layerInfo s))) ∧
      productsTime layerType type b = .ok ((b.sequencesMetadata.getGen.map fun s =>
        computeTime rates (flashFlopsOf layerType b.layerInfo s)).sum) := by
  rw [computeDuration_eq hrates, productsTime_eq hrates, computeTime_sum]
  unfold flashFlopsOf LatentGen.computeDuration AbsorbGen.computeDuration LatentGen.productFlops
    AbsorbGen.productFlops
  simp only [hflash, if_true]
  split_ifs
  · exact ⟨rfl, rfl⟩
  · exact ⟨rfl, rfl⟩

/-- When the compute time is that of the products, in every order of the sequences. -/
def Accumulable (layerType : LayerType) (i : AttentionInput) : Prop :=
  i.sequencesMetadata.getGenProcessToken = 0 ∨ i.layerInfo.useFlashMla = false ∨
    i.sequencesMetadata.getGen.length ≤ 1 ∨
    ∀ s ∈ i.sequencesMetadata.getGen, Unworked layerType i.layerInfo s

/-- Two sequences in decode, without the flash path. -/
def withoutFlash : AttentionInput := { onDecode with layerInfo := { useFlashMla := false } }

end Executor
end LlmSystem
