import LlmSystem.Executor.IntWork

/-! The exact work of an attention executor, sequence by sequence. -/
namespace LlmSystem
namespace Executor

open Overflow Runs

/-- The layers with sequences. -/
def Attends (layerType : LayerType) : Prop := layerType ∉ [.linear, .batchedLinear, .activation]

instance (layerType : LayerType) : Decidable (Attends layerType) :=
  inferInstanceAs (Decidable (_ ∉ _))

namespace IntWork

section Sequences
variable (info : LayerInfo) (p : ℕ) (type : ProcessorType) (s : Sequence)

/-- The tiles of latent attention in prefill. -/
def tiling (k : ℕ) : LatentSum.Tiling :=
  if type = .gpu then LatentSum.tilingGPU k p else LatentSum.tilingLogic k p

/-- What the sequence counts for in the scripts. -/
def exactFlops (layerType : LayerType) : ℕ :=
  let m := s.processed
  let n := s.attended
  let d := info.headDim
  let h := info.numHeads
  let k := LatentSum.keyDim info
  match layerType with
  | .attentionSum => matmulFlops m d n h + Executor.softmaxFlops m n h + matmulFlops m n d h
  | .attentionGen => info.numKvHeads * AttentionGen.headFlops info m d n
      + info.numKvHeads * AttentionGen.headFlops info m d n
  | .attentionMixed => matmulFlops m d n h + matmulFlops m n d h
  | .mlaMixed => matmulFlops m k n h + matmulFlops m n d h
  | .mlaSum =>
    if info.useFlashAttention then LatentSum.flashFlops info (tiling p type k) m
    else matmulFlops m k n h + Executor.softmaxFlops m n h + matmulFlops m n d h
  | .mlaGen =>
    if info.useFlashMla then LatentGen.flashSeqFlops info s
    else LatentGen.seqFlops info m k n + Executor.softmaxFlops m n h + LatentGen.seqFlops info m n d
  | .absorbedMlaSum => matmulFlops m info.kvLoraRank n h + matmulFlops m info.qkRopeHeadDim n h
      + Executor.softmaxFlops m n h + matmulFlops m n info.kvLoraRank h
  | .absorbedMlaGen =>
    if info.useFlashMla then AbsorbGen.flashSeqFlops info s
    else matmulFlops m info.kvLoraRank n h + matmulFlops m info.qkRopeHeadDim n h
      + Executor.softmaxFlops m n h + matmulFlops m n info.kvLoraRank h
  | _ => 0

def exactSize (layerType : LayerType) : ℕ :=
  let m := s.processed
  let n := s.attended
  let d := info.headDim
  let h := info.numHeads
  let kv := info.numKvHeads
  let k := LatentSum.keyDim info
  match layerType with
  | .attentionSum =>
    if type = .gpu then matmulSize m d n h kv * p + matmulSize m n d h kv * p
    else (m * d * h + d * n * kv) * p + n * d * kv * p
  | .attentionGen =>
    if type = .gpu then kv * AttentionGen.headSizeGPU info p m d n
      + kv * AttentionGen.headSizeGPU info p m n d
    else kv * (d * n * p) + kv * (d * n * p)
  | .attentionMixed => (m * d * h + d * n * kv) * p + (m * n * h + n * d * kv) * p
  | .mlaMixed => (m * k * h + k * n * kv) * p + (m * n * h + n * d * kv) * p
  | .mlaSum =>
    if info.useFlashAttention then
      (LatentSum.flash type ⟨0, 0⟩ info p (tiling p type k) s).memorySize
    else matmulSize m k n h h * p + 2 * (m * n * h) * p + matmulSize m n d h h * p
  | .mlaGen =>
    if info.useFlashMla then LatentGen.flashSeqSize info p s
    else LatentGen.seqSize info p m k n + LatentGen.seqSize info p m n d
  | .absorbedMlaSum => matmulSize m info.kvLoraRank n h 1 * p
      + (if type = .pim then matmulSize m info.qkRopeHeadDim n h 1 * p
          + matmulSize m n info.kvLoraRank h 1 * p
        else matmulSize m info.qkRopeHeadDim n h 1 * p + 2 * (m * n * h) * p
          + matmulSize m n info.kvLoraRank h 1 * p)
  | .absorbedMlaGen =>
    if info.useFlashMla then AbsorbGen.flashSeqSize info p s
    else matmulSize m info.kvLoraRank n h 1 * p + matmulSize m info.qkRopeHeadDim n h 1 * p
      + 2 * m * n * h * p + matmulSize m n info.kvLoraRank h 1 * p
  | _ => 0

end Sequences

/-! ### Scripts -/

section Scripts
variable {i : AttentionInput} {layerType : LayerType} {type : ProcessorType} {script : Script}
  {input : Tensor}

/-- The work of a script is the one of its sequences. -/
def CountsSeqs (i : AttentionInput) (p : ℕ) (type : ProcessorType) (layerType : LayerType)
    (script : Script) : Prop :=
  script.flops = ((served i.sequencesMetadata layerType).map fun s =>
    exactFlops i.layerInfo p type s layerType).sum ∧
  script.memorySize = ((served i.sequencesMetadata layerType).map fun s =>
    exactSize i.layerInfo p type s layerType).sum

theorem sum_kinds (f : Stage → ℕ) (seqs : List Sequence) (kinds : List (Sequence → Stage)) :
    ((byStage seqs kinds).map f).sum
      = (seqs.map fun s => (kinds.map fun kind => f (kind s)).sum).sum := by
  rw [sum_byStage]
  induction kinds with
  | nil => simp
  | cons kind kinds ih => simp only [List.map_cons, List.sum_cons, List.sum_map_add, ih]

/-- One stage of each kind for every sequence. -/
theorem counts_byStage {p : ℕ} {kinds : List (Sequence → Stage)}
    (hstages : script.stages = byStage (served i.sequencesMetadata layerType) kinds)
    (hflops : ∀ s, (kinds.map fun kind => (kind s).flops).sum
      = exactFlops i.layerInfo p type s layerType)
    (hsize : ∀ s, (kinds.map fun kind => (kind s).memorySize).sum
      = exactSize i.layerInfo p type s layerType) : CountsSeqs i p type layerType script := by
  unfold CountsSeqs Script.flops Script.memorySize
  rw [hstages, sum_kinds, sum_kinds]
  simp only [hflops, hsize, and_self]

theorem eq_of_input {make : Tensor → Script} (hinput : i.tensors[0]? = some input)
    (h : ∃ input, i.tensors[0]? = some input ∧
      some script = if input.getSize = 0 then none else some (make input)) :
    script = make input := by
  obtain ⟨input', hinput', hscript⟩ := h
  obtain rfl := Option.some.inj (hinput.symm.trans hinput')
  split_ifs at hscript
  exact Option.some.inj hscript

theorem attentionSum_counts (hinput : i.tensors[0]? = some input)
    (h : executorOf .attentionSum type i = .ok (some script)) :
    CountsSeqs i input.precisionByte type .attentionSum script := by
  cases type with
  | none => cases h
  | gpu =>
    obtain rfl := eq_of_input hinput (attentionSumExecutionGPU_ok h)
    refine counts_byStage rfl (fun s => ?_) fun s => ?_
    · exact (add_assoc ..).symm
    · exact congrArg (_ + ·) (zero_add _)
  | logic =>
    obtain rfl := eq_of_input hinput (withInput_ok h)
    refine counts_byStage rfl (fun s => ?_) fun s => ?_
    · exact (add_assoc ..).symm
    · exact congrArg (_ + ·) (zero_add _)
  | pim =>
    obtain rfl := eq_of_input hinput (withInput_ok h)
    refine counts_byStage rfl (fun s => ?_) fun s => ?_
    · exact (add_assoc ..).symm
    · exact congrArg (_ + ·) (zero_add _)

theorem mlaSum_counts (hinput : i.tensors[0]? = some input)
    (h : executorOf .mlaSum type i = .ok (some script)) :
    CountsSeqs i input.precisionByte type .mlaSum script := by
  have hcounts {rates : ℕ → Rates} {tiles : ℕ → ℕ → LatentSum.Tiling}
      (htiles : ∀ k p, tiles k p = tiling p type k)
      (h : multiLatentAttentionSumExecution type rates tiles i = .ok (some script)) :
      CountsSeqs i input.precisionByte type .mlaSum script := by
    obtain rfl := eq_of_input hinput (multiLatentAttentionSumExecution_ok h)
    rw [htiles]
    by_cases hflash : i.layerInfo.useFlashAttention = true
    · refine counts_byStage (if_pos hflash) (fun s => ?_) fun s => ?_
      · simp [exactFlops, hflash, LatentSum.flash, Stage.ofWork]
      · simp [exactSize, hflash, LatentSum.flash, Stage.ofWork]
    · refine counts_byStage (if_neg hflash) (fun s => ?_) fun s => ?_
      · simp only [exactFlops, hflash]
        exact (add_assoc ..).symm
      · simp only [exactSize, hflash]
        exact (add_assoc ..).symm
  cases type with
  | none => cases h
  | gpu =>
    unfold executorOf select multiLatentAttentionSumExecutionGPU at h
    exact hcounts (fun _ _ => rfl) h
  | logic =>
    unfold executorOf select multiLatentAttentionSumExecutionLogic at h
    exact hcounts (fun _ _ => rfl) h
  | pim =>
    unfold executorOf select multiLatentAttentionSumExecutionPIM at h
    exact hcounts (fun _ _ => rfl) h

theorem absorbedMlaSum_counts (hinput : i.tensors[0]? = some input)
    (h : executorOf .absorbedMlaSum type i = .ok (some script)) :
    CountsSeqs i input.precisionByte type .absorbedMlaSum script := by
  cases type with
  | none => cases h
  | gpu =>
    obtain rfl := eq_of_input hinput (absorbMLASumExecutionGPU_ok h)
    refine counts_byStage rfl (fun s => ?_) fun s => ?_
    · show _ + (_ + (_ + _)) = _
      rw [← add_assoc, ← add_assoc]
      rfl
    · exact congrArg (_ + ·) (add_assoc ..).symm
  | logic =>
    unfold executorOf select absorbMLASumExecutionLogic at h
    obtain rfl := eq_of_input hinput (absorbMLASumExecution_ok h)
    refine counts_byStage rfl (fun s => ?_) fun s => ?_
    · show _ + (_ + (_ + _)) = _
      rw [← add_assoc, ← add_assoc]
      rfl
    · exact congrArg (_ + ·) (add_assoc ..).symm
  | pim =>
    unfold executorOf select absorbMLASumExecutionPIM at h
    obtain rfl := eq_of_input hinput (absorbMLASumExecution_ok h)
    refine counts_byStage rfl (fun s => ?_) fun s => ?_
    · show _ + (_ + (_ + _)) = _
      rw [← add_assoc, ← add_assoc]
      rfl
    · exact congrArg (_ + ·) (congrArg (_ + ·) (zero_add _))

theorem attentionGen_counts (hinput : i.tensors[0]? = some input)
    (h : executorOf .attentionGen type i = .ok (some script)) :
    CountsSeqs i input.precisionByte type .attentionGen script := by
  have hgiven {make : ℕ → List Sequence → Script}
      (h : attentionGenExecution i make = .ok (some script)) :
      script = make input.precisionByte i.sequencesMetadata.getGen := by
    obtain ⟨input', key, value, hinput', -, -, hscript⟩ := attentionGenExecution_ok h
    obtain rfl := Option.some.inj (hinput.symm.trans hinput')
    split_ifs at hscript
    exact Option.some.inj hscript
  have hadd (f g : Sequence → ℕ) (l : List Sequence) :
      (l.map fun s => f s + g s).sum = (l.map f).sum + (l.map g).sum := List.sum_map_add ..
  unfold CountsSeqs
  simp only [exactFlops, exactSize, hadd]
  cases type with
  | none => cases h
  | gpu =>
    unfold executorOf select attentionGenExecutionGPU at h
    obtain rfl := hgiven h
    exact ⟨rfl, (hadd ..).symm⟩
  | logic =>
    unfold executorOf select attentionGenExecutionLogic at h
    obtain rfl := hgiven h
    exact ⟨rfl, (hadd ..).symm⟩
  | pim =>
    unfold executorOf select attentionGenExecutionPIM at h
    obtain rfl := hgiven h
    exact ⟨AttentionGen.flops_pim, AttentionGen.memorySize_pim.trans (hadd ..).symm⟩

/-- A stage over all sequences, one for each of them and one over all. -/
theorem sum_around (f : Stage → ℕ) (seqs : List Sequence) (first last : Stage)
    (each : Sequence → Stage) : ((first :: (seqs.map each ++ [last])).map f).sum
      = f first + (seqs.map fun s => f (each s)).sum + f last := by
  simp only [List.map_cons, List.map_append, List.map_map, List.map_nil, List.sum_cons,
    List.sum_append, List.sum_nil]
  exact (add_assoc ..).symm

theorem mlaGen_counts (hinput : i.tensors[0]? = some input)
    (h : executorOf .mlaGen type i = .ok (some script)) :
    CountsSeqs i input.precisionByte type .mlaGen script := by
  have hcounts {rates : ℕ → Rates} (h : multiLatentAttentionGenExecution type rates i
      = .ok (some script)) : CountsSeqs i input.precisionByte type .mlaGen script := by
    obtain ⟨input', kCache, vCache, hinput', -, -, hscript⟩ := multiLatentAttentionGenExecution_ok h
    obtain rfl := Option.some.inj (hinput.symm.trans hinput')
    split_ifs at hscript
    obtain rfl := Option.some.inj hscript
    unfold CountsSeqs Script.flops Script.memorySize LatentGen.script
    by_cases hflash : i.layerInfo.useFlashMla = true
    · simp only [exactFlops, exactSize, hflash, if_true]
      exact ⟨rfl, rfl⟩
    · simp only [exactFlops, exactSize, hflash, Bool.false_eq_true, if_false, List.sum_map_add,
        sum_around]
      refine ⟨rfl, ?_⟩
      -- The scores are not counted.
      simp only [LatentGen.softmax, List.map_const', List.sum_replicate, smul_zero, add_zero]
      rfl
  cases type with
  | none => cases h
  | gpu =>
    unfold executorOf select multiLatentAttentionGenExecutionGPU at h
    exact hcounts h
  | logic =>
    unfold executorOf select multiLatentAttentionGenExecutionLogic at h
    exact hcounts h
  | pim =>
    unfold executorOf select multiLatentAttentionGenExecutionPIM at h
    exact hcounts h

theorem absorbedMlaGen_counts (hinput : i.tensors[0]? = some input)
    (h : executorOf .absorbedMlaGen type i = .ok (some script)) :
    CountsSeqs i input.precisionByte type .absorbedMlaGen script := by
  have hcounts {rates : ℕ → Rates} (h : absorbMLAGenExecution type rates i
      = .ok (some script)) : CountsSeqs i input.precisionByte type .absorbedMlaGen script := by
    obtain ⟨input', hinput', hscript⟩ := absorbMLAGenExecution_ok h
    obtain rfl := Option.some.inj (hinput.symm.trans hinput')
    split_ifs at hscript
    obtain rfl := Option.some.inj hscript
    unfold CountsSeqs Script.flops Script.memorySize AbsorbGen.script
    by_cases hflash : i.layerInfo.useFlashMla = true
    · simp only [exactFlops, exactSize, hflash, if_true]
      exact ⟨rfl, rfl⟩
    · simp only [exactFlops, exactSize, hflash, Bool.false_eq_true, if_false, List.sum_map_add]
      rw [List.map_cons, List.sum_cons, sum_around, List.map_cons, List.sum_cons, sum_around,
        ← add_assoc, ← add_assoc, ← add_assoc, ← add_assoc]
      exact ⟨rfl, rfl⟩
  cases type with
  | none => cases h
  | gpu =>
    unfold executorOf select absorbMLAGenExecutionGPU at h
    exact hcounts h
  | logic =>
    unfold executorOf select absorbMLAGenExecutionLogic at h
    exact hcounts h
  | pim =>
    unfold executorOf select absorbMLAGenExecutionPIM at h
    exact hcounts h

theorem mixed_stages {rates : Rates} {opb : Bool} {kinds : ℕ → List (Sequence → Stage)}
    (hinput : i.tensors[0]? = some input)
    (h : mixedExecution layerType rates opb kinds i = .ok (some script)) :
    script.stages = byStage i.sequencesMetadata.sequence (kinds input.precisionByte) := by
  obtain ⟨input', flops, memorySize, hinput', hscript⟩ := mixedExecution_ok h
  obtain rfl := Option.some.inj (hinput.symm.trans hinput')
  obtain rfl := Option.some.inj hscript
  rfl

theorem mlaMixed_counts (hinput : i.tensors[0]? = some input)
    (h : executorOf .mlaMixed type i = .ok (some script)) :
    CountsSeqs i input.precisionByte type .mlaMixed script := by
  cases type with
  | none => cases h
  | logic => cases h
  | gpu =>
    unfold executorOf select multiLatentAttentionMixedExecutionGPU at h
    exact counts_byStage (mixed_stages hinput h) (fun _ => rfl) fun _ => rfl
  | pim =>
    unfold executorOf select multiLatentAttentionMixedExecutionPIM at h
    exact counts_byStage (mixed_stages hinput h) (fun _ => rfl) fun _ => rfl

theorem attentionMixed_counts (hinput : i.tensors[0]? = some input)
    (h : executorOf .attentionMixed type i = .ok (some script)) :
    CountsSeqs i input.precisionByte type .attentionMixed script := by
  cases type with
  | none => cases h
  | logic => cases h
  | gpu =>
    unfold executorOf select attentionMixedExecutionGPU at h
    exact counts_byStage (mixed_stages hinput h) (fun _ => rfl) fun _ => rfl
  | pim =>
    unfold executorOf select attentionMixedExecutionPIM at h
    refine counts_byStage (mixed_stages hinput h) (fun s => ?_) fun s => ?_
    · simp only [List.map_cons, List.map_nil, Mixed.scoringPIM, Mixed.contextPIM]
      split_ifs <;> rfl
    · simp only [List.map_cons, List.map_nil, Mixed.scoringPIM, Mixed.contextPIM]
      split_ifs <;> rfl

theorem counts (hlayer : Attends layerType) (hinput : i.tensors[0]? = some input)
    (h : executorOf layerType type i = .ok (some script)) :
    CountsSeqs i input.precisionByte type layerType script := by
  cases layerType with
  | attentionSum => exact attentionSum_counts hinput h
  | attentionGen => exact attentionGen_counts hinput h
  | attentionMixed => exact attentionMixed_counts hinput h
  | mlaSum => exact mlaSum_counts hinput h
  | mlaGen => exact mlaGen_counts hinput h
  | mlaMixed => exact mlaMixed_counts hinput h
  | absorbedMlaSum => exact absorbedMlaSum_counts hinput h
  | absorbedMlaGen => exact absorbedMlaGen_counts hinput h
  | _ => exact absurd (by decide) hlayer

end Scripts

end IntWork
end Executor
end LlmSystem
