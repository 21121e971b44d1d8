import LlmSystem.Executor.Roofline
import Mathlib.Algebra.Order.BigOperators.Group.List

/-!
Sequences in decode that process no token, because the transfer of their keys and values has not
ended yet: they are charged for their caches all the same.
-/
namespace LlmSystem

namespace BatchedSequence

/-- Without the sequences in decode that process nothing. -/
def withoutIdle (b : BatchedSequence) : BatchedSequence :=
  { b with sequence := b.sequence.filter fun s => decide (s.InSum ∨ s.numProcessToken ≠ 0) }

theorem getGen_withoutIdle (b : BatchedSequence) :
    b.withoutIdle.getGen = b.getGen.filter fun s => decide (s.numProcessToken ≠ 0) := by
  unfold getGen withoutIdle
  dsimp only
  rw [List.filter_filter, List.filter_filter]
  refine List.filter_congr fun s _ => ?_
  by_cases hsum : s.InSum
  · simp [hsum]
  · simp [hsum]

/-- They add nothing to the tokens that are processed. -/
theorem getGenProcessToken_withoutIdle (b : BatchedSequence) :
    b.withoutIdle.getGenProcessToken = b.getGenProcessToken := by
  unfold getGenProcessToken
  rw [getGen_withoutIdle]
  induction b.getGen with
  | nil => rfl
  | cons s seqs ih =>
    by_cases hidle : s.numProcessToken = 0
    · simpa [hidle] using ih
    · simpa [hidle] using ih

end BatchedSequence

/-- A sum that filtering does not change leaves out only zeros. -/
theorem sum_map_filter_eq_iff {α : Type*} (keep : α → Bool) (f : α → ℕ) (l : List α) :
    ((l.filter keep).map f).sum = (l.map f).sum ↔ ∀ a ∈ l, keep a = false → f a = 0 := by
  induction l with
  | nil => simp
  | cons a l ih =>
    have hle : ((l.filter keep).map f).sum ≤ (l.map f).sum :=
      (List.filter_sublist.map f).sum_le_sum fun _ _ => Nat.zero_le _
    rw [List.forall_mem_cons, ← ih, List.map_cons, List.sum_cons]
    by_cases hkeep : keep a = true
    · rw [List.filter_cons_of_pos hkeep, List.map_cons, List.sum_cons]
      simp [hkeep]
    · rw [List.filter_cons_of_neg hkeep]
      simp only [hkeep, forall_const]
      omega

/-- The same layer, for the batch without its idle sequences. -/
def AttentionInput.withoutIdle (i : AttentionInput) : AttentionInput :=
  { i with sequencesMetadata := i.sequencesMetadata.withoutIdle }

namespace Executor

/-- The layers whose executors work on the sequences in decode. -/
def Decodes (layerType : LayerType) : Prop :=
  layerType ∈ [.attentionGen, .mlaGen, .absorbedMlaGen]

instance (layerType : LayerType) : Decidable (Decodes layerType) :=
  inferInstanceAs (Decidable (_ ∈ _))

/-- The bytes that a sequence is charged with. -/
def sequenceBytes (info : LayerInfo) (p : ℕ) (type : ProcessorType) (layerType : LayerType)
    (s : Sequence) : ℕ :=
  let m := s.processed
  let n := s.attended
  match layerType with
  | .attentionGen =>
    if type = .gpu then
      info.numKvHeads * AttentionGen.headSizeGPU info p m info.headDim n
        + info.numKvHeads * AttentionGen.headSizeGPU info p m n info.headDim
    else info.numKvHeads * (info.headDim * n * p) + info.numKvHeads * (info.headDim * n * p)
  | .mlaGen =>
    if info.useFlashMla then LatentGen.flashSeqSize info p s
    else LatentGen.seqSize info p m (LatentSum.keyDim info) n
      + LatentGen.seqSize info p m n info.headDim
  | .absorbedMlaGen =>
    if info.useFlashMla then AbsorbGen.flashSeqSize info p s
    else matmulSize m info.kvLoraRank n info.numHeads 1 * p
      + matmulSize m info.qkRopeHeadDim n info.numHeads 1 * p
      + 2 * m * n * info.numHeads * p + matmulSize m n info.kvLoraRank info.numHeads 1 * p
  | _ => 0

section Bytes
variable {info : LayerInfo} {p : ℕ} {type : ProcessorType} {layerType : LayerType} {s : Sequence}

/-- Whatever it processes, for as long as it attends to anything. -/
theorem sequenceBytes_pos (hlayer : Decodes layerType) (hp : 0 < p) (hlen : 0 < s.attended)
    (hlatent : layerType = .absorbedMlaGen → 0 < AbsorbGen.latentDim info) :
    0 < sequenceBytes info p type layerType s := by
  have hheads := info.numHeads_pos
  have hkv := info.numKvHeads_pos
  have hdim := info.headDim_pos
  unfold sequenceBytes
  cases layerType with
  | attentionGen =>
    dsimp only
    split_ifs
    · unfold AttentionGen.headSizeGPU
      positivity
    · positivity
  | mlaGen =>
    dsimp only
    split_ifs
    · unfold LatentGen.flashSeqSize
      positivity
    · unfold LatentGen.seqSize
      positivity
  | absorbedMlaGen =>
    have hdims := hlatent rfl
    dsimp only
    split_ifs
    · unfold AbsorbGen.flashSeqSize
      positivity
    · unfold matmulSize
      rcases Nat.add_pos_iff_pos_or_pos.mp hdims with hrank | hrope
      · positivity
      · positivity
  | _ => exact absurd hlayer (by decide)

/-- All that an executor charges, it charges for one sequence after the other. -/
theorem Scripted.memorySize_eq {i : AttentionInput} {script : Script} (hlayer : Decodes layerType)
    (hscript : Scripted i layerType type script) : ∃ input, i.tensors[0]? = some input ∧
      script.memorySize = (i.sequencesMetadata.getGen.map
        (sequenceBytes i.layerInfo input.precisionByte type layerType)).sum := by
  cases hscript with
  | @attentionGenGPU input _ _ operands =>
    refine ⟨input, operands.input, ?_⟩
    unfold sequenceBytes
    dsimp only
    simp only [if_true, List.sum_map_add]
    rfl
  | @attentionGenLogic input _ _ _ operands =>
    refine ⟨input, operands.input, ?_⟩
    unfold sequenceBytes
    dsimp only
    simp only [reduceCtorEq, if_false, List.sum_map_add]
    rfl
  | @attentionGenPIM input _ _ _ operands =>
    refine ⟨input, operands.input, ?_⟩
    rw [AttentionGen.memorySize_pim]
    unfold sequenceBytes
    dsimp only
    simp only [reduceCtorEq, if_false, List.sum_map_add]
    rfl
  | @mlaGen _ rates input _ _ operands =>
    refine ⟨input, operands.input, ?_⟩
    unfold Script.memorySize LatentGen.script sequenceBytes
    dsimp only
    split_ifs
    · rfl
    · simp only [List.map_cons, List.map_append, List.map_map, List.map_nil, List.sum_cons,
        List.sum_append, List.sum_nil, List.sum_map_add]
      have hscores : (i.sequencesMetadata.getGen.map ((fun stage => stage.memorySize) ∘
          LatentGen.softmax type rates i.layerInfo input.precisionByte)).sum = 0 := by
        rw [List.sum_eq_zero_iff]
        simp [LatentGen.softmax]
      rw [hscores, zero_add, add_zero]
      rfl
  | @absorbedMlaGen _ _ input operands =>
    refine ⟨input, operands.input, ?_⟩
    unfold Script.memorySize AbsorbGen.script sequenceBytes
    dsimp only
    split_ifs
    · rfl
    · simp only [List.map_cons, List.map_append, List.map_map, List.map_nil, List.sum_cons,
        List.sum_append, List.sum_nil, List.sum_map_add, add_zero, add_assoc]
      rfl
  | _ => exact absurd hlayer (by decide)

end Bytes

/-! ### Executions -/

section Executions
variable {i : AttentionInput} {layerType : LayerType} {type : ProcessorType} {d : DeviceMemory}
  {useRamulator : Bool} {s t t' : IssueState} {e e' : ExecStatus} {ops ops' : Operands}

/-- Of a batch in which a token is processed, the bytes of all sequences in decode are reported. -/
theorem executePType_bytes (hlayer : Decodes layerType)
    (htoken : i.sequencesMetadata.getGenProcessToken ≠ 0)
    (h : executePType d useRamulator layerType type i s = .ok (e, ops, t)) :
    ∃ input, i.tensors[0]? = some input ∧ e.memorySize = (i.sequencesMetadata.getGen.map
      (sequenceBytes i.layerInfo input.precisionByte type layerType)).sum := by
  have hmixed : layerType ≠ .attentionMixed ∧ layerType ≠ .mlaMixed := by
    constructor <;> rintro rfl <;> exact absurd hlayer (by decide)
  rcases executePType_work hmixed h with ⟨hspared, -, -⟩ | ⟨script, hscript, -, hmemory⟩
  · have hnone : i.sequencesMetadata.getGenProcessToken = 0 := by
      cases layerType with
      | attentionGen => exact hspared
      | mlaGen => exact hspared
      | absorbedMlaGen => exact hspared
      | _ => exact absurd hlayer (by decide)
    exact absurd hnone htoken
  · obtain ⟨input, hinput, hbytes⟩ := hscript.memorySize_eq hlayer
    exact ⟨input, hinput, by rw [hmemory, hbytes]⟩

/-- The same work and time, and the same commands of the memory. -/
structure SameCharges (e e' : ExecStatus) : Prop where
  flops : e.flops = e'.flops
  memorySize : e.memorySize = e'.memorySize
  totalDuration : e.totalDuration = e'.totalDuration
  readCount : e.readCount = e'.readCount
  writeCount : e.writeCount = e'.writeCount

/-- Leaving out the sequences that are idle changes nothing where there are none, and something
where there are, but for absorbed attention without a latent cache. -/
theorem idle_iff (hlayer : Decodes layerType)
    (hlens : ∀ seq ∈ i.sequencesMetadata.sequence, 0 < seq.inputLen)
    (htoken : i.sequencesMetadata.getGenProcessToken ≠ 0)
    (h : executePType d useRamulator layerType type i s = .ok (e, ops, t))
    (h' : executePType d useRamulator layerType type i.withoutIdle s = .ok (e', ops', t')) :
    ((∀ seq ∈ i.sequencesMetadata.getGen, seq.numProcessToken ≠ 0) → SameCharges e' e) ∧
      (SameCharges e' e → (∀ seq ∈ i.sequencesMetadata.getGen, seq.numProcessToken ≠ 0) ∨
        layerType = .absorbedMlaGen ∧ AbsorbGen.latentDim i.layerInfo = 0) := by
  constructor
  · intro hbusy
    have hall : i.sequencesMetadata.withoutIdle = i.sequencesMetadata := by
      unfold BatchedSequence.withoutIdle
      rw [List.filter_eq_self.mpr]
      intro seq hseq
      by_cases hsum : seq.InSum
      · simp [hsum]
      · have hmem : seq ∈ i.sequencesMetadata.getGen := List.mem_filter.mpr ⟨hseq, by simp [hsum]⟩
        simp [hbusy seq hmem]
    have hinput : i.withoutIdle = i := by
      unfold AttentionInput.withoutIdle
      rw [hall]
    rw [hinput, h] at h'
    obtain ⟨rfl, -⟩ := Prod.mk.inj (Except.ok.inj h')
    exact ⟨rfl, rfl, rfl, rfl, rfl⟩
  · intro hsame
    refine or_iff_not_imp_right.mpr fun hcache seq hseq hidle => ?_
    have hlatent : layerType = .absorbedMlaGen → 0 < AbsorbGen.latentDim i.layerInfo :=
      fun habsorbed => Nat.pos_of_ne_zero fun hzero => hcache ⟨habsorbed, hzero⟩
    have htoken' : i.withoutIdle.sequencesMetadata.getGenProcessToken ≠ 0 :=
      i.sequencesMetadata.getGenProcessToken_withoutIdle.trans_ne htoken
    obtain ⟨input, hinput, hbytes⟩ := executePType_bytes hlayer htoken h
    obtain ⟨input', hinput', hbytes'⟩ := executePType_bytes hlayer htoken' h'
    obtain rfl : input = input' := Option.some.inj (hinput.symm.trans hinput')
    have hsums := hsame.memorySize
    rw [hbytes, hbytes', Nat.cast_inj] at hsums
    unfold AttentionInput.withoutIdle at hsums
    dsimp only at hsums
    rw [BatchedSequence.getGen_withoutIdle, sum_map_filter_eq_iff] at hsums
    have hnone := hsums seq hseq (by simp [hidle])
    -- In decode a sequence has at least the tokens of its input.
    have hlen : 0 < seq.attended := by
      obtain ⟨hmem, hgen⟩ := List.mem_filter.mp hseq
      have hinput := hlens seq hmem
      have hlater : ¬ seq.InSum := by simpa using hgen
      unfold Sequence.InSum at hlater
      unfold Sequence.attended
      omega
    exact (sequenceBytes_pos hlayer input.precisionByte_pos hlen hlatent).ne' hnone

end Executions

/-- Two sequences that both process a token, and one that is still in prefill. -/
def onDecode : AttentionInput :=
  { besideWaiting 63 with
    sequencesMetadata := { BatchedSequence.create 0 0 with
      sequence := [{ Sequence.start 0 0 1 8 with currentLen := 1, numProcessToken := 1 },
        { Sequence.start 1 0 4 8 with currentLen := 5, numProcessToken := 1 },
        Sequence.start 2 0 6 8] } }

theorem idle_none : ∃ e ops s e' ops' s',
    executePType idealMemory false .attentionGen .gpu onDecode {} = .ok (e, ops, s) ∧
    executePType idealMemory false .attentionGen .gpu onDecode.withoutIdle {}
      = .ok (e', ops', s') ∧ SameCharges e' e := by
  obtain ⟨e, ops, s, h⟩ : ∃ e ops s,
      executePType idealMemory false .attentionGen .gpu onDecode {} = .ok (e, ops, s) :=
    ⟨_, _, _, rfl⟩
  obtain ⟨e', ops', s', h'⟩ : ∃ e ops s,
      executePType idealMemory false .attentionGen .gpu onDecode.withoutIdle {} = .ok (e, ops, s) :=
    ⟨_, _, _, rfl⟩
  refine ⟨e, ops, s, e', ops', s', h, h', (idle_iff ?_ ?_ ?_ h h').1 ?_⟩
  · decide
  · decide
  · decide
  · decide

/-- The sequence that waits is charged for its 63 tokens. -/
theorem idle_charged : ∃ e ops s e' ops' s',
    executePType idealMemory false .attentionGen .gpu (besideWaiting 63) {} = .ok (e, ops, s) ∧
    executePType idealMemory false .attentionGen .gpu (besideWaiting 63).withoutIdle {}
      = .ok (e', ops', s') ∧ ¬ SameCharges e' e := by
  refine ⟨_, _, _, _, _, _, rfl, rfl, fun h => ?_⟩
  exact absurd h.memorySize (by decide +kernel)

end Executor
end LlmSystem
