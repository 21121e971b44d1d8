import LlmSystem.Hardware.Causality
import LlmSystem.Module.Readings
import LlmSystem.Scheduler.TokenLimits

/-!
The prefill machine beside decode sequences. `setMetadata` serves both stages in a disaggregated
system, so a prefill iteration runs the decode sequences that are due as well; the sum machine
keeps its time and drops its work.
-/
namespace LlmSystem

open Nesting Scheduler

namespace Scheduler

/-- A decode sequence that gets a token, or still has one. -/
def Due (s : Scheduler) (t : Sequence) : Prop := t.numProcessToken ≠ 0 ∨ s.GateOpen t

instance (s : Scheduler) (t : Sequence) : Decidable (s.Due t) := inferInstanceAs (Decidable (_ ∨ _))

/-- The tokens of a sequence in the next iteration of a disaggregated system. -/
def planned (s : Scheduler) (b : BatchedSequence) (t : Sequence) : ℤ :=
  if t.InSum then min (s.maxProcessToken.tdiv b.getSum.length) (t.inputLen - t.currentLen)
  else if s.Due t then 1
  else 0

def plannedTokens (s : Scheduler) (b : BatchedSequence) : ℤ := (b.sequence.map (s.planned b)).sum

/-- The length that the last sequence of the batch comes to. -/
def reach (s : Scheduler) (b : BatchedSequence) : ℤ :=
  (b.sequence.getLast?.map fun t => max (t.currentLen + s.planned b t) 0).getD 0

/-- What the modules can tell of the decode sequences. -/
def outline (s : Scheduler) (b : BatchedSequence) : List (Bool × ℤ) :=
  b.getGen.map fun t => (decide (s.Due t), t.currentLen)

/-- Where the tokens of the decode sequences get their experts. -/
def dueSources (s : Scheduler) (b : BatchedSequence) : List (Option (ℤ × ℤ)) :=
  (b.getGen.filter fun t => decide (s.Due t)).map fun t =>
    BatchedSequence.expertSource t t.currentLen

/-- The batches hold the same prefilling sequences. -/
def SamePrefill (s₁ s₂ : Scheduler) : Prop :=
  s₁.runningQueue.map (·.getSum) = s₂.runningQueue.map (·.getSum)

instance (s₁ s₂ : Scheduler) : Decidable (SamePrefill s₁ s₂) := inferInstanceAs (Decidable (_ = _))

/-- The decode sequences of two batches make no difference to the modules. -/
structure Alike (c : LayerConfig) (compressedKv : Bool) (s₁ s₂ : Scheduler)
    (b₁ b₂ : BatchedSequence) : Prop where
  due : ((∀ t ∈ b₁.getGen, ¬s₁.Due t) ∧ ∀ t ∈ b₂.getGen, ¬s₂.Due t) ∨
    s₁.outline b₁ = s₂.outline b₂
  rope : c.qkRopeHeadDim ≠ 0 → s₁.plannedTokens b₁ ≠ 0 → s₁.reach b₁ = s₂.reach b₂
  restored : c.qkRopeHeadDim ≠ 0 → c.useAbsorb = false → compressedKv = true →
    b₁.getTotalSequenceLength + b₁.getGen.length = b₂.getTotalSequenceLength + b₂.getGen.length
  experts : (LLM.decoders c.toLlmConfig).any (·.hasExperts) = true →
    (s₁.dueSources b₁).Perm (s₂.dueSources b₂)

/-- No token is assigned at all, or the decode sequences make no difference in any batch. -/
def Undisturbed (c : LayerConfig) (compressedKv : Bool) (s₁ s₂ : Scheduler) : Prop :=
  ((s₁.runningQueue.map s₁.plannedTokens).sum = 0 ∧
    (s₂.runningQueue.map s₂.plannedTokens).sum = 0) ∨
  List.Forall₂ (Alike c compressedKv s₁ s₂) s₁.runningQueue s₂.runningQueue

section Batch

variable {s : Scheduler} {b : BatchedSequence}

theorem assignTokens_planned (hdisagg : s.systemConfig.disaggSystem = true) {t : Sequence}
    (hone : SingleToken t) :
    s.assignTokens b t = { t with numProcessToken := s.planned b t } := by
  unfold assignTokens planned
  by_cases hin : t.InSum
  · simp [hin, processSum, hdisagg, setSumToken]
  · simp only [hin, if_false, processGen, hdisagg, Bool.true_or, if_true, setGenToken]
    by_cases hgate : s.GateOpen t
    · have hdue : s.Due t := .inr hgate
      rw [if_pos hdue]
      rcases hgate with hzero | hle
      · rw [if_pos hzero]
      · rw [if_pos hle, ite_self]
    · rw [if_neg fun h => hgate (.inl h), if_neg fun h => hgate (.inr h)]
      rcases hone hin with hzero | hone
      · rw [if_neg fun h => h.elim (absurd hzero) hgate, ← hzero]
      · have hdue : s.Due t := .inl (by simp [hone])
        rw [if_pos hdue, ← hone]

variable (hdisagg : s.systemConfig.disaggSystem = true) (hone : ∀ t ∈ b.sequence, SingleToken t)
include hdisagg hone

theorem map_assignTokens {l : List Sequence} (hl : ∀ t ∈ l, t ∈ b.sequence) :
    l.map (s.assignTokens b) = l.map fun t => { t with numProcessToken := s.planned b t } :=
  List.map_congr_left fun t ht => assignTokens_planned hdisagg (hone t (hl t ht))

theorem sequence_setBatchMetadata : (s.setBatchMetadata b).sequence
    = b.sequence.map fun t => { t with numProcessToken := s.planned b t } :=
  map_assignTokens hdisagg hone fun _ ht => ht

theorem getGen_planned : (s.setBatchMetadata b).getGen
    = b.getGen.map fun t => { t with numProcessToken := s.planned b t } := by
  rw [getGen_setBatchMetadata]
  exact map_assignTokens hdisagg hone fun t ht => (List.mem_filter.mp ht).1

theorem getSum_planned : (s.setBatchMetadata b).getSum
    = b.getSum.map fun t => { t with numProcessToken := s.planned b t } := by
  rw [getSum_setBatchMetadata]
  exact map_assignTokens hdisagg hone fun t ht => (List.mem_filter.mp ht).1

theorem getProcessToken_planned :
    (s.setBatchMetadata b).getProcessToken = s.plannedTokens b := by
  simp [BatchedSequence.getProcessToken, sequence_setBatchMetadata hdisagg hone, plannedTokens,
    Function.comp_def]

theorem lengths_getGen : BatchedSequence.lengths (s.setBatchMetadata b).getGen
    = (s.outline b).map fun p => (if p.1 then 1 else 0, p.2) := by
  simp only [BatchedSequence.lengths, getGen_planned hdisagg hone, outline, List.map_map]
  refine List.map_congr_left fun t ht => ?_
  have hgen : ¬t.InSum := by simpa using (List.mem_filter.mp ht).2
  simp [planned, hgen]

theorem getGenProcessToken_planned : (s.setBatchMetadata b).getGenProcessToken
    = ((s.outline b).map fun p => if p.1 then 1 else 0).sum := by
  have hlengths := congrArg (fun l => (l.map Prod.fst).sum) (lengths_getGen hdisagg hone)
  simpa [BatchedSequence.lengths, BatchedSequence.getGenProcessToken, Function.comp_def]
    using hlengths

theorem getGenProcessToken_eq_zero :
    (s.setBatchMetadata b).getGenProcessToken = 0 ↔ ∀ t ∈ b.getGen, ¬s.Due t := by
  rw [getGenProcessToken_planned hdisagg hone, Residues.sum_map_eq_zero_iff]
  · simp [outline]
  · intro p _
    split_ifs <;> decide

theorem maxLen_planned : (s.setBatchMetadata b).maxLen = s.reach b := by
  unfold BatchedSequence.maxLen reach
  rw [sequence_setBatchMetadata hdisagg hone]
  rcases List.eq_nil_or_concat b.sequence with hnil | ⟨l, t, hlast⟩
  · simp [hnil]
  · simp [hlast]

theorem restored_planned : (s.setBatchMetadata b).getTotalSequenceLength
    + (s.setBatchMetadata b).getGen.length = b.getTotalSequenceLength + b.getGen.length := by
  simp [BatchedSequence.getTotalSequenceLength, getGen_planned hdisagg hone, Function.comp_def]

theorem expertSources_getGen :
    BatchedSequence.expertSources (s.setBatchMetadata b).getGen = s.dueSources b := by
  rw [getGen_planned hdisagg hone]
  have hgen : ∀ t ∈ b.getGen, ¬t.InSum := fun t ht => by simpa using (List.mem_filter.mp ht).2
  unfold BatchedSequence.expertSources dueSources
  generalize b.getGen = l at hgen
  induction l with
  | nil => rfl
  | cons t l ih =>
    obtain ⟨ht, hl⟩ := List.forall_mem_cons.mp hgen
    rw [List.map_cons, List.flatMap_cons, ih hl]
    by_cases hdue : s.Due t
    · simp [planned, ht, hdue, BatchedSequence.tokenIds, BatchedSequence.expertSource]
    · simp [planned, ht, hdue, BatchedSequence.tokenIds]

theorem expertSources_planned :
    (BatchedSequence.expertSources (s.setBatchMetadata b).sequence).Perm
      (BatchedSequence.expertSources (s.setBatchMetadata b).getSum ++ s.dueSources b) := by
  have hsplit : ((s.setBatchMetadata b).getSum ++ (s.setBatchMetadata b).getGen).Perm
      (s.setBatchMetadata b).sequence := List.filter_append_perm _ _
  rw [← expertSources_getGen hdisagg hone, BatchedSequence.expertSources,
    BatchedSequence.expertSources, BatchedSequence.expertSources, ← List.flatMap_append]
  exact hsplit.symm.flatMap_right _

end Batch

/-! ### Two batches -/

section Views

variable {s₁ s₂ : Scheduler} {b₁ b₂ : BatchedSequence}

/-- Assigned batches with the same prefilling sequences. -/
structure Paired (s₁ s₂ : Scheduler) (b₁ b₂ : BatchedSequence) : Prop where
  disagg₁ : s₁.systemConfig.disaggSystem = true
  disagg₂ : s₂.systemConfig.disaggSystem = true
  single₁ : ∀ t ∈ b₁.sequence, SingleToken t
  single₂ : ∀ t ∈ b₂.sequence, SingleToken t
  share : s₁.maxProcessToken = s₂.maxProcessToken
  sums : b₁.getSum = b₂.getSum

namespace Paired

variable (h : Paired s₁ s₂ b₁ b₂)
include h

theorem getSum : (s₁.setBatchMetadata b₁).getSum = (s₂.setBatchMetadata b₂).getSum := by
  rw [getSum_planned h.disagg₁ h.single₁, getSum_planned h.disagg₂ h.single₂, ← h.sums]
  refine List.map_congr_left fun t ht => ?_
  have hin : t.InSum := by simpa using (List.mem_filter.mp ht).2
  simp only [planned, if_pos hin, h.share, h.sums]

/-- Where the decode sequences that are due look alike, so do the token counts. -/
theorem getGenProcessToken (hdue : ((∀ t ∈ b₁.getGen, ¬s₁.Due t) ∧ ∀ t ∈ b₂.getGen, ¬s₂.Due t) ∨
    s₁.outline b₁ = s₂.outline b₂) :
    (s₁.setBatchMetadata b₁).getGenProcessToken = (s₂.setBatchMetadata b₂).getGenProcessToken := by
  rcases hdue with ⟨hnone₁, hnone₂⟩ | hsame
  · rw [(getGenProcessToken_eq_zero h.disagg₁ h.single₁).mpr hnone₁,
      (getGenProcessToken_eq_zero h.disagg₂ h.single₂).mpr hnone₂]
  · rw [getGenProcessToken_planned h.disagg₁ h.single₁,
      getGenProcessToken_planned h.disagg₂ h.single₂, hsame]

theorem getProcessToken (hdue : ((∀ t ∈ b₁.getGen, ¬s₁.Due t) ∧ ∀ t ∈ b₂.getGen, ¬s₂.Due t) ∨
    s₁.outline b₁ = s₂.outline b₂) :
    (s₁.setBatchMetadata b₁).getProcessToken = (s₂.setBatchMetadata b₂).getProcessToken := by
  rw [getProcessToken_eq, getProcessToken_eq, h.getGenProcessToken hdue]
  simp only [BatchedSequence.getSumProcessToken, h.getSum]

theorem plannedTokens (hdue : ((∀ t ∈ b₁.getGen, ¬s₁.Due t) ∧ ∀ t ∈ b₂.getGen, ¬s₂.Due t) ∨
    s₁.outline b₁ = s₂.outline b₂) : s₁.plannedTokens b₁ = s₂.plannedTokens b₂ := by
  rw [← getProcessToken_planned h.disagg₁ h.single₁, ← getProcessToken_planned h.disagg₂ h.single₂]
  exact h.getProcessToken hdue

/-- What the attention of the decode stage reads. -/
theorem read_gen_iff {kind : LayerKind} (compressedKv : Bool)
    (hkind : kind = .selfAttentionGen ∨ kind = .multiLatentAttentionGen ∨ kind = .absorbMLAGen) :
    kind.read compressedKv (s₁.setBatchMetadata b₁) = kind.read compressedKv (s₂.setBatchMetadata b₂)
      ↔ ((∀ t ∈ b₁.getGen, ¬s₁.Due t) ∧ ∀ t ∈ b₂.getGen, ¬s₂.Due t) ∨
        s₁.outline b₁ = s₂.outline b₂ := by
  have hzero₁ := getGenProcessToken_eq_zero h.disagg₁ h.single₁
  have hzero₂ := getGenProcessToken_eq_zero h.disagg₂ h.single₂
  have hread : ∀ b, kind.read compressedKv b = if b.getGenProcessToken = 0 then .nothing
      else .sequences (BatchedSequence.lengths b.getGen) := by
    rcases hkind with rfl | rfl | rfl <;> exact fun b => rfl
  have houtline : BatchedSequence.lengths (s₁.setBatchMetadata b₁).getGen
      = BatchedSequence.lengths (s₂.setBatchMetadata b₂).getGen ↔
        s₁.outline b₁ = s₂.outline b₂ := by
    rw [lengths_getGen h.disagg₁ h.single₁, lengths_getGen h.disagg₂ h.single₂]
    refine (List.map_injective_iff.mpr fun p q hpq => ?_).eq_iff
    obtain ⟨htoken, hlen⟩ := Prod.mk.inj hpq
    refine Prod.ext ?_ hlen
    cases hp : p.1 <;> cases hq : q.1 <;> simp_all
  constructor
  · intro hsame
    rw [hread, hread] at hsame
    split_ifs at hsame with h₁ h₂ h₂
    · exact .inl ⟨hzero₁.mp h₁, hzero₂.mp h₂⟩
    · exact .inr (houtline.mp (Reading.sequences.inj hsame))
  · intro hdue
    rw [hread, hread, h.getGenProcessToken hdue]
    split_ifs with h₂
    · rfl
    · rcases hdue with ⟨-, hnone⟩ | hsame
      · exact absurd (hzero₂.mpr hnone) h₂
      · rw [houtline.mpr hsame]

theorem read_rope_iff {kind : LayerKind} (compressedKv : Bool)
    (hkind : kind = .rope ∨ kind = .batchedRope)
    (htoken : s₁.plannedTokens b₁ = s₂.plannedTokens b₂) :
    kind.read compressedKv (s₁.setBatchMetadata b₁) = kind.read compressedKv (s₂.setBatchMetadata b₂)
      ↔ (s₁.plannedTokens b₁ ≠ 0 → s₁.reach b₁ = s₂.reach b₂) := by
  have hread : ∀ b, kind.read compressedKv b = if b.getProcessToken = 0 then .nothing
      else .longest b.maxLen := by
    rcases hkind with rfl | rfl <;> exact fun b => rfl
  rw [hread, hread, getProcessToken_planned h.disagg₁ h.single₁,
    getProcessToken_planned h.disagg₂ h.single₂, ← htoken, maxLen_planned h.disagg₁ h.single₁,
    maxLen_planned h.disagg₂ h.single₂]
  split_ifs with hzero
  · simp [hzero]
  · simp [hzero]

theorem read_restore_iff (compressedKv : Bool) :
    LayerKind.compressedKVRestore.read compressedKv (s₁.setBatchMetadata b₁)
      = LayerKind.compressedKVRestore.read compressedKv (s₂.setBatchMetadata b₂) ↔
      (compressedKv = true → b₁.getTotalSequenceLength + b₁.getGen.length
        = b₂.getTotalSequenceLength + b₂.getGen.length) := by
  have hrows₁ := restored_planned h.disagg₁ h.single₁
  have hrows₂ := restored_planned h.disagg₂ h.single₂
  cases compressedKv
  · simp [LayerKind.read]
  · simp only [LayerKind.read, if_true, Reading.restored.injEq, add_assoc, hrows₁, hrows₂,
      BatchedSequence.getSumProcessToken, h.getSum, add_right_inj, forall_const]

theorem read_experts_iff (compressedKv : Bool) :
    LayerKind.gateUpdate.read compressedKv (s₁.setBatchMetadata b₁)
      = LayerKind.gateUpdate.read compressedKv (s₂.setBatchMetadata b₂) ↔
      (s₁.dueSources b₁).Perm (s₂.dueSources b₂) := by
  have hperm₁ := expertSources_planned h.disagg₁ h.single₁
  have hperm₂ := expertSources_planned h.disagg₂ h.single₂
  simp only [LayerKind.read, Reading.experts.injEq, Multiset.coe_eq_coe]
  rw [hperm₁.congr_left, hperm₂.congr_right, h.getSum, List.perm_append_left_iff]

/-- Modules that do not look at the sequences only read token counts and prefilling sequences. -/
theorem read_of_not_looks {kind : LayerKind} (compressedKv : Bool) (hlooks : kind.looks = false)
    (hdue : ((∀ t ∈ b₁.getGen, ¬s₁.Due t) ∧ ∀ t ∈ b₂.getGen, ¬s₂.Due t) ∨
      s₁.outline b₁ = s₂.outline b₂) :
    kind.read compressedKv (s₁.setBatchMetadata b₁)
      = kind.read compressedKv (s₂.setBatchMetadata b₂) := by
  have htokens := h.getProcessToken hdue
  have hgen := h.getGenProcessToken hdue
  cases kind with
  | embedding | lmHead => simp only [LayerKind.read, htokens]
  | attentionSplit | attentionMerge | moeScatter | moeGather =>
    simp only [LayerKind.read, hgen, BatchedSequence.getSumProcessToken, h.getSum]
  | selfAttentionSum | multiLatentAttentionSum | absorbMLASum =>
    simp only [LayerKind.read, h.getSum]
  | container | layerNorm | residual | allReduce | linear | batchedLinear | activation | syncSet
  | sync | route => rfl
  | selfAttentionGen | multiLatentAttentionGen | absorbMLAGen | rope | batchedRope
  | compressedKVRestore | gateUpdate => cases hlooks

theorem view_eq_iff {d : LlmDevice} {input : TensorName} {F : Forest LayerCall}
    (hF : LLM.build d input = .ok F) (compressedKv : Bool) :
    view F compressedKv (s₁.setBatchMetadata b₁) = view F compressedKv (s₂.setBatchMetadata b₂) ↔
      Alike d.config compressedKv s₁ s₂ b₁ b₂ := by
  have hview : view F compressedKv (s₁.setBatchMetadata b₁)
      = view F compressedKv (s₂.setBatchMetadata b₂) ↔ ∀ kind ∈ F.toList.map (·.kind),
        kind.read compressedKv (s₁.setBatchMetadata b₁)
          = kind.read compressedKv (s₂.setBatchMetadata b₂) := by
    simp [view]
  rw [hview]
  constructor
  · intro hall
    have hlook : ∀ kind ∈ d.config.attentionLookers, kind.looks = true →
        kind.read compressedKv (s₁.setBatchMetadata b₁)
          = kind.read compressedKv (s₂.setBatchMetadata b₂) := fun kind hkind hlooks =>
      hall kind ((LLM.looks_iff hF hlooks).mpr (.inl hkind))
    obtain ⟨gen, hmem, hgen⟩ := exists_gen_looker d.config
    have hdue := (h.read_gen_iff compressedKv hgen).mp
      (hlook gen hmem (by rcases hgen with rfl | rfl | rfl <;> rfl))
    refine ⟨hdue, fun hrope => ?_, fun hrope habsorb => ?_, fun hexperts => ?_⟩
    · exact (h.read_rope_iff compressedKv (.inl rfl) (h.plannedTokens hdue)).mp
        (hlook _ (rope_looker_iff.mpr hrope) rfl)
    · exact (h.read_restore_iff compressedKv).mp
        (hlook _ (restore_looker_iff.mpr ⟨hrope, habsorb⟩) rfl)
    · exact (h.read_experts_iff compressedKv).mp
        (hall _ ((LLM.looks_iff hF rfl).mpr (.inr ⟨rfl, hexperts⟩)))
  · intro halike kind hkind
    cases hlooks : kind.looks with
    | false => exact h.read_of_not_looks compressedKv hlooks halike.due
    | true =>
      have htoken := h.plannedTokens halike.due
      rcases (LLM.looks_iff hF hlooks).mp hkind with hmem | ⟨rfl, hexperts⟩
      · cases kind with
        | selfAttentionGen => exact (h.read_gen_iff _ (.inl rfl)).mpr halike.due
        | multiLatentAttentionGen => exact (h.read_gen_iff _ (.inr (.inl rfl))).mpr halike.due
        | absorbMLAGen => exact (h.read_gen_iff _ (.inr (.inr rfl))).mpr halike.due
        | rope =>
          exact (h.read_rope_iff _ (.inl rfl) htoken).mpr (halike.rope (rope_looker_iff.mp hmem))
        | batchedRope =>
          exact (h.read_rope_iff _ (.inr rfl) htoken).mpr (halike.rope (batchedRope_looker hmem))
        | compressedKVRestore =>
          obtain ⟨hrope, habsorb⟩ := restore_looker_iff.mp hmem
          exact (h.read_restore_iff _).mpr (halike.restored hrope habsorb)
        | gateUpdate => exact absurd hmem gateUpdate_not_looker
        | _ => cases hlooks
      · exact (h.read_experts_iff _).mpr (halike.experts hexperts)

end Paired
end Views
end Scheduler

namespace Cluster

/-- What the modules read in the next iteration, batch by batch. -/
def views (F : Forest LayerCall) (compressedKv : Bool) (s : Scheduler) : List (List Reading) :=
  s.setMetadata.runningQueue.map (view F compressedKv)

/-- What the next iteration adds to `sum_machine_time` if it is one of the sum machine, where `run`
takes the time `time` of what the modules read. -/
def addedTime (time : List (List Reading) → ℚ) (F : Forest LayerCall) (compressedKv : Bool)
    (s : Scheduler) : ℚ :=
  if s.setMetadata.getNumProcessToken = 0 then 0 else time (views F compressedKv s)

section

variable {F : Forest LayerCall} {compressedKv : Bool}

/-- Without tokens the clock stands still; otherwise it first catches up with the gen machine. -/
theorem sumMachineTime_iterate {time : List (List Reading) → ℚ} {s t : LoopState} {i : IterInput}
    (hsum : s.scheduler.hasSumSeq = true) (hstep : iterate true s i = .ok t)
    (htime : i.deviceTime = time (views F compressedKv s.scheduler)) :
    t.sumMachineTime = if s.scheduler.setMetadata.getNumProcessToken = 0 then s.sumMachineTime
      else max s.totalTime s.sumMachineTime + addedTime time F compressedKv s.scheduler := by
  have hstep : runIterationSumGenSplit s i = .ok t := hstep
  unfold runIterationSumGenSplit at hstep
  dsimp only at hstep
  unfold addedTime
  simp only [hasSumSeq_setMetadata, hsum, Bool.not_true, Bool.false_eq_true, if_false] at hstep
  split_ifs at hstep ⊢ with hzero
  · obtain rfl := Except.ok.inj hstep
    rfl
  · obtain rfl := Except.ok.inj hstep
    simp only [summarize, htime]

theorem getNumProcessToken_planned {s : Scheduler} (hdisagg : s.systemConfig.disaggSystem = true)
    (hone : ∀ b ∈ s.runningQueue, ∀ t ∈ b.sequence, SingleToken t) :
    s.setMetadata.getNumProcessToken = (s.runningQueue.map s.plannedTokens).sum := by
  simp only [getNumProcessToken, Scheduler.setMetadata, List.map_map]
  exact congrArg List.sum (List.map_congr_left fun b hb =>
    getProcessToken_planned hdisagg (hone b hb))

end

/-- The tokens of a decode sequence between two iterations. -/
theorem kept_singleToken (s₀ : Scheduler) : Kept s₀ SingleToken where
  start _ ht := fun _ => .inl ht.tokenless
  delay h := h
  gen h := h
  assign h := h.assignTokens _ _
  update _ hkeep := fun _ => .inl (by
    rw [(settle_lengths hkeep).2.2.2, Sequence.update_numProcessToken])

theorem map_eq_map_iff {α β γ : Type*} {f : α → γ} {g : β → γ} {l : List α} {l' : List β} :
    l.map f = l'.map g ↔ List.Forall₂ (fun a b => f a = g b) l l' := by
  rw [← List.forall₂_eq_eq_eq, List.forall₂_map_left_iff, List.forall₂_map_right_iff]

/-- For states with the same prefilling sequences: what the modules read is the same exactly if the
decode sequences make no difference in any batch, and then so is the number of tokens. -/
theorem views_eq_iff {d : LlmDevice} {input : TensorName} {F : Forest LayerCall}
    (hF : LLM.build d input = .ok F) (compressedKv : Bool) {s₁ s₂ : Scheduler}
    (hpaired : List.Forall₂ (Paired s₁ s₂) s₁.runningQueue s₂.runningQueue) :
    (views F compressedKv s₁ = views F compressedKv s₂ ↔
      List.Forall₂ (Alike d.config compressedKv s₁ s₂) s₁.runningQueue s₂.runningQueue) ∧
    (views F compressedKv s₁ = views F compressedKv s₂ →
      s₁.runningQueue.map s₁.plannedTokens = s₂.runningQueue.map s₂.plannedTokens) := by
  unfold views Scheduler.setMetadata
  simp only [List.map_map, map_eq_map_iff]
  generalize s₁.runningQueue = q₁, s₂.runningQueue = q₂ at hpaired
  induction hpaired with
  | nil => simp
  | cons h _ ih =>
    have hview := h.view_eq_iff hF compressedKv
    simp only [List.forall₂_cons, Function.comp_apply, hview]
    exact ⟨and_congr_right fun _ => ih.1, fun hall =>
      ⟨h.plannedTokens hall.1.due, ih.2 hall.2⟩⟩

/-- In a disaggregated system, for any two reachable states whose batches hold the same prefilling
sequences: whatever time `run` takes as a function of what the modules read, the next iteration
adds the same to `sum_machine_time`, if and only if no token is assigned at all or the decode
sequences make no difference to the modules. -/
theorem prefill_time_alone (c : SystemConfig) (m : ModelConfig) (trace : ExpertTrace)
    (total maxBatched maxProcess : ℤ) (rotate countId : ℕ) {s₀ : Scheduler}
    (hs₀ : s₀ = Scheduler.create c m trace total maxBatched maxProcess rotate countId)
    (htotal : 0 ≤ total) (hdp : 1 ≤ s₀.dpDegree) (hdisagg : c.disaggSystem = true)
    {d : LlmDevice} {input : TensorName} {F : Forest LayerCall}
    (hF : LLM.build d input = .ok F) (compressedKv : Bool) {s₁ s₂ : LoopState}
    (h₁ : Runs.Reachable (Warm s₀) (Iterates true) s₁)
    (h₂ : Runs.Reachable (Warm s₀) (Iterates true) s₂) (hsum : s₁.scheduler.hasSumSeq = true)
    (hsame : SamePrefill s₁.scheduler s₂.scheduler) :
    (∀ s ∈ [s₁, s₂], ∀ time i t, Iterates true s i t →
      i.deviceTime = time (views F compressedKv s.scheduler) →
      t.sumMachineTime = if s.scheduler.setMetadata.getNumProcessToken = 0 then s.sumMachineTime
        else max s.totalTime s.sumMachineTime + addedTime time F compressedKv s.scheduler) ∧
    ((∀ time, addedTime time F compressedKv s₁.scheduler
      = addedTime time F compressedKv s₂.scheduler) ↔
      Undisturbed d.config compressedKv s₁.scheduler s₂.scheduler) := by
  subst hs₀
  have hrec : Recorded _ _ :=
    ⟨_, Bookkeeping.create c m trace total maxBatched maxProcess rotate countId htotal hdp,
      .refl _, rfl⟩
  have hkept := kept_singleToken
    (Scheduler.create c m trace total maxBatched maxProcess rotate countId)
  have hall : ∀ s, Runs.Reachable (Warm (Scheduler.create c m trace total maxBatched maxProcess
      rotate countId)) (Iterates true) s → RecordedAll _ SingleToken s.scheduler := fun s hs =>
    hs.invariant (I := fun s => RecordedAll _ SingleToken s.scheduler)
      (fun _ hwarm => RecordedAll.warm hkept
        ⟨hrec, all_create _ c m trace total maxBatched maxProcess rotate countId⟩ hwarm)
      fun _ _ _ hs hstep => hs.iterate hkept hstep.1
  obtain ⟨hrec₁, hone₁⟩ := hall s₁ h₁
  obtain ⟨hrec₂, hone₂⟩ := hall s₂ h₂
  have hset₁ := hrec₁.sameSetup
  have hset₂ := hrec₂.sameSetup
  have hdisagg₁ : s₁.scheduler.systemConfig.disaggSystem = true := hset₁.systemConfig ▸ hdisagg
  have hdisagg₂ : s₂.scheduler.systemConfig.disaggSystem = true := hset₂.systemConfig ▸ hdisagg
  have hpaired : List.Forall₂ (Paired s₁.scheduler s₂.scheduler) s₁.scheduler.runningQueue
      s₂.scheduler.runningQueue := by
    have hsums := map_eq_map_iff.mp hsame
    rw [List.forall₂_iff_get] at hsums ⊢
    refine ⟨hsums.1, fun i hi₁ hi₂ => ⟨hdisagg₁, hdisagg₂, ?_, ?_, ?_, hsums.2 i hi₁ hi₂⟩⟩
    · exact hone₁.2 _ (List.get_mem _ _)
    · exact hone₂.2 _ (List.get_mem _ _)
    · rw [hset₁.maxProcessToken, hset₂.maxProcessToken]
  obtain ⟨hviews, hplanned⟩ := views_eq_iff hF compressedKv hpaired
  have htokens₁ := getNumProcessToken_planned hdisagg₁ hone₁.2
  have htokens₂ := getNumProcessToken_planned hdisagg₂ hone₂.2
  constructor
  · have hsum₂ : s₂.scheduler.hasSumSeq = true := by
      have hany := congrArg (fun l => l.any fun q => q.length != 0) hsame
      simp only [List.any_map] at hany
      exact hany.symm.trans hsum
    intro s hs time i t hstep htime
    have hsum : s.scheduler.hasSumSeq = true := by
      rcases List.mem_pair.mp hs with rfl | rfl
      · exact hsum
      · exact hsum₂
    exact sumMachineTime_iterate hsum hstep.1 htime
  · unfold Undisturbed
    rw [← hviews, ← htokens₁, ← htokens₂]
    constructor
    · intro htime
      by_cases hsame : views F compressedKv s₁.scheduler = views F compressedKv s₂.scheduler
      · exact .inr hsame
      · -- a device that tells the two apart
        left
        have hmark := htime fun v => if v = views F compressedKv s₁.scheduler then 1 else 2
        unfold addedTime at hmark
        simp only [if_true, if_neg (Ne.symm hsame)] at hmark
        split_ifs at hmark with hzero₁ hzero₂ hzero₂
        · exact ⟨hzero₁, hzero₂⟩
        all_goals norm_num at hmark
    · rintro (⟨hzero₁, hzero₂⟩ | hsame) time
      · simp only [addedTime, if_pos hzero₁, if_pos hzero₂]
      · unfold addedTime
        rw [hsame, htokens₁, htokens₂, hplanned hsame]

/-! ### A prefill that a decode sequence makes longer -/

/-- Four places for sequences of 2 input and 20000 output tokens, requests injected by rate. -/
def longMachines : Scheduler :=
  Scheduler.create { numNode := 1, numDevice := 1, disaggSystem := true, useInjectRate := true }
    { maxSeqLen := 32768, inputLen := 2, outputLen := 20000 } {} 4 64 64 0 0

/-- A sequence of the warm-up that holds `k` tokens, with `n` decoded. -/
def warmSequence (n : ℕ) (k : ℤ) (id : ℕ) : Sequence where
  id := id
  expertSeqId := 0
  inputLen := 2
  outputLen := 20000
  totalLen := 20001
  numProcessToken := k
  currentLen := n + 2
  numSumIter := 1
  record := true
  sumStage := false
  getExpertFromList := false

/-- Both places of the warm-up, of which `int(4 * 0.7) = 2` are taken. -/
def warmBatch (n : ℕ) (k : ℤ) : BatchedSequence :=
  { BatchedSequence.create 0 0 with sequence := [warmSequence n k 0, warmSequence n k 1] }

def warmed (times : List ℚ) (n : ℕ) : Scheduler :=
  { longMachines.getActualArrivalTime times with
    rotate := 2, countId := 2, runningQueue := [warmBatch n 0] }

section Warmed
variable (times : List ℚ) {n : ℕ}

theorem warmed_update (hn : n + 3 < 20001) :
    ((warmed times n).setMetadata.updateScheduler 0).1 = warmed times (n + 1) := by
  have hassign : ∀ b id, (warmed times n).assignTokens b (warmSequence n 0 id)
      = warmSequence n 1 id := by
    intro b id
    have hgen : ¬(warmSequence n 0 id).InSum := by
      change ¬((n : ℤ) + 2 < 2)
      omega
    unfold assignTokens
    rw [if_neg hgen]
    rfl
  have hset : (warmed times n).setMetadata
      = { warmed times n with runningQueue := [warmBatch n 1] } := by
    change { warmed times n with runningQueue := [{ BatchedSequence.create 0 0 with
      sequence := [(warmed times n).assignTokens (warmBatch n 0) (warmSequence n 0 0),
        (warmed times n).assignTokens (warmBatch n 0) (warmSequence n 0 1)] }] } = _
    rw [hassign, hassign]
    rfl
  have hsettle : ∀ id, settle ((warmSequence n 1 id).update 0)
      = some (warmSequence (n + 1) 0 id) := by
    intro id
    have hupdate : (warmSequence n 1 id).update 0 = warmSequence (n + 1) 0 id := by
      simp [Sequence.update, Sequence.advance, Sequence.addTime, warmSequence]
      omega
    have hfinished : ¬(warmSequence (n + 1) 0 id).Finished := by
      change ¬(((n + 1 : ℕ) : ℤ) + 2 = 20001)
      omega
    have hinput : ¬(((n + 1 : ℕ) : ℤ) + 2 = 2) := by omega
    unfold settle
    rw [hupdate, if_neg hfinished]
    exact if_neg hinput
  have hd : (warmed times n).setMetadata.DistinctIds := by
    rw [hset]
    intro b hb
    obtain rfl := List.mem_singleton.mp hb
    change [0, 1].Nodup
    decide
  have hserve : (serve (fun _ => true) (fun t => t.update 0) (warmBatch n 1)).1
      = warmBatch (n + 1) 0 := by
    simp [serve, warmBatch, hsettle]
  rw [updateScheduler_eq hd, hset, serveAll]
  simp only [List.map_cons, List.map_nil, hserve]
  rfl

theorem warmed_hitting (hn : n + 3 < 20001) :
    (warmed times n).hitting [] = .ok (warmed times (n + 1)) := by
  have hnone : (warmed times (n + 1)).numRequestToInject 0 0 = 0 := by
    have hsame : (warmed times (n + 1)).numRequestToInject 0 0
        = (warmed [] 0).numRequestToInject 0 0 := rfl
    rw [hsame]
    decide +kernel
  rw [hitting, warmed_update times hn, fillSequenceQueue, hnone]
  rfl

theorem warmed_hittingQueue {k : ℕ} (hn : n + k + 3 < 20001) :
    (warmed times n).hittingQueue (List.replicate k []) = .ok (warmed times (n + k)) := by
  induction k generalizing n with
  | zero => rfl
  | succ k ih =>
    rw [List.replicate_succ, hittingQueue, warmed_hitting times (by omega)]
    have hrest := ih (n := n + 1) (by omega)
    rwa [add_right_comm, add_assoc] at hrest

/-- The first hit is that of the prefill. -/
theorem warmed_warmUp {times : List ℚ} (hn : n + 3 < 20001) (hfirst : (do
      let s ← (longMachines.getActualArrivalTime times).fillSequenceQueue 0 0 []
      let s ← s.fillRunningQueue.hitting []
      .ok (decide (s = warmed times 0))) = .ok true) :
    warmUp (longMachines.getActualArrivalTime times) [] ([] :: List.replicate n [])
      = .ok (warmed times n) := by
  obtain ⟨s, hs, hfirst⟩ := Runs.bind_eq_ok hfirst
  obtain ⟨s', hs', hfirst⟩ := Runs.bind_eq_ok hfirst
  obtain rfl := of_decide_eq_true (Except.ok.inj hfirst)
  have hrest := warmed_hittingQueue times (n := 0) (k := n) (by omega)
  rw [Nat.zero_add] at hrest
  rw [warmUp, hs]
  change s.fillRunningQueue.hitting [] >>= _ = _
  rw [hs']
  exact hrest

theorem warmed_starts {times : List ℚ} (hfirst : (do
      let s ← (longMachines.getActualArrivalTime times).fillSequenceQueue 0 0 []
      let s ← s.fillRunningQueue.hitting []
      .ok (decide (s = warmed times 0))) = .ok true) :
    Starts longMachines { scheduler := warmed times 9999 } := by
  refine ⟨times, [], [] :: List.replicate 9999 [], ?_, warmed_warmUp (by omega) hfirst, rfl, rfl⟩
  rw [List.length_cons, List.length_replicate]

end Warmed

/-- One device with one decoder. -/
def oneDevice : LlmDevice where
  config := { maxSeqLen := 32768, inputLen := 2, outputLen := 20000, expertFreq := 0 }
  moe := { numNode := 1, numDevice := 1, neTpDg := 1, eTpDg := 1, numRoutedExpert := 0 }
  rank := 0

/-- A time that grows with the tokens of the batches, which the embedding and the head read. -/
def perToken (v : List (List Reading)) : ℚ :=
  3 + (v.flatten.map fun | .tokens n => (n : ℚ) / 4 | _ => 0).sum

/-- The iterations of the disaggregated loop on such a device. -/
def pace (F : Forest LayerCall) (s : LoopState) (i : IterInput) : Except String LoopState :=
  if i.deviceTime = perToken (views F false s.scheduler) ∧ 0 < i.deviceTime then iterate true s i
  else .error "another time"

theorem pace_iterates {F : Forest LayerCall} {s t : LoopState} {i : IterInput}
    (h : pace F s i = .ok t) :
    Iterates true s i t ∧ i.deviceTime = perToken (views F false s.scheduler) := by
  unfold pace at h
  split_ifs at h with htime
  exact ⟨⟨h, fun _ => htime.2⟩, htime.1⟩

/-- Without rotary embeddings and experts, decode sequences of the same lengths make no difference
if the same ones are due. -/
theorem undisturbed_of_outline {c : LayerConfig} {compressedKv : Bool} {s₁ s₂ : Scheduler}
    (hrope : c.qkRopeHeadDim = 0)
    (hexperts : (LLM.decoders c.toLlmConfig).any (·.hasExperts) = false)
    (hsame : s₁.runningQueue.map s₁.outline = s₂.runningQueue.map s₂.outline) :
    Undisturbed c compressedKv s₁ s₂ := by
  right
  refine (map_eq_map_iff.mp hsame).imp fun b₁ b₂ houtline => ⟨.inr houtline, ?_, ?_, ?_⟩
  · exact fun h => absurd hrope h
  · exact fun h => absurd hrope h
  · intro h
    rw [hexperts] at h
    cases h

/-- The decoding of a first request becomes due at 9 in one run and at 10 in the other, both times
before a second one prefills. -/
theorem prefill_time_alone_both_due : ∃ F, LLM.build oneDevice ⟨[], "input"⟩ = .ok F ∧
    ∃ s₁ s₂ : LoopState, SamePrefill s₁.scheduler s₂.scheduler ∧
      s₁.scheduler.runningQueue ≠ s₂.scheduler.runningQueue ∧
      ∀ time, addedTime time F false s₁.scheduler = addedTime time F false s₂.scheduler := by
  have hall : (do
      let F ← LLM.build oneDevice ⟨[], "input"⟩
      let s₁ ← [4, 5, 4, 4].foldlM (fun s time => iterate true s { deviceTime := time })
        { scheduler := warmed [3, 11] 9999 }
      let s₂ ← [4, 6, 4, 4].foldlM (fun s time => iterate true s { deviceTime := time })
        { scheduler := warmed [3, 11] 9999 }
      .ok (decide (s₁.scheduler.hasSumSeq = true ∧
        SamePrefill s₁.scheduler s₂.scheduler ∧
        s₁.scheduler.runningQueue ≠ s₂.scheduler.runningQueue ∧
        s₁.scheduler.runningQueue.map s₁.scheduler.outline
          = s₂.scheduler.runningQueue.map s₂.scheduler.outline))) = .ok true := by decide +kernel
  obtain ⟨F, hF, hall⟩ := Runs.bind_eq_ok hall
  obtain ⟨s₁, h₁, hall⟩ := Runs.bind_eq_ok hall
  obtain ⟨s₂, h₂, hall⟩ := Runs.bind_eq_ok hall
  obtain ⟨hsum, hsame, hne, houtline⟩ := of_decide_eq_true (Except.ok.inj hall)
  have hstart : Starts longMachines { scheduler := warmed [3, 11] 9999 } :=
    warmed_starts (by decide +kernel)
  obtain ⟨times, draws, hits, -, hwarm⟩ := hstart
  have hreach : ∀ {ts : List ℚ} {s : LoopState}, (∀ t ∈ ts, 0 < t) →
      ts.foldlM (fun s time => iterate true s { deviceTime := time })
        { scheduler := warmed [3, 11] 9999 } = .ok s →
      Runs.Reachable (Warm longMachines) (Iterates true) s := by
    intro ts s hpos hrun
    refine ⟨_, ts.map fun time => { deviceTime := time }, ⟨times, draws, hits, hwarm⟩, ?_⟩
    generalize ({ scheduler := warmed [3, 11] 9999 } : LoopState) = s₀ at hrun
    induction ts generalizing s₀ with
    | nil =>
      obtain rfl := Except.ok.inj hrun
      exact .nil _
    | cons t ts ih =>
      obtain ⟨ht, hts⟩ := List.forall_mem_cons.mp hpos
      rw [List.foldlM_cons] at hrun
      obtain ⟨s', hs', hrun⟩ := Runs.bind_eq_ok hrun
      exact .cons ⟨hs', fun _ => ht⟩ (ih hts s' hrun)
  have halone := prefill_time_alone _ _ _ 4 64 64 0 0 rfl (by decide) (by decide) rfl hF false
    (hreach (by decide) h₁) (hreach (by decide) h₂) hsum hsame
  exact ⟨F, hF, s₁, s₂, hsame, hne,
    halone.2.mpr (undisturbed_of_outline rfl (by decide) houtline)⟩

/-- Two requests arrive; the first is admitted one iteration later in the second run, where its
decoding is not due yet when the second request prefills. -/
theorem prefill_disturbed : ∃ F, LLM.build oneDevice ⟨[], "input"⟩ = .ok F ∧
    ∃ s₁ s₂ : LoopState,
      Runs.Reachable (Starts longMachines) (fun s i t => Iterates true s i t ∧
        i.deviceTime = perToken (views F false s.scheduler)) s₁ ∧
      Runs.Reachable (Starts longMachines) (fun s i t => Iterates true s i t ∧
        i.deviceTime = perToken (views F false s.scheduler)) s₂ ∧
      s₁.scheduler.hasSumSeq = true ∧ SamePrefill s₁.scheduler s₂.scheduler ∧
      addedTime perToken F false s₁.scheduler = 11 / 2 ∧
      addedTime perToken F false s₂.scheduler = 5 := by
  have hall : (do
      let F ← LLM.build oneDevice ⟨[], "input"⟩
      let s₁ ← [4, 5, 4, 4].foldlM (fun s time => pace F s { deviceTime := time })
        { scheduler := warmed [3, 11] 9999 }
      let s₂ ← [4, 4, 5, 4].foldlM (fun s time => pace F s { deviceTime := time })
        { scheduler := warmed [7, 11] 9999 }
      .ok (decide (s₁.scheduler.hasSumSeq = true ∧ SamePrefill s₁.scheduler s₂.scheduler ∧
        addedTime perToken F false s₁.scheduler = 11 / 2 ∧
        addedTime perToken F false s₂.scheduler = 5))) = .ok true := by decide +kernel
  obtain ⟨F, hF, hall⟩ := Runs.bind_eq_ok hall
  obtain ⟨s₁, h₁, hall⟩ := Runs.bind_eq_ok hall
  obtain ⟨s₂, h₂, hall⟩ := Runs.bind_eq_ok hall
  have hreach : ∀ {s₀ : LoopState} {times : List ℚ} {s : LoopState}, Starts longMachines s₀ →
      times.foldlM (fun s time => pace F s { deviceTime := time }) s₀ = .ok s →
      Runs.Reachable (Starts longMachines) (fun s i t => Iterates true s i t ∧
        i.deviceTime = perToken (views F false s.scheduler)) s := by
    intro s₀ times s hstart hrun
    refine ⟨s₀, times.map fun time => { deviceTime := time }, hstart, ?_⟩
    rw [← List.foldlM_map (f := fun time : ℚ => ({ deviceTime := time } : IterInput))] at hrun
    exact (Runs.Run.of_foldlM hrun).mono fun _ _ _ => pace_iterates
  exact ⟨F, hF, s₁, s₂, hreach (warmed_starts (by decide +kernel)) h₁,
    hreach (warmed_starts (by decide +kernel)) h₂, of_decide_eq_true (Except.ok.inj hall)⟩

end Cluster
end LlmSystem
