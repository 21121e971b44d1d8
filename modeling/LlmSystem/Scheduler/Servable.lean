import LlmSystem.Scheduler.OnTrack

/-! Which running sequences `setMetadata` gives tokens to. -/
namespace LlmSystem

open Scheduler

namespace Scheduler

/-- The test of `gen_start_time` in `setMetadata`. -/
def GateOpen (s : Scheduler) (t : Sequence) : Prop :=
  t.genStartTime = 0 ∨ t.genStartTime ≤ s.totalTime

instance (s : Scheduler) (t : Sequence) : Decidable (s.GateOpen t) :=
  inferInstanceAs (Decidable (_ ∨ _))

/-- `setMetadata` can give the sequence a token: its share of `max_process_token` is at
least one, or it generates and its start time has come. -/
def Servable (s : Scheduler) (b : BatchedSequence) (t : Sequence) : Prop :=
  (t.InSum ∧ 1 ≤ s.maxProcessToken.tdiv b.getSum.length) ∨
    (¬t.InSum ∧ s.processGen = true ∧ s.GateOpen t)

def CanServe (s : Scheduler) : Prop :=
  ∃ b ∈ s.runningQueue, ∃ t ∈ b.sequence, s.Servable b t

/-- The tokens a sequence can hold between iterations: none, or one of a generating
sequence that the sum machine left alone. -/
def Held (s : Scheduler) (t : Sequence) : Prop :=
  t.numProcessToken = 0 ∨
    (0 < t.numProcessToken ∧ ¬t.InSum ∧ s.systemConfig.disaggSystem = true ∧ s.GateOpen t)

/-- The scheduler without the token assignment of its running sequences. -/
def forgetTokens (s : Scheduler) : Scheduler :=
  s.mapRunning fun _ t => { t with numProcessToken := 0 }

theorem hasSumSeq_of_inSum {s : Scheduler} {b : BatchedSequence} {t : Sequence}
    (hb : b ∈ s.runningQueue) (ht : t ∈ b.sequence) (hsum : t.InSum) : s.hasSumSeq = true := by
  refine List.any_eq_true.mpr ⟨b, hb, ?_⟩
  have hmem : t ∈ b.getSum := mem_getSum.mpr ⟨ht, hsum⟩
  simp [List.ne_nil_of_mem hmem]

theorem getSum_pos {b : BatchedSequence} {t : Sequence} (ht : t ∈ b.sequence) (hsum : t.InSum) :
    0 < (b.getSum.length : ℤ) := by
  exact_mod_cast List.length_pos_of_mem (mem_getSum.mpr ⟨ht, hsum⟩)

/-- What `setMetadata` assigns to a held sequence: tokens exactly if it is servable. -/
theorem assigned_tokens {s : Scheduler} {b : BatchedSequence} {t : Sequence}
    (hmax : 0 ≤ s.maxProcessToken) (hb : b ∈ s.runningQueue) (ht : t ∈ b.sequence)
    (hheld : s.Held t) :
    0 ≤ (s.assignTokens b t).numProcessToken ∧
      ((s.assignTokens b t).numProcessToken ≠ 0 ↔ s.Servable b t) := by
  by_cases hsum : t.InSum
  · have hprocess : s.processSum = true := by
      simp [processSum, hasSumSeq_of_inSum hb ht hsum]
    have hassign : (s.assignTokens b t).numProcessToken
        = min (s.maxProcessToken.tdiv b.getSum.length) (t.inputLen - t.currentLen) := by
      unfold assignTokens
      rw [if_pos hsum, if_pos hprocess]
      rfl
    have hshare := Int.tdiv_nonneg hmax (getSum_pos ht hsum).le
    have hleft : t.currentLen < t.inputLen := hsum
    have hserv : s.Servable b t ↔ 1 ≤ s.maxProcessToken.tdiv b.getSum.length := by
      simp [Servable, hsum]
    rw [hassign, hserv]
    constructor
    · omega
    · omega
  · have hserv : s.Servable b t ↔ s.processGen = true ∧ s.GateOpen t := by
      simp [Servable, hsum]
    unfold assignTokens
    rw [if_neg hsum, hserv]
    by_cases hgen : s.processGen = true
    · rw [if_pos hgen]
      by_cases hopen : s.GateOpen t
      · have hone : (setGenToken s.totalTime t).numProcessToken = 1 := by
          unfold setGenToken
          rcases hopen with hzero | hle
          · rw [if_pos hzero]
          · rw [if_pos hle, ite_self]
        rw [hone]
        exact ⟨by omega, by simp [hgen, hopen]⟩
      · have hzero : t.numProcessToken = 0 := hheld.resolve_right fun h => hopen h.2.2.2
        have hkeep : setGenToken s.totalTime t = t := by
          unfold setGenToken
          rw [if_neg fun h => hopen (.inl h), if_neg fun h => hopen (.inr h)]
        rw [hkeep, hzero]
        exact ⟨le_refl 0, by simp [hopen]⟩
    · have hzero : t.numProcessToken = 0 := hheld.resolve_right fun h =>
        hgen (by simp [processGen, h.2.2.1])
      rw [if_neg hgen, hzero]
      exact ⟨le_refl 0, by simp [hgen]⟩

/-- Tokens are assigned exactly if some sequence is servable. -/
theorem getNumProcessToken_setMetadata {s : Scheduler} (hmax : 0 ≤ s.maxProcessToken)
    (hheld : ∀ b ∈ s.runningQueue, ∀ t ∈ b.sequence, s.Held t) :
    s.setMetadata.getNumProcessToken ≠ 0 ↔ s.CanServe := by
  have htokens : s.setMetadata.getNumProcessToken = (s.runningQueue.map fun b =>
      (b.sequence.map fun t => (s.assignTokens b t).numProcessToken).sum).sum := by
    rw [setMetadata_eq]
    simp only [getNumProcessToken, mapRunning, List.map_map]
    refine congrArg List.sum (List.map_congr_left fun b _ => ?_)
    simp [BatchedSequence.getProcessToken, BatchedSequence.modify, Function.comp_def]
  have hbatch : ∀ b ∈ s.runningQueue,
      0 ≤ (b.sequence.map fun t => (s.assignTokens b t).numProcessToken).sum := by
    intro b hb
    apply List.sum_nonneg
    intro n hn
    obtain ⟨t, ht, rfl⟩ := List.mem_map.mp hn
    exact (assigned_tokens hmax hb ht (hheld b hb t ht)).1
  rw [htokens, Ne, Residues.sum_map_eq_zero_iff hbatch]
  unfold CanServe
  push Not
  refine exists_congr fun b => and_congr_right fun hb => ?_
  rw [Ne, Residues.sum_map_eq_zero_iff fun t ht =>
    (assigned_tokens hmax hb ht (hheld b hb t ht)).1]
  push Not
  exact exists_congr fun t => and_congr_right fun ht =>
    (assigned_tokens hmax hb ht (hheld b hb t ht)).2

/-- No batch prefills, or the prefill budget gives the sequences of some batch a token each. -/
def PrefillFits (s : Scheduler) : Prop :=
  s.hasSumSeq = false ∨
    ∃ b ∈ s.runningQueue, b.getSum ≠ [] ∧ (b.getSum.length : ℤ) ≤ s.maxProcessToken

instance (s : Scheduler) : Decidable s.PrefillFits := inferInstanceAs (Decidable (_ ∨ _))

theorem settle_genStartTime {t t' : Sequence} (h : settle t = some t') :
    t'.genStartTime = t.genStartTime := by
  unfold settle at h
  split_ifs at h <;> (obtain rfl := Option.some.inj h; rfl)

theorem one_le_share_iff {max n : ℤ} (hmax : 0 ≤ max) (hn : 0 < n) : 1 ≤ max.tdiv n ↔ n ≤ max := by
  rw [Int.tdiv_eq_ediv_of_nonneg hmax, Int.le_ediv_iff_mul_le hn, one_mul]

/-- In a system that is not disaggregated, with all gates open. -/
theorem canServe_iff {s : Scheduler} (hmax : 0 ≤ s.maxProcessToken)
    (hmixed : s.systemConfig.disaggSystem = false)
    (hgates : ∀ b ∈ s.runningQueue, ∀ t ∈ b.sequence, s.GateOpen t)
    (hrun : ∃ b ∈ s.runningQueue, b.sequence ≠ []) : s.CanServe ↔ s.PrefillFits := by
  have hgen : s.processGen = true ↔ s.hasSumSeq = false := by simp [processGen, hmixed]
  constructor
  · rintro ⟨b, hb, t, ht, ⟨hsum, hshare⟩ | ⟨-, hprocess, -⟩⟩
    · right
      refine ⟨b, hb, List.ne_nil_of_mem (mem_getSum.mpr ⟨ht, hsum⟩), ?_⟩
      exact (one_le_share_iff hmax (getSum_pos ht hsum)).mp hshare
    · exact .inl (hgen.mp hprocess)
  · rintro (hnone | ⟨b, hb, hne, hle⟩)
    · obtain ⟨b, hb, hne⟩ := hrun
      obtain ⟨t, ht⟩ := List.exists_mem_of_ne_nil _ hne
      refine ⟨b, hb, t, ht, .inr ⟨?_, hgen.mpr hnone, hgates b hb t ht⟩⟩
      intro hsum
      simp [hasSumSeq_of_inSum hb ht hsum] at hnone
    · obtain ⟨t, ht⟩ := List.exists_mem_of_ne_nil _ hne
      obtain ⟨ht, hsum⟩ := mem_getSum.mp ht
      exact ⟨b, hb, t, ht, .inl ⟨hsum, (one_le_share_iff hmax (getSum_pos ht hsum)).mpr hle⟩⟩

theorem forgetTokens_setMetadata (s : Scheduler) :
    s.setMetadata.forgetTokens = s.forgetTokens := by
  rw [setMetadata_eq]
  unfold forgetTokens mapRunning
  simp only [List.map_map]
  congr 1
  apply List.map_congr_left
  intro b _
  simp only [Function.comp_def, BatchedSequence.modify, List.map_map]
  congr 1
  apply List.map_congr_left
  intro t _
  obtain ⟨n, hn⟩ := s.assignTokens_eq b t
  rw [hn]

theorem getSum_length_forget (b : BatchedSequence) :
    (b.modify fun t => { t with numProcessToken := 0 }).getSum.length = b.getSum.length := by
  simp only [BatchedSequence.getSum, BatchedSequence.modify, List.filter_map, List.length_map]
  rfl

theorem hasSumSeq_forgetTokens (s : Scheduler) : s.forgetTokens.hasSumSeq = s.hasSumSeq := by
  simp only [hasSumSeq, forgetTokens, mapRunning, List.any_map, Function.comp_def,
    getSum_length_forget]

theorem hasSumSeq_setMetadata (s : Scheduler) : s.setMetadata.hasSumSeq = s.hasSumSeq := by
  rw [← hasSumSeq_forgetTokens, forgetTokens_setMetadata, hasSumSeq_forgetTokens]

theorem canServe_forgetTokens (s : Scheduler) : s.forgetTokens.CanServe ↔ s.CanServe := by
  have hlen := getSum_length_forget
  have hsum := hasSumSeq_forgetTokens s
  unfold CanServe
  constructor
  · rintro ⟨b', hb', t', ht', hserv⟩
    obtain ⟨b, hb, rfl⟩ := List.mem_map.mp hb'
    obtain ⟨t, ht, rfl⟩ := List.mem_map.mp ht'
    refine ⟨b, hb, t, ht, ?_⟩
    unfold Servable processGen at hserv ⊢
    rw [hlen, hsum] at hserv
    exact hserv
  · rintro ⟨b, hb, t, ht, hserv⟩
    refine ⟨_, List.mem_map_of_mem hb, _, List.mem_map_of_mem ht, ?_⟩
    unfold Servable processGen at hserv ⊢
    rw [hlen, hsum]
    exact hserv

/-- No generating sequence is held back by its start time. -/
def GatesOpen (s : Scheduler) : Prop := s.All s.GateOpen

theorem Started.genStartTime {c : SystemConfig} {m : ModelConfig} {trace : ExpertTrace}
    {t : Sequence} (h : Started c m trace t) : t.genStartTime = 0 := by
  cases h with
  | dummy id arrival =>
    unfold applyModes
    dsimp only
    split_ifs <;> rfl
  | real => rfl

theorem stampDelay_genStartTime (s : Scheduler) (t : Sequence) :
    (s.stampDelay t).genStartTime = t.genStartTime := by
  unfold stampDelay
  split_ifs <;> rfl

theorem assignTokens_genStartTime (s : Scheduler) (b : BatchedSequence) (t : Sequence) :
    (s.assignTokens b t).genStartTime = t.genStartTime := by
  obtain ⟨n, hn⟩ := s.assignTokens_eq b t
  rw [hn]

def Tokenless (s : Scheduler) : Prop := s.All fun t => t.numProcessToken = 0

theorem Started.tokenless {c : SystemConfig} {m : ModelConfig} {trace : ExpertTrace} {t : Sequence}
    (ht : Started c m trace t) : t.numProcessToken = 0 := by
  cases ht with
  | dummy id arrival => exact (applyModes_lengths c m.inputLen (dummySeq m id arrival) rfl).2.1
  | real => rfl

theorem Tokenless.fillSequenceQueue {s s' : Scheduler} {iterTime totalTime : ℚ} {draws : List ℕ}
    (hs : s.Tokenless) (hok : s.fillSequenceQueue iterTime totalTime draws = .ok s') :
    s'.Tokenless := all_fillSequenceQueue hs (fun _ ht => ht.tokenless) hok

theorem Tokenless.fillRunningQueue {s : Scheduler} (hs : s.Tokenless) :
    s.fillRunningQueue.Tokenless := by
  apply all_fillRunningQueue hs
  intro t ht
  unfold stampDelay
  split_ifs <;> exact ht

theorem Tokenless.setGenStart {s : Scheduler} (hs : s.Tokenless) (tokens : List Sequence)
    (time : ℚ) : (s.setGenStart tokens time).Tokenless := by
  apply all_mapRunning hs
  intro _ t ht
  split_ifs <;> exact ht

/-- A full update leaves no assigned token. -/
theorem tokenless_updateScheduler {s : Scheduler} (hd : s.DistinctIds)
    (hwait : ∀ t ∈ s.sequenceQueue, t.numProcessToken = 0) (time : ℚ) :
    (s.updateScheduler time).1.Tokenless := by
  rw [updateScheduler_eq hd]
  refine ⟨hwait, fun b' hb' t ht => ?_⟩
  obtain ⟨b, hb, rfl⟩ := List.mem_map.mp hb'
  obtain ⟨t₀, ht₀, ⟨-, hkeep⟩ | ⟨hp, -⟩⟩ := mem_serve ht
  · rw [(settle_lengths hkeep).2.2.2, Sequence.update_numProcessToken]
  · exact absurd hp (by simp)

end Scheduler

end LlmSystem
