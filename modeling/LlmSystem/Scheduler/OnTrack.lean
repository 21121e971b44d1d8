import LlmSystem.Scheduler.Places

/-!
The lengths of one sequence: where a push starts it, and what an admission, an assignment
of tokens and an update do to them.
-/
namespace LlmSystem

open Scheduler

/-- The synthetic sequences start at the end of their input: `decode_mode` sets
`current_len` there, and so can the reuse of a KV cache. -/
def StartsAtInput (c : SystemConfig) (m : ModelConfig) : Prop :=
  (c.prefillMode = false ∧ c.decodeMode = true) ∨
    (c.reuseKvCache = true ∧ reuseLen c m.inputLen = m.inputLen)

/-- They start there and nothing is left to generate. -/
def StartsComplete (c : SystemConfig) (m : ModelConfig) : Prop :=
  StartsAtInput c m ∧ (c.prefillMode = true ∨ m.outputLen = 1)

instance (c : SystemConfig) (m : ModelConfig) : Decidable (StartsAtInput c m) :=
  inferInstanceAs (Decidable (_ ∨ _))

instance (c : SystemConfig) (m : ModelConfig) : Decidable (StartsComplete c m) :=
  inferInstanceAs (Decidable (_ ∧ _))

/-- The configurations under which no sequence overshoots. -/
structure LeavesRoom (s : Scheduler) : Prop where
  incomplete : s.trace.realData = false →
    ¬StartsComplete s.systemConfig (clampOutputLen s.modelConfig)
  stage : 0 ≤ s.maxProcessToken ∨
    (s.trace.realData = false ∧ StartsAtInput s.systemConfig (clampOutputLen s.modelConfig))

/-- A `kv_cache_reuse_rate` in `[0, 1]` and lengths that an `int` can hold. -/
structure InRange (s : Scheduler) : Prop where
  rate_nonneg : 0 ≤ s.systemConfig.kvCacheReuseRate
  rate_le : s.systemConfig.kvCacheReuseRate ≤ 1
  maxSeqLen_lt : s.modelConfig.maxSeqLen < 2 ^ 31

/-- A sequence with tokens left, whose assigned tokens do not pass its end. -/
structure OnTrack (maxProcess : ℤ) (t : Sequence) : Prop where
  current_nonneg : 0 ≤ t.currentLen
  token_nonneg : 0 ≤ t.numProcessToken
  bounded : t.currentLen + t.numProcessToken ≤ t.totalLen
  unfinished : t.currentLen < t.totalLen
  input_le : t.inputLen ≤ t.totalLen
  stage : 0 ≤ maxProcess ∨ t.inputLen ≤ t.currentLen

namespace OnTrack
variable {maxProcess : ℤ} {t t' : Sequence}

/-- Only the lengths matter. -/
theorem congr (h : OnTrack maxProcess t) (hin : t'.inputLen = t.inputLen)
    (htot : t'.totalLen = t.totalLen) (hcur : t'.currentLen = t.currentLen)
    (htok : t'.numProcessToken = t.numProcessToken) : OnTrack maxProcess t' := by
  obtain ⟨h₁, h₂, h₃, h₄, h₅, h₆⟩ := h
  constructor <;> simp only [hin, htot, hcur, htok] <;> assumption

theorem stampDelay (h : OnTrack maxProcess t) (s : Scheduler) :
    OnTrack maxProcess (s.stampDelay t) := by
  unfold Scheduler.stampDelay
  split_ifs
  · exact h.congr rfl rfl rfl rfl
  · exact h

/-- The prefill chunk stops at the input, a generated token at the end. -/
theorem assignTokens {s : Scheduler} (h : OnTrack s.maxProcessToken t) (b : BatchedSequence) :
    OnTrack s.maxProcessToken (s.assignTokens b t) := by
  obtain ⟨hcur, htok, hbound, hlt, hin, hstage⟩ := h
  have hone : OnTrack s.maxProcessToken { t with numProcessToken := 1 } :=
    ⟨hcur, Int.one_nonneg, hlt, hlt, hin, hstage⟩
  unfold Scheduler.assignTokens
  split_ifs with hsum hprocess hgen
  · have hsum : t.currentLen < t.inputLen := hsum
    have hmax : 0 ≤ s.maxProcessToken := hstage.resolve_right (not_le.mpr hsum)
    have hchunk : 0 ≤ s.maxProcessToken.tdiv b.getSum.length :=
      Int.tdiv_nonneg hmax (Int.natCast_nonneg _)
    have hmin := min_le_right (s.maxProcessToken.tdiv b.getSum.length) (t.inputLen - t.currentLen)
    refine ⟨hcur, le_min hchunk (by omega), ?_, hlt, hin, hstage⟩
    change t.currentLen + min _ _ ≤ t.totalLen
    omega
  · exact ⟨hcur, htok, hbound, hlt, hin, hstage⟩
  · unfold setGenToken
    split_ifs
    · exact hone
    · exact hone
    · exact ⟨hcur, htok, hbound, hlt, hin, hstage⟩
  · exact ⟨hcur, htok, hbound, hlt, hin, hstage⟩

/-- What an update leaves in the batch is again on its way. -/
theorem settle (h : OnTrack maxProcess t) {u : Sequence} (hcur : u.currentLen
    = t.currentLen + t.numProcessToken) (htok : u.numProcessToken = 0)
    (htot : u.totalLen = t.totalLen) (hin : u.inputLen = t.inputLen)
    (hkeep : settle u = some t') : OnTrack maxProcess t' := by
  have hne := settle_unfinished hkeep
  obtain ⟨hc, ht, hi, hn⟩ := settle_lengths hkeep
  rw [hcur] at hc
  rw [htot] at ht
  rw [hin] at hi
  rw [htok] at hn
  have h₁ := h.current_nonneg
  have h₂ := h.token_nonneg
  have h₃ := h.bounded
  have h₅ := h.input_le
  refine ⟨by omega, by omega, by omega, by omega, by omega, ?_⟩
  exact h.stage.imp_right fun hle => by omega

end OnTrack

/-- `P` of every waiting and every running sequence. -/
def Scheduler.All (P : Sequence → Prop) (s : Scheduler) : Prop :=
  (∀ t ∈ s.sequenceQueue, P t) ∧ ∀ b ∈ s.runningQueue, ∀ t ∈ b.sequence, P t

theorem all_push {P : Sequence → Prop} {m : ModelConfig} {s s' : Scheduler}
    {new : List Sequence} (hs : s.All P) (hpush : Pushes P { s with modelConfig := m } s' new) :
    s'.All P := by
  rw [hpush.frame]
  refine ⟨fun t ht => ?_, hs.2⟩
  rcases List.mem_append.mp ht with ht | ht
  · exact hs.1 t ht
  · exact hpush.all t ht

theorem all_fill {P : Sequence → Prop} {s s' : Scheduler} {k : ℕ} (hs : s.All P)
    (hP : ∀ t, P t → P (s.stampDelay t)) (hfill : Admits s s' k) : s'.All P := by
  refine ⟨fun t ht => ?_, fun b' hb' t ht => ?_⟩
  · rw [hfill.frame] at ht
    exact hs.1 t (List.mem_of_mem_drop ht)
  · obtain ⟨i, hi, rfl⟩ := List.mem_iff_getElem.mp hb'
    have hi' : i < s.runningQueue.length := hfill.grow.length_eq ▸ hi
    obtain ⟨new, heq, hnew⟩ := (List.forall₂_iff_get.mp hfill.grow).2 i hi' hi
    simp only [List.get_eq_getElem] at heq
    rw [heq] at ht
    rcases List.mem_append.mp ht with ht | ht
    · exact hs.2 _ (List.getElem_mem hi') t ht
    · obtain ⟨t₀, ht₀, rfl⟩ := List.mem_map.mp (hnew.subset ht)
      exact hP t₀ (hs.1 t₀ (List.mem_of_mem_take ht₀))

theorem all_mapRunning {P : Sequence → Prop} {s : Scheduler}
    {f : BatchedSequence → Sequence → Sequence} (hs : s.All P) (hf : ∀ b t, P t → P (f b t)) :
    (s.mapRunning f).All P := by
  refine ⟨hs.1, fun b' hb' t ht => ?_⟩
  obtain ⟨b, hb, rfl⟩ := List.mem_map.mp hb'
  obtain ⟨t₀, ht₀, rfl⟩ := List.mem_map.mp ht
  exact hf b t₀ (hs.2 b hb t₀ ht₀)

theorem mem_serve {p : Sequence → Bool} {f : Sequence → Sequence} {b : BatchedSequence}
    {t : Sequence} (ht : t ∈ (serve p f b).1.sequence) :
    ∃ t₀ ∈ b.sequence, (p t₀ = true ∧ settle (f t₀) = some t) ∨ (p t₀ = false ∧ t = t₀) := by
  obtain ⟨t₀, ht₀, heq⟩ := List.mem_filterMap.mp ht
  cases hp : p t₀ with
  | true => exact ⟨t₀, ht₀, .inl ⟨hp, by simpa [hp] using heq⟩⟩
  | false => exact ⟨t₀, ht₀, .inr ⟨hp, by simpa [hp, eq_comm] using heq⟩⟩

theorem all_serveAll {P : Sequence → Prop} {s : Scheduler} {p : Sequence → Bool}
    {f : Sequence → Sequence} (hs : s.All P) (hf : ∀ t t', P t → settle (f t) = some t' → P t') :
    (serveAll p f s).1.All P := by
  refine ⟨hs.1, fun b' hb' t ht => ?_⟩
  obtain ⟨b, hb, rfl⟩ := List.mem_map.mp hb'
  obtain ⟨t₀, ht₀, ⟨-, hkeep⟩ | ⟨-, rfl⟩⟩ := mem_serve ht
  · exact hf t₀ t (hs.2 b hb t₀ ht₀) hkeep
  · exact hs.2 b hb t ht₀

theorem all_fillSequenceQueue {P : Sequence → Prop} {s s' : Scheduler} {iterTime totalTime : ℚ}
    {draws : List ℕ} (hs : s.All P)
    (hstart : ∀ t, Started s.systemConfig s.pushModel s.trace t → P t)
    (hok : s.fillSequenceQueue iterTime totalTime draws = .ok s') : s'.All P := by
  obtain ⟨new, hnew⟩ := pushSeq_pushes hok
  exact all_push hs ⟨hnew.frame, hnew.ids, fun t ht => hstart t (hnew.all t ht)⟩

theorem all_fillRunningQueue {P : Sequence → Prop} {s : Scheduler} (hs : s.All P)
    (hP : ∀ t, P t → P (s.stampDelay t)) : s.fillRunningQueue.All P := by
  obtain ⟨k, hk⟩ := s.fillRunningQueue_moves
  exact all_fill hs hP hk

theorem all_updateScheduler {P : Sequence → Prop} {s : Scheduler} (hd : s.DistinctIds)
    (hs : s.All P) {time : ℚ}
    (hP : ∀ t t', P t → settle (t.update time) = some t' → P t') :
    (s.updateScheduler time).1.All P := by
  rw [updateScheduler_eq hd]
  exact all_serveAll hs hP

theorem all_create (P : Sequence → Prop) (c : SystemConfig) (m : ModelConfig)
    (trace : ExpertTrace) (total maxBatched maxProcess : ℤ) (rotate countId : ℕ) :
    (Scheduler.create c m trace total maxBatched maxProcess rotate countId).All P := by
  refine ⟨fun t ht => absurd ht List.not_mem_nil, fun b hb t ht => ?_⟩
  rw [List.eq_of_mem_replicate hb] at ht
  exact absurd ht List.not_mem_nil

/-- The lengths a write to a running sequence keeps. -/
theorem update_lengths {f : Sequence → Sequence} {time : ℚ} (t : Sequence)
    (hf : f t = t.update time ∨ ∃ now, f t = (t.update time).setGenStartTime now) :
    (f t).currentLen = t.currentLen + t.numProcessToken ∧ (f t).numProcessToken = 0 ∧
      (f t).totalLen = t.totalLen ∧ (f t).inputLen = t.inputLen ∧ (f t).id = t.id := by
  rcases hf with heq | ⟨now, heq⟩ <;> rw [heq]
  · simp
  · exact ⟨Sequence.update_currentLen t time, Sequence.update_numProcessToken t time,
      Sequence.update_totalLen t time, Sequence.update_inputLen t time,
      Sequence.update_id t time⟩

theorem settle_setGenStartTime (t : Sequence) (time : ℚ) :
    settle (t.setGenStartTime time) = (settle t).map (·.setGenStartTime time) := by
  have hfin : (t.setGenStartTime time).Finished ↔ t.Finished := Iff.rfl
  have hin : (t.setGenStartTime time).currentLen = (t.setGenStartTime time).inputLen ↔
      t.currentLen = t.inputLen := Iff.rfl
  simp only [settle, hfin, hin]
  split_ifs
  · simp
  · simp [Sequence.setRecord, Sequence.setGenStartTime]
  · simp

/-- What the calls that are not updates keep of the waiting and the running sequences. -/
theorem Effect.all_quiet {P : Sequence → Prop} {h h' : History} (heff : Effect h h')
    (hquiet : h'.returned = h.returned)
    (hstart : ∀ t, Started h.scheduler.systemConfig h.scheduler.pushModel h.scheduler.trace t →
      h.scheduler.countId ≤ t.id → P t)
    (hdelay : ∀ t delay, P t → P { t with queueingDelay := delay })
    (hgen : ∀ t time, P t → P (t.setGenStartTime time))
    (hassign : ∀ b t, P t → P (h.scheduler.assignTokens b t))
    (hs : h.scheduler.All P) : h'.scheduler.All P := by
  cases heff with
  | @push s' new hpush =>
    have hnew : Pushes P { h.scheduler with modelConfig := h.scheduler.pushModel } s' new := by
      refine ⟨hpush.frame, hpush.ids, fun t ht => hstart t (hpush.all t ht) ?_⟩
      have hid : t.id ∈ List.range' h.scheduler.countId new.length :=
        hpush.ids ▸ List.mem_map_of_mem ht
      exact (List.mem_range'_1.mp hid).1
    exact all_push hs hnew
  | fill hfill =>
    apply all_fill hs _ hfill
    intro t ht
    unfold stampDelay
    split_ifs
    · exact hdelay t _ ht
    · exact ht
  | clock => exact hs
  | assign => exact all_mapRunning hs hassign
  | stamp f hf =>
    apply all_mapRunning hs
    intro b t ht
    rcases hf t with heq | ⟨time, heq⟩ <;> rw [heq]
    · exact ht
    · exact hgen t time ht
  | update =>
    have hlen := congrArg List.length hquiet
    simp [History.update] at hlen

/-- What every call keeps of the waiting and the running sequences. -/
theorem Effect.all {P : Sequence → Prop} {h h' : History} (heff : Effect h h')
    (hstart : ∀ t, Started h.scheduler.systemConfig h.scheduler.pushModel h.scheduler.trace t →
      h.scheduler.countId ≤ t.id → P t)
    (hdelay : ∀ t delay, P t → P { t with queueingDelay := delay })
    (hgen : ∀ t time, P t → P (t.setGenStartTime time))
    (hassign : ∀ b t, P t → P (h.scheduler.assignTokens b t))
    (hkeep : ∀ t time t', P t → settle (t.update time) = some t' → P t')
    (hs : h.scheduler.All P) : h'.scheduler.All P := by
  have hquiet := heff.all_quiet (P := P)
  cases heff with
  | push => exact hquiet rfl hstart hdelay hgen hassign hs
  | fill => exact hquiet rfl hstart hdelay hgen hassign hs
  | clock => exact hquiet rfl hstart hdelay hgen hassign hs
  | assign => exact hquiet rfl hstart hdelay hgen hassign hs
  | stamp => exact hquiet rfl hstart hdelay hgen hassign hs
  | update p f time hf =>
    apply all_serveAll hs
    intro t t' ht hsettle
    rcases hf t with heq | ⟨now, heq⟩ <;> rw [heq] at hsettle
    · exact hkeep t time t' ht hsettle
    · rw [settle_setGenStartTime, Option.map_eq_some_iff] at hsettle
      obtain ⟨u, hu, rfl⟩ := hsettle
      exact hgen u now (hkeep t time u ht hu)

/-! ### Where sequences start -/

theorem reuseLen_bounds {c : SystemConfig} {n : ℤ} (h0 : 0 ≤ c.kvCacheReuseRate)
    (h1 : c.kvCacheReuseRate ≤ 1) (hn : 0 < n) (hn' : n < 2 ^ 31) :
    0 ≤ reuseLen c n ∧ reuseLen c n ≤ n :=
  Binary64.trunc_mul_bounds hn.le (hn'.trans (by norm_num)) h0 h1

/-- The lengths `applyModes` gives a fresh synthetic sequence. -/
theorem applyModes_lengths (c : SystemConfig) (n : ℤ) (t : Sequence) (h0 : t.currentLen = 0) :
    (applyModes c n t).inputLen = t.inputLen ∧
    (applyModes c n t).numProcessToken = t.numProcessToken ∧
    (applyModes c n t).totalLen = (if c.prefillMode then n else t.totalLen) ∧
    (applyModes c n t).currentLen = (if c.prefillMode = false ∧ c.decodeMode = true then n
      else if c.reuseKvCache then reuseLen c n else 0) := by
  unfold applyModes
  cases c.prefillMode <;> cases c.decodeMode <;> cases c.reuseKvCache <;> simp [h0]

theorem Scheduler.Started.input_le {c : SystemConfig} {m : ModelConfig} {trace : ExpertTrace}
    {t : Sequence} (ht : Started c m trace t) : t.inputLen ≤ t.totalLen := by
  cases ht with
  | dummy id arrival hreal hmax hin hout =>
    obtain ⟨hi, -, htot, -⟩ := applyModes_lengths c m.inputLen (dummySeq m id arrival) rfl
    rw [hi, htot]
    change m.inputLen ≤ if c.prefillMode then m.inputLen else m.inputLen + m.outputLen - 1
    split_ifs <;> omega
  | real id seqId info hreal hin hout =>
    change info.lin ≤ info.lin + info.lout - 1
    omega

/-- A synthetic sequence starts within its input, and at its end only as `StartsAtInput`
says. -/
theorem applyModes_currentLen {c : SystemConfig} {m : ModelConfig}
    (h0 : 0 ≤ c.kvCacheReuseRate) (h1 : c.kvCacheReuseRate ≤ 1) (hin : 0 < m.inputLen)
    (hin' : m.inputLen < 2 ^ 31) {t : Sequence} (ht : t.currentLen = 0) :
    0 ≤ (applyModes c m.inputLen t).currentLen ∧
    (applyModes c m.inputLen t).currentLen ≤ m.inputLen ∧
    ((applyModes c m.inputLen t).currentLen = m.inputLen ↔ StartsAtInput c m) := by
  have hreuse := reuseLen_bounds h0 h1 hin hin'
  rw [(applyModes_lengths c m.inputLen t ht).2.2.2]
  unfold StartsAtInput
  split_ifs with hdec hre
  · exact ⟨hin.le, le_refl _, by simp [hdec]⟩
  · exact ⟨hreuse.1, hreuse.2, by simp [hdec, hre]⟩
  · exact ⟨le_refl 0, hin.le, by simp [hdec, hre, hin.ne]⟩

theorem Scheduler.Started.onTrack {s : Scheduler} (hrange : InRange s) (hroom : LeavesRoom s)
    {t : Sequence} (ht : Started s.systemConfig s.pushModel s.trace t) :
    OnTrack s.maxProcessToken t := by
  cases ht with
  | dummy id arrival hreal hmax hin hout =>
    have hmodel : s.pushModel = clampOutputLen s.modelConfig := by simp [pushModel, hreal]
    have hmax' := (clampOutputLen_fst s.modelConfig).2
    have hlt := hrange.maxSeqLen_lt
    have hinc := hroom.incomplete hreal
    have hstage := hroom.stage
    rw [hmodel] at hmax hin hout ⊢
    set m := clampOutputLen s.modelConfig
    have hdummy : (dummySeq m id arrival).currentLen = 0 := rfl
    obtain ⟨hi, hn, htot, -⟩ := applyModes_lengths s.systemConfig m.inputLen _ hdummy
    obtain ⟨hnonneg, hle, hat⟩ := applyModes_currentLen hrange.rate_nonneg hrange.rate_le hin
      (by omega) hdummy
    set t := applyModes s.systemConfig m.inputLen (dummySeq m id arrival)
    have hi : t.inputLen = m.inputLen := hi
    have hn : t.numProcessToken = 0 := hn
    have htot : t.totalLen = if s.systemConfig.prefillMode then m.inputLen
      else m.inputLen + m.outputLen - 1 := htot
    have hend : m.inputLen ≤ t.totalLen := by
      rw [htot]
      split_ifs <;> omega
    have hunfinished : t.currentLen < t.totalLen := by
      rcases lt_or_eq_of_le hle with hlt | heq
      · exact hlt.trans_le hend
      · -- it starts at its input, so `LeavesRoom` leaves a token to generate
        have hstart := hat.mp heq
        have hprefill : ¬s.systemConfig.prefillMode = true := fun hp => hinc ⟨hstart, .inl hp⟩
        have hout' : m.outputLen ≠ 1 := fun ho => hinc ⟨hstart, .inr ho⟩
        rw [htot, heq, if_neg hprefill]
        omega
    refine ⟨hnonneg, hn.ge, by rw [hn]; omega, hunfinished, hi ▸ hend, ?_⟩
    exact hstage.imp_right fun h => hi ▸ (hat.mpr h.2).ge
  | real id seqId info hreal hin hout =>
    have hmax : 0 ≤ s.maxProcessToken := hroom.stage.resolve_right (by simp [hreal])
    refine ⟨le_refl 0, le_refl 0, ?_, ?_, ?_, .inl hmax⟩ <;> simp only [Sequence.start] <;> omega

end LlmSystem
