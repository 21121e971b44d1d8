import LlmSystem.Hardware.Fates
import LlmSystem.Scheduler.Reports

/-!
The two clocks of the disaggregated loop. The sum machine stamps a sequence with the time at
which it completes the prefill, and no later call writes the stamp of a sequence that has been
reported, so decoding waits until the clock of the gen machine has come to it.
-/
namespace LlmSystem

open Scheduler

/-- A sequence is reported only past its prefill, from where it does not come back. -/
structure Unreported (t : Sequence) : Prop where
  record : t.InSum → t.record = false
  nonneg : ¬t.InSum → 0 ≤ t.numProcessToken

theorem Sequence.assigned_inSum {s : Scheduler} {b : BatchedSequence} {t : Sequence} :
    (s.assignTokens b t).InSum ↔ t.InSum := by
  obtain ⟨n, hn⟩ := s.assignTokens_eq b t
  rw [hn]
  rfl

theorem settle_record {t t' : Sequence} (h : settle t = some t') :
    t'.record = (t.record || decide (t.currentLen = t.inputLen)) := by
  unfold settle at h
  split_ifs at h with hfin hin
  · obtain rfl := Option.some.inj h
    simp [Sequence.setRecord, hin]
  · obtain rfl := Option.some.inj h
    simp [hin]

namespace Cluster

theorem kept_unreported (s₀ : Scheduler) : Kept s₀ Unreported where
  start _ ht := ⟨fun _ => ht.unrecorded, fun _ => ht.tokenless.ge⟩
  delay h := ⟨h.record, h.nonneg⟩
  gen h := ⟨h.record, h.nonneg⟩
  assign {s b t} h := by
    constructor
    · intro hin
      obtain ⟨n, hn⟩ := s.assignTokens_eq b t
      rw [hn]
      exact h.record (Sequence.assigned_inSum.mp hin)
    · intro hin
      have hgen : ¬t.InSum := fun h => hin (Sequence.assigned_inSum.mpr h)
      unfold assignTokens setGenToken
      rw [if_neg hgen]
      split_ifs
      · exact Int.one_nonneg
      · exact Int.one_nonneg
      · exact h.nonneg hgen
      · exact h.nonneg hgen
  update {t t' time} h hkeep := by
    obtain ⟨hcur, -, hlen, hzero⟩ := settle_lengths hkeep
    simp only [Sequence.update_currentLen, Sequence.update_inputLen,
      Sequence.update_numProcessToken] at hcur hlen hzero
    constructor
    · intro hin
      have hin : t'.currentLen < t'.inputLen := hin
      have hbefore : t.InSum := by
        by_contra hgen
        have hge : t.inputLen ≤ t.currentLen := not_lt.mp hgen
        have hnonneg := h.nonneg hgen
        omega
      rw [settle_record hkeep, Sequence.update_record, h.record hbefore]
      simp only [Sequence.update_currentLen, Sequence.update_inputLen, Bool.false_or,
        decide_eq_false_iff_not]
      omega
    · exact fun _ => hzero.ge

variable {s₀ : Scheduler} {split : Bool} {s t : LoopState} {i : IterInput}

/-- Every sequence of the updated batches is one of the batches before, with its tokens. -/
theorem assigned_of_id (hr : Recorded s₀ s.scheduler) {u v : Sequence}
    (hu : u ∈ s.scheduler.setMetadata.running) (hv : v ∈ s.scheduler.running)
    (hid : u.id = v.id) :
    ∃ b ∈ s.scheduler.runningQueue, v ∈ b.sequence ∧ u = s.scheduler.assignTokens b v := by
  obtain ⟨b, hb, w, hw, rfl⟩ := mem_running_setMetadata.mp hu
  obtain ⟨b', hb', hv'⟩ := mem_running.mp hv
  obtain ⟨n, hn⟩ := s.scheduler.assignTokens_eq b w
  have hsame : w.id = v.id := by
    rw [← hid, hn]
  obtain rfl := hr.eq_of_id_eq hb hw hb' hv' hsame
  exact ⟨b, hb, hw, rfl⟩

/-- With a prefilling sequence, the disaggregated loop works on the sum machine. -/
theorem sums_of_inSum {u : Sequence} (hu : u ∈ s.scheduler.running) (hin : u.InSum) :
    sums true s = true := by
  obtain ⟨b, hb, hu⟩ := mem_running.mp hu
  unfold sums
  rw [hasSumSeq_setMetadata, hasSumSeq_of_inSum hb hu hin]
  rfl

/-- The share of a prefilling sequence does not reach past its input. -/
theorem assigned_le_input {b : BatchedSequence} {u : Sequence}
    (hb : b ∈ s.scheduler.runningQueue) (hu : u ∈ b.sequence) (hin : u.InSum) :
    u.currentLen + (s.scheduler.assignTokens b u).numProcessToken ≤ u.inputLen := by
  have hprocess : s.scheduler.processSum = true := by
    simp [processSum, hasSumSeq_of_inSum hb hu hin]
  unfold assignTokens
  rw [if_pos hin, if_pos hprocess]
  simp only [setSumToken]
  omega

/-- What an iteration leaves or returns of a sequence. -/
def After (split : Bool) (s : LoopState) (i : IterInput) (t : LoopState) (u' : Sequence) : Prop :=
  u' ∈ t.scheduler.running ∨ u' ∈ tokenList split s i

theorem Fate.lengths {u u' : Sequence} (h : Fate split s i u u') :
    u'.id = u.id ∧ u'.inputLen = u.inputLen ∧ (u'.currentLen = u.currentLen ∨
      (u'.currentLen = u.currentLen + u.numProcessToken ∧ (sums split s = true → u.InSum))) := by
  have hregate : ∀ tokens time (v : Sequence), (regate tokens time v).inputLen = v.inputLen ∧
      (regate tokens time v).currentLen = v.currentLen := by
    intro tokens time v
    unfold regate
    split_ifs <;> exact ⟨rfl, rfl⟩
  cases h with
  | @generate v hgen hkeep =>
    obtain ⟨hcur, -, hlen, -⟩ := settle_lengths hkeep
    obtain ⟨hlen', hcur'⟩ := hregate (tokenList split s i) (statTime split s i) v
    rw [hlen', hcur', hlen, hcur, regate_id, settle_id hkeep]
    exact ⟨Sequence.update_id u _, Sequence.update_inputLen u _,
      .inr ⟨Sequence.update_currentLen u _, by simp [hgen]⟩⟩
  | @summarize v hsum hin hkeep =>
    obtain ⟨hcur, -, hlen, -⟩ := settle_lengths hkeep
    obtain ⟨hlen', hcur'⟩ := hregate (tokenList split s i) (statTime split s i) v
    rw [hlen', hcur', hlen, hcur, regate_id, settle_id hkeep]
    exact ⟨Sequence.update_id u _, Sequence.update_inputLen u _,
      .inr ⟨Sequence.update_currentLen u _, fun _ => hin⟩⟩
  | pass => exact ⟨rfl, rfl, .inl rfl⟩

theorem report_inputLen {u r : Sequence} (h : r ∈ report u) : r.inputLen = u.inputLen := by
  unfold report at h
  split_ifs at h
  · rw [List.mem_singleton.mp h]
  · rw [List.mem_singleton.mp h]
    rfl
  · exact absurd h List.not_mem_nil

/-- Where a sequence that ran before an iteration comes out of it. -/
theorem origin (hr : Recorded s₀ s.scheduler) (hout : Outcome split s i t) {v v' : Sequence}
    (hv : v ∈ s.scheduler.running) (hv' : After split s i t v') (hid : v'.id = v.id) :
    ∃ b ∈ s.scheduler.runningQueue, v ∈ b.sequence ∧ v'.inputLen = v.inputLen ∧
      (v'.currentLen = v.currentLen ∨
        (v'.currentLen = v.currentLen + (s.scheduler.assignTokens b v).numProcessToken ∧
          (sums split s = true → v.InSum))) := by
  have hfate : ∃ u ∈ s.scheduler.setMetadata.running, v'.id = u.id ∧ v'.inputLen = u.inputLen ∧
      (v'.currentLen = u.currentLen ∨
        (v'.currentLen = u.currentLen + u.numProcessToken ∧
          (sums split s = true → u.InSum))) := by
    rcases hv' with hv' | hv'
    · cases hout with
      | idle hzero heq =>
        subst heq
        exact ⟨v', hv', rfl, rfl, .inl rfl⟩
      | generate _ _ _ _ _ _ _ hrunning =>
        rcases hrunning v' hv' with ⟨u, hu, hfate⟩ | ⟨q, hq, rfl⟩
        · exact ⟨u, hu, hfate.lengths⟩
        · rw [stampDelay_id] at hid
          exact absurd (hid ▸ List.mem_map_of_mem hv) (admitted_id hr hq)
      | summarize _ _ _ _ _ _ _ hrunning =>
        obtain ⟨u, hu, hfate⟩ := hrunning v' hv'
        exact ⟨u, hu, hfate.lengths⟩
    · obtain ⟨-, u, hu, hin, hreport | ⟨now, hreport⟩⟩ := mem_tokenList hr hv'
      · obtain ⟨hid', hcur⟩ := report_currentLen hreport
        rw [hid', hcur, report_inputLen hreport]
        exact ⟨u, hu, Sequence.update_id u _, Sequence.update_inputLen u _,
          .inr ⟨Sequence.update_currentLen u _, hin⟩⟩
      · obtain ⟨hid', hcur⟩ := report_currentLen hreport
        rw [hid', hcur, report_inputLen hreport]
        exact ⟨u, hu, Sequence.update_id u _, Sequence.update_inputLen u _,
          .inr ⟨Sequence.update_currentLen u _, hin⟩⟩
  obtain ⟨u, hu, hid', hlen, hcur⟩ := hfate
  obtain ⟨b, hb, hvb, rfl⟩ := assigned_of_id hr hu hv (hid'.symm.trans hid)
  obtain ⟨n, hn⟩ := s.scheduler.assignTokens_eq b v
  refine ⟨b, hb, hvb, ?_, ?_⟩
  · rw [hlen, hn]
  · rw [hn] at hcur ⊢
    exact hcur

/-! ### A completed prefill -/

/-- The sequence with the id, after the sum machine has completed its prefill at `time`. -/
structure Completed (time : ℚ) (sch : Scheduler) (u : Sequence) : Prop where
  unreported : Unreported u
  past : ¬u.InSum
  record : u.record = true
  gate : u.genStartTime = time
  tokens : u.numProcessToken = 0 ∨ time ≤ sch.totalTime

/-- A prefilling sequence that does not reach past its input ends its prefill in a report. -/
theorem ends_prefill {w v : Sequence} {time now : ℚ}
    (hbound : w.currentLen + w.numProcessToken ≤ w.inputLen) (hrecord : w.record = false)
    (hkeep : settle ((w.update time).setGenStartTime now) = some v) (hpast : ¬v.InSum) :
    v.record = true ∧ v.numProcessToken = 0 ∧
      ∃ r ∈ report ((w.update time).setGenStartTime now), r.id = v.id := by
  obtain ⟨hcur, -, hlen, hzero⟩ := settle_lengths hkeep
  have hcur' : v.currentLen = w.currentLen + w.numProcessToken :=
    hcur.trans (Sequence.update_currentLen w time)
  have hlen' : v.inputLen = w.inputLen := hlen.trans (Sequence.update_inputLen w time)
  have hge : v.inputLen ≤ v.currentLen := not_lt.mp hpast
  have hend : ((w.update time).setGenStartTime now).currentLen
      = ((w.update time).setGenStartTime now).inputLen := by
    rw [← hcur, ← hlen]
    omega
  have hunrecorded : ((w.update time).setGenStartTime now).record = false :=
    (Sequence.update_record w time).trans hrecord
  have hunfinished : ¬((w.update time).setGenStartTime now).Finished := by
    intro hfin
    rw [settle, if_pos hfin] at hkeep
    cases hkeep
  refine ⟨?_, hzero.trans (Sequence.update_numProcessToken w time),
    ((w.update time).setGenStartTime now).setRecord, ?_, (settle_id hkeep).symm⟩
  · rw [settle_record hkeep]
    simp [hend]
  · unfold report
    rw [if_neg hunfinished, if_pos ⟨hend, hunrecorded⟩]
    exact List.mem_singleton_self _

/-- The reports of the sum machine are in its token list. -/
theorem mem_tokenList_of_report (hr : Recorded s₀ s.scheduler)
    (hne : s.scheduler.setMetadata.getNumProcessToken ≠ 0) (hsums : sums split s = true)
    {w r : Sequence} (hw : w ∈ s.scheduler.setMetadata.running) (hin : w.InSum)
    (hreport : r ∈ report ((w.update i.deviceTime).setGenStartTime
      (s.scheduler.totalTime + i.deviceTime))) : r ∈ tokenList split s i := by
  unfold tokenList
  dsimp only
  rw [if_neg hne, if_pos hsums, updateSchedulerSumGenSplit_eq hr.setMetadata.distinctIds,
    returned_serveAll]
  exact List.mem_flatMap.mpr ⟨w, List.mem_filter.mpr ⟨hw, by simpa using hin⟩, hreport⟩

/-- An iteration that ends the prefill of a sequence is one of the sum machine, and its
`addLatency` stamps the sequence. -/
theorem completes (hr : Recorded s₀ s.scheduler) (hP : s.scheduler.All Unreported)
    (hout : Outcome true s i t) {u u' : Sequence} (hu : u ∈ s.scheduler.running) (hin : u.InSum)
    (hu' : u' ∈ t.scheduler.running) (hid : u'.id = u.id) (hdone : ¬u'.InSum) :
    s.scheduler.setMetadata.getNumProcessToken ≠ 0 ∧
      t.sumMachineTime = max s.totalTime s.sumMachineTime + i.deviceTime ∧
      Completed t.sumMachineTime t.scheduler u' := by
  have hsums := sums_of_inSum hu hin
  cases hout with
  | idle hzero heq =>
    subst heq
    obtain ⟨b, hb, hub, rfl⟩ := assigned_of_id hr hu' hu hid
    exact absurd (Sequence.assigned_inSum.mpr hin) hdone
  | generate _ hgen => simp [hsums] at hgen
  | summarize hne _ _ hsum _ _ _ hrunning =>
    refine ⟨hne, hsum, ?_⟩
    obtain ⟨w, hw, hfate⟩ := hrunning u' hu'
    obtain ⟨b, hb, hub, rfl⟩ := assigned_of_id hr hw hu (hfate.lengths.1.symm.trans hid)
    have hassigned := Sequence.assigned_inSum (s := s.scheduler) (b := b) (t := u)
    cases hfate with
    | generate hgen => simp [hsums] at hgen
    | pass _ hgen => exact absurd (hassigned.mpr hin) hgen
    | @summarize v _ _ hkeep =>
      have hpast : ¬v.InSum := by
        intro hvin
        apply hdone
        unfold regate
        split_ifs <;> exact hvin
      have hfields : (s.scheduler.assignTokens b u).currentLen = u.currentLen ∧
          (s.scheduler.assignTokens b u).inputLen = u.inputLen ∧
          (s.scheduler.assignTokens b u).record = u.record := by
        obtain ⟨n, hn⟩ := s.scheduler.assignTokens_eq b u
        rw [hn]
        exact ⟨rfl, rfl, rfl⟩
      have hbound := assigned_le_input hb hub hin
      rw [← hfields.1, ← hfields.2.1] at hbound
      obtain ⟨hrecord, hzero, r, hreport, hrid⟩ := ends_prefill hbound
        (hfields.2.2.trans ((hP.2 b hb u hub).record hin)) hkeep hpast
      have hlisted : v.id ∈ (tokenList true s i).map (·.id) := by
        have hmem := mem_tokenList_of_report hr hne hsums hw (hassigned.mpr hin) hreport
        exact hrid ▸ List.mem_map_of_mem hmem
      have hstat : statTime true s i = t.sumMachineTime := by
        unfold statTime
        rw [if_pos hsums, hsum]
      unfold regate
      rw [if_pos hlisted, hstat]
      exact ⟨⟨fun h => absurd h hpast, fun _ => hzero.ge⟩, hpast, hrecord, rfl, .inl hzero⟩

/-- A sequence that has been reported is not in a token list again, unless it is popped. -/
theorem not_listed (hr : Recorded s₀ s.scheduler) {w v : Sequence}
    (hw : w ∈ s.scheduler.setMetadata.running) (hrecord : w.record = true)
    (hkeep : settle (w.update i.deviceTime) = some v) :
    v.id ∉ (tokenList split s i).map (·.id) := by
  intro hmem
  obtain ⟨r, hlisted, hid⟩ := List.mem_map.mp hmem
  obtain ⟨-, x, hx, -, hreport⟩ := mem_tokenList hr hlisted
  have hsame : x.id = w.id := by
    have hrid : r.id = x.id := by
      rcases hreport with hreport | ⟨now, hreport⟩
      · exact (report_id hreport).trans (Sequence.update_id x _)
      · exact (report_id hreport).trans (Sequence.update_id x _)
    rw [← hrid, hid, settle_id hkeep, Sequence.update_id]
  obtain ⟨b, hb, hxb⟩ := mem_running.mp hx
  obtain ⟨b', hb', hwb⟩ := mem_running.mp hw
  obtain rfl := hr.setMetadata.eq_of_id_eq hb hxb hb' hwb hsame
  have hunfinished : ¬(x.update i.deviceTime).Finished := by
    intro hfin
    rw [settle, if_pos hfin] at hkeep
    cases hkeep
  have hrecord' : (x.update i.deviceTime).record = true := by rw [Sequence.update_record, hrecord]
  have hnone : ∀ {y : Sequence}, ¬y.Finished → y.record = true → report y = [] := by
    intro y hy hy'
    unfold report
    rw [if_neg hy, if_neg (by simp [hy'])]
  rcases hreport with hreport | ⟨now, hreport⟩
  · rw [hnone hunfinished hrecord'] at hreport
    exact absurd hreport List.not_mem_nil
  · rw [hnone (y := (x.update i.deviceTime).setGenStartTime now) hunfinished hrecord'] at hreport
    exact absurd hreport List.not_mem_nil

namespace Completed
variable {time : ℚ} {sch : Scheduler} {u u' : Sequence}

/-- The gate opens only when the clock has come to the stamp. -/
theorem assign (h : Completed time sch u) (hpos : 0 < time) (b : BatchedSequence) :
    Completed time sch (sch.assignTokens b u) := by
  have hgate : u.genStartTime ≠ 0 := by
    rw [h.gate]
    exact hpos.ne'
  have hpast : ¬(sch.assignTokens b u).InSum := fun hin =>
    h.past (Sequence.assigned_inSum.mp hin)
  have hun := (kept_unreported sch).assign (s := sch) (b := b) h.unreported
  obtain ⟨n, hn⟩ := sch.assignTokens_eq b u
  refine ⟨hun, hpast, by rw [hn]; exact h.record, by rw [hn]; exact h.gate, ?_⟩
  unfold assignTokens setGenToken
  rw [if_neg h.past, if_neg hgate]
  split_ifs with _ hle
  · exact .inr (h.gate ▸ hle)
  · exact h.tokens
  · exact h.tokens

theorem fate (h : Completed time s.scheduler u) (hr : Recorded s₀ s.scheduler)
    (hu : u ∈ s.scheduler.setMetadata.running) (hfate : Fate split s i u u')
    (hle : s.scheduler.totalTime ≤ t.scheduler.totalTime) : Completed time t.scheduler u' := by
  cases hfate with
  | @generate v _ hkeep =>
    have hrecord := settle_record hkeep
    rw [Sequence.update_record, h.record, Bool.true_or] at hrecord
    obtain ⟨hcur, -, hlen, hzero⟩ := settle_lengths hkeep
    simp only [Sequence.update_currentLen, Sequence.update_inputLen,
      Sequence.update_numProcessToken] at hcur hlen hzero
    have hgate : v.genStartTime = time := by
      rw [settle_genStartTime hkeep, Sequence.update_genStartTime, h.gate]
    have hpast : ¬v.InSum := by
      have hge : u.inputLen ≤ u.currentLen := not_lt.mp h.past
      have hnonneg := h.unreported.nonneg h.past
      apply not_lt.mpr
      omega
    unfold regate
    rw [if_neg (not_listed hr hu h.record hkeep)]
    exact ⟨(kept_unreported s₀).update h.unreported hkeep, hpast, hrecord, hgate, .inl hzero⟩
  | summarize _ hin => exact absurd hin h.past
  | pass =>
    obtain ⟨hun, hpast, hrecord, hgate, htokens⟩ := h
    exact ⟨hun, hpast, hrecord, hgate, htokens.imp_right fun h => h.trans hle⟩

end Completed

/-- The sequence with the id is completed, wherever it is. -/
structure CompletedAt (id : ℕ) (time : ℚ) (s : LoopState) : Prop where
  issued : id < s.scheduler.countId
  waiting : ∀ q ∈ s.scheduler.sequenceQueue, q.id ≠ id
  running : ∀ u ∈ s.scheduler.running, u.id = id → Completed time s.scheduler u

theorem CompletedAt.iterate {id : ℕ} {time : ℚ} (h : CompletedAt id time s) (hpos : 0 < time)
    (hr : Recorded s₀ s.scheduler) (hclock : s.scheduler.totalTime = s.totalTime)
    (hout : Outcome split s i t)
    (htime : s.scheduler.setMetadata.getNumProcessToken ≠ 0 → 0 < i.deviceTime) :
    CompletedAt id time t := by
  have hassigned : ∀ u ∈ s.scheduler.setMetadata.running, u.id = id →
      Completed time s.scheduler u := by
    intro u hu hid
    obtain ⟨b, hb, w, hw, rfl⟩ := mem_running_setMetadata.mp hu
    obtain ⟨n, hn⟩ := s.scheduler.assignTokens_eq b w
    have hwid : w.id = id := by
      rw [← hid, hn]
    exact (h.running w (mem_running.mpr ⟨b, hb, hw⟩) hwid).assign hpos b
  have hpassed : s.scheduler.totalTime ≤ t.scheduler.totalTime →
      ∀ {u u' : Sequence}, u ∈ s.scheduler.setMetadata.running → Fate split s i u u' →
        u'.id = id → Completed time t.scheduler u' := by
    intro hle u u' hu hfate hid
    exact (hassigned u hu (hfate.lengths.1.symm.trans hid)).fate hr hu hfate hle
  cases hout with
  | idle hzero heq =>
    subst heq
    refine ⟨h.issued, h.waiting, fun u hu hid => ?_⟩
    obtain ⟨hun, hpast, hrecord, hgate, htokens⟩ := hassigned u hu hid
    exact ⟨hun, hpast, hrecord, hgate, htokens⟩
  | generate hne _ _ _ hclock' hcount hqueue hrunning =>
    have hnew : ∀ q, q ∈ s.scheduler.sequenceQueue ∨ Pushed s.scheduler q → q.id ≠ id := by
      rintro q (hq | hq)
      · exact h.waiting q hq
      · exact (h.issued.trans_le hq.fresh).ne'
    refine ⟨h.issued.trans_le hcount, fun q hq => hnew q (hqueue q hq), fun u' hu' hid => ?_⟩
    rcases hrunning u' hu' with ⟨u, hu, hfate⟩ | ⟨q, hq, rfl⟩
    · refine hpassed ?_ hu hfate hid
      rw [hclock', hclock]
      linarith [htime hne]
    · rw [stampDelay_id] at hid
      exact absurd hid (hnew q hq)
  | summarize hne _ _ _ hclock' hcount hqueue hrunning =>
    refine ⟨hcount ▸ h.issued, hqueue ▸ h.waiting, fun u' hu' hid => ?_⟩
    obtain ⟨u, hu, hfate⟩ := hrunning u' hu'
    exact hpassed hclock'.ge hu hfate hid

/-- What holds in every state of the loops: the scheduler has the clock of the gen machine, and
no prefilling sequence has been reported. -/
structure Timely (s₀ : Scheduler) (s : LoopState) : Prop where
  recorded : RecordedAll s₀ Unreported s.scheduler
  clock : s.scheduler.totalTime = s.totalTime
  nonneg : 0 ≤ s.totalTime

theorem Timely.iterate (h : Timely s₀ s) (hstep : Iterates split s i t) : Timely s₀ t := by
  have hnext := h.recorded.iterate (kept_unreported s₀) hstep.1
  cases iterate_outcome h.recorded.1 hstep.1 with
  | idle hzero heq =>
    subst heq
    exact ⟨hnext, h.clock, h.nonneg⟩
  | generate hne _ htotal _ hclock =>
    have hpos := hstep.2 hne
    have hnonneg := h.nonneg
    refine ⟨hnext, hclock.trans htotal.symm, ?_⟩
    rw [htotal]
    linarith
  | summarize _ _ htotal _ hclock =>
    exact ⟨hnext, by rw [hclock, h.clock, htotal], htotal ▸ h.nonneg⟩

theorem Warm.timely (hr : Recorded s₀ s₀) (hnone : ∀ P, s₀.All P) (hclock : s₀.totalTime = 0)
    (h : Warm s₀ s) : Timely s₀ s := by
  have htime : s.scheduler.totalTime = 0 := by
    apply h.rule (I := fun sch => sch.totalTime = 0)
    · intro times draws s₁ h₁
      exact (totalTime_fill h₁).trans hclock
    · intro sch sch' draws hzero hok
      obtain ⟨s₁, h₁, hok⟩ := Runs.bind_eq_ok hok
      obtain rfl := Except.ok.inj hok
      exact (totalTime_fill h₁).trans hzero
  have hwarm := RecordedAll.warm (kept_unreported s₀) ⟨hr, hnone _⟩ h
  obtain ⟨-, -, -, -, hzero, -⟩ := h
  exact ⟨hwarm, htime.trans hzero.symm, hzero.ge⟩

/-- In the disaggregated loop, over every run: where an iteration completes the prefill of a
sequence, every later iteration that leaves or returns it with more tokens is one of the gen
machine, and starts when the scheduler's clock has come to the time at which the sum machine
completed the prefill. While a sequence prefills, no iteration takes it past its input. -/
theorem decode_after_prefill (c : SystemConfig) (m : ModelConfig) (trace : ExpertTrace)
    (total maxBatched maxProcess : ℤ) (rotate countId : ℕ) {s₀ : Scheduler}
    (hs₀ : s₀ = Scheduler.create c m trace total maxBatched maxProcess rotate countId)
    (htotal : 0 ≤ total) (hdp : 1 ≤ s₀.dpDegree) {s t : LoopState} {i : IterInput}
    (hs : Runs.Reachable (Warm s₀) (Iterates true) s) (hstep : Iterates true s i t)
    {u : Sequence} (hu : u ∈ s.scheduler.running) (hin : u.InSum) :
    (∀ u', After true s i t u' → u'.id = u.id → u'.currentLen ≤ u.inputLen) ∧
    ∀ u' ∈ t.scheduler.running, u'.id = u.id → ¬u'.InSum →
      t.sumMachineTime = statTime true s i ∧
      ∀ inputs w j x, Runs.Run (Iterates true) t inputs w → Iterates true w j x →
        ∀ v ∈ w.scheduler.running, v.id = u.id →
        ∀ v', After true w j x v' → v'.id = u.id → v.currentLen < v'.currentLen →
          sums true w = false ∧ t.sumMachineTime ≤ w.scheduler.totalTime := by
  subst hs₀
  have hr : Recorded _ _ :=
    ⟨_, Bookkeeping.create c m trace total maxBatched maxProcess rotate countId htotal hdp,
      .refl _, rfl⟩
  have htimely : Timely _ s := hs.invariant (I := Timely _)
    (fun _ h => h.timely hr
      (fun P => all_create P c m trace total maxBatched maxProcess rotate countId) rfl)
    fun _ _ _ hs hstep => hs.iterate hstep
  have hout := iterate_outcome htimely.recorded.1 hstep.1
  constructor
  · intro u' hafter hid
    obtain ⟨b, hb, hub, -, hcur | ⟨hcur, -⟩⟩ := origin htimely.recorded.1 hout hu hafter hid
    · rw [hcur]
      exact hin.le
    · rw [hcur]
      exact assigned_le_input hb hub hin
  · intro u' hu' hid hdone
    obtain ⟨hne, hsum, hcompleted⟩ :=
      completes htimely.recorded.1 htimely.recorded.2 hout hu hin hu' hid hdone
    have hpos : 0 < t.sumMachineTime := by
      rw [hsum]
      have htime := hstep.2 hne
      have hmax : 0 ≤ max s.totalTime s.sumMachineTime := le_max_of_le_left htimely.nonneg
      linarith
    refine ⟨by rw [hsum, statTime, if_pos (sums_of_inSum hu hin)], ?_⟩
    intro inputs w j x hrun hnext v hv hvid v' hafter hvid' hlt
    have htimely' := htimely.iterate hstep
    have hstart : CompletedAt u.id t.sumMachineTime t := by
      refine ⟨hid ▸ htimely'.recorded.1.id_lt_countId hu', fun q hq => ?_, fun y hy hyid => ?_⟩
      · exact hid ▸ htimely'.recorded.1.waiting_id_ne hq hu'
      · obtain ⟨b, hb, hyb⟩ := mem_running.mp hy
        obtain ⟨b', hb', hub'⟩ := mem_running.mp hu'
        obtain rfl := htimely'.recorded.1.eq_of_id_eq hb hyb hb' hub' (hyid.trans hid.symm)
        exact hcompleted
    obtain ⟨htw, hw⟩ := hrun.invariant
      (I := fun y => Timely _ y ∧ CompletedAt u.id t.sumMachineTime y)
      (fun y k z hy hyz => ⟨hy.1.iterate hyz, hy.2.iterate hpos hy.1.recorded.1 hy.1.clock
        (iterate_outcome hy.1.recorded.1 hyz.1) hyz.2⟩) ⟨htimely', hstart⟩
    have hout' := iterate_outcome htw.recorded.1 hnext.1
    have hdone' := hw.running v hv hvid
    obtain ⟨b, hb, hvb, -, hcur | ⟨hcur, hvisit⟩⟩ :=
      origin htw.recorded.1 hout' hv hafter (hvid'.trans hvid.symm)
    · omega
    · constructor
      · by_contra hsums
        exact hdone'.past (hvisit (by simpa using hsums))
      · refine (hdone'.assign hpos b).tokens.resolve_left ?_
        omega

/-- Two places for sequences of two and ten tokens, requests injected by rate. -/
def twoMachines : Scheduler :=
  Scheduler.create { numNode := 1, numDevice := 1, disaggSystem := true, useInjectRate := true }
    { maxSeqLen := 16, inputLen := 2, outputLen := 10 } {} 2 64 64 0 0

/-- One sequence decodes while the other, which arrives at 3, prefills until 9; the latter gets
its next token in the iteration that starts at 10. -/
theorem decode_after_prefill_two_machines : ∃ s t w x : LoopState,
    Runs.Reachable (Warm twoMachines) (Iterates true) s ∧
    Iterates true s { deviceTime := 5 } t ∧ Iterates true w { deviceTime := 1 } x ∧
    sums true w = false ∧ t.sumMachineTime ≤ w.scheduler.totalTime := by
  have hall : (do
      let sch ← warmUp (twoMachines.getActualArrivalTime [3]) [] [[]]
      let s ← iterate true { scheduler := sch } { deviceTime := 4 }
      let t ← iterate true s { deviceTime := 5 }
      let w ← iterate true t { deviceTime := 6 }
      let x ← iterate true w { deviceTime := 1 }
      .ok (decide (∃ u ∈ s.scheduler.running, u.InSum ∧
        ∃ u' ∈ t.scheduler.running, u'.id = u.id ∧ ¬u'.InSum ∧
        ∃ v ∈ w.scheduler.running, v.id = u.id ∧
        ∃ v' ∈ x.scheduler.running, v'.id = u.id ∧ v.currentLen < v'.currentLen)))
      = .ok true := by decide +kernel
  obtain ⟨sch, hsch, hall⟩ := Runs.bind_eq_ok hall
  obtain ⟨s, hs, hall⟩ := Runs.bind_eq_ok hall
  obtain ⟨t, ht, hall⟩ := Runs.bind_eq_ok hall
  obtain ⟨w, hw, hall⟩ := Runs.bind_eq_ok hall
  obtain ⟨x, hx, hall⟩ := Runs.bind_eq_ok hall
  obtain ⟨u, hu, hin, u', hu', hid, hdone, v, hv, hvid, v', hv', hvid', hlt⟩ :=
    of_decide_eq_true (Except.ok.inj hall)
  have hreach : Runs.Reachable (Warm twoMachines) (Iterates true) s :=
    ⟨_, [_], ⟨[3], [], [[]], hsch, rfl, rfl⟩, .single ⟨hs, fun _ => by decide⟩⟩
  have hstep : Iterates true s { deviceTime := 5 } t := ⟨ht, fun _ => by decide⟩
  have hrun : Runs.Run (Iterates true) t [{ deviceTime := 6 }] w :=
    .single ⟨hw, fun _ => by decide⟩
  have hnext : Iterates true w { deviceTime := 1 } x := ⟨hx, fun _ => by decide⟩
  have hlater := (decode_after_prefill _ _ _ 2 64 64 0 0 rfl (by decide) (by decide) hreach hstep
    hu hin).2 u' hu' hid hdone
  exact ⟨s, t, w, x, hreach, hstep, hnext,
    hlater.2 _ w _ x hrun hnext v hv hvid v' (.inl hv') hvid' hlt⟩

end Cluster
end LlmSystem
