import LlmSystem.Scheduler.Following
import LlmSystem.Scheduler.Servable

/-!
How often a sequence is in the token lists that the updates return. It passes from the queue
through prefill and decode to its end, and only the `record` flag keeps a sequence that waits
at the end of its input from being reported again.
-/
namespace LlmSystem

open Scheduler

namespace Sequence

@[simp] theorem update_record (s : Sequence) (time : ℚ) : (s.update time).record = s.record := by
  unfold update advance addTime
  dsimp only
  split_ifs <;> rfl

end Sequence

namespace History

/-- The entries with an id, over all update calls so far. -/
def entries (h : History) (id : ℕ) : List Sequence :=
  h.returned.flatten.filter fun r => r.id = id

theorem entries_congr {h h' : History} (heq : h'.returned = h.returned) (id : ℕ) :
    h'.entries id = h.entries id := by
  unfold entries
  rw [heq]

end History

/-- In the call from `g` to `g'` the prefill completes, and the call returns `r` as the first
entry with the id. -/
structure PrefillEnds (g g' : History) (id : ℕ) (r : Sequence) : Prop where
  before : g.Prefilling id
  after : ¬g'.Prefilling id
  first : g.entries id = []
  returned : ∃ l, g'.returned = g.returned ++ [l] ∧ l.filter (fun r' => r'.id = id) = [r]

/-- Some call between `h₁` and `h₂` completes the prefill and returns `r`. -/
def EndsWithin (h₁ h₂ : History) (id : ℕ) (r : Sequence) : Prop :=
  ∃ ops g op g' ops', Runs.Run History.Step h₁ ops g ∧ g.Step op g' ∧
    Runs.Run History.Step g' ops' h₂ ∧ PrefillEnds g g' id r

theorem EndsWithin.next {h₁ h h' : History} {id : ℕ} {r : Sequence} {op : Op}
    (hends : EndsWithin h₁ h id r) (hstep : h.Step op h') : EndsWithin h₁ h' id r := by
  obtain ⟨ops, g, op', g', ops', hrun, hcall, hrest, hend⟩ := hends
  exact ⟨ops, g, op', g', ops' ++ [op], hrun, hcall, hrest.append (.single hstep), hend⟩

/-! ### The two stages -/

/-- `u` is the sequence `t` before the end of its input. -/
structure InPrefill (t u : Sequence) : Prop where
  inputLen : u.inputLen = t.inputLen
  totalLen : u.totalLen = t.totalLen
  stage : u.currentLen < t.inputLen
  unrecorded : u.record = false
  bounded : u.currentLen + u.numProcessToken ≤ t.inputLen

/-- `u` is the sequence `t` after the end of its input, and its first token is reported. -/
structure InDecode (t u : Sequence) : Prop where
  inputLen : u.inputLen = t.inputLen
  totalLen : u.totalLen = t.totalLen
  stage : t.inputLen ≤ u.currentLen
  recorded : u.record = true
  nonneg : 0 ≤ u.numProcessToken

section Stages
variable {t u : Sequence}

theorem InPrefill.assignTokens (h : InPrefill t u) (s : Scheduler) (b : BatchedSequence) :
    InPrefill t (s.assignTokens b u) := by
  obtain ⟨hin, htot, hstage, hrec, hle⟩ := h
  have hsum : u.InSum := by
    unfold Sequence.InSum
    omega
  unfold Scheduler.assignTokens
  rw [if_pos hsum]
  split_ifs
  · refine ⟨hin, htot, hstage, hrec, ?_⟩
    unfold setSumToken
    simp only
    omega
  · exact ⟨hin, htot, hstage, hrec, hle⟩

theorem InDecode.assignTokens (h : InDecode t u) (s : Scheduler) (b : BatchedSequence) :
    InDecode t (s.assignTokens b u) := by
  obtain ⟨hin, htot, hstage, hrec, hpos⟩ := h
  have hgen : ¬u.InSum := by
    unfold Sequence.InSum
    omega
  unfold Scheduler.assignTokens setGenToken
  rw [if_neg hgen]
  split_ifs
  · exact ⟨hin, htot, hstage, hrec, Int.one_nonneg⟩
  · exact ⟨hin, htot, hstage, hrec, Int.one_nonneg⟩
  · exact ⟨hin, htot, hstage, hrec, hpos⟩
  · exact ⟨hin, htot, hstage, hrec, hpos⟩

end Stages

/-! ### One update -/

namespace Updates
variable {h h' : History} {p : Sequence → Bool} {f : Sequence → Sequence}

theorem fields (hupd : Updates h h' p f) (t : Sequence) :
    (f t).id = t.id ∧ (f t).inputLen = t.inputLen ∧ (f t).totalLen = t.totalLen ∧
      (f t).currentLen = t.currentLen + t.numProcessToken ∧ (f t).numProcessToken = 0 ∧
      (f t).record = t.record := by
  obtain ⟨-, time, hf⟩ := hupd
  obtain ⟨hcur, htok, htot, hin, hid⟩ := update_lengths t (hf t)
  refine ⟨hid, hin, htot, hcur, htok, ?_⟩
  rcases hf t with heq | ⟨now, heq⟩ <;> rw [heq]
  · simp
  · simp [Sequence.setGenStartTime]

theorem entries_eq (hupd : Updates h h' p f) (hb : Bookkeeping h) {u : Sequence}
    (hu : u ∈ h.scheduler.running) :
    h'.entries u.id = h.entries u.id ++ if p u then report (f u) else [] := by
  have hown := returned_of_mem (p := p) hb.nodup_running (fun t => (hupd.fields t).1) hu
  obtain ⟨rfl, -⟩ := hupd
  unfold History.entries History.update
  simp [hown]

theorem entries_of_not_mem (hupd : Updates h h' p f) {id : ℕ}
    (hid : id ∉ h.scheduler.running.map Sequence.id) : h'.entries id = h.entries id := by
  have hnone := returned_of_not_mem (p := p) (fun t => (hupd.fields t).1) hid
  obtain ⟨rfl, -⟩ := hupd
  unfold History.entries History.update
  simp [hnone]

theorem kept (hupd : Updates h h' p f) {u u' : Sequence} (hu : u ∈ h.scheduler.running)
    (hkeep : (if p u then settle (f u) else some u) = some u') : u' ∈ h'.scheduler.running := by
  obtain ⟨rfl, -⟩ := hupd
  change u' ∈ (serveAll p f h.scheduler).1.running
  rw [running_serveAll]
  exact List.mem_filterMap.mpr ⟨u, hu, hkeep⟩

theorem finished_mono (hupd : Updates h h' p f) {id : ℕ} (hid : id ∈ h.finished) :
    id ∈ h'.finished := by
  obtain ⟨rfl, -⟩ := hupd
  simp only [History.finished, History.update, List.map_append, List.sum_append]
  exact Multiset.mem_add.mpr (.inl hid)

theorem finished_of_report (hupd : Updates h h' p f) {u : Sequence} (hu : u ∈ h.scheduler.running)
    (hp : p u = true) (hfin : (f u).Finished) : u.id ∈ h'.finished := by
  have hid := (hupd.fields u).1
  obtain ⟨rfl, -⟩ := hupd
  have hret : f u ∈ (serveAll p f h.scheduler).2 := by
    rw [returned_serveAll]
    apply List.mem_flatMap.mpr
    exact ⟨u, List.mem_filter.mpr ⟨hu, hp⟩, by simp [report, hfin]⟩
  simp only [History.finished, History.update, List.map_append, List.sum_append, List.map_cons,
    List.map_nil, List.sum_cons, List.sum_nil, add_zero]
  apply Multiset.mem_add.mpr
  right
  apply Multiset.mem_coe.mpr
  rw [← hid]
  exact List.mem_map_of_mem (List.mem_filter.mpr ⟨hret, by simpa using hfin⟩)

end Updates

theorem Effect.entries_of_not_mem {h h' : History} (heff : Effect h h') {id : ℕ}
    (hid : id ∉ h.scheduler.running.map Sequence.id) : h'.entries id = h.entries id := by
  cases heff with
  | push => rfl
  | fill => rfl
  | clock => rfl
  | assign => rfl
  | stamp => rfl
  | update p f time hf =>
    have hupd : Updates h _ p f := ⟨rfl, time, hf⟩
    exact hupd.entries_of_not_mem hid

theorem Effect.finished_mono {h h' : History} (heff : Effect h h') {id : ℕ}
    (hid : id ∈ h.finished) : id ∈ h'.finished := by
  cases heff with
  | push => exact hid
  | fill => exact hid
  | clock => exact hid
  | assign => exact hid
  | stamp => exact hid
  | update p f time hf =>
    have hupd : Updates h _ p f := ⟨rfl, time, hf⟩
    exact hupd.finished_mono hid

/-- Where the sequence `t`, waiting in `h₁`, is in a later state, and what has been returned
of it until then. -/
inductive Tracks (h₁ : History) (t : Sequence) (h : History) : Prop
  | waiting (ht : t ∈ h.scheduler.sequenceQueue) (hnone : h.entries t.id = [])
  | prefill {u : Sequence} (hu : u ∈ h.scheduler.running) (hid : u.id = t.id)
      (hstage : InPrefill t u) (hnone : h.entries t.id = [])
  | decode {u r : Sequence} (hu : u ∈ h.scheduler.running) (hid : u.id = t.id)
      (hstage : InDecode t u) (hlen : t.inputLen < t.totalLen) (hone : h.entries t.id = [r])
      (hfirst : r.currentLen = t.inputLen) (hends : EndsWithin h₁ h t.id r)
  | once {r : Sequence} (hfin : t.id ∈ h.finished) (hlen : t.inputLen = t.totalLen)
      (hone : h.entries t.id = [r]) (hlast : r.currentLen = t.totalLen)
  | twice {r₁ r₂ : Sequence} (hfin : t.id ∈ h.finished) (hlen : t.inputLen < t.totalLen)
      (htwo : h.entries t.id = [r₁, r₂]) (hfirst : r₁.currentLen = t.inputLen)
      (hlast : r₂.currentLen = t.totalLen) (hends : EndsWithin h₁ h t.id r₁)

section Steps
variable {h₁ h h' : History} {t u : Sequence} {op : Op} {ops : List Op} {p : Sequence → Bool}
  {f : Sequence → Sequence}

/-- An update that the prefill sequence takes part in. -/
theorem Updates.prefill (hupd : Updates h h' p f) (hb : Bookkeeping h) (hb' : Bookkeeping h')
    (hrun : Runs.Run History.Step h₁ ops h) (hstep : h.Step op h')
    (hlen : t.inputLen ≤ t.totalLen) (hu : u ∈ h.scheduler.running) (hid : u.id = t.id)
    (hstage : InPrefill t u) (hnone : h.entries t.id = []) (hp : p u = true) :
    Tracks h₁ t h' := by
  obtain ⟨hidf, hinf, htotf, hcur, htok, hrec⟩ := hupd.fields u
  obtain ⟨hin, htot, hsum, hunrec, hle⟩ := hstage
  have hentries := hupd.entries_eq hb hu
  rw [hid, hnone, if_pos hp, List.nil_append] at hentries
  have hkept : ∀ u', (if p u then settle (f u) else some u) = some u' →
      u' ∈ h'.scheduler.running := fun u' hkeep => hupd.kept hu hkeep
  rw [if_pos hp] at hkept
  by_cases hfin : (f u).Finished
  · -- the end of the input is the end of the sequence
    have hend : (f u).currentLen = (f u).totalLen := hfin
    refine .once (hid ▸ hupd.finished_of_report hu hp hfin) (by omega) ?_ (by omega) (r := f u)
    rw [hentries]
    simp [report, hfin]
  · have hne : (f u).currentLen ≠ (f u).totalLen := hfin
    by_cases hdone : (f u).currentLen = (f u).inputLen
    · have hrep : report (f u) = [(f u).setRecord] := by simp [report, hfin, hdone, hrec, hunrec]
      have hmem : (f u).setRecord ∈ h'.scheduler.running :=
        hkept _ (by simp [settle, hfin, hdone])
      refine .decode hmem (hidf.trans hid) ?_ (by omega) (hentries.trans hrep) ?_ ?_
      · constructor
        · exact hinf.trans hin
        · exact htotf.trans htot
        · change t.inputLen ≤ (f u).currentLen
          omega
        · rfl
        · exact htok.ge
      · change (f u).currentLen = t.inputLen
        omega
      · refine ⟨ops, h, op, h', [], hrun, hstep, .nil _, ⟨u, hu, hid, ?_⟩, ?_, hnone, ?_⟩
        · unfold Sequence.InSum
          omega
        · rintro ⟨w, hw, hidw, hsumw⟩
          have hsame : w.id = (f u).setRecord.id := hidw.trans (hidf.trans hid).symm
          obtain rfl := Keyed.eq_of_key_eq hb'.nodup_running hw hmem hsame
          have hsumw : (f u).currentLen < (f u).inputLen := hsumw
          omega
        · have hown := returned_of_mem (p := p) hb.nodup_running (fun t => (hupd.fields t).1) hu
          obtain ⟨rfl, -⟩ := hupd
          refine ⟨_, rfl, ?_⟩
          rw [← hid, hown, if_pos hp, hrep]
    · have hmem : f u ∈ h'.scheduler.running := hkept _ (by simp [settle, hfin, hdone])
      refine .prefill hmem (hidf.trans hid) ?_ ?_
      · exact ⟨hinf.trans hin, htotf.trans htot, by omega, hrec.trans hunrec, by omega⟩
      · rw [hentries]
        simp [report, hfin, hdone]

/-- An update that the decoding sequence takes part in. -/
theorem Updates.decode (hupd : Updates h h' p f) (hb : Bookkeeping h) (hstep : h.Step op h')
    (hu : u ∈ h.scheduler.running) (hid : u.id = t.id) (hstage : InDecode t u)
    (hlen : t.inputLen < t.totalLen) {r : Sequence} (hone : h.entries t.id = [r])
    (hfirst : r.currentLen = t.inputLen) (hends : EndsWithin h₁ h t.id r) (hp : p u = true) :
    Tracks h₁ t h' := by
  obtain ⟨hidf, hinf, htotf, hcur, htok, hrec⟩ := hupd.fields u
  obtain ⟨hin, htot, hgen, hrecorded, hpos⟩ := hstage
  have hentries := hupd.entries_eq hb hu
  rw [hid, hone, if_pos hp] at hentries
  have hkept : ∀ u', (if p u then settle (f u) else some u) = some u' →
      u' ∈ h'.scheduler.running := fun u' hkeep => hupd.kept hu hkeep
  rw [if_pos hp] at hkept
  by_cases hfin : (f u).Finished
  · have hend : (f u).currentLen = (f u).totalLen := hfin
    have htwo : h'.entries t.id = [r, f u] := by
      rw [hentries]
      simp [report, hfin]
    exact .twice (hid ▸ hupd.finished_of_report hu hp hfin) hlen htwo hfirst (by omega)
      (hends.next hstep)
  · -- at the end of the input the `record` flag prevents a second report
    have hsilent : report (f u) = [] := by simp [report, hfin, hrec, hrecorded]
    rw [hsilent, List.append_nil] at hentries
    by_cases hdone : (f u).currentLen = (f u).inputLen
    · have hmem : (f u).setRecord ∈ h'.scheduler.running :=
        hkept _ (by simp [settle, hfin, hdone])
      refine .decode hmem (hidf.trans hid) ?_ hlen hentries hfirst (hends.next hstep)
      constructor
      · exact hinf.trans hin
      · exact htotf.trans htot
      · change t.inputLen ≤ (f u).currentLen
        omega
      · rfl
      · exact htok.ge
    · have hmem : f u ∈ h'.scheduler.running := hkept _ (by simp [settle, hfin, hdone])
      refine .decode hmem (hidf.trans hid) ?_ hlen hentries hfirst (hends.next hstep)
      exact ⟨hinf.trans hin, htotf.trans htot, by omega, hrec.trans hrecorded, htok.ge⟩

theorem Tracks.step (hb : Bookkeeping h) (hrun : Runs.Run History.Step h₁ ops h)
    (hstep : h.Step op h') (hstart : InPrefill t t) (hlen : t.inputLen ≤ t.totalLen)
    (htr : Tracks h₁ t h) : Tracks h₁ t h' := by
  have heff := hstep.effect hb.distinctIds
  have hb' := heff.bookkeeping hb
  obtain ⟨-, hwait, hactive⟩ := hb.disjoint
  cases htr with
  | waiting ht hnone =>
    have hnot := (hwait t.id (List.mem_map_of_mem ht)).1
    have hentries := heff.entries_of_not_mem hnot
    rcases heff.follow_waiting hb ht with hstay | ⟨-, hadmit⟩
    · exact .waiting hstay (hentries.trans hnone)
    · refine .prefill hadmit (stampDelay_id _ t) ?_ (hentries.trans hnone)
      obtain ⟨hin, htot, hsum, hrec, hle⟩ := hstart
      unfold stampDelay
      split_ifs <;> exact ⟨hin, htot, hsum, hrec, hle⟩
  | @prefill u hu hid hstage hnone =>
    rcases heff.follow (P := InPrefill t)
      (fun _ _ h => ⟨h.inputLen, h.totalLen, h.stage, h.unrecorded, h.bounded⟩)
      (fun b _ h' => h'.assignTokens h.scheduler b) hu hstage with
      ⟨hret, u', hu', hid', hstage'⟩ | ⟨p, f, hupd⟩
    · exact .prefill hu' (hid'.trans hid) hstage' ((History.entries_congr hret _).trans hnone)
    · cases hp : p u with
      | true => exact hupd.prefill hb hb' hrun hstep hlen hu hid hstage hnone hp
      | false =>
        have hentries := hupd.entries_eq hb hu
        rw [hid, hnone] at hentries
        exact .prefill (hupd.kept hu (by simp [hp])) hid hstage (by simpa [hp] using hentries)
  | @decode u r hu hid hstage hlt hone hfirst hends =>
    rcases heff.follow (P := InDecode t)
      (fun _ _ h => ⟨h.inputLen, h.totalLen, h.stage, h.recorded, h.nonneg⟩)
      (fun b _ h' => h'.assignTokens h.scheduler b) hu hstage with
      ⟨hret, u', hu', hid', hstage'⟩ | ⟨p, f, hupd⟩
    · exact .decode hu' (hid'.trans hid) hstage' hlt
        ((History.entries_congr hret _).trans hone) hfirst (hends.next hstep)
    · cases hp : p u with
      | true => exact hupd.decode hb hstep hu hid hstage hlt hone hfirst hends hp
      | false =>
        have hentries := hupd.entries_eq hb hu
        rw [hid, hone] at hentries
        exact .decode (hupd.kept hu (by simp [hp])) hid hstage hlt (by simpa [hp] using hentries)
          hfirst (hends.next hstep)
  | once hfin hlt hone hlast =>
    have hentries := heff.entries_of_not_mem fun hin => hactive t.id hin hfin
    exact .once (heff.finished_mono hfin) hlt (hentries.trans hone) hlast
  | twice hfin hlt htwo hfirst hlast hends =>
    have hentries := heff.entries_of_not_mem fun hin => hactive t.id hin hfin
    exact .twice (heff.finished_mono hfin) hlt (hentries.trans htwo) hfirst hlast
      (hends.next hstep)

theorem Tracks.of_run (hb : Bookkeeping h₁) (hstart : InPrefill t t)
    (hlen : t.inputLen ≤ t.totalLen) (ht : t ∈ h₁.scheduler.sequenceQueue)
    (hnone : h₁.entries t.id = []) (hrun : Runs.Run History.Step h₁ ops h) : Tracks h₁ t h := by
  have hinv := hrun.invariant_trace (I := fun _ h => Bookkeeping h ∧ Tracks h₁ t h)
    ⟨hb, .waiting ht hnone⟩ ?_
  · exact hinv.2
  rintro ops h op h' hrun ⟨hb, htr⟩ hstep
  have heff := hstep.effect hb.distinctIds
  exact ⟨heff.bookkeeping hb, htr.step hb hrun hstep hstart hlen⟩

end Steps

/-! ### Whole runs -/

/-- What is in a token list was pushed and waits no more. -/
def Reported (h : History) : Prop :=
  ∀ r ∈ h.returned.flatten, r.id ∈ h.pushed ∧ r.id ∉ h.queued

theorem Effect.reported {h h' : History} (heff : Effect h h') (hb : Bookkeeping h)
    (hr : Reported h) : Reported h' := by
  cases heff with
  | @push s' new hpush =>
    intro r hret
    obtain ⟨hpushed, hwait⟩ := hr r hret
    refine ⟨Multiset.mem_add.mpr (.inl hpushed), ?_⟩
    change r.id ∉ ids s'.sequenceQueue
    rw [hpush.frame, ids_append]
    intro hin
    rcases Multiset.mem_add.mp hin with hin | hin
    · exact hwait hin
    · rw [ids, hpush.ids, Multiset.mem_coe, List.mem_range'_1] at hin
      exact absurd (hb.fresh r.id hpushed) (not_lt.mpr hin.1)
  | fill hfill =>
    intro r hret
    obtain ⟨hpushed, hwait⟩ := hr r hret
    refine ⟨hpushed, fun hin => hwait ?_⟩
    change r.id ∈ ids h.scheduler.fillRunningQueue.sequenceQueue at hin
    rw [hfill.frame] at hin
    obtain ⟨t, ht, hid⟩ := List.mem_map.mp (Multiset.mem_coe.mp hin)
    exact Multiset.mem_coe.mpr (List.mem_map.mpr ⟨t, List.mem_of_mem_drop ht, hid⟩)
  | clock => exact hr
  | assign => exact hr
  | stamp => exact hr
  | update p f time hf =>
    have hupd : Updates h (h.update p (serveAll p f h.scheduler)) p f := ⟨rfl, time, hf⟩
    intro r hret
    simp only [History.update, List.flatten_append, List.mem_append] at hret
    rcases hret with hold | hnew
    · exact hr r hold
    · simp only [List.flatten_cons, List.flatten_nil, List.append_nil] at hnew
      rw [returned_serveAll] at hnew
      obtain ⟨u, hu, hrep⟩ := List.mem_flatMap.mp hnew
      have hid : r.id = u.id := (report_id hrep).trans (hupd.fields u).1
      have hrun : u.id ∈ h.scheduler.running.map Sequence.id :=
        List.mem_map_of_mem (List.mem_filter.mp hu).1
      rw [hid]
      constructor
      · change u.id ∈ h.pushed
        rw [← hb.places]
        exact Multiset.mem_add.mpr
          (.inl (Multiset.mem_add.mpr (.inr (Bookkeeping.mem_running_ids.mpr hrun))))
      · intro hin
        exact (hb.disjoint.2.1 u.id (Multiset.mem_coe.mp hin)).1 hrun

theorem reported_of_run {h h' : History} {ops : List Op} (hb : Bookkeeping h) (hr : Reported h)
    (hrun : Runs.Run History.Step h ops h') : Reported h' := by
  have hinv := hrun.invariant (I := fun h => Bookkeeping h ∧ Reported h) ?_ ⟨hb, hr⟩
  · exact hinv.2
  rintro h op h' ⟨hb, hr⟩ hstep
  have heff := hstep.effect hb.distinctIds
  exact ⟨heff.bookkeeping hb, heff.reported hb hr⟩

/-- The pushed lengths; `prefill_mode` ends a synthetic sequence with its input. -/
theorem Scheduler.Started.totalLen_eq {c : SystemConfig} {m : ModelConfig} {trace : ExpertTrace}
    {t : Sequence} (ht : Started c m trace t) :
    (trace.realData = false ∧ c.prefillMode = true → t.totalLen = t.inputLen) ∧
    (¬(trace.realData = false ∧ c.prefillMode = true) →
      t.totalLen = t.inputLen + t.outputLen - 1) := by
  cases ht with
  | dummy id arrival hreal hmax hin hout =>
    simp only [hreal, true_and]
    unfold applyModes
    constructor
    · intro hprefill
      simp only [hprefill, ↓reduceIte]
      split_ifs <;> rfl
    · intro hprefill
      simp only [hprefill, ↓reduceIte, Bool.false_eq_true]
      split_ifs <;> rfl
  | real id seqId info hreal hin hout =>
    constructor
    · rintro ⟨hfalse, -⟩
      simp [hreal] at hfalse
    · exact fun _ => rfl

theorem Scheduler.Started.unrecorded {c : SystemConfig} {m : ModelConfig} {trace : ExpertTrace}
    {t : Sequence} (ht : Started c m trace t) : t.record = false := by
  cases ht with
  | dummy =>
    unfold applyModes
    dsimp only
    split_ifs <;> rfl
  | real => rfl

/-- Over every run, a finished sequence that was pushed before the end of its input is in the
returned lists twice if it has more to generate than the token of its prefill: first in the
call in which its prefill completes, then at its end. Otherwise it is there once. -/
theorem reported_once (c : SystemConfig) (m : ModelConfig) (trace : ExpertTrace)
    (total maxBatched maxProcess : ℤ) (rotate countId : ℕ) {s₀ : Scheduler}
    (hs₀ : s₀ = Scheduler.create c m trace total maxBatched maxProcess rotate countId)
    (htotal : 0 ≤ total) (hdp : 1 ≤ s₀.dpDegree) {ops₁ ops₂ : List Op} {h₁ h₂ : History}
    (hrun₁ : Runs.Run History.Step (.init s₀) ops₁ h₁) {t : Sequence}
    (ht : t ∈ h₁.scheduler.sequenceQueue) (hsum : t.currentLen < t.inputLen)
    (hrun₂ : Runs.Run History.Step h₁ ops₂ h₂) (hfin : t.id ∈ h₂.finished) :
    (1 < t.outputLen → ¬(trace.realData = false ∧ c.prefillMode = true) → ∃ r₁ r₂,
      h₂.entries t.id = [r₁, r₂] ∧ r₁.currentLen = t.inputLen ∧ r₂.currentLen = t.totalLen ∧
      EndsWithin h₁ h₂ t.id r₁) ∧
    (t.outputLen = 1 ∨ (trace.realData = false ∧ c.prefillMode = true) → ∃ r,
      h₂.entries t.id = [r] ∧ r.currentLen = t.totalLen) := by
  subst hs₀
  have hcreate := Bookkeeping.create c m trace total maxBatched maxProcess rotate countId htotal hdp
  have hb₁ := hcreate.of_run hrun₁
  have hb₂ := hb₁.of_run hrun₂
  obtain ⟨m', hstarted⟩ := waiting_started_of_run hcreate rfl rfl
    (fun t ht => absurd ht List.not_mem_nil) hrun₁ t ht
  have hlen : t.inputLen ≤ t.totalLen := hstarted.input_le
  obtain ⟨hprefill, hplain⟩ := hstarted.totalLen_eq
  have hzero := hstarted.tokenless
  have hstart : InPrefill t t := ⟨rfl, rfl, hsum, hstarted.unrecorded, by omega⟩
  have hnone : h₁.entries t.id = [] := by
    apply List.filter_eq_nil_iff.mpr
    intro r hret
    have hwait := (reported_of_run hcreate (fun r hr => by simp [History.init] at hr)
      hrun₁ r hret).2
    simp only [decide_eq_true_eq]
    exact fun heq => hwait (heq ▸ Multiset.mem_coe.mpr (List.mem_map_of_mem ht))
  obtain ⟨-, hwait, hactive⟩ := hb₂.disjoint
  cases Tracks.of_run hb₁ hstart hlen ht hnone hrun₂ with
  | waiting ht' => exact absurd hfin (hwait t.id (List.mem_map_of_mem ht')).2
  | prefill hu hid => exact absurd hfin (hactive t.id (List.mem_map.mpr ⟨_, hu, hid⟩))
  | decode hu hid => exact absurd hfin (hactive t.id (List.mem_map.mpr ⟨_, hu, hid⟩))
  | once _ hlt hone hlast =>
    constructor
    · intro hout hmode
      have htot := hplain hmode
      omega
    · exact fun _ => ⟨_, hone, hlast⟩
  | twice _ hlt htwo hfirst hlast hends =>
    constructor
    · exact fun _ _ => ⟨_, _, htwo, hfirst, hlast, hends⟩
    · rintro hone
      by_cases hmode : trace.realData = false ∧ c.prefillMode = true
      · have htot := hprefill hmode
        omega
      · have htot := hplain hmode
        have hout := hone.resolve_right hmode
        omega

/-- A plain sequence of two output tokens. -/
theorem reported_once_plain : ∃ h₁ h₂ : History,
    Runs.Run History.Step
      (.init (Scheduler.create { numNode := 1, numDevice := 1 }
        { maxSeqLen := 16, inputLen := 4, outputLen := 2 } {} 1 64 64 0 0)) [.pushSeq 1 []] h₁ ∧
    Runs.Run History.Step h₁ [.fillRunningQueue, .setMetadata, .updateScheduler 1, .setMetadata,
      .updateScheduler 1] h₂ ∧
    ∃ t ∈ h₁.scheduler.sequenceQueue, ∃ r₁ r₂, h₂.entries t.id = [r₁, r₂] ∧
      r₁.currentLen = 4 ∧ r₂.currentLen = 5 := by
  have hrun₁ : Runs.Run History.Step
      (.init (Scheduler.create { numNode := 1, numDevice := 1 }
        { maxSeqLen := 16, inputLen := 4, outputLen := 2 } {} 1 64 64 0 0))
      [.pushSeq 1 []] _ := .of_foldlM rfl
  refine ⟨_, _, hrun₁, .of_foldlM rfl, _, List.mem_cons_self .., ?_⟩
  obtain ⟨r₁, r₂, htwo, hfirst, hlast, -⟩ := (reported_once _ _ _ 1 64 64 0 0 rfl (by decide)
    (by decide) hrun₁ (List.mem_cons_self ..) (by decide)
    (show Runs.Run History.Step _ [.fillRunningQueue, .setMetadata, .updateScheduler 1,
      .setMetadata, .updateScheduler 1] _ from .of_foldlM rfl) (by decide)).1
    (by decide) (by decide)
  exact ⟨r₁, r₂, htwo, hfirst, hlast⟩

/-- In `prefill_mode` a sequence with four output tokens is returned once. -/
theorem reported_once_prefill_mode : ∃ h₁ h₂ : History, ∃ ops₁ ops₂,
    Runs.Run History.Step
      (.init (Scheduler.create { numNode := 1, numDevice := 1, prefillMode := true }
        { maxSeqLen := 16, inputLen := 4, outputLen := 2 } {} 1 64 64 0 0)) ops₁ h₁ ∧
    Runs.Run History.Step h₁ ops₂ h₂ ∧ ∃ t ∈ h₁.scheduler.sequenceQueue,
      t.currentLen < t.inputLen ∧ 1 < t.outputLen ∧ t.id ∈ h₂.finished ∧
      (h₂.entries t.id).length = 1 :=
  ⟨_, _, [.pushSeq 1 []], [.fillRunningQueue, .setMetadata, .updateScheduler 1],
    .of_foldlM rfl, .of_foldlM rfl, _, List.mem_cons_self .., by decide, by decide, by decide,
    by decide⟩

end LlmSystem
