import LlmSystem.Scheduler.OnTrack

/-! One sequence followed through the calls, from the waiting queue to a returned list. -/
namespace LlmSystem

open Scheduler

namespace Scheduler

/-- The running sequences, batch by batch. -/
def running (s : Scheduler) : List Sequence := s.runningQueue.flatMap (·.sequence)

theorem mem_running {s : Scheduler} {t : Sequence} :
    t ∈ s.running ↔ ∃ b ∈ s.runningQueue, t ∈ b.sequence := List.mem_flatMap

theorem running_ids (s : Scheduler) : ids s.running = runningIds s.runningQueue := by
  unfold running
  induction s.runningQueue with
  | nil => simp [runningIds]
  | cons b l ih =>
    rw [List.flatMap_cons, ids_append, ih]
    simp [runningIds]

theorem running_serveAll (p : Sequence → Bool) (f : Sequence → Sequence) (s : Scheduler) :
    (serveAll p f s).1.running
      = s.running.filterMap fun t => if p t then settle (f t) else some t := by
  simp [running, serveAll, serve, List.flatMap_map, List.filterMap_flatMap]

theorem returned_serveAll (p : Sequence → Bool) (f : Sequence → Sequence) (s : Scheduler) :
    (serveAll p f s).2 = (s.running.filter p).flatMap fun t => report (f t) := by
  simp [running, serveAll, serve, List.flatMap_assoc, List.filter_flatMap]

theorem report_id {seq r : Sequence} (hr : r ∈ report seq) : r.id = seq.id := by
  unfold report at hr
  split_ifs at hr
  · rw [List.mem_singleton.mp hr]
  · rw [List.mem_singleton.mp hr]
    rfl
  · exact absurd hr List.not_mem_nil

section Reports
variable {s : Scheduler} {p : Sequence → Bool} {f : Sequence → Sequence}

/-- The entries of a returned list with the id of a running sequence are its own. -/
theorem returned_of_mem (hnd : (s.running.map Sequence.id).Nodup) (hf : ∀ t, (f t).id = t.id)
    {u : Sequence} (hu : u ∈ s.running) :
    (serveAll p f s).2.filter (fun r => r.id = u.id) = if p u then report (f u) else [] := by
  have hown : ∀ t ∈ s.running, t.id = u.id →
      (report (f t)).filter (fun r => r.id = u.id) = report (f t) := by
    intro t _ hid
    apply List.filter_eq_self.mpr
    intro r hr
    simp [report_id hr, hf, hid]
  have hother : ∀ t ∈ s.running, t.id ≠ u.id →
      (report (f t)).filter (fun r => r.id = u.id) = [] := by
    intro t _ hid
    apply List.filter_eq_nil_iff.mpr
    intro r hr
    simp [report_id hr, hf, hid]
  rw [returned_serveAll, List.filter_flatMap]
  have hsplit : ∀ l : List Sequence, (∀ t ∈ l, t ∈ s.running) →
      (l.filter p).flatMap (fun t => (report (f t)).filter fun r => r.id = u.id)
        = ((l.filter fun t => t.id = u.id).filter p).flatMap fun t => report (f t) := by
    intro l hl
    induction l with
    | nil => simp
    | cons t l ih =>
      have ht := hl t (List.mem_cons_self ..)
      have hrest := ih fun t' ht' => hl t' (List.mem_cons_of_mem t ht')
      by_cases hid : t.id = u.id
      · cases hp : p t <;> simp [hid, hp, hrest, hown t ht hid]
      · cases hp : p t <;> simp [hid, hp, hrest, hother t ht hid]
  rw [hsplit _ fun _ h => h, Keyed.filter_key_eq hnd hu]
  cases hp : p u <;> simp [hp]

theorem returned_of_not_mem (hf : ∀ t, (f t).id = t.id) {id : ℕ}
    (hid : id ∉ s.running.map Sequence.id) :
    (serveAll p f s).2.filter (fun r => r.id = id) = [] := by
  rw [returned_serveAll]
  apply List.filter_eq_nil_iff.mpr
  intro r hr
  obtain ⟨t, ht, hr⟩ := List.mem_flatMap.mp hr
  have hmem := List.mem_map_of_mem (f := Sequence.id) (List.mem_filter.mp ht).1
  simp only [report_id hr, hf, decide_eq_true_eq]
  exact fun heq => hid (heq ▸ hmem)

end Reports
end Scheduler

/-- The sequence with the id runs and is in its prefill. -/
def History.Prefilling (h : History) (id : ℕ) : Prop :=
  ∃ u ∈ h.scheduler.running, u.id = id ∧ u.InSum

instance (h : History) (id : ℕ) : Decidable (h.Prefilling id) :=
  inferInstanceAs (Decidable (∃ u ∈ h.scheduler.running, u.id = id ∧ u.InSum))

namespace Bookkeeping
variable {h : History}

theorem nodup_running (hb : Bookkeeping h) : (h.scheduler.running.map Sequence.id).Nodup := by
  have hnd := hb.runningNodup
  unfold History.running at hnd
  rw [← running_ids] at hnd
  exact Multiset.coe_nodup.mp hnd

theorem mem_running_ids {id : ℕ} :
    id ∈ h.running ↔ id ∈ h.scheduler.running.map Sequence.id := by
  unfold History.running
  rw [← running_ids]
  exact Multiset.mem_coe

/-- The places of an id exclude each other. -/
theorem disjoint (hb : Bookkeeping h) :
    (h.scheduler.sequenceQueue.map Sequence.id).Nodup ∧
    (∀ id ∈ h.scheduler.sequenceQueue.map Sequence.id,
      id ∉ h.scheduler.running.map Sequence.id ∧ id ∉ h.finished) ∧
    ∀ id ∈ h.scheduler.running.map Sequence.id, id ∉ h.finished := by
  have hnd := hb.nodup
  rw [← hb.places] at hnd
  obtain ⟨hqr, -, hqrf⟩ := Multiset.nodup_add.mp hnd
  obtain ⟨hq, -, hdisj⟩ := Multiset.nodup_add.mp hqr
  refine ⟨Multiset.coe_nodup.mp hq, ?_, ?_⟩
  · intro id hid
    have hid : id ∈ h.queued := Multiset.mem_coe.mpr hid
    constructor
    · intro hrun
      exact Multiset.disjoint_left.mp hdisj hid (mem_running_ids.mpr hrun)
    · exact Multiset.disjoint_left.mp hqrf (Multiset.mem_add.mpr (.inl hid))
  · intro id hid
    exact Multiset.disjoint_left.mp hqrf (Multiset.mem_add.mpr (.inr (mem_running_ids.mpr hid)))

end Bookkeeping

/-- The effect of an update call. -/
def Updates (h h' : History) (p : Sequence → Bool) (f : Sequence → Sequence) : Prop :=
  h' = h.update p (serveAll p f h.scheduler) ∧
    ∃ time, ∀ t, f t = t.update time ∨ ∃ now, f t = (t.update time).setGenStartTime now

/-- A running sequence through a call that is not an update. -/
theorem Effect.follow {P : Sequence → Prop} {h h' : History} (heff : Effect h h')
    (hgen : ∀ t time, P t → P (t.setGenStartTime time))
    (hassign : ∀ b t, P t → P (h.scheduler.assignTokens b t)) {u : Sequence}
    (hu : u ∈ h.scheduler.running) (hP : P u) :
    (h'.returned = h.returned ∧ ∃ u' ∈ h'.scheduler.running, u'.id = u.id ∧ P u') ∨
      ∃ p f, Updates h h' p f := by
  obtain ⟨b, hb, hu⟩ := mem_running.mp hu
  cases heff with
  | push hpush =>
    left
    refine ⟨rfl, u, mem_running.mpr ⟨b, ?_, hu⟩, rfl, hP⟩
    rw [hpush.frame]
    exact hb
  | fill hfill =>
    left
    obtain ⟨i, hi, rfl⟩ := List.mem_iff_getElem.mp hb
    have hi' := hfill.grow.length_eq ▸ hi
    obtain ⟨new, heq, -⟩ := (List.forall₂_iff_get.mp hfill.grow).2 i hi hi'
    refine ⟨rfl, u, mem_running.mpr ⟨_, List.getElem_mem hi', ?_⟩, rfl, hP⟩
    simp only [List.get_eq_getElem] at heq
    rw [heq]
    exact List.mem_append_left new hu
  | clock => exact .inl ⟨rfl, u, mem_running.mpr ⟨b, hb, hu⟩, rfl, hP⟩
  | assign =>
    left
    obtain ⟨n, hn⟩ := h.scheduler.assignTokens_eq b u
    refine ⟨rfl, h.scheduler.assignTokens b u, mem_running.mpr ⟨_, List.mem_map_of_mem hb, ?_⟩, ?_,
      hassign b u hP⟩
    · exact List.mem_map_of_mem hu
    · rw [hn]
  | stamp f hf =>
    left
    refine ⟨rfl, f u, mem_running.mpr ⟨_, List.mem_map_of_mem hb, List.mem_map_of_mem hu⟩, ?_⟩
    rcases hf u with heq | ⟨time, heq⟩ <;> rw [heq]
    · exact ⟨rfl, hP⟩
    · exact ⟨rfl, hgen u time hP⟩
  | update p f time hf => exact .inr ⟨p, f, rfl, time, hf⟩

/-- A waiting sequence stays in the queue until it is admitted, stamped with its delay. -/
theorem Effect.follow_waiting {h h' : History} (heff : Effect h h') (hb : Bookkeeping h)
    {t : Sequence} (ht : t ∈ h.scheduler.sequenceQueue) :
    t ∈ h'.scheduler.sequenceQueue ∨
      (h'.returned = h.returned ∧ h.scheduler.stampDelay t ∈ h'.scheduler.running) := by
  cases heff with
  | push hpush =>
    left
    rw [hpush.frame]
    exact List.mem_append_left _ ht
  | @fill k hfill =>
    by_cases htake : t ∈ h.scheduler.sequenceQueue.take k
    · right
      refine ⟨rfl, ?_⟩
      have hid : t.id ∈ runningIds h.scheduler.fillRunningQueue.runningQueue := by
        rw [hfill.ids]
        exact Multiset.mem_add.mpr (.inr (Multiset.mem_coe.mpr (List.mem_map_of_mem htake)))
      rw [← running_ids] at hid
      obtain ⟨u, hu, hid⟩ := List.mem_map.mp (Multiset.mem_coe.mp hid)
      obtain ⟨b', hb', hu'⟩ := mem_running.mp hu
      obtain ⟨i, hi, rfl⟩ := List.mem_iff_getElem.mp hb'
      have hi' : i < h.scheduler.runningQueue.length := hfill.grow.length_eq ▸ hi
      obtain ⟨new, heq, hnew⟩ := (List.forall₂_iff_get.mp hfill.grow).2 i hi' hi
      simp only [List.get_eq_getElem] at heq
      rw [heq] at hu'
      obtain ⟨hnd, hwait, -⟩ := hb.disjoint
      rcases List.mem_append.mp hu' with hold | hold
      · -- the id waited before the call, so it was in no batch
        have hrun : u ∈ h.scheduler.running := mem_running.mpr ⟨_, List.getElem_mem hi', hold⟩
        have hnot := (hwait t.id (List.mem_map_of_mem ht)).1
        exact absurd (List.mem_map.mpr ⟨u, hrun, hid⟩) hnot
      · obtain ⟨t₀, ht₀, rfl⟩ := List.mem_map.mp (hnew.subset hold)
        rw [stampDelay_id] at hid
        obtain rfl := Keyed.eq_of_key_eq hnd (List.mem_of_mem_take ht₀) ht hid
        exact hu
    · left
      change t ∈ (h.scheduler.fillRunningQueue).sequenceQueue
      rw [hfill.frame]
      have hsplit := List.take_append_drop k h.scheduler.sequenceQueue
      rw [← hsplit] at ht
      exact (List.mem_append.mp ht).resolve_left htake
  | clock => exact .inl ht
  | assign => exact .inl ht
  | stamp => exact .inl ht
  | update => exact .inl ht

/-- Waiting sequences are as a push started them. -/
theorem Effect.waiting_started {h h' : History} (heff : Effect h h') {c : SystemConfig}
    {trace : ExpertTrace} (hc : h.scheduler.systemConfig = c) (htrace : h.scheduler.trace = trace)
    (hs : ∀ t ∈ h.scheduler.sequenceQueue, ∃ m, Started c m trace t) :
    ∀ t ∈ h'.scheduler.sequenceQueue, ∃ m, Started c m trace t := by
  cases heff with
  | push hpush =>
    intro t ht
    change t ∈ (_ : Scheduler).sequenceQueue at ht
    rw [hpush.frame] at ht
    rcases List.mem_append.mp ht with ht | ht
    · exact hs t ht
    · subst hc htrace
      exact ⟨_, hpush.all t ht⟩
  | fill hfill =>
    intro t ht
    change t ∈ h.scheduler.fillRunningQueue.sequenceQueue at ht
    rw [hfill.frame] at ht
    exact hs t (List.mem_of_mem_drop ht)
  | clock => exact hs
  | assign => exact hs
  | stamp => exact hs
  | update => exact hs

theorem waiting_started_of_run {h h' : History} {ops : List Op} (hb : Bookkeeping h)
    {c : SystemConfig} {trace : ExpertTrace} (hc : h.scheduler.systemConfig = c)
    (htrace : h.scheduler.trace = trace)
    (hs : ∀ t ∈ h.scheduler.sequenceQueue, ∃ m, Started c m trace t)
    (hrun : Runs.Run History.Step h ops h') :
    ∀ t ∈ h'.scheduler.sequenceQueue, ∃ m, Started c m trace t := by
  induction hrun with
  | nil => exact hs
  | cons hstep _ ih =>
    have heff := hstep.effect hb.distinctIds
    have hset := heff.sameSetup
    exact ih (heff.bookkeeping hb) (hset.systemConfig.trans hc) (hset.trace.trans htrace)
      (heff.waiting_started hc htrace hs)

end LlmSystem
