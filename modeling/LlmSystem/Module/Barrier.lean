import LlmSystem.Module.GraphSteps
import Mathlib.Order.Bounds.Basic

/-!
Barriers: all devices of a group leave a sync module at the latest of their arrival times,
whatever order the devices run in. The flag that the first of them sets for the others is
cleared again when they follow, so that the next run finds no flag left.
-/
namespace LlmSystem

open Runs

variable {N : ℕ} {τ σ : Type}

namespace Graphs

/-- The device has a barrier on the tensor at this position. -/
def SyncAt (C : Graphs N τ σ) (d : Fin N) (p : ℕ) (t : τ) (group : List (Fin N)) : Prop :=
  ∃ n, C.At d p n ∧ n.Syncs t group

/-- Barriers as the modules set them up: the devices of a group have the same barrier at the
same position, and its tensor is made ready by the last module that the device executes
before, and by no earlier one. Forward functions charge no negative time. -/
structure Barriers (C : Graphs N τ σ) : Prop where
  groups : ∀ {d p t group}, C.SyncAt d p t group → d ∈ group ∧
    ∀ e ∈ group, C.SyncAt e p t group
  fresh : ∀ {d p t group}, C.SyncAt d p t group →
    ∃ q < p, (∃ n m, C.At d q n ∧ n.Executes m ∧ t ∈ m.activations) ∧
      ∀ q' < p, q' ≠ q → ∀ n m, C.At d q' n → n.Executes m → q' < q ∧ t ∉ m.activations
  charges : ∀ {d p n m}, C.At d p n → n.Executes m → ∀ (shared : σ) (w : Work τ),
    w.status.Started → 0 ≤ w.execStatus.totalDuration →
    (m.forward shared w).2.status.Started ∧ 0 ≤ (m.forward shared w).2.execStatus.totalDuration

variable {C : Graphs N τ σ}

theorem SyncAt.unique {d : Fin N} {p : ℕ} {t t' : τ} {group group' : List (Fin N)}
    (h : C.SyncAt d p t group) (h' : C.SyncAt d p t' group') : t = t' ∧ group = group' := by
  obtain ⟨n, hat, hn⟩ := h
  obtain ⟨n', hat', hn'⟩ := h'
  obtain rfl := Option.some.inj (hat.symm.trans hat')
  exact hn.unique hn'

theorem SyncAt.not_earlier (hC : C.Barriers) {d : Fin N} {p p' : ℕ} {t : τ}
    {group group' : List (Fin N)} (h : C.SyncAt d p t group) (h' : C.SyncAt d p' t group') :
    ¬p < p' := by
  intro hlt
  obtain ⟨q, hq, ⟨nq, mq, hatq, hmq, htq⟩, -⟩ := hC.fresh h
  obtain ⟨q', hq', -, hlast⟩ := hC.fresh h'
  obtain ⟨n, hat, m, hm, -⟩ := h
  -- the barrier at `p` executes, so what makes the tensor for `p'` is not before it
  have hle : p ≤ q' := by
    by_contra hgt
    have := (hlast p hlt (by omega) n m hat hm).1
    omega
  exact (hlast q (by omega) (by omega) nq mq hatq hmq).2 htq

/-- No tensor is used for two barriers of one device. -/
theorem SyncAt.position (hC : C.Barriers) {d : Fin N} {p p' : ℕ} {t : τ}
    {group group' : List (Fin N)} (h : C.SyncAt d p t group) (h' : C.SyncAt d p' t group') :
    p = p' :=
  Nat.le_antisymm (Nat.le_of_not_lt (h'.not_earlier hC h))
    (Nat.le_of_not_lt (h.not_earlier hC h'))

theorem SyncAt.unset (hC : C.Barriers) {d : Fin N} {p : ℕ} {t : τ} {group : List (Fin N)}
    (h : C.SyncAt d p t group) : C.Unset d t := by
  obtain ⟨q, -, ⟨n, m, hat, hm, ht⟩, -⟩ := hC.fresh h
  exact ⟨n, List.mem_of_getElem? hat, m, hm.1, m.activations_mem t ht⟩

/-! ### The invariant -/

/-- The device has come to the position and has stamped it. -/
def Arrived (s : ClusterState N τ σ) (d : Fin N) (p : ℕ) : Prop :=
  p < (s.device d).current ∨ ((s.device d).current = p ∧ (s.device d).stamped p = true)

/-- The latest arrival of a group. -/
def Latest (s : ClusterState N τ σ) (p : ℕ) (group : List (Fin N)) (time : ℚ) : Prop :=
  IsGreatest (Set.image (fun e => (s.device e).startTime p) {e | e ∈ group}) time

/-- Some device of the group is through. -/
def Opened (s : ClusterState N τ σ) (p : ℕ) (group : List (Fin N)) : Prop :=
  ∃ e ∈ group, p < (s.device e).current

/-- Where a device that does not run can be. -/
def Settled (C : Graphs N τ σ) (s : ClusterState N τ σ) (d : Fin N) : Prop :=
  (s.device d).current = 0 ∨ (s.device d).current = (C.graph d).length ∨
    ((s.device d).stamped (s.device d).current = true ∧
      ∃ n m, C.At d (s.device d).current n ∧ n.Executes m)

/-- What holds while only the devices in `running` are not settled. -/
structure Synced (C : Graphs N τ σ) (running : Set (Fin N)) (s : ClusterState N τ σ) : Prop where
  inGraph : ∀ d, (s.device d).current ≤ (C.graph d).length
  ahead : ∀ d p, (s.device d).current < p → (s.device d).stamped p = false
  settled : ∀ d, d ∉ running → C.Settled s d
  ready : ∀ d t, C.Unset d t →
    ((s.device d).ready t = true ↔ C.MadeBefore d (s.device d).current t)
  flags : ∀ d t, (s.device d).timeboardSynced t = true ↔
    ∃ p group, C.SyncAt d p t group ∧ (s.device d).current ≤ p ∧ Opened s p group
  passed : ∀ {d p t group}, C.SyncAt d p t group → p < (s.device d).current →
    (∀ e ∈ group, Arrived s e p) ∧ Latest s p group ((s.device d).passTime p)
  waiting : ∀ {d p t group}, C.SyncAt d p t group → (s.device d).current = p →
    (s.device d).stamped p = true →
    (Opened s p group → Latest s p group (s.device d).work.status.deviceTime) ∧
    (¬Opened s p group → (s.device d).work.status.deviceTime = (s.device d).startTime p)
  started : ∀ d, (s.device d).work.status.Started ∧ 0 ≤ (s.device d).work.execStatus.totalDuration
  startTime : ∀ d p, 0 ≤ (s.device d).startTime p

theorem Synced.mono {running running' : Set (Fin N)} {s : ClusterState N τ σ}
    (h : C.Synced running s) (hle : running ⊆ running') : C.Synced running' s :=
  { h with settled := fun d hd => h.settled d fun hd' => hd (hle hd') }

/-- A settled device whose tensor for a barrier is ready has come to the barrier: nothing
between the module that makes it and the barrier executes. -/
theorem arrived_of_made (hC : C.Barriers) {s : ClusterState N τ σ} {d : Fin N} {p : ℕ} {t : τ}
    {group : List (Fin N)} (hsync : C.SyncAt d p t group) (hset : C.Settled s d)
    (hmade : C.MadeBefore d (s.device d).current t) : Arrived s d p := by
  obtain ⟨q, hqp, -, hlast⟩ := hC.fresh hsync
  obtain ⟨r, hr, n, m, hat, hm, ht⟩ := hmade
  obtain ⟨n₀, hat₀, -⟩ := hsync
  have hlen : p < (C.graph d).length := (List.getElem?_eq_some_iff.mp hat₀).1
  by_cases hlt : p < (s.device d).current
  · exact .inl hlt
  · have hrq : r = q := by
      by_contra hne
      exact (hlast r (by omega) hne n m hat hm).2 ht
    subst hrq
    rcases hset with hzero | hend | ⟨hstamped, n', m', hat', hm'⟩
    · omega
    · omega
    · have hcur : (s.device d).current = p := by
        by_contra hne
        have := (hlast _ (by omega) (by omega) n' m' hat' hm').1
        omega
      rw [hcur] at hstamped
      exact .inr ⟨hcur, hstamped⟩

/-! ### Stamps -/

theorem Latest.congr {s s' : ClusterState N τ σ} {p : ℕ} {group : List (Fin N)} {time : ℚ}
    (h : Latest s p group time)
    (hsame : ∀ e ∈ group, (s'.device e).startTime p = (s.device e).startTime p) :
    Latest s' p group time := by
  unfold Latest at h ⊢
  rw [Set.image_congr (show ∀ e ∈ {e | e ∈ group}, _ from hsame)]
  exact h

/-- Who is through has seen the whole group arrive. -/
theorem Opened.arrived (hC : C.Barriers) {running : Set (Fin N)} {s : ClusterState N τ σ}
    (hs : C.Synced running s) {d : Fin N} {p : ℕ} {t : τ} {group : List (Fin N)}
    (hsync : C.SyncAt d p t group) (hopen : Opened s p group) : ∀ e ∈ group, Arrived s e p := by
  obtain ⟨e, he, hlt⟩ := hopen
  exact (hs.passed ((hC.groups hsync).2 e he) hlt).1

end Graphs

namespace DeviceState
variable (dramPowers : ProcessorType → DramEnergy) (n : ModuleGraph N τ σ) (x : DeviceState τ)

theorem setStamp_of_stamped (h : x.stamped x.current = true) : x.setStamp dramPowers n = x :=
  if_pos h

/-- Only a new stamp takes the time, and only at the position of the device. -/
theorem setStamp_startTime {p : ℕ} (h : p ≠ x.current ∨ x.stamped x.current = true) :
    (x.setStamp dramPowers n).startTime p = x.startTime p := by
  rcases h with hne | hst
  · unfold setStamp
    split_ifs
    · rfl
    · cases n.module with
      | none => rfl
      | some m => exact Function.update_of_ne hne ..
  · rw [setStamp_of_stamped dramPowers n x hst]

theorem setStamp_arrival {m : Module N τ σ} (hm : n.module = some m)
    (h : x.stamped x.current = false) :
    (x.setStamp dramPowers n).work.status.deviceTime
      = (x.setStamp dramPowers n).startTime x.current := by
  unfold setStamp
  rw [if_neg (by simp [h]), hm]
  simp

theorem setStamp_started (h : x.work.status.Started) (he : 0 ≤ x.work.execStatus.totalDuration) :
    (x.setStamp dramPowers n).work.status.Started ∧
      0 ≤ (x.setStamp dramPowers n).work.execStatus.totalDuration := by
  unfold setStamp
  split_ifs
  · exact ⟨h, he⟩
  · cases n.module with
    | none => exact ⟨h.setPopStatus he .., le_refl _⟩
    | some m => exact ⟨h.setPushStatus _, he⟩

theorem setStamp_startTime_nonneg (h : x.work.status.Started) (hx : ∀ p, 0 ≤ x.startTime p)
    (p : ℕ) : 0 ≤ (x.setStamp dramPowers n).startTime p := by
  by_cases hp : p ≠ x.current ∨ x.stamped x.current = true
  · rw [setStamp_startTime dramPowers n x hp]
    exact hx p
  · obtain ⟨hp, hst⟩ := not_or.mp hp
    obtain rfl := not_not.mp hp
    unfold setStamp
    rw [if_neg hst]
    cases n.module with
    | none => exact hx _
    | some m =>
      show 0 ≤ Function.update x.startTime x.current _ x.current
      rw [Function.update_self]
      exact (h.setPushStatus _).deviceTime

end DeviceState

namespace Graphs
variable {C : Graphs N τ σ} {s s' : ClusterState N τ σ} {d : Fin N}
  {n : ModuleGraph N τ σ}

theorem stamp_device_of_ne {e : Fin N} (h : e ≠ d) (s : ClusterState N τ σ) :
    (C.stamp d n s).device e = s.device e :=
  ClusterState.modify_device_of_ne h ..

theorem stamp_device_self (s : ClusterState N τ σ) :
    (C.stamp d n s).device d = (s.device d).setStamp (C.dramPowers d) n :=
  ClusterState.modify_device_self ..

theorem stamp_stamped (e : Fin N) (p : ℕ) : ((C.stamp d n s).device e).stamped p = true ↔
    (s.device e).stamped p = true ∨ (e = d ∧ p = (s.device d).current) := by
  by_cases hed : e = d
  · subst hed
    obtain ⟨-, -, -, -, hst⟩ := (s.device e).setStamp_frame (C.dramPowers e) n
    rw [stamp_device_self, hst]
    by_cases hp : p = (s.device e).current
    · simp [hp]
    · simp [hp]
  · rw [stamp_device_of_ne hed]
    simp [hed]

theorem Arrived.stamp {e : Fin N} {p : ℕ} (h : Arrived s e p) : Arrived (C.stamp d n s) e p := by
  unfold Arrived at h ⊢
  rw [(stamp_frame n s e).1, stamp_stamped]
  rcases h with hlt | ⟨heq, hst⟩
  · exact .inl hlt
  · exact .inr ⟨heq, .inl hst⟩

/-- Arrival times of devices that have arrived stay. -/
theorem Arrived.stamp_startTime {e : Fin N} {p : ℕ} (h : Arrived s e p) :
    ((C.stamp d n s).device e).startTime p = (s.device e).startTime p := by
  by_cases hed : e = d
  · subst hed
    rw [stamp_device_self]
    apply DeviceState.setStamp_startTime
    rcases h with hlt | ⟨rfl, hst⟩
    · exact .inl hlt.ne
    · exact .inr hst
  · rw [stamp_device_of_ne hed]

theorem stamp_opened {p : ℕ} {group : List (Fin N)} :
    Opened (C.stamp d n s) p group ↔ Opened s p group := by
  unfold Opened
  simp only [(stamp_frame n s _).1]

theorem Synced.stamp (hC : C.Barriers) (hs : C.Synced {d} s)
    (hat : C.At d (s.device d).current n) : C.Synced {d} (C.stamp d n s) where
  inGraph e := by
    rw [(stamp_frame n s e).1]
    exact hs.inGraph e
  ahead e p hp := by
    rw [(stamp_frame n s e).1] at hp
    rw [Bool.eq_false_iff, ne_eq, stamp_stamped]
    rintro (hst | ⟨rfl, rfl⟩)
    · rw [hs.ahead e p hp] at hst
      cases hst
    · exact lt_irrefl _ hp
  settled e he := by
    have hset := hs.settled e he
    unfold Settled at hset ⊢
    rw [stamp_device_of_ne he]
    exact hset
  ready e t ht := by
    rw [(stamp_frame n s e).1, (stamp_frame n s e).2.1]
    exact hs.ready e t ht
  flags e t := by
    rw [(stamp_frame n s e).1, (stamp_frame n s e).2.2.1]
    simp only [stamp_opened]
    exact hs.flags e t
  passed {e p t group} hsync hp := by
    rw [(stamp_frame n s e).1] at hp
    rw [(stamp_frame n s e).2.2.2]
    obtain ⟨harrived, hlatest⟩ := hs.passed hsync hp
    exact ⟨fun e' he' => (harrived e' he').stamp,
      hlatest.congr fun e' he' => (harrived e' he').stamp_startTime⟩
  waiting {e p t group} hsync hp hst := by
    rw [(stamp_frame n s e).1] at hp
    rw [stamp_opened]
    have hclock : (s.device e).stamped p = true →
        ((C.stamp d n s).device e).work.status.deviceTime
          = (s.device e).work.status.deviceTime := by
      intro hold
      by_cases hed : e = d
      · subst hed
        rw [stamp_device_self, DeviceState.setStamp_of_stamped]
        exact hp ▸ hold
      · rw [stamp_device_of_ne hed]
    constructor
    · intro hopen
      have harrived := hopen.arrived hC hs hsync
      have hold : (s.device e).stamped p = true := by
        rcases harrived e (hC.groups hsync).1 with hlt | ⟨-, hst'⟩
        · omega
        · exact hst'
      rw [hclock hold]
      exact ((hs.waiting hsync hp hold).1 hopen).congr fun e' he' =>
        (harrived e' he').stamp_startTime
    · intro hopen
      by_cases hold : (s.device e).stamped p = true
      · have harrived : Arrived s e p := .inr ⟨hp, hold⟩
        rw [hclock hold, harrived.stamp_startTime]
        exact (hs.waiting hsync hp hold).2 hopen
      · -- the device has just arrived
        rcases stamp_stamped e p |>.mp hst with hst | ⟨rfl, rfl⟩
        · exact absurd hst hold
        · obtain ⟨n', hat', m, hm, -⟩ := hsync
          obtain rfl := Option.some.inj (hat.symm.trans hat')
          rw [stamp_device_self]
          exact DeviceState.setStamp_arrival _ _ _ hm.1 (Bool.eq_false_iff.mpr hold)
  started e := by
    by_cases hed : e = d
    · subst hed
      rw [stamp_device_self]
      exact DeviceState.setStamp_started _ _ _ (hs.started e).1 (hs.started e).2
    · rw [stamp_device_of_ne hed]
      exact hs.started e
  startTime e p := by
    by_cases hed : e = d
    · subst hed
      rw [stamp_device_self]
      exact DeviceState.setStamp_startTime_nonneg _ _ _ (hs.started e).1 (hs.startTime e) p
    · rw [stamp_device_of_ne hed]
      exact hs.startTime e p

/-! ### Passing a barrier -/

/-- The device is in the group of the barrier that `d` passes. -/
def Joins (C : Graphs N τ σ) (d : Fin N) (p : ℕ) (e : Fin N) (t : τ) : Prop :=
  ∃ group, C.SyncAt d p t group ∧ e ∈ group

/-- All that the barriers depend on when `d` goes on from its position. -/
structure Passes (C : Graphs N τ σ) (d : Fin N) (n : ModuleGraph N τ σ)
    (s s' : ClusterState N τ σ) : Prop where
  frame : ∀ e, (s'.device e).current = (s.device e).current ∧
    (s'.device e).stamped = (s.device e).stamped ∧
    (s'.device e).startTime = (s.device e).startTime
  ready : ∀ e t, (s'.device e).ready t = true ↔ (s.device e).ready t = true ∨
    (e = d ∧ ∃ m, n.Executes m ∧ t ∈ m.activations)
  passTime : ∀ e p, e ≠ d ∨ p ≠ (s.device d).current →
    (s'.device e).passTime p = (s.device e).passTime p
  clock : ∀ e, e ≠ d → (s'.device e).work.status.deviceTime
      = (s.device e).work.status.deviceTime ∨
    ∃ t, C.Joins d (s.device d).current e t ∧ (s.device e).current = (s.device d).current
  joined : ∀ {t group}, C.SyncAt d (s.device d).current t group →
    Latest s (s.device d).current group ((s'.device d).passTime (s.device d).current) ∧
      ∀ e ∈ group, Arrived s e (s.device d).current ∧
        (e ≠ d → (s.device e).current = (s.device d).current →
          Latest s (s.device d).current group (s'.device e).work.status.deviceTime) ∧
        ((s'.device e).timeboardSynced t = true ↔
          e ≠ d ∧ (s.device e).current = (s.device d).current)
  apart : ∀ e t, ¬C.Joins d (s.device d).current e t →
    (s'.device e).timeboardSynced t = (s.device e).timeboardSynced t
  started : ∀ e, (s'.device e).work.status.Started ∧
    0 ≤ (s'.device e).work.execStatus.totalDuration

theorem madeBefore_succ {p : ℕ} {t : τ} (hat : C.At d p n) : C.MadeBefore d (p + 1) t ↔
    C.MadeBefore d p t ∨ ∃ m, n.Executes m ∧ t ∈ m.activations := by
  constructor
  · rintro ⟨q, hq, n', m, hat', hm⟩
    rcases Nat.lt_succ_iff_lt_or_eq.mp hq with hlt | rfl
    · exact .inl ⟨q, hlt, n', m, hat', hm⟩
    · obtain rfl := Option.some.inj (hat.symm.trans hat')
      exact .inr ⟨m, hm⟩
  · rintro (⟨q, hq, hrest⟩ | ⟨m, hm⟩)
    · exact ⟨q, hq.trans (Nat.lt_succ_self p), hrest⟩
    · exact ⟨p, Nat.lt_succ_self p, n, m, hat, hm⟩

namespace Passes

theorem next_current (h : C.Passes d n s s') (e : Fin N) :
    ((s'.modify d (·.next)).device e).current
      = if e = d then (s.device d).current + 1 else (s.device e).current := by
  split_ifs with hed
  · subst hed
    rw [ClusterState.modify_device_self]
    show (s'.device e).current + 1 = _
    rw [(h.frame e).1]
  · rw [ClusterState.modify_device_of_ne hed]
    exact (h.frame e).1

/-- Apart from the position, going on changes nothing more. -/
theorem next_device (e : Fin N) :
    ((s'.modify d (·.next)).device e).work = (s'.device e).work ∧
      ((s'.modify d (·.next)).device e).stamped = (s'.device e).stamped ∧
      ((s'.modify d (·.next)).device e).ready = (s'.device e).ready ∧
      ((s'.modify d (·.next)).device e).timeboardSynced = (s'.device e).timeboardSynced ∧
      ((s'.modify d (·.next)).device e).startTime = (s'.device e).startTime ∧
      ((s'.modify d (·.next)).device e).passTime = (s'.device e).passTime := by
  by_cases hed : e = d
  · subst hed
    rw [ClusterState.modify_device_self]
    exact ⟨rfl, rfl, rfl, rfl, rfl, rfl⟩
  · rw [ClusterState.modify_device_of_ne hed]
    exact ⟨rfl, rfl, rfl, rfl, rfl, rfl⟩

theorem arrived (h : C.Passes d n s s') {e : Fin N} {p : ℕ} (he : Arrived s e p) :
    Arrived (s'.modify d (·.next)) e p := by
  unfold Arrived at he ⊢
  rw [h.next_current, (next_device e).2.1, (h.frame e).2.1]
  split_ifs with hed
  · subst hed
    rcases he with hlt | ⟨rfl, -⟩
    · exact .inl (by omega)
    · exact .inl (Nat.lt_succ_self _)
  · exact he

theorem latest (h : C.Passes d n s s') {p : ℕ} {group : List (Fin N)} {time : ℚ}
    (ht : Latest s p group time) : Latest (s'.modify d (·.next)) p group time := by
  apply ht.congr
  intro e _
  rw [(next_device e).2.2.2.2.1, (h.frame e).2.2]

/-- Only the barrier that `d` passes can be newly opened. -/
theorem opened (h : C.Passes d n s s') {p : ℕ} {group : List (Fin N)}
    (hp : d ∈ group → p ≠ (s.device d).current) :
    Opened (s'.modify d (·.next)) p group ↔ Opened s p group := by
  unfold Opened
  constructor
  · rintro ⟨e, he, hlt⟩
    rw [h.next_current] at hlt
    refine ⟨e, he, ?_⟩
    split_ifs at hlt with hed
    · subst hed
      have := hp he
      omega
    · exact hlt
  · rintro ⟨e, he, hlt⟩
    refine ⟨e, he, ?_⟩
    rw [h.next_current]
    split_ifs with hed
    · subst hed
      omega
    · exact hlt

theorem opens (h : C.Passes d n s s') {group : List (Fin N)} (hd : d ∈ group) :
    Opened (s'.modify d (·.next)) (s.device d).current group := by
  refine ⟨d, hd, ?_⟩
  rw [h.next_current, if_pos rfl]
  exact Nat.lt_succ_self _

theorem next_flags (hC : C.Barriers) (hs : C.Synced {d} s) (h : C.Passes d n s s') (e : Fin N)
    (t : τ) : ((s'.modify d (·.next)).device e).timeboardSynced t = true ↔
      ∃ p group, C.SyncAt e p t group ∧ ((s'.modify d (·.next)).device e).current ≤ p ∧
        Opened (s'.modify d (·.next)) p group := by
  rw [(next_device e).2.2.2.1, h.next_current]
  by_cases hjoin : C.Joins d (s.device d).current e t
  · obtain ⟨group, hsync, he⟩ := hjoin
    obtain ⟨-, hgroup⟩ := h.joined hsync
    obtain ⟨harrived, -, hflag⟩ := hgroup e he
    have hcur : (s.device d).current ≤ (s.device e).current := by
      rcases harrived with hlt | ⟨heq, -⟩
      · exact hlt.le
      · exact heq.ge
    have hsync' := (hC.groups hsync).2 e he
    rw [hflag]
    constructor
    · rintro ⟨hed, heq⟩
      rw [if_neg hed]
      exact ⟨_, group, hsync', heq.le, h.opens (hC.groups hsync).1⟩
    · rintro ⟨p, group', hp, hle, -⟩
      obtain rfl := hp.position hC hsync'
      split_ifs at hle with hed
      · omega
      · exact ⟨hed, Nat.le_antisymm hle hcur⟩
  · have hother : ∀ {p group}, C.SyncAt e p t group → d ∈ group → p ≠ (s.device d).current := by
      rintro p group hp hd rfl
      exact hjoin ⟨group, (hC.groups hp).2 d hd, (hC.groups hp).1⟩
    rw [h.apart e t hjoin, hs.flags e t]
    refine exists_congr fun p => exists_congr fun group => and_congr_right fun hp => ?_
    rw [h.opened (hother hp)]
    apply and_congr_left
    intro _
    split_ifs with hed
    · subst hed
      have := hother hp (hC.groups hp).1
      omega
    · rfl

theorem next_passed (hs : C.Synced {d} s) (h : C.Passes d n s s')
    {e : Fin N} {p : ℕ} {t : τ} {group : List (Fin N)} (hsync : C.SyncAt e p t group)
    (hp : p < ((s'.modify d (·.next)).device e).current) :
    (∀ e' ∈ group, Arrived (s'.modify d (·.next)) e' p) ∧
      Latest (s'.modify d (·.next)) p group (((s'.modify d (·.next)).device e).passTime p) := by
  rw [h.next_current] at hp
  rw [(next_device e).2.2.2.2.2]
  by_cases hhere : e = d ∧ p = (s.device d).current
  · obtain ⟨rfl, rfl⟩ := hhere
    obtain ⟨hlatest, hgroup⟩ := h.joined hsync
    exact ⟨fun e' he' => h.arrived (hgroup e' he').1, h.latest hlatest⟩
  · have hlt : p < (s.device e).current := by
      split_ifs at hp with hed
      · subst hed
        have : p ≠ (s.device e).current := fun heq => hhere ⟨rfl, heq⟩
        omega
      · exact hp
    obtain ⟨harrived, hlatest⟩ := hs.passed hsync hlt
    rw [h.passTime e p (not_and_or.mp hhere)]
    exact ⟨fun e' he' => h.arrived (harrived e' he'), h.latest hlatest⟩

theorem next_waiting (hC : C.Barriers) (hs : C.Synced {d} s) (h : C.Passes d n s s')
    {e : Fin N} {p : ℕ} {t : τ} {group : List (Fin N)} (hsync : C.SyncAt e p t group)
    (hp : ((s'.modify d (·.next)).device e).current = p)
    (hst : ((s'.modify d (·.next)).device e).stamped p = true) :
    (Opened (s'.modify d (·.next)) p group → Latest (s'.modify d (·.next)) p group
        ((s'.modify d (·.next)).device e).work.status.deviceTime) ∧
      (¬Opened (s'.modify d (·.next)) p group →
        ((s'.modify d (·.next)).device e).work.status.deviceTime
          = ((s'.modify d (·.next)).device e).startTime p) := by
  rw [h.next_current] at hp
  obtain ⟨hwork, hstamped, -, -, hstart, -⟩ :
      ((s'.modify d (·.next)).device e).work = (s'.device e).work ∧ _ := next_device e
  rw [hstamped, (h.frame e).2.1] at hst
  rw [hwork, hstart, (h.frame e).2.2]
  by_cases hed : e = d
  · -- the position after is not stamped yet
    subst hed
    rw [if_pos rfl] at hp
    have := hs.ahead e p (by omega)
    rw [hst] at this
    cases this
  · rw [if_neg hed] at hp
    by_cases hhere : d ∈ group ∧ p = (s.device d).current
    · obtain ⟨hd, rfl⟩ := hhere
      have hsync' := (hC.groups hsync).2 d hd
      obtain ⟨-, hgroup⟩ := h.joined hsync'
      have hlatest := (hgroup e (hC.groups hsync).1).2.1 hed hp
      exact ⟨fun _ => h.latest hlatest, fun hopen => absurd (h.opens hd) hopen⟩
    · have hclock : (s'.device e).work.status.deviceTime
          = (s.device e).work.status.deviceTime := by
        rcases h.clock e hed with hsame | ⟨t', ⟨group', hsync', he⟩, hcur⟩
        · exact hsame
        · have hgroup := hC.groups hsync'
          have hp' : p = (s.device d).current := hp.symm.trans hcur
          subst hp'
          obtain ⟨-, rfl⟩ := hsync.unique (hgroup.2 e he)
          exact absurd ⟨hgroup.1, rfl⟩ hhere
      obtain ⟨hopened, hclosed⟩ := hs.waiting hsync hp hst
      rw [h.opened fun hd hp' => hhere ⟨hd, hp'⟩, hclock]
      exact ⟨fun hopen => h.latest (hopened hopen), hclosed⟩

theorem synced (hC : C.Barriers) (hs : C.Synced {d} s) (hat : C.At d (s.device d).current n)
    (h : C.Passes d n s s') : C.Synced {d} (s'.modify d (·.next)) where
  inGraph e := by
    rw [h.next_current]
    split_ifs with hed
    · subst hed
      exact (List.getElem?_eq_some_iff.mp hat).1
    · exact hs.inGraph e
  ahead e p hp := by
    rw [h.next_current] at hp
    rw [(next_device e).2.1, (h.frame e).2.1]
    apply hs.ahead
    split_ifs at hp with hed
    · subst hed
      omega
    · exact hp
  settled e he := by
    have hed : e ≠ d := he
    have hset := hs.settled e he
    unfold Settled at hset ⊢
    rw [ClusterState.modify_device_of_ne hed, (h.frame e).1, (h.frame e).2.1]
    exact hset
  ready e t ht := by
    rw [(next_device e).2.2.1, h.next_current, h.ready, hs.ready e t ht]
    split_ifs with hed
    · subst hed
      rw [madeBefore_succ hat]
      simp
    · simp [hed]
  flags e t := h.next_flags hC hs e t
  passed hsync hp := h.next_passed hs hsync hp
  waiting hsync hp hst := h.next_waiting hC hs hsync hp hst
  started e := by
    rw [(next_device e).1]
    exact h.started e
  startTime e p := by
    rw [(next_device e).2.2.2.2.1, (h.frame e).2.2]
    exact hs.startTime e p

end Passes

end Graphs
end LlmSystem
