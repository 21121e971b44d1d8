import LlmSystem.Module.Barrier
import Mathlib.Tactic.Linarith

/-!
Runs of devices with barriers, over any number of restarts. The first device through a barrier
sets its group to the latest arrival; the others find the flag and keep that clock.
-/
namespace LlmSystem

open Runs

variable {N : ℕ} {τ σ : Type}

theorem foldl_max_isGreatest_insert {α : Type*} (f : α → ℚ) (l : List α) (bound : ℚ) :
    IsGreatest (insert bound (Set.image f {a | a ∈ l}))
      (l.foldl (fun time a => max time (f a)) bound) := by
  induction l generalizing bound with
  | nil => simp
  | cons a l ih =>
    obtain ⟨hmem, hub⟩ := ih (max bound (f a))
    rw [List.foldl_cons]
    constructor
    · rcases hmem with heq | ⟨b, hb, heq⟩
      · rw [heq]
        rcases max_choice bound (f a) with hmax | hmax
        · exact .inl hmax
        · exact .inr ⟨a, List.mem_cons_self, hmax.symm⟩
      · exact .inr ⟨b, List.mem_cons_of_mem a hb, heq⟩
    · have hmax := hub (Set.mem_insert _ _)
      rintro x (rfl | ⟨b, hb, rfl⟩)
      · exact (le_max_left _ _).trans hmax
      · rcases List.mem_cons.mp hb with rfl | hb
        · exact (le_max_right _ _).trans hmax
        · exact hub (.inr ⟨b, hb, rfl⟩)

theorem foldl_max_isGreatest {α : Type*} {f : α → ℚ} {l : List α} (hl : l ≠ [])
    (hf : ∀ a ∈ l, 0 ≤ f a) :
    IsGreatest (Set.image f {a | a ∈ l}) (l.foldl (fun time a => max time (f a)) 0) := by
  obtain ⟨hmem, hub⟩ := foldl_max_isGreatest_insert f l 0
  refine ⟨?_, fun x hx => hub (.inr hx)⟩
  rcases hmem with hzero | hmem
  · -- the start 0 is reached by a member where it is the maximum
    obtain ⟨a, ha⟩ := List.exists_mem_of_ne_nil l hl
    refine ⟨a, ha, le_antisymm (hub (.inr ⟨a, ha, rfl⟩)) ?_⟩
    rw [hzero]
    exact hf a ha
  · exact hmem

namespace Graphs

variable [DecidableEq τ] {C : Graphs N τ σ} {s s' : ClusterState N τ σ} {d : Fin N}
  {n : ModuleGraph N τ σ} {m : Module N τ σ}

omit [DecidableEq τ] in
/-- Whom a barrier of the device at `n` is for. -/
theorem syncAt_iff (hat : C.At d (s.device d).current n) {t : τ} {group : List (Fin N)} :
    C.SyncAt d (s.device d).current t group ↔ n.Syncs t group := by
  constructor
  · rintro ⟨n', hat', hn⟩
    obtain rfl := Option.some.inj (hat.symm.trans hat')
    exact hn
  · exact fun hn => ⟨n, hat, hn⟩

/-- Going on where there is no barrier. -/
theorem passes_of_apart (hs : C.Synced {d} s) (hat : C.At d (s.device d).current n)
    (hapart : ∀ t group, ¬n.Syncs t group) (hout : n.Outcome d s true s')
    (hother : ∀ e, e ≠ d → s'.device e = s.device e)
    (hflags : (s'.device d).timeboardSynced = (s.device d).timeboardSynced)
    (hpass : ∀ p, p ≠ (s.device d).current → (s'.device d).passTime p = (s.device d).passTime p)
    (hstarted : (s'.device d).work.status.Started ∧
      0 ≤ (s'.device d).work.execStatus.totalDuration) : C.Passes d n s s' where
  frame := hout.frame
  ready e t := by
    rw [hout.ready]
    simp
  passTime e p hp := by
    by_cases hed : e = d
    · subst hed
      exact hpass p (hp.resolve_left fun hne => hne rfl)
    · rw [hother e hed]
  clock e he := by
    left
    rw [hother e he]
  joined hsync := absurd ((syncAt_iff hat).mp hsync) (hapart _ _)
  apart e t _ := by
    by_cases hed : e = d
    · subst hed
      rw [hflags]
    · rw [hother e hed]
  started e := by
    by_cases hed : e = d
    · subst hed
      exact hstarted
    · rw [hother e hed]
      exact hs.started e

/-- The state that the forward of the device starts from. -/
theorem forward_started (hC : C.Barriers) (hat : C.At d (s.device d).current n)
    (hm : n.Executes m) {s₁ : ClusterState N τ σ} (h : ((s₁.device d).work.status.Started) ∧
      0 ≤ (s₁.device d).work.execStatus.totalDuration) :
    ((ModuleGraph.forward m d s₁).device d).work.status.Started ∧
      0 ≤ ((ModuleGraph.forward m d s₁).device d).work.execStatus.totalDuration := by
  rw [ModuleGraph.forward_device_self]
  exact hC.charges hat hm s₁.shared _ h.1 h.2

/-- What a barrier leaves of a device before the forward: all as it was, or the clock set and
the flag raised, if it waits. -/
def Reset (s : ClusterState N τ σ) (p : ℕ) (t : τ) (group : List (Fin N)) (e : Fin N)
    (x : DeviceState τ) : Prop :=
  x = s.device e ∨
    (e ∈ group ∧ (s.device e).current = p ∧ ∃ time, 0 ≤ time ∧ x = (s.device e).syncTo t time)

theorem Reset.frame {p : ℕ} {t : τ} {group : List (Fin N)} {e : Fin N} {x : DeviceState τ}
    (h : Reset s p t group e x) : x.current = (s.device e).current ∧
      x.passTime = (s.device e).passTime ∧
      ∀ t', t' ≠ t → x.timeboardSynced t' = (s.device e).timeboardSynced t' := by
  rcases h with rfl | ⟨-, -, time, -, rfl⟩
  · exact ⟨rfl, rfl, fun _ _ => rfl⟩
  · exact ⟨rfl, rfl, fun t' ht => Function.update_of_ne ht ..⟩

theorem Reset.started {running : Set (Fin N)} (hs : C.Synced running s) {p : ℕ} {t : τ}
    {group : List (Fin N)} {e : Fin N} {x : DeviceState τ} (h : Reset s p t group e x) :
    x.work.status.Started ∧ 0 ≤ x.work.execStatus.totalDuration := by
  obtain ⟨hstarted, hexec⟩ := hs.started e
  rcases h with rfl | ⟨-, -, time, htime, rfl⟩
  · exact ⟨hstarted, hexec⟩
  · exact ⟨⟨htime, hstarted.highTime, hstarted.lowTime⟩, hexec⟩

/-- Going on through a barrier that the whole group has come to. -/
theorem passes_of_sync (hC : C.Barriers) (hs : C.Synced {d} s)
    (hat : C.At d (s.device d).current n) (hm : n.Executes m) {t : τ} {group : List (Fin N)}
    (hn : n.Syncs t group) {b : ClusterState N τ σ}
    (hout : n.Outcome d s true (ModuleGraph.forward m d
      ((b.modify d (·.clearSynced t)).modify d (·.recordPass))))
    (hreset : ∀ e, Reset s (s.device d).current t group e (b.device e))
    (harrived : ∀ e ∈ group, Arrived s e (s.device d).current)
    (hlatest : ∀ e ∈ group, (s.device e).current = (s.device d).current →
      Latest s (s.device d).current group (b.device e).work.status.deviceTime)
    (hflag : ∀ e ∈ group, e ≠ d → ((b.device e).timeboardSynced t = true ↔
      (s.device e).current = (s.device d).current)) :
    C.Passes d n s (ModuleGraph.forward m d
      ((b.modify d (·.clearSynced t)).modify d (·.recordPass))) := by
  have hsync : C.SyncAt d (s.device d).current t group := (syncAt_iff hat).mpr hn
  have hother : ∀ e, e ≠ d → (ModuleGraph.forward m d
      ((b.modify d (·.clearSynced t)).modify d (·.recordPass))).device e = b.device e := by
    intro e he
    rw [ModuleGraph.forward_device_of_ne _ he, ClusterState.modify_device_of_ne he,
      ClusterState.modify_device_of_ne he]
  have hself : ∃ work, (ModuleGraph.forward m d
      ((b.modify d (·.clearSynced t)).modify d (·.recordPass))).device d
        = (((b.device d).clearSynced t).recordPass).finish m.activations work := by
    rw [ModuleGraph.forward_device_self, ClusterState.modify_device_self,
      ClusterState.modify_device_self]
    exact ⟨_, rfl⟩
  obtain ⟨hcurd, hpassd, hflagd⟩ := (hreset d).frame
  constructor
  · exact hout.frame
  · intro e t'
    rw [hout.ready]
    simp
  · intro e p hp
    by_cases hed : e = d
    · subst hed
      have hne : p ≠ (s.device e).current := hp.resolve_left fun hne => hne rfl
      obtain ⟨work, hdev⟩ := hself
      rw [hdev, ← hpassd]
      exact Function.update_of_ne (hcurd ▸ hne) ..
    · rw [hother e hed, (hreset e).frame.2.1]
  · intro e he
    rw [hother e he]
    rcases hreset e with hsame | ⟨hmem, hcur, -⟩
    · left
      rw [hsame]
    · exact .inr ⟨t, ⟨group, hsync, hmem⟩, hcur⟩
  · intro t' group' hsync'
    obtain ⟨rfl, rfl⟩ := hsync.unique hsync'
    constructor
    · obtain ⟨work, hdev⟩ := hself
      have hpass := hlatest d (hC.groups hsync).1 rfl
      rw [hdev]
      show Latest s _ group (Function.update (b.device d).passTime (b.device d).current _ _)
      rw [hcurd, Function.update_self]
      exact hpass
    · intro e he
      refine ⟨harrived e he, fun hed hcur => ?_, ?_⟩
      · rw [hother e hed]
        exact hlatest e he hcur
      · by_cases hed : e = d
        · subst hed
          obtain ⟨work, hdev⟩ := hself
          rw [hdev]
          show Function.update (b.device e).timeboardSynced t false t = true ↔ _
          simp
        · rw [hother e hed, hflag e he hed]
          simp [hed]
  · intro e t' hapart
    by_cases hed : e = d
    · subst hed
      have hne : t' ≠ t := by
        rintro rfl
        exact hapart ⟨group, hsync, (hC.groups hsync).1⟩
      obtain ⟨work, hdev⟩ := hself
      rw [hdev, ← hflagd t' hne]
      exact Function.update_of_ne hne ..
    · rw [hother e hed]
      by_cases hne : t' = t
      · subst hne
        rcases hreset e with hsame | ⟨hmem, -⟩
        · rw [hsame]
        · exact absurd ⟨group, hsync, hmem⟩ hapart
      · exact (hreset e).frame.2.2 t' hne
  · intro e
    by_cases hed : e = d
    · subst hed
      apply forward_started hC hat hm
      rw [ClusterState.modify_device_self, ClusterState.modify_device_self]
      exact (hreset e).started hs
    · rw [hother e hed]
      exact (hreset e).started hs

omit [DecidableEq τ] in
/-- The barrier is ready only when the whole group has come to it. -/
theorem arrived_of_ready (hC : C.Barriers) (hs : C.Synced {d} s)
    (hst : (s.device d).stamped (s.device d).current = true) {t : τ} {group : List (Fin N)}
    (hsync : C.SyncAt d (s.device d).current t group)
    (hready : ∀ e ∈ group, (s.device e).ready t = true) :
    ∀ e ∈ group, Arrived s e (s.device d).current := by
  intro e he
  by_cases hed : e = d
  · subst hed
    exact .inr ⟨rfl, hst⟩
  · have hsync' := (hC.groups hsync).2 e he
    apply arrived_of_made hC hsync' (hs.settled e hed)
    exact (hs.ready e t (hsync'.unset hC)).mp (hready e he)

omit [DecidableEq τ] in
/-- The flag of the barrier is that of an opened one. -/
theorem flag_iff (hC : C.Barriers) {running : Set (Fin N)} (hs : C.Synced running s)
    {e : Fin N} {p : ℕ} {t : τ} {group : List (Fin N)} (hsync : C.SyncAt e p t group) :
    (s.device e).timeboardSynced t = true ↔ (s.device e).current ≤ p ∧ Opened s p group := by
  rw [hs.flags]
  constructor
  · rintro ⟨p', group', hsync', hle, hopen⟩
    obtain rfl := hsync'.position hC hsync
    obtain ⟨-, rfl⟩ := hsync.unique hsync'
    exact ⟨hle, hopen⟩
  · exact fun h => ⟨p, group, hsync, h⟩

/-- The first one through finds everybody at the barrier. -/
theorem passes_syncFirst (hC : C.Barriers) (hs : C.Synced {d} s)
    (hst : (s.device d).stamped (s.device d).current = true)
    (hat : C.At d (s.device d).current n) (hm : n.Executes m) (hsync : m.sync = true) {t : τ}
    (ht : n.input = .tensor t) (hready : ∀ e ∈ m.deviceList, (s.device e).ready t = true)
    (hfirst : (s.device d).timeboardSynced t = false) :
    C.Passes d n s (ModuleGraph.forward m d
      (((ModuleGraph.syncGroup t m.deviceList (ModuleGraph.groupTime m.deviceList s) s).modify d
        (·.clearSynced t)).modify d (·.recordPass))) := by
  have hn : n.Syncs t m.deviceList := ⟨m, hm, hsync, rfl, ht⟩
  have hsync' : C.SyncAt d (s.device d).current t m.deviceList := (syncAt_iff hat).mpr hn
  have harrived := arrived_of_ready hC hs hst hsync' hready
  have hclosed : ¬Opened s (s.device d).current m.deviceList := by
    intro hopen
    rw [(flag_iff hC hs hsync').mpr ⟨le_refl _, hopen⟩] at hfirst
    cases hfirst
  have hhere : ∀ e ∈ m.deviceList, (s.device e).current = (s.device d).current ∧
      (s.device e).work.status.deviceTime = (s.device e).startTime (s.device d).current := by
    intro e he
    rcases harrived e he with hlt | ⟨hcur, hste⟩
    · exact absurd ⟨e, he, hlt⟩ hclosed
    · exact ⟨hcur, (hs.waiting ((hC.groups hsync').2 e he) hcur hste).2 hclosed⟩
  have hlatest : Latest s (s.device d).current m.deviceList
      (ModuleGraph.groupTime m.deviceList s) := by
    have hgreatest := foldl_max_isGreatest (List.ne_nil_of_mem (hC.groups hsync').1)
      fun e (_ : e ∈ m.deviceList) => (hs.started e).1.deviceTime
    unfold Latest
    rw [← Set.image_congr (show ∀ e ∈ {e | e ∈ m.deviceList}, _ from fun e he => (hhere e he).2)]
    exact hgreatest
  have hdevice : ∀ e ∈ m.deviceList, (ModuleGraph.syncGroup t m.deviceList
      (ModuleGraph.groupTime m.deviceList s) s).device e
        = (s.device e).syncTo t (ModuleGraph.groupTime m.deviceList s) := by
    intro e he
    rw [ModuleGraph.syncGroup_device, if_pos he]
  have hnonneg : 0 ≤ ModuleGraph.groupTime m.deviceList s := by
    obtain ⟨e, -, he⟩ := hlatest.1
    rw [← he]
    exact hs.startTime e _
  apply passes_of_sync hC hs hat hm hn
  · exact .syncFirst hm hsync ht hready hfirst
  · intro e
    by_cases he : e ∈ m.deviceList
    · exact .inr ⟨he, (hhere e he).1, _, hnonneg, hdevice e he⟩
    · left
      rw [ModuleGraph.syncGroup_device, if_neg he]
  · exact harrived
  · intro e he _
    rw [hdevice e he]
    exact hlatest
  · intro e he _
    rw [hdevice e he]
    show Function.update (s.device e).timeboardSynced t true t = true ↔ _
    simp [(hhere e he).1]

/-- The others still have the clock that the first one gave them. -/
theorem passes_syncLater (hC : C.Barriers) (hs : C.Synced {d} s)
    (hat : C.At d (s.device d).current n) (hm : n.Executes m) (hsync : m.sync = true) {t : τ}
    (ht : n.input = .tensor t) (hready : ∀ e ∈ m.deviceList, (s.device e).ready t = true)
    (hlater : (s.device d).timeboardSynced t = true) :
    C.Passes d n s (ModuleGraph.forward m d
      ((s.modify d (·.clearSynced t)).modify d (·.recordPass))) := by
  have hn : n.Syncs t m.deviceList := ⟨m, hm, hsync, rfl, ht⟩
  have hsync' : C.SyncAt d (s.device d).current t m.deviceList := (syncAt_iff hat).mpr hn
  have hopen : Opened s (s.device d).current m.deviceList :=
    ((flag_iff hC hs hsync').mp hlater).2
  have harrived := hopen.arrived hC hs hsync'
  apply passes_of_sync hC hs hat hm hn
  · exact .syncLater hm hsync ht hready hlater
  · exact fun e => .inl rfl
  · exact harrived
  · intro e he hcur
    rcases harrived e he with hlt | ⟨-, hste⟩
    · omega
    · exact (hs.waiting ((hC.groups hsync').2 e he) hcur hste).1 hopen
  · intro e he _
    rw [flag_iff hC hs ((hC.groups hsync').2 e he)]
    constructor
    · rintro ⟨hle, -⟩
      rcases harrived e he with hlt | ⟨hcur, -⟩
      · omega
      · exact hcur
    · exact fun hcur => ⟨hcur.le, hopen⟩

theorem passes_of_outcome (hC : C.Barriers) (hs : C.Synced {d} s)
    (hst : (s.device d).stamped (s.device d).current = true)
    (hat : C.At d (s.device d).current n) (hout : n.Outcome d s true s') :
    C.Passes d n s s' := by
  cases hout with
  | skip hskip =>
    refine passes_of_apart hs hat ?_ (.skip hskip) (fun _ _ => rfl) rfl (fun _ _ => rfl)
      (hs.started d)
    rintro t group ⟨m, hm, -⟩
    exact hskip m hm
  | @forward m hm hsync =>
    apply passes_of_apart hs hat
    · rintro t group ⟨m', hm', hsync', -⟩
      obtain rfl := hm.unique hm'
      rw [hsync] at hsync'
      cases hsync'
    · exact .forward hm hsync
    · intro e he
      rw [ModuleGraph.forward_device_of_ne _ he, ClusterState.modify_device_of_ne he]
    · rw [ModuleGraph.forward_device_self, ClusterState.modify_device_self]
      rfl
    · intro p hp
      rw [ModuleGraph.forward_device_self, ClusterState.modify_device_self]
      exact Function.update_of_ne hp ..
    · apply forward_started hC hat hm
      rw [ClusterState.modify_device_self]
      exact hs.started d
  | syncFirst hm hsync ht hready hfirst =>
    exact passes_syncFirst hC hs hst hat hm hsync ht hready hfirst
  | syncLater hm hsync ht hready hlater =>
    exact passes_syncLater hC hs hat hm hsync ht hready hlater

/-! ### Runs -/

theorem Synced.run (hC : C.Barriers) (hs : C.Synced ∅ s) (h : C.run d s = .ok s') :
    C.Synced ∅ s' := by
  have hstamp : ∀ n x, C.Synced {d} x → C.At d (x.device d).current n →
      C.Synced {d} (C.stamp d n x) ∧ C.At d ((C.stamp d n x).device d).current n ∧
        ((C.stamp d n x).device d).stamped ((C.stamp d n x).device d).current = true := by
    intro n x hx hat
    rw [(stamp_frame n x d).1]
    exact ⟨hx.stamp hC hat, hat, (stamp_stamped d _).mpr (.inr ⟨rfl, rfl⟩)⟩
  have hrest : ∀ x, C.Synced {d} x → C.Settled x d → C.Synced ∅ x := by
    intro x hx hset
    refine { hx with settled := fun e _ => ?_ }
    by_cases hed : e = d
    · exact hed ▸ hset
    · exact hx.settled e hed
  refine run_rule (I := C.Synced {d}) (J := C.Synced ∅) ?_ ?_ ?_ (hs.mono (Set.empty_subset _))
    (hs.inGraph d) h
  · exact fun x hx hend => hrest x hx (.inr (.inl hend))
  · intro n x x' hx hat hout
    obtain ⟨hx', hat', hst⟩ := hstamp n x hx hat
    cases hout with
    | block hm hblocked => exact hrest _ hx' (.inr (.inr ⟨hst, n, _, hat', hm⟩))
  · intro n x x' hx hat hout
    obtain ⟨hx', hat', hst⟩ := hstamp n x hx hat
    exact (passes_of_outcome hC hx' hst hat' hout).synced hC hx' hat'

/-- At the start of the graphs no flag may be left. -/
theorem synced_of_restart (hflags : ∀ d t, (s.device d).timeboardSynced t = false)
    (hexec : ∀ d, 0 ≤ (s.device d).work.execStatus.totalDuration)
    (h : C.restartModuleGraph s = .ok s') : C.Synced ∅ s' := by
  have hdevice : ∀ d, ∃ root, s'.device d
      = (s.device d).restart root fun t => decide (C.Unset d t) := by
    intro d
    obtain ⟨n, root, -, -, hdev⟩ := restartModuleGraph_device h d
    exact ⟨root, hdev⟩
  have hcur : ∀ d, (s'.device d).current = 0 := fun d => by
    obtain ⟨root, hdev⟩ := hdevice d
    rw [hdev]
    rfl
  have hstamped : ∀ d p, (s'.device d).stamped p = false := fun d p => by
    obtain ⟨root, hdev⟩ := hdevice d
    rw [hdev]
    rfl
  constructor
  · intro d
    rw [hcur]
    exact Nat.zero_le _
  · exact fun d p _ => hstamped d p
  · exact fun d _ => .inl (hcur d)
  · intro d t ht
    obtain ⟨root, hdev⟩ := hdevice d
    constructor
    · intro hready
      rw [hdev] at hready
      simp [DeviceState.restart, ht] at hready
    · rw [hcur]
      rintro ⟨q, hq, -⟩
      exact absurd hq (Nat.not_lt_zero q)
  · intro d t
    obtain ⟨root, hdev⟩ := hdevice d
    constructor
    · intro hflag
      rw [hdev] at hflag
      have hold : (s.device d).timeboardSynced t = true := hflag
      rw [hflags] at hold
      cases hold
    · rintro ⟨p, group, -, -, e, -, hlt⟩
      rw [hcur] at hlt
      exact absurd hlt (Nat.not_lt_zero p)
  · intro d p t group _ hp
    rw [hcur] at hp
    exact absurd hp (Nat.not_lt_zero p)
  · intro d p t group _ _ hst
    rw [hstamped] at hst
    cases hst
  · intro d
    obtain ⟨root, hdev⟩ := hdevice d
    rw [hdev]
    exact ⟨⟨le_refl _, le_refl _, le_refl _⟩, hexec d⟩
  · intro d p
    obtain ⟨root, hdev⟩ := hdevice d
    rw [hdev]
    exact le_refl _

omit [DecidableEq τ] in
/-- The runs leave no flag behind, so a restart need not clear any. -/
theorem Synced.flags_clear (hs : C.Synced ∅ s) (hend : ∀ d, ¬C.Remains s d) (d : Fin N) (t : τ) :
    (s.device d).timeboardSynced t = false := by
  rw [Bool.eq_false_iff, ne_eq, hs.flags]
  rintro ⟨p, group, ⟨n, hat, -⟩, hle, -⟩
  have hlen : p < (C.graph d).length := (List.getElem?_eq_some_iff.mp hat).1
  have := not_not.mp (hend d)
  omega

/-- A device runs, in any order, or the graphs start again after all have ended. Between two
iterations the shared state can change. -/
inductive Step (C : Graphs N τ σ) :
    ClusterState N τ σ → Option (Fin N) → ClusterState N τ σ → Prop
  | run {s₁ s₂ : ClusterState N τ σ} {d : Fin N} (h : C.run d s₁ = .ok s₂) : Step C s₁ (some d) s₂
  | restart {s₁ s₂ : ClusterState N τ σ} {shared : σ} (hend : ∀ d, ¬C.Remains s₁ d)
      (h : C.restartModuleGraph { s₁ with shared } = .ok s₂) : Step C s₁ none s₂

/-- The first restart, of a cluster that has executed nothing. -/
def Init (C : Graphs N τ σ) (s₀ : ClusterState N τ σ) : Prop :=
  ∃ s, (∀ d, (s.device d).work.execStatus = {} ∧ ∀ t, (s.device d).timeboardSynced t = false) ∧
    C.restartModuleGraph s = .ok s₀

theorem Synced.step (hC : C.Barriers) {a : Option (Fin N)} (hs : C.Synced ∅ s)
    (h : C.Step s a s') : C.Synced ∅ s' := by
  cases h with
  | run h => exact hs.run hC h
  | @restart _ shared hend h =>
    have hexec : ∀ d, 0 ≤ (s.device d).work.execStatus.totalDuration := fun d => (hs.started d).2
    exact synced_of_restart (s := { s with shared }) (hs.flags_clear hend) hexec h

theorem Init.synced (h : C.Init s) : C.Synced ∅ s := by
  obtain ⟨s₁, hnew, hrestart⟩ := h
  apply synced_of_restart (fun d => (hnew d).2) _ hrestart
  intro d
  rw [(hnew d).1]

theorem reachable_synced (hC : C.Barriers) (h : Reachable C.Init C.Step s) : C.Synced ∅ s :=
  h.invariant (fun _ h0 => h0.synced) fun _ _ _ hs hstep => hs.step hC hstep

/-- Whatever the order of the runs, a device that is through a barrier left it at the latest of
the arrivals of its group; and where the whole group is through, all flags of its tensors are
cleared. -/
theorem barrier_correct (hC : C.Barriers) (h : Reachable C.Init C.Step s) {p : ℕ} {t : τ}
    {group : List (Fin N)} (hsync : C.SyncAt d p t group) :
    (p < (s.device d).current →
      IsGreatest (Set.image (fun e => (s.device e).startTime p) {e | e ∈ group})
        ((s.device d).passTime p)) ∧
    ((∀ e ∈ group, p < (s.device e).current) →
      ∀ e ∈ group, (s.device e).timeboardSynced t = false) := by
  have hs := reachable_synced hC h
  constructor
  · exact fun hp => (hs.passed hsync hp).2
  · intro hthrough e he
    rw [Bool.eq_false_iff, ne_eq, flag_iff hC hs ((hC.groups hsync).2 e he)]
    rintro ⟨hle, -⟩
    have := hthrough e he
    omega

theorem twoDevices_barriers : twoDevices.Barriers where
  groups {d p t group} h := by
    obtain ⟨rfl, rfl, rfl⟩ := twoDevices_syncAt.mp h
    refine ⟨?_, fun e _ => twoDevices_syncAt.mpr ⟨rfl, rfl, rfl⟩⟩
    clear h
    revert d
    decide
  fresh {d p t group} h := by
    obtain ⟨rfl, rfl, rfl⟩ := twoDevices_syncAt.mp h
    refine ⟨0, by decide, ⟨_, _, rfl, ⟨rfl, rfl⟩, List.mem_singleton_self 1⟩, ?_⟩
    intro q hq hne n m hat hm
    rcases twoDevices_executes hat hm with ⟨rfl, -⟩ | ⟨rfl, -⟩
    · exact absurd rfl hne
    · omega
  charges {d p n m} hat hm shared w hw hexec := by
    rcases twoDevices_executes hat hm with ⟨-, -, -, hforward⟩ | ⟨-, -, -, -, hforward⟩
    · rw [hforward]
      exact ⟨⟨add_nonneg hw.deviceTime (Nat.cast_nonneg _), hw.highTime, hw.lowTime⟩, hexec⟩
    · rw [hforward]
      exact ⟨hw, hexec⟩

/-- The first device runs and is blocked, the second runs, and the first runs again. -/
def twoDevicesRun : Except String (ClusterState (1 * 2) ℕ Unit) := do
  let s ← twoDevices.restartModuleGraph (newCluster (1 * 2) ℕ)
  let s ← twoDevices.run 0 s
  let s ← twoDevices.run 1 s
  twoDevices.run 0 s

theorem barrier_correct_two_devices : ∃ s, twoDevicesRun = .ok s ∧
    IsGreatest (Set.image (fun e => (s.device e).startTime 2) {e | e ∈ [0, 1]})
      ((s.device 0).passTime 2) ∧
    ∀ e ∈ [0, 1], (s.device e).timeboardSynced 1 = false := by
  have hrun : ∃ s, twoDevicesRun = .ok s ∧ ∀ e, 2 < (s.device e).current := by
    refine ⟨_, rfl, ?_⟩
    decide
  obtain ⟨s, hrun, hthrough⟩ := hrun
  have hreach : Reachable twoDevices.Init twoDevices.Step s := by
    obtain ⟨s₀, h₀, h⟩ := bind_eq_ok hrun
    obtain ⟨s₁, h₁, h⟩ := bind_eq_ok h
    obtain ⟨s₂, h₂, h₃⟩ := bind_eq_ok h
    exact ⟨s₀, [some 0, some 1, some 0], ⟨_, fun _ => ⟨rfl, fun _ => rfl⟩, h₀⟩,
      .cons (.run h₁) (.cons (.run h₂) (.single (.run h₃)))⟩
  have hsync : twoDevices.SyncAt 0 2 1 [0, 1] := twoDevices_syncAt.mpr ⟨rfl, rfl, rfl⟩
  obtain ⟨hlatest, hflags⟩ := barrier_correct twoDevices_barriers hreach hsync
  exact ⟨s, hrun, hlatest (hthrough 0), hflags fun e _ => hthrough e⟩

end Graphs
end LlmSystem
