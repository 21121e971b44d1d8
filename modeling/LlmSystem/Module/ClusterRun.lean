import LlmSystem.Module.GraphSteps
import Mathlib.Algebra.Order.BigOperators.Group.Finset
import Mathlib.Data.Finset.Max
import Mathlib.Data.Fintype.Basic
import Mathlib.Logic.Equiv.Fin.Basic

/-!
`Cluster::run` passes over the devices until all graphs are at their end. The device that has
come least far is never blocked: what it waits for was made by itself before, or by devices
that have come at least as far.
-/
namespace LlmSystem

open Runs

variable {τ σ : Type} [DecidableEq τ]

namespace Graphs

section Loop
variable {numNode numDevice : ℕ}

/-- The devices of each node, in the order of their ranks. -/
def node (numNode numDevice : ℕ) : List (List (Fin (numNode * numDevice))) :=
  (List.finRange numNode).map fun n =>
    (List.finRange numDevice).map fun i => finProdFinEquiv (n, i)

variable (C : Graphs (numNode * numDevice) τ σ)

/-- `Node::run`. -/
def runNode {N : ℕ} (C : Graphs N τ σ) (devices : List (Fin N)) (s : ClusterState N τ σ) :
    Except String (ClusterState N τ σ) :=
  devices.foldlM (fun s d => C.run d s) s

/-- The body of the loop of `Cluster::run`. -/
def pass (s : ClusterState (numNode * numDevice) τ σ) :
    Except String (ClusterState (numNode * numDevice) τ σ) :=
  (node numNode numDevice).foldlM (fun s devices => C.runNode devices s) s

/-- `while (check_module_graph_remain())`, for at most `fuel` passes; `none` where they do not
suffice. -/
def loop : ℕ → ClusterState (numNode * numDevice) τ σ →
    Except String (Option (ClusterState (numNode * numDevice) τ σ))
  | 0, s => if ∃ d, C.Remains s d then .ok none else .ok (some s)
  | fuel + 1, s =>
    if ∃ d, C.Remains s d then do
      let s ← C.pass s
      loop fuel s
    else .ok (some s)

/-- `Cluster::run`. -/
def clusterRun (fuel : ℕ) (s : ClusterState (numNode * numDevice) τ σ) :
    Except String (Option (ClusterState (numNode * numDevice) τ σ)) := do
  let s ← C.restartModuleGraph s
  C.loop fuel s

end Loop

/-! ### Well-formed graphs -/

variable {N : ℕ} (C : Graphs N τ σ)

/-- Module graphs in which every module waits for something that gets ready: its inputs are
outputs of earlier modules of its device or the root input, which no module owns, and the
devices of a group have the same sync module at the same position. -/
structure Runnable (root : Fin N → τ) : Prop where
  starts : ∀ d, ∃ n, C.At d 0 n ∧ n.input = .tensor (root d)
  root_kept : ∀ d, ¬C.Unset d (root d)
  inputs : ∀ {d p n m}, C.At d p n → n.Executes m → n.input.tensors ≠ [] ∧
    ∀ t ∈ n.input.tensors, t = root d ∨ C.MadeBefore d p t
  groups : ∀ {d p n m}, C.At d p n → n.Executes m → m.sync = true →
    ∃ t, n.input = .tensor t ∧ ∀ e ∈ m.deviceList, ∃ n', C.At e p n' ∧ n'.Syncs t m.deviceList

/-- What a device has executed is ready. -/
structure Progress (root : Fin N → τ) (s : ClusterState N τ σ) : Prop where
  inGraph : ∀ d, (s.device d).current ≤ (C.graph d).length
  root : ∀ d, (s.device d).ready (root d) = true
  made : ∀ d t, C.MadeBefore d (s.device d).current t → (s.device d).ready t = true

variable {C} {root : Fin N → τ}

theorem Progress.outcome {s s' : ClusterState N τ σ} {d : Fin N} {n : ModuleGraph N τ σ}
    {b : Bool} (hs : C.Progress root s) (h : n.Outcome d (C.stamp d n s) b s') :
    C.Progress root s' := by
  have hcur : ∀ e, (s'.device e).current = (s.device e).current := fun e => by
    rw [(h.frame e).1, (stamp_frame n s e).1]
  have hready : ∀ e t, (s.device e).ready t = true → (s'.device e).ready t = true := by
    intro e t ht
    rw [h.ready, (stamp_frame n s e).2.1]
    exact .inl ht
  constructor
  · intro e
    rw [hcur]
    exact hs.inGraph e
  · exact fun e => hready e _ (hs.root e)
  · intro e t ht
    rw [hcur] at ht
    exact hready e t (hs.made e t ht)

theorem Progress.go {s s' : ClusterState N τ σ} {d : Fin N} {n : ModuleGraph N τ σ}
    (hs : C.Progress root s) (hat : C.At d (s.device d).current n)
    (h : n.Outcome d (C.stamp d n s) true s') : C.Progress root (s'.modify d (·.next)) := by
  have hs' := hs.outcome h
  have hcur : (s'.device d).current = (s.device d).current := by
    rw [(h.frame d).1, (stamp_frame n s d).1]
  constructor
  · intro e
    by_cases hed : e = d
    · subst hed
      rw [ClusterState.modify_device_self]
      show (s'.device e).current + 1 ≤ _
      rw [hcur]
      exact (List.getElem?_eq_some_iff.mp hat).1
    · rw [ClusterState.modify_device_of_ne hed]
      exact hs'.inGraph e
  · intro e
    by_cases hed : e = d
    · subst hed
      rw [ClusterState.modify_device_self]
      exact hs'.root e
    · rw [ClusterState.modify_device_of_ne hed]
      exact hs'.root e
  · intro e t ht
    by_cases hed : e = d
    · subst hed
      rw [ClusterState.modify_device_self] at ht ⊢
      show (s'.device e).ready t = true
      obtain ⟨q, hq, n', m, hat', hm, hmem⟩ := ht
      have hq' : q < (s'.device e).current + 1 := hq
      rcases Nat.lt_succ_iff_lt_or_eq.mp hq' with hlt | rfl
      · exact hs'.made e t ⟨q, hlt, n', m, hat', hm, hmem⟩
      · -- the module the device has just executed
        rw [hcur] at hat'
        obtain rfl := Option.some.inj (hat.symm.trans hat')
        rw [h.ready]
        exact .inr ⟨rfl, rfl, m, hm, hmem⟩
    · rw [ClusterState.modify_device_of_ne hed] at ht ⊢
      exact hs'.made e t ht

/-- A run moves its own device only, and only forward. -/
theorem Progress.run {s s' : ClusterState N τ σ} {d : Fin N} (hs : C.Progress root s)
    (h : C.run d s = .ok s') : C.Progress root s' ∧
      (∀ e, e ≠ d → (s'.device e).current = (s.device e).current) ∧
      (s.device d).current ≤ (s'.device d).current := by
  refine run_invariant (I := fun x => C.Progress root x ∧
      (∀ e, e ≠ d → (x.device e).current = (s.device e).current) ∧
      (s.device d).current ≤ (x.device d).current) ?_ ?_ ⟨hs, fun _ _ => rfl, le_refl _⟩
      (hs.inGraph d) h
  · intro n x x' hx hat hout
    have hcur : ∀ e, (x'.device e).current = (x.device e).current := fun e => by
      rw [(hout.frame e).1, (stamp_frame n x e).1]
    exact ⟨hx.1.outcome hout, fun e he => (hcur e).trans (hx.2.1 e he),
      hx.2.2.trans_eq (hcur d).symm⟩
  · intro n x x' hx hat hout
    have hcur : ∀ e, (x'.device e).current = (x.device e).current := fun e => by
      rw [(hout.frame e).1, (stamp_frame n x e).1]
    refine ⟨hx.1.go hat hout, fun e he => ?_, ?_⟩
    · rw [ClusterState.modify_device_of_ne he, hcur]
      exact hx.2.1 e he
    · rw [ClusterState.modify_device_self]
      show _ ≤ (x'.device d).current + 1
      rw [hcur]
      exact hx.2.2.trans (Nat.le_succ _)

omit [DecidableEq τ] in
/-- A device that no unfinished device is behind finds its inputs ready. -/
theorem inputReady_of_least (hC : C.Runnable root) {s : ClusterState N τ σ}
    (hs : C.Progress root s) {d : Fin N} {n : ModuleGraph N τ σ} {m : Module N τ σ}
    (hat : C.At d (s.device d).current n) (hm : n.Executes m)
    (hleast : ∀ e, C.Remains s e → (s.device d).current ≤ (s.device e).current) :
    n.InputReady m d s := by
  have hinput : ∀ {e : Fin N} {n' : ModuleGraph N τ σ} {m' : Module N τ σ} {t : τ},
      C.At e (s.device d).current n' → n'.Executes m' → n'.input = .tensor t →
      (s.device d).current ≤ (s.device e).current → (s.device e).ready t = true := by
    intro e n' m' t hat' hm' ht hle
    rcases (hC.inputs hat' hm').2 t (by rw [ht]; exact List.mem_singleton_self t) with rfl | hmade
    · exact hs.root e
    · obtain ⟨q, hq, hrest⟩ := hmade
      exact hs.made e t ⟨q, hq.trans_le hle, hrest⟩
  unfold ModuleGraph.InputReady
  cases hin : n.input with
  | tensor t =>
    dsimp only
    split_ifs with hsync
    · obtain ⟨t', ht', hgroup⟩ := hC.groups hat hm hsync
      obtain rfl := GraphInput.tensor.inj (hin.symm.trans ht')
      intro e he
      obtain ⟨n', hat', m', hm', -, -, hin'⟩ := hgroup e he
      apply hinput hat' hm' hin'
      by_cases hrem : C.Remains s e
      · exact hleast e hrem
      · -- a finished device has passed the position
        have hend : (s.device e).current = (C.graph e).length := not_not.mp hrem
        rw [hend]
        exact (List.getElem?_eq_some_iff.mp hat').1.le
    · exact hinput hat hm hin (le_refl _)
  | tensorVec ts =>
    have hne := (hC.inputs hat hm).1
    rw [hin] at hne
    exact hne

theorem run_advances (hC : C.Runnable root) {s s' : ClusterState N τ σ}
    (hs : C.Progress root s) {d : Fin N} (hrem : C.Remains s d)
    (hleast : ∀ e, C.Remains s e → (s.device d).current ≤ (s.device e).current)
    (h : C.run d s = .ok s') : (s.device d).current < (s'.device d).current := by
  refine run_rule (I := fun x => x = s ∨ (s.device d).current < (x.device d).current)
    (J := fun x => (s.device d).current < (x.device d).current) ?_ ?_ ?_ (.inl rfl)
    (hs.inGraph d) h
  · rintro x (rfl | hx) hend
    · exact absurd hend hrem
    · exact hx
  · rintro n x x' (rfl | hx) hat hout
    · cases hout with
      | block hm hblocked =>
        refine absurd ?_ hblocked
        have hready := inputReady_of_least hC hs hat hm hleast
        unfold ModuleGraph.InputReady at hready ⊢
        simp only [(stamp_frame n x _).2.1]
        exact hready
    · rw [(hout.frame d).1, (stamp_frame n x d).1]
      exact hx
  · rintro n x x' hx hat hout
    right
    rw [ClusterState.modify_device_self]
    show _ < (x'.device d).current + 1
    rw [(hout.frame d).1, (stamp_frame n x d).1]
    rcases hx with rfl | hx
    · exact Nat.lt_succ_self _
    · exact hx.trans (Nat.lt_succ_self _)

/-! ### Passes -/

omit [DecidableEq τ] in
theorem Runnable.sync_tensor (hC : C.Runnable root) (d : Fin N) : ∀ n ∈ C.graph d, ∀ m,
    n.Executes m → m.sync = true → ∃ t, n.input = .tensor t := by
  intro n hn m hm hsync
  obtain ⟨p, hp⟩ := List.mem_iff_getElem?.mp hn
  obtain ⟨t, ht, -⟩ := hC.groups hp hm hsync
  exact ⟨t, ht⟩

theorem runNode_progress (hC : C.Runnable root) (devices : List (Fin N))
    {s : ClusterState N τ σ} (hs : C.Progress root s) :
    ∃ s', C.runNode devices s = .ok s' ∧ C.Progress root s' ∧
      (∀ e, (s.device e).current ≤ (s'.device e).current) ∧
      ∀ e, e ∉ devices → (s'.device e).current = (s.device e).current := by
  unfold runNode
  induction devices generalizing s with
  | nil => exact ⟨s, rfl, hs, fun _ => le_refl _, fun _ _ => rfl⟩
  | cons d devices ih =>
    obtain ⟨s₁, hrun⟩ := run_total (hC.sync_tensor d) s
    obtain ⟨hs₁, hother, hself⟩ := hs.run hrun
    obtain ⟨s', hrest, hs', hle, hsame⟩ := ih hs₁
    refine ⟨s', ?_, hs', fun e => ?_, fun e he => ?_⟩
    · rw [List.foldlM_cons, hrun]
      exact hrest
    · by_cases hed : e = d
      · subst hed
        exact hself.trans (hle e)
      · rw [← hother e hed]
        exact hle e
    · rw [hsame e (fun h => he (List.mem_cons_of_mem d h)),
        hother e (fun h => he (h ▸ List.mem_cons_self))]

/-- A pass over all devices gets an unfinished one further. -/
theorem runNode_advances (hC : C.Runnable root) {devices : List (Fin N)}
    (hall : ∀ d, d ∈ devices) {s : ClusterState N τ σ} (hs : C.Progress root s)
    (hrem : ∃ d, C.Remains s d) :
    ∃ s', C.runNode devices s = .ok s' ∧ C.Progress root s' ∧
      (∀ e, (s.device e).current ≤ (s'.device e).current) ∧
      ∃ d, C.Remains s d ∧ (s.device d).current < (s'.device d).current := by
  obtain ⟨d, hd, hleast⟩ := Finset.exists_min_image (Finset.univ.filter (C.Remains s))
    (fun e => (s.device e).current) (by simpa [Finset.Nonempty] using hrem)
  rw [Finset.mem_filter] at hd
  obtain ⟨before, after, rfl, hbefore⟩ := List.eq_append_cons_of_mem (hall d)
  obtain ⟨s₁, hrun₁, hs₁, hle₁, hsame₁⟩ := runNode_progress hC before hs
  have hd₁ : (s₁.device d).current = (s.device d).current := hsame₁ d hbefore
  have hrem₁ : C.Remains s₁ d := by
    unfold Remains
    rw [hd₁]
    exact hd.2
  have hleast₁ : ∀ e, C.Remains s₁ e → (s₁.device d).current ≤ (s₁.device e).current := by
    intro e he
    have hes : C.Remains s e := by
      intro hend
      have hfar := hle₁ e
      have hin := hs₁.inGraph e
      exact he (by omega)
    rw [hd₁]
    exact (hleast e (Finset.mem_filter.mpr ⟨Finset.mem_univ e, hes⟩)).trans (hle₁ e)
  obtain ⟨s₂, hrun₂⟩ := run_total (hC.sync_tensor d) s₁
  have hadv := run_advances hC hs₁ hrem₁ hleast₁ hrun₂
  obtain ⟨hs₂, hother₂, hself₂⟩ := hs₁.run hrun₂
  obtain ⟨s₃, hrun₃, hs₃, hle₃, -⟩ := runNode_progress hC after hs₂
  refine ⟨s₃, ?_, hs₃, fun e => ?_, d, hd.2, ?_⟩
  · unfold runNode at hrun₁ hrun₃ ⊢
    rw [List.foldlM_append, hrun₁]
    show List.foldlM (fun s d => C.run d s) s₁ (d :: after) = _
    rw [List.foldlM_cons, hrun₂]
    exact hrun₃
  · by_cases hed : e = d
    · subst hed
      exact (hle₁ e).trans (hself₂.trans (hle₃ e))
    · have hmid := hother₂ e hed
      have hfar₁ := hle₁ e
      have hfar₃ := hle₃ e
      omega
  · have hfar := hle₃ d
    omega

/-! ### Restart -/

theorem restartGraph_eq (hC : C.Runnable root) (d : Fin N) (s : ClusterState N τ σ) :
    C.restartGraph d s
      = .ok (s.modify d (·.restart (root d) fun t => decide (C.Unset d t))) := by
  obtain ⟨n, hat, hin⟩ := hC.starts d
  unfold At at hat
  unfold restartGraph
  cases hgraph : C.graph d with
  | nil =>
    rw [hgraph] at hat
    cases hat
  | cons n' rest =>
    rw [hgraph] at hat
    obtain rfl := Option.some.inj hat
    dsimp only
    rw [hin]

theorem restart_total (hC : C.Runnable root) (devices : List (Fin N)) (s : ClusterState N τ σ) :
    ∃ s', devices.foldlM (fun s d => C.restartGraph d s) s = .ok s' := by
  induction devices generalizing s with
  | nil => exact ⟨s, rfl⟩
  | cons d devices ih =>
    rw [List.foldlM_cons, restartGraph_eq hC]
    exact ih _

theorem restart_progress (hC : C.Runnable root) (s : ClusterState N τ σ) :
    ∃ s', C.restartModuleGraph s = .ok s' ∧ C.Progress root s' := by
  obtain ⟨s', hs'⟩ := restart_total hC (List.finRange N) s
  have hdevice : ∀ e, s'.device e
      = (s.device e).restart (root e) fun t => decide (C.Unset e t) := by
    intro e
    obtain ⟨n, r, hat, hin, hdev⟩ := restartModuleGraph_device hs' e
    obtain ⟨n', hat', hin'⟩ := hC.starts e
    obtain rfl := Option.some.inj (hat.symm.trans hat')
    obtain rfl := GraphInput.tensor.inj (hin.symm.trans hin')
    exact hdev
  refine ⟨s', hs', ?_, fun e => ?_, fun e t ht => ?_⟩
  · intro e
    rw [hdevice]
    exact Nat.zero_le _
  · rw [hdevice]
    simp [DeviceState.restart, hC.root_kept e]
  · rw [hdevice] at ht
    obtain ⟨q, hq, -⟩ := ht
    exact absurd hq (Nat.not_lt_zero q)

/-! ### The loop -/

section Loop
variable {numNode numDevice : ℕ} {C : Graphs (numNode * numDevice) τ σ}
  {root : Fin (numNode * numDevice) → τ}

theorem mem_node (d : Fin (numNode * numDevice)) : d ∈ (node numNode numDevice).flatten := by
  unfold node
  rw [List.mem_flatten]
  refine ⟨_, List.mem_map.mpr ⟨(finProdFinEquiv.symm d).1, List.mem_finRange _, rfl⟩, ?_⟩
  refine List.mem_map.mpr ⟨(finProdFinEquiv.symm d).2, List.mem_finRange _, ?_⟩
  exact finProdFinEquiv.apply_symm_apply d

/-- Node by node or device by device, the order is that of the ranks. -/
theorem pass_eq (s : ClusterState (numNode * numDevice) τ σ) :
    C.pass s = C.runNode (node numNode numDevice).flatten s := by
  unfold pass runNode
  generalize node numNode numDevice = nodes
  induction nodes generalizing s with
  | nil => rfl
  | cons devices nodes ih =>
    rw [List.foldlM_cons, List.flatten_cons, List.foldlM_append]
    exact bind_congr fun s' => ih s'

/-- Positions that are still ahead, over all devices. -/
def ahead (C : Graphs (numNode * numDevice) τ σ) (s : ClusterState (numNode * numDevice) τ σ) :
    ℕ := ∑ d, ((C.graph d).length - (s.device d).current)

theorem pass_advances (hC : C.Runnable root) {s : ClusterState (numNode * numDevice) τ σ}
    (hs : C.Progress root s) (hrem : ∃ d, C.Remains s d) :
    ∃ s', C.pass s = .ok s' ∧ C.Progress root s' ∧
      (∀ e, (s.device e).current ≤ (s'.device e).current) ∧
      ∃ d, C.Remains s d ∧ (s.device d).current < (s'.device d).current := by
  rw [pass_eq]
  exact runNode_advances hC mem_node hs hrem

omit [DecidableEq τ] in
theorem ahead_lt {s s' : ClusterState (numNode * numDevice) τ σ} (hs' : C.Progress root s')
    (hle : ∀ e, (s.device e).current ≤ (s'.device e).current)
    (hlt : ∃ d, (s.device d).current < (s'.device d).current) : C.ahead s' < C.ahead s := by
  obtain ⟨d, hd⟩ := hlt
  refine Finset.sum_lt_sum (fun e _ => ?_) ⟨d, Finset.mem_univ d, ?_⟩
  · have hfar := hle e
    omega
  · have hin := hs'.inGraph d
    omega

theorem loop_ends (hC : C.Runnable root) {s : ClusterState (numNode * numDevice) τ σ}
    (hs : C.Progress root s) : ∃ t, (∀ fuel, C.ahead s ≤ fuel → C.loop fuel s = .ok (some t)) ∧
      ∀ d, ¬C.Remains t d := by
  induction hn : C.ahead s using Nat.strong_induction_on generalizing s with
  | _ n ih =>
    by_cases hrem : ∃ d, C.Remains s d
    · obtain ⟨s', hpass, hs', hle, d, -, hlt⟩ := pass_advances hC hs hrem
      have hless := ahead_lt hs' hle ⟨d, hlt⟩
      obtain ⟨t, hloop, hend⟩ := ih (C.ahead s') (hn ▸ hless) hs' rfl
      refine ⟨t, fun fuel hfuel => ?_, hend⟩
      cases fuel with
      | zero => omega
      | succ fuel =>
        unfold loop
        rw [if_pos hrem, hpass]
        exact hloop fuel (by omega)
    · refine ⟨s, fun fuel _ => ?_, fun d hd => hrem ⟨d, hd⟩⟩
      cases fuel with
      | zero => exact if_neg hrem
      | succ fuel => exact if_neg hrem

/-- From the restart on, whatever order the devices have run in, a pass gets some unfinished
device further; so with as many passes as there are positions `Cluster::run` ends, and all
graphs are at their end. -/
theorem clusterRun_terminates (hC : C.Runnable root)
    (s : ClusterState (numNode * numDevice) τ σ) :
    (∀ s₀ order s₁, C.restartModuleGraph s = .ok s₀ →
      Run (fun x d y => C.run d x = .ok y) s₀ order s₁ → (∃ d, C.Remains s₁ d) →
      ∃ s₂, C.pass s₁ = .ok s₂ ∧
        ∃ d, C.Remains s₁ d ∧ (s₁.device d).current < (s₂.device d).current) ∧
    ∃ t, (∀ fuel, ∑ d, (C.graph d).length ≤ fuel → C.clusterRun fuel s = .ok (some t)) ∧
      ∀ d, ¬C.Remains t d := by
  obtain ⟨s₀, hrestart, hs₀⟩ := restart_progress hC s
  constructor
  · intro s₀' order s₁ h₀ hrun hrem
    obtain rfl := Except.ok.inj (hrestart.symm.trans h₀)
    have hs₁ : C.Progress root s₁ :=
      hrun.invariant (fun x d y hx hxy => (hx.run hxy).1) hs₀
    obtain ⟨s₂, hpass, -, -, hadv⟩ := pass_advances hC hs₁ hrem
    exact ⟨s₂, hpass, hadv⟩
  · obtain ⟨t, hloop, hend⟩ := loop_ends hC hs₀
    refine ⟨t, fun fuel hfuel => ?_, hend⟩
    unfold clusterRun
    rw [hrestart]
    apply hloop
    refine le_trans (Finset.sum_le_sum fun d _ => ?_) hfuel
    exact Nat.sub_le _ _

theorem twoDevices_runnable : twoDevices.Runnable fun _ => 0 where
  starts d := ⟨_, rfl, rfl⟩
  root_kept := by decide
  inputs {d p n m} hat hm := by
    rcases twoDevices_executes hat hm with ⟨rfl, hin, -⟩ | ⟨rfl, hin, -⟩
    · simp [hin, GraphInput.tensors]
    · have hmade : twoDevices.MadeBefore d 2 1 :=
        ⟨0, by decide, _, _, rfl, ⟨rfl, rfl⟩, List.mem_singleton_self 1⟩
      simp [hin, GraphInput.tensors, hmade]
  groups {d p n m} hat hm hsync := by
    rcases twoDevices_executes hat hm with ⟨-, -, hasync, -⟩ | ⟨rfl, hin, -, hgroup, -⟩
    · simp [hasync] at hsync
    · exact ⟨1, hin, fun e _ => twoDevices_syncAt.mpr ⟨rfl, rfl, hgroup⟩⟩

theorem clusterRun_terminates_two_devices :
    ∃ t, twoDevices.clusterRun 8 (newCluster (1 * 2) ℕ) = .ok (some t) ∧
      ∀ d, ¬twoDevices.Remains t d := by
  obtain ⟨-, t, hrun, hend⟩ := clusterRun_terminates twoDevices_runnable (newCluster (1 * 2) ℕ)
  exact ⟨t, hrun 8 (by decide), hend⟩

end Loop

end Graphs
end LlmSystem
