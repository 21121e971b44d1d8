import LlmSystem.Module.Graph
import Mathlib.Algebra.GroupWithZero.Nat

/-!
What one position of a module graph can do to the cluster: pass without a forward, block, or
go forward, where a sync module has synchronised its group before if it is the first to.
-/
namespace LlmSystem

open Runs

variable {N : ℕ} {τ σ : Type}

namespace ModuleGraph

/-- The module whose `forward` the position runs. -/
def Executes (n : ModuleGraph N τ σ) (m : Module N τ σ) : Prop :=
  n.module = some m ∧ m.graphExecution = true

/-- A barrier on the tensor `t` for a group of devices. -/
def Syncs (n : ModuleGraph N τ σ) (t : τ) (group : List (Fin N)) : Prop :=
  ∃ m, n.Executes m ∧ m.sync = true ∧ m.deviceList = group ∧ n.input = .tensor t

theorem Executes.unique {n : ModuleGraph N τ σ} {m m' : Module N τ σ} (h : n.Executes m)
    (h' : n.Executes m') : m = m' := Option.some.inj (h.1.symm.trans h'.1)

theorem Syncs.unique {n : ModuleGraph N τ σ} {t t' : τ} {group group' : List (Fin N)}
    (h : n.Syncs t group) (h' : n.Syncs t' group') : t = t' ∧ group = group' := by
  obtain ⟨m, hm, -, rfl, hin⟩ := h
  obtain ⟨m', hm', -, rfl, hin'⟩ := h'
  obtain rfl := hm.unique hm'
  exact ⟨GraphInput.tensor.inj (hin.symm.trans hin'), rfl⟩

/-- What `check_ready` asks of the tensors. A non-sync module does not look into a
`TensorVec`. -/
def InputReady (n : ModuleGraph N τ σ) (m : Module N τ σ) (d : Fin N)
    (s : ClusterState N τ σ) : Prop :=
  match n.input with
  | .tensor t =>
    if m.sync then ∀ e ∈ m.deviceList, (s.device e).ready t = true
    else (s.device d).ready t = true
  | .tensorVec ts => ts ≠ []

/-- The latest clock of a group; clocks start at 0. -/
def groupTime (group : List (Fin N)) (s : ClusterState N τ σ) : ℚ :=
  group.foldl (fun time e => max time (s.device e).work.status.deviceTime) 0

theorem dependencyTensorList_sync {n : ModuleGraph N τ σ} {m : Module N τ σ} {t : τ}
    (hm : n.Executes m) (hsync : m.sync = true) (ht : n.input = .tensor t) :
    n.dependencyTensorList = m.deviceList.map (·, t) := by
  unfold dependencyTensorList
  rw [hm.1, ht]
  simp only [hsync, if_true]

theorem dependencyTensorList_async {n : ModuleGraph N τ σ} {m : Module N τ σ}
    (hm : n.Executes m) (hsync : ¬m.sync = true) : n.dependencyTensorList = [] := by
  unfold dependencyTensorList
  rw [hm.1]
  split
  next m' t hmod _ =>
    obtain rfl := Option.some.inj hmod
    exact if_neg hsync
  next => rfl

theorem checkListReady_sync {n : ModuleGraph N τ σ} {m : Module N τ σ} {t : τ}
    (hm : n.Executes m) (hsync : m.sync = true) (ht : n.input = .tensor t)
    (s : ClusterState N τ σ) :
    n.checkListReady s = true ↔ ∀ e ∈ m.deviceList, (s.device e).ready t = true := by
  unfold checkListReady
  rw [dependencyTensorList_sync hm hsync ht]
  simp

variable [DecidableEq τ]

/-- All devices of a group at one clock, with their tensor marked. -/
def syncGroup (t : τ) (group : List (Fin N)) (time : ℚ) (s : ClusterState N τ σ) :
    ClusterState N τ σ :=
  group.foldl (fun s e => s.modify e (·.syncTo t time)) s

/-- The outcomes of `run`, after `set_stamp`. -/
inductive Outcome (n : ModuleGraph N τ σ) (d : Fin N) (s : ClusterState N τ σ) :
    Bool → ClusterState N τ σ → Prop
  | skip (h : ∀ m, ¬n.Executes m) : Outcome n d s true s
  | block {m : Module N τ σ} (hm : n.Executes m) (h : ¬n.InputReady m d s) :
      Outcome n d s false s
  | forward {m : Module N τ σ} (hm : n.Executes m) (hsync : m.sync = false) :
      Outcome n d s true (forward m d (s.modify d (·.recordPass)))
  | syncFirst {m : Module N τ σ} {t : τ} (hm : n.Executes m) (hsync : m.sync = true)
      (ht : n.input = .tensor t) (hready : ∀ e ∈ m.deviceList, (s.device e).ready t = true)
      (hfirst : (s.device d).timeboardSynced t = false) :
      Outcome n d s true (ModuleGraph.forward m d
        (((syncGroup t m.deviceList (groupTime m.deviceList s) s).modify d
          (·.clearSynced t)).modify d (·.recordPass)))
  | syncLater {m : Module N τ σ} {t : τ} (hm : n.Executes m) (hsync : m.sync = true)
      (ht : n.input = .tensor t) (hready : ∀ e ∈ m.deviceList, (s.device e).ready t = true)
      (hlater : (s.device d).timeboardSynced t = true) :
      Outcome n d s true (ModuleGraph.forward m d
        ((s.modify d (·.clearSynced t)).modify d (·.recordPass)))

theorem syncDevices_sync {n : ModuleGraph N τ σ} {m : Module N τ σ} {t : τ}
    (hm : n.Executes m) (hsync : m.sync = true) (ht : n.input = .tensor t) (d : Fin N)
    (s : ClusterState N τ σ) :
    n.syncDevices d s = .ok (if (s.device d).timeboardSynced t then s.modify d (·.clearSynced t)
      else (syncGroup t m.deviceList (groupTime m.deviceList s) s).modify d (·.clearSynced t)) := by
  unfold syncDevices
  rw [dependencyTensorList_sync hm hsync ht, ht]
  dsimp only
  rw [List.foldl_map, List.foldl_map]
  split_ifs
  · rfl
  · rfl

/-- `run` has no other outcome. -/
theorem run_outcome {n : ModuleGraph N τ σ} {d : Fin N} {s s' : ClusterState N τ σ} {b : Bool}
    (h : n.run d s = .ok (b, s')) : n.Outcome d s b s' := by
  unfold run at h
  cases hmod : n.module with
  | none =>
    rw [hmod] at h
    obtain ⟨rfl, rfl⟩ := Prod.mk.inj (Except.ok.inj h)
    exact .skip fun m hm => by simp [hm.1] at hmod
  | some m =>
    rw [hmod] at h
    dsimp only at h
    split_ifs at h with hexec
    · have hm : n.Executes m := ⟨hmod, hexec⟩
      obtain ⟨⟨r, s₁⟩, hcheck, h⟩ := bind_eq_ok h
      unfold checkReady at hcheck
      by_cases hsync : m.sync = true
      · rw [if_pos hsync] at hcheck
        by_cases hlist : n.checkListReady s = true
        · rw [if_pos hlist] at hcheck
          obtain ⟨s₂, hdev, hcheck⟩ := bind_eq_ok hcheck
          obtain ⟨rfl, rfl⟩ := Prod.mk.inj (Except.ok.inj hcheck)
          obtain ⟨rfl, rfl⟩ := Prod.mk.inj (Except.ok.inj h)
          cases ht : n.input with
          | tensor t =>
            have hready := (checkListReady_sync hm hsync ht s).mp hlist
            rw [syncDevices_sync hm hsync ht] at hdev
            obtain rfl := Except.ok.inj hdev
            by_cases hsynced : (s.device d).timeboardSynced t = true
            · rw [if_pos hsynced]
              exact .syncLater hm hsync ht hready hsynced
            · rw [if_neg hsynced]
              exact .syncFirst hm hsync ht hready (Bool.eq_false_iff.mpr hsynced)
          | tensorVec ts =>
            unfold syncDevices at hdev
            rw [ht] at hdev
            cases hdev
        · rw [if_neg hlist] at hcheck
          obtain ⟨rfl, rfl⟩ := Prod.mk.inj (Except.ok.inj hcheck)
          obtain ⟨rfl, rfl⟩ := Prod.mk.inj (Except.ok.inj h)
          refine .block hm fun hready => hlist ?_
          unfold InputReady at hready
          cases ht : n.input with
          | tensor t =>
            rw [ht] at hready
            simp only [hsync, if_true] at hready
            exact (checkListReady_sync hm hsync ht s).mpr hready
          | tensorVec ts => simp [checkListReady, dependencyTensorList, hm.1, ht]
      · rw [if_neg hsync] at hcheck
        have hlist : n.checkListReady s = true := by
          simp [checkListReady, dependencyTensorList_async hm hsync]
        have hcases : s₁ = s ∧ (r = true ↔ n.InputReady m d s) := by
          unfold InputReady
          cases hin : n.input with
          | tensor t =>
            rw [hin] at hcheck
            obtain ⟨rfl, rfl⟩ := Prod.mk.inj (Except.ok.inj hcheck)
            simp [hsync]
          | tensorVec ts =>
            rw [hin] at hcheck
            obtain ⟨rfl, rfl⟩ := Prod.mk.inj (Except.ok.inj hcheck)
            simp [hlist]
        obtain ⟨rfl, hready⟩ := hcases
        cases r with
        | true =>
          obtain ⟨rfl, rfl⟩ := Prod.mk.inj (Except.ok.inj h)
          exact .forward hm (Bool.eq_false_iff.mpr hsync)
        | false =>
          obtain ⟨rfl, rfl⟩ := Prod.mk.inj (Except.ok.inj h)
          exact .block hm fun hinput => Bool.false_ne_true (hready.mpr hinput)
    · obtain ⟨rfl, rfl⟩ := Prod.mk.inj (Except.ok.inj h)
      exact .skip fun m' hm' => by
        have hmm : m' = m := Option.some.inj (hm'.1.symm.trans hmod)
        exact hexec (hmm ▸ hm'.2)

/-- Only a sync module without a single input fails. -/
theorem run_total {n : ModuleGraph N τ σ}
    (hn : ∀ m, n.Executes m → m.sync = true → ∃ t, n.input = .tensor t) (d : Fin N)
    (s : ClusterState N τ σ) : ∃ b s', n.run d s = .ok (b, s') := by
  unfold run
  cases hmod : n.module with
  | none => exact ⟨_, _, rfl⟩
  | some m =>
    dsimp only
    by_cases hexec : m.graphExecution = true
    · rw [if_pos hexec]
      have hcheck : ∃ r s₁, n.checkReady m d s = .ok (r, s₁) := by
        unfold checkReady
        by_cases hsync : m.sync = true
        · obtain ⟨t, ht⟩ := hn m ⟨hmod, hexec⟩ hsync
          rw [if_pos hsync, syncDevices_sync ⟨hmod, hexec⟩ hsync ht]
          by_cases hlist : n.checkListReady s = true
          · rw [if_pos hlist]
            exact ⟨_, _, rfl⟩
          · rw [if_neg hlist]
            exact ⟨_, _, rfl⟩
        · rw [if_neg hsync]
          cases n.input with
          | tensor t => exact ⟨_, _, rfl⟩
          | tensorVec ts => exact ⟨_, _, rfl⟩
      obtain ⟨r, s₁, hcheck⟩ := hcheck
      rw [hcheck]
      cases r with
      | true => exact ⟨_, _, rfl⟩
      | false => exact ⟨_, _, rfl⟩
    · rw [if_neg hexec]
      exact ⟨_, _, rfl⟩

/-! ### Effects -/

@[simp] theorem syncTo_syncTo (t : τ) (time : ℚ) (x : DeviceState τ) :
    (x.syncTo t time).syncTo t time = x.syncTo t time := by
  unfold DeviceState.syncTo
  simp only [Function.update_idem]

theorem syncGroup_device (t : τ) (group : List (Fin N)) (time : ℚ) (s : ClusterState N τ σ)
    (e : Fin N) : (syncGroup t group time s).device e =
      if e ∈ group then (s.device e).syncTo t time else s.device e := by
  unfold syncGroup
  induction group generalizing s with
  | nil => simp
  | cons d group ih =>
    rw [List.foldl_cons, ih]
    by_cases hed : e = d
    · subst hed
      simp
    · simp [hed]

@[simp] theorem syncGroup_shared (t : τ) (group : List (Fin N)) (time : ℚ)
    (s : ClusterState N τ σ) : (syncGroup t group time s).shared = s.shared := by
  unfold syncGroup
  induction group generalizing s with
  | nil => rfl
  | cons d group ih => rw [List.foldl_cons, ih, ClusterState.modify_shared]

theorem forward_device_self (m : Module N τ σ) (d : Fin N) (s : ClusterState N τ σ) :
    (forward m d s).device d =
      (s.device d).finish m.activations (m.forward s.shared (s.device d).work).2 :=
  ClusterState.modify_device_self ..

theorem forward_device_of_ne (m : Module N τ σ) {d e : Fin N} (h : e ≠ d)
    (s : ClusterState N τ σ) : (forward m d s).device e = s.device e :=
  ClusterState.modify_device_of_ne h ..

/-- An outcome neither moves a device nor stamps a position. -/
theorem Outcome.frame {n : ModuleGraph N τ σ} {d : Fin N} {s s' : ClusterState N τ σ} {b : Bool}
    (h : n.Outcome d s b s') (e : Fin N) :
    (s'.device e).current = (s.device e).current ∧
      (s'.device e).stamped = (s.device e).stamped ∧
      (s'.device e).startTime = (s.device e).startTime := by
  cases h with
  | skip _ => exact ⟨rfl, rfl, rfl⟩
  | block _ _ => exact ⟨rfl, rfl, rfl⟩
  | forward hm hsync =>
    by_cases hed : e = d
    · subst hed
      rw [forward_device_self, ClusterState.modify_device_self]
      exact ⟨rfl, rfl, rfl⟩
    · rw [forward_device_of_ne _ hed, ClusterState.modify_device_of_ne hed]
      exact ⟨rfl, rfl, rfl⟩
  | syncFirst hm hsync ht hready hfirst =>
    by_cases hed : e = d
    · subst hed
      rw [forward_device_self, ClusterState.modify_device_self, ClusterState.modify_device_self,
        syncGroup_device]
      split_ifs
      · exact ⟨rfl, rfl, rfl⟩
      · exact ⟨rfl, rfl, rfl⟩
    · rw [forward_device_of_ne _ hed, ClusterState.modify_device_of_ne hed,
        ClusterState.modify_device_of_ne hed, syncGroup_device]
      split_ifs
      · exact ⟨rfl, rfl, rfl⟩
      · exact ⟨rfl, rfl, rfl⟩
  | syncLater hm hsync ht hready hlater =>
    by_cases hed : e = d
    · subst hed
      rw [forward_device_self, ClusterState.modify_device_self, ClusterState.modify_device_self]
      exact ⟨rfl, rfl, rfl⟩
    · rw [forward_device_of_ne _ hed, ClusterState.modify_device_of_ne hed,
        ClusterState.modify_device_of_ne hed]
      exact ⟨rfl, rfl, rfl⟩

/-- Only the forward function of the device itself makes tensors ready. -/
theorem Outcome.ready {n : ModuleGraph N τ σ} {d : Fin N} {s s' : ClusterState N τ σ} {b : Bool}
    (h : n.Outcome d s b s') (e : Fin N) (t : τ) :
    (s'.device e).ready t = true ↔ (s.device e).ready t = true ∨
      (e = d ∧ b = true ∧ ∃ m, n.Executes m ∧ t ∈ m.activations) := by
  have hforward : ∀ {m : Module N τ σ} (s₁ : ClusterState N τ σ), n.Executes m →
      (∀ e t, (s₁.device e).ready t = (s.device e).ready t) →
      (((ModuleGraph.forward m d s₁).device e).ready t = true ↔ (s.device e).ready t = true ∨
        (e = d ∧ true = true ∧ ∃ m, n.Executes m ∧ t ∈ m.activations)) := by
    intro m s₁ hm hsame
    have hunique : (∃ m', n.Executes m' ∧ t ∈ m'.activations) ↔ t ∈ m.activations := by
      constructor
      · rintro ⟨m', hm', ht⟩
        exact hm.unique hm' ▸ ht
      · exact fun ht => ⟨m, hm, ht⟩
    rw [hunique, ← hsame]
    by_cases hed : e = d
    · subst hed
      rw [forward_device_self]
      simp [DeviceState.finish]
    · rw [forward_device_of_ne _ hed]
      simp [hed]
  cases h with
  | skip hskip => simp [hskip]
  | block _ _ => simp
  | forward hm hsync =>
    apply hforward _ hm
    intro e' t'
    by_cases hed : e' = d
    · subst hed
      rw [ClusterState.modify_device_self]
      rfl
    · rw [ClusterState.modify_device_of_ne hed]
  | syncFirst hm hsync ht hready hfirst =>
    apply hforward _ hm
    intro e' t'
    by_cases hed : e' = d
    · subst hed
      rw [ClusterState.modify_device_self, ClusterState.modify_device_self, syncGroup_device]
      split_ifs
      · rfl
      · rfl
    · rw [ClusterState.modify_device_of_ne hed, ClusterState.modify_device_of_ne hed,
        syncGroup_device]
      split_ifs
      · rfl
      · rfl
  | syncLater hm hsync ht hready hlater =>
    apply hforward _ hm
    intro e' t'
    by_cases hed : e' = d
    · subst hed
      rw [ClusterState.modify_device_self, ClusterState.modify_device_self]
      rfl
    · rw [ClusterState.modify_device_of_ne hed, ClusterState.modify_device_of_ne hed]

end ModuleGraph

/-! ### Runs of one device -/

theorem DeviceState.setStamp_frame (dramPowers : ProcessorType → DramEnergy)
    (n : ModuleGraph N τ σ) (x : DeviceState τ) :
    (x.setStamp dramPowers n).current = x.current ∧ (x.setStamp dramPowers n).ready = x.ready ∧
      (x.setStamp dramPowers n).timeboardSynced = x.timeboardSynced ∧
      (x.setStamp dramPowers n).passTime = x.passTime ∧
      (x.setStamp dramPowers n).stamped = Function.update x.stamped x.current true := by
  unfold setStamp
  split_ifs with hst
  · have hsame : Function.update x.stamped x.current true = x.stamped := by
      rw [← hst, Function.update_eq_self]
    exact ⟨rfl, rfl, rfl, rfl, hsame.symm⟩
  · cases n.module with
    | none => exact ⟨rfl, rfl, rfl, rfl, rfl⟩
    | some m => exact ⟨rfl, rfl, rfl, rfl, rfl⟩

namespace Graphs
variable (C : Graphs N τ σ)

/-- The position `p` of the device `d`. -/
def At (d : Fin N) (p : ℕ) (n : ModuleGraph N τ σ) : Prop := (C.graph d)[p]? = some n

/-- A module of the device before position `p` makes the tensor. -/
def MadeBefore (d : Fin N) (p : ℕ) (t : τ) : Prop :=
  ∃ q < p, ∃ n m, C.At d q n ∧ n.Executes m ∧ t ∈ m.activations

/-- The state in which `run` looks at a position. -/
def stamp (d : Fin N) (n : ModuleGraph N τ σ) (s : ClusterState N τ σ) : ClusterState N τ σ :=
  s.modify d (·.setStamp (C.dramPowers d) n)

variable {C} {d : Fin N}

theorem stamp_frame (n : ModuleGraph N τ σ) (s : ClusterState N τ σ) (e : Fin N) :
    ((C.stamp d n s).device e).current = (s.device e).current ∧
      ((C.stamp d n s).device e).ready = (s.device e).ready ∧
      ((C.stamp d n s).device e).timeboardSynced = (s.device e).timeboardSynced ∧
      ((C.stamp d n s).device e).passTime = (s.device e).passTime := by
  unfold stamp
  by_cases hed : e = d
  · subst hed
    rw [ClusterState.modify_device_self]
    obtain ⟨hc, hr, ht, hp, -⟩ := (s.device e).setStamp_frame (C.dramPowers e) n
    exact ⟨hc, hr, ht, hp⟩
  · rw [ClusterState.modify_device_of_ne hed]
    exact ⟨rfl, rfl, rfl, rfl⟩

variable [DecidableEq τ]

/-- `I` holds while the device moves on, and `J` where it stops. -/
theorem run_rule {I J : ClusterState N τ σ → Prop}
    (hend : ∀ s, I s → (s.device d).current = (C.graph d).length → J s)
    (hblock : ∀ n s s', I s → C.At d (s.device d).current n →
      n.Outcome d (C.stamp d n s) false s' → J s')
    (hgo : ∀ n s s', I s → C.At d (s.device d).current n →
      n.Outcome d (C.stamp d n s) true s' → I (s'.modify d (·.next)))
    {s s' : ClusterState N τ σ} (hI : I s) (hle : (s.device d).current ≤ (C.graph d).length)
    (h : C.run d s = .ok s') : J s' := by
  unfold run at h
  generalize hrest : (C.graph d).drop (s.device d).current = rest at h
  induction rest generalizing s with
  | nil =>
    obtain rfl := Except.ok.inj h
    rw [List.drop_eq_nil_iff] at hrest
    exact hend _ hI (Nat.le_antisymm hle hrest)
  | cons n rest ih =>
    have hat : C.At d (s.device d).current n := by
      unfold At
      rw [← List.head?_drop, hrest]
      rfl
    obtain ⟨⟨b, s₁⟩, hrun, h⟩ := bind_eq_ok h
    have hout : n.Outcome d (C.stamp d n s) b s₁ := ModuleGraph.run_outcome hrun
    cases b with
    | false =>
      obtain rfl := Except.ok.inj h
      exact hblock n s _ hI hat hout
    | true =>
      have hcur : ((s₁.modify d (·.next)).device d).current = (s.device d).current + 1 := by
        rw [ClusterState.modify_device_self]
        show (s₁.device d).current + 1 = _
        rw [(hout.frame d).1, (stamp_frame n s d).1]
      refine ih (hgo n s _ hI hat hout) ?_ ?_ h
      · rw [hcur]
        exact (List.getElem?_eq_some_iff.mp hat).1
      · rw [hcur, ← List.drop_drop, hrest]
        rfl

/-- The rule for what holds throughout. -/
theorem run_invariant {I : ClusterState N τ σ → Prop}
    (hblock : ∀ n s s', I s → C.At d (s.device d).current n →
      n.Outcome d (C.stamp d n s) false s' → I s')
    (hgo : ∀ n s s', I s → C.At d (s.device d).current n →
      n.Outcome d (C.stamp d n s) true s' → I (s'.modify d (·.next)))
    {s s' : ClusterState N τ σ} (hI : I s) (hle : (s.device d).current ≤ (C.graph d).length)
    (h : C.run d s = .ok s') : I s' :=
  run_rule (fun _ hx _ => hx) hblock hgo hI hle h

theorem run_total (hC : ∀ n ∈ C.graph d, ∀ m, n.Executes m → m.sync = true →
    ∃ t, n.input = .tensor t) (s : ClusterState N τ σ) : ∃ s', C.run d s = .ok s' := by
  unfold run
  have hsub : ∀ n ∈ (C.graph d).drop (s.device d).current, ∀ m, n.Executes m → m.sync = true →
      ∃ t, n.input = .tensor t := fun n hn => hC n (List.mem_of_mem_drop hn)
  generalize (C.graph d).drop (s.device d).current = rest at hsub
  induction rest generalizing s with
  | nil => exact ⟨s, rfl⟩
  | cons n rest ih =>
    obtain ⟨hhead, htail⟩ := List.forall_mem_cons.mp hsub
    obtain ⟨b, s₁, hrun⟩ := ModuleGraph.run_total hhead d (C.stamp d n s)
    have hunfold : C.runFrom d (n :: rest) s
        = if b then C.runFrom d rest (s₁.modify d (·.next)) else .ok s₁ := by
      show n.run d (C.stamp d n s) >>= _ = _
      rw [hrun]
      rfl
    rw [hunfold]
    cases b with
    | false => exact ⟨s₁, rfl⟩
    | true => exact ih _ htail

/-! ### Restart -/

theorem restartGraph_ok {s s' : ClusterState N τ σ} (h : C.restartGraph d s = .ok s') :
    ∃ n root, C.At d 0 n ∧ n.input = .tensor root ∧
      s' = s.modify d (·.restart root fun t => decide (C.Unset d t)) := by
  unfold restartGraph at h
  cases hgraph : C.graph d with
  | nil =>
    rw [hgraph] at h
    cases h
  | cons n rest =>
    rw [hgraph] at h
    cases hin : n.input with
    | tensor root =>
      simp only [hin] at h
      refine ⟨n, root, ?_, hin, (Except.ok.inj h).symm⟩
      unfold At
      rw [hgraph]
      rfl
    | tensorVec ts =>
      simp only [hin] at h
      cases h

theorem restart_each {devices : List (Fin N)} (hnodup : devices.Nodup)
    {s s' : ClusterState N τ σ}
    (h : devices.foldlM (fun s d => C.restartGraph d s) s = .ok s') (e : Fin N) :
    if e ∈ devices then ∃ n root, C.At e 0 n ∧ n.input = .tensor root ∧
        s'.device e = (s.device e).restart root fun t => decide (C.Unset e t)
      else s'.device e = s.device e := by
  induction devices generalizing s with
  | nil =>
    obtain rfl := Except.ok.inj h
    simp
  | cons d devices ih =>
    obtain ⟨hd, hrest⟩ := List.nodup_cons.mp hnodup
    rw [List.foldlM_cons] at h
    obtain ⟨s₁, hone, h⟩ := bind_eq_ok h
    obtain ⟨n, root, hat, hin, rfl⟩ := restartGraph_ok hone
    have hlater := ih hrest h
    by_cases hed : e = d
    · subst hed
      rw [if_neg hd, ClusterState.modify_device_self] at hlater
      rw [if_pos List.mem_cons_self]
      exact ⟨n, root, hat, hin, hlater⟩
    · rw [ClusterState.modify_device_of_ne hed] at hlater
      simpa only [List.mem_cons, hed, false_or] using hlater

/-- Every device is back at its start. -/
theorem restartModuleGraph_device {s s' : ClusterState N τ σ}
    (h : C.restartModuleGraph s = .ok s') (e : Fin N) :
    ∃ n root, C.At e 0 n ∧ n.input = .tensor root ∧
      s'.device e = (s.device e).restart root fun t => decide (C.Unset e t) := by
  have heach := restart_each (List.nodup_finRange N) h e
  rwa [if_pos (List.mem_finRange e)] at heach

instance : NeZero (1 * 2) := ⟨by decide⟩

/-- Two devices, as `Sync` sets them up: a module whose forward takes the longer on the second
device makes the tensor that a barrier on both devices waits for. -/
def twoDevices : Graphs (1 * 2) ℕ Unit where
  graph d :=
    [{ module := some
        { graphExecution := true
          tensorList := [1]
          activations := [1]
          activations_mem := fun _ h => h
          forward := fun shared w => (shared, { w with
            status := { w.status with deviceTime := w.status.deviceTime + d.val } }) }
       input := .tensor 0 },
     { module := none, input := .tensor 1 },
     { module := some
        { graphExecution := true
          sync := true
          deviceList := [0, 1]
          tensorList := []
          activations_mem := fun _ h => h
          forward := Prod.mk }
       input := .tensor 1 },
     { module := none, input := .tensor 1 }]
  dramPowers _ _ := {}

/-- A cluster that has executed nothing. -/
def newCluster (N : ℕ) (τ : Type) : ClusterState N τ Unit where
  device _ := { work := {}, current := 0, stamped := fun _ => false, ready := fun _ => false,
                timeboardSynced := fun _ => false, startTime := fun _ => 0, passTime := fun _ => 0 }
  shared := ()

/-- The two positions with a forward. -/
theorem twoDevices_executes {d : Fin (1 * 2)} {p : ℕ} {n : ModuleGraph (1 * 2) ℕ Unit}
    {m : Module (1 * 2) ℕ Unit} (hat : twoDevices.At d p n) (hm : n.Executes m) :
    (p = 0 ∧ n.input = .tensor 0 ∧ m.sync = false ∧ ∀ shared w, m.forward shared w = (shared,
        { w with status := { w.status with deviceTime := w.status.deviceTime + d.val } })) ∨
      (p = 2 ∧ n.input = .tensor 1 ∧ m.sync = true ∧ m.deviceList = [0, 1] ∧
        m.forward = Prod.mk) := by
  obtain _ | _ | _ | _ | p := p
  · left
    obtain rfl := Option.some.inj hat
    obtain rfl := Option.some.inj hm.1
    simp
  · obtain rfl := Option.some.inj hat
    cases hm.1
  · right
    obtain rfl := Option.some.inj hat
    obtain rfl := Option.some.inj hm.1
    simp
  · obtain rfl := Option.some.inj hat
    cases hm.1
  · cases hat

theorem twoDevices_syncAt {d : Fin (1 * 2)} {p t : ℕ} {group : List (Fin (1 * 2))} :
    (∃ n, twoDevices.At d p n ∧ n.Syncs t group) ↔ p = 2 ∧ t = 1 ∧ group = [0, 1] := by
  constructor
  · rintro ⟨n, hat, m, hm, hsync, rfl, hin⟩
    rcases twoDevices_executes hat hm with ⟨-, -, hasync, -⟩ | ⟨rfl, hin', -, hgroup, -⟩
    · simp [hasync] at hsync
    · exact ⟨rfl, GraphInput.tensor.inj (hin.symm.trans hin'), hgroup⟩
  · rintro ⟨rfl, rfl, rfl⟩
    exact ⟨_, rfl, _, ⟨rfl, rfl⟩, rfl, rfl, rfl⟩

end Graphs
end LlmSystem
