import LlmSystem.Module.ClusterRun

/-!
The state that the forward functions of all devices share. Where only the modules of one device
write to a part of it, what is there came from the modules that the device has executed, in their
order, however the devices are interleaved.
-/
namespace LlmSystem

open Runs

variable {N : ℕ} {τ σ : Type}

/-- The modules that a graph executes, in their order. -/
def executed (nodes : List (ModuleGraph N τ σ)) : List (Module N τ σ) :=
  nodes.filterMap fun n => n.module.filter (·.graphExecution)

@[simp] theorem executed_append (nodes nodes' : List (ModuleGraph N τ σ)) :
    executed (nodes ++ nodes') = executed nodes ++ executed nodes' := by
  simp [executed]

theorem executed_of_executes {n : ModuleGraph N τ σ} {m : Module N τ σ} (h : n.Executes m) :
    executed [n] = [m] := by
  obtain ⟨hm, hexecution⟩ := h
  simp [executed, Option.filter_some, hm, hexecution]

theorem executed_of_not {n : ModuleGraph N τ σ} (h : ∀ m, ¬n.Executes m) :
    executed [n] = [] := by
  unfold ModuleGraph.Executes at h
  cases hm : n.module with
  | none => simp [executed, hm]
  | some m =>
    have hnot : m.graphExecution = false := by simpa [hm] using h m
    simp [executed, hm, hnot]

variable [DecidableEq τ]

/-- A position passes without a forward, or runs the forward of its module on the shared
state. -/
theorem ModuleGraph.Outcome.shared {n : ModuleGraph N τ σ} {d : Fin N}
    {s s' : ClusterState N τ σ} {b : Bool} (h : n.Outcome d s b s') :
    (s'.shared = s.shared ∧ (b = true → ∀ m, ¬n.Executes m)) ∨
      (b = true ∧ ∃ m w, n.Executes m ∧ s'.shared = (m.forward s.shared w).1) := by
  cases h with
  | skip hnot => exact .inl ⟨rfl, fun _ => hnot⟩
  | block _ _ => exact .inl ⟨rfl, by simp⟩
  | forward hm _ => exact .inr ⟨rfl, _, _, hm, rfl⟩
  | @syncFirst m t hm _ _ _ _ =>
    set s₁ := ((syncGroup t m.deviceList (groupTime m.deviceList s) s).modify d
      (·.clearSynced t)).modify d (·.recordPass)
    have hshared : s₁.shared = s.shared := syncGroup_shared t m.deviceList _ s
    refine .inr ⟨rfl, m, (s₁.device d).work, hm, ?_⟩
    rw [← hshared]
    rfl
  | syncLater hm _ _ _ _ => exact .inr ⟨rfl, _, _, hm, rfl⟩

namespace Graphs
variable {X : Type*}

/-- Only the modules of `d` write to the part `part` of the shared state. -/
def Private (C : Graphs N τ σ) (d : Fin N) (part : σ → X) : Prop :=
  ∀ e, e ≠ d → ∀ n ∈ C.graph e, ∀ m, n.Executes m → ∀ x w, part (m.forward x w).1 = part x

/-- The part before and after the forward of a module. -/
def Moves (part : σ → X) (y : X) (m : Module N τ σ) (y' : X) : Prop :=
  ∃ x w, part x = y ∧ part (m.forward x w).1 = y'

/-- What is in the part came from the modules that `d` has executed so far, in their order. -/
def Followed (C : Graphs N τ σ) (d : Fin N) (part : σ → X) (x₀ : X) (s : ClusterState N τ σ) :
    Prop :=
  Run (Moves part) x₀ (executed ((C.graph d).take (s.device d).current)) (part s.shared)

variable {C : Graphs N τ σ} {d : Fin N} {part : σ → X} {x₀ : X}

omit [DecidableEq τ] in
theorem Followed.same {s s' : ClusterState N τ σ} (hs : C.Followed d part x₀ s)
    (hshared : part s'.shared = part s.shared)
    (hcur : (s'.device d).current = (s.device d).current) : C.Followed d part x₀ s' := by
  unfold Followed
  rw [hshared, hcur]
  exact hs

/-- A step of another device. -/
theorem Followed.other {s s' : ClusterState N τ σ} {e : Fin N} {n : ModuleGraph N τ σ} {b : Bool}
    (hC : C.Private d part) (hs : C.Followed d part x₀ s) (hed : e ≠ d)
    (hat : C.At e (s.device e).current n) (h : n.Outcome e (C.stamp e n s) b s') :
    C.Followed d part x₀ s' := by
  apply hs.same
  · rcases h.shared with ⟨hsame, -⟩ | ⟨-, m, w, hm, hnew⟩
    · rw [hsame]
      rfl
    · rw [hnew, hC e hed n (List.mem_of_getElem? hat) m hm]
      rfl
  · rw [(h.frame d).1, (stamp_frame n s d).1]

/-- A step of the device itself. -/
theorem Followed.own {s s' : ClusterState N τ σ} {n : ModuleGraph N τ σ}
    (hs : C.Followed d part x₀ s) (hat : C.At d (s.device d).current n)
    (h : n.Outcome d (C.stamp d n s) true s') : C.Followed d part x₀ (s'.modify d (·.next)) := by
  have hcur : ((s'.modify d (·.next)).device d).current = (s.device d).current + 1 := by
    rw [ClusterState.modify_device_self]
    change (s'.device d).current + 1 = _
    rw [(h.frame d).1, (stamp_frame n s d).1]
  have htake : (C.graph d).take ((s.device d).current + 1)
      = (C.graph d).take (s.device d).current ++ [n] := by
    rw [List.take_add_one, hat]
    rfl
  unfold Followed at hs ⊢
  rw [hcur, htake, executed_append]
  apply hs.append
  rcases h.shared with ⟨hsame, hnot⟩ | ⟨-, m, w, hm, hnew⟩
  · rw [executed_of_not (hnot rfl), ClusterState.modify_shared, hsame]
    exact .nil _
  · rw [executed_of_executes hm]
    exact .single ⟨s.shared, w, rfl, (congrArg part hnew).symm⟩

/-- No device is past the end of its graph. -/
def InGraph (C : Graphs N τ σ) (s : ClusterState N τ σ) : Prop :=
  ∀ e, (s.device e).current ≤ (C.graph e).length

theorem InGraph.run {s s' : ClusterState N τ σ} {e : Fin N} (hs : C.InGraph s)
    (h : C.run e s = .ok s') : C.InGraph s' := by
  apply run_invariant _ _ hs (hs e) h
  · intro n x x' hx hat hout e'
    rw [(hout.frame e').1, (stamp_frame n x e').1]
    exact hx e'
  · intro n x x' hx hat hout e'
    have hcur : (x'.device e').current = (x.device e').current := by
      rw [(hout.frame e').1, (stamp_frame n x e').1]
    by_cases hee : e' = e
    · subst hee
      rw [ClusterState.modify_device_self]
      show (x'.device e').current + 1 ≤ _
      rw [hcur]
      exact (List.getElem?_eq_some_iff.mp hat).1
    · rw [ClusterState.modify_device_of_ne hee, hcur]
      exact hx e'

theorem Followed.run {s s' : ClusterState N τ σ} {e : Fin N} (hC : C.Private d part)
    (hs : C.Followed d part x₀ s) (hle : (s.device e).current ≤ (C.graph e).length)
    (h : C.run e s = .ok s') : C.Followed d part x₀ s' := by
  by_cases hed : e = d
  · subst hed
    apply run_invariant _ _ hs hle h
    · intro n x x' hx hat hout
      apply hx.same
      · rcases hout.shared with ⟨hsame, -⟩ | ⟨hfalse, -⟩
        · rw [hsame]
          rfl
        · cases hfalse
      · rw [(hout.frame e).1, (stamp_frame n x e).1]
    · intro n x x' hx hat hout
      exact hx.own hat hout
  · apply run_invariant _ _ hs hle h
    · intro n x x' hx hat hout
      exact hx.other hC hed hat hout
    · intro n x x' hx hat hout
      have hnext := hx.other hC hed hat hout
      exact hnext.same rfl (by rw [ClusterState.modify_device_of_ne (Ne.symm hed)])

theorem Followed.runs {s s' : ClusterState N τ σ} {order : List (Fin N)} (hC : C.Private d part)
    (hgraph : C.InGraph s) (hs : C.Followed d part x₀ s)
    (h : Run (fun x e y => C.run e x = .ok y) s order s') :
    C.InGraph s' ∧ C.Followed d part x₀ s' := by
  apply h.invariant (I := fun x => C.InGraph x ∧ C.Followed d part x₀ x) _ ⟨hgraph, hs⟩
  intro x e y hx hxy
  exact ⟨hx.1.run hxy, hx.2.run hC (hx.1 e) hxy⟩

theorem restart_shared {devices : List (Fin N)} {s s' : ClusterState N τ σ}
    (h : devices.foldlM (fun s d => C.restartGraph d s) s = .ok s') : s'.shared = s.shared := by
  apply (Run.of_foldlM h).invariant (I := fun x => x.shared = s.shared) _ rfl
  intro x e y hx hxy
  obtain ⟨n, root, -, -, rfl⟩ := restartGraph_ok hxy
  exact hx

theorem followed_restart {s s' : ClusterState N τ σ} (h : C.restartModuleGraph s = .ok s') :
    C.InGraph s' ∧ C.Followed d part (part s.shared) s' := by
  constructor
  · intro e
    obtain ⟨n, root, -, -, hdevice⟩ := restartModuleGraph_device h e
    rw [hdevice]
    exact Nat.zero_le _
  · obtain ⟨n, root, -, -, hdevice⟩ := restartModuleGraph_device h d
    unfold Followed
    rw [hdevice, restart_shared h]
    exact .nil _

end Graphs
end LlmSystem
