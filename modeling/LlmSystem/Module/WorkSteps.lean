import LlmSystem.Module.GraphSteps

/-!
What forward functions write to their device: clocks, the charge for the next return, and where
their outputs are processed. Nothing else that a step of a graph does reaches these.
-/
namespace LlmSystem

variable {N : ℕ} {τ σ : Type}

inductive WorkStep (τ : Type)
  /-- Communication, residuals, layer norms and rotary embeddings take their time at once; the
  first and the last may be hidden behind the other work of the side of their input. -/
  | elapse (time : ℚ) (input : Placement) (hidden : Bool)
  /-- `AttentionSplit`, `AttentionMerge` and `Sync__Set`. -/
  | align
  /-- `setExecStatus`. -/
  | execute (e : ExecStatus)
  /-- `setPerformHigh` and `setPerformLow`. -/
  | place (output : τ) (p : Placement)

namespace WorkStep

def apply [DecidableEq τ] : WorkStep τ → Work τ → Work τ
  | elapse time input hidden, w =>
    let aside := input.parallelExecution && !hidden
    { w with
      status :=
        { w.status with
          deviceTime := w.status.deviceTime + time
          highTime := w.status.highTime + if aside && input.performAtHigh then time else 0
          lowTime := w.status.lowTime + if aside && !input.performAtHigh then time else 0 } }
  | align, w =>
    let deviceTime := max w.status.deviceTime (max w.status.lowTime w.status.highTime)
    { w with status := { w.status with deviceTime, highTime := deviceTime, lowTime := deviceTime } }
  | execute e, w => { w with execStatus := e }
  | place output p, w => { w with placement := Function.update w.placement output p }

/-- Nothing takes negative time. -/
def Nonneg : WorkStep τ → Prop
  | elapse time _ _ => 0 ≤ time
  | align => True
  | execute e => 0 ≤ e.totalDuration
  | place _ _ => True

end WorkStep

variable [DecidableEq τ]

/-- All that the forward function does to its device are steps with `P`. -/
def Module.Acts (m : Module N τ σ) (P : WorkStep τ → Prop) : Prop :=
  ∀ x w, ∃ steps : List (WorkStep τ), (∀ a ∈ steps, P a) ∧
    (m.forward x w).2 = steps.foldl (fun w a => a.apply w) w

/-- A relation of the work before and after that is kept where no forward function runs. -/
structure Kept (W : Work τ → Work τ → Prop) : Prop where
  refl : ∀ w, W w w
  trans : ∀ {w w' w''}, W w w' → W w' w'' → W w w''
  /-- `sync_devices` only advances clocks. -/
  sync : ∀ w time, w.status.deviceTime ≤ time →
    W w { w with status := { w.status with deviceTime := time } }

/-- All steps have it, too. -/
structure Carried (P : WorkStep τ → Prop) (W : Work τ → Work τ → Prop) : Prop extends Kept W where
  apply : ∀ a, P a → ∀ w, W w (a.apply w)

variable {P : WorkStep τ → Prop} {W : Work τ → Work τ → Prop}

theorem Carried.forward (hW : Carried P W) {m : Module N τ σ} (hm : m.Acts P) (x : σ) (w : Work τ) :
    W w (m.forward x w).2 := by
  obtain ⟨steps, hP, heq⟩ := hm x w
  rw [heq]
  clear heq
  induction steps generalizing w with
  | nil => exact hW.refl w
  | cons a steps ih =>
    obtain ⟨ha, hsteps⟩ := List.forall_mem_cons.mp hP
    exact hW.trans (hW.apply a ha w) (ih (a.apply w) hsteps)

namespace Kept

omit [DecidableEq τ] in
theorem le_groupTime {group : List (Fin N)} {e : Fin N} (he : e ∈ group)
    (s : ClusterState N τ σ) :
    (s.device e).work.status.deviceTime ≤ ModuleGraph.groupTime group s := by
  have hle : ∀ (group : List (Fin N)) (time : ℚ), time ≤ group.foldl
      (fun time e => max time (s.device e).work.status.deviceTime) time := by
    intro group
    induction group with
    | nil => exact fun _ => le_refl _
    | cons d group ih => exact fun time => (le_max_left _ _).trans (ih _)
  unfold ModuleGraph.groupTime
  generalize (0 : ℚ) = time
  induction group generalizing time with
  | nil => exact absurd he List.not_mem_nil
  | cons d group ih =>
    rcases List.mem_cons.mp he with rfl | he
    · exact (le_max_right _ _).trans (hle group _)
    · exact ih he _

/-- A step of one device, seen from any device. -/
theorem outcome (hW : Kept W) {n : ModuleGraph N τ σ} {d : Fin N} {s s' : ClusterState N τ σ}
    {b : Bool} {e : Fin N} (hn : e = d → ∀ m, n.Executes m → ∀ x w, W w (m.forward x w).2)
    (h : n.Outcome d s b s') : W (s.device e).work (s'.device e).work := by
  have hforward : ∀ {m : Module N τ σ} (s₁ : ClusterState N τ σ), n.Executes m →
      W (s.device e).work (s₁.device e).work →
      W (s.device e).work ((ModuleGraph.forward m d s₁).device e).work := by
    intro m s₁ hm h₁
    by_cases hed : e = d
    · subst hed
      rw [ModuleGraph.forward_device_self]
      exact hW.trans h₁ (hn rfl m hm s₁.shared (s₁.device e).work)
    · rw [ModuleGraph.forward_device_of_ne _ hed]
      exact h₁
  have hmark : ∀ (s₁ : ClusterState N τ σ) (f : DeviceState τ → DeviceState τ),
      (∀ x, (f x).work = x.work) → ((s₁.modify d f).device e).work = (s₁.device e).work := by
    intro s₁ f hf
    by_cases hed : e = d
    · subst hed
      rw [ClusterState.modify_device_self, hf]
    · rw [ClusterState.modify_device_of_ne hed]
  cases h with
  | skip _ => exact hW.refl _
  | block _ _ => exact hW.refl _
  | forward hm _ =>
    apply hforward _ hm
    rw [hmark s (·.recordPass) fun _ => rfl]
    exact hW.refl _
  | @syncFirst m t hm _ _ _ _ =>
    apply hforward _ hm
    rw [hmark _ (·.recordPass) fun _ => rfl, hmark _ (·.clearSynced t) fun _ => rfl,
      ModuleGraph.syncGroup_device]
    split_ifs with hmem
    · exact hW.sync _ _ (le_groupTime hmem s)
    · exact hW.refl _
  | @syncLater m t hm _ _ _ _ =>
    apply hforward _ hm
    rw [hmark _ (·.recordPass) fun _ => rfl, hmark _ (·.clearSynced t) fun _ => rfl]
    exact hW.refl _

end Kept
end LlmSystem
