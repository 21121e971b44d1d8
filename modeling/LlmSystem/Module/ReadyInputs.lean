import LlmSystem.Module.GraphSteps

/-!
Which tensors `check_ready` looks at before a module goes forward. It asks the dependency
tensors of a sync module and the single input of another, but `checkListReady` ignores the list
that it is given, so that the elements of a `TensorVec` are never asked.
-/
namespace LlmSystem

variable {N : ℕ} {τ σ : Type}

namespace ClusterState

/-- The same cluster under another assignment of the ready flags. -/
def withReady (s : ClusterState N τ σ) (flags : Fin N → τ → Bool) : ClusterState N τ σ :=
  { s with device := fun e => { s.device e with ready := flags e } }

@[simp] theorem withReady_ready (s : ClusterState N τ σ) (flags : Fin N → τ → Bool) (e : Fin N) :
    ((s.withReady flags).device e).ready = flags e := rfl

end ClusterState

namespace ModuleGraph
variable [DecidableEq τ]

/-- The tensors that the position consumes on the device `d`: its input or the elements of its
`input_vec`, and for a sync module the tensor of the same name on the devices of its group. -/
inductive Consumes (n : ModuleGraph N τ σ) (d : Fin N) : Fin N → τ → Prop
  | input {t : τ} (ht : t ∈ n.input.tensors) : Consumes n d d t
  | group {m : Module N τ σ} {e : Fin N} {t : τ} (hm : n.Executes m) (hsync : m.sync = true)
      (he : e ∈ m.deviceList) (ht : t ∈ n.input.tensors) : Consumes n d e t

/-- `run` calls `module->forward`. -/
def Forwards (n : ModuleGraph N τ σ) (d : Fin N) (s : ClusterState N τ σ) : Prop :=
  ∃ m s₁, n.Executes m ∧ n.checkReady m d s = .ok (true, s₁)

theorem Forwards.run {n : ModuleGraph N τ σ} {d : Fin N} {s : ClusterState N τ σ}
    (h : n.Forwards d s) : ∃ (m : Module N τ σ) (s₁ : ClusterState N τ σ), n.Executes m ∧
      n.run d s = .ok (true, forward m d (s₁.modify d (·.recordPass))) := by
  obtain ⟨m, s₁, hm, hcheck⟩ := h
  refine ⟨m, s₁, hm, ?_⟩
  unfold ModuleGraph.run
  rw [hm.1]
  dsimp only
  rw [if_pos hm.2, hcheck]
  rfl

/-- No forward on an input that is not ready. -/
def ForwardsReady (n : ModuleGraph N τ σ) (d : Fin N) (s : ClusterState N τ σ) : Prop :=
  n.Forwards d s → ∀ e t, n.Consumes d e t → (s.device e).ready t = true

/-- A module that is not a sync module asks its single input, and of a vector only whether it
has elements. -/
theorem checkReady_async {n : ModuleGraph N τ σ} {m : Module N τ σ} (hm : n.Executes m)
    (hsync : ¬m.sync = true) {d : Fin N} {s : ClusterState N τ σ} :
    (∃ s₁, n.checkReady m d s = .ok (true, s₁)) ↔
      (∀ t, n.input = .tensor t → (s.device d).ready t = true) ∧
        n.input ≠ .tensorVec [] := by
  unfold checkReady
  rw [if_neg hsync]
  cases hin : n.input with
  | tensor t => simp
  | tensorVec ts =>
    have hlist : n.checkListReady s = true := by
      simp [checkListReady, dependencyTensorList_async hm hsync]
    simp [hlist]

/-- A sync module asks the tensors of its group; with a vector it fails. -/
theorem checkReady_sync {n : ModuleGraph N τ σ} {m : Module N τ σ} (hm : n.Executes m)
    (hsync : m.sync = true) {d : Fin N} {s : ClusterState N τ σ} :
    (∃ s₁, n.checkReady m d s = .ok (true, s₁)) ↔
      ∃ t, n.input = .tensor t ∧ ∀ e ∈ m.deviceList, (s.device e).ready t = true := by
  unfold checkReady
  rw [if_pos hsync]
  cases hin : n.input with
  | tensor t =>
    have hlist := checkListReady_sync hm hsync hin s
    rw [syncDevices_sync hm hsync hin]
    by_cases hready : n.checkListReady s = true
    · rw [if_pos hready]
      exact ⟨fun _ => ⟨t, rfl, hlist.mp hready⟩, fun _ => ⟨_, rfl⟩⟩
    · rw [if_neg hready]
      constructor
      · rintro ⟨s₁, h⟩
        cases h
      · rintro ⟨t', ht, h⟩
        obtain rfl := GraphInput.tensor.inj ht
        exact absurd (hlist.mpr h) hready
  | tensorVec ts =>
    have hdev : n.syncDevices d s =
        .error "Module cannot be synced when it's inputs are TensorVector" := by
      unfold syncDevices
      rw [hin]
    rw [hdev]
    constructor
    · rintro ⟨s₁, h⟩
      split_ifs at h
      · cases h
      · cases h
    · rintro ⟨t, ht, -⟩
      cases ht

/-- The tensors that `check_ready` does not ask, here ready all the same. -/
structure UnaskedReady (n : ModuleGraph N τ σ) (d : Fin N) (s : ClusterState N τ σ) : Prop where
  vector : ∀ m ts, n.Executes m → m.sync = false → n.input = .tensorVec ts →
    ∀ t ∈ ts, (s.device d).ready t = true
  /-- The own input of a device outside of the group that it waits for. -/
  outside : ∀ m t, n.Executes m → m.sync = true → n.input = .tensor t → d ∉ m.deviceList →
    (∀ e ∈ m.deviceList, (s.device e).ready t = true) → (s.device d).ready t = true

/-- The kinds of positions at which every consumed tensor is asked. -/
structure AsksAll (n : ModuleGraph N τ σ) (d : Fin N) : Prop where
  single : ∀ m ts, n.Executes m → m.sync = false → n.input = .tensorVec ts → ts = []
  member : ∀ m t, n.Executes m → m.sync = true → n.input = .tensor t → d ∈ m.deviceList

theorem forwardsReady_iff {n : ModuleGraph N τ σ} {d : Fin N} {s : ClusterState N τ σ} :
    n.ForwardsReady d s ↔ n.UnaskedReady d s := by
  constructor
  · intro h
    constructor
    · intro m ts hm hsync hin t ht
      have hne : n.input ≠ .tensorVec [] := by
        rintro hnil
        obtain rfl := GraphInput.tensorVec.inj (hin.symm.trans hnil)
        simp at ht
      obtain ⟨s₁, hcheck⟩ := (checkReady_async hm (by simp [hsync])).mpr
        ⟨fun t ht => by simp [hin] at ht, hne⟩
      exact h ⟨m, s₁, hm, hcheck⟩ d t (.input (by simpa [hin, GraphInput.tensors] using ht))
    · intro m t hm hsync hin _ hgroup
      obtain ⟨s₁, hcheck⟩ := (checkReady_sync hm hsync (d := d)).mpr ⟨t, hin, hgroup⟩
      exact h ⟨m, s₁, hm, hcheck⟩ d t (.input (by simp [hin, GraphInput.tensors]))
  · rintro h ⟨m, s₁, hm, hcheck⟩ e t hconsumed
    by_cases hsync : m.sync = true
    · obtain ⟨t₀, hin, hgroup⟩ := (checkReady_sync hm hsync).mp ⟨s₁, hcheck⟩
      cases hconsumed with
      | input ht =>
        obtain rfl : t = t₀ := by simpa [hin, GraphInput.tensors] using ht
        by_cases hd : d ∈ m.deviceList
        · exact hgroup d hd
        · exact h.outside m t hm hsync hin hd hgroup
      | group hm' _ he ht =>
        obtain rfl : t = t₀ := by simpa [hin, GraphInput.tensors] using ht
        obtain rfl := hm.unique hm'
        exact hgroup e he
    · obtain ⟨hsingle, -⟩ := (checkReady_async hm hsync).mp ⟨s₁, hcheck⟩
      cases hconsumed with
      | input ht =>
        cases hin : n.input with
        | tensor t₀ =>
          obtain rfl : t = t₀ := by simpa [hin, GraphInput.tensors] using ht
          exact hsingle t hin
        | tensorVec ts =>
          exact h.vector m ts hm (by simpa using hsync) hin t
            (by simpa [hin, GraphInput.tensors] using ht)
      | group hm' hsync' _ _ =>
        obtain rfl := hm.unique hm'
        exact absurd hsync' hsync

/-- A position forwards only on ready tensors exactly when those that it does not ask happen to
be ready. It does so under every assignment of the ready flags exactly when it asks them all. -/
theorem forward_on_ready_iff (n : ModuleGraph N τ σ) (d : Fin N) (s : ClusterState N τ σ) :
    (n.ForwardsReady d s ↔ n.UnaskedReady d s) ∧
      ((∀ flags, n.ForwardsReady d (s.withReady flags)) ↔ n.AsksAll d) := by
  refine ⟨forwardsReady_iff, ?_⟩
  constructor
  · intro h
    constructor
    · intro m ts hm hsync hin
      have hready := (forwardsReady_iff.mp (h fun _ _ => false)).vector m ts hm hsync hin
      exact List.eq_nil_iff_forall_not_mem.mpr fun t ht => by simpa using hready t ht
    · intro m t hm hsync hin
      by_contra hd
      -- Only the own input is missing.
      have hready := (forwardsReady_iff.mp (h fun e _ => decide (e ≠ d))).outside m t hm hsync hin
        hd (fun e he => by
          have hne : e ≠ d := fun heq => hd (heq ▸ he)
          simp [hne])
      simp at hready
  · intro h flags
    apply forwardsReady_iff.mpr
    constructor
    · intro m ts hm hsync hin t ht
      rw [h.single m ts hm hsync hin] at ht
      simp at ht
    · intro m t hm hsync hin hd
      exact absurd (h.member m t hm hsync hin) hd

/-- A module that is not a sync module, called on a vector of one tensor. -/
def onVector : ModuleGraph 1 ℕ Unit where
  module := some
    { graphExecution := true
      tensorList := []
      activations_mem := fun _ h => h
      forward := Prod.mk }
  input := .tensorVec [0]

/-- It goes forward although nothing is ready. -/
theorem onVector_forwards : ¬onVector.ForwardsReady 0 (Graphs.newCluster 1 ℕ) := by
  intro h
  have hready := h ⟨_, Graphs.newCluster 1 ℕ, ⟨rfl, rfl⟩, rfl⟩ 0 0 (.input (by decide))
  exact absurd hready (by decide)

end ModuleGraph

end LlmSystem
