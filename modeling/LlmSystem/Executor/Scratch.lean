import LlmSystem.Executor.Turns

/-! The operands that executors may leave with another shape. -/
namespace LlmSystem

open Runs

/-- Used as scratch space by some executor of the layer, and not set back. -/
def LayerType.scratch : LayerType → List ℕ
  | .attentionSum | .absorbedMlaSum => [0]
  | .attentionGen | .mlaGen => [1, 2]
  | _ => []

/-- The operands after an execution, of which only those at `scratch` have other shapes. -/
def Operands.SameBut (scratch : List ℕ) (ops ops' : Operands) : Prop :=
  ops'.length = ops.length ∧ ∀ tensor ∉ scratch, ops'.shape? tensor = ops.shape? tensor

theorem Operands.SameBut.trans {scratch : List ℕ} {ops ops' ops'' : Operands}
    (h : ops.SameBut scratch ops') (h' : ops'.SameBut scratch ops'') :
    ops.SameBut scratch ops'' :=
  ⟨h'.1.trans h.1, fun tensor htensor => (h'.2 tensor htensor).trans (h.2 tensor htensor)⟩

namespace Script
variable {script : Script} {u : Bool} {ops ops' : Operands} {tensor : ℕ}

/-- The transfers about a tensor leave its shape, or it is set back. -/
def KeepsAt (script : Script) (u : Bool) (tensor : ℕ) (shape : List ℕ) : Prop :=
  tensor ∉ script.restored → Transfer.leaves (script.transfers u) tensor shape = shape

theorem execute_keepsAt {d : DeviceMemory} {pimHWConfig : PIMHWConfig} {s s' : IssueState}
    {e : ExecStatus} (h : d.execute pimHWConfig u (some script) ops s = .ok (e, ops', s'))
    (hkeeps : ∀ shape, ops.shape? tensor = some shape → script.KeepsAt u tensor shape) :
    ops'.shape? tensor = ops.shape? tensor := by
  obtain ⟨callss, after, answerss, hcalls, -, -, -, rfl, -⟩ := DeviceMemory.execute_ok h
  have hflat := stageCalls_flat hcalls
  rw [(restore_spec (Transfer.calls_frame hflat)).2]
  split_ifs with hback
  · rfl
  · rw [Transfer.calls_shape? hflat]
    cases hshape : ops.shape? tensor with
    | none => rfl
    | some shape => exact congrArg some (hkeeps shape hshape hback)

/-- No transfer is about the tensor. -/
theorem keepsAt_of_ne {shape : List ℕ}
    (h : ∀ stage ∈ script.stages, ∀ t ∈ stage.transfers u, tensor ∉ script.restored →
      t.tensor ≠ tensor) : script.KeepsAt u tensor shape := by
  intro hback
  refine Transfer.leaves_eq (fun t ht htensor => ?_) shape
  obtain ⟨stage, hstage, ht⟩ := List.mem_flatMap.mp ht
  exact absurd htensor (h stage hstage t ht hback)

end Script

namespace Executor
open Transfer

section Scripts
variable {i : AttentionInput} {layerType : LayerType} {type : ProcessorType} {script : Script}
  {u : Bool} {tensor : ℕ} {shape : List ℕ}

/-- The stages of prefill move the first tensor only. -/
theorem keepsAt_byStage {seqs : List Sequence} {kinds : List (Sequence → Stage)}
    (hstages : script.stages = byStage seqs kinds)
    (hkinds : ∀ kind ∈ kinds, ∀ s, ∀ t ∈ (kind s).transfers u, t.tensor = 0) (hne : tensor ≠ 0) :
    script.KeepsAt u tensor shape := by
  refine Script.keepsAt_of_ne ?_
  rw [hstages]
  exact forall_mem_byStage.mpr fun kind hkind s _ t ht _ =>
    (hkinds kind hkind s t ht).trans_ne hne.symm

/-- Those of decode move the caches. -/
theorem keepsAt_pair {t t' : Transfer} (htransfers : script.transfers u = [t, t'])
    (ht : t.tensor = 1) (ht' : t'.tensor = 2) (hone : tensor ≠ 1) (htwo : tensor ≠ 2) :
    script.KeepsAt u tensor shape := by
  intro _
  rw [htransfers]
  refine leaves_eq (List.forall_mem_cons.mpr ⟨fun h => ?_, List.forall_mem_singleton.mpr fun h => ?_⟩)
    shape
  · exact absurd (h.symm.trans ht) hone
  · exact absurd (h.symm.trans ht') htwo

theorem caches_of_ite {n kCache vCache : ℕ}
    (h : (if 1 < n then (1, 2) else (0, 0)) = (kCache, vCache)) :
    (kCache = 0 ∨ kCache = 1) ∧ (vCache = 0 ∨ vCache = 2) := by
  split_ifs at h
  · obtain ⟨rfl, rfl⟩ := Prod.mk.inj h
    exact ⟨.inr rfl, .inr rfl⟩
  · obtain ⟨rfl, rfl⟩ := Prod.mk.inj h
    exact ⟨.inl rfl, .inl rfl⟩

/-- A stage that reads a cache between its operand and its result. -/
theorem middle_of_simulated {stage : Stage} {t₁ t₂ t₃ : Transfer} {cache : ℕ}
    (hsimulated : stage.simulated = [t₁, t₂, t₃])
    (hideal : stage.ideal = [t₁, t₂, t₃].map asRead) (hfirst : t₁.tensor = 0)
    (hmiddle : t₂.tensor = cache) (hlast : t₃.tensor = 0) :
    ∀ t ∈ stage.transfers u, t.tensor = 0 ∨ t.tensor = cache := by
  apply forall_transfers (P := fun tensor _ => tensor = 0 ∨ tensor = cache) hsimulated hideal
  simp [hfirst, hmiddle, hlast]

/-- Latent attention also moves the first tensor, but sets it back. -/
theorem keepsAt_mlaGen {rates : Rates} {p kCache vCache : ℕ} {seqs : List Sequence}
    (hkey : kCache = 0 ∨ kCache ≠ tensor) (hvalue : vCache = 0 ∨ vCache ≠ tensor) :
    (LatentGen.script type rates i.layerInfo p kCache vCache seqs).KeepsAt u tensor shape := by
  have hother : ∀ {cache : ℕ}, cache = 0 ∨ cache ≠ tensor → ∀ tensor', tensor ∉ [0] →
      tensor' = 0 ∨ tensor' = cache → tensor' ≠ tensor := by
    intro cache hcache tensor' hback htensor' heq
    have hzero : tensor ≠ 0 := by simpa using hback
    omega
  refine Script.keepsAt_of_ne (LatentGen.forall_mem_stages (fun _ => ?_) fun _ => ⟨?_, ?_, ?_⟩)
  · intro t ht hback
    exact hother (.inl rfl) _ hback (.inl (first_of_simulated rfl rfl rfl t ht))
  · intro t ht hback
    exact hother hkey _ hback (middle_of_simulated rfl rfl rfl rfl rfl t ht)
  · intro s _ t ht hback
    exact hother (.inl rfl) _ hback (.inl (first_of_simulated rfl rfl rfl t ht))
  · intro t ht hback
    exact hother hvalue _ hback (middle_of_simulated rfl rfl rfl rfl rfl t ht)

/-- Only scratch operands are left with another shape. -/
theorem Scripted.keepsAt (hscript : Scripted i layerType type script)
    (htensor : tensor ∉ layerType.scratch) (hshape : i.tensors.shape? tensor = some shape) :
    script.KeepsAt u tensor shape := by
  have hall : KeepsShapes i layerType type → script.KeepsAt u tensor shape :=
    fun h hback => hscript.keeps_iff.mpr h tensor hback shape hshape
  cases hscript with
  | linear | batchedLinear | batchedLinearGPU | activation | activationLogic | mlaSum
  | absorbedMlaGen | attentionMixedGPU | attentionMixedPIM | mlaMixed => exact hall trivial
  | absorbedSumGPU => exact hall (.inr fun _ _ _ _ => rfl)
  | attentionSumGPU | attentionSumLogic | attentionSumPIM =>
    refine keepsAt_byStage rfl ?_ (by simpa [LayerType.scratch] using htensor)
    simp only [List.forall_mem_cons]
    exact ⟨fun _ => first_of_simulated rfl rfl rfl, fun _ => first_of_simulated rfl rfl rfl,
      fun _ => first_of_simulated rfl rfl rfl, by simp⟩
  | absorbedSumLogic | absorbedSumPIM =>
    refine keepsAt_byStage rfl ?_ (by simpa [LayerType.scratch] using htensor)
    simp only [List.forall_mem_cons]
    exact ⟨fun _ => first_of_simulated rfl rfl rfl, fun _ => first_of_simulated rfl rfl rfl,
      fun _ => first_of_simulated rfl rfl rfl, fun _ => first_of_simulated rfl rfl rfl, by simp⟩
  | attentionGenGPU | attentionGenLogic =>
    obtain ⟨hone, htwo⟩ : tensor ≠ 1 ∧ tensor ≠ 2 := by simpa [LayerType.scratch] using htensor
    cases u with
    | true => exact keepsAt_pair rfl rfl rfl hone htwo
    | false => exact keepsAt_pair rfl rfl rfl hone htwo
  | attentionGenPIM =>
    obtain ⟨hone, htwo⟩ : tensor ≠ 1 ∧ tensor ≠ 2 := by simpa [LayerType.scratch] using htensor
    cases u with
    | true => exact keepsAt_pair transfers_attentionGenPIM rfl rfl hone htwo
    | false => exact keepsAt_pair transfers_attentionGenPIM rfl rfl hone htwo
  | @mlaGen _ rates input kCache vCache operands caches =>
    obtain ⟨hone, htwo⟩ : tensor ≠ 1 ∧ tensor ≠ 2 := by simpa [LayerType.scratch] using htensor
    obtain ⟨hkey, hvalue⟩ := caches_of_ite caches.caches
    exact keepsAt_mlaGen (hkey.imp_right (·.trans_ne hone.symm))
      (hvalue.imp_right (·.trans_ne htwo.symm))

/-- What the executors of a layer do to the shapes of other operands: nothing, also one after the
other. -/
theorem executePType_keeps {d : DeviceMemory} {s s' : IssueState} {e : ExecStatus} {ops : Operands}
    (h : executePType d u layerType type i s = .ok (e, ops, s')) :
    i.tensors.SameBut layerType.scratch ops := by
  rcases executePType_found h with ⟨-, -, rfl, -⟩ | ⟨script, execStatus, hscript, hexec, -⟩
  · exact ⟨rfl, fun _ _ => rfl⟩
  · refine ⟨by simpa using congrArg List.length (Script.execute_keeps_iff hexec).1, ?_⟩
    intro tensor htensor
    exact Script.execute_keepsAt hexec fun _ hshape => hscript.keepsAt htensor hshape

theorem turns_keep {d : DeviceMemory} {s : IssueState} {types : List ProcessorType}
    {ops : Operands} {ts : List Turn} (h : turns d u layerType i types ops s = .ok ts) :
    ∀ turn ∈ ts, ops.SameBut layerType.scratch turn.after := by
  induction types generalizing s ops ts with
  | nil =>
    obtain rfl := Except.ok.inj h
    simp
  | cons type types ih =>
    obtain ⟨e, ops', s', rest, hone, hrest, rfl⟩ := turns_cons h
    have hsame := executePType_keeps hone
    exact List.forall_mem_cons.mpr ⟨hsame, fun turn hturn => hsame.trans (ih hrest turn hturn)⟩

end Scripts
end Executor
end LlmSystem
