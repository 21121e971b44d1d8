import LlmSystem.Executor.Reshaping
import LlmSystem.Executor.Work

/-!
The shapes that executors leave. Operands serve as scratch space, and not every executor sets their
shapes back; the next candidate for the same layer then works on other operands.
-/
namespace LlmSystem

open Runs

namespace Reshape

instance (n : ℕ) : (reshape : Reshape) → Decidable (reshape.LeavesFrom n)
  | .keep => .isTrue trivial
  | .whole _ => .isFalse id
  | .firstTwo _ _ => inferInstanceAs (Decidable (2 ≤ n))
  | .first _ => inferInstanceAs (Decidable (1 ≤ n))

/-- The shape after it, where there are dimensions to set. -/
def effect : Reshape → List ℕ → List ℕ
  | .keep, shape => shape
  | .whole shape, _ => shape
  | .firstTwo rows columns, shape => rows :: columns :: shape.drop 2
  | .first rows, shape => rows :: shape.drop 1

theorem apply_eq_effect {reshape : Reshape} {shape shape' : List ℕ}
    (h : reshape.apply shape = .ok shape') : shape' = reshape.effect shape := by
  cases reshape with
  | keep => exact (Except.ok.inj h).symm
  | whole shape => exact (Except.ok.inj h).symm
  | firstTwo rows columns => exact apply_firstTwo h
  | first rows => exact apply_first h

theorem LeavesFrom.effect {n : ℕ} {reshape : Reshape} (h : reshape.LeavesFrom n) (shape : List ℕ) :
    (reshape.effect shape).drop n = shape.drop n := by
  cases reshape with
  | keep => rfl
  | whole shape => exact h.elim
  | firstTwo rows columns =>
    obtain ⟨k, rfl⟩ := Nat.exists_eq_add_of_le' h
    show List.drop k (shape.drop 2) = _
    rw [List.drop_drop, add_comm]
  | first rows =>
    obtain ⟨k, rfl⟩ := Nat.exists_eq_add_of_le' h
    show List.drop k (shape.drop 1) = _
    rw [List.drop_drop, add_comm]

end Reshape

namespace Transfer

/-- What transfers leave of the shape of a tensor. -/
def leaves (ts : List Transfer) (tensor : ℕ) (shape : List ℕ) : List ℕ :=
  ts.foldl (fun shape t => if t.tensor = tensor then t.reshape.effect shape else shape) shape

theorem leaves_append (ts ts' : List Transfer) (tensor : ℕ) (shape : List ℕ) :
    leaves (ts ++ ts') tensor shape = leaves ts' tensor (leaves ts tensor shape) :=
  List.foldl_append

theorem leaves_drop {n tensor : ℕ} {ts : List Transfer}
    (hts : ∀ t ∈ ts, t.tensor = tensor → t.reshape.LeavesFrom n) (shape : List ℕ) :
    (leaves ts tensor shape).drop n = shape.drop n := by
  induction ts generalizing shape with
  | nil => rfl
  | cons t ts ih =>
    obtain ⟨ht, hrest⟩ := List.forall_mem_cons.mp hts
    show (leaves ts tensor (if t.tensor = tensor then _ else shape)).drop n = _
    rw [ih hrest]
    split_ifs with htensor
    · exact (ht htensor).effect shape
    · rfl

/-- Transfers that set no dimension of a tensor leave it as it is. -/
theorem leaves_eq {tensor : ℕ} {ts : List Transfer}
    (hts : ∀ t ∈ ts, t.tensor = tensor → t.reshape.LeavesFrom 0) (shape : List ℕ) :
    leaves ts tensor shape = shape := leaves_drop hts shape

variable {layerType : LayerType} {pimHWConfig : PIMHWConfig} {ops ops' : Operands}

theorem calls_shape? {ts : List Transfer} {cs : List IssueCall}
    (h : calls layerType pimHWConfig ts ops = .ok (cs, ops')) (tensor : ℕ) :
    ops'.shape? tensor = (ops.shape? tensor).map (leaves ts tensor) := by
  induction ts generalizing ops cs with
  | nil =>
    obtain ⟨-, rfl⟩ := Prod.mk.inj (Except.ok.inj h)
    exact Option.map_id'.symm
  | cons t ts ih =>
    obtain ⟨c, ops₁, cs', hone, hrest, -⟩ := calls_cons h
    obtain ⟨shape, shape', hget, hshape, hset⟩ := call_shape hone
    rw [ih hrest, hset]
    obtain rfl := Reshape.apply_eq_effect hshape
    by_cases htensor : tensor = t.tensor
    · rw [if_pos htensor, htensor, hget]
      simp [leaves]
    · rw [if_neg htensor]
      congr 1
      funext shape
      simp [leaves, Ne.symm htensor]

/-- Nothing but shapes changes. -/
theorem calls_frame {ts : List Transfer} {cs : List IssueCall}
    (h : calls layerType pimHWConfig ts ops = .ok (cs, ops')) :
    ops'.map (·.setShape []) = ops.map (·.setShape []) := by
  induction ts generalizing ops cs with
  | nil =>
    obtain ⟨-, rfl⟩ := Prod.mk.inj (Except.ok.inj h)
    rfl
  | cons t ts ih =>
    obtain ⟨c, ops₁, cs', hone, hrest, -⟩ := calls_cons h
    obtain ⟨tensor, shape, htensor, -, -, rfl⟩ := call_ok hone
    have hget : (ops.map (·.setShape []))[t.tensor]? = some (tensor.setShape []) := by
      rw [List.getElem?_map, htensor]
      rfl
    obtain ⟨hlt, hval⟩ := List.getElem?_eq_some_iff.mp hget
    rw [ih hrest, List.map_set, Tensor.setShape_setShape, ← hval, List.set_getElem_self]

end Transfer

theorem Tensor.ext_shape {t t' : Tensor} (h : t.setShape [] = t'.setShape [])
    (hshape : t.shape = t'.shape) : t = t' := by
  cases t
  cases t'
  simp only [setShape, Tensor.mk.injEq] at h hshape
  obtain ⟨rfl, -, rfl⟩ := h
  obtain rfl := hshape
  rfl

/-- Operands of the same shapes that differ in nothing else are the same. -/
theorem Operands.ext_shapes {ops ops' : Operands}
    (h : ops'.map (·.setShape []) = ops.map (·.setShape []))
    (hshapes : ops'.shapes = ops.shapes) : ops' = ops := by
  induction ops generalizing ops' with
  | nil => exact List.map_eq_nil_iff.mp h
  | cons t ops ih =>
    obtain ⟨t', ops', rfl, ht, hops⟩ := List.map_eq_cons_iff.mp h
    obtain ⟨hshape, hrest⟩ := List.cons.inj hshapes
    rw [Tensor.ext_shape ht hshape, ih hops hrest]

namespace Script
variable {script : Script} {before after : Operands}

/-- The shapes that are set back are those of the beginning, the others those of the end. -/
theorem restore_spec (h : after.map (·.setShape []) = before.map (·.setShape [])) :
    (script.restore before after).map (·.setShape []) = before.map (·.setShape []) ∧
      ∀ j, (script.restore before after).shape? j
        = if j ∈ script.restored then before.shape? j else after.shape? j := by
  unfold restore
  induction script.restored generalizing after with
  | nil => exact ⟨h, fun j => rfl⟩
  | cons tensor restored ih =>
    have hsame (j : ℕ) : (after[j]?).map (·.setShape []) = (before[j]?).map (·.setShape []) := by
      rw [← List.getElem?_map, ← List.getElem?_map, h]
    rw [List.foldl_cons]
    split
    next t t' ht ht' =>
      have hframe : (after.set tensor (t'.setShape t.shape)).map (·.setShape [])
          = before.map (·.setShape []) := by
        have hget : (before.map (·.setShape []))[tensor]? = some (t'.setShape []) := by
          rw [← h, List.getElem?_map, ht']
          rfl
        obtain ⟨hlt, hval⟩ := List.getElem?_eq_some_iff.mp hget
        rw [List.map_set, Tensor.setShape_setShape, h, ← hval, List.set_getElem_self]
      obtain ⟨hrest, hshapes⟩ := ih hframe
      refine ⟨hrest, fun j => ?_⟩
      rw [hshapes, Operands.shape?_set ht']
      by_cases hj : j = tensor
      · rw [hj, Operands.shape?_eq_some ht]
        simp
      · simp [hj]
    next hnone =>
      obtain ⟨hrest, hshapes⟩ := ih h
      refine ⟨hrest, fun j => ?_⟩
      rw [hshapes]
      by_cases hj : j = tensor
      · -- Without such a tensor there is none on either side.
        have hbefore : before[tensor]? = none := by
          rcases hb : before[tensor]? with _ | t
          · rfl
          · rcases ha : after[tensor]? with _ | t'
            · simpa [hb, ha] using hsame tensor
            · exact absurd ha (hnone t t' hb)
        have hafter : after[tensor]? = none := by simpa [hbefore] using hsame tensor
        simp [hj, Operands.shape?, hbefore, hafter]
      · simp [hj]

/-- The transfers of all stages. -/
def transfers (script : Script) (useRamulator : Bool) : List Transfer :=
  script.stages.flatMap (·.transfers useRamulator)

/-- Every tensor is set back or left as it was. -/
def Keeps (script : Script) (useRamulator : Bool) (ops : Operands) : Prop :=
  ∀ tensor, tensor ∉ script.restored → ∀ shape, ops.shape? tensor = some shape →
    Transfer.leaves (script.transfers useRamulator) tensor shape = shape

theorem execute_keeps_iff {d : DeviceMemory} {pimHWConfig : PIMHWConfig} {useRamulator : Bool}
    {ops ops' : Operands} {s s' : IssueState} {e : ExecStatus}
    (h : d.execute pimHWConfig useRamulator (some script) ops s = .ok (e, ops', s')) :
    ops'.map (·.setShape []) = ops.map (·.setShape []) ∧
      (ops'.shapes = ops.shapes ↔ script.Keeps useRamulator ops) := by
  obtain ⟨callss, after, answerss, hcalls, -, -, -, rfl, -⟩ := DeviceMemory.execute_ok h
  have hflat := stageCalls_flat hcalls
  obtain ⟨hframe, hrestore⟩ : (script.restore ops after).map _ = _ ∧ ∀ j, _ :=
    restore_spec (Transfer.calls_frame hflat)
  refine ⟨hframe, Operands.shapes_eq_iff.trans (forall_congr' fun tensor => ?_)⟩
  rw [hrestore]
  by_cases hback : tensor ∈ script.restored
  · simp [hback]
  · rw [if_neg hback, Transfer.calls_shape? hflat]
    cases hshape : ops.shape? tensor with
    | none => simp
    | some shape => simp [hback, transfers]

end Script

/-! ### What each executor leaves -/

namespace Executor
open Transfer

section Leaves
variable {u : Bool} {seqs : List Sequence} {kinds : List (Sequence → Stage)} {n : ℕ}
  {shape : List ℕ}

/-- Of the stages, the last one of the last sequence decides. -/
theorem leaves_byStage (kind : Sequence → Stage) (s : Sequence) : ∃ shape₀,
    leaves ((byStage (seqs ++ [s]) (kinds ++ [kind])).flatMap (·.transfers u)) 0 shape
      = leaves ((kind s).transfers u) 0 shape₀ ∧
    ((∀ k ∈ kinds ++ [kind], ∀ s, ∀ t ∈ (k s).transfers u, t.reshape.LeavesFrom n) →
      shape₀.drop n = shape.drop n) := by
  have hsplit : byStage (seqs ++ [s]) (kinds ++ [kind])
      = (byStage (seqs ++ [s]) kinds ++ seqs.map kind) ++ [kind s] := by
    simp [byStage]
  rw [hsplit, List.flatMap_append, leaves_append, List.flatMap_singleton]
  refine ⟨_, rfl, fun hkinds => leaves_drop (fun t ht _ => ?_) shape⟩
  obtain ⟨stage, hstage, ht⟩ := List.mem_flatMap.mp ht
  rcases List.mem_append.mp hstage with hstage | hstage
  · obtain ⟨k, hk, hstage⟩ := List.mem_flatMap.mp hstage
    obtain ⟨s', -, rfl⟩ := List.mem_map.mp hstage
    exact hkinds k (List.mem_append_left _ hk) s' t ht
  · obtain ⟨s', -, rfl⟩ := List.mem_map.mp hstage
    exact hkinds kind (by simp) s' t ht

/-- Only tensors that are set back are used as scratch space. -/
theorem keeps_of_restored {script : Script} {ops : Operands}
    (h : ∀ stage ∈ script.stages, ∀ t ∈ stage.transfers u, t.tensor ∉ script.restored →
      t.reshape.LeavesFrom 0) : script.Keeps u ops := by
  intro tensor hback shape _
  refine leaves_eq (fun t ht htensor => ?_) shape
  obtain ⟨stage, hstage, ht⟩ := List.mem_flatMap.mp ht
  exact h stage hstage t ht (htensor ▸ hback)

/-- Only the first tensor is. -/
theorem keeps_first_iff {script : Script} {ops : Operands} {first : Tensor}
    (hfirst : ops[0]? = some first) (hrestored : script.restored = [])
    (h : ∀ stage ∈ script.stages, ∀ t ∈ stage.transfers u, t.tensor = 0) :
    script.Keeps u ops ↔ leaves (script.transfers u) 0 first.shape = first.shape := by
  have hnone : ∀ tensor, tensor ∉ script.restored := by simp [hrestored]
  constructor
  · exact fun hkeeps => hkeeps 0 (hnone 0) first.shape (Operands.shape?_eq_some hfirst)
  · intro hzero tensor _ shape hshape
    by_cases htensor : tensor = 0
    · subst htensor
      rw [Operands.shape?_eq_some hfirst] at hshape
      exact Option.some.inj hshape ▸ hzero
    · refine leaves_eq (fun t ht heq => ?_) shape
      obtain ⟨stage, hstage, ht⟩ := List.mem_flatMap.mp ht
      exact absurd (heq.symm.trans (h stage hstage t ht)) htensor

end Leaves

/-! ### The shapes that stay -/

/-- What the last sequence in prefill leaves of the first tensor. -/
def sumShape (type : ProcessorType) (info : LayerInfo) (s : Sequence) (shape : List ℕ) : List ℕ :=
  match type with
  | .gpu => s.processed :: info.headDim * info.numHeads :: shape.drop 2
  | .logic => s.attended :: info.headDim * info.numKvHeads :: shape.drop 2
  | .pim => s.attended :: shape.drop 1
  | .none => shape

def absorbedSumShape (type : ProcessorType) (info : LayerInfo) (s : Sequence) (shape : List ℕ) :
    List ℕ :=
  match type with
  | .logic => [s.processed, info.kvLoraRank * info.numHeads]
  | .pim => [s.attended, 1]
  | _ => shape

/-- The last sequence in prefill finds the first tensor in the shape in which it leaves it. -/
def LastFinds (i : AttentionInput) (left : Sequence → List ℕ → List ℕ) : Prop :=
  ∀ s, i.sequencesMetadata.getSum.getLast? = some s →
    ∀ shape, i.tensors.shape? 0 = some shape → left s shape = shape

/-- The caches have the shapes in which they are read. -/
def CachesFit (i : AttentionInput) (keys values : List ℕ) : Prop :=
  i.tensors.shape? 1 = some keys ∧ i.tensors.shape? 2 = some values

/-- Where an executor leaves its operands as they were. -/
def KeepsShapes (i : AttentionInput) : LayerType → ProcessorType → Prop
  | .attentionSum, type => EmptyAt i.tensors 0 ∨ LastFinds i (sumShape type i.layerInfo)
  | .absorbedMlaSum, type => EmptyAt i.tensors 0 ∨ LastFinds i (absorbedSumShape type i.layerInfo)
  | .attentionGen, type =>
    let seqs := i.sequencesMetadata.getGen
    let width := i.layerInfo.headDim * i.layerInfo.numKvHeads
    let keys := if type = .gpu then AttentionGen.attendedLen seqs
      else AttentionGen.paddedCacheLen seqs
    i.sequencesMetadata.getGenProcessToken = 0 ∨
      CachesFit i [keys, width] [AttentionGen.paddedCacheLen seqs, width]
  | .mlaGen, _ =>
    let len := AttentionGen.attendedLen i.sequencesMetadata.getGen
    i.sequencesMetadata.getGenProcessToken = 0 ∨ i.layerInfo.useFlashMla = true ∨
      i.tensors.length ≤ 1 ∨
      CachesFit i [len, LatentSum.keyDim i.layerInfo * i.layerInfo.numHeads]
        [len, i.layerInfo.headDim * i.layerInfo.numHeads]
  | _, _ => True

section Transfers
variable {u : Bool} {P : ℕ → Reshape → Prop} {stage : Stage} {ts : List Transfer}

theorem forall_asRead (h : ∀ t ∈ ts, P t.tensor t.reshape) :
    ∀ t ∈ ts.map asRead, P t.tensor t.reshape := by
  rw [List.forall_mem_map]
  intro t ht
  unfold asRead
  split_ifs
  · exact h t ht
  · exact h t ht

/-- The tensors that are moved without the simulator are those that are moved with it. -/
theorem forall_transfers (hsimulated : stage.simulated = ts) (hideal : stage.ideal = ts.map asRead)
    (h : ∀ t ∈ ts, P t.tensor t.reshape) : ∀ t ∈ stage.transfers u, P t.tensor t.reshape := by
  cases u with
  | true =>
    show ∀ t ∈ stage.simulated, _
    rw [hsimulated]
    exact h
  | false =>
    show ∀ t ∈ stage.ideal, _
    rw [hideal]
    exact forall_asRead h

end Transfers

section Scripts
variable {i : AttentionInput} {layerType : LayerType} {type : ProcessorType} {script : Script}
  {u : Bool}

/-- The layers whose tensors are moved as they are. -/
theorem keeps_linearScript {rates : Rates} {t : Transfer} {report : ExecStatus → ExecStatus}
    {p m k n : ℕ} {ops : Operands} (ht : WeightTransfer t) :
    (linearScript rates t report p m k n).Keeps u ops := by
  have hkeep : t.reshape = .keep := by
    rcases ht with rfl | ⟨type, rfl⟩
    · rfl
    · rfl
  refine keeps_of_restored (List.forall_mem_singleton.mpr fun t' ht' _ => ?_)
  have hall : ∀ t' ∈ [read .gpu 0 .keep, t, write .gpu 2 .keep],
      t'.reshape.LeavesFrom 0 := by
    simp [Transfer.read, write, hkeep, Reshape.LeavesFrom]
  exact forall_transfers (P := fun _ reshape => reshape.LeavesFrom 0) rfl rfl hall t' ht'

theorem keeps_batchedScript {rates : Rates} {duplicatedInput : Bool} {p numHeads m k n : ℕ}
    {ops : Operands} : (batchedScript rates duplicatedInput p numHeads m k n).Keeps u ops := by
  refine keeps_of_restored (List.forall_mem_singleton.mpr fun t ht hback => absurd ?_ hback)
  suffices hall : ∀ t ∈ (batchedLinearStage rates duplicatedInput p numHeads m k n).transfers u,
      t.tensor ∈ [0, 1, 2] from hall t ht
  cases u with
  | true =>
    show ∀ t ∈ [Transfer.read .gpu 0 _, Transfer.read .gpu 1 _, write .gpu 2 _], _
    simp [Transfer.read, write]
  | false =>
    show ∀ t ∈ [Transfer.read .gpu 0 .keep, Transfer.read .gpu 1 .keep, write .gpu 2 .keep], _
    simp [Transfer.read, write]

theorem keeps_activationScript {rates : Rates} {flops memorySize : ℕ}
    {simulated ideal : List Transfer} {report : ExecStatus → ExecStatus} {ops : Operands}
    (hsimulated : ∀ t ∈ simulated, t.reshape = .keep) (hideal : ∀ t ∈ ideal, t.reshape = .keep) :
    (activationScript rates flops memorySize simulated ideal report).Keeps u ops := by
  refine keeps_of_restored (List.forall_mem_singleton.mpr fun t ht _ => ?_)
  have hkeep : t.reshape = .keep := by
    cases u with
    | true => exact hsimulated t ht
    | false => exact hideal t ht
  rw [hkeep]
  trivial

/-- A script that uses the first tensor only, and sets it back. -/
theorem keeps_of_first {script : Script} {ops : Operands} (hrestored : script.restored = [0])
    (h : ∀ stage ∈ script.stages, ∀ t ∈ stage.transfers u, t.tensor = 0) : script.Keeps u ops :=
  keeps_of_restored fun stage hstage t ht hback =>
    absurd (by rw [hrestored, h stage hstage t ht]; simp) hback

/-- The transfers of a stage on the first tensor. -/
theorem first_of_simulated {stage : Stage} {ts : List Transfer} (hsimulated : stage.simulated = ts)
    (hideal : stage.ideal = ts.map asRead) (h : ts.all fun t => t.tensor == 0) :
    ∀ t ∈ stage.transfers u, t.tensor = 0 :=
  forall_transfers (P := fun tensor _ => tensor = 0) hsimulated hideal (by simpa using h)

/-- The shape of the first tensor stays, if it is the one in which the last sequence leaves it. -/
theorem keeps_byStage_iff {script : Script} {input : Tensor} (kinds : List (Sequence → Stage))
    (kind : Sequence → Stage) {left : Sequence → List ℕ → List ℕ} (n : ℕ)
    (hinput : NonemptyAt i.tensors 0 input) (hrestored : script.restored = [])
    (hstages : script.stages = byStage i.sequencesMetadata.getSum (kinds ++ [kind]))
    (hfirst : ∀ k ∈ kinds ++ [kind], ∀ s, ∀ t ∈ (k s).transfers u, t.tensor = 0)
    (hlast : ∀ s shape shape₀, ((∀ k ∈ kinds ++ [kind], ∀ s, ∀ t ∈ (k s).transfers u,
      t.reshape.LeavesFrom n) → shape₀.drop n = shape.drop n) →
        leaves ((kind s).transfers u) 0 shape₀ = left s shape) :
    script.Keeps u i.tensors ↔ EmptyAt i.tensors 0 ∨ LastFinds i left := by
  rw [or_iff_right hinput.not_emptyAt, keeps_first_iff hinput.1 hrestored]
  · unfold LastFinds Script.transfers
    rw [hstages, Operands.shape?_eq_some hinput.1]
    generalize i.sequencesMetadata.getSum = seqs
    rcases List.eq_nil_or_concat seqs with rfl | ⟨seqs', s, rfl⟩
    · have hnone : byStage [] (kinds ++ [kind]) = [] := by simp [byStage]
      rw [hnone]
      simp [leaves]
    · rw [List.concat_eq_append]
      obtain ⟨shape₀, hleaves, hdrop⟩ := leaves_byStage kind s
      rw [hleaves, hlast s input.shape shape₀ hdrop]
      simp
  · rw [hstages]
    exact forall_mem_byStage.mpr fun k hk s _ => hfirst k hk s

/-- A transfer that sets no dimension of the first tensor from the `n`-th on. -/
def OnFirst (n : ℕ) (tensor : ℕ) (reshape : Reshape) : Prop := tensor = 0 ∧ reshape.LeavesFrom n

instance (n tensor : ℕ) (reshape : Reshape) : Decidable (OnFirst n tensor reshape) :=
  inferInstanceAs (Decidable (_ ∧ _))

theorem onFirst_of_simulated {n : ℕ} {stage : Stage} {ts : List Transfer}
    (hsimulated : stage.simulated = ts) (hideal : stage.ideal = ts.map asRead)
    (h : ts.all fun t => decide (OnFirst n t.tensor t.reshape)) :
    ∀ t ∈ stage.transfers u, OnFirst n t.tensor t.reshape :=
  forall_transfers hsimulated hideal (by simpa using h)

/-- Where the last product sets some dimensions, and no stage sets a further one. -/
theorem keeps_dims_iff {script : Script} {input : Tensor}
    {scoring softmax context : Sequence → Stage} (dims : Sequence → List ℕ) (n : ℕ)
    (hinput : NonemptyAt i.tensors 0 input)
    (hrestored : script.restored = [])
    (hstages : script.stages = byStage i.sequencesMetadata.getSum [scoring, softmax, context])
    (hscoring : ∀ s, ∀ t ∈ (scoring s).transfers u, OnFirst n t.tensor t.reshape)
    (hsoftmax : ∀ s, ∀ t ∈ (softmax s).transfers u, OnFirst n t.tensor t.reshape)
    (hcontext : ∀ s, ∀ t ∈ (context s).transfers u, OnFirst n t.tensor t.reshape)
    (hleaves : ∀ s shape, leaves ((context s).transfers u) 0 shape = dims s ++ shape.drop n) :
    script.Keeps u i.tensors ↔
      EmptyAt i.tensors 0 ∨ LastFinds i fun s shape => dims s ++ shape.drop n := by
  have hon : ∀ k ∈ [scoring, softmax] ++ [context], ∀ s, ∀ t ∈ (k s).transfers u,
      OnFirst n t.tensor t.reshape := by
    simp only [List.forall_mem_append, List.forall_mem_cons]
    exact ⟨⟨hscoring, hsoftmax, by simp⟩, hcontext, by simp⟩
  refine keeps_byStage_iff [scoring, softmax] context n hinput hrestored hstages
    (fun k hk s t ht => (hon k hk s t ht).1) fun s shape shape₀ hdrop => ?_
  rw [hleaves, hdrop fun k hk s t ht => (hon k hk s t ht).2]

/-- A stage that moves no tensor. -/
theorem not_mem_transfers {stage : Stage} (hsimulated : stage.simulated = [])
    (hideal : stage.ideal = []) (t : Transfer) : t ∉ stage.transfers u := by
  cases u with
  | true => simp [Stage.transfers, hsimulated]
  | false => simp [Stage.transfers, hideal]

/-- Keys and values are set to the shapes in which they are read. -/
theorem keeps_caches_iff {script : Script} {keys values : List ℕ} {key value : Tensor}
    (hkey : i.tensors[1]? = some key) (hvalue : i.tensors[2]? = some value)
    (hrestored : 1 ∉ script.restored ∧ 2 ∉ script.restored)
    (hkeys : ∀ shape, leaves (script.transfers u) 1 shape = keys)
    (hvalues : ∀ shape, leaves (script.transfers u) 2 shape = values)
    (hothers : ∀ tensor, tensor ≠ 1 → tensor ≠ 2 → tensor ∉ script.restored →
      ∀ shape, leaves (script.transfers u) tensor shape = shape) :
    script.Keeps u i.tensors ↔ CachesFit i keys values := by
  have hfirst := Operands.shape?_eq_some hkey
  have hsecond := Operands.shape?_eq_some hvalue
  unfold CachesFit
  rw [hfirst, hsecond, Option.some.injEq, Option.some.injEq]
  constructor
  · intro hkeeps
    constructor
    · exact (hkeeps 1 hrestored.1 key.shape hfirst).symm.trans (hkeys key.shape)
    · exact (hkeeps 2 hrestored.2 value.shape hsecond).symm.trans (hvalues value.shape)
  · rintro ⟨hfit, hfit'⟩ tensor hback shape hshape
    by_cases htensor : tensor = 1
    · subst htensor
      rw [hkeys, ← hfit]
      exact Option.some.inj (hfirst.symm.trans hshape)
    · by_cases htensor' : tensor = 2
      · subst htensor'
        rw [hvalues, ← hfit']
        exact Option.some.inj (hsecond.symm.trans hshape)
      · exact hothers tensor htensor htensor' hback shape

/-- With one transfer for the keys and one for the values. -/
theorem keeps_pair_iff {script : Script} {keys values : List ℕ} {key value : Tensor}
    {t t' : Transfer} (hkey : i.tensors[1]? = some key) (hvalue : i.tensors[2]? = some value)
    (hrestored : script.restored = []) (htransfers : script.transfers u = [t, t'])
    (ht : t.tensor = 1 ∧ t.reshape = .whole keys)
    (ht' : t'.tensor = 2 ∧ t'.reshape = .whole values) :
    script.Keeps u i.tensors ↔ CachesFit i keys values := by
  refine keeps_caches_iff hkey hvalue (by simp [hrestored]) (fun shape => ?_) (fun shape => ?_)
    fun tensor hone htwo _ shape => ?_
  · simp [htransfers, leaves, ht, ht', Reshape.effect]
  · simp [htransfers, leaves, ht, ht', Reshape.effect]
  · simp [htransfers, leaves, ht, ht', hone.symm, htwo.symm]

/-- Wherever the products are computed, the caches are read once. -/
theorem transfers_attentionGenPIM {rates : Rates} {info : LayerInfo} {p : ℕ} {c : ExecutorConfig}
    {seqs : List Sequence} {report : ExecStatus → ExecStatus} :
    (attentionGenScript rates [AttentionGen.scoringPIM info p c seqs,
        AttentionGen.softmaxPIM info p c seqs, AttentionGen.contextPIM info p c seqs]
        report).transfers u
      = [(if u then gemv .pim else Transfer.read .pim) 1
          (AttentionGen.cacheShape info (AttentionGen.paddedCacheLen seqs)),
        (if u then gemv .pim else Transfer.read .pim) 2
          (AttentionGen.cacheShape info (AttentionGen.paddedCacheLen seqs))] := by
  have hstage {unit : AttentionGen.Unit} {cache : ℕ} {record : ℚ → ExecStatus → ExecStatus}
      {addBanks : ℚ → ℚ → ExecStatus → ExecStatus} :
      (AttentionGen.pimStage info p c unit seqs cache record addBanks).transfers u
        = [(if u then gemv .pim else Transfer.read .pim) cache
          (AttentionGen.cacheShape info (AttentionGen.paddedCacheLen seqs))] := by
    cases unit <;> cases u <;> rfl
  have hscoring : (AttentionGen.scoringPIM info p c seqs).transfers u = _ := hstage
  have hcontext : (AttentionGen.contextPIM info p c seqs).transfers u = _ := hstage
  have hsoftmax : (AttentionGen.softmaxPIM info p c seqs).transfers u = [] := by cases u <;> rfl
  show (AttentionGen.scoringPIM info p c seqs).transfers u
    ++ ((AttentionGen.softmaxPIM info p c seqs).transfers u
      ++ ((AttentionGen.contextPIM info p c seqs).transfers u ++ [])) = _
  rw [hscoring, hsoftmax, hcontext]
  rfl

/-- The caches of latent attention, between products that set the first tensor otherwise. -/
theorem keeps_latentGen {rates : Rates} {p : ℕ} {key value : Tensor}
    (hflash : i.layerInfo.useFlashMla = false) (hkey : i.tensors[1]? = some key)
    (hvalue : i.tensors[2]? = some value) (seqs : List Sequence) :
    (LatentGen.script type rates i.layerInfo p 1 2 seqs).Keeps u i.tensors ↔
      CachesFit i
        [AttentionGen.attendedLen seqs, LatentSum.keyDim i.layerInfo * i.layerInfo.numHeads]
        [AttentionGen.attendedLen seqs, i.layerInfo.headDim * i.layerInfo.numHeads] := by
  have hstages : (LatentGen.script type rates i.layerInfo p 1 2 seqs).stages
      = LatentGen.scoring type rates i.layerInfo p 1 seqs
        :: (seqs.map (LatentGen.softmax type rates i.layerInfo p)
          ++ [LatentGen.context type rates i.layerInfo p 2 seqs]) := by
    unfold LatentGen.script
    dsimp only
    rw [if_neg (by simp [hflash])]
  -- The softmax has the scores in the first tensor.
  have hmiddle (tensor : ℕ) (hne : tensor ≠ 0) (shape : List ℕ) :
      leaves ((LatentGen.script type rates i.layerInfo p 1 2 seqs).transfers u) tensor shape
        = leaves ((LatentGen.context type rates i.layerInfo p 2 seqs).transfers u) tensor
          (leaves ((LatentGen.scoring type rates i.layerInfo p 1 seqs).transfers u) tensor
            shape) := by
    unfold Script.transfers
    rw [hstages, List.flatMap_cons, List.flatMap_append, leaves_append, leaves_append,
      List.flatMap_singleton]
    congr 1
    refine leaves_eq (fun t ht htensor => ?_) _
    obtain ⟨stage, hstage, ht⟩ := List.mem_flatMap.mp ht
    obtain ⟨s, -, rfl⟩ := List.mem_map.mp hstage
    have hfirst : ∀ t ∈ (LatentGen.softmax type rates i.layerInfo p s).transfers u, t.tensor = 0 :=
      first_of_simulated rfl rfl rfl
    exact absurd (htensor.symm.trans (hfirst t ht)) hne
  refine keeps_caches_iff hkey hvalue (by simp [LatentGen.script]) (fun shape => ?_)
    (fun shape => ?_) fun tensor hone htwo hback shape => ?_
  · rw [hmiddle 1 (by decide)]
    cases u <;> rfl
  · rw [hmiddle 2 (by decide)]
    cases u <;> rfl
  · have hzero : tensor ≠ 0 := by simpa [LatentGen.script] using hback
    have hscoring : leaves ((LatentGen.scoring type rates i.layerInfo p 1 seqs).transfers u) tensor
        shape = shape := by
      cases u <;> simp [leaves, Stage.transfers, LatentGen.scoring, ofAll, Stage.ofWork, asRead,
        Transfer.read, write, hzero.symm, hone.symm]
    have hcontext : leaves ((LatentGen.context type rates i.layerInfo p 2 seqs).transfers u) tensor
        shape = shape := by
      cases u <;> simp [leaves, Stage.transfers, LatentGen.context, ofAll, Stage.ofWork, asRead,
        Transfer.read, write, hzero.symm, htwo.symm]
    rw [hmiddle tensor hzero, hscoring, hcontext]

theorem Scripted.keeps_iff (hscript : Scripted i layerType type script) :
    script.Keeps u i.tensors ↔ KeepsShapes i layerType type := by
  have hbusy := hscript.not_spared
  cases hscript with
  | linear _ _ transfer => exact iff_of_true (keeps_linearScript transfer) trivial
  | batchedLinear _ _ _ transfer => exact iff_of_true (keeps_linearScript transfer) trivial
  | batchedLinearGPU => exact iff_of_true keeps_batchedScript trivial
  | activation =>
    refine iff_of_true (keeps_activationScript ?_ ?_) trivial
    · simp [elementwise, Transfer.read, write]
    · simp [elementwise, Transfer.read, write]
  | activationLogic =>
    refine iff_of_true (keeps_activationScript ?_ ?_) trivial
    · simp [Transfer.gemv]
    · simp [elementwise, Transfer.read, write]
  | mlaSum =>
    refine iff_of_true (keeps_of_first rfl (LatentSum.forall_mem_stages ?_ ?_)) trivial
    · exact fun _ s _ => first_of_simulated rfl rfl rfl
    · intro _ s _
      refine ⟨?_, first_of_simulated rfl rfl rfl, first_of_simulated rfl rfl rfl⟩
      cases u with
      | true =>
        show ∀ t ∈ [Transfer.read _ 0 _, Transfer.read _ 0 _, write _ 0 _], _
        simp [Transfer.read, write]
      | false =>
        show ∀ t ∈ [Transfer.read _ 0 _, Transfer.read _ 0 _, write _ 0 _], _
        simp [Transfer.read, write]
  | absorbedSumGPU operands =>
    refine iff_of_true (keeps_of_first rfl (forall_mem_byStage.mpr ?_)) ?_
    · simp only [List.forall_mem_cons]
      exact ⟨fun _ _ => first_of_simulated rfl rfl rfl, fun _ _ => first_of_simulated rfl rfl rfl,
        fun _ _ => first_of_simulated rfl rfl rfl, fun _ _ => first_of_simulated rfl rfl rfl,
        by simp⟩
    · exact .inr fun _ _ _ _ => rfl
  | absorbedMlaGen =>
    refine iff_of_true (keeps_of_first rfl (AbsorbGen.forall_mem_stages ?_ ?_)) trivial
    · exact fun _ => first_of_simulated rfl rfl rfl
    · exact fun _ => ⟨first_of_simulated rfl rfl rfl, first_of_simulated rfl rfl rfl,
        fun _ _ => first_of_simulated rfl rfl rfl, first_of_simulated rfl rfl rfl⟩
  | attentionSumGPU operands =>
    refine keeps_dims_iff (fun s => [s.processed, i.layerInfo.headDim * i.layerInfo.numHeads]) 2
      operands rfl rfl (fun s => ?_) (fun s => ?_) (fun s => ?_) fun s shape => ?_
    · exact onFirst_of_simulated rfl rfl rfl
    · exact onFirst_of_simulated rfl rfl rfl
    · exact onFirst_of_simulated rfl rfl rfl
    · cases u <;> rfl
  | attentionSumLogic operands =>
    refine keeps_dims_iff (fun s => [s.attended, i.layerInfo.headDim * i.layerInfo.numKvHeads]) 2
      operands rfl rfl (fun s => ?_) (fun s => ?_) (fun s => ?_) fun s shape => ?_
    · exact onFirst_of_simulated rfl rfl rfl
    · exact onFirst_of_simulated rfl rfl rfl
    · exact onFirst_of_simulated rfl rfl rfl
    · cases u <;> rfl
  | attentionSumPIM operands =>
    refine keeps_dims_iff (fun s => [s.attended]) 1
      operands rfl rfl (fun s => ?_) (fun s => ?_) (fun s => ?_) fun s shape => ?_
    · exact onFirst_of_simulated rfl rfl rfl
    · exact onFirst_of_simulated rfl rfl rfl
    · exact onFirst_of_simulated rfl rfl rfl
    · cases u <;> rfl
  | @absorbedSumLogic input rates operands =>
    refine keeps_byStage_iff [AbsorbSum.scoringNopeLogic rates i.layerInfo input.precisionByte,
      AbsorbSum.scoringRopeLogic rates i.layerInfo input.precisionByte,
      AbsorbSum.softmaxLogic rates i.layerInfo input.precisionByte]
      (AbsorbSum.contextLogic rates i.layerInfo input.precisionByte)
      0 operands rfl rfl ?_ fun s shape shape₀ _ => ?_
    · simp only [List.forall_mem_append, List.forall_mem_cons]
      exact ⟨⟨fun s => first_of_simulated rfl rfl rfl, fun s => first_of_simulated rfl rfl rfl,
        fun s => first_of_simulated rfl rfl rfl, by simp⟩,
        fun s => first_of_simulated rfl rfl rfl, by simp⟩
    · cases u <;> rfl
  | @absorbedSumPIM input rates operands =>
    refine keeps_byStage_iff
      [fun s => AbsorbSum.inBanks rates i.layerInfo input.precisionByte s.processed s.processed
          i.layerInfo.kvLoraRank s.attended,
        fun s => AbsorbSum.inBanks rates i.layerInfo input.precisionByte s.processed s.processed
          i.layerInfo.qkRopeHeadDim s.attended, AttentionSum.softmaxInBanks rates i.layerInfo]
      (fun s => AbsorbSum.inBanks rates i.layerInfo input.precisionByte s.attended s.processed
        s.attended i.layerInfo.kvLoraRank) 0 operands rfl rfl ?_ fun s shape shape₀ _ => ?_
    · simp only [List.forall_mem_append, List.forall_mem_cons]
      exact ⟨⟨fun s => first_of_simulated rfl rfl rfl, fun s => first_of_simulated rfl rfl rfl,
        fun s => first_of_simulated rfl rfl rfl, by simp⟩,
        fun s => first_of_simulated rfl rfl rfl, by simp⟩
    · cases u <;> rfl
  | attentionGenGPU operands hkey hvalue =>
    refine Iff.trans ?_ (or_iff_right operands.token).symm
    cases u with
    | true => exact keeps_pair_iff hkey hvalue rfl rfl ⟨rfl, rfl⟩ ⟨rfl, rfl⟩
    | false => exact keeps_pair_iff hkey hvalue rfl rfl ⟨rfl, rfl⟩ ⟨rfl, rfl⟩
  | attentionGenLogic operands hkey hvalue =>
    refine Iff.trans ?_ (or_iff_right operands.token).symm
    cases u with
    | true => exact keeps_pair_iff hkey hvalue rfl rfl ⟨rfl, rfl⟩ ⟨rfl, rfl⟩
    | false => exact keeps_pair_iff hkey hvalue rfl rfl ⟨rfl, rfl⟩ ⟨rfl, rfl⟩
  | attentionGenPIM operands hkey hvalue =>
    refine Iff.trans ?_ (or_iff_right operands.token).symm
    cases u with
    | true => exact keeps_pair_iff hkey hvalue rfl transfers_attentionGenPIM ⟨rfl, rfl⟩ ⟨rfl, rfl⟩
    | false => exact keeps_pair_iff hkey hvalue rfl transfers_attentionGenPIM ⟨rfl, rfl⟩ ⟨rfl, rfl⟩
  | @mlaGen _ rates input kCache vCache operands caches =>
    refine Iff.trans ?_ (or_iff_right operands.token).symm
    by_cases hflash : i.layerInfo.useFlashMla = true
    · refine iff_of_true (keeps_of_first rfl (LatentGen.forall_mem_stages
        (fun _ => first_of_simulated rfl rfl rfl) fun hplain => ?_)) (.inl hflash)
      exact absurd hflash (by simp [hplain])
    rw [or_iff_right hflash]
    have hcaches := caches.caches
    by_cases hone : 1 < i.tensors.length
    · rw [if_pos hone] at hcaches
      obtain ⟨rfl, rfl⟩ := Prod.mk.inj hcaches
      rw [or_iff_right (not_le.mpr hone)]
      exact keeps_latentGen (by simpa using hflash) (List.getElem?_eq_getElem hone)
        (List.getElem?_eq_getElem caches.value) _
    · rw [if_neg hone] at hcaches
      obtain ⟨rfl, rfl⟩ := Prod.mk.inj hcaches
      refine iff_of_true (keeps_of_first rfl (LatentGen.forall_mem_stages
        (fun hinfo => absurd hinfo hflash) fun _ => ?_)) (.inl (not_lt.mp hone))
      exact ⟨first_of_simulated rfl rfl rfl, fun _ _ => first_of_simulated rfl rfl rfl,
        first_of_simulated rfl rfl rfl⟩
  | attentionMixedGPU =>
    refine iff_of_true (keeps_of_restored (forall_mem_byStage.mpr ?_)) trivial
    simp only [List.forall_mem_cons]
    exact ⟨fun _ _ _ ht => absurd ht (not_mem_transfers rfl rfl _),
      fun _ _ _ ht => absurd ht (not_mem_transfers rfl rfl _), by simp⟩
  | attentionMixedPIM =>
    refine iff_of_true (keeps_of_restored (forall_mem_byStage.mpr ?_)) trivial
    simp only [List.forall_mem_cons]
    refine ⟨fun s _ t ht => ?_, fun s _ t ht => ?_, by simp⟩
    · unfold Mixed.scoringPIM at ht
      split_ifs at ht
      · exact absurd ht (not_mem_transfers rfl rfl t)
      · exact absurd ht (not_mem_transfers rfl rfl t)
    · unfold Mixed.contextPIM at ht
      split_ifs at ht
      · exact absurd ht (not_mem_transfers rfl rfl t)
      · exact absurd ht (not_mem_transfers rfl rfl t)
  | mlaMixed =>
    refine iff_of_true (keeps_of_restored (forall_mem_byStage.mpr ?_)) trivial
    simp only [List.forall_mem_cons]
    exact ⟨fun _ _ _ ht => absurd ht (not_mem_transfers rfl rfl _),
      fun _ _ _ ht => absurd ht (not_mem_transfers rfl rfl _), by simp⟩

end Scripts

end Executor
end LlmSystem
