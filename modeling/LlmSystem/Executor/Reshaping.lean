import LlmSystem.Executor.Script

/-! What transfers do to the shapes of the operands. -/
namespace LlmSystem

open Runs

namespace Reshape

/-- The dimensions from the `n`-th on stay. -/
def LeavesFrom (n : ℕ) : Reshape → Prop
  | .keep => True
  | .whole _ => False
  | .firstTwo _ _ => 2 ≤ n
  | .first _ => 1 ≤ n

theorem LeavesFrom.apply {n : ℕ} {reshape : Reshape} (h : reshape.LeavesFrom n)
    {shape shape' : List ℕ} (happly : reshape.apply shape = .ok shape') :
    shape'.drop n = shape.drop n := by
  cases reshape with
  | keep => rw [Except.ok.inj happly]
  | whole shape => exact h.elim
  | firstTwo rows columns =>
    match shape, happly with
    | _ :: _ :: rest, happly =>
      obtain rfl := Except.ok.inj happly
      obtain ⟨k, rfl⟩ := Nat.exists_eq_add_of_le' h
      rfl
  | first rows =>
    match shape, happly with
    | _ :: rest, happly =>
      obtain rfl := Except.ok.inj happly
      obtain ⟨k, rfl⟩ := Nat.exists_eq_add_of_le' h
      rfl

theorem apply_firstTwo {rows columns : ℕ} {shape shape' : List ℕ}
    (h : (firstTwo rows columns).apply shape = .ok shape') :
    shape' = rows :: columns :: shape.drop 2 := by
  match shape, h with
  | _ :: _ :: rest, h => exact (Except.ok.inj h).symm

theorem apply_first {rows : ℕ} {shape shape' : List ℕ} (h : (first rows).apply shape = .ok shape') :
    shape' = rows :: shape.drop 1 := by
  match shape, h with
  | _ :: rest, h => exact (Except.ok.inj h).symm

end Reshape

namespace Operands

/-- The shape of a tensor, if there is one. -/
def shape? (ops : Operands) (tensor : ℕ) : Option (List ℕ) := ops[tensor]?.map (·.shape)

theorem shape?_eq_some {ops : Operands} {tensor : ℕ} {t : Tensor} (h : ops[tensor]? = some t) :
    ops.shape? tensor = some t.shape := by
  rw [shape?, h]
  rfl

theorem shape?_set {ops : Operands} {tensor : ℕ} {t t' : Tensor} (h : ops[tensor]? = some t)
    (j : ℕ) :
    shape? (ops.set tensor t') j = if j = tensor then some t'.shape else ops.shape? j := by
  unfold shape?
  rcases eq_or_ne j tensor with rfl | hne
  · rw [List.getElem?_set_self (List.getElem?_eq_some_iff.mp h).1, if_pos rfl]
    rfl
  · rw [List.getElem?_set_ne hne.symm, if_neg hne]

/-- Operands of the same shapes. -/
theorem shapes_eq_iff {ops ops' : Operands} :
    ops'.shapes = ops.shapes ↔ ∀ j, ops'.shape? j = ops.shape? j := by
  unfold shapes shape?
  rw [List.ext_getElem?_iff]
  simp only [List.getElem?_map]

end Operands

namespace Transfer
variable {layerType : LayerType} {pimHWConfig : PIMHWConfig} {ops ops' : Operands}

/-- Nothing but shapes changes. -/
theorem call_shape {t : Transfer} {c : IssueCall}
    (h : t.call layerType pimHWConfig ops = .ok (c, ops')) : ∃ shape shape',
      ops.shape? t.tensor = some shape ∧ t.reshape.apply shape = .ok shape' ∧
      ∀ j, ops'.shape? j = if j = t.tensor then some shape' else ops.shape? j := by
  obtain ⟨tensor, shape, htensor, hshape, -, rfl⟩ := call_ok h
  exact ⟨tensor.shape, shape, Operands.shape?_eq_some htensor, hshape, Operands.shape?_set htensor⟩

/-- The dimensions of a tensor that no transfer sets. -/
theorem calls_drop {n j : ℕ} {ts : List Transfer}
    (hts : ∀ t ∈ ts, t.tensor = j → t.reshape.LeavesFrom n) {cs : List IssueCall}
    (h : calls layerType pimHWConfig ts ops = .ok (cs, ops')) :
    (ops'.shape? j).map (List.drop n) = (ops.shape? j).map (List.drop n) := by
  induction ts generalizing ops cs with
  | nil =>
    obtain ⟨-, rfl⟩ := Prod.mk.inj (Except.ok.inj h)
    rfl
  | cons t ts ih =>
    obtain ⟨ht, hrest⟩ := List.forall_mem_cons.mp hts
    obtain ⟨c, ops₁, cs', hone, hcs, -⟩ := calls_cons h
    obtain ⟨shape, shape', hget, hshape, hset⟩ := call_shape hone
    rw [ih hrest hcs, hset]
    split_ifs with hj
    · rw [hj, hget]
      exact congrArg some ((ht hj.symm).apply hshape)
    · rfl

theorem calls_append_ok {ts ts' : List Transfer} {cs cs' : List IssueCall} {ops₁ : Operands}
    (h : calls layerType pimHWConfig ts ops = .ok (cs, ops₁))
    (h' : calls layerType pimHWConfig ts' ops₁ = .ok (cs', ops')) :
    calls layerType pimHWConfig (ts ++ ts') ops = .ok (cs ++ cs', ops') := by
  induction ts generalizing ops cs with
  | nil =>
    obtain ⟨rfl, rfl⟩ := Prod.mk.inj (Except.ok.inj h)
    exact h'
  | cons t ts ih =>
    obtain ⟨c, ops₂, cs₂, hone, hrest, rfl⟩ := calls_cons h
    rw [List.cons_append]
    unfold calls
    rw [hone]
    show Except.bind (calls layerType pimHWConfig (ts ++ ts') ops₂) _ = _
    rw [ih hrest]
    rfl

end Transfer

namespace Script
variable {layerType : LayerType} {pimHWConfig : PIMHWConfig} {useRamulator : Bool}
  {ops ops' : Operands}

/-- The transfers of all stages, one after the other. -/
theorem stageCalls_flat {stages : List Stage} {callss : List (List IssueCall)}
    (h : stageCalls layerType pimHWConfig useRamulator stages ops = .ok (callss, ops')) :
    Transfer.calls layerType pimHWConfig (stages.flatMap (·.transfers useRamulator)) ops
      = .ok (callss.flatten, ops') := by
  induction stages generalizing ops callss with
  | nil =>
    obtain ⟨rfl, rfl⟩ := Prod.mk.inj (Except.ok.inj h)
    rfl
  | cons stage stages ih =>
    obtain ⟨calls, ops₁, callss', hone, hrest, rfl⟩ := stageCalls_cons h
    rw [List.flatMap_cons, List.flatten_cons]
    exact Transfer.calls_append_ok hone (ih hrest)

end Script
end LlmSystem
