import LlmSystem.Executor.Reshaping
import LlmSystem.Executor.Work

/-! What executors have the memory move, with the simulator and without it. -/
namespace LlmSystem

open Runs

/-- Whether a call writes, and the size of its tensor; a GEMV is a read. -/
def IssueCall.traffic (call : IssueCall) : Bool × ℕ :=
  (decide (call.dramRequestType = .kWrite), call.tensor.size)

/-! ### Transfers -/

namespace Transfer

/-- What a transfer moves. -/
def moves (t : Transfer) : Bool × ℕ × Reshape :=
  (decide (t.dramRequestType = .kWrite), t.tensor, t.reshape)

theorem moves_asRead (t : Transfer) : t.asRead.moves = t.moves := by
  unfold asRead
  split_ifs with hgemv
  · simp [moves, hgemv]
  · rfl

theorem map_moves_asRead (ts : List Transfer) : (ts.map asRead).map moves = ts.map moves := by
  rw [List.map_map]
  exact List.map_congr_left fun t _ => moves_asRead t

variable {layerType : LayerType} {pimHWConfig : PIMHWConfig} {ops ops₁ ops₂ : Operands}

theorem call_moves {t t' : Transfer} {c c' : IssueCall} (h : t.moves = t'.moves)
    (hc : t.call layerType pimHWConfig ops = .ok (c, ops₁))
    (hc' : t'.call layerType pimHWConfig ops = .ok (c', ops₂)) :
    c.traffic = c'.traffic ∧ ops₁ = ops₂ := by
  obtain ⟨hwrite, hmoves⟩ := Prod.mk.inj h
  obtain ⟨htensor, hreshape⟩ := Prod.mk.inj hmoves
  obtain ⟨tensor, shape, hget, hshape, rfl, rfl⟩ := call_ok hc
  obtain ⟨tensor', shape', hget', hshape', rfl, rfl⟩ := call_ok hc'
  rw [← htensor] at hget' ⊢
  obtain rfl := Option.some.inj (hget.symm.trans hget')
  rw [← hreshape] at hshape'
  obtain rfl := Except.ok.inj (hshape.symm.trans hshape')
  exact ⟨Prod.ext hwrite rfl, rfl⟩

/-- Transfers that move the same make the same traffic, and leave the tensors the same. -/
theorem calls_moves {ts ts' : List Transfer} {cs cs' : List IssueCall}
    (h : ts.map moves = ts'.map moves)
    (hc : calls layerType pimHWConfig ts ops = .ok (cs, ops₁))
    (hc' : calls layerType pimHWConfig ts' ops = .ok (cs', ops₂)) :
    cs.map IssueCall.traffic = cs'.map IssueCall.traffic ∧ ops₁ = ops₂ := by
  induction ts generalizing ts' ops cs cs' with
  | nil =>
    obtain rfl := List.map_eq_nil_iff.mp h.symm
    obtain ⟨rfl, rfl⟩ := Prod.mk.inj (Except.ok.inj hc)
    obtain ⟨rfl, rfl⟩ := Prod.mk.inj (Except.ok.inj hc')
    exact ⟨rfl, rfl⟩
  | cons t ts ih =>
    obtain ⟨t', ts', rfl⟩ := List.exists_cons_of_ne_nil
      (l := ts') (fun hnil => by simp [hnil] at h)
    obtain ⟨ht, hts⟩ := List.cons.inj h
    obtain ⟨c, o, rest, hone, hrest, rfl⟩ := calls_cons hc
    obtain ⟨c', o', rest', hone', hrest', rfl⟩ := calls_cons hc'
    obtain ⟨htraffic, rfl⟩ := call_moves ht hone hone'
    obtain ⟨hmap, rfl⟩ := ih hts hrest hrest'
    exact ⟨by rw [List.map_cons, List.map_cons, htraffic, hmap], rfl⟩

end Transfer

/-! ### Scripts -/

namespace Script

section Stages
variable {layerType : LayerType} {pimHWConfig : PIMHWConfig}

/-- On operands as they are here, the stage makes the same traffic in both modes exactly if `P`. -/
structure Compares (layerType : LayerType) (pimHWConfig : PIMHWConfig) (Inv : Operands → Prop)
    (stage : Stage) (P : Prop) : Prop where
  length : stage.simulated.length = stage.ideal.length
  iff : ∀ {ops cs ops₁ cs' ops₂}, Inv ops →
    Transfer.calls layerType pimHWConfig stage.simulated ops = .ok (cs, ops₁) →
    Transfer.calls layerType pimHWConfig stage.ideal ops = .ok (cs', ops₂) →
    (cs.map IssueCall.traffic = cs'.map IssueCall.traffic ↔ P)
  keeps : ∀ {ops cs ops₁ cs' ops₂}, Inv ops →
    Transfer.calls layerType pimHWConfig stage.simulated ops = .ok (cs, ops₁) →
    Transfer.calls layerType pimHWConfig stage.ideal ops = .ok (cs', ops₂) →
    ops₁ = ops₂ ∧ Inv ops₁

theorem traffic_stages_iff {Inv : Operands → Prop} {C : Stage → Prop} {stages : List Stage}
    (h : ∀ stage ∈ stages, Compares layerType pimHWConfig Inv stage (C stage))
    {ops ops₁ ops₂ : Operands} (hinv : Inv ops) {callss callss' : List (List IssueCall)}
    (hsim : stageCalls layerType pimHWConfig true stages ops = .ok (callss, ops₁))
    (hideal : stageCalls layerType pimHWConfig false stages ops = .ok (callss', ops₂)) :
    callss.flatten.map IssueCall.traffic = callss'.flatten.map IssueCall.traffic
      ↔ ∀ stage ∈ stages, C stage := by
  induction stages generalizing ops callss callss' with
  | nil =>
    obtain ⟨rfl, -⟩ := Prod.mk.inj (Except.ok.inj hsim)
    obtain ⟨rfl, -⟩ := Prod.mk.inj (Except.ok.inj hideal)
    simp
  | cons stage stages ih =>
    obtain ⟨hstage, hstages⟩ := List.forall_mem_cons.mp h
    obtain ⟨cs, o, rest, hone, hrest, rfl⟩ := stageCalls_cons hsim
    obtain ⟨cs', o', rest', hone', hrest', rfl⟩ := stageCalls_cons hideal
    obtain ⟨rfl, hinv'⟩ := hstage.keeps hinv hone hone'
    have hlength : (cs.map IssueCall.traffic).length = (cs'.map IssueCall.traffic).length := by
      rw [List.length_map, List.length_map, Transfer.calls_length hone, Transfer.calls_length hone']
      exact hstage.length
    rw [List.flatten_cons, List.flatten_cons, List.map_append, List.map_append,
      List.forall_mem_cons, ← hstage.iff hinv hone hone', ← ih hstages hinv' hrest hrest']
    constructor
    · exact fun happend => List.append_inj happend hlength
    · rintro ⟨hfirst, hothers⟩
      rw [hfirst, hothers]

/-- Stages in which the same is moved, with the simulator and without it. -/
def Alike (stage : Stage) : Prop :=
  stage.simulated.map Transfer.moves = stage.ideal.map Transfer.moves

theorem Alike.compares {Inv : Operands → Prop} {stage : Stage} (h : Alike stage)
    (hkeeps : ∀ {ops cs ops₁}, Inv ops →
      Transfer.calls layerType pimHWConfig stage.simulated ops = .ok (cs, ops₁) → Inv ops₁) :
    Compares layerType pimHWConfig Inv stage (Alike stage) where
  length := by simpa using congrArg List.length h
  iff _ hsim hideal := iff_of_true (Transfer.calls_moves h hsim hideal).1 h
  keeps hinv hsim hideal := ⟨(Transfer.calls_moves h hsim hideal).2, hkeeps hinv hsim⟩

end Stages
end Script

/-! ### The scores of latent attention -/

/-- The first tensor, with its dimensions from the third one on. -/
def Tail (rest : List ℕ) (ops : Operands) : Prop :=
  (ops.shape? 0).map (List.drop 2) = some rest

namespace Transfer
variable {layerType : LayerType} {pimHWConfig : PIMHWConfig} {ops ops₁ ops₂ : Operands}

theorem call_firstTwo {t : Transfer} {rows columns : ℕ} {tensor : Tensor} {c : IssueCall}
    (htensor : t.tensor = 0) (hreshape : t.reshape = .firstTwo rows columns)
    (hget : ops[0]? = some tensor) (h : t.call layerType pimHWConfig ops = .ok (c, ops₁)) :
    c.traffic = (decide (t.dramRequestType = .kWrite),
      tensor.precisionByte * (rows * (columns * (tensor.shape.drop 2).prod))) ∧
    ops₁ = ops.set 0 (tensor.setShape (rows :: columns :: tensor.shape.drop 2)) := by
  obtain ⟨tensor', shape, hget', hshape, rfl, rfl⟩ := call_ok h
  rw [htensor] at hget' ⊢
  obtain rfl := Option.some.inj (hget.symm.trans hget')
  rw [hreshape] at hshape
  obtain rfl := Reshape.apply_firstTwo hshape
  refine ⟨Prod.ext rfl ?_, rfl⟩
  show tensor.precisionByte * (rows :: columns :: tensor.shape.drop 2).prod = _
  rw [List.prod_cons, List.prod_cons]

/-- Three tensors in turn: their sizes, and what is left of them. -/
theorem calls_firstTwo {t t' t'' : Transfer} {a b a' b' a'' b'' : ℕ} {tensor : Tensor}
    {cs : List IssueCall} (ht : t.tensor = 0 ∧ t.reshape = .firstTwo a b)
    (ht' : t'.tensor = 0 ∧ t'.reshape = .firstTwo a' b')
    (ht'' : t''.tensor = 0 ∧ t''.reshape = .firstTwo a'' b'') (hget : ops[0]? = some tensor)
    (h : calls layerType pimHWConfig [t, t', t''] ops = .ok (cs, ops₁)) :
    cs.map IssueCall.traffic
      = [(decide (t.dramRequestType = .kWrite),
          tensor.precisionByte * (a * (b * (tensor.shape.drop 2).prod))),
        (decide (t'.dramRequestType = .kWrite),
          tensor.precisionByte * (a' * (b' * (tensor.shape.drop 2).prod))),
        (decide (t''.dramRequestType = .kWrite),
          tensor.precisionByte * (a'' * (b'' * (tensor.shape.drop 2).prod)))] ∧
    ops₁ = ops.set 0 (tensor.setShape (a'' :: b'' :: tensor.shape.drop 2)) := by
  have hlt : 0 < ops.length := (List.getElem?_eq_some_iff.mp hget).1
  have hset (x : Tensor) : (ops.set 0 x)[0]? = some x := by
    rw [List.getElem?_set_self hlt]
  obtain ⟨c, o, rest, hone, hrest, rfl⟩ := calls_cons h
  obtain ⟨c', o', rest', hone', hrest', rfl⟩ := calls_cons hrest
  obtain ⟨c'', o'', rest'', hone'', hrest'', rfl⟩ := calls_cons hrest'
  obtain ⟨rfl, rfl⟩ := Prod.mk.inj (Except.ok.inj hrest'')
  obtain ⟨htraffic, rfl⟩ := call_firstTwo ht.1 ht.2 hget hone
  obtain ⟨htraffic', rfl⟩ := call_firstTwo ht'.1 ht'.2 (hset _) hone'
  rw [List.set_set] at hone''
  obtain ⟨htraffic'', rfl⟩ := call_firstTwo ht''.1 ht''.2 (hset _) hone''
  simp only [Tensor.setShape_shape, List.drop_succ_cons, List.drop_zero] at htraffic' htraffic''
  simp only [List.map_cons, List.map_nil, htraffic, htraffic', htraffic'', List.set_set]
  exact ⟨rfl, rfl⟩

end Transfer

namespace Executor
open Transfer Script

section Latent
variable {layerType : LayerType} {pimHWConfig : PIMHWConfig} {type : ProcessorType} {rates : Rates}
  {info : LayerInfo} {precisionByte : ℕ} {rest : List ℕ}

theorem tail_calls {ts : List Transfer} {ops ops₁ : Operands} {cs : List IssueCall}
    (hinv : Tail rest ops) (hts : ∀ t ∈ ts, t.reshape.LeavesFrom 2)
    (h : Transfer.calls layerType pimHWConfig ts ops = .ok (cs, ops₁)) : Tail rest ops₁ :=
  (calls_drop (fun t ht _ => hts t ht) h).trans hinv

/-- The values are moved once for each head, or once for each key-value head. -/
theorem alike_scoring_iff {s : Sequence} : Alike (LatentSum.scoring type rates info precisionByte s)
    ↔ info.numHeads = info.numKvHeads ∨ s.attended = 0 := by
  simp [Alike, LatentSum.scoring, Stage.ofWork, moves, Transfer.read, Transfer.write]

theorem compares_scoring (hrest : rest.prod ≠ 0) (s : Sequence) :
    Compares layerType pimHWConfig (Tail rest)
      (LatentSum.scoring type rates info precisionByte s)
      (Alike (LatentSum.scoring type rates info precisionByte s)) where
  length := rfl
  iff {ops cs ops₁ cs' ops₂} hinv hsim hideal := by
    obtain ⟨shape, hshape, hdrop⟩ := Option.map_eq_some_iff.mp hinv
    obtain ⟨tensor, hget, rfl⟩ := Option.map_eq_some_iff.mp hshape
    have hkey : LatentSum.keyDim info ≠ 0 := by
      have hpos := info.headDim_pos
      unfold LatentSum.keyDim
      omega
    rw [(calls_firstTwo ⟨rfl, rfl⟩ ⟨rfl, rfl⟩ ⟨rfl, rfl⟩ hget hsim).1,
      (calls_firstTwo ⟨rfl, rfl⟩ ⟨rfl, rfl⟩ ⟨rfl, rfl⟩ hget hideal).1, hdrop, alike_scoring_iff]
    simp [Transfer.read, Transfer.write, tensor.precisionByte_pos.ne', hkey, hrest]
  keeps {ops cs ops₁ cs' ops₂} hinv hsim hideal := by
    obtain ⟨shape, hshape, -⟩ := Option.map_eq_some_iff.mp hinv
    obtain ⟨tensor, hget, rfl⟩ := Option.map_eq_some_iff.mp hshape
    refine ⟨?_, tail_calls hinv ?_ hsim⟩
    · rw [(calls_firstTwo ⟨rfl, rfl⟩ ⟨rfl, rfl⟩ ⟨rfl, rfl⟩ hget hsim).2,
        (calls_firstTwo ⟨rfl, rfl⟩ ⟨rfl, rfl⟩ ⟨rfl, rfl⟩ hget hideal).2]
    · simp only [LatentSum.scoring, Stage.ofWork, List.forall_mem_cons]
      exact ⟨le_refl 2, le_refl 2, le_refl 2, by simp⟩

variable {tiling : LatentSum.Tiling} {seqs : List Sequence}

theorem compares_latentSum (hrest : rest.prod ≠ 0) :
    ∀ stage ∈ (LatentSum.script type rates info precisionByte tiling seqs).stages,
      Compares layerType pimHWConfig (Tail rest) stage (Alike stage) := by
  have halike {flops memorySize : ℕ} {ts : List Transfer} (hts : ∀ t ∈ ts, t.reshape.LeavesFrom 2) :
      Compares layerType pimHWConfig (Tail rest) (Stage.ofWork rates flops memorySize ts)
        (Alike (Stage.ofWork rates flops memorySize ts)) :=
    Alike.compares (map_moves_asRead ts).symm fun hinv hsim => tail_calls hinv hts hsim
  apply LatentSum.forall_mem_stages
  · intro _ s _
    apply halike
    simp only [List.forall_mem_cons]
    exact ⟨le_refl 2, le_refl 2, le_refl 2, trivial, le_refl 2, trivial, by simp⟩
  · intro _ s _
    refine ⟨compares_scoring hrest s, halike ?_, halike ?_⟩
    · simp only [List.forall_mem_cons]
      exact ⟨le_refl 2, trivial, by simp⟩
    · simp only [List.forall_mem_cons]
      exact ⟨le_refl 2, le_refl 2, le_refl 2, by simp⟩

theorem alike_latentSum_iff :
    (∀ stage ∈ (LatentSum.script type rates info precisionByte tiling seqs).stages, Alike stage)
      ↔ info.useFlashAttention = true ∨ info.numHeads = info.numKvHeads ∨
        ∀ s ∈ seqs, s.attended = 0 := by
  cases hflash : info.useFlashAttention with
  | true =>
    refine iff_of_true (LatentSum.forall_mem_stages (fun _ _ _ => (map_moves_asRead _).symm) ?_)
      (.inl rfl)
    exact fun hplain => absurd hplain (by simp [hflash])
  | false =>
    rw [or_iff_right (by decide)]
    constructor
    · intro h
      by_cases hheads : info.numHeads = info.numKvHeads
      · exact .inl hheads
      · refine .inr fun s hs => ?_
        have hmem : LatentSum.scoring type rates info precisionByte s
            ∈ (LatentSum.script type rates info precisionByte tiling seqs).stages := by
          simp only [LatentSum.script, hflash]
          exact List.mem_append_left _ (List.mem_map_of_mem hs)
        exact (alike_scoring_iff.mp (h _ hmem)).resolve_left hheads
    · intro h
      refine LatentSum.forall_mem_stages (fun hfl => absurd hfl (by simp [hflash])) ?_
      intro _ s hs
      exact ⟨alike_scoring_iff.mpr (h.imp_right fun hall => hall s hs),
        (map_moves_asRead _).symm, (map_moves_asRead _).symm⟩

end Latent

/-! ### Three tensors -/

theorem calls_distinct {layerType : LayerType} {pimHWConfig : PIMHWConfig} {ops ops₁ : Operands}
    {t t' t'' : Transfer} {a b c : Tensor} {shape shape' shape'' : List ℕ} {cs : List IssueCall}
    (ht : t.tensor = 0 ∧ t.reshape.apply a.shape = .ok shape) (ha : ops[0]? = some a)
    (ht' : t'.tensor = 1 ∧ t'.reshape.apply b.shape = .ok shape') (hb : ops[1]? = some b)
    (ht'' : t''.tensor = 2 ∧ t''.reshape.apply c.shape = .ok shape'') (hc : ops[2]? = some c)
    (h : Transfer.calls layerType pimHWConfig [t, t', t''] ops = .ok (cs, ops₁)) :
    cs.map IssueCall.traffic
      = [(decide (t.dramRequestType = .kWrite), a.precisionByte * shape.prod),
        (decide (t'.dramRequestType = .kWrite), b.precisionByte * shape'.prod),
        (decide (t''.dramRequestType = .kWrite), c.precisionByte * shape''.prod)] := by
  have hone {t : Transfer} {j : ℕ} {x : Tensor} {shape : List ℕ} {ops ops₁ : Operands}
      {c : IssueCall} (ht : t.tensor = j ∧ t.reshape.apply x.shape = .ok shape)
      (hx : ops[j]? = some x) (h : t.call layerType pimHWConfig ops = .ok (c, ops₁)) :
      c.traffic = (decide (t.dramRequestType = .kWrite), x.precisionByte * shape.prod) ∧
        ops₁ = ops.set j (x.setShape shape) := by
    obtain ⟨x', shape', hget, hshape, rfl, rfl⟩ := call_ok h
    rw [ht.1] at hget ⊢
    obtain rfl := Option.some.inj (hx.symm.trans hget)
    obtain rfl := Except.ok.inj (ht.2.symm.trans hshape)
    exact ⟨rfl, rfl⟩
  obtain ⟨c₁, o₁, rest, h₁, hrest, rfl⟩ := calls_cons h
  obtain ⟨c₂, o₂, rest', h₂, hrest', rfl⟩ := calls_cons hrest
  obtain ⟨c₃, o₃, rest'', h₃, hrest'', rfl⟩ := calls_cons hrest'
  obtain ⟨rfl, -⟩ := Prod.mk.inj (Except.ok.inj hrest'')
  obtain ⟨htraffic, rfl⟩ := hone ht ha h₁
  obtain ⟨htraffic', rfl⟩ := hone ht' ((List.getElem?_set_ne (by decide)).trans hb) h₂
  have hc' : ((ops.set 0 (a.setShape shape)).set 1 (b.setShape shape'))[2]? = some c := by
    rw [List.getElem?_set_ne (by decide), List.getElem?_set_ne (by decide), hc]
  rw [List.map_cons, List.map_cons, List.map_cons, List.map_nil, htraffic, htraffic',
    (hone ht'' hc' h₃).1]

/-- Where the heads that are moved side by side are as large as the tensors. -/
def SameSizes (i : AttentionInput) : Prop :=
  ∃ numHeads m k n a b output, i.tensors.shape? 0 = some [numHeads, m, k] ∧
    i.tensors.shape? 1 = some [a, b, n] ∧ i.tensors.shape? 2 = some output ∧
    (i.layerInfo.duplicatedInput = true → numHeads = 1) ∧ a * b * n = numHeads * k * n ∧
    output.prod = numHeads * m * n

/-- Where the simulator has the same to do. -/
def SameTraffic (i : AttentionInput) : LayerType → ProcessorType → Prop
  | .batchedLinear, .gpu => EmptyAt i.tensors 0 ∨ SameSizes i
  | .activation, .logic => EmptyAt i.tensors 1
  | .mlaSum, _ => EmptyAt i.tensors 0 ∨ i.layerInfo.useFlashAttention = true ∨
      i.layerInfo.numHeads = i.layerInfo.numKvHeads ∨
      ∀ s ∈ i.sequencesMetadata.getSum, s.attended = 0
  | _, _ => True

section Modes
variable {i : AttentionInput} {pimHWConfig : PIMHWConfig} {callss callss' : List (List IssueCall)}
  {ops ops' : Operands}

theorem batched_traffic_iff {rates : Rates} {weight : Tensor} {numHeads m k n : ℕ}
    (operands : BatchedOperands i.tensors weight numHeads m k n)
    (hsim : (batchedScript rates i.layerInfo.duplicatedInput weight.precisionByte numHeads m k
      n).calls pimHWConfig true i.tensors = .ok (callss, ops))
    (hideal : (batchedScript rates i.layerInfo.duplicatedInput weight.precisionByte numHeads m k
      n).calls pimHWConfig false i.tensors = .ok (callss', ops')) :
    callss.flatten.map IssueCall.traffic = callss'.flatten.map IssueCall.traffic ↔ SameSizes i := by
  obtain ⟨⟨input, ⟨hinput, hne⟩, hin⟩, ⟨hweight, a, b, hw⟩, output, houtput, -⟩ := operands
  have hall : numHeads ≠ 0 ∧ m ≠ 0 ∧ k ≠ 0 := by
    simpa [Tensor.getSize_eq_zero, hin, not_or] using hne
  obtain ⟨cs, o, rest, hone, hrest, rfl⟩ := stageCalls_cons hsim
  obtain ⟨cs', o', rest', hone', hrest', rfl⟩ := stageCalls_cons hideal
  obtain ⟨rfl, -⟩ := Prod.mk.inj (Except.ok.inj hrest)
  obtain ⟨rfl, -⟩ := Prod.mk.inj (Except.ok.inj hrest')
  rw [List.flatten_singleton, List.flatten_singleton,
    calls_distinct ⟨rfl, rfl⟩ hinput ⟨rfl, rfl⟩ hweight ⟨rfl, rfl⟩ houtput hone,
    calls_distinct ⟨rfl, rfl⟩ hinput ⟨rfl, rfl⟩ hweight ⟨rfl, rfl⟩ houtput hone']
  have hprecision (t : Tensor) (x y : ℕ) : t.precisionByte * x = t.precisionByte * y ↔ x = y :=
    Nat.mul_right_inj t.precisionByte_pos.ne'
  have hinput' : m * (if i.layerInfo.duplicatedInput = true then k else k * numHeads)
      = numHeads * (m * k) ↔ (i.layerInfo.duplicatedInput = true → numHeads = 1) := by
    split_ifs with hdup
    · have hmk : m * k ≠ 0 := mul_ne_zero hall.2.1 hall.2.2
      rw [imp_iff_right hdup, eq_comm, Nat.mul_eq_right hmk]
    · exact iff_of_true (by ring) fun h => absurd h hdup
  show [(false, _), (false, _), (true, _)] = [(false, _), (false, _), (true, _)] ↔ _
  simp only [List.cons.injEq, Prod.mk.injEq, hprecision, hin, hw, true_and, and_true,
    List.prod_cons, List.prod_nil, mul_one, hinput']
  have hshape := Operands.shape?_eq_some hinput
  have hshape' := Operands.shape?_eq_some hweight
  have hshape'' := Operands.shape?_eq_some houtput
  rw [hin] at hshape
  rw [hw] at hshape'
  constructor
  · rintro ⟨hdup, hsize, hsize'⟩
    exact ⟨numHeads, m, k, n, a, b, output.shape, hshape, hshape', hshape'', hdup, by linarith,
      by linarith⟩
  · rintro ⟨numHeads', m', k', n', a', b', output', hin', hw', hout', hdup, hsize, hsize'⟩
    have hfirst := Option.some.inj (hshape.symm.trans hin')
    have hsecond := Option.some.inj (hshape'.symm.trans hw')
    simp only [List.cons.injEq, and_true] at hfirst hsecond
    obtain ⟨rfl, rfl, rfl⟩ := hfirst
    obtain ⟨rfl, rfl, rfl⟩ := hsecond
    obtain rfl := Option.some.inj (hshape''.symm.trans hout')
    exact ⟨hdup, by linarith, by linarith⟩

/-- The output of an activation is a GEMV for the simulator only. -/
theorem activation_traffic_ne {rates : Rates} {memorySize : ℕ}
    (operands : ActivationOperands i.tensors memorySize)
    (hsim : (activationScript rates memorySize memorySize [gemv .logic 0 .keep, gemv .logic 1 .keep,
      gemv .logic 2 .keep] (elementwise .logic) fun e => e).calls pimHWConfig true i.tensors
        = .ok (callss, ops))
    (hideal : (activationScript rates memorySize memorySize [gemv .logic 0 .keep,
      gemv .logic 1 .keep, gemv .logic 2 .keep] (elementwise .logic) fun e => e).calls pimHWConfig
        false i.tensors = .ok (callss', ops')) :
    callss.flatten.map IssueCall.traffic ≠ callss'.flatten.map IssueCall.traffic := by
  obtain ⟨-, gateOutput, input, output, hgate, hinput, houtput, -⟩ := operands
  obtain ⟨cs, o, rest, hone, hrest, rfl⟩ := stageCalls_cons hsim
  obtain ⟨cs', o', rest', hone', hrest', rfl⟩ := stageCalls_cons hideal
  obtain ⟨rfl, -⟩ := Prod.mk.inj (Except.ok.inj hrest)
  obtain ⟨rfl, -⟩ := Prod.mk.inj (Except.ok.inj hrest')
  rw [List.flatten_singleton, List.flatten_singleton,
    calls_distinct ⟨rfl, rfl⟩ hgate ⟨rfl, rfl⟩ hinput ⟨rfl, rfl⟩ houtput hone,
    calls_distinct ⟨rfl, rfl⟩ hgate ⟨rfl, rfl⟩ hinput ⟨rfl, rfl⟩ houtput hone']
  show [_, _, (false, _)] ≠ [_, _, (true, _)]
  simp

theorem traffic_eq_of_alike {script : Script} (h : ∀ stage ∈ script.stages, Alike stage)
    (hsim : script.calls pimHWConfig true i.tensors = .ok (callss, ops))
    (hideal : script.calls pimHWConfig false i.tensors = .ok (callss', ops')) :
    callss.flatten.map IssueCall.traffic = callss'.flatten.map IssueCall.traffic := by
  have hcompares : ∀ stage ∈ script.stages,
      Compares script.layerType pimHWConfig (fun _ => True) stage (Alike stage) :=
    fun stage hstage => (h stage hstage).compares fun _ _ => trivial
  exact (traffic_stages_iff hcompares trivial hsim hideal).mpr h

variable {layerType : LayerType} {type : ProcessorType} {script : Script}

theorem Scripted.traffic_eq_iff (h : Scripted i layerType type script)
    (hsim : script.calls pimHWConfig true i.tensors = .ok (callss, ops))
    (hideal : script.calls pimHWConfig false i.tensors = .ok (callss', ops')) :
    callss.flatten.map IssueCall.traffic = callss'.flatten.map IssueCall.traffic
      ↔ SameTraffic i layerType type := by
  have hempty := h.not_spared
  have halike (ts : List Transfer) : ts.map moves = (ts.map asRead).map moves :=
    (map_moves_asRead ts).symm
  have hsame (htraffic : SameTraffic i layerType type) (h : ∀ stage ∈ script.stages, Alike stage) :
      callss.flatten.map IssueCall.traffic = callss'.flatten.map IssueCall.traffic
        ↔ SameTraffic i layerType type := iff_of_true (traffic_eq_of_alike h hsim hideal) htraffic
  cases h with
  | linear => exact hsame trivial (List.forall_mem_singleton.mpr (halike _))
  | @batchedLinear _ _ _ _ _ _ _ _ notGPU =>
    have htraffic : SameTraffic i .batchedLinear type := by
      cases type with
      | gpu => exact absurd rfl notGPU
      | _ => trivial
    exact hsame htraffic (List.forall_mem_singleton.mpr (halike _))
  | batchedLinearGPU operands =>
    exact (batched_traffic_iff operands hsim hideal).trans (or_iff_right hempty).symm
  | activation notLogic =>
    have htraffic : SameTraffic i .activation type := by
      cases type with
      | logic => exact absurd rfl notLogic
      | _ => trivial
    exact hsame htraffic (List.forall_mem_singleton.mpr rfl)
  | activationLogic operands =>
    exact iff_of_false (activation_traffic_ne operands hsim hideal) hempty
  | attentionSumGPU =>
    refine hsame trivial (forall_mem_byStage.mpr ?_)
    simp only [List.forall_mem_cons]
    exact ⟨fun _ _ => halike _, fun _ _ => halike _, fun _ _ => halike _, by simp⟩
  | attentionSumLogic =>
    refine hsame trivial (forall_mem_byStage.mpr ?_)
    simp only [List.forall_mem_cons]
    exact ⟨fun _ _ => halike _, fun _ _ => halike _, fun _ _ => halike _, by simp⟩
  | attentionSumPIM =>
    refine hsame trivial (forall_mem_byStage.mpr ?_)
    simp only [List.forall_mem_cons]
    exact ⟨fun _ _ => rfl, fun _ _ => halike _, fun _ _ => rfl, by simp⟩
  | @mlaSum _ _ input _ operands =>
    have hrest : (input.shape.drop 2).prod ≠ 0 := by
      intro hzero
      apply operands.2
      rw [Tensor.getSize_eq_zero, ← List.take_append_drop 2 input.shape, List.prod_append, hzero,
        mul_zero]
    have htail : Tail (input.shape.drop 2) i.tensors :=
      congrArg (Option.map (List.drop 2)) (Operands.shape?_eq_some operands.1)
    rw [traffic_stages_iff (compares_latentSum hrest) htail hsim hideal, alike_latentSum_iff]
    cases type <;> exact (or_iff_right hempty).symm
  | absorbedSumGPU =>
    refine hsame trivial (forall_mem_byStage.mpr ?_)
    simp only [List.forall_mem_cons]
    exact ⟨fun _ _ => halike _, fun _ _ => halike _, fun _ _ => halike _, fun _ _ => halike _,
      by simp⟩
  | absorbedSumLogic =>
    refine hsame trivial (forall_mem_byStage.mpr ?_)
    simp only [List.forall_mem_cons]
    exact ⟨fun _ _ => halike _, fun _ _ => halike _, fun _ _ => halike _, fun _ _ => halike _,
      by simp⟩
  | absorbedSumPIM =>
    refine hsame trivial (forall_mem_byStage.mpr ?_)
    simp only [List.forall_mem_cons]
    exact ⟨fun _ _ => halike _, fun _ _ => halike _, fun _ _ => halike _, fun _ _ => halike _,
      by simp⟩
  | attentionGenGPU =>
    refine hsame trivial ?_
    simp only [attentionGenScript, List.forall_mem_cons]
    exact ⟨halike _, halike _, by simp⟩
  | attentionGenLogic =>
    refine hsame trivial ?_
    simp only [attentionGenScript, List.forall_mem_cons]
    exact ⟨halike _, halike _, by simp⟩
  | attentionGenPIM =>
    have hpim {info p c unit seqs cache record addBanks} :
        Alike (AttentionGen.pimStage info p c unit seqs cache record addBanks) := by
      cases unit <;> exact halike _
    refine hsame trivial ?_
    simp only [attentionGenScript, List.forall_mem_cons]
    exact ⟨hpim, rfl, hpim, by simp⟩
  | mlaGen =>
    refine hsame (by cases type <;> trivial) (LatentGen.forall_mem_stages (fun _ => halike _) ?_)
    exact fun _ => ⟨halike _, fun _ _ => halike _, halike _⟩
  | absorbedMlaGen =>
    refine hsame (by cases type <;> trivial) (AbsorbGen.forall_mem_stages (fun _ => halike _) ?_)
    exact fun _ => ⟨halike _, halike _, fun _ _ => halike _, halike _⟩
  | attentionMixedGPU =>
    refine hsame trivial (forall_mem_byStage.mpr ?_)
    simp only [List.forall_mem_cons]
    exact ⟨fun _ _ => rfl, fun _ _ => rfl, by simp⟩
  | attentionMixedPIM =>
    refine hsame trivial (forall_mem_byStage.mpr ?_)
    simp only [List.forall_mem_cons]
    refine ⟨fun _ _ => ?_, fun _ _ => ?_, by simp⟩
    · unfold Mixed.scoringPIM
      split_ifs <;> rfl
    · unfold Mixed.contextPIM
      split_ifs <;> rfl
  | mlaMixed =>
    refine hsame (by cases type <;> trivial) (forall_mem_byStage.mpr ?_)
    simp only [List.forall_mem_cons]
    exact ⟨fun _ _ => rfl, fun _ _ => rfl, by simp⟩

theorem sameTraffic_of_spared (h : Spared i type layerType) : SameTraffic i layerType type := by
  cases layerType with
  | batchedLinear =>
    cases type with
    | gpu => exact .inl h
    | _ => trivial
  | activation =>
    cases type with
    | logic => exact h
    | _ => trivial
  | mlaSum => cases type <;> exact .inl h
  | _ => cases type <;> trivial

end Modes

/-- The reads and writes, with the sizes of their tensors, that an executor asks of the memory. -/
def traffic (layerType : LayerType) (type : ProcessorType) (i : AttentionInput)
    (useRamulator : Bool) : Except String (List (Bool × ℕ)) := do
  match ← executorOf layerType type i with
  | none => .ok []
  | some script => do
    let (callss, _) ← script.calls (pimHWConfig i.config type) useRamulator i.tensors
    .ok (callss.flatten.map IssueCall.traffic)

section Traffic
variable {layerType : LayerType} {type : ProcessorType} {i : AttentionInput} {useRamulator : Bool}
  {moved moved' : List (Bool × ℕ)}

theorem traffic_ok (h : traffic layerType type i useRamulator = .ok moved) :
    Spared i type layerType ∧ moved = [] ∨
      ∃ script callss ops, Scripted i layerType type script ∧
        executorOf layerType type i = .ok (some script) ∧
        script.calls (pimHWConfig i.config type) useRamulator i.tensors = .ok (callss, ops) ∧
        moved = callss.flatten.map IssueCall.traffic := by
  obtain ⟨r, hr, h⟩ := bind_eq_ok h
  rcases executorOf_found hr with ⟨rfl, hspared⟩ | ⟨script, rfl, hscript⟩
  · exact .inl ⟨hspared, (Except.ok.inj h).symm⟩
  · obtain ⟨⟨callss, ops⟩, hcalls, h⟩ := bind_eq_ok h
    exact .inr ⟨script, callss, ops, hscript, hr, hcalls, (Except.ok.inj h).symm⟩

/-- These are the calls that the memory answers when the layer is executed. -/
theorem executePType_traffic {d : DeviceMemory} {s s' : IssueState} {e : ExecStatus}
    {ops : Operands} (h : executePType d useRamulator layerType type i s = .ok (e, ops, s')) :
    ∃ callss answerss,
      traffic layerType type i useRamulator = .ok (callss.flatten.map IssueCall.traffic) ∧
        d.askEach useRamulator s callss = .ok (answerss, s') := by
  obtain ⟨r, execStatus, hr, hexec, -⟩ := executePType_ok h
  cases r with
  | none =>
    obtain ⟨-, hrest⟩ := Prod.mk.inj (Except.ok.inj hexec)
    obtain ⟨-, rfl⟩ := Prod.mk.inj hrest
    refine ⟨[], [], ?_, rfl⟩
    unfold traffic
    rw [hr]
    rfl
  | some script =>
    obtain ⟨callss, ops', answerss, hcalls, hanswers, -⟩ := DeviceMemory.execute_ok hexec
    refine ⟨callss, answerss, ?_, hanswers⟩
    unfold traffic
    rw [hr]
    show Except.bind (script.calls _ _ _) _ = _
    rw [hcalls]
    rfl

/-- The simulator moves what is charged without it, except for batched matrices of other sizes,
for activations on the logic die, and for the values of latent attention. -/
theorem traffic_iff (hsim : traffic layerType type i true = .ok moved)
    (hideal : traffic layerType type i false = .ok moved') :
    moved = moved' ↔ SameTraffic i layerType type := by
  rcases traffic_ok hsim with ⟨hspared, rfl⟩ | ⟨script, callss, ops, hscript, hr, hcalls, rfl⟩
  · rcases traffic_ok hideal with ⟨-, rfl⟩ | ⟨script', _, _, hscript', -⟩
    · exact iff_of_true rfl (sameTraffic_of_spared hspared)
    · exact absurd hspared hscript'.not_spared
  · rcases traffic_ok hideal with ⟨hspared, rfl⟩ | ⟨script', callss', ops', -, hr', hcalls', rfl⟩
    · exact absurd hspared hscript.not_spared
    · obtain rfl := Option.some.inj (Except.ok.inj (hr.symm.trans hr'))
      exact hscript.traffic_eq_iff hcalls hcalls'

theorem traffic_of_two_heads : ∃ moved moved',
    traffic .batchedLinear .gpu (twoHeads 5) true = .ok moved ∧
    traffic .batchedLinear .gpu (twoHeads 5) false = .ok moved' ∧ moved = moved' := by
  have hsizes : SameSizes (twoHeads 5) :=
    ⟨2, 3, 4, 5, 2, 4, [2, 3, 5], rfl, rfl, rfl, by decide, rfl, rfl⟩
  have hsame : SameTraffic (twoHeads 5) .batchedLinear .gpu := .inr hsizes
  have hsim : traffic .batchedLinear .gpu (twoHeads 5) true
      = .ok [(false, 48), (false, 80), (true, 60)] := by decide
  have hideal : traffic .batchedLinear .gpu (twoHeads 5) false
      = .ok [(false, 48), (false, 80), (true, 60)] := by decide
  exact ⟨_, _, hsim, hideal, (traffic_iff hsim hideal).mpr hsame⟩

/-- A prompt of four tokens, for two heads that share a value. -/
def sharedValue : AttentionInput where
  config := heteroConfig
  tensors := [⟨2, [4, 4], 0, Nat.two_pos⟩, ⟨2, [4, 4], 0, Nat.two_pos⟩]
  sequencesMetadata := ⟨0, 0, 0, [], [], [{ Sequence.start 0 0 4 1 with numProcessToken := 4 }]⟩
  layerInfo :=
    { numHeads := 2, numKvHeads := 1, headDim := 2, useFlashAttention := false
      numHeads_pos := Nat.two_pos, numKvHeads_pos := Nat.one_pos, headDim_pos := Nat.two_pos }

/-- The second tensor is moved for both heads, or for the one value. -/
theorem traffic_of_shared_value_differs :
    traffic .mlaSum .gpu sharedValue true = .ok [(false, 32), (false, 32), (true, 64), (false, 64),
      (true, 64), (false, 64), (false, 16), (true, 32)] ∧
    traffic .mlaSum .gpu sharedValue false = .ok [(false, 32), (false, 16), (true, 64),
      (false, 64), (true, 64), (false, 64), (false, 16), (true, 32)] := by
  decide

end Traffic
end Executor
end LlmSystem
