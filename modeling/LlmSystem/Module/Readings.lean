import LlmSystem.Module.LlmCalls
import Mathlib.Data.Multiset.MapFold

/-!
What the forward functions read of their batch. Most of them size their work by tensors alone,
whose shapes go back to the token count of the embedding; those that look at the sequences
themselves depend on the configuration.
-/
namespace LlmSystem

open Nesting Scheduler

/-- What a forward function reads of its batch. -/
inductive Reading
  | nothing
  | tokens (processToken : ℤ)
  | stages (sumToken genToken : ℤ)
  /-- `num_process_token` and `current_len` of each sequence. -/
  | sequences (lengths : List (ℤ × ℤ))
  | longest (maxLen : ℤ)
  | restored (rows : ℤ)
  | experts (sources : Multiset (Option (ℤ × ℤ)))
  deriving DecidableEq

namespace BatchedSequence

def getTotalSequenceLength (b : BatchedSequence) : ℤ := (b.getGen.map (·.currentLen)).sum

/-- `max_len` of the rotary embeddings, which every sequence of the loop replaces. -/
def maxLen (b : BatchedSequence) : ℤ :=
  b.sequence.foldl (fun _ seq => max (seq.currentLen + seq.numProcessToken) 0) 0

def lengths (sequences : List Sequence) : List (ℤ × ℤ) :=
  sequences.map fun seq => (seq.numProcessToken, seq.currentLen)

/-- A token looks up its experts in the trace, or they are drawn. -/
def expertSource (seq : Sequence) (tokenId : ℤ) : Option (ℤ × ℤ) :=
  if seq.getExpertFromList then some (seq.expertSeqId, tokenId) else none

/-- The tokens that `update_expert` counts, whose order does not matter to the counters. -/
def expertSources (sequences : List Sequence) : List (Option (ℤ × ℤ)) :=
  sequences.flatMap fun seq => (tokenIds seq).map (expertSource seq)

end BatchedSequence

/-- The rotary embedding returns before it uses `max_len` if its input is empty; `AbsorbMLAGen`
counts the sequences for its caches only, whose sizes do not depend on them. -/
def LayerKind.read (compressedKv : Bool) (b : BatchedSequence) : LayerKind → Reading
  | .embedding | .lmHead => .tokens b.getProcessToken
  | .attentionSplit | .attentionMerge | .moeScatter | .moeGather =>
    .stages b.getSumProcessToken b.getGenProcessToken
  | .selfAttentionSum | .multiLatentAttentionSum | .absorbMLASum =>
    .sequences (BatchedSequence.lengths b.getSum)
  | .selfAttentionGen | .multiLatentAttentionGen | .absorbMLAGen =>
    if b.getGenProcessToken = 0 then .nothing else .sequences (BatchedSequence.lengths b.getGen)
  | .rope | .batchedRope => if b.getProcessToken = 0 then .nothing else .longest b.maxLen
  | .compressedKVRestore =>
    if compressedKv then
      .restored (b.getSumProcessToken + b.getTotalSequenceLength + b.getGen.length)
    else .nothing
  | .gateUpdate => .experts (BatchedSequence.expertSources b.sequence)
  | .container | .layerNorm | .residual | .allReduce | .linear | .batchedLinear _ | .activation
  | .syncSet | .sync | .route _ _ => .nothing

/-- The modules that look at the sequences of both stages, not only at token counts. -/
def LayerKind.looks : LayerKind → Bool
  | .selfAttentionGen | .multiLatentAttentionGen | .absorbMLAGen | .rope | .batchedRope
  | .compressedKVRestore | .gateUpdate => true
  | _ => false

/-! ### Which modules a model has -/

namespace Calls

variable {α β : Type}

/-- The classes of the called modules. -/
def kinds (x : Calls α) : List LayerKind := x.calls.toList.map (·.kind)

/-- The modules among them that look at the sequences. -/
def lookers (x : Calls α) : List LayerKind := x.kinds.filter (·.looks)

@[simp] theorem lookers_pure (a : α) : (pure a : Calls α).lookers = [] := rfl

@[simp] theorem lookers_bind (x : Calls α) (f : α → Calls β) :
    (x >>= f).lookers = x.lookers ++ (f x.result).lookers := by
  simp [lookers, kinds]

@[simp] theorem lookers_onTensor (kind : LayerKind) (path : List String) (devices : List ℕ)
    (input : TensorName) (forward : Calls TensorName) :
    (onTensor kind path devices input forward).lookers
      = [kind].filter (·.looks) ++ forward.lookers := by
  simp [lookers, kinds, onTensor, Forest.toList, ← List.filter_append]

@[simp] theorem lookers_onTensorVec (kind : LayerKind) (path : List String) (devices : List ℕ)
    (input : List TensorName) (forward : Calls (List TensorName)) :
    (onTensorVec kind path devices input forward).lookers
      = [kind].filter (·.looks) ++ forward.lookers := by
  simp [lookers, kinds, onTensorVec, Forest.toList, ← List.filter_append]

@[simp] theorem lookers_each (f : α → Calls β) (as : List α) :
    (each f as).lookers = as.flatMap fun a => (f a).lookers := by
  induction as with
  | nil => rfl
  | cons a as ih => simp [each, ih]

@[simp] theorem lookers_leaf (kind : LayerKind) (path : List String) (devices : List ℕ)
    (output : String) (input : TensorName) :
    (leaf kind path devices output input).lookers = [kind].filter (·.looks) := by
  simp [leaf]

end Calls

/-- The lookers of the attention of a decoder. -/
def LayerConfig.attentionLookers (c : LayerConfig) : List LayerKind :=
  if c.qkRopeHeadDim = 0 then [.selfAttentionGen]
  else if c.useAbsorb then [.rope, .batchedRope, .absorbMLAGen]
  else [.rope, .compressedKVRestore, .multiLatentAttentionGen]

section Lookers

variable {c : LayerConfig}

/-- The attention of the decode stage is one of them. -/
theorem exists_gen_looker (c : LayerConfig) : ∃ kind ∈ c.attentionLookers,
    kind = .selfAttentionGen ∨ kind = .multiLatentAttentionGen ∨ kind = .absorbMLAGen := by
  unfold LayerConfig.attentionLookers
  split_ifs <;> simp

theorem rope_looker_iff : LayerKind.rope ∈ c.attentionLookers ↔ c.qkRopeHeadDim ≠ 0 := by
  unfold LayerConfig.attentionLookers
  split_ifs with hrope <;> simp [hrope]

theorem batchedRope_looker (h : LayerKind.batchedRope ∈ c.attentionLookers) :
    c.qkRopeHeadDim ≠ 0 := by
  intro hrope
  simp [LayerConfig.attentionLookers, hrope] at h

theorem restore_looker_iff : LayerKind.compressedKVRestore ∈ c.attentionLookers ↔
    c.qkRopeHeadDim ≠ 0 ∧ c.useAbsorb = false := by
  unfold LayerConfig.attentionLookers
  split_ifs with hrope habsorb
  · simp [hrope]
  · simp [habsorb]
  · simp [hrope, habsorb]

theorem gateUpdate_not_looker : LayerKind.gateUpdate ∉ c.attentionLookers := by
  unfold LayerConfig.attentionLookers
  split_ifs <;> simp

variable (path : List String) (devices : List ℕ) (c : LayerConfig) (input : TensorName)

theorem lookers_attention :
    (attention path devices c input).lookers = c.attentionLookers := by
  unfold attention LayerConfig.attentionLookers
  split_ifs with hrope habsorb
  · simp [Attention.forward, ColumnParallelLinear.forward, RowParallelLinear.forward,
      parallelLinear, Linear.forward, SelfAttentionParallel.forward, attentionParallel,
      AllReduce.forward, LayerKind.looks]
  · simp [MultiLatentAttention.forward, habsorb, MultiLatentAttention.absorbed, Linear.forward,
      RoPE.forward, LayerNorm.forward, AllReduce.forward, BatchedColumnParallelLinear.forward,
      BatchedRowParallelLinear.forward, batchedParallelLinear, BatchedLinear.forward,
      BatchedRoPE.forward, AbsorbMLAParallel.forward, attentionParallel, LayerKind.looks]
  · simp [MultiLatentAttention.forward, habsorb, MultiLatentAttention.restored, Linear.forward,
      RoPE.forward, LayerNorm.forward, AllReduce.forward, ColumnParallelLinear.forward,
      RowParallelLinear.forward, parallelLinear, CompressedKVRestore.forward,
      MultiLatentAttentionParallel.forward, attentionParallel, LayerKind.looks]

@[simp] theorem lookers_feedForward (useDp : Bool) (name : String) :
    (feedForward path devices c useDp name input).lookers = [] := by
  unfold feedForward FeedForward2Way.forward FeedForward3Way.forward
  split_ifs
  all_goals simp [ColumnParallelLinear.forward, RowParallelLinear.forward, parallelLinear,
    Linear.forward, Activation.forward, LayerKind.looks]

variable (b : LlmDevice) (f : ExpertFFN)

theorem lookers_expertFFN (name : String) :
    (ExpertFFN.callForward b f path name input).lookers = [.gateUpdate] := by
  simp [ExpertFFN.callForward, Sync.forward, ColumnParallelLinear.forward, parallelLinear,
    Linear.forward, AllReduce.forward, LayerKind.looks]

theorem lookers_decoder (d : Decoder) : (Decoder.forward b f path input d).lookers
    = b.config.attentionLookers ++ if d.hasExperts then [.gateUpdate] else [] := by
  cases d with
  | dense layer =>
    simp [Decoder.forward, Decoder.denseForward, Decoder.hasExperts, LayerNorm.forward,
      lookers_attention, Residual.forward, AllReduce.forward, LayerKind.looks]
  | moe layer =>
    simp [Decoder.forward, MoEDecoder.forward, Decoder.hasExperts, LayerNorm.forward,
      lookers_attention, lookers_expertFFN, LayerKind.looks]

end Lookers

/-- What the modules of a device read of a batch. -/
def view (F : Forest LayerCall) (compressedKv : Bool) (b : BatchedSequence) : List Reading :=
  F.toList.map fun c => c.kind.read compressedKv b

namespace LLM

variable {b : LlmDevice} {input : TensorName} {F : Forest LayerCall} {kind : LayerKind}

/-- The modules of a device that look at the sequences, by its configuration. -/
theorem looks_iff (h : build b input = .ok F) (hlooks : kind.looks = true) :
    kind ∈ F.toList.map (·.kind) ↔ kind ∈ b.config.attentionLookers ∨
      (kind = .gateUpdate ∧ (decoders b.config.toLlmConfig).any (·.hasExperts) = true) := by
  have hcalls : ∃ f, F = (callForward b f input).calls := by
    unfold build at h
    split_ifs at h
    · obtain ⟨f, -, h⟩ := Runs.bind_eq_ok h
      exact ⟨f, (Except.ok.inj h).symm⟩
    · exact ⟨_, (Except.ok.inj h).symm⟩
  have hsome : ∃ d, d ∈ decoders b.config.toLlmConfig := by
    apply List.exists_mem_of_ne_nil
    intro hnil
    simp [build, hnil] at h
  obtain ⟨f, rfl⟩ := hcalls
  have hlookers :
      kind ∈ (callForward b f input).kinds ↔ kind ∈ (callForward b f input).lookers := by
    simp [Calls.lookers, hlooks]
  change kind ∈ (callForward b f input).kinds ↔ _
  rw [hlookers]
  obtain ⟨d, hd⟩ := hsome
  have hnot : LayerKind.embedding.looks = false ∧ LayerKind.lmHead.looks = false ∧
      LayerKind.container.looks = false := by decide
  simp only [callForward, Calls.lookers_onTensor, Calls.lookers_bind, Calls.lookers_leaf,
    Calls.lookers_each, lookers_decoder]
  simp only [hnot, List.filter_cons, List.filter_nil, Bool.false_eq_true, if_false, List.nil_append,
    List.append_nil, List.mem_flatMap, List.mem_append, List.any_eq_true]
  constructor
  · rintro ⟨d, hd, hmem | hmem⟩
    · exact .inl hmem
    · split_ifs at hmem with hexperts
      · exact .inr ⟨List.mem_singleton.mp hmem, d, hd, hexperts⟩
      · cases hmem
  · rintro (hmem | ⟨rfl, d, hd, hexperts⟩)
    · exact ⟨d, hd, .inl hmem⟩
    · exact ⟨d, hd, .inr (by simp [hexperts])⟩

end LLM
end LlmSystem
