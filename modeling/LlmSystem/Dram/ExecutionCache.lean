import LlmSystem.Dram.Interface
import LlmSystem.Dram.RowRenaming
import LlmSystem.Lib.Memo

/-!
`issueRamulator` and the cluster's `execution_time_cache`. The key leaves out the start
address, the configuration of the PIM hardware and the operand type.
-/
namespace LlmSystem

open Runs

structure CacheKey where
  layerType : LayerType
  processorType : ProcessorType
  dramRequestType : DRAMRequestType
  size : ℕ
  deriving DecidableEq, Repr

/-- One call of `issueRamulator`, with the configuration `executePType` has set before it. -/
structure IssueCall where
  layerType : LayerType
  processorType : ProcessorType
  dramRequestType : DRAMRequestType
  pimOperandType : PIMOperandType
  tensor : MemoryObject
  pimHWConfig : PIMHWConfig
  deriving DecidableEq, Repr

namespace IssueCall

def key (call : IssueCall) : CacheKey :=
  ⟨call.layerType, call.processorType, call.dramRequestType, call.tensor.size⟩

/-- The request with its one operand. -/
def request (call : IssueCall) : DRAMRequest :=
  ⟨call.dramRequestType, [(call.pimOperandType, call.tensor)]⟩

/-- The commands a run of the memory simulator would get. -/
def commands (c : MemoryConfig) (call : IssueCall) : Except String (List PIMCommand) :=
  generatePIMCommand c call.pimHWConfig call.request []

end IssueCall

/-- The parts of a device and its cluster that `issueRamulator` works on. -/
structure IssueState where
  executionTimeCache : List (CacheKey × ExecStatus) := []
  execStatus : ExecStatus := {}
  deriving DecidableEq, Repr

section Issue
variable (c : MemoryConfig) (memoryScaleFactor : ℚ) (ramulator : List PIMCommand → Simulated)

/-- `run_ramulator`, and the status it leaves. -/
def runRamulator (call : IssueCall) (execStatus : ExecStatus) : Except String ExecStatus :=
  DRAMInterface.handleRequest c memoryScaleFactor ramulator call.pimHWConfig call.request
    execStatus

def issueRamulator (s : IssueState) (call : IssueCall) : Except String (ExecStatus × IssueState) :=
  match s.executionTimeCache.lookup call.key with
  | some execStatus => .ok (execStatus, s)
  | none => do
    let execStatus ← runRamulator c memoryScaleFactor ramulator call s.execStatus
    .ok (execStatus, ⟨(call.key, execStatus) :: s.executionTimeCache, execStatus⟩)

def issueAll : IssueState → List IssueCall → Except String (List ExecStatus × IssueState)
  | s, [] => .ok ([], s)
  | s, call :: calls => do
    let (execStatus, s) ← issueRamulator c memoryScaleFactor ramulator s call
    let (statuses, s) ← issueAll s calls
    .ok (execStatus :: statuses, s)

/-- A run on a device that has run nothing before. -/
def freshStatus (call : IssueCall) : Except String ExecStatus :=
  runRamulator c memoryScaleFactor ramulator call {}

variable {c} {memoryScaleFactor} {ramulator}

theorem issueRamulator_call {s s' : IssueState} {call : IssueCall} {execStatus : ExecStatus}
    (h : issueRamulator c memoryScaleFactor ramulator s call = .ok (execStatus, s')) :
    Memo.call IssueCall.key (freshStatus c memoryScaleFactor ramulator) s.executionTimeCache call
      = .ok (execStatus, s'.executionTimeCache) := by
  unfold issueRamulator at h
  unfold Memo.call
  cases hlook : s.executionTimeCache.lookup call.key with
  | some e =>
    rw [hlook] at h
    obtain ⟨rfl, rfl⟩ := Prod.mk.inj (Except.ok.inj h)
    rfl
  | none =>
    rw [hlook] at h
    obtain ⟨e, he, h⟩ := bind_eq_ok h
    obtain ⟨rfl, rfl⟩ := Prod.mk.inj (Except.ok.inj h)
    have hfresh : freshStatus c memoryScaleFactor ramulator call = .ok e := he
    simp only [hfresh]
    rfl

/-- The calls memoise the fresh status under their keys. -/
theorem issueAll_callAll {s s' : IssueState} {calls : List IssueCall} {statuses : List ExecStatus}
    (h : issueAll c memoryScaleFactor ramulator s calls = .ok (statuses, s')) :
    Memo.callAll IssueCall.key (freshStatus c memoryScaleFactor ramulator) s.executionTimeCache
      calls = .ok (statuses, s'.executionTimeCache) := by
  induction calls generalizing s statuses with
  | nil =>
    obtain ⟨rfl, rfl⟩ := Prod.mk.inj (Except.ok.inj h)
    rfl
  | cons call calls ih =>
    obtain ⟨⟨e, s₁⟩, hone, h⟩ := bind_eq_ok h
    obtain ⟨⟨es, s₂⟩, hrest, h⟩ := bind_eq_ok h
    obtain ⟨rfl, rfl⟩ := Prod.mk.inj (Except.ok.inj h)
    unfold Memo.callAll
    rw [issueRamulator_call hone]
    show Except.bind (Memo.callAll _ _ s₁.executionTimeCache calls) _ = _
    rw [ih hrest]
    rfl

theorem getOperand_single {type type' : PIMOperandType} {o : MemoryObject} {os : List MemoryObject}
    (h : getOperand [(type, o)] type' = .ok os) : os = [o] := by
  unfold getOperand at h
  by_cases ht : type = type'
  · simp only [ht, List.filterMap_cons, if_true, List.filterMap_nil] at h
    exact (Except.ok.inj h).symm
  · simp only [ht, List.filterMap_cons, if_false, List.filterMap_nil] at h
    cases h

theorem keeps_rowBlind {pimHWConfig : PIMHWConfig} {keep : RamulatorAddrVec → Bool}
    (h : GEMV.keeps pimHWConfig = .ok (some keep)) : RowBlind keep := by
  intro ρ v
  unfold GEMV.keeps at h
  split at h
  · split_ifs at h
    all_goals
      obtain rfl := Option.some.inj (Except.ok.inj h)
      rfl
  · split_ifs at h
    obtain rfl := Option.some.inj (Except.ok.inj h)
    rfl
  · cases Except.ok.inj h

/-- Aligned tensors get the same commands, whatever the request. -/
theorem commands_rename (hc : c.Valid) {call call' : IssueCall}
    (htype : call.dramRequestType = call'.dramRequestType)
    (hconfig : call.pimHWConfig = call'.pimHWConfig)
    (hrow : RowAligned c call.pimHWConfig.type call.tensor call'.tensor) {l l' : List PIMCommand}
    (h : call.commands c = .ok l) (h' : call'.commands c = .ok l') : RowRenaming l l' := by
  unfold IssueCall.commands generatePIMCommand IssueCall.request at h h'
  rw [← hconfig, ← htype] at h'
  dsimp only at h h'
  split at h
  next heq =>
    rw [heq] at h'
    obtain ⟨os, hos, h⟩ := bind_eq_ok h
    obtain ⟨os', hos', h'⟩ := bind_eq_ok h'
    obtain rfl := getOperand_single hos
    obtain rfl := getOperand_single hos'
    exact bundleLoop_aligned hc hrow (fun _ _ => rfl) h h'
  next heq =>
    rw [heq] at h'
    obtain ⟨os, hos, h⟩ := bind_eq_ok h
    obtain ⟨os', hos', h'⟩ := bind_eq_ok h'
    obtain rfl := getOperand_single hos
    obtain rfl := getOperand_single hos'
    exact bundleLoop_aligned hc hrow (fun _ _ => rfl) h h'
  next heq =>
    rw [heq] at h'
    obtain ⟨os, hos, h⟩ := bind_eq_ok h
    obtain ⟨os', hos', h'⟩ := bind_eq_ok h'
    obtain rfl := getOperand_single hos
    obtain rfl := getOperand_single hos'
    obtain ⟨k, hk, h⟩ := bind_eq_ok h
    obtain ⟨k', hk', h'⟩ := bind_eq_ok h'
    obtain rfl := Except.ok.inj (hk.symm.trans hk')
    cases k with
    | none =>
      obtain rfl := Except.ok.inj h
      obtain rfl := Except.ok.inj h'
      exact RowRenaming.refl _
    | some keep => exact bundleLoop_aligned hc hrow (keeps_rowBlind hk) h h'
  next hread hwrite hgemv =>
    split at h'
    next heq => exact absurd heq hread
    next heq => exact absurd heq hwrite
    next heq => exact absurd heq hgemv
    next =>
      obtain rfl := Except.ok.inj h
      obtain rfl := Except.ok.inj h'
      exact RowRenaming.refl _

/-- The status of a simulator that does not tell renamed rows apart. -/
theorem freshStatus_eq (hram : ∀ l l', RowRenaming l l' → ramulator l = ramulator l')
    {call call' : IssueCall} {e e' : ExecStatus}
    (hrename : ∀ l l', call.commands c = .ok l → call'.commands c = .ok l' → RowRenaming l l')
    (h : freshStatus c memoryScaleFactor ramulator call = .ok e)
    (h' : freshStatus c memoryScaleFactor ramulator call' = .ok e') : e = e' := by
  obtain ⟨l, hl, h⟩ := bind_eq_ok h
  obtain ⟨l', hl', h'⟩ := bind_eq_ok h'
  obtain rfl := Except.ok.inj h
  obtain rfl := Except.ok.inj h'
  rw [hram l l' (hrename l l' hl hl')]

/-- Every call returns what a fresh run of the earliest call with its key returns. For a
tensor that is row-aligned with the tensor of that call, under the same configuration, the
kernels generate the same commands up to a renaming of rows, so that for a simulator that
does not tell renamed rows apart the call returns its own fresh status. -/
theorem executionCache_transparent (hc : c.Valid) {s s' : IssueState} {calls : List IssueCall}
    {statuses : List ExecStatus} (hempty : s.executionTimeCache = [])
    (hrun : issueAll c memoryScaleFactor ramulator s calls = .ok (statuses, s')) :
    List.Forall₂ (fun call execStatus => ∃ call₀,
      calls.find? (fun a => a.key = call.key) = some call₀ ∧
      freshStatus c memoryScaleFactor ramulator call₀ = .ok execStatus ∧
      (call₀.pimHWConfig = call.pimHWConfig →
        RowAligned c call₀.pimHWConfig.type call₀.tensor call.tensor →
        (∀ l₀ l, call₀.commands c = .ok l₀ → call.commands c = .ok l → RowRenaming l₀ l) ∧
        ((∀ l l', RowRenaming l l' → ramulator l = ramulator l') →
          ∀ e, freshStatus c memoryScaleFactor ramulator call = .ok e → execStatus = e)))
      calls statuses := by
  have hmemo := issueAll_callAll hrun
  rw [hempty] at hmemo
  apply (Memo.callAll_first hmemo).imp
  intro call execStatus hfirst
  obtain ⟨call₀, hcall₀, hfresh⟩ := hfirst
  refine ⟨call₀, hcall₀, hfresh, fun hconfig hrow => ?_⟩
  have hkey : call₀.key = call.key := by simpa using List.find?_some hcall₀
  have htype : call₀.dramRequestType = call.dramRequestType :=
    congrArg CacheKey.dramRequestType hkey
  have hrename : ∀ l₀ l, call₀.commands c = .ok l₀ → call.commands c = .ok l →
      RowRenaming l₀ l := fun l₀ l h₀ h => commands_rename hc htype hconfig hrow h₀ h
  exact ⟨hrename, fun hram e he => freshStatus_eq hram hrename hfresh he⟩

end Issue
/-- A read of a linear layer on the GPU, under whatever configuration. -/
def readAt (address : ℤ) (size : ℕ) (type : ProcessorType) : IssueCall where
  layerType := .linear
  processorType := .gpu
  dramRequestType := .kRead
  pimOperandType := .kDRAM
  tensor := ⟨address, size⟩
  pimHWConfig := { type := type }

/-- A simulator that issues one READ per command. -/
def countReads (l : List PIMCommand) : Simulated where
  issuedDramCmd t := if t = .kREAD then l.length else 0

theorem countReads_rename {l l' : List PIMCommand} (h : RowRenaming l l') :
    countReads l = countReads l' := by
  obtain ⟨ρ, _, rfl⟩ := h
  unfold countReads
  rw [List.length_map]

theorem executionCache_transparent_next_row :
    freshStatus hbm3_80GB 1 countReads (readAt 5242880 32 .gpu) = .ok { readCount := 1 } := by
  have hrun : issueAll hbm3_80GB 1 countReads {} [readAt 0 32 .gpu, readAt 5242880 32 .gpu]
      = .ok ([{ readCount := 1 }, { readCount := 1 }],
        ⟨[((readAt 0 32 .gpu).key, { readCount := 1 })], { readCount := 1 }⟩) := by
    decide +kernel
  have hall := executionCache_transparent hbm3_80GB_valid rfl hrun
  rw [List.forall₂_cons, List.forall₂_cons] at hall
  obtain ⟨-, ⟨call₀, hfirst, -, hcall₀⟩, -⟩ := hall
  have hzero : call₀ = readAt 0 32 .gpu := Option.some.inj (hfirst.symm.trans (by decide))
  subst hzero
  have haligned : RowAligned hbm3_80GB .gpu ⟨0, 32⟩ ⟨5242880, 32⟩ :=
    { size_eq := rfl
      nonneg := by decide
      nonneg' := by decide
      aligned := fun _ => by decide
      alignedLOGIC := fun h => by cases h
      region := fun h => by cases h }
  obtain ⟨e, he⟩ : ∃ e, freshStatus hbm3_80GB 1 countReads (readAt 5242880 32 .gpu) = .ok e :=
    ⟨_, rfl⟩
  rw [he, ← (hcall₀ rfl haligned).2 (fun _ _ => countReads_rename) e he]

/-- Two reads of one bundle, in cube 0 and in cube 1: the second returns the command of the
first although it has none. A read of 320 bundles goes to two ranks under the GPU mapping,
and to one under the mapping of the logic die. -/
theorem executionCache_differs :
    issueAll hbm3_80GB 1 countReads {} [readAt 0 32 .gpu, readAt 32 32 .gpu]
      = .ok ([{ readCount := 1 }, { readCount := 1 }],
        ⟨[((readAt 0 32 .gpu).key, { readCount := 1 })], { readCount := 1 }⟩) ∧
    freshStatus hbm3_80GB 1 countReads (readAt 32 32 .gpu) = .ok {} ∧
    (readAt 0 10240 .gpu).key = (readAt 0 10240 .logic).key ∧
    ((readAt 0 10240 .gpu).commands hbm3_80GB).map (·.map (·.addrVec.rank)) = .ok [0, 0, 1, 1] ∧
    ((readAt 0 10240 .logic).commands hbm3_80GB).map (·.map (·.addrVec.rank))
      = .ok [0, 0, 0, 0] := by
  refine ⟨?_, ?_, rfl, ?_, ?_⟩
  · decide +kernel
  · decide +kernel
  · decide +kernel
  · decide +kernel

end LlmSystem
