import LlmSystem.Config
import LlmSystem.Dram.AddressMap
import LlmSystem.Lib.Runs

/-!
`PIM_KERNEL`: the commands a DRAM request is translated to. Each kernel walks over the bundles
of its operand and keeps those that fall in the simulated part of the memory.
-/
namespace LlmSystem

open Runs

inductive DRAMRequestType
  | kRead | kWrite | kMove | kMult | kAdd | kMAD | kPMult | kCMult | kCAdd | kCMAD | kTensor
  | kTensorSquare | kModupEvkmult | kModDownEpilogue | kPMultAccum | kCMultAccum | kGEMV
  deriving DecidableEq, Repr

inductive PIMCommandType
  | kAdd | kSub | kMult | kMAC | kDRAM2RF | kRF2DRAM | kRead | kWrite
  deriving DecidableEq, Repr

inductive PIMOperandType
  | kRF | kDRAM | kSrc | kPrecomputed | kDest | kModUp | kEvk
  deriving DecidableEq, Repr

structure PIMHWConfig where
  type : ProcessorType := .gpu
  bandwidthX : ℤ := 0
  deriving DecidableEq, Repr

structure PIMCommand where
  pimcmdType : PIMCommandType
  opType : PIMOperandType
  addrVec : RamulatorAddrVec
  dramreqType : DRAMRequestType
  deriving DecidableEq, Repr

structure MemoryObject where
  address : ℤ
  size : ℕ
  deriving DecidableEq, Repr

namespace MemoryObject

def getBundleSize (o : MemoryObject) (c : MemoryConfig) : ℕ := o.size / c.granul

def getAddrVec (o : MemoryObject) (c : MemoryConfig) (bundleIdx : ℕ)
    (type : ProcessorType := .gpu) : Except String RamulatorAddrVec :=
  if type = .logic then c.getAddrVecLOGIC o.address bundleIdx
  else c.getAddrVec o.address bundleIdx

end MemoryObject

/-- The operands of a `DRAMRequest` in the order they were added. -/
def PIMOperand := List (PIMOperandType × MemoryObject)

/-- `operand.at` throws where no operand of the type was added. -/
def getOperand (operand : PIMOperand) (type : PIMOperandType) : Except String (List MemoryObject) :=
  match operand.filterMap fun o => if o.1 = type then some o.2 else none with
  | [] => .error "get_operand: invalid operand"
  | os => .ok os

/-- The body for the bundles from 0 on: a command for each whose address vector is kept. -/
def bundleSteps (c : MemoryConfig) (opnd : MemoryObject) (type : ProcessorType)
    (keep : RamulatorAddrVec → Bool) (command : RamulatorAddrVec → PIMCommand) (bundles : ℕ)
    (pimRequest : List PIMCommand) : Except String (List PIMCommand) :=
  (List.range bundles).foldlM (fun pimRequest bundleIdx => do
    let addrVec ← opnd.getAddrVec c bundleIdx type
    if keep addrVec then .ok (pimRequest ++ [command addrVec]) else .ok pimRequest) pimRequest

/-- The loop of every kernel. Its `bundle_idx` is an `int` and its bound a `long`: after the largest
`int` there is no next one, and a loop that needs it has no result. -/
def bundleLoop (c : MemoryConfig) (opnd : MemoryObject) (type : ProcessorType)
    (keep : RamulatorAddrVec → Bool) (command : RamulatorAddrVec → PIMCommand)
    (pimRequest : List PIMCommand) : Except String (List PIMCommand) := do
  let pimRequest ←
    bundleSteps c opnd type keep command (min (opnd.getBundleSize c) (2 ^ 31)) pimRequest
  if opnd.getBundleSize c < 2 ^ 31 then .ok pimRequest else .error "signed integer overflow"

def readKernel (c : MemoryConfig) (operand : PIMOperand) (pimHWConfig : PIMHWConfig)
    (dramreqType : DRAMRequestType) (pimRequest : List PIMCommand) :
    Except String (List PIMCommand) := do
  match ← getOperand operand .kDRAM with
  | [opnd] =>
    bundleLoop c opnd pimHWConfig.type (fun v => v.channel == 0)
      (fun v => ⟨.kRead, .kDRAM, v, dramreqType⟩) pimRequest
  | _ => .error "only one request can be read"

def writeKernel (c : MemoryConfig) (operand : PIMOperand) (pimHWConfig : PIMHWConfig)
    (dramreqType : DRAMRequestType) (pimRequest : List PIMCommand) :
    Except String (List PIMCommand) := do
  match ← getOperand operand .kDRAM with
  | [opnd] =>
    bundleLoop c opnd pimHWConfig.type (fun v => v.channel == 0)
      (fun v => ⟨.kWrite, .kDRAM, v, dramreqType⟩) pimRequest
  | _ => .error "only one request can be written"

namespace GEMV

/-- The bundles a unit of the given kind and bandwidth computes on; none for the processors
that `GEMV` has no branch for. -/
def keeps (pimHWConfig : PIMHWConfig) : Except String (Option (RamulatorAddrVec → Bool)) :=
  match pimHWConfig.type with
  | .pim =>
    if pimHWConfig.bandwidthX = 16 then .ok (some fun v =>
      v.channel == 0 && v.pseudochannel == 0 && v.rank == 0 && v.bankgroup == 0 && v.bank == 0)
    else if pimHWConfig.bandwidthX = 8 then .ok (some fun v =>
      v.channel == 0 && v.pseudochannel == 0 && v.rank == 0 && v.bankgroup == 0
        && v.bank.tmod 2 == 0)
    else if pimHWConfig.bandwidthX = 4 then .ok (some fun v =>
      v.channel == 0 && v.pseudochannel == 0 && v.rank == 0 && v.bankgroup == 0)
    else .error "Not supported bandwidth_x configuration"
  | .logic =>
    if pimHWConfig.bandwidthX = 4 then .ok (some fun v =>
      v.channel == 0 && v.pseudochannel == 0 && v.bank.tmod 2 == 0 && v.bankgroup == 0)
    else .error "Not supported bandwidth_x configuration"
  | _ => .ok none

/-- Only the logic die has its own mapping. -/
def kernel (c : MemoryConfig) (operand : PIMOperand) (pimHWConfig : PIMHWConfig)
    (dramreqType : DRAMRequestType) (pimRequest : List PIMCommand) :
    Except String (List PIMCommand) := do
  match ← getOperand operand .kSrc with
  | [opnd] =>
    match ← keeps pimHWConfig with
    | some keep =>
      bundleLoop c opnd pimHWConfig.type keep (fun v => ⟨.kMAC, .kSrc, v, dramreqType⟩) pimRequest
    | none => .ok pimRequest
  | _ => .error "GEMV operands are not valid"

end GEMV

structure DRAMRequest where
  type : DRAMRequestType
  operands : PIMOperand

/-- A request type without a kernel is reported and generates nothing. -/
def generatePIMCommand (c : MemoryConfig) (pimHWConfig : PIMHWConfig) (request : DRAMRequest)
    (pimRequest : List PIMCommand) : Except String (List PIMCommand) :=
  match request.type with
  | .kRead => readKernel c request.operands pimHWConfig .kRead pimRequest
  | .kWrite => writeKernel c request.operands pimHWConfig .kWrite pimRequest
  | .kGEMV => GEMV.kernel c request.operands pimHWConfig .kGEMV pimRequest
  | _ => .ok pimRequest

theorem bundleSteps_ok {c : MemoryConfig} {opnd : MemoryObject} {type : ProcessorType}
    {keep : RamulatorAddrVec → Bool} {command : RamulatorAddrVec → PIMCommand} {bundles : ℕ}
    {pimRequest l : List PIMCommand}
    (h : bundleSteps c opnd type keep command bundles pimRequest = .ok l) :
    ∃ vs : List RamulatorAddrVec,
      List.Forall₂ (fun b v => opnd.getAddrVec c b type = .ok v) (List.range bundles) vs ∧
      l = pimRequest ++ (vs.filter keep).map command := by
  unfold bundleSteps at h
  generalize List.range bundles = bs at h ⊢
  induction bs generalizing pimRequest with
  | nil =>
    obtain rfl := Except.ok.inj h
    exact ⟨[], .nil, by simp⟩
  | cons b bs ih =>
    rw [List.foldlM_cons] at h
    obtain ⟨request, hone, hrest⟩ := bind_eq_ok h
    obtain ⟨v, hv, hone⟩ := bind_eq_ok hone
    obtain ⟨vs, hvs, rfl⟩ := ih hrest
    refine ⟨v :: vs, .cons hv hvs, ?_⟩
    split_ifs at hone with hk
    · obtain rfl := Except.ok.inj hone
      simp [hk]
    · obtain rfl := Except.ok.inj hone
      simp [hk]

theorem bundleSteps_of_forall {c : MemoryConfig} {opnd : MemoryObject} {type : ProcessorType}
    (keep : RamulatorAddrVec → Bool) (command : RamulatorAddrVec → PIMCommand) {bundles : ℕ}
    (pimRequest : List PIMCommand) (h : ∀ b < bundles, ∃ v, opnd.getAddrVec c b type = .ok v) :
    ∃ l, bundleSteps c opnd type keep command bundles pimRequest = .ok l := by
  unfold bundleSteps
  have hmem : ∀ b ∈ List.range bundles, ∃ v, opnd.getAddrVec c b type = .ok v :=
    fun b hb => h b (List.mem_range.mp hb)
  generalize List.range bundles = bs at hmem ⊢
  induction bs generalizing pimRequest with
  | nil => exact ⟨pimRequest, rfl⟩
  | cons b bs ih =>
    obtain ⟨⟨v, hv⟩, hbs⟩ := List.forall_mem_cons.mp hmem
    rw [List.foldlM_cons, hv]
    by_cases hk : keep v = true
    · obtain ⟨l, hl⟩ := ih (pimRequest ++ [command v]) hbs
      exact ⟨l, by simpa [bind, Except.bind, hk] using hl⟩
    · obtain ⟨l, hl⟩ := ih pimRequest hbs
      exact ⟨l, by simpa [bind, Except.bind, hk] using hl⟩

/-- A loop with a result has counted its bundles. -/
theorem bundleLoop_counted {c : MemoryConfig} {opnd : MemoryObject} {type : ProcessorType}
    {keep : RamulatorAddrVec → Bool} {command : RamulatorAddrVec → PIMCommand}
    {pimRequest l : List PIMCommand}
    (h : bundleLoop c opnd type keep command pimRequest = .ok l) :
    opnd.getBundleSize c < 2 ^ 31 := by
  obtain ⟨request, -, hcounted⟩ := bind_eq_ok h
  by_contra hlt
  rw [if_neg hlt] at hcounted
  cases hcounted

theorem bundleLoop_eq {c : MemoryConfig} {opnd : MemoryObject} {type : ProcessorType}
    (keep : RamulatorAddrVec → Bool) (command : RamulatorAddrVec → PIMCommand)
    (pimRequest : List PIMCommand) (hcounted : opnd.getBundleSize c < 2 ^ 31) :
    bundleLoop c opnd type keep command pimRequest
      = bundleSteps c opnd type keep command (opnd.getBundleSize c) pimRequest := by
  unfold bundleLoop
  rw [min_eq_left hcounted.le]
  simp only [if_pos hcounted]
  cases bundleSteps c opnd type keep command (opnd.getBundleSize c) pimRequest <;> rfl

/-- A loop that does not fail has an address vector for every bundle, and its commands are
those of the kept vectors in bundle order. -/
theorem bundleLoop_ok {c : MemoryConfig} {opnd : MemoryObject} {type : ProcessorType}
    {keep : RamulatorAddrVec → Bool} {command : RamulatorAddrVec → PIMCommand}
    {pimRequest l : List PIMCommand}
    (h : bundleLoop c opnd type keep command pimRequest = .ok l) :
    ∃ vs : List RamulatorAddrVec,
      List.Forall₂ (fun b v => opnd.getAddrVec c b type = .ok v)
        (List.range (opnd.getBundleSize c)) vs ∧
      l = pimRequest ++ (vs.filter keep).map command := by
  rw [bundleLoop_eq keep command pimRequest (bundleLoop_counted h)] at h
  exact bundleSteps_ok h

/-- The loop succeeds exactly if every bundle has an address vector and an `int`. -/
theorem bundleLoop_ok_iff {c : MemoryConfig} {opnd : MemoryObject} {type : ProcessorType}
    (keep : RamulatorAddrVec → Bool) (command : RamulatorAddrVec → PIMCommand)
    (pimRequest : List PIMCommand) :
    (∃ l, bundleLoop c opnd type keep command pimRequest = .ok l) ↔
      opnd.getBundleSize c < 2 ^ 31 ∧
        ∀ b < opnd.getBundleSize c, ∃ v, opnd.getAddrVec c b type = .ok v := by
  constructor
  · rintro ⟨l, hl⟩
    obtain ⟨vs, hvs, -⟩ := bundleLoop_ok hl
    refine ⟨bundleLoop_counted hl, fun b hb => ?_⟩
    have hb' : b < (List.range (opnd.getBundleSize c)).length := by rwa [List.length_range]
    have hget := hvs.get hb' (hvs.length_eq ▸ hb')
    rw [List.get_eq_getElem, List.getElem_range] at hget
    exact ⟨_, hget⟩
  · rintro ⟨hcounted, hvecs⟩
    rw [bundleLoop_eq keep command pimRequest hcounted]
    exact bundleSteps_of_forall keep command pimRequest hvecs

end LlmSystem
