import LlmSystem.Dram.Interface

/-!
What a memory controller works on: the commands of the HBM3 device, `Ramulator::Request` and
`ReqBuffer`.
-/
namespace LlmSystem

/-- `m_commands` of the HBM3 device, in the order that numbers them. -/
inductive HBM3Command
  | act | allAct | pre | prea | allPre | rd | wr | rda | wra | allRd | allWr
  | refab | refsb | rfmab | rfmsb
  deriving DecidableEq, Repr

structure DRAMCommandMeta where
  isOpening : Bool := false
  isClosing : Bool := false
  isAccessing : Bool := false
  isRefreshing : Bool := false
  deriving DecidableEq, Repr

namespace HBM3Command

def mCommands : List HBM3Command :=
  [act, allAct, pre, prea, allPre, rd, wr, rda, wra, allRd, allWr, refab, refsb, rfmab, rfmsb]

/-- The `int` that stands for a command. -/
def num (cmd : HBM3Command) : ℕ := mCommands.idxOf cmd

/-- `m_command_meta`. -/
def commandMeta : HBM3Command → DRAMCommandMeta
  | act | allAct => { isOpening := true }
  | pre | prea | allPre => { isClosing := true }
  | rd | wr | allRd | allWr => { isAccessing := true }
  | rda | wra => { isClosing := true, isAccessing := true }
  | refab | refsb | rfmab | rfmsb => { isRefreshing := true }

/-- The switch of `Request::update_state`, over the number of the command. -/
def countedAs (cmd : HBM3Command) : Option DRAMCommandType :=
  match cmd.num with
  | 0 => some .kACT
  | 1 => some .kALL_ACT
  | 4 => some .kALL_PRE
  | 5 => some .kREAD
  | 6 => some .kWRITE
  | 9 => some .kALL_READ
  | 10 => some .kALL_WRITE
  | 11 => some .kREF
  | _ => none

end HBM3Command

/-- `m_requests` of the device; the first four are `Request::Type`. -/
inductive RequestType
  | read | write | allRead | allWrite | allBankRefresh | perBankRefresh | allBankRfm | perBankRfm
  deriving DecidableEq, Repr

namespace RequestType

/-- `m_request_translations`. -/
def translation : RequestType → HBM3Command
  | read => .rd
  | write => .wr
  | allRead => .allRd
  | allWrite => .allWr
  | allBankRefresh => .refab
  | perBankRefresh => .refsb
  | allBankRfm => .rfmab
  | perBankRfm => .rfmsb

def reads (t : RequestType) : Bool := t == .read || t == .allRead

def writes (t : RequestType) : Bool := t == .write || t == .allWrite

end RequestType

/-- A request with an address vector, so that `addr` keeps its default. `callback` says whether
`set_end_time` is to be called. -/
structure Request where
  addr : ℤ := -1
  addrVec : RamulatorAddrVec
  typeId : RequestType
  pimcmd : Option PIMCommand := none
  command : Option HBM3Command := none
  arrive : ℤ := -1
  depart : ℤ := -1
  issuedDramCmd : DRAMCommandType → ℕ := fun _ => 0
  callback : Bool := false

namespace Request

/-- `send` and `priority_send` set it from the type, and nothing changes it. -/
def finalCommand (req : Request) : HBM3Command := req.typeId.translation

/-- `issued_dram_cmd` with one more of what a command is counted as. -/
def count (cmd : HBM3Command) (req : Request) : Request :=
  match cmd.countedAs with
  | some k =>
    { req with issuedDramCmd := Function.update req.issuedDramCmd k (req.issuedDramCmd k + 1) }
  | none => req

def updateState (req : Request) : Request :=
  match req.command with
  | some cmd => req.count cmd
  | none => req

def departAt (clk : ℤ) (req : Request) : Request := { req with depart := clk }

def arriveAt (clk : ℤ) (req : Request) : Request := { req with arrive := clk }

/-- What no controller changes. -/
def fixed (req : Request) : ℤ × RamulatorAddrVec × RequestType × Option PIMCommand × Bool :=
  (req.addr, req.addrVec, req.typeId, req.pimcmd, req.callback)

/-- A request without the command it was last looked at for. -/
def idle (req : Request) : Request := { req with command := none }

@[simp] theorem count_fixed (cmd : HBM3Command) (req : Request) :
    (req.count cmd).fixed = req.fixed := by
  unfold count
  cases cmd.countedAs <;> rfl

@[simp] theorem count_typeId (cmd : HBM3Command) (req : Request) :
    (req.count cmd).typeId = req.typeId := by
  unfold count
  cases cmd.countedAs <;> rfl

@[simp] theorem count_addrVec (cmd : HBM3Command) (req : Request) :
    (req.count cmd).addrVec = req.addrVec := by
  unfold count
  cases cmd.countedAs <;> rfl

@[simp] theorem count_callback (cmd : HBM3Command) (req : Request) :
    (req.count cmd).callback = req.callback := by
  unfold count
  cases cmd.countedAs <;> rfl

@[simp] theorem idle_typeId (req : Request) : req.idle.typeId = req.typeId := rfl

@[simp] theorem idle_callback (req : Request) : req.idle.callback = req.callback := rfl

@[simp] theorem idle_depart (req : Request) : req.idle.depart = req.depart := rfl

@[simp] theorem departAt_typeId (clk : ℤ) (req : Request) :
    (req.departAt clk).typeId = req.typeId := rfl

@[simp] theorem departAt_callback (clk : ℤ) (req : Request) :
    (req.departAt clk).callback = req.callback := rfl

theorem departAt_idle (clk : ℤ) (req : Request) :
    (req.departAt clk).idle = req.idle.departAt clk := rfl

theorem count_idle (cmd : HBM3Command) (req : Request) :
    (req.count cmd).idle = req.idle.count cmd := by
  unfold count
  cases cmd.countedAs <;> rfl

theorem updateState_eq {cmd : HBM3Command} {req : Request} (h : req.command = some cmd) :
    req.updateState = req.count cmd := by
  simp [updateState, h]

theorem count_issued (cmd : HBM3Command) (req : Request) (k : DRAMCommandType) :
    (req.count cmd).issuedDramCmd k
      = req.issuedDramCmd k + if cmd.countedAs = some k then 1 else 0 := by
  unfold count
  cases h : cmd.countedAs with
  | none => simp
  | some k' =>
    by_cases hk : k = k'
    · subst hk
      simp
    · simp [hk, Ne.symm hk]

end Request

structure ReqBuffer where
  buffer : List Request := []
  maxSize : ℕ := 32

namespace ReqBuffer

/-- From `begin()` to `end()`. -/
def window (b : ReqBuffer) : List Request := b.buffer.take b.maxSize

def size (b : ReqBuffer) : ℕ := b.buffer.length

def empty (b : ReqBuffer) : Bool := b.buffer.isEmpty

def enqueue (b : ReqBuffer) (req : Request) : ReqBuffer := { b with buffer := b.buffer ++ [req] }

def remove (b : ReqBuffer) (i : ℕ) : ReqBuffer := { b with buffer := b.buffer.eraseIdx i }

/-- The request an iterator points to, changed in place. -/
def set (b : ReqBuffer) (i : ℕ) (req : Request) : ReqBuffer :=
  { b with buffer := b.buffer.set i req }

/-- The requests the iterators reach, replaced. -/
def modifyWindow (b : ReqBuffer) (f : Request → Request) : ReqBuffer :=
  { b with buffer := b.window.map f ++ b.buffer.drop b.maxSize }

end ReqBuffer
end LlmSystem
