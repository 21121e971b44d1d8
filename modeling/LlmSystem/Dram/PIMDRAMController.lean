import LlmSystem.Dram.Request
import LlmSystem.Lib.Scans

/-!
`PIMDRAMController` and its `PIM_Scheduler`. The DRAM device and the refresh manager are
Ramulator's own and stay parameters: what the controllers ask the device, and the address vectors
a refresh is asked for at each clock of a channel.
-/
namespace LlmSystem

/-- The interface of the device. -/
structure IDRAM (δ : Type) where
  tick : δ → δ
  checkReady : δ → HBM3Command → RamulatorAddrVec → Bool
  getPreqCommand : δ → HBM3Command → RamulatorAddrVec → HBM3Command
  issueCommand : δ → HBM3Command → RamulatorAddrVec → δ
  readLatency : ℤ

namespace PIMScheduler
variable {δ : Type} (dram : IDRAM δ) (d : δ)

/-- `check_ready` of the command a request was last looked at for. -/
def ready (req : Request) : Bool :=
  match req.command with
  | some cmd => dram.checkReady d cmd req.addrVec
  | none => false

/-- The command that brings a request forward, stored with it. -/
def withPreq (req : Request) : Request :=
  { req with command := some (dram.getPreqCommand d req.finalCommand req.addrVec) }

/-- Whether `compare` returns its first request. -/
def compare : Request → Request → Bool := Scans.firstReady (ready dram d) Request.arrive

/-- The buffer with the commands stored in it, and the iterator. -/
def getBestRequest (b : ReqBuffer) : ReqBuffer × Option (Request × ℕ) :=
  let b := b.modifyWindow (withPreq dram d)
  (b, Scans.best (compare dram d) (b.buffer.take b.maxSize))

end PIMScheduler

/-- The buffers of a controller. -/
inductive BufferName
  | active | pim | priority | write | read
  deriving DecidableEq, Repr

structure PIMDRAMController where
  channelId : ℕ := 0
  clk : ℤ := 0
  pending : List Request := []
  buffer : BufferName → ReqBuffer := fun
    | .priority => { maxSize := 512 * 3 + 32 }
    | _ => {}
  wrLowWatermark : ℚ := 1 / 5
  wrHighWatermark : ℚ := 4 / 5
  isWriteMode : Bool := false

namespace PIMDRAMController

def setBuffer (c : PIMDRAMController) (name : BufferName) (b : ReqBuffer) : PIMDRAMController :=
  { c with buffer := Function.update c.buffer name b }

def isFinished (c : PIMDRAMController) : Bool :=
  c.pending.isEmpty && (c.buffer .active).empty && (c.buffer .priority).empty &&
    (c.buffer .read).empty && (c.buffer .write).empty && (c.buffer .pim).empty

/-- A read that finds a pending write to its address is answered by that write. -/
def send (c : PIMDRAMController) (req : Request) : Except String PIMDRAMController :=
  if req.typeId = .read ∧ (c.buffer .write).window.any (fun wreq => wreq.addr == req.addr) then
    .ok { c with pending := c.pending ++ [req.departAt (c.clk + 1)] }
  else
    let req := req.arriveAt c.clk
    match req.typeId with
    | .read => .ok (c.setBuffer .read ((c.buffer .read).enqueue req))
    | .write => .ok (c.setBuffer .write ((c.buffer .write).enqueue req))
    | .allRead => .ok (c.setBuffer .pim ((c.buffer .pim).enqueue req))
    | .allWrite => .ok (c.setBuffer .pim ((c.buffer .pim).enqueue req))
    | _ => .error "Invalid request type!"

def prioritySend (c : PIMDRAMController) (req : Request) : PIMDRAMController :=
  c.setBuffer .priority ((c.buffer .priority).enqueue req)

/-- The requests the refresh manager sends. -/
def refreshTick (refresh : ℕ → ℤ → List RamulatorAddrVec) (c : PIMDRAMController) :
    PIMDRAMController :=
  (refresh c.channelId c.clk).foldl
    (fun c addrVec => c.prioritySend { addrVec, typeId := .allBankRefresh }) c

/-- Only the first pending request is looked at. The second component are the callbacks. -/
def serveCompletedReads (c : PIMDRAMController) : PIMDRAMController × List Request :=
  match c.pending with
  | [] => (c, [])
  | req :: pending =>
    if req.depart ≤ c.clk then ({ c with pending }, if req.callback then [req] else [])
    else (c, [])

def setWriteMode (c : PIMDRAMController) : PIMDRAMController :=
  let write := c.buffer .write
  if !c.isWriteMode then
    if c.wrHighWatermark * write.maxSize < write.size ∨ (c.buffer .read).size = 0 then
      { c with isWriteMode := true }
    else c
  else if (write.size : ℚ) < c.wrLowWatermark * write.maxSize ∧ (c.buffer .read).size ≠ 0 then
    { c with isWriteMode := false }
  else c

section Tick
variable {δ : Type} (dram : IDRAM δ) (d : δ)

/-- A buffer, the position of a request in it, and the request. -/
abbrev Iterator := BufferName × ℕ × Request

/-- The best request of a buffer, if the device is ready for it. -/
def pick (c : PIMDRAMController) (name : BufferName) : PIMDRAMController × Option Iterator :=
  let (b, it) := PIMScheduler.getBestRequest dram d (c.buffer name)
  let c := c.setBuffer name b
  match it with
  | some (req, i) => (c, if PIMScheduler.ready dram d req then some (name, i, req) else none)
  | none => (c, none)

/-- The front of the priority buffer; while there is one, the read and write buffers wait. -/
def pickRest (c : PIMDRAMController) : PIMDRAMController × Option Iterator :=
  match (c.buffer .priority).buffer with
  | req :: rest =>
    let req := PIMScheduler.withPreq dram d req
    (c.setBuffer .priority { c.buffer .priority with buffer := req :: rest },
      if PIMScheduler.ready dram d req then some (.priority, 0, req) else none)
  | [] =>
    let c := c.setWriteMode
    pick dram d c (if c.isWriteMode then .write else .read)

/-- Active requests first, then those for the banks, then the others. -/
def findRequest (c : PIMDRAMController) : PIMDRAMController × Option Iterator :=
  match pick dram d c .active with
  | (c, some it) => (c, some it)
  | (c, none) =>
    match pick dram d c .pim with
    | (c, some it) => (c, some it)
    | (c, none) => pickRest dram d c

/-- The levels of an address vector above the row. -/
def rowgroup (v : RamulatorAddrVec) : List ℤ :=
  [v.channel, v.pseudochannel, v.rank, v.bankgroup, v.bank]

/-- Whether the command of a request would close the row of a request in the active buffer. -/
def interrupts (c : PIMDRAMController) (req : Request) : Bool :=
  match req.command with
  | some cmd => cmd.commandMeta.isClosing &&
      (c.buffer .active).window.any fun req' => rowgroup req.addrVec == rowgroup req'.addrVec
  | none => false

def scheduleRequest (c : PIMDRAMController) : PIMDRAMController × Option Iterator :=
  match findRequest dram d c with
  | (c, some it) => (c, if c.interrupts it.2.2 then none else some it)
  | (c, none) => (c, none)

/-- The last step of a tick: the command goes to the device, and the request moves on. -/
def issue (c : PIMDRAMController) (it : Iterator) : δ × PIMDRAMController × List Request :=
  let (name, i, req) := it
  match req.command with
  | none => (d, c, [])
  | some cmd =>
    let d := dram.issueCommand d cmd req.addrVec
    let req := req.updateState
    let buffer := c.buffer name
    if cmd = req.finalCommand then
      let c := c.setBuffer name (buffer.remove i)
      if req.typeId.reads then
        (d, { c with pending := c.pending ++ [req.departAt (c.clk + dram.readLatency)] }, [])
      else if req.typeId.writes && req.callback then (d, c, [req.departAt c.clk])
      else (d, c, [])
    else
      let c := c.setBuffer name (buffer.set i req)
      -- the number of the command is compared with `Request::Type`
      if cmd.commandMeta.isOpening && (cmd.num == 0 || cmd.num == 1) then
        let c := c.setBuffer .active ((c.buffer .active).enqueue req)
        (d, c.setBuffer name ((c.buffer name).remove i), [])
      else (d, c, [])

/-- The new state of the device and the controller, and the callbacks in their order. -/
def tick (refresh : ℕ → ℤ → List RamulatorAddrVec) (c : PIMDRAMController) :
    δ × PIMDRAMController × List Request :=
  let c := { c with clk := c.clk + 1 }
  let (c, served) := c.serveCompletedReads
  let c := c.refreshTick refresh
  match scheduleRequest dram d c with
  | (c, none) => (d, c, served)
  | (c, some it) =>
    let (d, c, written) := issue dram d c it
    (d, c, served ++ written)

end Tick
end PIMDRAMController
end LlmSystem
