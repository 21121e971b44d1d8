import LlmSystem.Dram.PIMDRAMController

/-!
`PIMDRAMSystem`, the frontend `PIMController` and `DRAMInterface::HandleRequest` over them. The
loop of `run` has no bound in the source; here it has fuel.
-/
namespace LlmSystem

structure PIMDRAMSystem (δ : Type) where
  clk : ℤ := 0
  dram : δ
  controllers : List PIMDRAMController

namespace PIMDRAMSystem
variable {δ : Type}

def create (numChannels : ℕ) (dram : δ) : PIMDRAMSystem δ where
  dram := dram
  controllers := (List.range numChannels).map fun i => { channelId := i }

/-- The address mapper leaves a request with an address vector alone. -/
def send (s : PIMDRAMSystem δ) (req : Request) : Except String (PIMDRAMSystem δ) :=
  let channelId := req.addrVec.channel
  match if 0 ≤ channelId then s.controllers[channelId.toNat]? else none with
  | none => .error "no such channel"
  | some c => do
    let c ← c.send req
    .ok { s with controllers := s.controllers.set channelId.toNat c }

section Tick
variable (dram : IDRAM δ) (refresh : ℕ → ℤ → List RamulatorAddrVec)

/-- The controllers tick in the order of their channels, on one device. -/
def tickAll : δ → List PIMDRAMController → δ × List PIMDRAMController × List Request
  | d, [] => (d, [], [])
  | d, c :: cs =>
    let (d, c, callbacks) := c.tick dram d refresh
    let (d, cs, callbacks') := tickAll d cs
    (d, c :: cs, callbacks ++ callbacks')

def tick (s : PIMDRAMSystem δ) : PIMDRAMSystem δ × List Request :=
  let (d, controllers, callbacks) := tickAll dram refresh (dram.tick s.dram) s.controllers
  ({ clk := s.clk + 1, dram := d, controllers }, callbacks)

variable {dram refresh}

/-- The first controller ticks, then the others. -/
theorem tickAll_cons {d d' : δ} {c : PIMDRAMController} {cs cs' : List PIMDRAMController}
    {callbacks : List Request} (h : tickAll dram refresh d (c :: cs) = (d', cs', callbacks)) :
    ∃ d₁ c₁ callbacks₁ cs₂ callbacks₂, c.tick dram d refresh = (d₁, c₁, callbacks₁) ∧
      tickAll dram refresh d₁ cs = (d', cs₂, callbacks₂) ∧ cs' = c₁ :: cs₂ ∧
      callbacks = callbacks₁ ++ callbacks₂ := by
  rcases hc : c.tick dram d refresh with ⟨d₁, c₁, callbacks₁⟩
  rcases hcs : tickAll dram refresh d₁ cs with ⟨d₂, cs₂, callbacks₂⟩
  simp only [tickAll, hc, hcs] at h
  obtain ⟨rfl, rfl, rfl⟩ := h
  exact ⟨d₁, c₁, callbacks₁, cs₂, callbacks₂, rfl, hcs, rfl, rfl⟩

theorem tick_cases {s s' : PIMDRAMSystem δ} {callbacks : List Request}
    (h : s.tick dram refresh = (s', callbacks)) :
    ∃ d cs, tickAll dram refresh (dram.tick s.dram) s.controllers = (d, cs, callbacks) ∧
      s' = { clk := s.clk + 1, dram := d, controllers := cs } := by
  rcases hall : tickAll dram refresh (dram.tick s.dram) s.controllers with ⟨d, cs, out⟩
  simp only [tick, hall] at h
  obtain ⟨rfl, rfl⟩ := Prod.mk.inj h
  exact ⟨d, cs, rfl, rfl⟩

end Tick

def isFinished (s : PIMDRAMSystem δ) : Bool := s.controllers.all PIMDRAMController.isFinished

end PIMDRAMSystem

namespace PIMController

def getType : PIMCommandType → RequestType
  | .kAdd | .kSub | .kMult | .kMAC | .kDRAM2RF => .allRead
  | .kRF2DRAM => .allWrite
  | .kRead => .read
  | .kWrite => .write

/-- The callback: the last request to leave sets the end. -/
def setEndTime (pimrequest : Simulated) (req : Request) : Simulated where
  start := pimrequest.start
  «end» := req.depart
  issuedDramCmd k := pimrequest.issuedDramCmd k + req.issuedDramCmd k

/-- The request for a command. -/
def request (cmd : PIMCommand) : Request where
  addrVec := cmd.addrVec
  typeId := getType cmd.pimcmdType
  pimcmd := some cmd
  callback := true

def sendAll {δ : Type} : List PIMCommand → PIMDRAMSystem δ → Except String (PIMDRAMSystem δ)
  | [], s => .ok s
  | cmd :: cmds, s => do
    let s ← s.send (request cmd)
    sendAll cmds s

/-- A `PIMRequest` starts and, so far, ends at the clock of the memory system. -/
def send {δ : Type} (commandQueue : List PIMCommand) (s : PIMDRAMSystem δ) :
    Except String (PIMDRAMSystem δ × Simulated) := do
  let s' ← sendAll commandQueue s
  .ok (s', { start := s.clk, «end» := s.clk })

end PIMController

namespace DRAMInterface
variable {δ : Type} (dram : IDRAM δ) (refresh : ℕ → ℤ → List RamulatorAddrVec)

/-- One round of the loop. -/
def round (x : PIMDRAMSystem δ × Simulated) : PIMDRAMSystem δ × Simulated :=
  let (s, callbacks) := x.1.tick dram refresh
  (s, callbacks.foldl PIMController.setEndTime x.2)

def run : ℕ → PIMDRAMSystem δ × Simulated → Option (PIMDRAMSystem δ × Simulated)
  | 0, _ => none
  | fuel + 1, x =>
    let x := round dram refresh x
    if x.1.isFinished then some x else run fuel x

/-- One round of `HandleRequest`, with its `GeneratePIMCommand`, `SendRequest` and `run`. -/
def handle (c : MemoryConfig) (memoryScaleFactor : ℚ) (pimHWConfig : PIMHWConfig) (fuel : ℕ)
    (x : PIMDRAMSystem δ × ExecStatus) (request : DRAMRequest) :
    Except String (PIMDRAMSystem δ × ExecStatus) := do
  let commandQueue ← generatePIMCommand c pimHWConfig request []
  let sent ← PIMController.send commandQueue x.1
  match run dram refresh fuel sent with
  | some (s, pimrequest) => .ok (s, updateStatus memoryScaleFactor x.2 pimrequest)
  | none => .error "out of fuel"

def handleRequests (c : MemoryConfig) (memoryScaleFactor : ℚ) (pimHWConfig : PIMHWConfig)
    (fuel : ℕ) (requests : List DRAMRequest) (x : PIMDRAMSystem δ × ExecStatus) :
    Except String (PIMDRAMSystem δ × ExecStatus) :=
  requests.foldlM (handle dram refresh c memoryScaleFactor pimHWConfig fuel)
    (x.1, resetCounter x.2)

end DRAMInterface

/-! ### A small device -/

/-- One open row in a bank at most, and the commands so far. -/
structure OpenRows where
  clk : ℤ := 0
  free : ℤ := 0
  rows : List (List ℤ × ℤ) := []
  commands : List HBM3Command := []

namespace OpenRows
open PIMDRAMController (rowgroup)

/-- `RequireRowOpen`, `RequirePIMRowOpen` and `RequireAllBanksClosed`. -/
def preq (d : OpenRows) (cmd : HBM3Command) (v : RamulatorAddrVec) : HBM3Command :=
  let row := d.rows.lookup (rowgroup v)
  match cmd with
  | .rd | .wr => match row with
    | none => .act
    | some r => if r = v.row then cmd else .pre
  | .allRd | .allWr => match row with
    | none => .allAct
    | some r => if r = v.row then cmd else .allPre
  | .refab => if d.rows = [] then cmd else .prea
  | _ => cmd

def update (d : OpenRows) (cmd : HBM3Command) (v : RamulatorAddrVec) : List (List ℤ × ℤ) :=
  match cmd with
  | .act | .allAct => (rowgroup v, v.row) :: d.rows
  | .pre | .allPre => d.rows.filter fun r => r.1 ≠ rowgroup v
  | .prea => []
  | _ => d.rows

/-- Any two commands are `gap` cycles apart. -/
def idram (gap readLatency : ℤ) : IDRAM OpenRows where
  tick d := { d with clk := d.clk + 1 }
  checkReady d _ _ := d.free ≤ d.clk
  getPreqCommand := preq
  issueCommand d cmd v :=
    { d with free := d.clk + gap, rows := update d cmd v, commands := d.commands ++ [cmd] }
  readLatency := readLatency

end OpenRows
end LlmSystem
