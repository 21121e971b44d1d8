import LlmSystem.Dram.Kernels
import LlmSystem.Module.Status

/-!
`DRAMInterface`: a request is translated, simulated and counted. The memory simulator is a
function of the commands it is given.
-/
namespace LlmSystem

inductive DRAMCommandType
  | kACT | kPRE | kPREA | kALL_PRE | kREAD | kWRITE | kALL_ACT | kALL_READ | kALL_WRITE | kREF
  deriving DecidableEq, Repr

/-- What the simulator writes back to a `PIMRequest`. -/
structure Simulated where
  start : ℤ := 0
  «end» : ℤ := 0
  issuedDramCmd : DRAMCommandType → ℕ := fun _ => 0

namespace DRAMInterface

def resetCounter (_ : ExecStatus) : ExecStatus := {}

def updateStatus (memoryScaleFactor : ℚ) (execStatus : ExecStatus) (pimrequest : Simulated) :
    ExecStatus :=
  let duration := pimrequest.end - pimrequest.start
  { execStatus with
    memoryDuration := execStatus.memoryDuration + duration * memoryScaleFactor
    actCount := execStatus.actCount + pimrequest.issuedDramCmd .kACT
    readCount := execStatus.readCount + pimrequest.issuedDramCmd .kREAD
    writeCount := execStatus.writeCount + pimrequest.issuedDramCmd .kWRITE
    allActCount := execStatus.allActCount + pimrequest.issuedDramCmd .kALL_ACT
    allReadCount := execStatus.allReadCount + pimrequest.issuedDramCmd .kALL_READ
    allWriteCount := execStatus.allWriteCount + pimrequest.issuedDramCmd .kALL_WRITE
    refCount := execStatus.refCount + pimrequest.issuedDramCmd .kREF }

/-- For the list with one request that `Device::run_ramulator` passes. -/
def handleRequest (c : MemoryConfig) (memoryScaleFactor : ℚ)
    (ramulator : List PIMCommand → Simulated) (pimHWConfig : PIMHWConfig)
    (request : DRAMRequest) (execStatus : ExecStatus) : Except String ExecStatus := do
  let pimrequest ← generatePIMCommand c pimHWConfig request []
  .ok (updateStatus memoryScaleFactor (resetCounter execStatus) (ramulator pimrequest))

end DRAMInterface
end LlmSystem
