import LlmSystem.Module.Placement
import LlmSystem.Scheduler.Sequence
import Mathlib.Algebra.GroupWithZero.Nat

/-!
`MoEScatter::forward` and `MoEGather::forward`: the tokens a device exchanges, the bytes it
is charged for and the time they take. Byte counts are exact rationals.
-/
namespace LlmSystem

/-- Bytes exchanged within the node and between nodes. -/
structure CommSize where
  intraNode : ℚ := 0
  interNode : ℚ := 0
  deriving DecidableEq, Repr

namespace CommSize

def total (s : CommSize) : ℚ := s.intraNode + s.interNode

def IsZero (s : CommSize) : Prop := s.intraNode = 0 ∧ s.interNode = 0

instance (s : CommSize) : Decidable s.IsZero := inferInstanceAs (Decidable (_ ∧ _))

/-- Division by a parallel degree. -/
def div (s : CommSize) (degree : ℕ) : CommSize := ⟨s.intraNode / degree, s.interNode / degree⟩

def scale (s : CommSize) (n : ℕ) : CommSize := ⟨s.intraNode * n, s.interNode * n⟩

/-- `1.0 * token * k * precision_byte`. -/
def ofTokens (tokens : ℕ × ℕ) (k precisionByte : ℕ) : CommSize :=
  ⟨tokens.1 * k * precisionByte, tokens.2 * k * precisionByte⟩

end CommSize

/-- A loop over ranks: the tokens of the ranks that are not skipped, near and far apart. -/
def countTokens (ranks : List ℕ) (skip near : ℕ → Bool) (tokens : ℕ → ℕ) : ℕ × ℕ :=
  ranks.foldl (fun acc r =>
    if skip r then acc
    else if near r then (acc.1 + tokens r, acc.2)
    else (acc.1, acc.2 + tokens r)) (0, 0)

/-- The inner loop: `local_num_token_in_expert` of the batch `dp`, over some experts. -/
def tokensFor (runningQueue : List BatchedSequence) (dp : ℕ) (experts : List ℕ) : ℕ :=
  (experts.map fun e =>
    match runningQueue[dp]? with
    | none => 0
    | some b => b.localNumTokenInExpert.getD e 0).sum

/-- The time of one direction: both links for prefill, one link for decode. -/
def transferTime (c : MoeConfig) (batch : Option BatchedSequence) (size : CommSize) : ℚ :=
  match batch with
  | none => 0
  | some b =>
    if 0 < b.getSumProcessToken then
      max (size.intraNode / c.deviceIctBandwidth * 1000 * 1000 * 1000 + c.deviceIctLatency)
        (size.interNode / c.nodeIctBandwidth * 1000 * 1000 * 1000 + c.nodeIctLatency)
    else if 0 < b.getGenProcessToken then
      if c.numNode = 1 then
        size.total / c.deviceIctBandwidth * 1000 * 1000 * 1000 + c.deviceIctLatency
      else size.total / c.nodeIctBandwidth * 1000 * 1000 * 1000 + c.nodeIctLatency
    else 0

/-- What a collective charges one device. -/
structure Collective where
  send : CommSize := {}
  receive : CommSize := {}
  time : ℚ := 0
  deriving DecidableEq, Repr

namespace MoEScatter

def tpSharingDeviceList (c : MoeConfig) (rank : ℕ) : List ℕ :=
  MoeConfig.deviceList (rank / c.neTpDg * c.neTpDg) c.neTpDg

/-- To every device outside the tensor-parallel group; eight devices to a node. -/
def sendTokens (c : MoeConfig) (runningQueue : List BatchedSequence) (src : ℕ) : ℕ × ℕ :=
  countTokens (List.range c.totalNumDevice)
    (fun dst => decide (dst ∈ tpSharingDeviceList c src))
    (fun dst => decide (dst / 8 = src / c.numDevice))
    (fun dst => tokensFor runningQueue (src / c.neTpDg) (c.commExperts dst))

/-- From the first device of every other data-parallel group. -/
def receiveTokens (c : MoeConfig) (runningQueue : List BatchedSequence) (dst : ℕ) : ℕ × ℕ :=
  countTokens (List.range (c.totalNumDevice / c.neTpDg))
    (fun srcDp => decide (srcDp = dst / c.neTpDg))
    (fun srcDp => decide (dst / c.numDevice = srcDp * c.neTpDg / c.numDevice))
    (fun srcDp => tokensFor runningQueue srcDp (c.commExperts dst))

def sendSize (c : MoeConfig) (runningQueue : List BatchedSequence) (k precision rank : ℕ) :
    CommSize :=
  (CommSize.ofTokens (sendTokens c runningQueue rank) k precision).div c.neTpDg

def receiveSize (c : MoeConfig) (runningQueue : List BatchedSequence) (k precision rank : ℕ) :
    CommSize :=
  (CommSize.ofTokens (receiveTokens c runningQueue rank) k precision).div c.neTpDg

/-- A device that sends nothing returns before it looks at what it receives. -/
def forward (c : MoeConfig) (runningQueue : List BatchedSequence) (k precision rank : ℕ) :
    Collective :=
  let send := sendSize c runningQueue k precision rank
  if send.IsZero then { send }
  else
    let receive := receiveSize c runningQueue k precision rank
    if receive.IsZero then { send, receive }
    else
      let batch := runningQueue[rank / c.neTpDg]?
      { send, receive, time := max (transferTime c batch send) (transferTime c batch receive) }

end MoEScatter

namespace MoEGather

def eTpSharingDeviceList (c : MoeConfig) (rank : ℕ) : List ℕ :=
  MoeConfig.deviceList (rank / c.eTpDg * c.eTpDg) c.eTpDg

/-- From every device outside the expert-tensor-parallel group; eight devices to a node. -/
def receiveTokens (c : MoeConfig) (runningQueue : List BatchedSequence) (dst : ℕ) : ℕ × ℕ :=
  countTokens (List.range c.totalNumDevice)
    (fun src => decide (src ∈ eTpSharingDeviceList c dst))
    (fun src => decide (src / 8 = dst / c.numDevice))
    (fun src => tokensFor runningQueue (dst / c.neTpDg) (c.commExperts src))

/-- To the first device of every other data-parallel group. -/
def sendTokens (c : MoeConfig) (runningQueue : List BatchedSequence) (src : ℕ) : ℕ × ℕ :=
  countTokens (List.range (c.totalNumDevice / c.neTpDg))
    (fun dstDp => decide (dstDp = src / c.neTpDg))
    (fun dstDp => decide (dstDp * c.neTpDg / c.numDevice = src / c.numDevice))
    (fun dstDp => tokensFor runningQueue dstDp (c.commExperts src))

/-- FP8 dispatch and BF16 combine. -/
def combineFactor (c : MoeConfig) : ℕ :=
  if c.modelName = "deepseekV3" ∧ c.precisionByte = 1 then 2 else 1

def receiveSize (c : MoeConfig) (runningQueue : List BatchedSequence) (k precision rank : ℕ) :
    CommSize :=
  (((CommSize.ofTokens (receiveTokens c runningQueue rank) k precision).div c.eTpDg).div
    c.neTpDg).scale (combineFactor c)

def sendSize (c : MoeConfig) (runningQueue : List BatchedSequence) (k precision rank : ℕ) :
    CommSize :=
  (CommSize.ofTokens (sendTokens c runningQueue rank) k precision).div c.neTpDg

/-- A device that receives nothing returns before it looks at what it sends. -/
def forward (c : MoeConfig) (runningQueue : List BatchedSequence) (k precision rank : ℕ) :
    Collective :=
  let receive := receiveSize c runningQueue k precision rank
  if receive.IsZero then { receive }
  else
    let send := sendSize c runningQueue k precision rank
    if send.IsZero then { send, receive }
    else
      let batch := runningQueue[rank / c.neTpDg]?
      { send, receive, time := max (transferTime c batch send) (transferTime c batch receive) }

end MoEGather
end LlmSystem
