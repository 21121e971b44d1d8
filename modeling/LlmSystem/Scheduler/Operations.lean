import LlmSystem.Scheduler.Sequence
import LlmSystem.Lib.Binary64

/-!
The scheduler: arrivals, admission, token assignment and completion. A sequence
is reachable from exactly one place, so the shared pointers of the source are
records here and a write through a pointer is a write by `id`.
-/
namespace LlmSystem

/-- One request of a trace; only its lengths matter to the scheduler. -/
structure SequenceInfo where
  lin : ℤ
  lout : ℤ
  deriving DecidableEq, Repr

/-- What `initExpertList` leaves behind. -/
structure ExpertTrace where
  realData : Bool := false
  totalSeqNum : ℕ := 0
  sequencesInfo : List SequenceInfo := []
  deriving DecidableEq, Repr

structure Scheduler where
  systemConfig : SystemConfig
  modelConfig : ModelConfig
  trace : ExpertTrace
  totalBatchSize : ℤ
  batchSizePerDp : ℤ
  numMaxBatchedToken : ℤ
  maxProcessToken : ℤ
  dpDegree : ℤ
  totalTime : ℚ := 0
  actualArrivalTime : List ℚ := []
  curArrivalTimeIdx : ℤ := 0
  sequenceQueue : List Sequence := []
  runningQueue : List BatchedSequence := []
  /-- `static int rotate` of `fillRunningQueue`. -/
  rotate : ℕ := 0
  /-- `Sequence::count_id`. -/
  countId : ℕ := 0
  deriving DecidableEq, Repr

namespace Scheduler

def initRunningQueue (s : Scheduler) : Scheduler :=
  { s with
    runningQueue := List.replicate s.dpDegree.toNat
      (BatchedSequence.create s.modelConfig.numRoutedExpert s.modelConfig.topK) }

/-- `Scheduler::Create` and `initRunningQueue`, with the two statics as they stand. -/
def create (c : SystemConfig) (m : ModelConfig) (trace : ExpertTrace)
    (totalBatchSize numMaxBatchedToken maxProcessToken : ℤ) (rotate countId : ℕ) :
    Scheduler :=
  let dpDegree := (c.numDevice * c.numNode).tdiv m.neTpDg
  initRunningQueue
    { systemConfig := c, modelConfig := m, trace, totalBatchSize, numMaxBatchedToken
      maxProcessToken, dpDegree, batchSizePerDp := totalBatchSize.tdiv dpDegree
      rotate, countId }

def hasSumSeq (s : Scheduler) : Bool := s.runningQueue.any fun b => b.getSum.length != 0

def getBatchSize (s : Scheduler) : ℤ := (s.runningQueue.map (·.getNumSeq)).sum

def getNumProcessToken (s : Scheduler) : ℤ := (s.runningQueue.map (·.getProcessToken)).sum

/-- The next arrival time: `at` throws outside the list and the handler stores one. -/
def takeArrival (s : Scheduler) : ℚ × ℤ :=
  if 0 < s.totalTime then
    (if 0 ≤ s.curArrivalTimeIdx then
      (s.actualArrivalTime[s.curArrivalTimeIdx.toNat]?).getD 1 else 1, s.curArrivalTimeIdx + 1)
  else (0, s.curArrivalTimeIdx)

/-- `input_len * kv_cache_reuse_rate` as a `double`, stored into an `int`. -/
def reuseLen (c : SystemConfig) (inputLen : ℤ) : ℤ :=
  Binary64.trunc (Binary64.mul inputLen c.kvCacheReuseRate)

/-- The mode switches at the end of `pushDummySeq`. -/
def applyModes (c : SystemConfig) (inputLen : ℤ) (seq : Sequence) : Sequence :=
  let seq := if c.reuseKvCache then { seq with currentLen := reuseLen c inputLen } else seq
  if c.prefillMode then { seq with outputLen := inputLen, totalLen := inputLen }
  else if c.decodeMode then { seq with currentLen := inputLen }
  else seq

/-- The normal draws of the source only feed a value that is never used. -/
def pushDummySeq (s : Scheduler) (inputLen outputLen : ℤ) : Except String Scheduler :=
  if outputLen = 0 then .ok s
  else do
    let newSeq ← Sequence.create s.countId 0 inputLen outputLen
    let newSeq := { newSeq with arrivalTime := s.takeArrival.1, getExpertFromList := false }
    .ok
      { s with
        curArrivalTimeIdx := s.takeArrival.2
        countId := s.countId + 1
        sequenceQueue := s.sequenceQueue ++ [applyModes s.systemConfig inputLen newSeq] }

def pushDummySeqs (inputLen outputLen : ℤ) : ℕ → Scheduler → Except String Scheduler
  | 0, s => .ok s
  | n + 1, s => do pushDummySeqs inputLen outputLen n (← s.pushDummySeq inputLen outputLen)

/-- The `do … while` of `pushRealSeq`. `draws` is what the generator of
`getRandomExpertSeqId` returns; a call whose draws run out has not returned. -/
def drawRealSeq (t : ExpertTrace) : List ℕ → Except String ((ℕ × SequenceInfo) × List ℕ)
  | [] => .error "no draw left"
  | d :: draws =>
    match t.sequencesInfo[d % t.totalSeqNum]? with
    | none => .error "std::out_of_range"
    | some info =>
      if info.lout = 512 then drawRealSeq t draws else .ok ((d % t.totalSeqNum, info), draws)

def pushRealSeqs : ℕ → List ℕ → Scheduler → Except String Scheduler
  | 0, _, s => .ok s
  | n + 1, draws, s => do
    let ((seqId, info), draws) ← drawRealSeq s.trace draws
    let newSeq ← Sequence.create s.countId seqId info.lin info.lout
    pushRealSeqs n draws
      { s with countId := s.countId + 1, sequenceQueue := s.sequenceQueue ++ [newSeq] }

def pushRealSeq (s : Scheduler) (numSeq : ℤ) (draws : List ℕ) : Except String Scheduler :=
  if s.trace.sequencesInfo.length = 0 then .error "Input trace is not set"
  else pushRealSeqs numSeq.toNat draws s

/-- `pushSeq` lowers `output_len` in the shared model configuration. -/
def clampOutputLen (m : ModelConfig) : ModelConfig :=
  if m.maxSeqLen < m.inputLen + m.outputLen then { m with outputLen := m.maxSeqLen - m.inputLen }
  else m

def pushSeq (s : Scheduler) (numSeq : ℤ) (draws : List ℕ) : Except String Scheduler :=
  if s.trace.realData then s.pushRealSeq numSeq draws
  else if s.modelConfig.inputLen < s.modelConfig.maxSeqLen then
    let m := clampOutputLen s.modelConfig
    pushDummySeqs m.inputLen m.outputLen numSeq.toNat { s with modelConfig := m }
  else .error ("Invalid input_len (= " ++ toString s.modelConfig.inputLen ++ ")")

/-- Number of requests injected by `fillSequenceQueue`. The literal `0.7` is the
nearest `double`, and the difference is truncated when stored into an `int`. -/
def numRequestToInject (s : Scheduler) (iterTime totalTime : ℚ) : ℤ :=
  if s.systemConfig.useInjectRate then
    if iterTime ≠ 0 then
      s.actualArrivalTime.countP fun t => decide (totalTime - iterTime ≤ t ∧ t < totalTime)
    else
      max (Binary64.trunc (Binary64.sub
        (Binary64.mul s.totalBatchSize (Binary64.round (7 / 10))) s.getBatchSize)) 0
  else s.totalBatchSize - s.getBatchSize

def fillSequenceQueue (s : Scheduler) (iterTime totalTime : ℚ) (draws : List ℕ) :
    Except String Scheduler :=
  s.pushSeq (s.numRequestToInject iterTime totalTime) draws

/-- The write of `fillRunningQueue` to a sequence it admits. -/
def stampDelay (s : Scheduler) (seq : Sequence) : Sequence :=
  if s.systemConfig.useInjectRate then
    { seq with queueingDelay := s.totalTime - seq.arrivalTime }
  else seq

/-- The inner loop of `fillRunningQueue`: at most `n` batches are tried for the
sequence at the head of the queue, starting at the rotating cursor. -/
def admitOne (seq : Sequence) : ℕ → Scheduler → Scheduler
  | 0, s => s
  | n + 1, s =>
    let i := s.rotate % s.runningQueue.length
    let s := { s with rotate := s.rotate + 1 }
    match s.runningQueue[i]? with
    | none => s
    | some batch =>
      if batch.getNumSeq < s.batchSizePerDp then
        { s with
          sequenceQueue := s.sequenceQueue.tail
          runningQueue := s.runningQueue.set i (batch.add (s.stampDelay seq)) }
      else admitOne seq n s

def admitAll : ℕ → Scheduler → Scheduler
  | 0, s => s
  | n + 1, s =>
    match s.sequenceQueue with
    | [] => s
    | seq :: _ => admitAll n (admitOne seq s.runningQueue.length s)

/-- The argument `time` of the source is not read. -/
def fillRunningQueue (s : Scheduler) : Scheduler :=
  admitAll (min (s.totalBatchSize - s.getBatchSize) s.sequenceQueue.length).toNat s

def setGenToken (totalTime : ℚ) (seq : Sequence) : Sequence :=
  if seq.genStartTime = 0 then { seq with numProcessToken := 1 }
  else if seq.genStartTime ≤ totalTime then { seq with numProcessToken := 1 }
  else seq

def setSumToken (numProcess : ℤ) (seq : Sequence) : Sequence :=
  { seq with numProcessToken := min numProcess (seq.inputLen - seq.currentLen) }

def processGen (s : Scheduler) : Bool := s.systemConfig.disaggSystem || !s.hasSumSeq

def processSum (s : Scheduler) : Bool := s.systemConfig.disaggSystem || s.hasSumSeq

/-- The two loops of `setMetadata` over one batch; they write disjoint sequences. -/
def setBatchMetadata (s : Scheduler) (b : BatchedSequence) : BatchedSequence :=
  b.modify fun seq =>
    if seq.InSum then
      if s.processSum then setSumToken (s.maxProcessToken.tdiv b.getSum.length) seq else seq
    else if s.processGen then setGenToken s.totalTime seq
    else seq

def setMetadata (s : Scheduler) : Scheduler :=
  { s with runningQueue := s.runningQueue.map s.setBatchMetadata }

/-- One pass of the completion loops: pop a finished sequence, report a first token. -/
def collectToken (acc : BatchedSequence × List Sequence) (seq : Sequence) :
    BatchedSequence × List Sequence :=
  if seq.Finished then (acc.1.pop seq, acc.2 ++ [seq])
  else if seq.currentLen = seq.inputLen then
    if seq.record then acc
    else
      (acc.1.modify fun t => if t.id = seq.id then t.setRecord else t,
        acc.2 ++ [seq.setRecord])
  else acc

def updateBatch (time : ℚ) (b : BatchedSequence) : BatchedSequence × List Sequence :=
  let b := b.update time
  b.sequence.foldl collectToken (b, [])

def updateScheduler (s : Scheduler) (time : ℚ) : Scheduler × List Sequence :=
  ({ s with runningQueue := s.runningQueue.map fun b => (updateBatch time b).1 },
    s.runningQueue.flatMap fun b => (updateBatch time b).2)

/-- The loop of `updateSchedulerSumGenSplit` updates each sequence before testing it. -/
def updateAndCollect (time now : ℚ) (acc : BatchedSequence × List Sequence) (seq : Sequence) :
    BatchedSequence × List Sequence :=
  let seq := (seq.update time).setGenStartTime now
  collectToken (acc.1.modify fun t => if t.id = seq.id then seq else t, acc.2) seq

def updateBatchSplit (time now : ℚ) (b : BatchedSequence) : BatchedSequence × List Sequence :=
  b.getSum.foldl (updateAndCollect time now) (b, [])

def updateSchedulerSumGenSplit (s : Scheduler) (time : ℚ) : Scheduler × List Sequence :=
  ({ s with
      runningQueue :=
        s.runningQueue.map fun b => (updateBatchSplit time (s.totalTime + time) b).1 },
    s.runningQueue.flatMap fun b => (updateBatchSplit time (s.totalTime + time) b).2)

/-- The write of `Cluster::addLatency` to the sequences of a token list. -/
def setGenStart (s : Scheduler) (tokens : List Sequence) (time : ℚ) : Scheduler :=
  { s with
    runningQueue := s.runningQueue.map fun b => b.modify fun t =>
      if t.id ∈ tokens.map (·.id) then t.setGenStartTime time else t }

/-- One iteration of `hittingQueue`. -/
def hitting (s : Scheduler) (draws : List ℕ) : Except String Scheduler := do
  let s ← (s.setMetadata.updateScheduler 0).1.fillSequenceQueue 0 0 draws
  .ok s.fillRunningQueue

/-- `hittingQueue`, with the generator draws of every iteration. -/
def hittingQueue : Scheduler → List (List ℕ) → Except String Scheduler
  | s, [] => .ok s
  | s, draws :: rest => do hittingQueue (← s.hitting draws) rest

end Scheduler
end LlmSystem
