import LlmSystem.Executor.Roofline

/-!
`rope.cpp`: the rotary embedding of one tensor and of several. Its table of sines and cosines is
made for the sequence that the loop over the batch comes to last.
-/
namespace LlmSystem

open Runs Executor

/-- Of a module and its device. -/
structure Rope where
  qkRopeHeadDim : ℕ
  rates : Rates
  communicationHiding : Bool := false

/-- What is read from the input. -/
structure RopeInput where
  elements : ℕ
  size : ℕ
  precisionByte : ℕ
  placement : Placement

namespace Rope

/-- `max_len`: each sequence overwrites what the ones before have come to. -/
def maxLen (seqs : List Sequence) : ℤ :=
  seqs.foldl (fun _ s => max (s.currentLen + s.numProcessToken) 0) 0

def sinCosShape (r : Rope) (b : BatchedSequence) : List ℕ :=
  [2 * (maxLen b.sequence).toNat, r.qkRopeHeadDim]

/-- Six operations for each element; it is read and written, and so is the table. -/
def totalTime (r : Rope) (i : RopeInput) (b : BatchedSequence) : ℚ :=
  max (duration (i.elements * 6) r.rates.computePeakFlops)
    (duration ((2 * i.elements + (r.sinCosShape b).prod) * i.precisionByte)
      r.rates.memoryBandwidth)

/-- The clock of the device, and the one of its side where the two sides overlap. -/
def addTime (r : Rope) (p : Placement) (time : ℚ) (s : StatusBoard) : StatusBoard :=
  let s :=
    if p.parallelExecution ∧ ¬ r.communicationHiding then
      if p.performAtHigh then { s with highTime := s.highTime + time }
      else { s with lowTime := s.lowTime + time }
    else s
  { s with deviceTime := s.deviceTime + time }

/-- The shape of the table, and the status of the device. -/
def charge (r : Rope) (i : RopeInput) (b : BatchedSequence) (s : StatusBoard) :
    List ℕ × StatusBoard :=
  (r.sinCosShape b, if i.size = 0 then s else r.addTime i.placement (r.totalTime i b) s)

namespace RoPE

def read (input : Tensor) (p : Placement) : Except String RopeInput := do
  let m ← dim input 0
  let k ← dim input 1
  .ok ⟨m * k, input.getSize, input.precisionByte, p⟩

def forward (r : Rope) (input : Tensor) (p : Placement) (b : BatchedSequence) (s : StatusBoard) :
    Except String (List ℕ × StatusBoard) := do
  let i ← read input p
  .ok (r.charge i b s)

end RoPE

namespace BatchedRoPE

/-- All tensors are taken to have the shape of the first. -/
def read : List (Tensor × Placement) → Except String RopeInput
  | [] => .error "input is empty"
  | (input, p) :: inputs => do
    let m := inputs.length + 1
    let k ← dim input 0
    let n ← dim input 1
    .ok ⟨m * k * n, input.getSize, input.precisionByte, p⟩

def forward (r : Rope) (inputs : List (Tensor × Placement)) (b : BatchedSequence)
    (s : StatusBoard) : Except String (List ℕ × StatusBoard) := do
  let i ← read inputs
  .ok (r.charge i b s)

end BatchedRoPE

/-! ### The longest sequence -/

/-- Tokens of the longest sequence. -/
def longest (seqs : List Sequence) : ℕ := (seqs.map (·.attended)).foldr max 0

theorem le_longest {seqs : List Sequence} {s : Sequence} (h : s ∈ seqs) :
    s.attended ≤ longest seqs := by
  induction seqs with
  | nil => cases h
  | cons s' seqs ih =>
    rcases List.mem_cons.mp h with rfl | h
    · exact le_max_left _ _
    · exact (ih h).trans (le_max_right _ _)

theorem exists_longest {seqs : List Sequence} (h : longest seqs ≠ 0) :
    ∃ s ∈ seqs, s.attended = longest seqs := by
  induction seqs with
  | nil => exact absurd rfl h
  | cons s seqs ih =>
    have hcons : longest (s :: seqs) = max s.attended (longest seqs) := rfl
    rcases le_total (longest seqs) s.attended with hle | hle
    · exact ⟨s, List.mem_cons_self, by rw [hcons, max_eq_left hle]⟩
    · rw [hcons, max_eq_right hle] at h ⊢
      obtain ⟨s', hs', heq⟩ := ih h
      exact ⟨s', List.mem_cons_of_mem _ hs', heq⟩

/-- Tokens of the last sequence, none where there is none. -/
def lastLen (seqs : List Sequence) : ℕ := (seqs.getLast?.map (·.attended)).getD 0

theorem maxLen_eq (seqs : List Sequence) : (maxLen seqs).toNat = lastLen seqs := by
  rcases List.eq_nil_or_concat seqs with rfl | ⟨l, s, rfl⟩
  · rfl
  · simp only [maxLen, lastLen, Sequence.attended, List.foldl_concat, List.concat_eq_append,
      List.getLast?_concat, Option.map_some, Option.getD_some]
    omega

theorem lastLen_le (seqs : List Sequence) : lastLen seqs ≤ longest seqs := by
  rcases List.eq_nil_or_concat seqs with rfl | ⟨l, s, rfl⟩
  · exact le_refl 0
  · have hlast : lastLen (l ++ [s]) = s.attended := by simp [lastLen]
    have hle : s.attended ≤ longest (l ++ [s]) := le_longest (by simp)
    simpa [hlast] using hle

variable {r : Rope} {i : RopeInput} {b : BatchedSequence} {s : StatusBoard}

theorem sinCosShape_eq : r.sinCosShape b = [2 * lastLen b.sequence, r.qkRopeHeadDim] := by
  unfold sinCosShape
  rw [maxLen_eq]

/-- The time for a table of `2 * len` rows. -/
def timeFor (r : Rope) (i : RopeInput) (len : ℕ) : ℚ :=
  max (duration (i.elements * 6) r.rates.computePeakFlops)
    (duration ((2 * i.elements + 2 * len * r.qkRopeHeadDim) * i.precisionByte)
      r.rates.memoryBandwidth)

theorem totalTime_eq : r.totalTime i b = r.timeFor i (lastLen b.sequence) := by
  unfold totalTime timeFor
  rw [sinCosShape_eq]
  simp

theorem duration_mono {rate : ℚ} (h : 0 < rate) {work work' : ℕ} (hle : work ≤ work') :
    duration work rate ≤ duration work' rate := by
  unfold duration
  gcongr

theorem timeFor_mono (h : 0 < r.rates.memoryBandwidth) {len len' : ℕ} (hle : len ≤ len') :
    r.timeFor i len ≤ r.timeFor i len' := by
  unfold timeFor
  apply max_le_max_left
  apply duration_mono h
  gcongr

/-- A table of `2 * len` rows takes no time: there is none, or the memory is done with it before
the computation is. -/
def TableFree (r : Rope) (i : RopeInput) (len : ℕ) : Prop :=
  i.size = 0 ∨ len = 0 ∨ r.qkRopeHeadDim = 0 ∨
    duration ((2 * i.elements + 2 * len * r.qkRopeHeadDim) * i.precisionByte)
        r.rates.memoryBandwidth
      ≤ duration (i.elements * 6) r.rates.computePeakFlops

theorem duration_lt {rate : ℚ} (h : 0 < rate) {work work' : ℕ} (hlt : work < work') :
    duration work rate < duration work' rate := by
  unfold duration
  gcongr

theorem timeFor_eq_iff (h : 0 < r.rates.memoryBandwidth) (hp : 0 < i.precisionByte) {len : ℕ} :
    r.timeFor i len = r.timeFor i 0 ↔ len = 0 ∨ r.qkRopeHeadDim = 0 ∨
      duration ((2 * i.elements + 2 * len * r.qkRopeHeadDim) * i.precisionByte)
          r.rates.memoryBandwidth
        ≤ duration (i.elements * 6) r.rates.computePeakFlops := by
  by_cases hlen : len = 0
  · simp [hlen]
  by_cases hdim : r.qkRopeHeadDim = 0
  · simp [hdim, timeFor]
  have hmore : (2 * i.elements + 2 * 0 * r.qkRopeHeadDim) * i.precisionByte
      < (2 * i.elements + 2 * len * r.qkRopeHeadDim) * i.precisionByte := by
    have htable : 0 < 2 * len * r.qkRopeHeadDim := by positivity
    apply Nat.mul_lt_mul_of_pos_right _ hp
    omega
  have hmemory := duration_lt h hmore
  rw [or_iff_right hlen, or_iff_right hdim]
  unfold timeFor
  constructor
  · intro heq
    by_contra hlt
    rw [max_eq_right (not_le.mp hlt).le] at heq
    rcases max_choice (duration (i.elements * 6) r.rates.computePeakFlops)
      (duration ((2 * i.elements + 2 * 0 * r.qkRopeHeadDim) * i.precisionByte)
        r.rates.memoryBandwidth) with hmax | hmax
    · exact hlt (heq.trans hmax).le
    · exact hmemory.ne' (heq.trans hmax)
  · intro hle
    rw [max_eq_left hle, max_eq_left (hmemory.le.trans hle)]

/-! ### What is added to the clocks -/

def addedTime (r : Rope) (i : RopeInput) (len : ℕ) : ℚ := if i.size = 0 then 0 else r.timeFor i len

theorem charge_eq : r.charge i b s
    = ([2 * lastLen b.sequence, r.qkRopeHeadDim],
      r.addTime i.placement (r.addedTime i (lastLen b.sequence)) s) := by
  unfold charge addedTime
  rw [sinCosShape_eq, totalTime_eq]
  by_cases hsize : i.size = 0
  · simp [hsize, addTime]
  · simp only [hsize, if_false]

theorem addTime_deviceTime (p : Placement) (time : ℚ) :
    (r.addTime p time s).deviceTime = s.deviceTime + time := by
  unfold addTime
  split_ifs <;> rfl

theorem addedTime_mono (h : 0 < r.rates.memoryBandwidth) {len len' : ℕ} (hle : len ≤ len') :
    r.addedTime i len ≤ r.addedTime i len' := by
  unfold addedTime
  split_ifs
  · exact le_refl 0
  · exact timeFor_mono h hle

theorem addedTime_eq_iff (h : 0 < r.rates.memoryBandwidth) (hp : 0 < i.precisionByte)
    {len : ℕ} : r.addedTime i len = r.addedTime i 0 ↔ r.TableFree i len := by
  unfold addedTime TableFree
  by_cases hsize : i.size = 0
  · simp [hsize]
  · simp only [hsize, if_false, false_or]
    exact timeFor_eq_iff h hp

/-! ### Both modules -/

inductive Input
  | tensor (input : Tensor) (p : Placement)
  | vec (inputs : List (Tensor × Placement))

def read : Input → Except String RopeInput
  | .tensor input p => RoPE.read input p
  | .vec inputs => BatchedRoPE.read inputs

def forward (r : Rope) : Input → BatchedSequence → StatusBoard →
    Except String (List ℕ × StatusBoard)
  | .tensor input p => RoPE.forward r input p
  | .vec inputs => BatchedRoPE.forward r inputs

variable {input : Input}

theorem forward_eq (h : read input = .ok i) (b : BatchedSequence) (s : StatusBoard) :
    r.forward input b s = .ok ([2 * lastLen b.sequence, r.qkRopeHeadDim],
      r.addTime i.placement (r.addedTime i (lastLen b.sequence)) s) := by
  rw [← charge_eq]
  cases input with
  | tensor input p =>
    show Except.bind (RoPE.read input p) _ = _
    rw [show RoPE.read input p = .ok i from h]
    rfl
  | vec inputs =>
    show Except.bind (BatchedRoPE.read inputs) _ = _
    rw [show BatchedRoPE.read inputs = .ok i from h]
    rfl

theorem read_precisionByte (h : read input = .ok i) : 0 < i.precisionByte := by
  cases input with
  | tensor input p =>
    obtain ⟨m, -, h⟩ := bind_eq_ok h
    obtain ⟨k, -, h⟩ := bind_eq_ok h
    obtain rfl := Except.ok.inj h
    exact input.precisionByte_pos
  | vec inputs =>
    cases inputs with
    | nil => cases h
    | cons first inputs =>
      obtain ⟨k, -, h⟩ := bind_eq_ok h
      obtain ⟨n, -, h⟩ := bind_eq_ok h
      obtain rfl := Except.ok.inj h
      exact first.1.precisionByte_pos

/-- The table is that of the longest sequence, the time does not depend on the order of the batch,
and no sequence that joins lowers it. -/
structure ForLongest (r : Rope) (input : Input) (b : BatchedSequence) : Prop where
  table : ∀ s, (r.forward input b s).map Prod.fst
    = .ok [2 * longest b.sequence, r.qkRopeHeadDim]
  order : ∀ s b', b'.sequence.Perm b.sequence →
    (r.forward input b' s).map Prod.snd = (r.forward input b s).map Prod.snd
  add : ∀ s seq after after', (r.forward input b s).map Prod.snd = .ok after →
    (r.forward input (b.add seq) s).map Prod.snd = .ok after' → after.deviceTime ≤ after'.deviceTime

/-- A sequence of no tokens. -/
def noTokens : Sequence := { Sequence.start 0 0 0 0 with currentLen := 0, numProcessToken := 0 }

theorem lastLen_add (b : BatchedSequence) (seq : Sequence) :
    lastLen (b.add seq).sequence = seq.attended := by
  simp [BatchedSequence.add, lastLen]

/-- Two sequences in decode with these lengths. -/
def twoLengths (len len' : ℤ) : BatchedSequence :=
  { BatchedSequence.create 0 0 with
    sequence := [{ Sequence.start 0 0 1 8 with currentLen := len - 1, numProcessToken := 1 },
      { Sequence.start 1 0 1 8 with currentLen := len' - 1, numProcessToken := 1 }] }

/-- Two tokens with two heads each. -/
def twoTokens : Input := .tensor ⟨2, [2, 128], 0, Nat.two_pos⟩ {}

/-- A device that computes slowly. -/
def slowRope : Rope where
  qkRopeHeadDim := 64
  rates := ⟨1, 1000⟩

end Rope
end LlmSystem
