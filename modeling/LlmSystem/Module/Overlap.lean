import LlmSystem.Module.Status
import Mathlib.Algebra.BigOperators.Group.List.Basic
import Mathlib.Tactic.NormNum

/-!
The high and the low side of a device between two alignments. Each side runs its own clock, and
`device_time` is overwritten with one of the two at every push and at every charge.
-/
namespace LlmSystem

/-- A push or a pop, with the tensor's placement and what the pop charges. -/
inductive StampStep
  | push (input : Option Placement)
  | pop (output : Option Placement) (e : ExecStatus)

namespace StampStep

/-- The tensor is a single one, and its module runs beside others. -/
def Overlaps : StampStep → Prop
  | push input => ∃ p ∈ input, p.parallelExecution = true
  | pop output _ => ∃ p ∈ output, p.parallelExecution = true

def highDuration : StampStep → ℚ
  | push _ => 0
  | pop _ e => if e.processorType = .gpu then e.totalDuration else 0

def lowDuration : StampStep → ℚ
  | push _ => 0
  | pop _ e => if e.processorType = .pim ∨ e.processorType = .logic then e.totalDuration else 0

end StampStep

namespace StatusBoard

def stampStep (dramPowers : ProcessorType → DramEnergy) (s : StatusBoard) : StampStep → StatusBoard
  | .push input => s.setPushStatus input
  | .pop output e => s.setPopStatus dramPowers output e

/-- What has been charged to each side since both clocks stood at `t₀`. -/
structure Sides (t₀ high low : ℚ) (s : StatusBoard) : Prop where
  highTime : s.highTime = t₀ + high
  lowTime : s.lowTime = t₀ + low
  deviceTime : s.deviceTime ≤ max s.lowTime s.highTime

variable {t₀ high low : ℚ} {s : StatusBoard}

/-- Energies and work do not touch the clocks. -/
theorem charge_times (dramPowers : ProcessorType → DramEnergy) (s : StatusBoard) (e : ExecStatus) :
    (chargeWork (chargeEnergy dramPowers s e) e).deviceTime = s.deviceTime ∧
      (chargeWork (chargeEnergy dramPowers s e) e).highTime = s.highTime ∧
      (chargeWork (chargeEnergy dramPowers s e) e).lowTime = s.lowTime := by
  unfold chargeEnergy
  split_ifs
  · exact ⟨rfl, rfl, rfl⟩
  · exact ⟨rfl, rfl, rfl⟩

/-- A charge goes to one side, and moves the device to it. -/
theorem Sides.chargeDuration (hs : Sides t₀ high low s) (hparallel : s.parallelExecution = true)
    (output : Option Placement) (e : ExecStatus) :
    Sides t₀ (high + (StampStep.pop output e).highDuration)
      (low + (StampStep.pop output e).lowDuration) (s.chargeDuration e) := by
  obtain ⟨hhigh, hlow, hdevice⟩ := hs
  unfold StatusBoard.chargeDuration StampStep.highDuration StampStep.lowDuration
  rw [if_pos hparallel]
  cases hp : e.processorType with
  | none => exact ⟨by simp [hp, hhigh], by simp [hp, hlow], hdevice⟩
  | pim => exact ⟨by simp [hp, hhigh], by simp [hp, hlow, add_assoc], le_max_left _ _⟩
  | logic => exact ⟨by simp [hp, hhigh], by simp [hp, hlow, add_assoc], le_max_left _ _⟩
  | gpu => exact ⟨by simp [hp, hhigh, add_assoc], by simp [hp, hlow], le_max_right _ _⟩

theorem Sides.stampStep (hs : Sides t₀ high low s) (dramPowers : ProcessorType → DramEnergy)
    {e : StampStep} (he : e.Overlaps) :
    Sides t₀ (high + e.highDuration) (low + e.lowDuration) (s.stampStep dramPowers e) := by
  cases e with
  | push input =>
    obtain ⟨p, hp, hparallel⟩ := he
    obtain rfl := Option.mem_def.mp hp
    obtain ⟨hhigh, hlow, -⟩ := hs
    unfold StatusBoard.stampStep StatusBoard.setPushStatus
    dsimp only
    rw [if_pos hparallel]
    refine ⟨by simp [StampStep.highDuration, hhigh], by simp [StampStep.lowDuration, hlow], ?_⟩
    -- the clock of the tensor's side
    dsimp only
    split_ifs
    · exact le_max_right _ _
    · exact le_max_left _ _
  | pop output e =>
    obtain ⟨p, hp, hparallel⟩ := he
    obtain rfl := Option.mem_def.mp hp
    have hstart : Sides t₀ high low
        { s with isTensorVec := false, parallelExecution := p.parallelExecution } :=
      ⟨hs.highTime, hs.lowTime, hs.deviceTime⟩
    obtain ⟨hhigh, hlow, hdevice⟩ := hstart.chargeDuration hparallel (some p) e
    obtain ⟨hd, hh, hl⟩ := charge_times dramPowers
      (StatusBoard.chargeDuration
        { s with isTensorVec := false, parallelExecution := p.parallelExecution } e) e
    constructor
    · exact hh.trans hhigh
    · exact hl.trans hlow
    · change (chargeWork (chargeEnergy dramPowers _ e) e).deviceTime ≤ _
      rw [hd]
      change _ ≤ max (chargeWork (chargeEnergy dramPowers _ e) e).lowTime
        (chargeWork (chargeEnergy dramPowers _ e) e).highTime
      rw [hh, hl]
      exact hdevice

theorem Sides.stampSteps (hs : Sides t₀ high low s) (dramPowers : ProcessorType → DramEnergy)
    {es : List StampStep} (hes : ∀ e ∈ es, e.Overlaps) :
    Sides t₀ (high + (es.map (·.highDuration)).sum) (low + (es.map (·.lowDuration)).sum)
      (es.foldl (StatusBoard.stampStep dramPowers) s) := by
  induction es generalizing s high low with
  | nil => simpa using hs
  | cons e es ih =>
    obtain ⟨he, hrest⟩ := List.forall_mem_cons.mp hes
    have hnext := ih (hs.stampStep dramPowers he) hrest
    simpa only [List.map_cons, List.sum_cons, List.foldl_cons, add_assoc] using hnext

/-- The next alignment joins the two sides at the later one. -/
theorem Sides.align (hs : Sides t₀ high low s) {input : Option Placement}
    (hinput : ∀ p ∈ input, p.parallelExecution = false) :
    (s.setPushStatus input).deviceTime = t₀ + max high low ∧
      (s.setPushStatus input).lowTime = t₀ + max high low ∧
      (s.setPushStatus input).highTime = t₀ + max high low := by
  obtain ⟨hhigh, hlow, hdevice⟩ := hs
  have hmax : max s.deviceTime (max s.lowTime s.highTime) = t₀ + max high low := by
    rw [max_eq_right hdevice, hhigh, hlow, max_add_add_left, max_comm]
  cases input with
  | none => exact ⟨hmax, hmax, hmax⟩
  | some p =>
    unfold StatusBoard.setPushStatus
    dsimp only
    rw [if_neg (by simp [hinput p rfl])]
    exact ⟨hmax, hmax, hmax⟩

/-- After any pushes and pops of overlapping single tensors, nested or not, the next push of a
`TensorVec` or of a tensor that runs alone leaves all clocks at the longer side. -/
theorem overlap_takes_longer (dramPowers : ProcessorType → DramEnergy) (t₀ : ℚ) (s : StatusBoard)
    (hlow : s.lowTime = t₀) (hhigh : s.highTime = t₀) (hdevice : s.deviceTime = t₀)
    (es : List StampStep) (hes : ∀ e ∈ es, e.Overlaps) (input : Option Placement)
    (hinput : ∀ p ∈ input, p.parallelExecution = false) :
    let after := (es.foldl (StatusBoard.stampStep dramPowers) s).setPushStatus input
    let longer := t₀ + max (es.map (·.highDuration)).sum (es.map (·.lowDuration)).sum
    after.deviceTime = longer ∧ after.lowTime = longer ∧ after.highTime = longer := by
  have hstart : Sides t₀ 0 0 s := by
    constructor
    · simpa using hhigh
    · simpa using hlow
    · rw [hlow, hhigh, hdevice, max_self]
  have hend := hstart.stampSteps dramPowers hes
  simp only [zero_add] at hend
  exact hend.align hinput

/-- A container on the high side around a GPU and a PIM module, the latter on the low side. -/
theorem overlap_takes_longer_two_sides :
    let high : Option Placement := some { parallelExecution := true }
    let low : Option Placement := some { parallelExecution := true, performAtHigh := false }
    let es : List StampStep := [.push high,
      .push high, .pop high { processorType := .gpu, totalDuration := 3 },
      .push low, .pop low { processorType := .pim, totalDuration := 5 }, .pop high {}]
    ((es.foldl (StatusBoard.stampStep fun _ => {}) {}).setPushStatus none).deviceTime = 5 := by
  intro high low es
  have hes : ∀ e ∈ es, e.Overlaps := by simp [es, high, low, StampStep.Overlaps]
  have hlonger : (0 : ℚ) + max (es.map (·.highDuration)).sum (es.map (·.lowDuration)).sum = 5 := by
    simp [es, high, low, StampStep.highDuration, StampStep.lowDuration]
    norm_num
  rw [← hlonger]
  exact (overlap_takes_longer (fun _ => {}) 0 {} rfl rfl rfl es hes none (by simp)).1

end StatusBoard
end LlmSystem
