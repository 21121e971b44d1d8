import LlmSystem.Lib.Blocks
import LlmSystem.Module.Placement
import Mathlib.Tactic.IntervalCases

/-!
The data-parallel rank of a device and the tensor-parallel groups that `Decoder`, `MoEDecoder` and
`ExpertFFN` build for it.
-/
namespace LlmSystem
namespace MoeConfig
variable (c : MoeConfig)

/-- `Scheduler::Scheduler` creates as many batches. -/
def dpDegree : ℕ := c.totalNumDevice / c.neTpDg

/-- Where `Device::run` and the collectives index `running_queue`. -/
def dpRank (rank : ℕ) : ℕ := rank / c.neTpDg

def nonMoeDeviceList (rank : ℕ) : List ℕ := deviceList (rank / c.neTpDg * c.neTpDg) c.neTpDg

def expertDeviceList (rank : ℕ) : List ℕ := deviceList (rank / c.eTpDg * c.eTpDg) c.eTpDg

end MoeConfig

/-- The constructor on a device of `rank`, whose `device_list` holds all devices; the result is the
group of its attention and feedforward. -/
def Decoder.create (c : MoeConfig) (rank : ℕ) : Except String (List ℕ) :=
  if c.totalNumDevice < c.neTpDg then
    .error "None expert tensor parallel degree is not supported"
  else .ok (c.nonMoeDeviceList rank)

/-- As `Decoder`, with the experts in place of the feedforward. -/
def MoEDecoder.create (c : MoeConfig) (rank : ℕ) : Except String (List ℕ × ExpertFFN) := do
  let nonMoeDeviceList ← Decoder.create c rank
  .ok (nonMoeDeviceList, ← ExpertFFN.create c rank)

namespace MoeConfig

/-- The three constructors accept the configuration on every device. -/
def Accepts (c : MoeConfig) : Prop :=
  ∀ rank < c.totalNumDevice, (∃ l, Decoder.create c rank = .ok l) ∧
    (∃ m, MoEDecoder.create c rank = .ok m) ∧ ∃ f, ExpertFFN.create c rank = .ok f

/-- The lists of `n` ranks are a partition of them: each rank is in its own list, and two lists that
share a device are one. -/
structure Partitions (n : ℕ) (list : ℕ → List ℕ) : Prop where
  inside : ∀ rank < n, ∀ d ∈ list rank, d < n
  own : ∀ rank < n, rank ∈ list rank
  same : ∀ r < n, ∀ r' < n, ∀ d, d ∈ list r → d ∈ list r' → list r = list r'

structure RanksSound (c : MoeConfig) : Prop where
  dpRank_lt : ∀ rank < c.totalNumDevice, c.dpRank rank < c.dpDegree
  nonExpert : Partitions c.totalNumDevice c.nonMoeDeviceList
  expert : Partitions c.totalNumDevice c.expertDeviceList

/-- Groups of a size that divides the number of devices. -/
theorem partitions_of_dvd {n size : ℕ} (hsize : 0 < size) (h : size ∣ n) :
    Partitions n fun rank => deviceList (rank / size * size) size where
  inside := by
    intro rank hrank d hd
    obtain ⟨groups, rfl⟩ := h
    have hblock := (Blocks.mem_block hsize rank d).mp hd
    have hgroup : rank / size < groups := Nat.div_lt_of_lt_mul hrank
    rw [← hblock] at hgroup
    rw [Nat.mul_comm]
    exact (Nat.div_lt_iff_lt_mul hsize).mp hgroup
  own := fun rank _ => (Blocks.mem_block hsize rank rank).mpr rfl
  same := by
    intro r _ r' _ d hd hd'
    have hblock := (Blocks.mem_block hsize r d).mp hd
    have hblock' := (Blocks.mem_block hsize r' d).mp hd'
    show deviceList (r / size * size) size = deviceList (r' / size * size) size
    rw [← hblock, hblock']

/-- The last device is beyond the last group where the groups do not divide the devices evenly. -/
theorem dpRank_lt_iff {c : MoeConfig} (hne : 0 < c.neTpDg) :
    (∀ rank < c.totalNumDevice, c.dpRank rank < c.dpDegree) ↔ c.neTpDg ∣ c.totalNumDevice := by
  unfold dpRank dpDegree
  constructor
  · intro h
    by_contra hdvd
    have hrest : 0 < c.totalNumDevice % c.neTpDg :=
      Nat.pos_of_ne_zero fun hzero => hdvd (Nat.dvd_of_mod_eq_zero hzero)
    have hsplit := Nat.div_add_mod c.totalNumDevice c.neTpDg
    have hlast := h (c.neTpDg * (c.totalNumDevice / c.neTpDg)) (by omega)
    rw [Nat.mul_div_cancel_left _ hne] at hlast
    exact lt_irrefl _ hlast
  · rintro hdvd rank hrank
    exact Nat.div_lt_div_of_lt_of_dvd hdvd hrank

/-- `Decoder` and `MoEDecoder` compare `ne_tp_dg` with the number of devices, where `ExpertFFN` has
`e_tp_dg` divide it. -/
theorem ranksSound_iff {c : MoeConfig} (h : c.Accepts) :
    c.RanksSound ↔ c.neTpDg ∣ c.totalNumDevice := by
  rcases c.totalNumDevice.eq_zero_or_pos with hzero | hpos
  · have hnone : ∀ rank, ¬ rank < c.totalNumDevice := by omega
    have hempty : ∀ list, Partitions c.totalNumDevice list := fun _ =>
      ⟨fun r hr => absurd hr (hnone r), fun r hr => absurd hr (hnone r),
        fun r hr => absurd hr (hnone r)⟩
    constructor
    · intro _
      rw [hzero]
      exact Nat.dvd_zero _
    · exact fun _ => ⟨fun r hr => absurd hr (hnone r), hempty _, hempty _⟩
  · obtain ⟨-, -, f, hf⟩ := h 0 hpos
    have hacc := (ExpertFFN.create_ok hf).1
    have he : 0 < c.eTpDg := Nat.pos_of_dvd_of_pos hacc.e_dvd_device hpos
    have hgroups : 0 < c.totalNumDevice / c.eTpDg :=
      Nat.div_pos (Nat.le_of_dvd hpos hacc.e_dvd_device) he
    have hne : 0 < c.neTpDg :=
      Nat.pos_of_dvd_of_pos hacc.ne_dvd (Nat.lt_of_lt_of_le hgroups hacc.group_le)
    constructor
    · exact fun hsound => (dpRank_lt_iff hne).mp hsound.dpRank_lt
    · intro hdvd
      constructor
      · exact (dpRank_lt_iff hne).mpr hdvd
      · exact partitions_of_dvd hne hdvd
      · exact partitions_of_dvd he hacc.e_dvd_device

theorem ranksSound_four_devices :
    RanksSound { numNode := 1, numDevice := 4, neTpDg := 2, eTpDg := 1, numRoutedExpert := 8 } := by
  refine (ranksSound_iff ?_).mpr (by decide)
  intro rank (hrank : rank < 4)
  interval_cases rank <;> exact ⟨⟨_, rfl⟩, ⟨_, rfl⟩, ⟨_, rfl⟩⟩

/-- Three devices in groups of two: the third belongs to a second group, which there is no batch
for, together with a device that does not exist. -/
theorem ranks_beyond : ∃ c : MoeConfig, c.numDevice = 3 ∧ c.neTpDg = 2 ∧ c.Accepts ∧
    c.dpRank 2 = c.dpDegree ∧ c.nonMoeDeviceList 2 = [2, 3] ∧ ¬ c.RanksSound := by
  refine ⟨{ numNode := 1, numDevice := 3, neTpDg := 2, eTpDg := 1, numRoutedExpert := 4 }, rfl, rfl,
    ?_, rfl, rfl, ?_⟩
  · intro rank (hrank : rank < 3)
    interval_cases rank <;> exact ⟨⟨_, rfl⟩, ⟨_, rfl⟩, ⟨_, rfl⟩⟩
  · intro hsound
    exact absurd (hsound.dpRank_lt 2 (by decide)) (by decide)

end MoeConfig
end LlmSystem
