import Mathlib.Data.Nat.Basic
import Mathlib.Data.Rat.Defs

/-!
Which routed experts a device runs (`ExpertFFN`) and which ones the MoE collectives charge
communication for. The counts are positive `int`s, so the divisions of the source are those
of `ℕ`.
-/
namespace LlmSystem

structure MoeConfig where
  numNode : ℕ
  numDevice : ℕ
  neTpDg : ℕ
  eTpDg : ℕ
  numRoutedExpert : ℕ
  precisionByte : ℕ := 2
  modelName : String := ""
  deviceIctBandwidth : ℚ := 1
  deviceIctLatency : ℚ := 0
  nodeIctBandwidth : ℚ := 1
  nodeIctLatency : ℚ := 0
  deriving DecidableEq, Repr

namespace MoeConfig

def totalNumDevice (c : MoeConfig) : ℕ := c.numNode * c.numDevice

/-- `set_device_list`: `size` ranks from `offset` on. -/
def deviceList (offset size : ℕ) : List ℕ := List.range' offset size

end MoeConfig

/-- The routed experts an `ExpertFFN` creates a module for, in this order. -/
structure ExpertFFN where
  expertOffset : ℕ
  numExpertPerDevice : ℕ
  deriving DecidableEq, Repr

namespace ExpertFFN

def experts (f : ExpertFFN) : List ℕ := List.range' f.expertOffset f.numExpertPerDevice

/-- The constructor on the device `rank`; its `device_list` holds all devices. -/
def create (c : MoeConfig) (rank : ℕ) : Except String ExpertFFN :=
  let nonMoeDeviceList := MoeConfig.deviceList (rank / c.neTpDg * c.neTpDg) c.neTpDg
  let parallelNum := c.totalNumDevice
  if c.numRoutedExpert % nonMoeDeviceList.length ≠ 0 then
    .error "Non-expert tensor parallel degree is not supported"
  else if c.numRoutedExpert < nonMoeDeviceList.length then
    .error "Num_Expert is smaller than num_device"
  else if c.numRoutedExpert % c.eTpDg ≠ 0 then
    .error "Expert tensor parallel degree is not supported"
  else if ¬(parallelNum % c.eTpDg = 0 ∧ c.eTpDg ≤ parallelNum) then
    .error "Expert tensor parallel degree is not supported"
  else if c.numRoutedExpert < parallelNum / c.eTpDg then
    .error "Expert tensor parallel degree is not supported"
  else
    let numExpertPerDevice := c.numRoutedExpert / (parallelNum / c.eTpDg)
    .ok { numExpertPerDevice, expertOffset := numExpertPerDevice * (rank / c.eTpDg) }

/-- What the assertions of the constructor leave. -/
structure Accepted (c : MoeConfig) : Prop where
  ne_dvd : c.neTpDg ∣ c.numRoutedExpert
  ne_le : c.neTpDg ≤ c.numRoutedExpert
  e_dvd_expert : c.eTpDg ∣ c.numRoutedExpert
  e_dvd_device : c.eTpDg ∣ c.totalNumDevice
  group_le : c.totalNumDevice / c.eTpDg ≤ c.numRoutedExpert

theorem create_ok {c : MoeConfig} {rank : ℕ} {f : ExpertFFN} (h : create c rank = .ok f) :
    Accepted c ∧ f.numExpertPerDevice = c.numRoutedExpert / (c.totalNumDevice / c.eTpDg) ∧
      f.expertOffset = f.numExpertPerDevice * (rank / c.eTpDg) := by
  unfold create at h
  simp only [MoeConfig.deviceList, List.length_range'] at h
  split_ifs at h with hne hlt he hdev hgroup
  obtain rfl := Except.ok.inj h
  rw [not_not] at hne he
  rw [not_lt] at hgroup hlt
  refine ⟨⟨?_, hlt, ?_, ?_, hgroup⟩, rfl, rfl⟩
  · exact Nat.dvd_of_mod_eq_zero hne
  · exact Nat.dvd_of_mod_eq_zero he
  · exact Nat.dvd_of_mod_eq_zero hdev.1

end ExpertFFN

namespace MoeConfig

/-- `num_routed_expert / total_num_device * e_tp_dg`, in both collectives. -/
def commExpertCount (c : MoeConfig) : ℕ := c.numRoutedExpert / c.totalNumDevice * c.eTpDg

def commExpertOffset (c : MoeConfig) (rank : ℕ) : ℕ :=
  c.numRoutedExpert / c.totalNumDevice * (rank / c.eTpDg) * c.eTpDg

/-- The experts `MoEScatter` and `MoEGather` charge communication for on the device `rank`. -/
def commExperts (c : MoeConfig) (rank : ℕ) : List ℕ :=
  List.range' (c.commExpertOffset rank) c.commExpertCount

theorem commExpertOffset_eq (c : MoeConfig) (rank : ℕ) :
    c.commExpertOffset rank = c.commExpertCount * (rank / c.eTpDg) := by
  unfold commExpertOffset commExpertCount
  rw [Nat.mul_right_comm]

end MoeConfig

/-- Dividing by all devices and multiplying by the group size drops the remainder of a
group's experts by its devices. -/
theorem commExpertCount_eq {c : MoeConfig} (hdvd : c.eTpDg ∣ c.totalNumDevice) :
    c.commExpertCount
      = c.numRoutedExpert / (c.totalNumDevice / c.eTpDg) / c.eTpDg * c.eTpDg := by
  unfold MoeConfig.commExpertCount
  rw [Nat.div_div_eq_div_mul, Nat.div_mul_cancel hdvd]

theorem range'_inj {s s' n n' : ℕ} (hn : 0 < n) :
    List.range' s n = List.range' s' n' ↔ s = s' ∧ n = n' := by
  constructor
  · intro h
    have hlen : n = n' := by simpa using congrArg List.length h
    subst hlen
    have hmem : s ∈ List.range' s' n := h ▸ List.mem_range'_1.mpr ⟨le_refl s, by omega⟩
    have hmem' : s' ∈ List.range' s n := h ▸ List.mem_range'_1.mpr ⟨le_refl s', by omega⟩
    rw [List.mem_range'_1] at hmem hmem'
    exact ⟨by omega, rfl⟩
  · rintro ⟨rfl, rfl⟩
    rfl

/-- On every device of an accepted configuration the two ranges are the same exactly if a
group's experts divide evenly among its devices. -/
theorem expert_ranges_agree_iff {c : MoeConfig} {rank : ℕ} {f : ExpertFFN}
    (hf : ExpertFFN.create c rank = .ok f) (hrank : rank < c.totalNumDevice) :
    f.experts = c.commExperts rank ↔
      c.eTpDg ∣ c.numRoutedExpert / (c.totalNumDevice / c.eTpDg) := by
  obtain ⟨hacc, hper, hoff⟩ := ExpertFFN.create_ok hf
  have hpos : 0 < c.totalNumDevice := by omega
  have hgroups : 0 < c.totalNumDevice / c.eTpDg :=
    Nat.div_pos (Nat.le_of_dvd hpos hacc.e_dvd_device)
      (Nat.pos_of_dvd_of_pos hacc.e_dvd_device hpos)
  have hsome : 0 < f.numExpertPerDevice := hper ▸ Nat.div_pos hacc.group_le hgroups
  unfold ExpertFFN.experts MoeConfig.commExperts
  rw [range'_inj hsome, c.commExpertOffset_eq, hoff]
  have hcount : f.numExpertPerDevice = c.commExpertCount ↔
      c.eTpDg ∣ c.numRoutedExpert / (c.totalNumDevice / c.eTpDg) := by
    rw [hper, commExpertCount_eq hacc.e_dvd_device]
    constructor
    · intro h
      rw [h]
      exact Nat.dvd_mul_left _ _
    · intro h
      rw [Nat.div_mul_cancel h]
  constructor
  · exact fun h => hcount.mp h.2
  · intro h
    have heq := hcount.mpr h
    exact ⟨by rw [heq], heq⟩

theorem expert_ranges_agree_four_devices :
    (ExpertFFN.mk 4 4).experts
      = MoeConfig.commExperts { numNode := 1, numDevice := 4, neTpDg := 2, eTpDg := 2
                                numRoutedExpert := 8 } 2 :=
  (expert_ranges_agree_iff (c := { numNode := 1, numDevice := 4, neTpDg := 2, eTpDg := 2
                                   numRoutedExpert := 8 }) rfl (by decide)).mpr (by decide)

/-- Sixteen devices in groups of two hold eight experts: each group runs one expert, and no
device is charged for any. -/
theorem expert_ranges_differ :
    ∃ f, ExpertFFN.create { numNode := 2, numDevice := 8, neTpDg := 2, eTpDg := 2
                            numRoutedExpert := 8 } 0 = .ok f ∧ f.experts = [0] ∧
      MoeConfig.commExperts { numNode := 2, numDevice := 8, neTpDg := 2, eTpDg := 2
                              numRoutedExpert := 8 } 0 = [] := by
  exact ⟨_, rfl, rfl, rfl⟩

end LlmSystem
