import LlmSystem.Dram.AddressBijection
import LlmSystem.Dram.Interface

/-!
`Device::run_ideal`: the number of commands in closed form, against the bundles that the
kernels walk over.
-/
namespace LlmSystem

/-- Without the memory simulator; a tensor of size 0 leaves the last counters. -/
def runIdeal (c : MemoryConfig) (dramRequestType : DRAMRequestType) (totalSize : ℕ)
    (execStatus : ExecStatus) : ExecStatus :=
  if totalSize = 0 then execStatus
  else
    let totalRead := totalSize / c.granul
    let rwCmdToCube0 :=
      if totalRead % c.numCube = 0 then totalRead / c.numCube else totalRead / c.numCube + 1
    let rwCmdToPCH0 :=
      if rwCmdToCube0 % c.numChannel = 0 then rwCmdToCube0 / c.numChannel
      else rwCmdToCube0 / c.numChannel + 1
    let rwCmdToPCH1 :=
      if rwCmdToCube0 % c.numChannel = 1 then rwCmdToCube0 / c.numChannel
      else rwCmdToCube0 / c.numChannel + 1
    let execStatus := DRAMInterface.resetCounter execStatus
    let execStatus := { execStatus with
      actCount := if rwCmdToPCH0 + rwCmdToPCH1 < c.numCol then 1
        else (rwCmdToPCH0 + rwCmdToPCH1) / c.numCol }
    match dramRequestType with
    | .kRead => { execStatus with readCount := rwCmdToPCH0 + rwCmdToPCH1 }
    | .kWrite => { execStatus with writeCount := rwCmdToPCH0 + rwCmdToPCH1 }
    | _ => execStatus

/-- Bundles of a tensor in one cube, where the cubes share them evenly. -/
def bundlesPerCube (c : MemoryConfig) (size : ℕ) : ℕ :=
  (size / c.granul + c.numCube - 1) / c.numCube

/-- Bundles of a tensor at address 0 in cube 0, pseudo-channels 0 and 1. -/
def frontBundles (c : MemoryConfig) (size : ℕ) : ℕ :=
  (size / c.granul).count fun b => b % c.numCube = 0 ∧ b / c.numCube % c.numChannel < 2

theorem count_mod_lt_two {m : ℕ} (hm : 2 ≤ m) (n : ℕ) :
    n.count (fun b => b % m < 2)
      = n / m + (if 0 < n % m then 1 else 0) + (n / m + if 1 < n % m then 1 else 0) := by
  rw [← Radix.count_mod (v := 0) (by omega), ← Radix.count_mod (v := 1) (by omega)]
  induction n with
  | zero => rfl
  | succ n ih =>
    rw [Nat.count_succ, Nat.count_succ, Nat.count_succ, ih]
    have hsplit : (if n % m < 2 then 1 else 0)
        = (if n % m = 0 then 1 else 0) + if n % m = 1 then 1 else 0 := by
      split_ifs <;> omega
    omega

theorem frontBundles_eq {c : MemoryConfig} (hc : c.Valid) (hn : 2 ≤ c.numChannel) (size : ℕ) :
    frontBundles c size
      = bundlesPerCube c size / c.numChannel
          + (if 0 < bundlesPerCube c size % c.numChannel then 1 else 0)
        + (bundlesPerCube c size / c.numChannel
          + if 1 < bundlesPerCube c size % c.numChannel then 1 else 0) := by
  unfold frontBundles bundlesPerCube
  rw [Radix.count_multiples hc.numCube_pos (fun q => q % c.numChannel < 2), count_mod_lt_two hn]

/-- The bundles of the two pseudo-channels, as `run_ideal` counts them. -/
def idealCount (c : MemoryConfig) (size : ℕ) : ℕ :=
  let rwCmdToCube0 := bundlesPerCube c size
  (rwCmdToCube0 + c.numChannel - 1) / c.numChannel
    + if rwCmdToCube0 % c.numChannel = 1 then rwCmdToCube0 / c.numChannel
      else rwCmdToCube0 / c.numChannel + 1

theorem runIdeal_counts {c : MemoryConfig} (hc : c.Valid) {size : ℕ} (hsize : size ≠ 0)
    (execStatus : ExecStatus) :
    (runIdeal c .kRead size execStatus).readCount = idealCount c size ∧
      (runIdeal c .kWrite size execStatus).writeCount = idealCount c size := by
  unfold runIdeal idealCount bundlesPerCube
  simp only [if_neg hsize, Radix.add_pred_div hc.numCube_pos, Radix.add_pred_div hc.numChannel_pos]
  exact ⟨trivial, trivial⟩

/-- One command too many for a tensor whose bundles fill all pseudo-channels of a cube. -/
theorem idealCount_eq {c : MemoryConfig} (hc : c.Valid) (hn : 2 ≤ c.numChannel) (size : ℕ) :
    idealCount c size = frontBundles c size
      + if bundlesPerCube c size % c.numChannel = 0 then 1 else 0 := by
  rw [frontBundles_eq hc hn]
  unfold idealCount
  dsimp only
  rw [Radix.add_pred_div hc.numChannel_pos]
  split_ifs <;> omega

/-! ### The kernels -/

theorem toRamulator_channel_eq_zero {c : MemoryConfig} (hn : 2 ≤ c.numChannel) {v : AddrVec}
    {cube channel : ℕ} (hcube : v.cube = cube) (hchannel : v.channel = channel) :
    (c.toRamulator v).channel = 0 ↔ cube = 0 ∧ channel < 2 := by
  have hnat : (c.toRamulator v).channel = ((c.numChannel * cube + channel) / 2 : ℕ) := by
    unfold MemoryConfig.toRamulator
    simp only [hcube, hchannel]
    rfl
  rw [hnat, Int.natCast_eq_zero, Nat.div_eq_zero_iff_lt Nat.two_pos]
  constructor
  · intro h
    have hzero : cube = 0 := by
      by_contra hcube0
      have := Nat.le_mul_of_pos_right c.numChannel (Nat.pos_of_ne_zero hcube0)
      omega
    rw [hzero, Nat.mul_zero, Nat.zero_add] at h
    exact ⟨hzero, h⟩
  · rintro ⟨rfl, h⟩
    rwa [Nat.mul_zero, Nat.zero_add]

/-- What the kernels keep of a tensor at address 0. -/
theorem getAddrVec_channel {c : MemoryConfig} (hc : c.Valid) (hn : 2 ≤ c.numChannel) {b : ℕ}
    {v : RamulatorAddrVec} (hv : c.getAddrVec 0 b = .ok v) :
    v.channel = 0 ↔ b % c.numCube = 0 ∧ b / c.numCube % c.numChannel < 2 := by
  have haddr : (0 : ℤ) + b * c.granul = (b * c.granul : ℕ) := by simp
  have hbundle : b * c.granul / c.granul = b := Nat.mul_div_cancel _ hc.granul_pos
  unfold MemoryConfig.getAddrVec at hv
  rw [haddr, c.addrToVec_natCast] at hv
  split_ifs at hv with hrow
  · obtain rfl := Except.ok.inj hv
    apply toRamulator_channel_eq_zero hn
    · simp [MemoryConfig.ofDigits, MemoryConfig.radices, hbundle]
    · simp [MemoryConfig.ofDigits, MemoryConfig.radices, hbundle]
  · cases hv

theorem length_filter_of_forall₂ {α β : Type*} {R : α → β → Prop} {p : α → Bool} {q : β → Bool}
    (hpq : ∀ a b, R a b → (p a = q b)) {l : List α} {l' : List β} (h : List.Forall₂ R l l') :
    (l'.filter q).length = l.countP p := by
  induction h with
  | nil => rfl
  | cons hab _ ih => rw [List.filter_cons, List.countP_cons, hpq _ _ hab]; split_ifs <;> simp [ih]

theorem bundleLoop_length {c : MemoryConfig} (hc : c.Valid) (hn : 2 ≤ c.numChannel)
    {type : ProcessorType} (htype : type ≠ .logic) {size : ℕ}
    {command : RamulatorAddrVec → PIMCommand} {l : List PIMCommand}
    (h : bundleLoop c ⟨0, size⟩ type (fun v => v.channel == 0) command [] = .ok l) :
    l.length = frontBundles c size := by
  obtain ⟨vs, hvs, rfl⟩ := bundleLoop_ok h
  rw [List.nil_append, List.length_map]
  have hkeep : ∀ b v, (MemoryObject.mk 0 size).getAddrVec c b type = .ok v →
      decide (b % c.numCube = 0 ∧ b / c.numCube % c.numChannel < 2) = (v.channel == 0) := by
    intro b v hv
    unfold MemoryObject.getAddrVec at hv
    rw [if_neg htype] at hv
    rw [Bool.eq_iff_iff, decide_eq_true_eq, beq_iff_eq, getAddrVec_channel hc hn hv]
  rw [length_filter_of_forall₂ hkeep hvs]
  unfold frontBundles Nat.count
  rfl

/-- The memory holds the bundles of a tensor at address 0, and an `int` their number. -/
def KernelRuns (c : MemoryConfig) (size : ℕ) : Prop :=
  size / c.granul * c.granul ≤ c.capacity ∧ size / c.granul < 2 ^ 31

/-- The first bundle past the end is rejected: its row is the number of rows. -/
theorem addrToVec_capacity {c : MemoryConfig} (hc : c.Valid) (v : AddrVec) :
    c.addrToVec c.capacity ≠ .ok v := by
  have hpos : 0 < c.rowStripe := List.prod_pos (c.radices_pos hc)
  have hrow : c.capacity / c.rowStripe = c.numRow := Nat.mul_div_cancel_left _ hpos
  have hrejects : c.numRow ≤ toInt (c.capacity / c.rowStripe : ℕ) := by
    rw [hrow, toInt_natCast hc.numRow_lt]
  obtain ⟨e, he⟩ := (c.addrToVec_rejects_iff c.capacity).mpr hrejects
  intro hv
  cases he.symm.trans hv

/-- The bundles of a tensor have their vectors exactly where it ends within the memory. -/
theorem bundles_within_iff {c : MemoryConfig} (hc : c.Valid) {type : ProcessorType}
    (htype : type ≠ .logic) (size : ℕ) :
    (∀ b < size / c.granul, ∃ v, (MemoryObject.mk 0 size).getAddrVec c b type = .ok v) ↔
      size / c.granul * c.granul ≤ c.capacity := by
  have haddr : ∀ b : ℕ, (0 : ℤ) + b * c.granul = (b * c.granul : ℕ) := by simp
  unfold MemoryObject.getAddrVec MemoryConfig.getAddrVec
  simp only [if_neg htype, haddr]
  constructor
  · intro hvecs
    by_contra hpast
    have hgranul : c.granul ∣ c.capacity := by
      unfold MemoryConfig.capacity MemoryConfig.rowStripe MemoryConfig.radices
      rw [List.prod_cons, Nat.mul_assoc]
      exact Nat.dvd_mul_right _ _
    have hend : c.capacity / c.granul < size / c.granul := by
      rw [Nat.div_lt_iff_lt_mul hc.granul_pos]
      exact not_le.mp hpast
    obtain ⟨v, hv⟩ := hvecs _ hend
    rw [Nat.div_mul_cancel hgranul] at hv
    cases hvec : c.addrToVec c.capacity with
    | error e =>
      rw [hvec] at hv
      cases hv
    | ok w => exact addrToVec_capacity hc w hvec
  · intro hfits b hb
    have hlt : b * c.granul < c.capacity :=
      (Nat.mul_lt_mul_of_pos_right hb hc.granul_pos).trans_le hfits
    obtain ⟨v, hv⟩ := c.addrToVec_of_lt hc hlt
    rw [hv]
    exact ⟨_, rfl⟩

/-- A kernel whose commands are as many as `run_ideal` counts. -/
theorem bundleLoop_agrees_iff {c : MemoryConfig} (hc : c.Valid) (hn : 2 ≤ c.numChannel)
    {type : ProcessorType} (htype : type ≠ .logic) {size : ℕ}
    (command : RamulatorAddrVec → PIMCommand) (count : ℕ) :
    (∃ l, bundleLoop c ⟨0, size⟩ type (fun v => v.channel == 0) command [] = .ok l ∧
        l.length = frontBundles c size ∧ count = l.length) ↔
      count = frontBundles c size ∧ KernelRuns c size := by
  have hruns : (∃ l, bundleLoop c ⟨0, size⟩ type (fun v => v.channel == 0) command [] = .ok l)
      ↔ _ := bundleLoop_ok_iff _ command []
  rw [show (MemoryObject.mk 0 size).getBundleSize c = size / c.granul from rfl,
    bundles_within_iff hc htype size, and_comm] at hruns
  constructor
  · rintro ⟨l, hl, hlength, hcount⟩
    exact ⟨hcount.trans hlength, hruns.mp ⟨l, hl⟩⟩
  · rintro ⟨hcount, hkernel⟩
    obtain ⟨l, hl⟩ := hruns.mpr hkernel
    have hlength := bundleLoop_length hc hn htype hl
    exact ⟨l, hl, hlength, hcount.trans hlength.symm⟩

/-- The bundles of a cube do not fill all its pseudo-channels evenly; a tensor of size 0 is counted
like the last one. -/
def CountsFront (c : MemoryConfig) (size previous : ℕ) : Prop :=
  (size = 0 ∧ previous = 0) ∨ (size ≠ 0 ∧ bundlesPerCube c size % c.numChannel ≠ 0)

theorem readCount_eq_iff {c : MemoryConfig} (hc : c.Valid) (hn : 2 ≤ c.numChannel) (size : ℕ)
    (execStatus : ExecStatus) :
    (runIdeal c .kRead size execStatus).readCount = frontBundles c size ↔
      CountsFront c size execStatus.readCount := by
  unfold CountsFront
  by_cases hsize : size = 0
  · subst hsize
    simp [runIdeal, frontBundles]
  · rw [(runIdeal_counts hc hsize execStatus).1, idealCount_eq hc hn]
    simp [hsize]

theorem writeCount_eq_iff {c : MemoryConfig} (hc : c.Valid) (hn : 2 ≤ c.numChannel) (size : ℕ)
    (execStatus : ExecStatus) :
    (runIdeal c .kWrite size execStatus).writeCount = frontBundles c size ↔
      CountsFront c size execStatus.writeCount := by
  unfold CountsFront
  by_cases hsize : size = 0
  · subst hsize
    simp [runIdeal, frontBundles]
  · rw [(runIdeal_counts hc hsize execStatus).2, idealCount_eq hc hn]
    simp [hsize]

end LlmSystem
