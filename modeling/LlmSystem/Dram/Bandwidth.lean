import LlmSystem.Dram.Ideal
import Mathlib.Tactic.Ring

/-!
The commands of `GEMV` for the PIM units: under each bandwidth the kernel keeps every bundle whose
number is divisible by a fixed count, and a tensor of whole stripes has the same share of them
wherever it starts.
-/
namespace LlmSystem

/-- Granules from one bank to the next. -/
def MemoryConfig.bankStride (c : MemoryConfig) : ℕ :=
  c.numCube * c.numChannel * c.numRank * c.numBankgroup

theorem MemoryConfig.Valid.bankStride_pos {c : MemoryConfig} (hc : c.Valid) : 0 < c.bankStride :=
  Nat.mul_pos (Nat.mul_pos (Nat.mul_pos hc.numCube_pos hc.numChannel_pos) hc.numRank_pos)
    hc.numBankgroup_pos

/-- All units but the bank are the first ones exactly at the granules that start a bank. -/
theorem bankStride_digits (c : MemoryConfig) (g : ℕ) :
    g % c.bankStride = 0 ↔ g % c.numCube = 0 ∧ g / c.numCube % c.numChannel = 0 ∧
      g / c.numCube / c.numChannel % c.numRank = 0 ∧
      g / c.numCube / c.numChannel / c.numRank % c.numBankgroup = 0 := by
  unfold MemoryConfig.bankStride
  rw [Radix.mod_mul_eq_zero_iff, Radix.mod_mul_eq_zero_iff, Radix.mod_mul_eq_zero_iff,
    Nat.div_div_eq_div_mul, Nat.div_div_eq_div_mul, and_assoc, and_assoc]

namespace GEMV

/-- The test of `channel`, `pseudochannel`, `rank` and `bankgroup` that all bandwidths share. -/
def inFirstBankgroup (v : RamulatorAddrVec) : Bool :=
  v.channel == 0 && v.pseudochannel == 0 && v.rank == 0 && v.bankgroup == 0

theorem toRamulator_first {c : MemoryConfig} (hc : c.Valid) {v : AddrVec} {cube channel : ℕ}
    (hcube : v.cube = cube) (hchannel : v.channel = channel) :
    (c.toRamulator v).channel = 0 ∧ (c.toRamulator v).pseudochannel = 0 ↔
      cube = 0 ∧ channel = 0 := by
  have hnat : (c.toRamulator v).channel = ((c.numChannel * cube + channel) / 2 : ℕ) ∧
      (c.toRamulator v).pseudochannel = ((c.numChannel * cube + channel) % 2 : ℕ) := by
    unfold MemoryConfig.toRamulator
    simp only [hcube, hchannel]
    exact ⟨rfl, rfl⟩
  rw [hnat.1, hnat.2, Int.natCast_eq_zero, Int.natCast_eq_zero]
  have hmul : c.numChannel * cube = 0 ↔ cube = 0 :=
    Nat.mul_eq_zero.trans (or_iff_right hc.numChannel_pos.ne')
  rw [← hmul]
  omega

/-- What the tests of the PIM branches see of a bundle. -/
theorem getAddrVec_bank {c : MemoryConfig} (hc : c.Valid) {a b : ℕ} {v : RamulatorAddrVec}
    (hv : c.getAddrVec a b = .ok v) :
    inFirstBankgroup v = decide ((a / c.granul + b) % c.bankStride = 0) ∧
      v.bank = ((a / c.granul + b) / c.bankStride % c.numBank : ℕ) := by
  have haddr : (a : ℤ) + b * c.granul = (a + b * c.granul : ℕ) := by push_cast; rfl
  have hgranule : (a + b * c.granul) / c.granul = a / c.granul + b :=
    Nat.add_mul_div_right _ _ hc.granul_pos
  unfold MemoryConfig.getAddrVec at hv
  rw [haddr, c.addrToVec_natCast] at hv
  split_ifs at hv with hrow
  · obtain rfl := Except.ok.inj hv
    set g := a / c.granul + b
    set digits := (Radix.split c.radices (a + b * c.granul)).1 with hdigits
    set u := MemoryConfig.ofDigits digits (toInt (Radix.split c.radices (a + b * c.granul)).2)
    have hcube : u.cube = (g % c.numCube : ℕ) := by
      simp [u, hdigits, MemoryConfig.ofDigits, MemoryConfig.radices, hgranule]
    have hchannel : u.channel = (g / c.numCube % c.numChannel : ℕ) := by
      simp [u, hdigits, MemoryConfig.ofDigits, MemoryConfig.radices, hgranule]
    have hrank : u.rank = (g / c.numCube / c.numChannel % c.numRank : ℕ) := by
      simp [u, hdigits, MemoryConfig.ofDigits, MemoryConfig.radices, hgranule]
    have hbankgroup :
        u.bankgroup = (g / c.numCube / c.numChannel / c.numRank % c.numBankgroup : ℕ) := by
      simp [u, hdigits, MemoryConfig.ofDigits, MemoryConfig.radices, hgranule]
    have hbank : u.bank = (g / c.bankStride % c.numBank : ℕ) := by
      simp [u, hdigits, MemoryConfig.ofDigits, MemoryConfig.radices, hgranule,
        MemoryConfig.bankStride, Nat.div_div_eq_div_mul]
    refine ⟨?_, hbank⟩
    have hrank' : (c.toRamulator u).rank = u.rank := rfl
    have hbankgroup' : (c.toRamulator u).bankgroup = u.bankgroup := rfl
    unfold inFirstBankgroup
    rw [Bool.eq_iff_iff, decide_eq_true_eq, bankStride_digits, Bool.and_eq_true,
      Bool.and_eq_true, Bool.and_eq_true, beq_iff_eq, beq_iff_eq, beq_iff_eq, beq_iff_eq,
      toRamulator_first hc hcube hchannel, hrank', hrank, hbankgroup', hbankgroup,
      Int.natCast_eq_zero, Int.natCast_eq_zero, and_assoc, and_assoc]
  · cases hv

/-- The granules between two commands under a bandwidth. -/
def stride (c : MemoryConfig) (bandwidthX : ℕ) : ℕ := c.bankStride * (bandwidthX / 4)

/-- Four banks, every second bank or one bank of each bank group is left. -/
theorem keeps_pim {c : MemoryConfig} (hc : c.Valid) (hbank : c.numBank = 4) {bandwidthX : ℕ}
    (hx : bandwidthX ∈ [4, 8, 16]) :
    ∃ keep, keeps ⟨.pim, bandwidthX⟩ = .ok (some keep) ∧
      ∀ (a b : ℕ) (v : RamulatorAddrVec), c.getAddrVec a b = .ok v →
        keep v = decide ((a / c.granul + b) % stride c bandwidthX = 0) := by
  obtain rfl | rfl | rfl : bandwidthX = 4 ∨ bandwidthX = 8 ∨ bandwidthX = 16 := by simpa using hx
  · refine ⟨inFirstBankgroup, rfl, fun a b v hv => ?_⟩
    rw [(getAddrVec_bank hc hv).1]
    unfold stride
    rw [show 4 / 4 = 1 from rfl, Nat.mul_one]
  · refine ⟨fun v => inFirstBankgroup v && v.bank.tmod 2 == 0, rfl, fun a b v hv => ?_⟩
    obtain ⟨hfirst, hv⟩ := getAddrVec_bank hc hv
    have heven : v.bank.tmod 2 = ((a / c.granul + b) / c.bankStride % 2 : ℕ) := by
      rw [hv, hbank, show (2 : ℤ) = (2 : ℕ) from rfl, ← Int.ofNat_tmod]
      rw [Nat.mod_mod_of_dvd _ (by decide)]
    unfold stride
    rw [Bool.eq_iff_iff, decide_eq_true_eq, Bool.and_eq_true, hfirst, decide_eq_true_eq, heven,
      beq_iff_eq, Int.natCast_eq_zero, show 8 / 4 = 2 from rfl, Radix.mod_mul_eq_zero_iff]
  · refine ⟨fun v => inFirstBankgroup v && v.bank == 0, rfl, fun a b v hv => ?_⟩
    obtain ⟨hfirst, hv⟩ := getAddrVec_bank hc hv
    unfold stride
    rw [Bool.eq_iff_iff, decide_eq_true_eq, Bool.and_eq_true, hfirst, decide_eq_true_eq, hv,
      beq_iff_eq, Int.natCast_eq_zero, hbank, show 16 / 4 = 4 from rfl,
      Radix.mod_mul_eq_zero_iff]

/-- Bytes of a stripe: one granule in each bank of the memory. -/
def stripe (c : MemoryConfig) : ℕ :=
  c.granul * c.numCube * c.numChannel * c.numRank * c.numBankgroup * c.numBank

theorem stripe_eq (c : MemoryConfig) : stripe c = c.bankStride * c.numBank * c.granul := by
  unfold stripe MemoryConfig.bankStride
  ring

def macCount (l : List PIMCommand) : ℕ := l.countP fun p => p.pimcmdType == .kMAC

/-- The bundles of whole stripes that a bandwidth keeps. -/
theorem bundleLoop_macs {c : MemoryConfig} (hc : c.Valid) (hbank : c.numBank = 4)
    {bandwidthX : ℕ} (hx : bandwidthX ∈ [4, 8, 16]) {keep : RamulatorAddrVec → Bool} {a k : ℕ}
    (hkeep : ∀ (b : ℕ) (v : RamulatorAddrVec), c.getAddrVec a b = .ok v →
      keep v = decide ((a / c.granul + b) % stride c bandwidthX = 0))
    {dramreqType : DRAMRequestType} {l : List PIMCommand}
    (h : bundleLoop c ⟨a, stripe c * k⟩ .pim keep (fun v => ⟨.kMAC, .kSrc, v, dramreqType⟩) []
      = .ok l) :
    macCount l * bandwidthX = 16 * k := by
  obtain ⟨vs, hvs, rfl⟩ := bundleLoop_ok h
  have hall : macCount ([] ++ (vs.filter keep).map fun v => ⟨.kMAC, .kSrc, v, dramreqType⟩)
      = (vs.filter keep).length := by
    unfold macCount
    rw [List.nil_append, List.countP_map, List.countP_eq_length]
    exact fun _ _ => rfl
  have hpair (b : ℕ) (v : RamulatorAddrVec)
      (hv : (MemoryObject.mk a (stripe c * k)).getAddrVec c b .pim = .ok v) :
      decide ((a / c.granul + b) % stride c bandwidthX = 0) = keep v := (hkeep b v hv).symm
  have hbundles : (MemoryObject.mk a (stripe c * k)).getBundleSize c = c.bankStride * 4 * k := by
    unfold MemoryObject.getBundleSize
    rw [stripe_eq, hbank, Nat.mul_right_comm, Nat.mul_div_cancel _ hc.granul_pos]
  have hpos : 0 < stride c bandwidthX := Nat.mul_pos hc.bankStride_pos (by
    obtain rfl | rfl | rfl : bandwidthX = 4 ∨ bandwidthX = 8 ∨ bandwidthX = 16 := by simpa using hx
    all_goals decide)
  -- The window holds `16 / bandwidthX` strides of each stripe.
  have hstrides : c.bankStride * 4 * k = stride c bandwidthX * (16 / bandwidthX * k) := by
    unfold stride
    obtain rfl | rfl | rfl : bandwidthX = 4 ∨ bandwidthX = 8 ∨ bandwidthX = 16 := by simpa using hx
    all_goals ring
  have hcount := Radix.count_window hpos (a / c.granul) (16 / bandwidthX * k)
  rw [← hstrides, ← hbundles] at hcount
  rw [hall, length_filter_of_forall₂ hpair hvs]
  unfold Nat.count at hcount
  rw [hcount]
  obtain rfl | rfl | rfl : bandwidthX = 4 ∨ bandwidthX = 8 ∨ bandwidthX = 16 := by simpa using hx
  · omega
  · omega
  · omega

/-- Every bundle of a tensor within the memory has an address vector. -/
theorem bundleLoop_within {c : MemoryConfig} (hc : c.Valid) {a size : ℕ}
    (hfits : a + size ≤ c.capacity) (keep : RamulatorAddrVec → Bool)
    (command : RamulatorAddrVec → PIMCommand) (hcounted : size / c.granul < 2 ^ 31) :
    ∃ l, bundleLoop c ⟨a, size⟩ .pim keep command [] = .ok l := by
  refine (bundleLoop_ok_iff keep command []).mpr ⟨hcounted, fun b hb => ?_⟩
  have hlt : a + b * c.granul < c.capacity := by
    have hnext : (b + 1) * c.granul ≤ size := (Nat.le_div_iff_mul_le hc.granul_pos).mp hb
    have hpos := hc.granul_pos
    rw [Nat.succ_mul] at hnext
    omega
  obtain ⟨v, hv⟩ := c.addrToVec_of_lt hc hlt
  have haddr : (a : ℤ) + b * c.granul = (a + b * c.granul : ℕ) := by push_cast; rfl
  refine ⟨c.toRamulator v, ?_⟩
  unfold MemoryObject.getAddrVec MemoryConfig.getAddrVec
  rw [if_neg (by decide), haddr, hv]
  rfl

/-- The kernel is the loop over the bundles that the bandwidth keeps. -/
theorem kernel_eq {c : MemoryConfig} {opnd : MemoryObject} {pimHWConfig : PIMHWConfig}
    {keep : RamulatorAddrVec → Bool} (hkeeps : keeps pimHWConfig = .ok (some keep))
    (dramreqType : DRAMRequestType) :
    kernel c [(.kSrc, opnd)] pimHWConfig dramreqType []
      = bundleLoop c opnd pimHWConfig.type keep (fun v => ⟨.kMAC, .kSrc, v, dramreqType⟩) [] := by
  have hoperand : getOperand [(.kSrc, opnd)] .kSrc = .ok [opnd] := rfl
  unfold kernel
  rw [hoperand]
  dsimp only [bind, Except.bind]
  rw [hkeeps]

theorem kernel_macs {c : MemoryConfig} (hc : c.Valid) (hbank : c.numBank = 4) {address : ℤ}
    {size : ℕ} (haddress : 0 ≤ address) (hsize : stripe c ∣ size)
    (hfits : address + size ≤ c.capacity) (hcounted : size / c.granul < 2 ^ 31)
    (dramreqType : DRAMRequestType) :
    ∀ bandwidthX ∈ [4, 8, 16],
      ∃ l, kernel c [(.kSrc, ⟨address, size⟩)] ⟨.pim, (bandwidthX : ℕ)⟩ dramreqType [] = .ok l ∧
        macCount l * bandwidthX = 16 * (size / stripe c) := by
  intro bandwidthX hx
  obtain ⟨a, rfl⟩ := Int.eq_ofNat_of_zero_le haddress
  obtain ⟨k, rfl⟩ := hsize
  have hpos : 0 < stripe c := by
    rw [stripe_eq]
    exact Nat.mul_pos (Nat.mul_pos hc.bankStride_pos hc.numBank_pos) hc.granul_pos
  obtain ⟨keep, hkeeps, hkeep⟩ := keeps_pim hc hbank hx
  have hfits' : a + stripe c * k ≤ c.capacity := by exact_mod_cast hfits
  obtain ⟨l, hl⟩ :=
    bundleLoop_within hc hfits' keep (fun v => ⟨.kMAC, .kSrc, v, dramreqType⟩) hcounted
  refine ⟨l, ?_, ?_⟩
  · rw [kernel_eq hkeeps]
    exact hl
  · rw [Nat.mul_div_cancel_left _ hpos]
    exact bundleLoop_macs hc hbank hx (hkeep a) hl

/-- A kernel with a result has counted its bundles. -/
theorem kernel_counted {c : MemoryConfig} (hc : c.Valid) (hbank : c.numBank = 4)
    {opnd : MemoryObject} {dramreqType : DRAMRequestType} {l : List PIMCommand}
    (h : kernel c [(.kSrc, opnd)] ⟨.pim, (4 : ℕ)⟩ dramreqType [] = .ok l) :
    opnd.size / c.granul < 2 ^ 31 := by
  obtain ⟨keep, hkeeps, -⟩ := keeps_pim hc hbank (show 4 ∈ [4, 8, 16] by decide)
  rw [kernel_eq hkeeps] at h
  exact bundleLoop_counted h

/-- For a tensor of whole stripes at any address within the memory, the `kMAC` commands times the
bandwidth are the same under each bandwidth, sixteen for each stripe, exactly if an `int` counts its
bundles. -/
theorem macs_scale_iff {c : MemoryConfig} (hc : c.Valid) (hbank : c.numBank = 4) {address : ℤ}
    {size : ℕ} (haddress : 0 ≤ address) (hsize : stripe c ∣ size)
    (hfits : address + size ≤ c.capacity) (dramreqType : DRAMRequestType) :
    ((∃ scaled, ∀ bandwidthX ∈ [4, 8, 16],
        ∃ l, kernel c [(.kSrc, ⟨address, size⟩)] ⟨.pim, (bandwidthX : ℕ)⟩ dramreqType [] = .ok l ∧
          macCount l * bandwidthX = scaled) ↔ size / c.granul < 2 ^ 31) ∧
    (size / c.granul < 2 ^ 31 → ∀ bandwidthX ∈ [4, 8, 16],
      ∃ l, kernel c [(.kSrc, ⟨address, size⟩)] ⟨.pim, (bandwidthX : ℕ)⟩ dramreqType [] = .ok l ∧
        macCount l * bandwidthX = 16 * (size / stripe c)) := by
  have hmacs := fun hcounted => kernel_macs hc hbank haddress hsize hfits hcounted dramreqType
  refine ⟨⟨?_, fun hcounted => ⟨_, hmacs hcounted⟩⟩, hmacs⟩
  rintro ⟨scaled, hscaled⟩
  obtain ⟨l, hl, -⟩ := hscaled 4 (by decide)
  exact kernel_counted hc hbank hl

/-- Two stripes from the middle of a granule on. -/
theorem macs_scale_two_stripes :
    ∃ l, kernel hbm3_80GB [(.kSrc, ⟨1000, 2 * stripe hbm3_80GB⟩)] ⟨.pim, 8⟩ .kGEMV [] = .ok l ∧
      macCount l * 8 = 16 * (2 * stripe hbm3_80GB / stripe hbm3_80GB) :=
  (macs_scale_iff hbm3_80GB_valid rfl (by decide) ⟨2, Nat.mul_comm _ _⟩ (by decide +kernel)
    .kGEMV).2 (by decide +kernel) 8 (by decide)

/-- A tensor of all 2684354560 bundles of the memory, of whole stripes. -/
theorem macs_scale_overflows :
    stripe hbm3_80GB ∣ 85899345920 ∧ (0 : ℤ) + (85899345920 : ℕ) ≤ hbm3_80GB.capacity ∧
      ¬ ∃ scaled, ∀ bandwidthX ∈ [4, 8, 16],
        ∃ l, kernel hbm3_80GB [(.kSrc, ⟨0, 85899345920⟩)] ⟨.pim, (bandwidthX : ℕ)⟩ .kGEMV []
            = .ok l ∧ macCount l * bandwidthX = scaled := by
  refine ⟨by decide +kernel, by decide +kernel, ?_⟩
  rintro ⟨scaled, hscaled⟩
  obtain ⟨l, hl, -⟩ := hscaled 4 (by decide)
  exact absurd (kernel_counted hbm3_80GB_valid rfl hl) (by decide)

end GEMV
end LlmSystem
