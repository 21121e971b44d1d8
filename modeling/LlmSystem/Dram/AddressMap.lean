import LlmSystem.Lib.Radix

/-!
`MMapController`: which cube, channel, bank, row and column an address belongs to. Addresses
are signed and division truncates, as in C++; the dimensions are positive `int`s.
-/
namespace LlmSystem

structure MemoryConfig where
  numCube : ℕ := 5
  numLogicCube : ℕ := 5
  numChannel : ℕ := 32
  numRank : ℕ := 2
  numBankgroup : ℕ := 4
  numBank : ℕ := 4
  numRow : ℕ := 16384
  numCol : ℕ := 32
  granul : ℕ := 32
  deriving DecidableEq, Repr

def hbm3_80GB : MemoryConfig := {}

/-- Positive dimensions that fit an `int`, as far as the mapping divides by them. -/
structure MemoryConfig.Valid (c : MemoryConfig) : Prop where
  numCube_pos : 0 < c.numCube
  numLogicCube_pos : 0 < c.numLogicCube
  numChannel_pos : 0 < c.numChannel
  numRank_pos : 0 < c.numRank
  numBankgroup_pos : 0 < c.numBankgroup
  numBank_pos : 0 < c.numBank
  numRow_pos : 0 < c.numRow
  numRow_lt : c.numRow < 2 ^ 31
  numCol_pos : 0 < c.numCol
  granul_pos : 0 < c.granul

theorem hbm3_80GB_valid : hbm3_80GB.Valid := by
  constructor <;> decide

/-- A `long long` stored in an `int`. -/
def toInt (x : ℤ) : ℤ := x.bmod (2 ^ 32)

theorem toInt_natCast {n : ℕ} (hn : n < 2 ^ 31) : toInt n = n := by
  unfold toInt
  rw [Int.bmod_def]
  split_ifs <;> omega

theorem toInt_toInt (x : ℤ) : toInt (toInt x) = toInt x := by
  unfold toInt
  exact Int.bmod_bmod

theorem toInt_toInt_add (x k : ℤ) : toInt (toInt x + k) = toInt (x + k) := by
  unfold toInt
  exact Int.bmod_add_bmod

/-- A sum or product of `long long`s that wraps around. -/
def toLong (x : ℤ) : ℤ := x.bmod (2 ^ 64)

theorem toLong_natCast {n : ℕ} (hn : n < 2 ^ 63) : toLong n = n := by
  unfold toLong
  rw [Int.bmod_def]
  split_ifs <;> omega

structure AddrVec where
  cube : ℤ
  channel : ℤ
  rank : ℤ
  bankgroup : ℤ
  bank : ℤ
  row : ℤ
  col : ℤ
  deriving DecidableEq, Repr

/-- `Ramulator::AddrVec_t`, with a name for each of its seven levels. -/
structure RamulatorAddrVec where
  channel : ℤ
  pseudochannel : ℤ
  rank : ℤ
  bankgroup : ℤ
  bank : ℤ
  row : ℤ
  col : ℤ
  deriving DecidableEq, Repr

namespace MemoryConfig
variable (c : MemoryConfig)

def addrToVec (address : ℤ) : Except String AddrVec :=
  if 0 ≤ address then
    let address := address.tdiv c.granul
    let cubeIdx := address.tmod c.numCube
    let address := address.tdiv c.numCube
    let channelIdx := address.tmod c.numChannel
    let address := address.tdiv c.numChannel
    let rankIdx := address.tmod c.numRank
    let address := address.tdiv c.numRank
    let bgIdx := address.tmod c.numBankgroup
    let address := address.tdiv c.numBankgroup
    let bankIdx := address.tmod c.numBank
    let address := address.tdiv c.numBank
    let colIdx := address.tmod c.numCol
    let address := address.tdiv c.numCol
    let rowIdx := toInt address
    if rowIdx < c.numRow then .ok ⟨cubeIdx, channelIdx, rankIdx, bgIdx, bankIdx, rowIdx, colIdx⟩
    else .error "Unvalid memory hasing"
  else .error "Address is not valid"

/-- The row comes before the rank and half of the bank number; no sign check. -/
def addrToVecLOGIC (address : ℤ) : Except String AddrVec :=
  let address := address.tdiv c.granul
  let cubeIdx := address.tmod c.numLogicCube
  let address := address.tdiv c.numLogicCube
  let channelIdx := address.tmod c.numChannel
  let address := address.tdiv c.numChannel
  let bgIdx := address.tmod c.numBankgroup
  let address := address.tdiv c.numBankgroup
  let bankUnderIdx := address.tmod 2
  let address := address.tdiv 2
  let colIdx := address.tmod c.numCol
  let address := address.tdiv c.numCol
  let rowIdx := address.tmod c.numRow
  let address := address.tdiv c.numRow
  let bankUpperIdx := address.tmod 2
  let address := address.tdiv 2
  let rankIdx := address.tmod c.numRank
  let bankIdx := bankUpperIdx * 2 + bankUnderIdx
  if rankIdx < c.numRank then .ok ⟨cubeIdx, channelIdx, rankIdx, bgIdx, bankIdx, rowIdx, colIdx⟩
  else .error "Unvalid memory hasing"

/-- The encoder; its cubes are those of the other mapping. -/
def vecToAddrLOGIC (v : AddrVec) : ℤ :=
  let bankUpperIdx := v.bank.tdiv 2
  let bankUnderIdx := v.bank.tmod 2
  let address := v.rank
  let address := address * 2 + bankUpperIdx
  let address := address * c.numRow + v.row
  let address := address * c.numCol + v.col
  let address := address * 2 + bankUnderIdx
  let address := address * c.numBankgroup + v.bankgroup
  let address := address * c.numChannel + v.channel
  let address := address * c.numCube + v.cube
  toLong (address * c.granul)

/-- Two pseudo-channels make a ramulator channel. -/
def toRamulator (v : AddrVec) : RamulatorAddrVec :=
  let channel := c.numChannel * v.cube + v.channel
  ⟨channel.tdiv 2, channel.tmod 2, v.rank, v.bankgroup, v.bank, v.row, v.col⟩

def getAddrVec (address : ℤ) (bundleIdx : ℕ) : Except String RamulatorAddrVec :=
  (c.addrToVec (address + bundleIdx * c.granul)).map c.toRamulator

def getAddrVecLOGIC (address : ℤ) (bundleIdx : ℕ) : Except String RamulatorAddrVec :=
  (c.addrToVecLOGIC (address + bundleIdx * c.granul)).map c.toRamulator

/-! ### In digits -/

/-- The radices of `addrToVec` below the row. -/
def radices : List ℕ :=
  [c.granul, c.numCube, c.numChannel, c.numRank, c.numBankgroup, c.numBank, c.numCol]

/-- The radices of `addrToVecLOGIC` below the row. -/
def radicesLOGIC : List ℕ :=
  [c.granul, c.numLogicCube, c.numChannel, c.numBankgroup, 2, c.numCol]

variable {c} in
theorem radices_pos (hc : c.Valid) : ∀ m ∈ c.radices, 0 < m := by
  simp [radices, hc.granul_pos, hc.numCube_pos, hc.numChannel_pos, hc.numRank_pos,
    hc.numBankgroup_pos, hc.numBank_pos, hc.numCol_pos]

variable {c} in
theorem radicesLOGIC_pos (hc : c.Valid) : ∀ m ∈ c.radicesLOGIC, 0 < m := by
  simp [radicesLOGIC, hc.granul_pos, hc.numLogicCube_pos, hc.numChannel_pos, hc.numBankgroup_pos,
    hc.numCol_pos]

/-- Bytes in one row of all banks. -/
def rowStripe : ℕ := c.radices.prod

/-- Bytes that `addrToVec` has a row for. -/
def capacity : ℕ := c.rowStripe * c.numRow

def rowStripeLOGIC : ℕ := c.radicesLOGIC.prod

/-- The vector of the digits below the row. -/
def ofDigits (digits : List ℕ) (row : ℤ) : AddrVec where
  cube := digits.getD 1 0
  channel := digits.getD 2 0
  rank := digits.getD 3 0
  bankgroup := digits.getD 4 0
  bank := digits.getD 5 0
  row := row
  col := digits.getD 6 0

def ofDigitsLOGIC (digits : List ℕ) (rank upper : ℕ) (row : ℤ) : AddrVec where
  cube := digits.getD 1 0
  channel := digits.getD 2 0
  rank := rank
  bankgroup := digits.getD 3 0
  bank := upper * 2 + digits.getD 4 0
  row := row
  col := digits.getD 5 0

theorem addrToVec_natCast (n : ℕ) : c.addrToVec n =
    if toInt (Radix.split c.radices n).2 < c.numRow then
      .ok (ofDigits (Radix.split c.radices n).1 (toInt (Radix.split c.radices n).2))
    else .error "Unvalid memory hasing" := by
  unfold addrToVec radices ofDigits
  rw [if_pos (Int.natCast_nonneg n)]
  simp only [Radix.split_cons, Radix.split_nil, ← Int.ofNat_tdiv, ← Int.ofNat_tmod]
  rfl

theorem addrToVec_of_lt (hc : c.Valid) {n : ℕ} (hn : n < c.capacity) :
    ∃ v, c.addrToVec n = .ok v := by
  have hrow : (Radix.split c.radices n).2 < c.numRow := by
    rw [Radix.split_snd]
    exact Nat.div_lt_of_lt_mul hn
  rw [addrToVec_natCast, toInt_natCast (hrow.trans hc.numRow_lt), if_pos (Int.ofNat_lt.mpr hrow)]
  exact ⟨_, rfl⟩

theorem addrToVecLOGIC_natCast (hrank : 0 < c.numRank) (n : ℕ) : c.addrToVecLOGIC n =
    .ok (ofDigitsLOGIC (Radix.split c.radicesLOGIC n).1
      ((Radix.split c.radicesLOGIC n).2 / c.numRow / 2 % c.numRank)
      ((Radix.split c.radicesLOGIC n).2 / c.numRow % 2)
      ((Radix.split c.radicesLOGIC n).2 % c.numRow : ℕ)) := by
  unfold addrToVecLOGIC radicesLOGIC ofDigitsLOGIC
  have htwo : (2 : ℤ) = (2 : ℕ) := rfl
  simp only [Radix.split_cons, Radix.split_nil]
  rw [htwo]
  simp only [← Int.ofNat_tdiv, ← Int.ofNat_tmod]
  rw [if_pos (Int.ofNat_lt.mpr (Nat.mod_lt _ hrank))]
  rfl

end MemoryConfig
end LlmSystem
