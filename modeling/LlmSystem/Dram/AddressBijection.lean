import LlmSystem.Dram.AddressMap
import Mathlib.Tactic.Ring

/-!
Which addresses share a vector. Both mappings drop the offset in a granule and write the number
of the granule in mixed radix; what they do beyond the capacity is decided by the digit that they
do not reduce, or reduce once too often.
-/
namespace LlmSystem

/-- Every field is within its dimension, for the given number of cubes. -/
structure AddrVec.InRange (v : AddrVec) (c : MemoryConfig) (numCube : ℕ) : Prop where
  cube : 0 ≤ v.cube ∧ v.cube < numCube
  channel : 0 ≤ v.channel ∧ v.channel < c.numChannel
  rank : 0 ≤ v.rank ∧ v.rank < c.numRank
  bankgroup : 0 ≤ v.bankgroup ∧ v.bankgroup < c.numBankgroup
  bank : 0 ≤ v.bank ∧ v.bank < c.numBank
  row : 0 ≤ v.row ∧ v.row < c.numRow
  col : 0 ≤ v.col ∧ v.col < c.numCol

/-- Every field with the other sign. -/
def AddrVec.neg (v : AddrVec) : AddrVec :=
  ⟨-v.cube, -v.channel, -v.rank, -v.bankgroup, -v.bank, -v.row, -v.col⟩

theorem AddrVec.neg_inj {v w : AddrVec} : v.neg = w.neg ↔ v = w := by
  cases v
  cases w
  simp only [neg, mk.injEq, Int.neg_inj]

namespace MemoryConfig
variable {c : MemoryConfig}

/-! ### `addrToVec` -/

/-- The digits above the granule and below the row. -/
def digits (v : AddrVec) : List ℕ :=
  [v.cube.toNat, v.channel.toNat, v.rank.toNat, v.bankgroup.toNat, v.bank.toNat, v.col.toNat]

theorem ofDigits_inRange {ds : List ℕ} (h : List.Forall₂ (· < ·) ds c.radices) {row : ℕ}
    (hrow : row < c.numRow) : (ofDigits ds row).InRange c c.numCube := by
  simp only [radices, List.forall₂_cons_right_iff, List.forall₂_nil_right_iff] at h
  obtain ⟨_, _, _, ⟨_, _, _, ⟨_, _, _, ⟨_, _, _, ⟨_, _, _, ⟨_, _, _, ⟨_, _, _, rfl, rfl⟩, rfl⟩,
    rfl⟩, rfl⟩, rfl⟩, rfl⟩, rfl⟩ := h
  constructor <;> simp [ofDigits] <;> omega

theorem digits_ofDigits {ds : List ℕ} (h : List.Forall₂ (· < ·) ds c.radices) (row : ℤ) :
    digits (ofDigits ds row) = ds.tail := by
  simp only [radices, List.forall₂_cons_right_iff, List.forall₂_nil_right_iff] at h
  obtain ⟨_, _, _, ⟨_, _, _, ⟨_, _, _, ⟨_, _, _, ⟨_, _, _, ⟨_, _, _, ⟨_, _, _, rfl, rfl⟩, rfl⟩,
    rfl⟩, rfl⟩, rfl⟩, rfl⟩, rfl⟩ := h
  simp [digits, ofDigits]

theorem ofDigits_digits {v : AddrVec} (hv : v.InRange c c.numCube) (d : ℕ) :
    ofDigits (d :: digits v) v.row = v := by
  obtain ⟨hcube, hchannel, hrank, hbankgroup, hbank, -, hcol⟩ := hv
  simp [ofDigits, digits, hcube.1, hchannel.1, hrank.1, hbankgroup.1, hbank.1, hcol.1]

theorem digits_lt {v : AddrVec} (hv : v.InRange c c.numCube) :
    List.Forall₂ (· < ·) (digits v) c.radices.tail := by
  obtain ⟨hcube, hchannel, hrank, hbankgroup, hbank, -, hcol⟩ := hv
  simp only [digits, radices, List.tail_cons, List.forall₂_cons, List.Forall₂.nil, and_true]
  omega

/-- Below the capacity, the row is the quotient that is left above all digits. -/
theorem addrToVec_lt (hc : c.Valid) {n : ℕ} (hn : n < c.capacity) :
    c.addrToVec n =
      .ok (ofDigits (Radix.split c.radices n).1 ((Radix.split c.radices n).2 : ℕ)) := by
  have hrow : (Radix.split c.radices n).2 < c.numRow := by
    rw [Radix.split_snd]
    exact Nat.div_lt_of_lt_mul hn
  rw [addrToVec_natCast, toInt_natCast (hrow.trans hc.numRow_lt), if_pos (Int.ofNat_lt.mpr hrow)]

/-- The digits above the first are those of the number of the granule. -/
theorem split_radices (n : ℕ) : Radix.split c.radices n =
    (n % c.granul :: (Radix.split c.radices.tail (n / c.granul)).1,
      (Radix.split c.radices.tail (n / c.granul)).2) := rfl

theorem addrToVec_inRange (hc : c.Valid) {n : ℕ} (hn : n < c.capacity) :
    ∃ v, c.addrToVec n = .ok v ∧ v.InRange c c.numCube := by
  refine ⟨_, addrToVec_lt hc hn, ofDigits_inRange (Radix.split_digits_lt (radices_pos hc) n) ?_⟩
  rw [Radix.split_snd]
  exact Nat.div_lt_of_lt_mul hn

theorem addrToVec_onto (hc : c.Valid) {v : AddrVec} (hv : v.InRange c c.numCube) :
    ∃ n < c.capacity, c.addrToVec n = .ok v := by
  have hdigits : List.Forall₂ (· < ·) (0 :: digits v) c.radices :=
    .cons hc.granul_pos (digits_lt hv)
  have hsplit := Radix.split_join hdigits v.row.toNat
  have hlt : Radix.join c.radices (0 :: digits v) v.row.toNat < c.capacity := by
    have hrow : Radix.join c.radices (0 :: digits v) v.row.toNat / c.radices.prod < c.numRow := by
      have := hv.row
      rw [← Radix.split_snd, hsplit]
      omega
    unfold capacity rowStripe
    rw [Nat.mul_comm]
    exact (Nat.div_lt_iff_lt_mul (List.prod_pos (radices_pos hc))).mp hrow
  refine ⟨_, hlt, ?_⟩
  rw [addrToVec_lt hc hlt, hsplit, Int.toNat_of_nonneg hv.row.1, ofDigits_digits hv]

theorem addrToVec_eq_iff (hc : c.Valid) {m n : ℕ} (hm : m < c.capacity) (hn : n < c.capacity) :
    c.addrToVec m = c.addrToVec n ↔ m / c.granul = n / c.granul := by
  rw [addrToVec_lt hc hm, addrToVec_lt hc hn]
  constructor
  · intro h
    have hvec := Except.ok.inj h
    have hrow := congrArg AddrVec.row hvec
    have hdigits := congrArg digits hvec
    rw [digits_ofDigits (Radix.split_digits_lt (radices_pos hc) m),
      digits_ofDigits (Radix.split_digits_lt (radices_pos hc) n)] at hdigits
    exact Radix.split_injective _ (Prod.ext hdigits (Int.ofNat.inj hrow))
  · intro h
    rw [split_radices, split_radices, h]
    rfl

/-- The test looks at the row after it has been stored in an `int`. -/
theorem addrToVec_rejects_iff (n : ℕ) :
    (∃ e, c.addrToVec n = .error e) ↔ c.numRow ≤ toInt (n / c.rowStripe : ℕ) := by
  rw [addrToVec_natCast, Radix.split_snd]
  split_ifs with hrow
  · constructor
    · rintro ⟨_, h⟩
      cases h
    · intro h
      exact absurd hrow (not_lt.mpr h)
  · exact ⟨fun _ => not_lt.mp hrow, fun _ => ⟨_, rfl⟩⟩

/-- The first number that an `int` cannot hold becomes negative. -/
theorem toInt_first_wrap : toInt (2 ^ 31 : ℕ) = -2 ^ 31 := by decide

theorem addrToVec_rejects_all_iff (hc : c.Valid) :
    (∀ n : ℕ, c.capacity ≤ n → n < 2 ^ 63 → ∃ e, c.addrToVec n = .error e) ↔
      2 ^ 32 ≤ c.rowStripe := by
  have hpos : 0 < c.rowStripe := List.prod_pos (radices_pos hc)
  constructor
  · intro h
    by_contra hlt
    have hle : c.capacity ≤ 2 ^ 31 * c.rowStripe := by
      rw [Nat.mul_comm]
      exact Nat.mul_le_mul_left _ hc.numRow_lt.le
    have hrejects := h _ hle (by omega)
    rw [addrToVec_rejects_iff, Nat.mul_div_cancel _ hpos, toInt_first_wrap] at hrejects
    omega
  · intro hstripe n hle hlt
    have hrow : n / c.rowStripe < 2 ^ 31 := by
      rw [Nat.div_lt_iff_lt_mul hpos]
      omega
    rw [addrToVec_rejects_iff, toInt_natCast hrow, Int.ofNat_le, Nat.le_div_iff_mul_le hpos,
      Nat.mul_comm]
    exact hle

/-- The granules below the capacity and the vectors in range correspond to each other. -/
structure MapsGranules (c : MemoryConfig) : Prop where
  inRange : ∀ n < c.capacity, ∃ v, c.addrToVec n = .ok v ∧ v.InRange c c.numCube
  onto : ∀ v : AddrVec, v.InRange c c.numCube → ∃ n < c.capacity, c.addrToVec n = .ok v
  eq_iff : ∀ m < c.capacity, ∀ n < c.capacity,
    c.addrToVec m = c.addrToVec n ↔ m / c.granul = n / c.granul

/-- No `long long` past the end is taken for an address. -/
def RejectsPastEnd (c : MemoryConfig) : Prop :=
  ∀ n : ℕ, c.capacity ≤ n → n < 2 ^ 63 → ∃ e, c.addrToVec n = .error e

variable (c) in
/-- The radices from the channel up. -/
def outerRadicesLOGIC : List ℕ :=
  [c.numChannel, c.numBankgroup, 2, c.numCol, c.numRow, 2, c.numRank]

variable (c) in
/-- All radices for the given number of cubes; no digit is left above them. -/
def allRadicesLOGIC (numCube : ℕ) : List ℕ := c.granul :: numCube :: c.outerRadicesLOGIC

variable (c) in
def capacityLOGIC : ℕ := (c.allRadicesLOGIC c.numLogicCube).prod

variable (c) in
/-- Granules below the capacity. -/
def granulesLOGIC : ℕ := c.numLogicCube * c.outerRadicesLOGIC.prod

theorem capacityLOGIC_granules : c.capacityLOGIC = c.granul * c.granulesLOGIC := by
  simp [capacityLOGIC, allRadicesLOGIC, granulesLOGIC]

theorem outerRadicesLOGIC_pos (hc : c.Valid) : ∀ m ∈ c.outerRadicesLOGIC, 0 < m := by
  simp [outerRadicesLOGIC, hc.numChannel_pos, hc.numBankgroup_pos, hc.numCol_pos, hc.numRow_pos,
    hc.numRank_pos]

theorem allRadicesLOGIC_pos (hc : c.Valid) : ∀ m ∈ c.allRadicesLOGIC c.numLogicCube, 0 < m := by
  simp only [allRadicesLOGIC, List.forall_mem_cons]
  exact ⟨hc.granul_pos, hc.numLogicCube_pos, outerRadicesLOGIC_pos hc⟩

/-- The vector of all digits, the offset in the granule first. -/
def ofAllDigitsLOGIC (ds : List ℕ) : AddrVec where
  cube := ds.getD 1 0
  channel := ds.getD 2 0
  rank := ds.getD 8 0
  bankgroup := ds.getD 3 0
  bank := ds.getD 7 0 * 2 + ds.getD 4 0
  row := ds.getD 6 0
  col := ds.getD 5 0

def digitsLOGIC (v : AddrVec) : List ℕ :=
  [v.cube.toNat, v.channel.toNat, v.bankgroup.toNat, v.bank.toNat % 2, v.col.toNat, v.row.toNat,
    v.bank.toNat / 2, v.rank.toNat]

theorem addrToVecLOGIC_digits (hc : c.Valid) (n : ℕ) : c.addrToVecLOGIC n =
    .ok (ofAllDigitsLOGIC (Radix.split (c.allRadicesLOGIC c.numLogicCube) n).1) := by
  rw [addrToVecLOGIC_natCast c hc.numRank_pos]
  rfl

theorem digitsLOGIC_ofAllDigits {numCube : ℕ} {ds : List ℕ}
    (h : List.Forall₂ (· < ·) ds (c.allRadicesLOGIC numCube)) :
    digitsLOGIC (ofAllDigitsLOGIC ds) = ds.tail := by
  simp only [allRadicesLOGIC, outerRadicesLOGIC, List.forall₂_cons_right_iff,
    List.forall₂_nil_right_iff] at h
  obtain ⟨_, _, _, ⟨_, _, _, ⟨_, _, _, ⟨_, _, _, ⟨_, _, _, ⟨_, _, _, ⟨_, _, _, ⟨_, _, _, ⟨_, _, _,
    rfl, rfl⟩, rfl⟩, rfl⟩, rfl⟩, rfl⟩, rfl⟩, rfl⟩, rfl⟩, rfl⟩ := h
  simp [digitsLOGIC, ofAllDigitsLOGIC]
  omega

/-- The rank is reduced like every other digit, so an address counts modulo the capacity. -/
theorem addrToVecLOGIC_eq_iff (hc : c.Valid) (m n : ℕ) :
    c.addrToVecLOGIC m = c.addrToVecLOGIC n ↔
      m / c.granul % c.granulesLOGIC = n / c.granul % c.granulesLOGIC := by
  have hpos := allRadicesLOGIC_pos hc
  have htail : ∀ k, (Radix.split (c.allRadicesLOGIC c.numLogicCube) k).1.tail =
      (Radix.split (c.numLogicCube :: c.outerRadicesLOGIC) (k / c.granul)).1 := fun _ => rfl
  have hiff := Radix.split_fst_eq_iff (fun m hm => hpos m (List.mem_cons_of_mem _ hm))
    (m / c.granul) (n / c.granul)
  rw [addrToVecLOGIC_digits hc, addrToVecLOGIC_digits hc]
  show _ ↔ m / c.granul % (c.numLogicCube :: c.outerRadicesLOGIC).prod =
    n / c.granul % (c.numLogicCube :: c.outerRadicesLOGIC).prod
  rw [← hiff, ← htail, ← htail]
  constructor
  · intro h
    have hdigits := congrArg digitsLOGIC (Except.ok.inj h)
    rwa [digitsLOGIC_ofAllDigits (Radix.split_digits_lt hpos m),
      digitsLOGIC_ofAllDigits (Radix.split_digits_lt hpos n)] at hdigits
  · intro h
    have hcons : ∀ k, (Radix.split (c.allRadicesLOGIC c.numLogicCube) k).1 = k % c.granul ::
      (Radix.split (c.allRadicesLOGIC c.numLogicCube) k).1.tail := fun _ => rfl
    rw [hcons m, hcons n, h]
    rfl

/-- Below the capacity only the addresses of one granule share a vector. -/
theorem addrToVecLOGIC_eq_iff_of_lt (hc : c.Valid) {m n : ℕ} (hm : m < c.capacityLOGIC)
    (hn : n < c.capacityLOGIC) :
    c.addrToVecLOGIC m = c.addrToVecLOGIC n ↔ m / c.granul = n / c.granul := by
  rw [capacityLOGIC_granules] at hm hn
  rw [addrToVecLOGIC_eq_iff hc, Nat.mod_eq_of_lt (Nat.div_lt_of_lt_mul hm),
    Nat.mod_eq_of_lt (Nat.div_lt_of_lt_mul hn)]

/-! #### Negative addresses -/

/-- Division and remainder truncate, so the digits of an address below 0 are those of its opposite
with the other sign. -/
theorem addrToVecLOGIC_neg (hc : c.Valid) (n : ℕ) : c.addrToVecLOGIC (-n) =
    .ok (ofAllDigitsLOGIC (Radix.split (c.allRadicesLOGIC c.numLogicCube) n).1).neg := by
  have hrank := hc.numRank_pos
  have htwo : (2 : ℤ) = (2 : ℕ) := rfl
  unfold addrToVecLOGIC
  rw [htwo]
  simp only [Int.neg_tdiv, Int.neg_tmod, ← Int.ofNat_tdiv, ← Int.ofNat_tmod]
  rw [if_pos (by omega)]
  simp only [AddrVec.neg, ofAllDigitsLOGIC, allRadicesLOGIC, outerRadicesLOGIC, Radix.split_cons,
    Radix.split_nil, List.getD_cons_succ, List.getD_cons_zero, Nat.cast_ofNat, neg_add, Int.neg_mul]

/-- Only the vector without any digit is the opposite of one. -/
theorem ofAllDigits_eq_neg {ds ds' : List ℕ}
    (h : ofAllDigitsLOGIC ds = (ofAllDigitsLOGIC ds').neg) :
    ofAllDigitsLOGIC ds = ⟨0, 0, 0, 0, 0, 0, 0⟩ := by
  simp only [ofAllDigitsLOGIC, AddrVec.neg, AddrVec.mk.injEq] at h ⊢
  omega

/-- Address 0 is its own opposite. -/
theorem ofAllDigits_zero (hc : c.Valid) :
    ofAllDigitsLOGIC (Radix.split (c.allRadicesLOGIC c.numLogicCube) 0).1
      = ⟨0, 0, 0, 0, 0, 0, 0⟩ := by
  have hzero := addrToVecLOGIC_neg hc 0
  rw [Nat.cast_zero, neg_zero, ← Nat.cast_zero, addrToVecLOGIC_digits hc] at hzero
  exact ofAllDigits_eq_neg (Except.ok.inj hzero)

theorem addrToVecLOGIC_neg_eq_iff (hc : c.Valid) (m n : ℕ) :
    c.addrToVecLOGIC (-m) = c.addrToVecLOGIC (-n) ↔ c.addrToVecLOGIC m = c.addrToVecLOGIC n := by
  rw [addrToVecLOGIC_neg hc, addrToVecLOGIC_neg hc, addrToVecLOGIC_digits hc,
    addrToVecLOGIC_digits hc, Except.ok.injEq, Except.ok.injEq]
  exact AddrVec.neg_inj

/-- Addresses of both signs share at most the vector of address 0. -/
theorem eq_zero_of_addrToVecLOGIC_neg (hc : c.Valid) {m n : ℕ}
    (h : c.addrToVecLOGIC m = c.addrToVecLOGIC (-n)) :
    c.addrToVecLOGIC m = c.addrToVecLOGIC (0 : ℕ) := by
  rw [addrToVecLOGIC_digits hc, addrToVecLOGIC_neg hc] at h
  rw [addrToVecLOGIC_digits hc, addrToVecLOGIC_digits hc, ofAllDigits_zero hc,
    ofAllDigits_eq_neg (Except.ok.inj h)]

variable (c) in
/-- Accepted addresses of two granules have two vectors, for all values of a `long long`. -/
def NoAliasLOGIC : Prop :=
  ∀ a b : ℤ, -2 ^ 63 ≤ a → a < 2 ^ 63 → -2 ^ 63 ≤ b → b < 2 ^ 63 → a / c.granul ≠ b / c.granul →
    ∀ v w, c.addrToVecLOGIC a = .ok v → c.addrToVecLOGIC b = .ok w → v ≠ w

variable (c) in
def RejectsPastEndLOGIC : Prop :=
  ∀ n : ℕ, c.capacityLOGIC ≤ n → n < 2 ^ 63 → ∃ e, c.addrToVecLOGIC n = .error e

theorem le_capacity_of_rejects (hc : c.Valid) (h : c.RejectsPastEndLOGIC) :
    2 ^ 63 ≤ c.capacityLOGIC := by
  by_contra hlt
  obtain ⟨e, he⟩ := h c.capacityLOGIC le_rfl (by omega)
  rw [addrToVecLOGIC_digits hc] at he
  cases he

/-- The addresses just below 0 lose their sign in the division. -/
theorem granul_eq_one_of_noAlias (hc : c.Valid) (h : c.NoAliasLOGIC) : c.granul = 1 := by
  have hpos := hc.granul_pos
  by_contra hgranul
  have hone : c.addrToVecLOGIC (1 : ℕ) = c.addrToVecLOGIC (0 : ℕ) := by
    rw [addrToVecLOGIC_eq_iff hc, Nat.div_eq_of_lt (by omega), Nat.zero_div]
  have hneg := (addrToVecLOGIC_neg_eq_iff hc 1 0).mpr hone
  have hgranule : (-(1 : ℕ) : ℤ) / c.granul ≠ -(0 : ℕ) / c.granul := by
    rw [Nat.cast_zero, neg_zero, Int.zero_ediv]
    exact (Int.ediv_neg_of_neg_of_pos (by omega) (by omega)).ne
  rw [addrToVecLOGIC_neg hc 0] at hneg
  exact h (-(1 : ℕ)) (-(0 : ℕ)) (by omega) (by omega) (by omega) (by omega) hgranule _ _ hneg
    (addrToVecLOGIC_neg hc 0) rfl

/-- The smallest `long long` is a multiple of that capacity. -/
theorem capacity_ne_of_noAlias (hc : c.Valid) (hgranul : c.granul = 1) (h : c.NoAliasLOGIC) :
    c.capacityLOGIC ≠ 2 ^ 63 := by
  intro hcapacity
  rw [capacityLOGIC_granules, hgranul, Nat.one_mul] at hcapacity
  have hend : c.addrToVecLOGIC (2 ^ 63 : ℕ) = c.addrToVecLOGIC (0 : ℕ) := by
    rw [addrToVecLOGIC_eq_iff hc, hgranul, hcapacity, Nat.div_one, Nat.mod_self, Nat.zero_div,
      Nat.zero_mod]
  have hneg := (addrToVecLOGIC_neg_eq_iff hc (2 ^ 63) 0).mpr hend
  rw [addrToVecLOGIC_neg hc 0] at hneg
  refine h (-(2 ^ 63 : ℕ)) (-(0 : ℕ)) (by omega) (by omega) (by omega) (by omega) ?_ _ _ hneg
    (addrToVecLOGIC_neg hc 0) rfl
  rw [hgranul]
  decide

theorem noAlias_of_lt_capacity (hc : c.Valid) (hgranul : c.granul = 1)
    (hcapacity : 2 ^ 63 < c.capacityLOGIC) : c.NoAliasLOGIC := by
  have hbelow : ∀ m n : ℕ, m ≤ 2 ^ 63 → n ≤ 2 ^ 63 → c.addrToVecLOGIC m = c.addrToVecLOGIC n →
      m = n := by
    intro m n hm hn heq
    have hgranule := (addrToVecLOGIC_eq_iff_of_lt hc (by omega) (by omega)).mp heq
    rwa [hgranul, Nat.div_one, Nat.div_one] at hgranule
  rintro a b ha ha' hb hb' hgranule v w hv hw rfl
  rw [hgranul, Nat.cast_one, Int.ediv_one, Int.ediv_one] at hgranule
  have heq := hv.trans hw.symm
  obtain ⟨m, rfl | rfl⟩ := Int.eq_nat_or_neg a
  · obtain ⟨n, rfl | rfl⟩ := Int.eq_nat_or_neg b
    · have hmn := hbelow m n (by omega) (by omega) heq
      omega
    · have hm := hbelow m 0 (by omega) (by omega) (eq_zero_of_addrToVecLOGIC_neg hc heq)
      have hn := hbelow 0 n (by omega) (by omega)
        ((addrToVecLOGIC_neg_eq_iff hc 0 n).mp (by rw [← heq, hm, Nat.cast_zero, neg_zero]))
      omega
  · obtain ⟨n, rfl | rfl⟩ := Int.eq_nat_or_neg b
    · have hn := hbelow n 0 (by omega) (by omega) (eq_zero_of_addrToVecLOGIC_neg hc heq.symm)
      have hm := hbelow 0 m (by omega) (by omega)
        ((addrToVecLOGIC_neg_eq_iff hc 0 m).mp (by rw [heq, hn, Nat.cast_zero, neg_zero]))
      omega
    · have hmn := hbelow m n (by omega) (by omega) ((addrToVecLOGIC_neg_eq_iff hc m n).mp heq)
      omega

/-- Every address is accepted, and two share a vector exactly if their granules differ by a
multiple of the capacity; one below 0 has the digits of its opposite. So there is neither an alias
nor an address to reject exactly where the division by the granule drops nothing and the capacity is
beyond all addresses of both signs. -/
theorem addrToVecLOGIC_alias (hc : c.Valid) :
    (c.NoAliasLOGIC ∧ c.RejectsPastEndLOGIC ↔ c.granul = 1 ∧ 2 ^ 63 < c.capacityLOGIC) ∧
      (∀ m < c.capacityLOGIC, ∀ n < c.capacityLOGIC,
        c.addrToVecLOGIC m = c.addrToVecLOGIC n ↔ m / c.granul = n / c.granul) ∧
      (∀ m n : ℕ, c.addrToVecLOGIC m = c.addrToVecLOGIC n ↔
        m / c.granul % c.granulesLOGIC = n / c.granul % c.granulesLOGIC) ∧
      ∀ n : ℕ, ∃ v, c.addrToVecLOGIC n = .ok v ∧ c.addrToVecLOGIC (-n) = .ok v.neg := by
  refine ⟨?_, fun m hm n hn => addrToVecLOGIC_eq_iff_of_lt hc hm hn, addrToVecLOGIC_eq_iff hc,
    fun n => ⟨_, addrToVecLOGIC_digits hc n, addrToVecLOGIC_neg hc n⟩⟩
  constructor
  · rintro ⟨hdistinct, hrejects⟩
    have hgranul := granul_eq_one_of_noAlias hc hdistinct
    have hle := le_capacity_of_rejects hc hrejects
    have hne := capacity_ne_of_noAlias hc hgranul hdistinct
    exact ⟨hgranul, by omega⟩
  · rintro ⟨hgranul, hcapacity⟩
    refine ⟨noAlias_of_lt_capacity hc hgranul hcapacity, fun n hle hlt => ?_⟩
    omega

theorem addrToVecLOGIC_alias_hbm3 : hbm3_80GB.Valid ∧ ∀ m < hbm3_80GB.capacityLOGIC,
    ∀ n < hbm3_80GB.capacityLOGIC,
      hbm3_80GB.addrToVecLOGIC m = hbm3_80GB.addrToVecLOGIC n ↔ m / 32 = n / 32 :=
  ⟨hbm3_80GB_valid, (addrToVecLOGIC_alias hbm3_80GB_valid).2.1⟩

/-- The first address past the end is address 0 again. -/
theorem addrToVecLOGIC_wraps :
    ¬ (hbm3_80GB.NoAliasLOGIC ∧ hbm3_80GB.RejectsPastEndLOGIC) := by
  rintro ⟨hdistinct, -⟩
  have hzero : hbm3_80GB.addrToVecLOGIC (0 : ℕ) = .ok ⟨0, 0, 0, 0, 0, 0, 0⟩ := by decide +kernel
  have hend : hbm3_80GB.addrToVecLOGIC (85899345920 : ℕ) = .ok ⟨0, 0, 0, 0, 0, 0, 0⟩ := by
    decide +kernel
  exact hdistinct (0 : ℕ) (85899345920 : ℕ) (by decide) (by decide) (by decide) (by decide)
    (by decide) _ _ hzero hend rfl

/-! ### `vecToAddrLOGIC` -/

theorem digitsLOGIC_lt (hbank : c.numBank = 4) (hc : c.Valid) {v : AddrVec}
    (hv : v.InRange c c.numLogicCube) :
    List.Forall₂ (· < ·) (0 :: digitsLOGIC v) (c.allRadicesLOGIC c.numLogicCube) := by
  have hgranul := hc.granul_pos
  obtain ⟨hcube, hchannel, hrank, hbankgroup, hbank', hrow, hcol⟩ := hv
  simp only [digitsLOGIC, allRadicesLOGIC, outerRadicesLOGIC, List.forall₂_cons,
    List.Forall₂.nil, and_true]
  omega

theorem ofAllDigits_digitsLOGIC {v : AddrVec} (hv : v.InRange c c.numLogicCube) (d : ℕ) :
    ofAllDigitsLOGIC (d :: digitsLOGIC v) = v := by
  obtain ⟨hcube, hchannel, hrank, hbankgroup, hbank, hrow, hcol⟩ := hv
  obtain ⟨cube, channel, rank, bankgroup, bank, row, col⟩ := v
  simp only [ofAllDigitsLOGIC, digitsLOGIC, List.getD_cons_succ, List.getD_cons_zero] at *
  simp only [AddrVec.mk.injEq]
  omega

/-- The encoder writes the same digits, with its own number of cubes. -/
theorem vecToAddrLOGIC_join {v : AddrVec} (hv : v.InRange c c.numLogicCube) :
    c.vecToAddrLOGIC v =
      toLong (Radix.join (c.allRadicesLOGIC c.numCube) (0 :: digitsLOGIC v) 0 : ℕ) := by
  obtain ⟨hcube, hchannel, hrank, hbankgroup, hbank, hrow, hcol⟩ := hv
  obtain ⟨cube, channel, rank, bankgroup, bank, row, col⟩ := v
  dsimp only at *
  lift cube to ℕ using hcube.1
  lift channel to ℕ using hchannel.1
  lift rank to ℕ using hrank.1
  lift bankgroup to ℕ using hbankgroup.1
  lift bank to ℕ using hbank.1
  lift row to ℕ using hrow.1
  lift col to ℕ using hcol.1
  have htwo : (2 : ℤ) = (2 : ℕ) := rfl
  have hdiv : ((bank : ℤ).tdiv 2) = (bank / 2 : ℕ) := by rw [htwo, Int.ofNat_tdiv]
  have hmod : ((bank : ℤ).tmod 2) = (bank % 2 : ℕ) := by rw [htwo, Int.ofNat_tmod]
  unfold vecToAddrLOGIC
  dsimp only
  rw [hdiv, hmod]
  apply congrArg toLong
  simp only [allRadicesLOGIC, outerRadicesLOGIC, digitsLOGIC, Radix.join_cons, Radix.join_nil,
    Int.toNat_natCast]
  push_cast
  ring

theorem ofAllDigits_inRange (hbank : c.numBank = 4) {ds : List ℕ}
    (h : List.Forall₂ (· < ·) ds (c.allRadicesLOGIC c.numLogicCube)) :
    (ofAllDigitsLOGIC ds).InRange c c.numLogicCube := by
  simp only [allRadicesLOGIC, outerRadicesLOGIC, List.forall₂_cons_right_iff,
    List.forall₂_nil_right_iff] at h
  obtain ⟨_, _, _, ⟨_, _, _, ⟨_, _, _, ⟨_, _, _, ⟨_, _, _, ⟨_, _, _, ⟨_, _, _, ⟨_, _, _, ⟨_, _, _,
    rfl, rfl⟩, rfl⟩, rfl⟩, rfl⟩, rfl⟩, rfl⟩, rfl⟩, rfl⟩, rfl⟩ := h
  constructor <;> simp [ofAllDigitsLOGIC] <;> omega

/-- The digits of an address below the capacity, without the offset, are its granule's start. -/
theorem join_allRadicesLOGIC {n : ℕ} (hn : n < c.capacityLOGIC) :
    Radix.join (c.allRadicesLOGIC c.numLogicCube)
      (0 :: (Radix.split (c.allRadicesLOGIC c.numLogicCube) n).1.tail) 0
      = n / c.granul * c.granul := by
  have hrest : (Radix.split (c.numLogicCube :: c.outerRadicesLOGIC) (n / c.granul)).2 = 0 := by
    rw [Radix.split_snd, Nat.div_div_eq_div_mul]
    exact Nat.div_eq_of_lt hn
  have hjoin := Radix.join_split (c.numLogicCube :: c.outerRadicesLOGIC) (n / c.granul)
  rw [hrest] at hjoin
  show 0 + c.granul * Radix.join (c.numLogicCube :: c.outerRadicesLOGIC)
    (Radix.split (c.numLogicCube :: c.outerRadicesLOGIC) (n / c.granul)).1 0 = _
  rw [hjoin, Nat.zero_add, Nat.mul_comm]

/-- What the encoder makes of the vector of an address, with cubes counted alike. -/
theorem vecToAddrLOGIC_of_lt (hbank : c.numBank = 4) (hc : c.Valid)
    (hcube : c.numCube = c.numLogicCube) {n : ℕ} (hn : n < c.capacityLOGIC) :
    c.vecToAddrLOGIC (ofAllDigitsLOGIC (Radix.split (c.allRadicesLOGIC c.numLogicCube) n).1)
      = toLong (n / c.granul * c.granul : ℕ) := by
  have hdigits := Radix.split_digits_lt (allRadicesLOGIC_pos hc) n
  rw [vecToAddrLOGIC_join (ofAllDigits_inRange hbank hdigits), hcube,
    digitsLOGIC_ofAllDigits hdigits, join_allRadicesLOGIC hn]

/-- A granule below the capacity ends at the latest where the memory does. -/
theorem granule_le {n : ℕ} (hn : n < c.capacityLOGIC) :
    n / c.granul * c.granul + c.granul ≤ c.capacityLOGIC := by
  rw [capacityLOGIC_granules] at hn ⊢
  have hlt : n / c.granul < c.granulesLOGIC := Nat.div_lt_of_lt_mul hn
  calc n / c.granul * c.granul + c.granul = c.granul * (n / c.granul + 1) := by ring
    _ ≤ c.granul * c.granulesLOGIC := Nat.mul_le_mul_left _ hlt

variable (c) in
/-- Encoder and decoder of the logic die undo each other, for all addresses of the memory that a
`long long` holds. -/
structure RoundTripsLOGIC : Prop where
  decode : ∀ v : AddrVec, v.InRange c c.numLogicCube →
    c.addrToVecLOGIC (c.vecToAddrLOGIC v) = .ok v
  encode : ∀ n : ℕ, n < c.capacityLOGIC → n < 2 ^ 63 → ∃ v, c.addrToVecLOGIC n = .ok v ∧
    c.vecToAddrLOGIC v = (n / c.granul * c.granul : ℕ)

theorem roundTripsLOGIC_of_eq (hc : c.Valid) (hbank : c.numBank = 4)
    (hcube : c.numCube = c.numLogicCube) (hfits : c.capacityLOGIC < 2 ^ 63 + c.granul) :
    c.RoundTripsLOGIC := by
  constructor
  · intro v hv
    have hdigits := digitsLOGIC_lt hbank hc hv
    have hsplit := Radix.split_join hdigits 0
    generalize hn :
      Radix.join (c.allRadicesLOGIC c.numLogicCube) (0 :: digitsLOGIC v) 0 = n at hsplit
    have hpos : 0 < c.capacityLOGIC := List.prod_pos (allRadicesLOGIC_pos hc)
    have hlt : n < c.capacityLOGIC := by
      have hrest := Radix.split_snd (c.allRadicesLOGIC c.numLogicCube) n
      rw [hsplit] at hrest
      exact (Nat.div_eq_zero_iff_lt hpos).mp hrest.symm
    have hstart : n % c.granul = 0 := congrArg (fun s => s.1.headD 0) hsplit
    have hround : n / c.granul * c.granul = n := by
      have := Nat.div_add_mod' n c.granul
      omega
    have hend := granule_le hlt
    rw [vecToAddrLOGIC_join hv, hcube, hn, toLong_natCast (by omega), addrToVecLOGIC_digits hc,
      hsplit, ofAllDigits_digitsLOGIC hv]
  · intro n hn hlong
    refine ⟨_, addrToVecLOGIC_digits hc n, ?_⟩
    have hle := Nat.div_mul_le_self n c.granul
    rw [vecToAddrLOGIC_of_lt hbank hc hcube hn, toLong_natCast (by omega)]

/-- Already the first granule of the second channel (or of what comes next, for one channel)
shows the two numbers of cubes. -/
theorem numCube_eq_of_roundTrips (hc : c.Valid) (hbank : c.numBank = 4)
    (hgranul : c.granul < 2 ^ 31) (hcubes : c.numCube < 2 ^ 31)
    (hlogic : c.numLogicCube < 2 ^ 31) (h : c.RoundTripsLOGIC) :
    c.numCube = c.numLogicCube := by
  have hpos := outerRadicesLOGIC_pos hc
  have hprod : 1 < c.outerRadicesLOGIC.prod := by
    have hchannel := hc.numChannel_pos
    have hrest : 0 < c.numBankgroup * (c.numCol * (c.numRow * (2 * c.numRank))) := by
      have := hc.numBankgroup_pos
      have := hc.numCol_pos
      have := hc.numRow_pos
      have := hc.numRank_pos
      positivity
    have heq : c.outerRadicesLOGIC.prod =
        2 * (c.numChannel * (c.numBankgroup * (c.numCol * (c.numRow * (2 * c.numRank))))) := by
      simp [outerRadicesLOGIC]
      ring
    have := Nat.mul_pos hchannel hrest
    omega
  have hn : c.numLogicCube * c.granul < c.capacityLOGIC := by
    rw [capacityLOGIC_granules, granulesLOGIC, Nat.mul_comm]
    exact Nat.mul_lt_mul_of_pos_left
      (lt_mul_of_one_lt_right hc.numLogicCube_pos hprod) hc.granul_pos
  have hlong : c.numLogicCube * c.granul < 2 ^ 63 := by
    calc c.numLogicCube * c.granul ≤ 2 ^ 31 * 2 ^ 31 := Nat.mul_le_mul hlogic.le hgranul.le
      _ < 2 ^ 63 := by decide
  obtain ⟨v, hv, hback⟩ := h.encode _ hn hlong
  rw [addrToVecLOGIC_digits hc] at hv
  obtain rfl := Except.ok.inj hv
  have hdigits := Radix.split_digits_lt (allRadicesLOGIC_pos hc) (c.numLogicCube * c.granul)
  have hone : (Radix.split c.outerRadicesLOGIC 1).2 = 0 := by
    rw [Radix.split_snd]
    exact Nat.div_eq_of_lt hprod
  have hjoin := Radix.join_split c.outerRadicesLOGIC 1
  rw [hone] at hjoin
  have htail : (Radix.split (c.allRadicesLOGIC c.numLogicCube) (c.numLogicCube * c.granul)).1.tail
      = 0 :: (Radix.split c.outerRadicesLOGIC 1).1 := by
    simp [allRadicesLOGIC, Nat.mul_div_cancel _ hc.granul_pos, Nat.div_self hc.numLogicCube_pos]
  rw [vecToAddrLOGIC_join (ofAllDigits_inRange hbank hdigits), digitsLOGIC_ofAllDigits hdigits,
    htail] at hback
  have hstart : Radix.join (c.allRadicesLOGIC c.numCube)
      (0 :: 0 :: (Radix.split c.outerRadicesLOGIC 1).1) 0 = c.numCube * c.granul := by
    simp [allRadicesLOGIC, hjoin, Nat.mul_comm]
  have hlong' : c.numCube * c.granul < 2 ^ 63 := by
    calc c.numCube * c.granul ≤ 2 ^ 31 * 2 ^ 31 := Nat.mul_le_mul hcubes.le hgranul.le
      _ < 2 ^ 63 := by decide
  rw [hstart, toLong_natCast hlong', Nat.mul_div_cancel _ hc.granul_pos, Int.ofNat_inj] at hback
  exact Nat.eq_of_mul_eq_mul_right hc.granul_pos hback

/-- The start of the last granule must not wrap. -/
theorem capacityLOGIC_lt_of_roundTrips (hc : c.Valid) (hbank : c.numBank = 4)
    (hcube : c.numCube = c.numLogicCube) (h : c.RoundTripsLOGIC) :
    c.capacityLOGIC < 2 ^ 63 + c.granul := by
  by_contra hfits
  have hpos := hc.granul_pos
  have hlt : c.capacityLOGIC - c.granul < c.capacityLOGIC := by omega
  have hdigits := Radix.split_digits_lt (allRadicesLOGIC_pos hc) (c.capacityLOGIC - c.granul)
  have hrange := ofAllDigits_inRange hbank hdigits
  have hlast : (c.capacityLOGIC - c.granul) / c.granul = c.granulesLOGIC - 1 := by
    rw [capacityLOGIC_granules, ← Nat.mul_sub_one, Nat.mul_div_cancel_left _ hpos]
  have hstart : (c.capacityLOGIC - c.granul) / c.granul * c.granul =
      c.capacityLOGIC - c.granul := by
    rw [hlast, capacityLOGIC_granules, Nat.mul_comm, Nat.mul_sub_one]
  have hback := h.decode _ hrange
  rw [vecToAddrLOGIC_of_lt hbank hc hcube hlt, hstart] at hback
  have hbounds : -2 ^ 63 ≤ toLong (c.capacityLOGIC - c.granul : ℕ) ∧
      toLong (c.capacityLOGIC - c.granul : ℕ) < 2 ^ 63 := by
    unfold toLong
    rw [Int.bmod_def]
    split_ifs <;> omega
  obtain ⟨k, hk | hk⟩ := Int.eq_nat_or_neg (toLong (c.capacityLOGIC - c.granul : ℕ))
  · -- a wrapped address below the end is one of another granule
    rw [hk, ← addrToVecLOGIC_digits hc, addrToVecLOGIC_eq_iff_of_lt hc (by omega) hlt] at hback
    have hle := Nat.div_mul_le_self k c.granul
    rw [hback, hstart] at hle
    omega
  · -- a negative one has no positive digit, so the vector would be that of address 0
    rw [hk, addrToVecLOGIC_neg hc] at hback
    have hzero := digitsLOGIC_ofAllDigits hdigits
    rw [ofAllDigits_eq_neg (Except.ok.inj hback).symm] at hzero
    simp only [digitsLOGIC, Int.toNat_zero, Nat.zero_mod, Nat.zero_div] at hzero
    have hjoin := join_allRadicesLOGIC hlt
    rw [← hzero, hstart] at hjoin
    simp only [allRadicesLOGIC, outerRadicesLOGIC, Radix.join_cons, Radix.join_nil, Nat.zero_add,
      Nat.mul_zero] at hjoin
    omega

/-- For dimensions that fit an `int`. -/
theorem roundTripsLOGIC_iff (hc : c.Valid) (hbank : c.numBank = 4) (hgranul : c.granul < 2 ^ 31)
    (hcubes : c.numCube < 2 ^ 31) (hlogic : c.numLogicCube < 2 ^ 31) :
    c.RoundTripsLOGIC ↔
      c.numCube = c.numLogicCube ∧ c.capacityLOGIC < 2 ^ 63 + c.granul := by
  constructor
  · intro h
    have hcube := numCube_eq_of_roundTrips hc hbank hgranul hcubes hlogic h
    exact ⟨hcube, capacityLOGIC_lt_of_roundTrips hc hbank hcube h⟩
  · rintro ⟨hcube, hfits⟩
    exact roundTripsLOGIC_of_eq hc hbank hcube hfits

theorem roundTripsLOGIC_hbm3 : hbm3_80GB.RoundTripsLOGIC :=
  (roundTripsLOGIC_iff hbm3_80GB_valid (by decide) (by decide) (by decide) (by decide)).mpr
    (by decide)

/-- Four cubes with five logic cubes. -/
theorem roundTripsLOGIC_fails : ¬ RoundTripsLOGIC { numCube := 4, numLogicCube := 5 } := by
  intro h
  have hrange : AddrVec.InRange ⟨0, 1, 0, 0, 0, 0, 0⟩ { numCube := 4, numLogicCube := 5 } 5 := by
    constructor <;> decide
  have hback := h.decode _ hrange
  have hwrong : MemoryConfig.addrToVecLOGIC { numCube := 4, numLogicCube := 5 }
      (MemoryConfig.vecToAddrLOGIC { numCube := 4, numLogicCube := 5 } ⟨0, 1, 0, 0, 0, 0, 0⟩)
      = .ok ⟨4, 0, 0, 0, 0, 0, 0⟩ := by decide +kernel
  rw [hwrong] at hback
  cases hback

end MemoryConfig
end LlmSystem
