import LlmSystem.Hardware.IntFootprint
import LlmSystem.Hardware.MemoryLimit

/-! Where the computed memory footprint is the exact one. -/
namespace LlmSystem

open Overflow

namespace IntFootprint

/-! ### Models whose dimensions are held in an `int` -/

def Held (x : ℤ) : Prop := 0 ≤ x ∧ x < 2 ^ 31

def HeldPos (x : ℤ) : Prop := 0 < x ∧ x < 2 ^ 31

instance (x : ℤ) : Decidable (Held x) := inferInstanceAs (Decidable (_ ∧ _))

instance (x : ℤ) : Decidable (HeldPos x) := inferInstanceAs (Decidable (_ ∧ _))

/-- A model and a run of it. -/
structure Sized (c : MemorySystem) (m : SizedModel) (s : Scheduler) : Prop where
  neTpDg : HeldPos m.neTpDg
  hiddenDim : HeldPos m.hiddenDim
  headDim : HeldPos m.headDim
  numHeads : HeldPos m.numHeads
  numKvHeads : HeldPos m.numKvHeads
  numLayers : HeldPos m.numLayers
  precisionByte : HeldPos m.precisionByte
  qLoraRank : Held m.qLoraRank
  kvLoraRank : Held m.kvLoraRank
  qkRopeHeadDim : Held m.qkRopeHeadDim
  expertIntermediateDim : Held m.expertIntermediateDim
  inputLen : Held m.inputLen
  outputLen : Held m.outputLen
  topK : Held m.topK
  batchSizePerDp : Held s.batchSizePerDp
  totalBatchSize : Held s.totalBatchSize
  numRoutedExpert : m.expertFreq ≠ 0 → HeldPos m.numRoutedExpert
  numSharedExpert : Held m.numSharedExpert
  /-- `num_total_device`. -/
  devices : HeldPos (c.numDevice * c.numNode)

/-- The parts of all experts, and the experts of one device. -/
structure ExpertsHeld (c : MemorySystem) (m : SizedModel) : Prop where
  routed : Held (m.numRoutedExpert * m.eTpDg)
  experts : Held (numRoutedExpertPerDevice c m + m.numSharedExpert)

theorem ofInt_eq {x : ℤ} (hx : 0 ≤ x) : Int32.ofInt x = int x.toNat := by
  obtain ⟨n, rfl⟩ := Int.eq_ofNat_of_zero_le hx
  exact Int32.ofInt_eq_ofNat

section Sized
variable {c : MemorySystem} {m : SizedModel} {s : Scheduler}

namespace Sized
variable (h : Sized c m s) (hexperts : ExpertsHeld c m)

def dims : Dims where
  neTpDg := m.neTpDg.toNat
  experts := (numRoutedExpertPerDevice c m + m.numSharedExpert).toNat
  hiddenDim := m.hiddenDim.toNat
  qLoraRank := m.qLoraRank.toNat
  kvLoraRank := m.kvLoraRank.toNat
  qkRopeHeadDim := m.qkRopeHeadDim.toNat
  headDim := m.headDim.toNat
  numHeads := m.numHeads.toNat
  expertIntermediateDim := m.expertIntermediateDim.toNat
  precisionByte := m.precisionByte.toNat
  neTpDg_pos := by have := h.neTpDg.1; omega
  hiddenDim_pos := by have := h.hiddenDim.1; omega
  headDim_pos := by have := h.headDim.1; omega
  numHeads_pos := by have := h.numHeads.1; omega
  precisionByte_pos := by have := h.precisionByte.1; omega
  neTpDg_lt := by have := h.neTpDg.2; omega
  experts_lt := by have := hexperts.experts.2; omega
  hiddenDim_lt := by have := h.hiddenDim.2; omega
  qkRopeHeadDim_lt := by have := h.qkRopeHeadDim.2; omega
  headDim_lt := by have := h.headDim.2; omega
  numHeads_lt := by have := h.numHeads.2; omega
  expertIntermediateDim_lt := by have := h.expertIntermediateDim.2; omega
  precisionByte_lt := by have := h.precisionByte.2; omega

theorem of : (h.dims hexperts).Of c m where
  neTpDg := (Int.toNat_of_nonneg h.neTpDg.1.le).symm
  experts := (Int.toNat_of_nonneg hexperts.experts.1).symm
  hiddenDim := (Int.toNat_of_nonneg h.hiddenDim.1.le).symm
  qLoraRank := (Int.toNat_of_nonneg h.qLoraRank.1).symm
  kvLoraRank := (Int.toNat_of_nonneg h.kvLoraRank.1).symm
  qkRopeHeadDim := (Int.toNat_of_nonneg h.qkRopeHeadDim.1).symm
  headDim := (Int.toNat_of_nonneg h.headDim.1.le).symm
  numHeads := (Int.toNat_of_nonneg h.numHeads.1.le).symm
  expertIntermediateDim := (Int.toNat_of_nonneg h.expertIntermediateDim.1).symm
  precisionByte := (Int.toNat_of_nonneg h.precisionByte.1.le).symm

theorem stands : (locals c m s).Stands (h.dims hexperts) where
  neTpDg := ofInt_eq h.neTpDg.1.le
  experts := by
    show Int32.ofInt m.numRoutedExpert * Int32.ofInt m.eTpDg
        / (Int32.ofInt c.numDevice * Int32.ofInt c.numNode) + Int32.ofInt m.numSharedExpert
      = int (numRoutedExpertPerDevice c m + m.numSharedExpert).toNat
    obtain ⟨r, hr⟩ := Int.eq_ofNat_of_zero_le hexperts.routed.1
    obtain ⟨n, hn⟩ := Int.eq_ofNat_of_zero_le h.devices.1.le
    obtain ⟨k, hk⟩ := Int.eq_ofNat_of_zero_le h.numSharedExpert.1
    have hr' := hexperts.routed.2
    have hn' := h.devices.2
    rw [← Int32.ofInt_mul, ← Int32.ofInt_mul]
    unfold numRoutedExpertPerDevice
    rw [hr] at hr' ⊢
    rw [hn] at hn' ⊢
    rw [hk, ← Int.ofNat_tdiv, ofInt_eq (Int.natCast_nonneg r), ofInt_eq (Int.natCast_nonneg n),
      ofInt_eq (Int.natCast_nonneg k)]
    simp only [Int.toNat_natCast]
    rw [int_div (by omega) (by omega), int_add, ← Nat.cast_add, Int.toNat_natCast]
  hiddenDim := ofInt_eq h.hiddenDim.1.le
  qLoraRank := ofInt_eq h.qLoraRank.1
  kvLoraRank := ofInt_eq h.kvLoraRank.1
  qkRopeHeadDim := ofInt_eq h.qkRopeHeadDim.1
  headDim := ofInt_eq h.headDim.1.le
  numHeads := ofInt_eq h.numHeads.1.le
  expertIntermediateDim := ofInt_eq h.expertIntermediateDim.1
  precisionByte := ofInt_eq h.precisionByte.1.le

end Sized

/-- The tokens of an expert, which may not fit. -/
theorem holds_expertBatchSize (h : Sized c m s) : ∃ e : ℕ, expertBatchSize m s = e ∧
    Holds (locals c m s).expertBatchSize e
      (m.expertFreq ≠ 0 → s.totalBatchSize * m.topK < 2 ^ 31) := by
  by_cases hfreq : m.expertFreq = 0
  · refine ⟨0, by simp [expertBatchSize, hfreq], ?_⟩
    have hzero : (locals c m s).expertBatchSize = int 0 := by
      simp only [locals, hfreq, ne_eq, not_true_eq_false, if_false]
      rfl
    rw [hzero]
    exact (Holds.of_int 0).congr (by simp [hfreq])
  · obtain ⟨n, hn⟩ := Int.eq_ofNat_of_zero_le (mul_nonneg h.totalBatchSize.1 h.topK.1)
    obtain ⟨r, hr⟩ := Int.eq_ofNat_of_zero_le (h.numRoutedExpert hfreq).1.le
    have hpos := (h.numRoutedExpert hfreq).1
    have hlt := (h.numRoutedExpert hfreq).2
    rw [hr] at hpos hlt
    refine ⟨n / r, ?_, ?_⟩
    · unfold expertBatchSize
      rw [if_pos hfreq, hn, hr, ← Int.ofNat_tdiv]
    · have hlocal : (locals c m s).expertBatchSize = int n / int r := by
        unfold locals
        dsimp only
        rw [if_pos hfreq, ← Int32.ofInt_mul, hn, hr, ofInt_eq (Int.natCast_nonneg n),
          ofInt_eq (Int.natCast_nonneg r), Int.toNat_natCast, Int.toNat_natCast]
      rw [hlocal, hn]
      refine (Holds.div_int n (by omega) (by omega)).congr ?_
      simp only [ne_eq, hfreq, not_false_eq_true, true_imp_iff]
      omega

end Sized

/-! ### Activations -/

section Activations
variable (c : MemorySystem) (m : SizedModel) (s : Scheduler)

/-- One token of each sequence in decode, the whole prompts otherwise. -/
def tokens : ℤ := if c.decodeMode then s.batchSizePerDp else s.batchSizePerDp * m.inputLen

def expertTokens : ℤ :=
  if c.decodeMode then expertBatchSize m s else expertBatchSize m s * m.inputLen

/-- The products of the activations that an `int` holds. -/
structure ActivationFits : Prop where
  projections : tokens c m s * m.hiddenDim + tokens c m s * m.qLoraRank
    + tokens c m s * m.kvLoraRank + tokens c m s * m.qkRopeHeadDim < 2 ^ 31
  latent : m.useAbsorb = true → tokens c m s * m.numHeads * m.kvLoraRank < 2 ^ 31
  heads : tokens c m s * m.numHeads * m.headDim < 2 ^ 31
  totalLen : c.decodeMode = true → s.batchSizePerDp = 0 ∨ totalLen m < 2 ^ 31
  scores : c.decodeMode = false → tokens c m s * m.numHeads * m.inputLen < 2 ^ 31
  experts : numRoutedExpertPerDevice c m + m.numSharedExpert = 0 ∨
    ((c.decodeMode = false ∧ m.inputLen = 0) ∨
      (m.expertFreq ≠ 0 → s.totalBatchSize * m.topK < 2 ^ 31)) ∧
    expertTokens c m s * m.expertIntermediateDim < 2 ^ 31 ∧
    expertTokens c m s * m.hiddenDim < 2 ^ 31

end Activations

/-- The conversion to an integer does not hide what is missing. -/
theorem trunc_eq_iff {x y : ℚ} {fits : Prop} (h : Reads x y fits) :
    Binary64.trunc x = Binary64.trunc y ↔ fits := by
  refine ⟨fun heq => ?_, fun hfits => by rw [h.eq hfits]⟩
  by_contra hfits
  obtain ⟨hshort, hone⟩ := h.short hfits
  have hy : 1 ≤ ⌊y⌋ := Int.le_floor.mpr (by exact_mod_cast hone)
  unfold Binary64.trunc at heq
  rw [if_pos h.nonneg] at heq
  split_ifs at heq with hx
  · have hle : ⌊x⌋ + 1 ≤ ⌊y⌋ := by
      rw [← Int.floor_add_one]
      exact Int.floor_le_floor hshort
    omega
  · have hle : ⌈x⌉ ≤ 0 := Int.ceil_le.mpr (by exact_mod_cast (not_le.mp hx).le)
    omega

section Iff
variable {c : MemorySystem} {m : SizedModel} {s : Scheduler}

theorem tokensFit_iff {d : Dims} (hof : d.Of c m) {t : ℕ} {x : ℤ} (hx : x = t) {useAbsorb : Bool} :
    d.TokensFit useAbsorb t ↔
      x * m.hiddenDim + x * m.qLoraRank + x * m.kvLoraRank + x * m.qkRopeHeadDim < 2 ^ 31 ∧
      (useAbsorb = true → x * m.numHeads * m.kvLoraRank < 2 ^ 31) ∧
      x * m.numHeads * m.headDim < 2 ^ 31 := by
  rw [hx, hof.hiddenDim, hof.qLoraRank, hof.kvLoraRank, hof.qkRopeHeadDim, hof.numHeads,
    hof.headDim]
  norm_cast
  exact ⟨fun h => ⟨h.projections, h.latent, h.heads⟩, fun h => ⟨h.1, h.2.1, h.2.2⟩⟩

theorem expertsFit_iff {d : Dims} (hof : d.Of c m) {t : ℕ} {x : ℤ} (hx : x = t) {fits : Prop} :
    d.ExpertsFit t fits ↔ numRoutedExpertPerDevice c m + m.numSharedExpert = 0 ∨
      fits ∧ x * m.expertIntermediateDim < 2 ^ 31 ∧ x * m.hiddenDim < 2 ^ 31 := by
  rw [hx, hof.experts, hof.expertIntermediateDim, hof.hiddenDim]
  norm_cast

theorem activationFits_iff {d : Dims} (hof : d.Of c m) {t e : ℕ} (ht : tokens c m s = t)
    (he : expertTokens c m s = e) : ActivationFits c m s ↔ d.TokensFit m.useAbsorb t ∧
      (c.decodeMode = true → s.batchSizePerDp = 0 ∨ LlmSystem.totalLen m < 2 ^ 31) ∧
      (c.decodeMode = false → tokens c m s * m.numHeads * m.inputLen < 2 ^ 31) ∧
      d.ExpertsFit e ((c.decodeMode = false ∧ m.inputLen = 0) ∨
        (m.expertFreq ≠ 0 → s.totalBatchSize * m.topK < 2 ^ 31)) := by
  rw [tokensFit_iff hof ht, expertsFit_iff hof he]
  constructor
  · intro h
    exact ⟨⟨h.projections, h.latent, h.heads⟩, h.totalLen, h.scores, h.experts⟩
  · rintro ⟨⟨hproj, hlatent, hheads⟩, hlen, hscores, hexperts⟩
    exact ⟨hproj, hlatent, hheads, hlen, hscores, hexperts⟩

theorem activationSize_iff (h : Sized c m s) (hexperts : ExpertsHeld c m) :
    activationSize c m s = LlmSystem.activationSize c m s ↔ ActivationFits c m s := by
  obtain ⟨b, hb⟩ := Int.eq_ofNat_of_zero_le h.batchSizePerDp.1
  obtain ⟨a, ha⟩ := Int.eq_ofNat_of_zero_le (add_nonneg h.inputLen.1 h.outputLen.1)
  obtain ⟨l, hl⟩ := Int.eq_ofNat_of_zero_le h.inputLen.1
  obtain ⟨e, he, hexpert⟩ := holds_expertBatchSize h
  have hstands := h.stands hexperts
  have hof := h.of hexperts
  have hlt := h.batchSizePerDp.2
  have hlt' := h.inputLen.2
  have hbatch : (locals c m s).batchSizePerDp = int b := by
    have heq := ofInt_eq h.batchSizePerDp.1
    rw [hb, Int.toNat_natCast] at heq
    unfold locals
    rw [hb]
    exact heq
  have hinput : (locals c m s).inputLen = int l := by
    have heq := ofInt_eq h.inputLen.1
    rwa [hl, Int.toNat_natCast, ← hl] at heq
  have hlen : (locals c m s).totalLen = int a := by
    have heq := ofInt_eq (add_nonneg h.inputLen.1 h.outputLen.1)
    rwa [ha, Int.toNat_natCast, ← ha, Int32.ofInt_add] at heq
  have htotal : LlmSystem.totalLen m = a := ha
  have hblt : b < 2 ^ 31 := by omega
  have hllt : l < 2 ^ 31 := by omega
  unfold activationSize LlmSystem.activationSize
  dsimp only
  by_cases hdecode : c.decodeMode = true
  · have ht : tokens c m s = b := (if_pos hdecode).trans hb
    have he' : expertTokens c m s = e := (if_pos hdecode).trans he
    have hcond : (b = 0 ∨ a < 2 ^ 31) ↔ (s.batchSizePerDp = 0 ∨ LlmSystem.totalLen m < 2 ^ 31) := by
      rw [hb, htotal]
      norm_cast
    rw [if_pos hdecode, if_pos hdecode, activationFits_iff hof ht he']
    simp only [hdecode, Bool.true_eq_false, false_and, false_or, true_imp_iff, false_imp_iff,
      true_and, ← hcond]
    by_cases habsorb : m.useAbsorb = true
    · rw [if_pos habsorb, if_pos habsorb, habsorb]
      exact trunc_eq_iff (reads_decodeAbsorb hstands hof hb hbatch he hexpert htotal hlen hblt)
    · rw [if_neg habsorb, if_neg habsorb, Bool.eq_false_iff.mpr habsorb]
      split_ifs with hcompressed
      · rw [hlen, htotal]
        exact trunc_eq_iff (reads_decode hstands hof hb hbatch he hexpert htotal hlen hblt
          (.inl rfl))
      · have hone : (1 : ℚ) = double (int 1) := by rw [double_int (by decide), Nat.cast_one]
        have hreads := reads_decode hstands hof hb hbatch he hexpert htotal hlen hblt
          (n := 1) (.inr (by decide))
        rw [← hone, Nat.cast_one] at hreads
        exact trunc_eq_iff hreads
  · have hprefill : c.decodeMode = false := Bool.eq_false_iff.mpr hdecode
    have ht : tokens c m s = (b * l : ℕ) := by
      rw [tokens, if_neg hdecode, hb, hl, Nat.cast_mul]
    have he' : expertTokens c m s = (e * l : ℕ) := by
      rw [expertTokens, if_neg hdecode, he, hl, Nat.cast_mul]
    have hcond : b * l * (h.dims hexperts).numHeads * l < 2 ^ 31 ↔
        tokens c m s * m.numHeads * m.inputLen < 2 ^ 31 := by
      rw [ht, hof.numHeads, hl]
      norm_cast
    have hzero : l = 0 ↔ m.inputLen = 0 := by
      rw [hl]
      norm_cast
    rw [if_neg hdecode, if_neg hdecode, activationFits_iff hof ht he']
    simp only [hprefill, Bool.false_eq_true, false_imp_iff, true_imp_iff, true_and, ← hcond,
      ← hzero]
    by_cases habsorb : m.useAbsorb = true
    · rw [if_pos habsorb, if_pos habsorb, habsorb]
      exact trunc_eq_iff (reads_prefillAbsorb hstands hof hb hbatch he hexpert hl hinput hllt)
    · rw [if_neg habsorb, if_neg habsorb, Bool.eq_false_iff.mpr habsorb]
      exact trunc_eq_iff (reads_prefill hstands hof hb hbatch he hexpert hl hinput hllt)

end Iff

/-! ### Caches -/

section Caches
variable (m : SizedModel)

/-- The two sums of a compressed cache, or the one of a plain cache. Both sums of a compressed cache
may also be `-2 ^ 31`, whose square is right. -/
def CacheFits : Prop :=
  if m.qkRopeHeadDim ≠ 0 ∧ m.compressedKv then
    totalLen m = 0 ∨ (totalLen m < 2 ^ 31 ∧ m.kvLoraRank + m.qkRopeHeadDim < 2 ^ 31) ∨
      (totalLen m = 2 ^ 31 ∧ m.kvLoraRank + m.qkRopeHeadDim = 2 ^ 31)
  else totalLen m < 2 ^ 31

/-- All of a plain cache but the division. -/
def heteroElements : ℤ := 2 * totalLen m * m.numLayers * m.headDim * m.numKvHeads

def HeteroFits : Prop :=
  heteroElements m < 2 ^ 31 ∧ (heteroElements m).tdiv m.neTpDg * m.precisionByte < 2 ^ 31

end Caches

section Iff
variable {c : MemorySystem} {m : SizedModel} {s : Scheduler}

/-- A conversion that has nothing to cut off. -/
theorem trunc_intCast (x : ℤ) : Binary64.trunc x = x := by
  unfold Binary64.trunc
  split_ifs
  · exact Int.floor_intCast x
  · exact Int.ceil_intCast x

theorem ofInt_add_eq {x y : ℤ} (hx : 0 ≤ x) (hy : 0 ≤ y) :
    Int32.ofInt x + Int32.ofInt y = int (x + y).toNat := by
  rw [← Int32.ofInt_add, ofInt_eq (add_nonneg hx hy)]

theorem HeldPos.double_ofInt {x : ℤ} (hx : HeldPos x) : double (.ofInt x) = x := by
  obtain ⟨hpos, hlt⟩ := hx
  obtain ⟨n, rfl⟩ := Int.eq_ofNat_of_zero_le hpos.le
  rw [ofInt_eq hpos.le, Int.toNat_natCast, double_int (by omega), Int.cast_natCast]

theorem compressed_iff (h : Sized c m s) (hrope : m.qkRopeHeadDim ≠ 0) :
    (Int32.ofInt m.inputLen + Int32.ofInt m.outputLen).toInt
        * (Int32.ofInt m.kvLoraRank + Int32.ofInt m.qkRopeHeadDim).toInt
      = (m.inputLen + m.outputLen) * (m.kvLoraRank + m.qkRopeHeadDim) ↔
    totalLen m = 0 ∨ (totalLen m < 2 ^ 31 ∧ m.kvLoraRank + m.qkRopeHeadDim < 2 ^ 31) ∨
      (totalLen m = 2 ^ 31 ∧ m.kvLoraRank + m.qkRopeHeadDim = 2 ^ 31) := by
  obtain ⟨hinput, hinput'⟩ := h.inputLen
  obtain ⟨houtput, houtput'⟩ := h.outputLen
  obtain ⟨hkv, hkv'⟩ := h.kvLoraRank
  obtain ⟨hdim, hdim'⟩ := h.qkRopeHeadDim
  have hwrap := toInt_mul_toInt (m := (m.inputLen + m.outputLen).toNat)
    (n := (m.kvLoraRank + m.qkRopeHeadDim).toNat) (by omega) (by omega)
  rw [Int.toNat_of_nonneg (by omega), Int.toNat_of_nonneg (by omega)] at hwrap
  rw [ofInt_add_eq hinput houtput, ofInt_add_eq hkv hdim, hwrap]
  unfold totalLen
  omega

/-- The dimensions of a plain cache. -/
theorem Sized.cache (h : Sized c m s) : ∃ a l d k n p : ℕ, totalLen m = a ∧ m.numLayers = l ∧
    m.headDim = d ∧ m.numKvHeads = k ∧ m.neTpDg = n ∧ m.precisionByte = p ∧ 0 < l * d * k * p ∧
    0 < n ∧ n < 2 ^ 31 ∧ 0 < p ∧ p < 2 ^ 31 := by
  obtain ⟨a, ha⟩ := Int.eq_ofNat_of_zero_le (add_nonneg h.inputLen.1 h.outputLen.1)
  obtain ⟨l, hl⟩ := Int.eq_ofNat_of_zero_le h.numLayers.1.le
  obtain ⟨d, hd⟩ := Int.eq_ofNat_of_zero_le h.headDim.1.le
  obtain ⟨k, hk⟩ := Int.eq_ofNat_of_zero_le h.numKvHeads.1.le
  obtain ⟨n, hn⟩ := Int.eq_ofNat_of_zero_le h.neTpDg.1.le
  obtain ⟨p, hp⟩ := Int.eq_ofNat_of_zero_le h.precisionByte.1.le
  have hl' := hl ▸ h.numLayers.1
  have hd' := hd ▸ h.headDim.1
  have hk' := hk ▸ h.numKvHeads.1
  have hn' := hn ▸ h.neTpDg
  have hp' := hp ▸ h.precisionByte
  have hprod : (0 : ℤ) < l * d * k * p := mul_pos (mul_pos (mul_pos hl' hd') hk') hp'.1
  exact ⟨a, l, d, k, n, p, ha, hl, hd, hk, hn, hp, by exact_mod_cast hprod,
    by exact_mod_cast hn'.1, by exact_mod_cast hn'.2, by exact_mod_cast hp'.1,
    by exact_mod_cast hp'.2⟩

theorem reads_plain (h : Sized c m s) :
    Reads (2 * double (.ofInt m.inputLen + .ofInt m.outputLen) * m.numLayers * m.headDim
        * m.numKvHeads / m.neTpDg * m.precisionByte)
      (2 * (m.inputLen + m.outputLen : ℤ) * m.numLayers * m.headDim * m.numKvHeads / m.neTpDg
        * m.precisionByte : ℚ) (totalLen m < 2 ^ 31) := by
  obtain ⟨a, l, d, k, n, p, ha, hl, hd, hk, hn, hp, hpos, hn', hlt, -⟩ := h.cache
  have hreads := reads_int_mul_div a (2 * (l * d * k * p)) hn' hlt
  have hsum : m.inputLen + m.outputLen = a := ha
  have hcomputed : (2 * double (int a) * l * d * k / n * p : ℚ)
      = double (int a) * ((2 * (l * d * k * p) : ℕ) / n) := by
    push_cast
    ring
  have hexact : (2 * a * l * d * k / n * p : ℚ) = a * ((2 * (l * d * k * p) : ℕ) / n) := by
    push_cast
    ring
  rw [ofInt_add_eq h.inputLen.1 h.outputLen.1, hsum, ha, hl, hd, hk, hn, hp]
  simp only [Int.cast_natCast, Int.toNat_natCast]
  rw [hcomputed, hexact]
  refine hreads.congr ?_
  have hne : 2 * (l * d * k * p) ≠ 0 := by omega
  rw [or_iff_right hne]
  norm_cast

theorem kvCacheSizePerSeq_iff (h : Sized c m s) :
    kvCacheSizePerSeq m = LlmSystem.kvCacheSizePerSeq m ↔ CacheFits m := by
  have hlayers := h.numLayers.1
  have hprec := h.precisionByte.1
  unfold kvCacheSizePerSeq LlmSystem.kvCacheSizePerSeq CacheFits
  dsimp only
  rw [h.numLayers.double_ofInt, h.precisionByte.double_ofInt]
  split_ifs with hcompressed
  · rw [← compressed_iff h hcompressed.1]
    unfold double
    rw [← Int.cast_mul, ← Int.cast_mul, ← Int.cast_mul, trunc_intCast,
      mul_left_inj' hprec.ne', mul_left_inj' hlayers.ne']
  · rw [h.headDim.double_ofInt, h.numKvHeads.double_ofInt, h.neTpDg.double_ofInt]
    exact trunc_eq_iff (reads_plain h)

theorem heteroKvCacheSizePerSeq_iff (h : Sized c m s) :
    heteroKvCacheSizePerSeq m = LlmSystem.heteroKvCacheSizePerSeq m ↔ HeteroFits m := by
  obtain ⟨a, l, d, k, n, p, ha, hl, hd, hk, hn, hp, hpos, hn', hlt, hp', hlt'⟩ := h.cache
  have hsum : m.inputLen + m.outputLen = a := ha
  have hsize := (Holds.div_int (2 * a * l * d * k) hn' hlt).mul_int hlt'
  have htwo : (2 : Int32) = int 2 := rfl
  have hexact : LlmSystem.heteroKvCacheSizePerSeq m = (2 * a * l * d * k / n * p : ℕ) := by
    unfold LlmSystem.heteroKvCacheSizePerSeq
    rw [hsum, hl, hd, hk, hn, hp]
    push_cast
    rfl
  have hcomputed : heteroKvCacheSizePerSeq m
      = (int (2 * a * l * d * k) / int n * int p).toInt := by
    unfold heteroKvCacheSizePerSeq
    dsimp only
    rw [ofInt_add_eq h.inputLen.1 h.outputLen.1, hsum, ofInt_eq h.numLayers.1.le,
      ofInt_eq h.headDim.1.le, ofInt_eq h.numKvHeads.1.le, ofInt_eq h.neTpDg.1.le,
      ofInt_eq h.precisionByte.1.le, hl, hd, hk, hn, hp, htwo]
    simp only [Int.toNat_natCast, int_mul]
  have helements : heteroElements m = (2 * a * l * d * k : ℕ) := by
    unfold heteroElements
    rw [ha, hl, hd, hk]
    norm_cast
  rw [hcomputed, hexact, hsize.eq_iff, or_iff_right hp'.ne']
  unfold HeteroFits
  rw [helements, hn, hp, ← Int.ofNat_tdiv]
  norm_cast

end Iff

end IntFootprint

end LlmSystem
