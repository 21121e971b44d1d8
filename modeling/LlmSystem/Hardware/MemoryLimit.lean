import LlmSystem.Hardware.Footprint

/-!
`Cluster::checkMemorySize` and `checkHeteroMemorySize`: the batch that is left where weights,
activations and KV caches exceed the memory of a device. The sizes of the tensors of the model
(`get_size`) are given.
-/
namespace LlmSystem

open Overflow

/-! ### The checks -/

namespace Scheduler

def clear (s : Scheduler) : Scheduler := { s with sequenceQueue := [], runningQueue := [] }

/-- `(int)(avail_capacity / kv_cache_size_per_seq)`; a division by zero does not fit an `int`. -/
def numSeqs (availCapacity : ℚ) (kvCacheSizePerSeq : ℤ) : ℤ :=
  if kvCacheSizePerSeq = 0 then -2 ^ 31
  else castInt (Binary64.trunc (availCapacity / kvCacheSizePerSeq))

/-- The batch for what the KV caches have left, in `int`. -/
def limitBatch (s : Scheduler) (availCapacity : ℚ) (kvCacheSizePerSeq : ℤ) :
    Except String Scheduler :=
  if availCapacity < 0 then .error "Memory capacity is smaller than model weight"
  else
    let maxBatchSize : Int32 := .ofInt (numSeqs availCapacity kvCacheSizePerSeq) * .ofInt s.dpDegree
    .ok (initRunningQueue (clear
      { s with
        totalBatchSize := (maxBatchSize - 1).toInt
        batchSizePerDp := ((maxBatchSize - 1) / .ofInt s.dpDegree).toInt }))

end Scheduler

section Checks
variable (c : MemorySystem) (m : SizedModel) (v : SizeVector) (s : Scheduler)

/-- The activations of one layer, or for latent attention the closed form. -/
def actSize : ℤ :=
  if m.qLoraRank = 0 then v.act.tdiv m.numLayers else IntFootprint.activationSize c m s

/-- The result says whether the run stops for lack of memory. -/
def checkMemorySize : Except String (Bool × Scheduler) :=
  if c.memoryCapacity < (actSize c m v s + v.weight + v.cache : ℤ) then
    if c.exitOutOfMemory then .ok (true, s)
    else if c.memCapLimit then do
      .ok (false, ← s.limitBatch (c.memoryCapacity - actSize c m v s - v.weight)
        (IntFootprint.kvCacheSizePerSeq m))
    else .ok (false, s.clear.initRunningQueue)
  else .ok (false, s)

/-- The weights outside the experts, 3.3 GiB, are taken off before the comparison. -/
def checkHeteroMemorySize : Except String (Bool × Scheduler) :=
  if c.memoryCapacity
      < (v.weight + v.cache : ℤ) - Binary64.round (33 / 10) * 1024 * 1024 * 1024 / m.neTpDg then
    if c.exitOutOfMemory then .ok (true, s)
    else do
      .ok (false, ← s.limitBatch (c.memoryCapacity - v.act.tdiv m.numLayers - v.weight)
        (IntFootprint.heteroKvCacheSizePerSeq m))
  else .ok (false, s)

/-- The activations in exact numbers. -/
def exactActSize : ℤ :=
  if m.qLoraRank = 0 then v.act.tdiv m.numLayers else activationSize c m s

end Checks

/-! ### Whether the new batch fits -/

/-- Weights, activations and the caches of `n` sequences fit in the memory. -/
def Fits (capacity : ℚ) (activation weight kvCacheSizePerSeq n : ℤ) : Prop :=
  ((weight + activation + n * kvCacheSizePerSeq : ℤ) : ℚ) ≤ capacity

theorem fits_zero_iff {capacity : ℚ} {activation weight kv : ℤ} :
    Fits capacity activation weight kv 0 ↔ 0 ≤ capacity - activation - weight := by
  unfold Fits
  push_cast
  constructor <;> intro h <;> linarith

/-- Fewer sequences fit as well. -/
theorem Fits.mono {capacity : ℚ} {activation weight kv n n' : ℤ} (hkv : 0 ≤ kv) (hle : n ≤ n')
    (h : Fits capacity activation weight kv n') : Fits capacity activation weight kv n := by
  have hmul : n * kv ≤ n' * kv := mul_le_mul_of_nonneg_right hle hkv
  have hcast : ((weight + activation + n * kv : ℤ) : ℚ)
      ≤ ((weight + activation + n' * kv : ℤ) : ℚ) := by exact_mod_cast add_le_add_right hmul _
  exact hcast.trans h

namespace Scheduler

/-- What limiting the batch is for. -/
structure Limited (s s' : Scheduler) (fits : ℤ → Prop) : Prop where
  pos : 1 ≤ s'.batchSizePerDp
  le : s'.batchSizePerDp ≤ s.batchSizePerDp
  total : ∃ r, 0 ≤ r ∧ r < s'.dpDegree ∧
    s'.totalBatchSize = s'.batchSizePerDp * s'.dpDegree + r
  fits : fits s'.batchSizePerDp

/-- A batch that is written is a limited one, and where not even one sequence fits, the program
fails. -/
def LimitsWell (s : Scheduler) (result : Except String Scheduler) (fits : ℤ → Prop) : Prop :=
  (∀ s', result = .ok s' → Limited s s' fits) ∧ (¬ fits 1 → ∃ e, result = .error e)

/-- The quotient of the available capacity is the number of sequences that fit. -/
theorem fits_iff_le_trunc {capacity : ℚ} {activation weight kv n : ℤ} (hkv : 0 < kv)
    (havail : 0 ≤ capacity - activation - weight) :
    Fits capacity activation weight kv n ↔
      n ≤ Binary64.trunc ((capacity - activation - weight) / kv) := by
  have hpos : (0 : ℚ) < kv := by exact_mod_cast hkv
  rw [Binary64.trunc, if_pos (div_nonneg havail hpos.le), Int.le_floor, le_div_iff₀ hpos]
  unfold Fits
  push_cast
  constructor
  · intro h
    linarith
  · intro h
    linarith

/-- The quotient of one less than a product. -/
theorem tdiv_mul_sub_one {q d : ℤ} (hd : 0 < d) (hq : 1 ≤ q) : (q * d - 1).tdiv d = q - 1 := by
  have hnonneg : 0 ≤ q * d - 1 := by
    have := Int.mul_le_mul hq hd (by omega) (by omega)
    omega
  have hsplit : q * d - 1 = d - 1 + (q - 1) * d := by ring
  rw [Int.tdiv_eq_ediv_of_nonneg hnonneg, hsplit, Int.add_mul_ediv_right _ _ hd.ne',
    Int.ediv_eq_zero_of_lt (by omega) (by omega), Int.zero_add]

theorem one_le_of_tdiv {q d : ℤ} (hd : 0 < d) (h : 1 ≤ (q * d - 1).tdiv d) : 1 ≤ q := by
  by_contra hlt
  have hle : q * d ≤ 0 := mul_nonpos_of_nonpos_of_nonneg (by omega) hd.le
  have hneg : (q * d - 1).tdiv d ≤ (0 : ℤ).tdiv d := Int.tdiv_le_tdiv hd (by omega)
  rw [Int.zero_tdiv] at hneg
  omega

/-- `max_batch_size` is taken less one before it is divided again, so a group gets one sequence
less than there is room for, and none where there is room for one. -/
theorem limited_iff {s s' : Scheduler} (hdp : 0 < s.dpDegree) (hdp' : s'.dpDegree = s.dpDegree)
    {q : ℤ} (htotal : s'.totalBatchSize = q * s.dpDegree - 1)
    (hper : s'.batchSizePerDp = (q * s.dpDegree - 1).tdiv s.dpDegree) {fits : ℤ → Prop} :
    Limited s s' fits ↔ 2 ≤ q ∧ q ≤ s.batchSizePerDp + 1 ∧ fits (q - 1) := by
  have hquotient : 1 ≤ q → s'.batchSizePerDp = q - 1 := fun h => hper.trans (tdiv_mul_sub_one hdp h)
  constructor
  · rintro ⟨hpos, hle, -, hfits⟩
    have hnew := hquotient (one_le_of_tdiv hdp (hper ▸ hpos))
    rw [hnew] at hpos hle hfits
    exact ⟨by omega, by omega, hfits⟩
  · rintro ⟨htwo, hold, hfits⟩
    have hnew := hquotient (by omega)
    constructor
    · omega
    · omega
    · refine ⟨s.dpDegree - 1, by omega, by omega, ?_⟩
      rw [htotal, hnew, hdp']
      ring
    · rw [hnew]
      exact hfits

theorem limitsWell_ok {s s' : Scheduler} {fits : ℤ → Prop} :
    LimitsWell s (.ok s') fits ↔ Limited s s' fits ∧ fits 1 := by
  constructor
  · rintro ⟨hlimited, hfails⟩
    refine ⟨hlimited s' rfl, ?_⟩
    by_contra hone
    obtain ⟨e, he⟩ := hfails hone
    cases he
  · rintro ⟨hlimited, hone⟩
    refine ⟨?_, fun h => absurd hone h⟩
    intro s'' h
    exact Except.ok.inj h ▸ hlimited

/-- An `int` holds the product of the batch, and what is one less. -/
def Counted (s : Scheduler) (availCapacity : ℚ) (kvCacheSizePerSeq : ℤ) : Prop :=
  kvCacheSizePerSeq ≠ 0 ∧
    -2 ^ 31 < Binary64.trunc (availCapacity / kvCacheSizePerSeq) * s.dpDegree ∧
    Binary64.trunc (availCapacity / kvCacheSizePerSeq) * s.dpDegree < 2 ^ 31

theorem limitBatch_counted {s : Scheduler} (hdp : 0 < s.dpDegree) (hint : s.dpDegree < 2 ^ 31)
    {avail : ℚ} {kv : ℤ} (havail : 0 ≤ avail) (hcount : s.Counted avail kv) :
    ∃ s', s.limitBatch avail kv = .ok s' ∧ s'.dpDegree = s.dpDegree ∧
      s'.totalBatchSize = Binary64.trunc (avail / kv) * s.dpDegree - 1 ∧
      s'.batchSizePerDp = (Binary64.trunc (avail / kv) * s.dpDegree - 1).tdiv s.dpDegree := by
  obtain ⟨hkv, hlow, hhigh⟩ := hcount
  have hquotient : numSeqs avail kv = Binary64.trunc (avail / kv) := by
    unfold numSeqs castInt
    rw [if_neg hkv, if_pos]
    generalize Binary64.trunc (avail / kv) = q at hlow hhigh
    constructor
    · by_contra hlt
      have hmul := Int.mul_le_mul_of_nonneg_right (show q ≤ -2 ^ 31 by omega) hdp.le
      nlinarith
    · by_contra hle
      have hmul := Int.mul_le_mul_of_nonneg_right (show 2 ^ 31 ≤ q by omega) hdp.le
      nlinarith
  refine ⟨_, if_neg (not_lt.mpr havail), rfl, ?_, ?_⟩
  · show (Int32.ofInt (numSeqs avail kv) * .ofInt s.dpDegree - 1).toInt = _
    rw [hquotient, ← Int32.ofInt_mul]
    exact (congrArg Int32.toInt (Int32.ofInt_sub _ 1).symm).trans
      (Int32.toInt_ofInt_of_le (by omega) (by omega))
  · show ((Int32.ofInt (numSeqs avail kv) * .ofInt s.dpDegree - 1) / .ofInt s.dpDegree).toInt = _
    rw [hquotient, ← Int32.ofInt_mul]
    have hless : Int32.ofInt (Binary64.trunc (avail / kv) * s.dpDegree) - 1
        = Int32.ofInt (Binary64.trunc (avail / kv) * s.dpDegree - 1) := (Int32.ofInt_sub _ 1).symm
    have hto := Int32.toInt_ofInt_of_le (n := s.dpDegree) (by omega) hint
    rw [hless, Int32.toInt_div_of_ne_right, hto, Int32.toInt_ofInt_of_le (by omega) (by omega)]
    intro h
    rw [h] at hto
    have hneg : (-1 : Int32).toInt = -1 := rfl
    omega

/-- When the batch that is written is as it should be: by the computed sizes weights and activations
alone exceed the memory, or there is room for two sequences of a group but not for two more than the
group has, an `int` counts the sequences of all groups, and every batch that is one smaller than one
there is room for does fit. -/
def LimitedRoom (s : Scheduler) (kvCacheSizePerSeq : ℤ) (room fits : ℤ → Prop) : Prop :=
  ¬ room 0 ∨
    0 < kvCacheSizePerSeq ∧ room 2 ∧ ¬ room (s.batchSizePerDp + 2) ∧
      (∀ n, room n → n * s.dpDegree < 2 ^ 31) ∧ ∀ n, room (n + 1) → fits n

section Limits
variable {s : Scheduler} {capacity : ℚ} {activation activation' weight kv kv' : ℤ}

theorem limitBatch_limits (hdp : 0 < s.dpDegree) (hint : s.dpDegree < 2 ^ 31)
    (h : s.LimitedRoom kv' (Fits capacity activation' weight kv')
      (Fits capacity activation weight kv)) :
    LimitsWell s (s.limitBatch (capacity - activation' - weight) kv')
      (Fits capacity activation weight kv) := by
  rcases h with hzero | ⟨hkv, htwo, hold, hcount, hexact⟩
  · have herror : s.limitBatch (capacity - activation' - weight) kv'
        = .error "Memory capacity is smaller than model weight" :=
      if_pos (not_le.mp (fits_zero_iff.not.mp hzero))
    rw [herror]
    exact ⟨fun _ h => (nomatch h), fun _ => ⟨_, rfl⟩⟩
  · have havail := fits_zero_iff.mp (htwo.mono hkv.le (by decide))
    have hroom : ∀ n, Fits capacity activation' weight kv' n ↔ _ :=
      fun n => fits_iff_le_trunc hkv havail
    rw [hroom] at htwo hold
    have hlarge := hcount _ ((hroom _).mpr le_rfl)
    have hpos : 0 < Binary64.trunc ((capacity - activation' - weight) / kv') * s.dpDegree :=
      mul_pos (by omega) hdp
    obtain ⟨s', hok, hdp', htotal, hper⟩ :=
      limitBatch_counted hdp hint havail ⟨hkv.ne', by omega, hlarge⟩
    rw [hok, limitsWell_ok, limited_iff hdp hdp' htotal hper]
    refine ⟨⟨htwo, by omega, hexact _ ?_⟩, hexact 1 ((hroom _).mpr htwo)⟩
    rw [hroom]
    omega

theorem limitedRoom_of_limits (hdp : 0 < s.dpDegree) (hint : s.dpDegree < 2 ^ 31) (hkv : 0 ≤ kv)
    (hcount : s.Counted (capacity - activation' - weight) kv')
    (h : LimitsWell s (s.limitBatch (capacity - activation' - weight) kv')
      (Fits capacity activation weight kv)) :
    s.LimitedRoom kv' (Fits capacity activation' weight kv')
      (Fits capacity activation weight kv) := by
  by_cases hzero : Fits capacity activation' weight kv' 0
  · have havail := fits_zero_iff.mp hzero
    obtain ⟨s', hok, hdp', htotal, hper⟩ := limitBatch_counted hdp hint havail hcount
    rw [hok, limitsWell_ok, limited_iff hdp hdp' htotal hper] at h
    obtain ⟨⟨htwo, hold, hfits⟩, -⟩ := h
    -- a quotient of two is positive
    have hpos : 0 < kv' := by
      by_contra hle
      have hneg : (kv' : ℚ) ≤ 0 := by exact_mod_cast not_lt.mp hle
      have hquotient := div_nonpos_of_nonneg_of_nonpos havail hneg
      have htrunc : Binary64.trunc ((capacity - activation' - weight) / kv') ≤ 0 := by
        unfold Binary64.trunc
        split_ifs with hnonneg
        · rw [le_antisymm hquotient hnonneg]
          simp
        · exact Int.ceil_le.mpr (by exact_mod_cast hquotient)
      omega
    have hroom : ∀ n, Fits capacity activation' weight kv' n ↔ _ :=
      fun n => fits_iff_le_trunc hpos havail
    refine .inr ⟨hpos, (hroom _).mpr htwo, fun h => ?_, fun n hn => ?_, fun n hn => ?_⟩
    · have := (hroom _).mp h
      omega
    · exact (Int.mul_le_mul_of_nonneg_right ((hroom _).mp hn) hdp.le).trans_lt hcount.2.2
    · have := (hroom _).mp hn
      exact hfits.mono hkv (by omega)
  · exact .inl hzero

end Limits

end Scheduler

/-! ### The two checks -/

/-- The dimensions of a model. -/
structure SizedModel.WellFormed (m : SizedModel) : Prop where
  inputLen : 0 ≤ m.inputLen
  outputLen : 0 ≤ m.outputLen
  numLayers : 0 ≤ m.numLayers
  headDim : 0 ≤ m.headDim
  numKvHeads : 0 ≤ m.numKvHeads
  kvLoraRank : 0 ≤ m.kvLoraRank
  qkRopeHeadDim : 0 ≤ m.qkRopeHeadDim
  precisionByte : 0 ≤ m.precisionByte
  neTpDg : 0 < m.neTpDg

theorem SizedModel.WellFormed.cacheDims {m : SizedModel} (hm : m.WellFormed) :
    0 ≤ 2 * (m.inputLen + m.outputLen) * m.numLayers * m.headDim * m.numKvHeads := by
  have hlen : 0 ≤ m.inputLen + m.outputLen := add_nonneg hm.inputLen hm.outputLen
  have hlayers := mul_nonneg (mul_nonneg (show (0 : ℤ) ≤ 2 by decide) hlen) hm.numLayers
  exact mul_nonneg (mul_nonneg hlayers hm.headDim) hm.numKvHeads

theorem kvCacheSizePerSeq_nonneg {m : SizedModel} (hm : m.WellFormed) :
    0 ≤ kvCacheSizePerSeq m := by
  unfold kvCacheSizePerSeq
  split
  · have hlen : 0 ≤ m.inputLen + m.outputLen := add_nonneg hm.inputLen hm.outputLen
    have hrank : 0 ≤ m.kvLoraRank + m.qkRopeHeadDim := add_nonneg hm.kvLoraRank hm.qkRopeHeadDim
    exact mul_nonneg (mul_nonneg (mul_nonneg hlen hrank) hm.numLayers) hm.precisionByte
  · have hdims : (0 : ℚ) ≤ 2 * (m.inputLen + m.outputLen : ℤ) * m.numLayers * m.headDim
        * m.numKvHeads := by exact_mod_cast hm.cacheDims
    have hdegree : (0 : ℚ) ≤ m.neTpDg := by exact_mod_cast hm.neTpDg.le
    have hprec : (0 : ℚ) ≤ m.precisionByte := by exact_mod_cast hm.precisionByte
    have hsize := mul_nonneg (div_nonneg hdims hdegree) hprec
    rw [Binary64.trunc, if_pos hsize]
    exact Int.floor_nonneg.mpr hsize

theorem heteroKvCacheSizePerSeq_nonneg {m : SizedModel} (hm : m.WellFormed) :
    0 ≤ heteroKvCacheSizePerSeq m :=
  mul_nonneg (Int.tdiv_nonneg hm.cacheDims hm.neTpDg.le) hm.precisionByte

section Checks
variable (c : MemorySystem) (m : SizedModel) (v : SizeVector) (s : Scheduler)

/-- Whether `checkMemorySize` comes to rewrite the batch. -/
def Rewrites : Prop :=
  c.memoryCapacity < (actSize c m v s + v.weight + v.cache : ℤ) ∧ c.exitOutOfMemory = false ∧
    c.memCapLimit = true

def HeteroRewrites : Prop :=
  c.memoryCapacity
      < (v.weight + v.cache : ℤ) - Binary64.round (33 / 10) * 1024 * 1024 * 1024 / m.neTpDg ∧
    c.exitOutOfMemory = false

variable {c m v s}

theorem checkMemorySize_of_rewrites (h : Rewrites c m v s) :
    (checkMemorySize c m v s).map (·.2)
      = s.limitBatch (c.memoryCapacity - actSize c m v s - v.weight)
        (IntFootprint.kvCacheSizePerSeq m) := by
  obtain ⟨hsize, hexit, hlimit⟩ := h
  unfold checkMemorySize
  rw [if_pos hsize, hexit, hlimit]
  cases s.limitBatch (c.memoryCapacity - actSize c m v s - v.weight)
    (IntFootprint.kvCacheSizePerSeq m) <;> rfl

theorem checkHeteroMemorySize_of_rewrites (h : HeteroRewrites c m v) :
    (checkHeteroMemorySize c m v s).map (·.2)
      = s.limitBatch (c.memoryCapacity - v.act.tdiv m.numLayers - v.weight)
        (IntFootprint.heteroKvCacheSizePerSeq m) := by
  obtain ⟨hsize, hexit⟩ := h
  unfold checkHeteroMemorySize
  rw [if_pos hsize, hexit]
  cases s.limitBatch (c.memoryCapacity - v.act.tdiv m.numLayers - v.weight)
    (IntFootprint.heteroKvCacheSizePerSeq m) <;> rfl

end Checks

def h100 : MemorySystem where
  numNode := 1
  numDevice := 8
  memoryCapacity := 80 * 1024 * 1024 * 1024
  exitOutOfMemory := false
  memCapLimit := true

def llama4Scout (inputLen outputLen : ℤ) : SizedModel where
  maxSeqLen := 10485760
  inputLen := inputLen
  outputLen := outputLen
  neTpDg := 8
  eTpDg := 1
  numRoutedExpert := 16
  topK := 1
  numLayers := 48
  hiddenDim := 5120
  headDim := 128
  numHeads := 40
  numKvHeads := 8
  expertIntermediateDim := 8192
  numSharedExpert := 1
  modelName := "llama4_scout"

theorem llama4Scout_wellFormed {inputLen outputLen : ℤ} (hin : 0 ≤ inputLen)
    (hout : 0 ≤ outputLen) : (llama4Scout inputLen outputLen).WellFormed where
  inputLen := hin
  outputLen := hout
  numLayers := by simp [llama4Scout]
  headDim := by simp [llama4Scout]
  numKvHeads := by simp [llama4Scout]
  kvLoraRank := by simp [llama4Scout]
  qkRopeHeadDim := by simp [llama4Scout]
  precisionByte := by simp [llama4Scout]
  neTpDg := by simp [llama4Scout]

end LlmSystem
