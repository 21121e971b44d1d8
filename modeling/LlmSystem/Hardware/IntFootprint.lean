import LlmSystem.Hardware.Footprint

/-! The memory footprint as `checkMemorySize` and `checkHeteroMemorySize` compute it, partly in
`int` and partly in `double`, and where it is the exact one. -/
namespace LlmSystem

open Overflow

namespace IntFootprint

/-! ### Dimensions that an `int` holds -/

/-- What the local variables stand for. -/
structure Dims where
  neTpDg : ℕ
  /-- Of a device, routed and shared. -/
  experts : ℕ
  hiddenDim : ℕ
  qLoraRank : ℕ
  kvLoraRank : ℕ
  qkRopeHeadDim : ℕ
  headDim : ℕ
  numHeads : ℕ
  expertIntermediateDim : ℕ
  precisionByte : ℕ
  neTpDg_pos : 0 < neTpDg
  hiddenDim_pos : 0 < hiddenDim
  headDim_pos : 0 < headDim
  numHeads_pos : 0 < numHeads
  precisionByte_pos : 0 < precisionByte
  neTpDg_lt : neTpDg < 2 ^ 31
  experts_lt : experts < 2 ^ 31
  hiddenDim_lt : hiddenDim < 2 ^ 31
  qkRopeHeadDim_lt : qkRopeHeadDim < 2 ^ 31
  headDim_lt : headDim < 2 ^ 31
  numHeads_lt : numHeads < 2 ^ 31
  expertIntermediateDim_lt : expertIntermediateDim < 2 ^ 31
  precisionByte_lt : precisionByte < 2 ^ 31

structure Locals.Stands (v : Locals) (d : Dims) : Prop where
  neTpDg : v.neTpDg = int d.neTpDg
  experts : v.numRoutedExpertPerDevice + v.numSharedExpert = int d.experts
  hiddenDim : v.hiddenDim = int d.hiddenDim
  qLoraRank : v.qLoraRank = int d.qLoraRank
  kvLoraRank : v.kvLoraRank = int d.kvLoraRank
  qkRopeHeadDim : v.qkRopeHeadDim = int d.qkRopeHeadDim
  headDim : v.headDim = int d.headDim
  numHeads : v.numHeads = int d.numHeads
  expertIntermediateDim : v.expertIntermediateDim = int d.expertIntermediateDim
  precisionByte : v.precisionByte = int d.precisionByte

namespace Dims
variable (d : Dims)

def projections (t : ℕ) : ℕ :=
  t * d.hiddenDim + t * d.qLoraRank + t * d.kvLoraRank + t * d.qkRopeHeadDim

def queries (t : ℕ) : ℚ :=
  t * (((3 * d.qkRopeHeadDim + d.headDim) * d.numHeads : ℕ) / d.neTpDg : ℚ)

def expertSum (t : ℕ) (first : ℕ) : ℕ :=
  d.experts * (first + t * d.expertIntermediateDim + t * d.hiddenDim)

/-- The products for the experts of a device. -/
def ExpertsFit (t : ℕ) (fits : Prop) : Prop :=
  d.experts = 0 ∨ fits ∧ t * d.expertIntermediateDim < 2 ^ 31 ∧ t * d.hiddenDim < 2 ^ 31

theorem le_projections (t : ℕ) : t * d.hiddenDim ≤ d.projections t := by
  unfold projections
  omega

end Dims

namespace Locals.Stands
variable {v : Locals} {d : Dims} (h : v.Stands d)
include h

theorem reads_projections (t : ℕ) :
    Reads (double (v.projections (int t))) (d.projections t) (d.projections t < 2 ^ 31) := by
  unfold projections
  rw [h.hiddenDim, h.qLoraRank, h.kvLoraRank, h.qkRopeHeadDim]
  simp only [int_mul, int_add]
  exact reads_int _

theorem reads_queries (t : ℕ) : Reads (v.queries (int t)) (d.queries t) (t < 2 ^ 31) := by
  have hpos : (3 * d.qkRopeHeadDim + d.headDim) * d.numHeads ≠ 0 := by
    have hhead := d.headDim_pos
    have hheads := d.numHeads_pos
    positivity
  have heq : v.queries (int t)
      = double (int t) * (((3 * d.qkRopeHeadDim + d.headDim) * d.numHeads : ℕ) / d.neTpDg : ℚ) := by
    unfold queries
    rw [h.qkRopeHeadDim, h.headDim, h.numHeads, h.neTpDg, double_int d.qkRopeHeadDim_lt,
      double_int d.headDim_lt, double_int d.numHeads_lt, double_int d.neTpDg_lt]
    push_cast
    ring
  rw [heq]
  exact (reads_int_mul_div t _ d.neTpDg_pos d.neTpDg_lt).congr (or_iff_right hpos)

/-- What is shared by the devices of a tensor-parallel group. -/
theorem reads_shared (n : ℕ) :
    Reads (double (int n / v.neTpDg)) (n / d.neTpDg : ℕ) (n < 2 ^ 31) := by
  rw [h.neTpDg]
  exact (Holds.div_int n d.neTpDg_pos d.neTpDg_lt).reads

theorem reads_experts {x : Int32} {t first : ℕ} {a : ℚ} {fits fits' : Prop} (hx : Holds x t fits)
    (hfirst : Reads a (first : ℚ) fits')
    (himp : fits ∧ t * d.expertIntermediateDim < 2 ^ 31 → fits') :
    Reads (v.experts x a) (d.expertSum t first : ℕ) (d.ExpertsFit t fits) := by
  have hhidden := d.hiddenDim_pos
  have hgate := (hx.mul_int d.expertIntermediateDim_lt).reads
  have hdown := (hx.mul_int d.hiddenDim_lt).reads
  have hsum := ((hfirst.add hgate).add hdown).natCast_mul d.experts
  have heq : v.experts x a = d.experts * (a + double (x * int d.expertIntermediateDim)
      + double (x * int d.hiddenDim)) := by
    unfold Locals.experts
    rw [h.experts, h.expertIntermediateDim, h.hiddenDim, double_int d.experts_lt]
  rw [heq]
  unfold Dims.expertSum Dims.ExpertsFit
  push_cast at hsum ⊢
  refine hsum.congr (or_congr_right ?_)
  constructor
  · rintro ⟨⟨-, hgate⟩, hdown⟩
    obtain ⟨hfits, hlt⟩ := hdown.resolve_left hhidden.ne'
    refine ⟨hfits, ?_, hlt⟩
    rcases hgate with hzero | hgate
    · simp [hzero]
    · exact hgate.2
  · rintro ⟨hfits, hgate, hdown⟩
    exact ⟨⟨himp ⟨hfits, hgate⟩, .inr ⟨hfits, hgate⟩⟩, .inr ⟨hfits, hdown⟩⟩

theorem reads_gatedExperts {x : Int32} {t : ℕ} {fits : Prop} (hx : Holds x t fits) :
    Reads (v.experts x (2 * double (x * v.expertIntermediateDim)))
      (d.expertSum t (2 * (t * d.expertIntermediateDim)) : ℕ) (d.ExpertsFit t fits) := by
  have hgate : Reads (2 * double (x * int d.expertIntermediateDim))
      ((2 * (t * d.expertIntermediateDim) : ℕ) : ℚ)
      (d.expertIntermediateDim = 0 ∨ fits ∧ t * d.expertIntermediateDim < 2 ^ 31) := by
    rw [mul_comm 2 (double _), Nat.mul_comm 2, Nat.cast_mul]
    exact (hx.mul_int d.expertIntermediateDim_lt).reads.mul one_le_two
  rw [h.expertIntermediateDim]
  exact h.reads_experts hx hgate .inr

end Locals.Stands

/-- The fields that the exact formulas read. -/
structure Dims.Of (d : Dims) (c : MemorySystem) (m : SizedModel) : Prop where
  neTpDg : m.neTpDg = d.neTpDg
  experts : numRoutedExpertPerDevice c m + m.numSharedExpert = d.experts
  hiddenDim : m.hiddenDim = d.hiddenDim
  qLoraRank : m.qLoraRank = d.qLoraRank
  kvLoraRank : m.kvLoraRank = d.kvLoraRank
  qkRopeHeadDim : m.qkRopeHeadDim = d.qkRopeHeadDim
  headDim : m.headDim = d.headDim
  numHeads : m.numHeads = d.numHeads
  expertIntermediateDim : m.expertIntermediateDim = d.expertIntermediateDim
  precisionByte : m.precisionByte = d.precisionByte

/-- The products for `t` tokens outside the experts. -/
structure Dims.TokensFit (d : Dims) (useAbsorb : Bool) (t : ℕ) : Prop where
  projections : d.projections t < 2 ^ 31
  latent : useAbsorb = true → t * d.numHeads * d.kvLoraRank < 2 ^ 31
  heads : t * d.numHeads * d.headDim < 2 ^ 31

theorem Dims.TokensFit.iff {d : Dims} {useAbsorb : Bool} {t : ℕ} :
    d.TokensFit useAbsorb t ↔ d.projections t < 2 ^ 31 ∧ t < 2 ^ 31 ∧ t * d.hiddenDim < 2 ^ 31 ∧
      (useAbsorb = true → t * d.numHeads * d.kvLoraRank < 2 ^ 31) ∧
      t * d.numHeads * d.headDim < 2 ^ 31 := by
  constructor
  · rintro ⟨hproj, hlatent, hheads⟩
    have hhidden := (d.le_projections t).trans_lt hproj
    have htoken := (Nat.le_mul_of_pos_right t d.hiddenDim_pos).trans_lt hhidden
    exact ⟨hproj, htoken, hhidden, hlatent, hheads⟩
  · rintro ⟨hproj, -, -, hlatent, hheads⟩
    exact ⟨hproj, hlatent, hheads⟩

section Formulas
variable {c : MemorySystem} {m : SizedModel} {s : Scheduler} {v : Locals} {d : Dims} {b e a : ℕ}
  {fits : Prop} (h : v.Stands d) (hof : d.Of c m) (hb : s.batchSizePerDp = b)
  (hbatch : v.batchSizePerDp = int b) (he : expertBatchSize m s = e)
  (hexpert : Holds v.expertBatchSize e fits) (ha : totalLen m = a)
  (hlen : v.totalLen = int a)

include h hof hb hbatch he hexpert ha hlen in
theorem reads_decodeAbsorb (hlt : b < 2 ^ 31) :
    Reads v.decodeAbsorb (decodeAbsorbActivation c m s)
      (d.TokensFit true b ∧ (b = 0 ∨ a < 2 ^ 31) ∧ d.ExpertsFit e fits) := by
  have hheads := d.numHeads_pos
  have hprec := d.precisionByte_pos
  have hfirst : Reads (double v.expertBatchSize * 2 * double v.expertIntermediateDim)
      ((e * 2 * d.expertIntermediateDim : ℕ) : ℚ) (d.expertIntermediateDim = 0 ∨ fits) := by
    rw [h.expertIntermediateDim, double_int d.expertIntermediateDim_lt]
    have hreads := (hexpert.reads.mul one_le_two).mul_natCast d.expertIntermediateDim
    exact_mod_cast hreads
  have hscores : double v.batchSizePerDp * 2 * double v.numHeads * double v.totalLen
      / double v.neTpDg = double (int a) * ((b * 2 * d.numHeads : ℕ) / d.neTpDg : ℚ) := by
    rw [hbatch, hlen, h.numHeads, h.neTpDg, double_int hlt, double_int d.numHeads_lt,
      double_int d.neTpDg_lt]
    push_cast
    ring
  have hexact : decodeAbsorbActivation c m s = ((d.projections b : ℕ) + d.queries b
      + (b * d.numHeads * d.kvLoraRank / d.neTpDg : ℕ)
      + a * ((b * 2 * d.numHeads : ℕ) / d.neTpDg : ℚ)
      + (b * d.numHeads * d.kvLoraRank / d.neTpDg : ℕ)
      + (b * d.numHeads * d.headDim / d.neTpDg : ℕ) + (b * d.hiddenDim : ℕ)
      + (d.expertSum e (e * 2 * d.expertIntermediateDim) : ℕ)) * (d.precisionByte : ℕ) := by
    unfold decodeAbsorbActivation moeActivation Dims.projections Dims.queries Dims.expertSum
    dsimp only
    rw [hof.experts, hof.hiddenDim, hof.qLoraRank, hof.kvLoraRank, hof.qkRopeHeadDim, hof.headDim,
      hof.numHeads, hof.neTpDg, hof.expertIntermediateDim, hof.precisionByte, hb, he, ha]
    simp only [← Nat.cast_mul, ← Int.ofNat_tdiv, Int.cast_natCast]
    push_cast
    ring
  unfold Locals.decodeAbsorb
  dsimp only
  rw [hscores, hexact, hbatch, h.numHeads, h.kvLoraRank, h.headDim, h.hiddenDim, h.precisionByte,
    double_int d.precisionByte_lt]
  simp only [int_mul]
  have hreads := ((((((((h.reads_projections b).add (h.reads_queries b)).add
    (h.reads_shared (b * d.numHeads * d.kvLoraRank))).add
    (reads_int_mul_div a (b * 2 * d.numHeads) d.neTpDg_pos d.neTpDg_lt)).add
    (h.reads_shared (b * d.numHeads * d.kvLoraRank))).add
    (h.reads_shared (b * d.numHeads * d.headDim))).add (reads_int (b * d.hiddenDim))).add
    (h.reads_experts hexpert hfirst fun hfits => .inr hfits.1)).mul_natCast d.precisionByte
  rw [h.neTpDg] at hreads ⊢
  refine hreads.congr ?_
  rw [Dims.TokensFit.iff]
  simp only [hprec.ne', hheads.ne', mul_eq_zero, OfNat.ofNat_ne_zero, or_false, false_or]
  tauto

include h hof hb hbatch he hexpert ha hlen in
/-- Keys and values are restored for all tokens of a compressed cache, or for one. -/
theorem reads_decode (hlt : b < 2 ^ 31) {n : ℕ} (hn : n = a ∨ n < 2 ^ 31) :
    Reads (v.decode (double (int n))) (decodeActivation c m s n)
      (d.TokensFit false b ∧ (b = 0 ∨ a < 2 ^ 31) ∧ d.ExpertsFit e fits) := by
  have hheads := d.numHeads_pos
  have hhead := d.headDim_pos
  have hprec := d.precisionByte_pos
  have hcaches : double v.batchSizePerDp * 2 * double (int n) * double v.headDim
      * double v.numHeads / double v.neTpDg
      = double (int n) * ((b * 2 * d.headDim * d.numHeads : ℕ) / d.neTpDg : ℚ) := by
    rw [hbatch, h.numHeads, h.headDim, h.neTpDg, double_int hlt, double_int d.numHeads_lt,
      double_int d.headDim_lt, double_int d.neTpDg_lt]
    push_cast
    ring
  have hscores : double v.batchSizePerDp * 2 * double v.totalLen * double v.numHeads
      / double v.neTpDg = double (int a) * ((b * 2 * d.numHeads : ℕ) / d.neTpDg : ℚ) := by
    rw [hbatch, hlen, h.numHeads, h.neTpDg, double_int hlt, double_int d.numHeads_lt,
      double_int d.neTpDg_lt]
    push_cast
    ring
  have hexact : decodeActivation c m s n = ((d.projections b : ℕ) + d.queries b
      + n * ((b * 2 * d.headDim * d.numHeads : ℕ) / d.neTpDg : ℚ)
      + a * ((b * 2 * d.numHeads : ℕ) / d.neTpDg : ℚ)
      + (b * d.numHeads * d.headDim / d.neTpDg : ℕ) + (b * d.hiddenDim : ℕ)
      + (d.expertSum e (2 * (e * d.expertIntermediateDim)) : ℕ)) * (d.precisionByte : ℕ) := by
    unfold decodeActivation moeActivation Dims.projections Dims.queries Dims.expertSum
    dsimp only
    rw [hof.experts, hof.hiddenDim, hof.qLoraRank, hof.kvLoraRank, hof.qkRopeHeadDim, hof.headDim,
      hof.numHeads, hof.neTpDg, hof.expertIntermediateDim, hof.precisionByte, hb, he, ha]
    simp only [← Nat.cast_mul, ← Int.ofNat_tdiv, Int.cast_natCast]
    push_cast
    ring
  unfold Locals.decode
  dsimp only
  rw [hcaches, hscores, hexact, hbatch, h.numHeads, h.headDim, h.hiddenDim, h.precisionByte,
    double_int d.precisionByte_lt]
  simp only [int_mul]
  have hreads := (((((((h.reads_projections b).add (h.reads_queries b)).add
    (reads_int_mul_div n (b * 2 * d.headDim * d.numHeads) d.neTpDg_pos d.neTpDg_lt)).add
    (reads_int_mul_div a (b * 2 * d.numHeads) d.neTpDg_pos d.neTpDg_lt)).add
    (h.reads_shared (b * d.numHeads * d.headDim))).add (reads_int (b * d.hiddenDim))).add
    (h.reads_gatedExperts hexpert)).mul_natCast d.precisionByte
  refine hreads.congr ?_
  rw [Dims.TokensFit.iff]
  simp only [hprec.ne', hheads.ne', hhead.ne', mul_eq_zero, OfNat.ofNat_ne_zero, or_false,
    false_or, Bool.false_eq_true, false_imp_iff, true_and]
  have hless : (b = 0 ∨ a < 2 ^ 31) → (b = 0 ∨ n < 2 ^ 31) := by
    rintro (hzero | hless)
    · exact .inl hzero
    · exact .inr (hn.elim (fun heq => heq ▸ hless) id)
  tauto

variable {l : ℕ} (hl : m.inputLen = l) (hinput : v.inputLen = int l) (hl' : l < 2 ^ 31)

include hinput hl' hexpert in
/-- The tokens of the experts, which the hidden dimension multiplies again. -/
theorem holds_tokens : ∃ fits', Holds (v.expertBatchSize * v.inputLen) (e * l) fits' ∧
    (d.ExpertsFit (e * l) fits' ↔ d.ExpertsFit (e * l) (l = 0 ∨ fits)) := by
  refine ⟨l = 0 ∨ fits ∧ e * l < 2 ^ 31, hinput ▸ hexpert.mul_int hl', or_congr_right ?_⟩
  have hle := Nat.le_mul_of_pos_right (e * l) d.hiddenDim_pos
  constructor
  · rintro ⟨hfits, hrest⟩
    exact ⟨hfits.imp_right And.left, hrest⟩
  · rintro ⟨hfits, hrest⟩
    exact ⟨hfits.imp_right fun hfits => ⟨hfits, by omega⟩, hrest⟩

include h hof hb hbatch he hexpert hl hinput hl' in
theorem reads_prefillAbsorb : Reads v.prefillAbsorb (prefillAbsorbActivation c m s)
    (d.TokensFit true (b * l) ∧ b * l * d.numHeads * l < 2 ^ 31 ∧
      d.ExpertsFit (e * l) (l = 0 ∨ fits)) := by
  have hprec := d.precisionByte_pos
  obtain ⟨fits', htokens, hiff⟩ := holds_tokens hexpert hinput hl'
  have hscores : Reads (2 * double (int (b * l * d.numHeads * l) / v.neTpDg))
      ((2 * (b * l * d.numHeads * l / d.neTpDg) : ℕ) : ℚ) (b * l * d.numHeads * l < 2 ^ 31) := by
    rw [mul_comm 2 (double _), Nat.mul_comm 2, Nat.cast_mul]
    exact (h.reads_shared _).mul one_le_two
  have hexact : prefillAbsorbActivation c m s = ((d.projections (b * l) : ℕ) + d.queries (b * l)
      + (b * l * d.numHeads * d.kvLoraRank / d.neTpDg : ℕ)
      + (2 * (b * l * d.numHeads * l / d.neTpDg) : ℕ)
      + (b * l * d.numHeads * d.kvLoraRank / d.neTpDg : ℕ)
      + (b * l * d.numHeads * d.headDim / d.neTpDg : ℕ) + (b * l * d.hiddenDim : ℕ)
      + (d.expertSum (e * l) (2 * (e * l * d.expertIntermediateDim)) : ℕ))
        * (d.precisionByte : ℕ) := by
    unfold prefillAbsorbActivation moeActivation Dims.projections Dims.queries Dims.expertSum
    dsimp only
    rw [hof.experts, hof.hiddenDim, hof.qLoraRank, hof.kvLoraRank, hof.qkRopeHeadDim, hof.headDim,
      hof.numHeads, hof.neTpDg, hof.expertIntermediateDim, hof.precisionByte, hb, he, hl]
    simp only [← Nat.cast_mul, ← Int.ofNat_tdiv, Int.cast_natCast]
    push_cast
    ring
  unfold Locals.prefillAbsorb
  dsimp only
  rw [hexact, hbatch, hinput, h.numHeads, h.kvLoraRank, h.headDim, h.hiddenDim, h.precisionByte,
    double_int d.precisionByte_lt]
  rw [hinput] at htokens
  simp only [int_mul]
  have hreads := ((((((((h.reads_projections (b * l)).add (h.reads_queries (b * l))).add
    (h.reads_shared (b * l * d.numHeads * d.kvLoraRank))).add hscores).add
    (h.reads_shared (b * l * d.numHeads * d.kvLoraRank))).add
    (h.reads_shared (b * l * d.numHeads * d.headDim))).add (reads_int (b * l * d.hiddenDim))).add
    (h.reads_gatedExperts htokens)).mul_natCast d.precisionByte
  refine hreads.congr ?_
  rw [Dims.TokensFit.iff, hiff]
  simp only [hprec.ne', false_or]
  tauto

include h hof hb hbatch he hexpert hl hinput hl' in
theorem reads_prefill : Reads v.prefill (prefillActivation c m s)
    (d.TokensFit false (b * l) ∧ b * l * d.numHeads * l < 2 ^ 31 ∧
      d.ExpertsFit (e * l) (l = 0 ∨ fits)) := by
  have hheads := d.numHeads_pos
  have hhead := d.headDim_pos
  have hprec := d.precisionByte_pos
  obtain ⟨fits', htokens, hiff⟩ := holds_tokens hexpert hinput hl'
  have hscores : Reads (2 * double (int (b * l * l * d.numHeads) / v.neTpDg))
      ((2 * (b * l * l * d.numHeads / d.neTpDg) : ℕ) : ℚ) (b * l * l * d.numHeads < 2 ^ 31) := by
    rw [mul_comm 2 (double _), Nat.mul_comm 2, Nat.cast_mul]
    exact (h.reads_shared _).mul one_le_two
  have hcaches : double (int b * int l) * 2 * double v.headDim * double v.numHeads
      / double v.neTpDg
      = double (int (b * l)) * ((2 * d.headDim * d.numHeads : ℕ) / d.neTpDg : ℚ) := by
    rw [int_mul, h.numHeads, h.headDim, h.neTpDg, double_int d.numHeads_lt,
      double_int d.headDim_lt, double_int d.neTpDg_lt]
    push_cast
    ring
  have hexact : prefillActivation c m s = ((d.projections (b * l) : ℕ) + d.queries (b * l)
      + (b * l : ℕ) * ((2 * d.headDim * d.numHeads : ℕ) / d.neTpDg : ℚ)
      + (2 * (b * l * l * d.numHeads / d.neTpDg) : ℕ)
      + (b * l * d.numHeads * d.headDim / d.neTpDg : ℕ) + (b * l * d.hiddenDim : ℕ)
      + (d.expertSum (e * l) (2 * (e * l * d.expertIntermediateDim)) : ℕ))
        * (d.precisionByte : ℕ) := by
    unfold prefillActivation moeActivation Dims.projections Dims.queries Dims.expertSum
    dsimp only
    rw [hof.experts, hof.hiddenDim, hof.qLoraRank, hof.kvLoraRank, hof.qkRopeHeadDim, hof.headDim,
      hof.numHeads, hof.neTpDg, hof.expertIntermediateDim, hof.precisionByte, hb, he, hl]
    simp only [← Nat.cast_mul, ← Int.ofNat_tdiv, Int.cast_natCast]
    push_cast
    ring
  unfold Locals.prefill
  dsimp only
  rw [hbatch, hinput, hcaches, hexact, h.numHeads, h.headDim, h.hiddenDim, h.precisionByte,
    double_int d.precisionByte_lt]
  rw [hinput] at htokens
  simp only [int_mul]
  have hreads := (((((((h.reads_projections (b * l)).add (h.reads_queries (b * l))).add
    (reads_int_mul_div (b * l) (2 * d.headDim * d.numHeads) d.neTpDg_pos d.neTpDg_lt)).add
    hscores).add (h.reads_shared (b * l * d.numHeads * d.headDim))).add
    (reads_int (b * l * d.hiddenDim))).add
    (h.reads_gatedExperts htokens)).mul_natCast d.precisionByte
  refine hreads.congr ?_
  have hcomm : b * l * d.numHeads * l = b * l * l * d.numHeads := by ring
  rw [Dims.TokensFit.iff, hiff, hcomm]
  simp only [hprec.ne', hheads.ne', hhead.ne', mul_eq_zero, OfNat.ofNat_ne_zero, or_false,
    false_or, Bool.false_eq_true, false_imp_iff, true_and]
  tauto

end Formulas

end IntFootprint

end LlmSystem
