import LlmSystem.Lib.Blocks
import LlmSystem.Module.MoeTraffic
import Mathlib.Algebra.BigOperators.Field
import Mathlib.Algebra.Order.Field.Rat
import Mathlib.Tactic.FieldSimp
import Mathlib.Tactic.LinearCombination
import Mathlib.Tactic.Ring
import Mathlib.Tactic.Zify

/-!
What all devices send against what all devices receive. A device of one data-parallel group
sends to devices, but receives from groups, so the two totals count a transfer differently.
-/
namespace LlmSystem

open Finset

/-- Near and far tokens together. -/
def tokenTotal (tokens : ℕ × ℕ) : ℕ := tokens.1 + tokens.2

theorem countTokens_from (ranks : List ℕ) (skip near : ℕ → Bool) (tokens : ℕ → ℕ)
    (acc : ℕ × ℕ) :
    (ranks.foldl (fun acc r =>
      if skip r then acc
      else if near r then (acc.1 + tokens r, acc.2)
      else (acc.1, acc.2 + tokens r)) acc).1 +
    (ranks.foldl (fun acc r =>
      if skip r then acc
      else if near r then (acc.1 + tokens r, acc.2)
      else (acc.1, acc.2 + tokens r)) acc).2
    = acc.1 + acc.2 + (ranks.map fun r => if skip r then 0 else tokens r).sum := by
  induction ranks generalizing acc with
  | nil => simp
  | cons r ranks ih =>
    rw [List.foldl_cons, List.map_cons, List.sum_cons, ih]
    split_ifs
    · omega
    · simp only
      omega
    · simp only
      omega

/-- Near or far, every rank that is not skipped counts once. -/
theorem countTokens_total (n : ℕ) (skip near : ℕ → Bool) (tokens : ℕ → ℕ) :
    tokenTotal (countTokens (List.range n) skip near tokens)
      = ∑ r ∈ range n, if skip r then 0 else tokens r := by
  have hfrom := countTokens_from (List.range n) skip near tokens (0, 0)
  rw [Nat.zero_add] at hfrom
  exact (hfrom.trans (Nat.zero_add _)).trans (Blocks.list_sum_range n _)

namespace CommSize

theorem total_ofTokens (tokens : ℕ × ℕ) (k precision : ℕ) :
    (ofTokens tokens k precision).total = (tokenTotal tokens : ℚ) * k * precision := by
  unfold ofTokens total tokenTotal
  push_cast
  ring

theorem total_div (s : CommSize) (degree : ℕ) : (s.div degree).total = s.total / degree := by
  unfold div total
  ring

theorem total_scale (s : CommSize) (n : ℕ) : (s.scale n).total = s.total * n := by
  unfold scale total
  ring

end CommSize

section Totals
variable (c : MoeConfig) (runningQueue : List BatchedSequence)

/-- Tokens the batch `dp` routes to the experts of the device `rank`. -/
def routed (dp rank : ℕ) : ℕ := tokensFor runningQueue dp (c.commExperts rank)

/-- All tokens that a batch routes across data-parallel groups, counted per device. -/
def crossTokens : ℕ :=
  ∑ dst ∈ range c.totalNumDevice, ∑ dp ∈ range (c.totalNumDevice / c.neTpDg),
    if dp = dst / c.neTpDg then 0 else routed c runningQueue dp dst

/-- Tokens that the batch of a device routes to the device itself. -/
def ownTokens : ℕ :=
  ∑ rank ∈ range c.totalNumDevice, routed c runningQueue (rank / c.neTpDg) rank

/-- All routed tokens of all batches. -/
def allTokens : ℕ :=
  ∑ dp ∈ range (c.totalNumDevice / c.neTpDg),
    tokensFor runningQueue dp (List.range c.numRoutedExpert)

variable {c} {runningQueue}

theorem scatter_sendTokens_total (hne : 0 < c.neTpDg) (src : ℕ) :
    tokenTotal (MoEScatter.sendTokens c runningQueue src)
      = ∑ dst ∈ range c.totalNumDevice,
          if dst / c.neTpDg = src / c.neTpDg then 0
          else routed c runningQueue (src / c.neTpDg) dst := by
  unfold MoEScatter.sendTokens
  rw [countTokens_total]
  apply sum_congr rfl
  intro dst _
  simp only [MoEScatter.tpSharingDeviceList, MoeConfig.deviceList, decide_eq_true_eq,
    Blocks.mem_block hne]
  rfl

theorem scatter_receiveTokens_total (dst : ℕ) :
    tokenTotal (MoEScatter.receiveTokens c runningQueue dst)
      = ∑ dp ∈ range (c.totalNumDevice / c.neTpDg),
          if dp = dst / c.neTpDg then 0 else routed c runningQueue dp dst := by
  unfold MoEScatter.receiveTokens
  rw [countTokens_total]
  apply sum_congr rfl
  intro dp _
  simp only [decide_eq_true_eq]
  rfl

/-- Each transfer to a device is sent by every device of the source group, and received
once. -/
theorem scatter_send_eq (hne : 0 < c.neTpDg) (hdvd : c.neTpDg ∣ c.totalNumDevice) :
    ∑ src ∈ range c.totalNumDevice, (tokenTotal (MoEScatter.sendTokens c runningQueue src))
      = c.neTpDg * crossTokens c runningQueue := by
  have hsplit : c.totalNumDevice / c.neTpDg * c.neTpDg = c.totalNumDevice :=
    Nat.div_mul_cancel hdvd
  have hdiv := Blocks.sum_div hne (c.totalNumDevice / c.neTpDg) fun dp =>
    ∑ dst ∈ range c.totalNumDevice,
      if dst / c.neTpDg = dp then 0 else routed c runningQueue dp dst
  rw [hsplit, smul_eq_mul] at hdiv
  rw [sum_congr rfl fun src _ => scatter_sendTokens_total hne src, hdiv, sum_comm]
  unfold crossTokens
  refine congrArg _ (sum_congr rfl fun dst _ => sum_congr rfl fun dp _ => ?_)
  simp only [eq_comm]

theorem scatter_receive_eq :
    ∑ dst ∈ range c.totalNumDevice, tokenTotal (MoEScatter.receiveTokens c runningQueue dst)
      = crossTokens c runningQueue :=
  sum_congr rfl fun dst _ => scatter_receiveTokens_total dst

theorem gather_receiveTokens_total (he : 0 < c.eTpDg) (dst : ℕ) :
    tokenTotal (MoEGather.receiveTokens c runningQueue dst)
      = ∑ src ∈ range c.totalNumDevice,
          if src / c.eTpDg = dst / c.eTpDg then 0
          else routed c runningQueue (dst / c.neTpDg) src := by
  unfold MoEGather.receiveTokens
  rw [countTokens_total]
  apply sum_congr rfl
  intro src _
  simp only [MoEGather.eTpSharingDeviceList, MoeConfig.deviceList, decide_eq_true_eq,
    Blocks.mem_block he]
  rfl

theorem gather_sendTokens_total (src : ℕ) :
    tokenTotal (MoEGather.sendTokens c runningQueue src)
      = ∑ dp ∈ range (c.totalNumDevice / c.neTpDg),
          if dp = src / c.neTpDg then 0 else routed c runningQueue dp src := by
  unfold MoEGather.sendTokens
  rw [countTokens_total]
  apply sum_congr rfl
  intro dp _
  simp only [decide_eq_true_eq]
  rfl

/-- Tokens that the batch `dp` routes to the experts of a group of devices. -/
def groupTokens (c : MoeConfig) (runningQueue : List BatchedSequence) (dp group : ℕ) : ℕ :=
  tokensFor runningQueue dp (List.range' (c.commExpertCount * group) c.commExpertCount)

theorem routed_eq_groupTokens (dp rank : ℕ) :
    routed c runningQueue dp rank = groupTokens c runningQueue dp (rank / c.eTpDg) := by
  unfold routed groupTokens MoeConfig.commExperts
  rw [c.commExpertOffset_eq]

/-- The groups hold all experts, if the devices share them evenly. -/
theorem sum_groupTokens (hdvd : c.eTpDg ∣ c.totalNumDevice)
    (hexperts : c.totalNumDevice ∣ c.numRoutedExpert) (dp : ℕ) :
    ∑ group ∈ range (c.totalNumDevice / c.eTpDg), groupTokens c runningQueue dp group
      = tokensFor runningQueue dp (List.range c.numRoutedExpert) := by
  have hall : c.totalNumDevice / c.eTpDg * c.commExpertCount = c.numRoutedExpert := by
    unfold MoeConfig.commExpertCount
    rw [Nat.mul_comm (c.numRoutedExpert / _), ← Nat.mul_assoc, Nat.div_mul_cancel hdvd,
      Nat.mul_div_cancel' hexperts]
  unfold groupTokens tokensFor
  rw [Blocks.list_sum_range, ← hall, ← Blocks.sum_blocks]
  apply sum_congr rfl
  intro group _
  rw [List.range'_eq_map_range, List.map_map]
  rfl

/-- Outside the group of a device: everything its batch routes, less the group's share. -/
theorem gather_receiveTokens_add (he : 0 < c.eTpDg) (hdvd : c.eTpDg ∣ c.totalNumDevice)
    (hexperts : c.totalNumDevice ∣ c.numRoutedExpert) {dst : ℕ} (hdst : dst < c.totalNumDevice) :
    tokenTotal (MoEGather.receiveTokens c runningQueue dst)
        + c.eTpDg * routed c runningQueue (dst / c.neTpDg) dst
      = c.eTpDg * tokensFor runningQueue (dst / c.neTpDg) (List.range c.numRoutedExpert) := by
  have hsplit : c.totalNumDevice / c.eTpDg * c.eTpDg = c.totalNumDevice :=
    Nat.div_mul_cancel hdvd
  have hgroup : dst / c.eTpDg < c.totalNumDevice / c.eTpDg :=
    Nat.div_lt_of_lt_mul (by rwa [Nat.mul_comm, hsplit])
  have hskip := Blocks.sum_skip_block he hgroup
    (groupTokens c runningQueue (dst / c.neTpDg))
  rw [hsplit, sum_groupTokens hdvd hexperts] at hskip
  rw [gather_receiveTokens_total he, routed_eq_groupTokens]
  simp only [routed_eq_groupTokens]
  exact hskip

theorem gather_receive_eq (hne : 0 < c.neTpDg) (hndvd : c.neTpDg ∣ c.totalNumDevice)
    (he : 0 < c.eTpDg) (hdvd : c.eTpDg ∣ c.totalNumDevice)
    (hexperts : c.totalNumDevice ∣ c.numRoutedExpert) :
    ∑ dst ∈ range c.totalNumDevice, (tokenTotal (MoEGather.receiveTokens c runningQueue dst))
      + c.eTpDg * ownTokens c runningQueue
      = c.eTpDg * (c.neTpDg * allTokens c runningQueue) := by
  have hsplit : c.totalNumDevice / c.neTpDg * c.neTpDg = c.totalNumDevice :=
    Nat.div_mul_cancel hndvd
  have hdiv := Blocks.sum_div hne (c.totalNumDevice / c.neTpDg) fun dp =>
    tokensFor runningQueue dp (List.range c.numRoutedExpert)
  rw [hsplit, smul_eq_mul] at hdiv
  unfold ownTokens allTokens
  rw [← hdiv, mul_sum, mul_sum, ← sum_add_distrib]
  exact sum_congr rfl fun dst hdst =>
    gather_receiveTokens_add he hdvd hexperts (mem_range.mp hdst)

theorem gather_send_eq (hndvd : c.neTpDg ∣ c.totalNumDevice) (he : 0 < c.eTpDg)
    (hdvd : c.eTpDg ∣ c.totalNumDevice)
    (hexperts : c.totalNumDevice ∣ c.numRoutedExpert) :
    ∑ src ∈ range c.totalNumDevice, (tokenTotal (MoEGather.sendTokens c runningQueue src))
      + ownTokens c runningQueue
      = c.eTpDg * allTokens c runningQueue := by
  have hsplit : c.totalNumDevice / c.eTpDg * c.eTpDg = c.totalNumDevice :=
    Nat.div_mul_cancel hdvd
  have hnsplit : c.totalNumDevice / c.neTpDg * c.neTpDg = c.totalNumDevice :=
    Nat.div_mul_cancel hndvd
  have hone : ∀ src ∈ range c.totalNumDevice,
      tokenTotal (MoEGather.sendTokens c runningQueue src)
        + routed c runningQueue (src / c.neTpDg) src
      = ∑ dp ∈ range (c.totalNumDevice / c.neTpDg),
          groupTokens c runningQueue dp (src / c.eTpDg) := by
    intro src hsrc
    have hdp : src / c.neTpDg < c.totalNumDevice / c.neTpDg := by
      refine Nat.div_lt_of_lt_mul ?_
      rw [Nat.mul_comm, hnsplit]
      exact mem_range.mp hsrc
    rw [gather_sendTokens_total, Blocks.sum_skip hdp fun dp => routed c runningQueue dp src]
    simp only [routed_eq_groupTokens]
  unfold ownTokens allTokens
  rw [← sum_add_distrib, sum_congr rfl hone]
  have hdiv := Blocks.sum_div he (c.totalNumDevice / c.eTpDg) fun group =>
    ∑ dp ∈ range (c.totalNumDevice / c.neTpDg), groupTokens c runningQueue dp group
  rw [hsplit, smul_eq_mul] at hdiv
  rw [hdiv, sum_comm]
  exact congrArg _ (sum_congr rfl fun dp _ => sum_groupTokens hdvd hexperts dp)

end Totals

/-! ### Bytes -/

section Bytes
variable {c : MoeConfig} {runningQueue : List BatchedSequence} {k precision : ℕ}

theorem isZero_div_ofTokens (tokens : ℕ × ℕ) (hkp : k * precision ≠ 0) {degree : ℕ}
    (hdeg : 0 < degree) :
    ((CommSize.ofTokens tokens k precision).div degree).IsZero ↔ tokenTotal tokens = 0 := by
  obtain ⟨hk, hp⟩ := Nat.mul_ne_zero_iff.mp hkp
  have hkq : (k : ℚ) ≠ 0 := Nat.cast_ne_zero.mpr hk
  have hpq : (precision : ℚ) ≠ 0 := Nat.cast_ne_zero.mpr hp
  have hdq : (degree : ℚ) ≠ 0 := Nat.cast_ne_zero.mpr hdeg.ne'
  unfold CommSize.IsZero CommSize.div CommSize.ofTokens
  simp only [div_eq_zero_iff, mul_eq_zero, hkq, hpq, hdq, or_false, Nat.cast_eq_zero]
  exact Nat.add_eq_zero_iff.symm

theorem isZero_scale {s : CommSize} {n : ℕ} (hn : n ≠ 0) : (s.scale n).IsZero ↔ s.IsZero := by
  have hnq : (n : ℚ) ≠ 0 := Nat.cast_ne_zero.mpr hn
  unfold CommSize.IsZero CommSize.scale
  simp only [mul_eq_zero, hnq, or_false]

theorem isZero_div {s : CommSize} {n : ℕ} (hn : n ≠ 0) : (s.div n).IsZero ↔ s.IsZero := by
  have hnq : (n : ℚ) ≠ 0 := Nat.cast_ne_zero.mpr hn
  unfold CommSize.IsZero CommSize.div
  simp only [div_eq_zero_iff, hnq, or_false]

theorem bytes_eq_zero_iff (n : ℕ) :
    (n : ℚ) * k * precision = 0 ↔ k * precision = 0 ∨ n = 0 := by
  have hcast : (n : ℚ) * k * precision = (n * (k * precision) : ℕ) := by
    push_cast
    ring
  rw [hcast, Nat.cast_eq_zero, Nat.mul_eq_zero, or_comm]

theorem bytes_inj (hkp : k * precision ≠ 0) (m n : ℕ) :
    (m : ℚ) * k * precision = (n : ℚ) * k * precision ↔ m = n := by
  have hcast : ∀ n : ℕ, (n : ℚ) * k * precision = (n * (k * precision) : ℕ) := by
    intro n
    push_cast
    ring
  rw [hcast, hcast, Nat.cast_inj, Nat.mul_left_inj hkp]

/-- A node of four devices that hold one expert each. -/
def fourDevices (neTpDg eTpDg : ℕ) : MoeConfig where
  numNode := 1
  numDevice := 4
  neTpDg := neTpDg
  eTpDg := eTpDg
  numRoutedExpert := 4

/-- Batches with these tokens for each expert. -/
def batchesOf (tokens : List (List ℕ)) : List BatchedSequence :=
  tokens.map fun t => { BatchedSequence.create t.length 1 with localNumTokenInExpert := t }

end Bytes

/-! ### MoEScatter -/

namespace MoEScatter
variable (c : MoeConfig) (runningQueue : List BatchedSequence)

/-- The batch of the device routes a token to an expert outside its data-parallel group. -/
def Sends (rank : ℕ) : Prop :=
  ∃ dst ∈ range c.totalNumDevice, dst / c.neTpDg ≠ rank / c.neTpDg ∧
    routed c runningQueue (rank / c.neTpDg) dst ≠ 0

/-- Another batch routes a token to an expert of the device. -/
def Receives (rank : ℕ) : Prop :=
  ∃ dp ∈ range (c.totalNumDevice / c.neTpDg), dp ≠ rank / c.neTpDg ∧
    routed c runningQueue dp rank ≠ 0

instance (rank : ℕ) : Decidable (Sends c runningQueue rank) :=
  inferInstanceAs (Decidable (∃ _ ∈ _, _))

instance (rank : ℕ) : Decidable (Receives c runningQueue rank) :=
  inferInstanceAs (Decidable (∃ _ ∈ _, _))

variable {c} {runningQueue} {k precision : ℕ}

theorem sends_iff (hne : 0 < c.neTpDg) (rank : ℕ) : Sends c runningQueue rank ↔
    tokenTotal (sendTokens c runningQueue rank) ≠ 0 := by
  rw [scatter_sendTokens_total hne, Ne, sum_eq_zero_iff]
  unfold Sends
  push Not
  simp only [ne_eq, ite_eq_left_iff, Classical.not_imp]

theorem receives_iff (rank : ℕ) : Receives c runningQueue rank ↔
    tokenTotal (receiveTokens c runningQueue rank) ≠ 0 := by
  rw [scatter_receiveTokens_total, Ne, sum_eq_zero_iff]
  unfold Receives
  push Not
  simp only [ne_eq, ite_eq_left_iff, Classical.not_imp]

theorem crossTokens_eq_zero_iff : crossTokens c runningQueue = 0 ↔
    ∀ rank ∈ range c.totalNumDevice, ¬Receives c runningQueue rank := by
  rw [← scatter_receive_eq, sum_eq_zero_iff]
  simp only [receives_iff, not_not]

theorem sum_sendSize (hne : 0 < c.neTpDg) (hdvd : c.neTpDg ∣ c.totalNumDevice)
    (runningQueue : List BatchedSequence) (k precision : ℕ) :
    ∑ rank ∈ range c.totalNumDevice, (sendSize c runningQueue k precision rank).total
      = (crossTokens c runningQueue : ℚ) * k * precision := by
  have hneq : (c.neTpDg : ℚ) ≠ 0 := Nat.cast_ne_zero.mpr hne.ne'
  have hsum : ((∑ rank ∈ range c.totalNumDevice,
      tokenTotal (sendTokens c runningQueue rank) : ℕ) : ℚ)
      = (c.neTpDg * crossTokens c runningQueue : ℕ) :=
    congrArg _ (scatter_send_eq hne hdvd)
  rw [Nat.cast_sum] at hsum
  unfold sendSize
  simp only [CommSize.total_div, CommSize.total_ofTokens]
  rw [← Finset.sum_div, ← sum_mul, ← sum_mul, hsum]
  push_cast
  field_simp

theorem sum_receiveSize (c : MoeConfig) (runningQueue : List BatchedSequence)
    (k precision : ℕ) :
    ∑ rank ∈ range c.totalNumDevice, (receiveSize c runningQueue k precision rank).total
      = (crossTokens c runningQueue : ℚ) * k * precision / c.neTpDg := by
  have hsum : ((∑ rank ∈ range c.totalNumDevice,
      tokenTotal (receiveTokens c runningQueue rank) : ℕ) : ℚ) = crossTokens c runningQueue :=
    congrArg _ scatter_receive_eq
  rw [Nat.cast_sum] at hsum
  unfold receiveSize
  simp only [CommSize.total_div, CommSize.total_ofTokens]
  rw [← Finset.sum_div, ← sum_mul, ← sum_mul, hsum]

theorem forward_send (rank : ℕ) :
    (forward c runningQueue k precision rank).send = sendSize c runningQueue k precision rank := by
  unfold forward
  dsimp only
  split_ifs <;> rfl

theorem forward_receive (rank : ℕ) :
    (forward c runningQueue k precision rank).receive.total =
      if (sendSize c runningQueue k precision rank).IsZero then 0
      else (receiveSize c runningQueue k precision rank).total := by
  unfold forward
  dsimp only
  split_ifs
  · exact add_zero 0
  · rfl
  · rfl

/-- Tokens received by the devices that get to the receive loop. -/
theorem sum_forward_receive (hne : 0 < c.neTpDg) (hkp : k * precision ≠ 0) :
    ∑ rank ∈ range c.totalNumDevice, (forward c runningQueue k precision rank).receive.total
      = ((∑ rank ∈ range c.totalNumDevice,
          if tokenTotal (sendTokens c runningQueue rank) = 0 then 0
          else tokenTotal (receiveTokens c runningQueue rank) : ℕ) : ℚ)
        * k * precision / c.neTpDg := by
  rw [Nat.cast_sum, sum_mul, sum_mul, Finset.sum_div]
  apply sum_congr rfl
  intro rank _
  have hzero : (sendSize c runningQueue k precision rank).IsZero ↔
      tokenTotal (sendTokens c runningQueue rank) = 0 := isZero_div_ofTokens _ hkp hne
  rw [forward_receive]
  simp only [hzero]
  split_ifs
  · simp
  · simp [receiveSize, CommSize.total_div, CommSize.total_ofTokens]

theorem mul_eq_sum_ite_iff {m : ℕ} (hm : 0 < m) (S : Finset ℕ) (f g : ℕ → ℕ) :
    m * ∑ i ∈ S, f i = (∑ i ∈ S, if g i = 0 then 0 else f i) ↔
      (∀ i ∈ S, f i = 0) ∨ (m = 1 ∧ ∀ i ∈ S, f i ≠ 0 → g i ≠ 0) := by
  have hle : ∀ i ∈ S, (if g i = 0 then 0 else f i) ≤ f i := fun i _ => by
    split_ifs
    · exact Nat.zero_le _
    · exact le_refl _
  have hterm : (∑ i ∈ S, if g i = 0 then 0 else f i) = ∑ i ∈ S, f i ↔
      ∀ i ∈ S, f i ≠ 0 → g i ≠ 0 := by
    rw [sum_eq_sum_iff_of_le hle]
    apply forall₂_congr
    intro i _
    split_ifs with hg
    · simp [hg, eq_comm]
    · simp [hg]
  have hsum := sum_le_sum hle
  constructor
  · intro heq
    by_cases hzero : ∑ i ∈ S, f i = 0
    · exact .inl (sum_eq_zero_iff.mp hzero)
    · right
      have hone : m = 1 := by
        by_contra hne
        have htwo : 2 * ∑ i ∈ S, f i ≤ m * ∑ i ∈ S, f i := Nat.mul_le_mul_right _ (by omega)
        omega
      rw [hone, Nat.one_mul] at heq
      exact ⟨hone, hterm.mp heq.symm⟩
  · rintro (hzero | ⟨rfl, hall⟩)
    · rw [sum_eq_zero hzero] at hsum ⊢
      omega
    · rw [Nat.one_mul, hterm.mpr hall]

end MoEScatter

/-! ### MoEGather -/

namespace MoEGather
variable (c : MoeConfig) (runningQueue : List BatchedSequence)

/-- The batch of the device routes a token to an expert outside the device's group. -/
def Receives (rank : ℕ) : Prop :=
  ∃ src ∈ range c.totalNumDevice, src / c.eTpDg ≠ rank / c.eTpDg ∧
    routed c runningQueue (rank / c.neTpDg) src ≠ 0

instance (rank : ℕ) : Decidable (Receives c runningQueue rank) :=
  inferInstanceAs (Decidable (∃ _ ∈ _, _))

/-- Tokens at the experts of the device that belong to other batches. -/
def foreignTokens (rank : ℕ) : ℕ :=
  ∑ dp ∈ range (c.totalNumDevice / c.neTpDg),
    if dp = rank / c.neTpDg then 0 else routed c runningQueue dp rank

/-- Tokens at the experts of devices that receive nothing, which return before they send. -/
def skippedTokens : ℕ :=
  ∑ rank ∈ range c.totalNumDevice,
    if Receives c runningQueue rank then 0 else foreignTokens c runningQueue rank

variable {c} {runningQueue} {k precision : ℕ}

theorem receives_iff (he : 0 < c.eTpDg) (rank : ℕ) : Receives c runningQueue rank ↔
    tokenTotal (receiveTokens c runningQueue rank) ≠ 0 := by
  rw [gather_receiveTokens_total he, Ne, sum_eq_zero_iff]
  unfold Receives
  push Not
  simp only [ne_eq, ite_eq_left_iff, Classical.not_imp]

theorem combineFactor_ne_zero : combineFactor c ≠ 0 := by
  unfold combineFactor
  split_ifs <;> decide

theorem sum_receiveSize :
    ∑ rank ∈ range c.totalNumDevice, (receiveSize c runningQueue k precision rank).total
      = ((∑ rank ∈ range c.totalNumDevice,
          tokenTotal (receiveTokens c runningQueue rank) : ℕ) : ℚ) * k * precision
        / c.eTpDg / c.neTpDg * combineFactor c := by
  unfold receiveSize
  simp only [CommSize.total_scale, CommSize.total_div, CommSize.total_ofTokens]
  rw [← sum_mul, ← Finset.sum_div, ← Finset.sum_div, ← sum_mul, ← sum_mul, Nat.cast_sum]

theorem sum_sendSize :
    ∑ rank ∈ range c.totalNumDevice, (sendSize c runningQueue k precision rank).total
      = ((∑ rank ∈ range c.totalNumDevice,
          tokenTotal (sendTokens c runningQueue rank) : ℕ) : ℚ) * k * precision / c.neTpDg := by
  unfold sendSize
  simp only [CommSize.total_div, CommSize.total_ofTokens]
  rw [← Finset.sum_div, ← sum_mul, ← sum_mul, Nat.cast_sum]

theorem forward_receive (rank : ℕ) :
    (forward c runningQueue k precision rank).receive
      = receiveSize c runningQueue k precision rank := by
  unfold forward
  dsimp only
  split_ifs <;> rfl

theorem forward_send (rank : ℕ) :
    (forward c runningQueue k precision rank).send.total =
      if (receiveSize c runningQueue k precision rank).IsZero then 0
      else (sendSize c runningQueue k precision rank).total := by
  unfold forward
  dsimp only
  split_ifs
  · exact add_zero 0
  · rfl
  · rfl

theorem sum_forward_send (hne : 0 < c.neTpDg) (he : 0 < c.eTpDg) (hkp : k * precision ≠ 0) :
    ∑ rank ∈ range c.totalNumDevice, (forward c runningQueue k precision rank).send.total
      = ((∑ rank ∈ range c.totalNumDevice,
          if Receives c runningQueue rank then tokenTotal (sendTokens c runningQueue rank) else 0
          : ℕ) : ℚ) * k * precision / c.neTpDg := by
  rw [Nat.cast_sum, sum_mul, sum_mul, Finset.sum_div]
  apply sum_congr rfl
  intro rank _
  have hzero : (receiveSize c runningQueue k precision rank).IsZero ↔
      ¬Receives c runningQueue rank := by
    rw [receives_iff he, not_not, receiveSize, isZero_scale combineFactor_ne_zero,
      isZero_div hne.ne', isZero_div_ofTokens _ hkp he]
  rw [forward_send]
  simp only [hzero]
  split_ifs
  · simp [sendSize, CommSize.total_div, CommSize.total_ofTokens]
  · simp

/-- The tokens a device sends or would have sent. -/
theorem sum_sent_add_skipped :
    (∑ rank ∈ range c.totalNumDevice,
      if Receives c runningQueue rank then tokenTotal (sendTokens c runningQueue rank) else 0)
      + skippedTokens c runningQueue
      = ∑ rank ∈ range c.totalNumDevice, tokenTotal (sendTokens c runningQueue rank) := by
  unfold skippedTokens
  rw [← sum_add_distrib]
  apply sum_congr rfl
  intro rank _
  rw [gather_sendTokens_total]
  split_ifs
  · exact Nat.add_zero _
  · exact Nat.zero_add _

/-- Both sides in tokens, with what they leave out: `x` per expert group, `y` per device. -/
theorem balance_iff {f e n w x y r s : ℕ} (he : 0 < e) (hr : r + e * x = e * (n * w))
    (hs : s + y = e * w) : f * r = e * s ↔ f * (n * w) + y = e * w + f * x := by
  have key : e * (f * (n * w) + y) + e * s = e * (e * w + f * x) + f * r := by
    zify at hr hs ⊢
    linear_combination (e : ℤ) * hs - (f : ℤ) * hr
  constructor
  · intro h
    refine Nat.eq_of_mul_eq_mul_left he ?_
    omega
  · intro h
    rw [h] at key
    omega

/-- Receive and send in bytes agree exactly if they agree in tokens. -/
theorem bytes_balance_iff (hne : 0 < c.neTpDg) (he : 0 < c.eTpDg) (r s f : ℕ) :
    (r : ℚ) * k * precision / c.eTpDg / c.neTpDg * f = (s : ℚ) * k * precision / c.neTpDg ↔
      k * precision = 0 ∨ f * r = c.eTpDg * s := by
  have hneq : (c.neTpDg : ℚ) ≠ 0 := Nat.cast_ne_zero.mpr hne.ne'
  have heq : (c.eTpDg : ℚ) ≠ 0 := Nat.cast_ne_zero.mpr he.ne'
  by_cases hkp : k * precision = 0
  · refine iff_of_true ?_ (.inl hkp)
    rw [(bytes_eq_zero_iff r).mpr (.inl hkp), (bytes_eq_zero_iff s).mpr (.inl hkp)]
    simp
  · simp only [hkp, false_or]
    rw [← bytes_inj hkp]
    push_cast
    constructor
    · intro h
      field_simp at h
      linear_combination h
    · intro h
      field_simp
      linear_combination h

end MoEGather
end LlmSystem
