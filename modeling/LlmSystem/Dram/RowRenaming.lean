import LlmSystem.Dram.Kernels
import Mathlib.Algebra.Order.BigOperators.GroupWithZero.List
import Mathlib.Data.Int.ModEq
import Mathlib.Data.Nat.ModEq
import Mathlib.Tactic.Ring

/-!
Two memory objects of one size that start a whole number of row stripes apart: the kernels
generate the same commands for both, in other rows.
-/
namespace LlmSystem

open Runs

def RamulatorAddrVec.renameRow (ρ : ℤ → ℤ) (v : RamulatorAddrVec) : RamulatorAddrVec :=
  { v with row := ρ v.row }

def PIMCommand.renameRow (ρ : ℤ → ℤ) (p : PIMCommand) : PIMCommand :=
  { p with addrVec := p.addrVec.renameRow ρ }

/-- The same commands in the same order, with rows renamed one-to-one. -/
def RowRenaming (l l' : List PIMCommand) : Prop :=
  ∃ ρ : ℤ → ℤ, Set.InjOn ρ {r | ∃ p ∈ l, p.addrVec.row = r} ∧ l' = l.map (·.renameRow ρ)

namespace RowRenaming

theorem refl (l : List PIMCommand) : RowRenaming l l :=
  ⟨id, Set.injOn_id _, (List.map_id l).symm⟩

/-- The inverse on the rows that occur renames them back. -/
theorem symm {l l' : List PIMCommand} (h : RowRenaming l l') : RowRenaming l' l := by
  obtain ⟨ρ, hinj, rfl⟩ := h
  have hinv : ∀ p ∈ l, Function.invFunOn ρ {r | ∃ p ∈ l, p.addrVec.row = r} (ρ p.addrVec.row)
      = p.addrVec.row := fun p hp => hinj.leftInvOn_invFunOn ⟨p, hp, rfl⟩
  refine ⟨Function.invFunOn ρ {r | ∃ p ∈ l, p.addrVec.row = r}, ?_, ?_⟩
  · rintro _ ⟨p', hp', rfl⟩ _ ⟨q', hq', rfl⟩ heq
    obtain ⟨p, hp, rfl⟩ := List.mem_map.mp hp'
    obtain ⟨q, hq, rfl⟩ := List.mem_map.mp hq'
    have hrow := (hinv p hp).symm.trans (heq.trans (hinv q hq))
    exact congrArg ρ hrow
  · rw [List.map_map]
    refine ((List.map_congr_left fun p hp => ?_).trans (List.map_id l)).symm
    show (p.renameRow ρ).renameRow _ = p
    unfold PIMCommand.renameRow RamulatorAddrVec.renameRow
    dsimp only
    rw [hinv p hp]

end RowRenaming

/-! ### The two mappings -/

section Mappings
variable {c : MemoryConfig}

/-- Rows that fit an `int`. -/
def IntRows : Set ℤ := {r | toInt r = r}

theorem toInt_add_injOn (k : ℤ) : Set.InjOn (fun r => toInt (r + k)) IntRows := by
  intro r hr r' hr' h
  have hmod : toInt r = toInt r' := (Int.bmod_add_cancel_right k).mp h
  exact hr.symm.trans (hmod.trans hr')

theorem addrToVec_shift (hc : c.Valid) {n k : ℕ} {v v' : AddrVec}
    (hv : c.addrToVec n = .ok v) (hv' : c.addrToVec (n + k * c.rowStripe : ℕ) = .ok v') :
    v' = { v with row := toInt (v.row + k) } ∧ v.row ∈ IntRows := by
  rw [c.addrToVec_natCast] at hv hv'
  unfold MemoryConfig.rowStripe at hv'
  rw [Radix.split_add_mul_prod (MemoryConfig.radices_pos hc)] at hv'
  split_ifs at hv with hrow
  split_ifs at hv' with hrow'
  obtain rfl := Except.ok.inj hv
  obtain rfl := Except.ok.inj hv'
  constructor
  · unfold MemoryConfig.ofDigits
    simp only [toInt_toInt_add, Nat.cast_add]
  · simp only [IntRows, Set.mem_ofPred_eq, MemoryConfig.ofDigits, toInt_toInt]

/-- Within one region of `num_row` rows the upper bank bit and the rank stay the same. -/
theorem addrToVecLOGIC_shift (hc : c.Valid) {n k q : ℕ} {v v' : AddrVec}
    (hq : (Radix.split c.radicesLOGIC n).2 / c.numRow = q)
    (hq' : ((Radix.split c.radicesLOGIC n).2 + k) / c.numRow = q)
    (hv : c.addrToVecLOGIC n = .ok v)
    (hv' : c.addrToVecLOGIC (n + k * c.rowStripeLOGIC : ℕ) = .ok v') :
    v' = { v with row := v.row + k } := by
  rw [c.addrToVecLOGIC_natCast hc.numRank_pos] at hv hv'
  unfold MemoryConfig.rowStripeLOGIC at hv'
  rw [Radix.split_add_mul_prod (MemoryConfig.radicesLOGIC_pos hc)] at hv'
  obtain rfl := Except.ok.inj hv
  obtain rfl := Except.ok.inj hv'
  unfold MemoryConfig.ofDigitsLOGIC
  have hrow : ((Radix.split c.radicesLOGIC n).2 + k) % c.numRow
      = (Radix.split c.radicesLOGIC n).2 % c.numRow + k := by
    have hdiv := Nat.div_add_mod (Radix.split c.radicesLOGIC n).2 c.numRow
    have hdiv' := Nat.div_add_mod ((Radix.split c.radicesLOGIC n).2 + k) c.numRow
    rw [hq] at hdiv
    rw [hq'] at hdiv'
    omega
  simp only [hq, hq', hrow, Nat.cast_add]

theorem map_eq_ok {α β : Type} {f : α → β} {x : Except String α} {b : β} (h : x.map f = .ok b) :
    ∃ a, x = .ok a ∧ f a = b := by
  cases x with
  | error e => cases h
  | ok a => exact ⟨a, rfl, Except.ok.inj h⟩

theorem getAddrVec_shift (hc : c.Valid) {a k b : ℕ} {v v' : RamulatorAddrVec}
    (hv : c.getAddrVec a b = .ok v)
    (hv' : c.getAddrVec (a + k * c.rowStripe : ℕ) b = .ok v') :
    v' = v.renameRow (fun r => toInt (r + k)) ∧ v.row ∈ IntRows := by
  have haddr : ((a + k * c.rowStripe : ℕ) : ℤ) + b * c.granul
      = ((a + b * c.granul) + k * c.rowStripe : ℕ) := by
    push_cast
    ring
  unfold MemoryConfig.getAddrVec at hv hv'
  rw [haddr] at hv'
  obtain ⟨w, hw, rfl⟩ := map_eq_ok hv
  obtain ⟨w', hw', rfl⟩ := map_eq_ok hv'
  obtain ⟨rfl, hrow⟩ := addrToVec_shift hc hw hw'
  exact ⟨rfl, hrow⟩

theorem getAddrVecLOGIC_shift (hc : c.Valid) {a k b q : ℕ} {v v' : RamulatorAddrVec}
    (hlo : q * (c.rowStripeLOGIC * c.numRow) ≤ a)
    (hhi : a + k * c.rowStripeLOGIC + b * c.granul < (q + 1) * (c.rowStripeLOGIC * c.numRow))
    (hv : c.getAddrVecLOGIC a b = .ok v)
    (hv' : c.getAddrVecLOGIC (a + k * c.rowStripeLOGIC : ℕ) b = .ok v') :
    v' = v.renameRow (· + k) := by
  have haddr : ((a + k * c.rowStripeLOGIC : ℕ) : ℤ) + b * c.granul
      = ((a + b * c.granul) + k * c.rowStripeLOGIC : ℕ) := by
    push_cast
    ring
  have hpos : 0 < c.rowStripeLOGIC := List.prod_pos (MemoryConfig.radicesLOGIC_pos hc)
  have hregion : ∀ n, q * (c.rowStripeLOGIC * c.numRow) ≤ n →
      n < (q + 1) * (c.rowStripeLOGIC * c.numRow) → n / c.rowStripeLOGIC / c.numRow = q := by
    intro n hn hn'
    rw [Nat.div_div_eq_div_mul]
    exact Nat.div_eq_of_lt_le hn hn'
  unfold MemoryConfig.getAddrVecLOGIC at hv hv'
  rw [haddr] at hv'
  obtain ⟨w, hw, rfl⟩ := map_eq_ok hv
  obtain ⟨w', hw', rfl⟩ := map_eq_ok hv'
  obtain rfl : w' = _ := by
    apply addrToVecLOGIC_shift hc (q := q) ?_ ?_ hw hw'
    · rw [Radix.split_snd]
      exact hregion _ (by omega) (by omega)
    · rw [Radix.split_snd, ← MemoryConfig.rowStripeLOGIC, ← Nat.add_mul_div_right _ _ hpos]
      exact hregion _ (by omega) (by omega)
  rfl

end Mappings

/-- Starts a whole number of row stripes apart; with the logic-die mapping, both in the same
rank and upper bank. -/
structure RowAligned (c : MemoryConfig) (type : ProcessorType) (o o' : MemoryObject) : Prop where
  size_eq : o.size = o'.size
  nonneg : 0 ≤ o.address
  nonneg' : 0 ≤ o'.address
  aligned : type ≠ .logic → o.address ≡ o'.address [ZMOD c.rowStripe]
  alignedLOGIC : type = .logic → o.address ≡ o'.address [ZMOD c.rowStripeLOGIC]
  region : type = .logic → ∃ q : ℕ,
    (q * (c.rowStripeLOGIC * c.numRow) ≤ o.address ∧
      o.address + o.size ≤ (q + 1) * (c.rowStripeLOGIC * c.numRow)) ∧
    q * (c.rowStripeLOGIC * c.numRow) ≤ o'.address ∧
      o'.address + o'.size ≤ (q + 1) * (c.rowStripeLOGIC * c.numRow)

theorem RowAligned.symm {c : MemoryConfig} {type : ProcessorType} {o o' : MemoryObject}
    (h : RowAligned c type o o') : RowAligned c type o' o where
  size_eq := h.size_eq.symm
  nonneg := h.nonneg'
  nonneg' := h.nonneg
  aligned ht := (h.aligned ht).symm
  alignedLOGIC ht := (h.alignedLOGIC ht).symm
  region ht := by
    obtain ⟨q, ho, ho'⟩ := h.region ht
    exact ⟨q, ho', ho⟩

/-! ### The kernels -/

/-- Kernels choose bundles without looking at the row. -/
def RowBlind (keep : RamulatorAddrVec → Bool) : Prop := ∀ ρ v, keep (v.renameRow ρ) = keep v

theorem vectors_rename {f f' : ℕ → Except String RamulatorAddrVec} {ρ : ℤ → ℤ} {S : Set ℤ}
    {bs : List ℕ} {vs vs' : List RamulatorAddrVec}
    (hshift : ∀ b ∈ bs, ∀ v v', f b = .ok v → f' b = .ok v' → v' = v.renameRow ρ ∧ v.row ∈ S)
    (hvs : List.Forall₂ (fun b v => f b = .ok v) bs vs)
    (hvs' : List.Forall₂ (fun b v => f' b = .ok v) bs vs') :
    vs' = vs.map (·.renameRow ρ) ∧ ∀ v ∈ vs, v.row ∈ S := by
  induction hvs generalizing vs' with
  | nil =>
    cases hvs'
    exact ⟨rfl, by simp⟩
  | cons hv _ ih =>
    obtain ⟨hhead, htail⟩ := List.forall_mem_cons.mp hshift
    cases hvs' with
    | cons hv' hrest =>
      obtain ⟨rfl, hrow⟩ := hhead _ _ hv hv'
      obtain ⟨rfl, hrows⟩ := ih htail hrest
      exact ⟨rfl, List.forall_mem_cons.mpr ⟨hrow, hrows⟩⟩

theorem bundleLoop_rename {c : MemoryConfig} {type : ProcessorType} {o o' : MemoryObject}
    {ρ : ℤ → ℤ} {S : Set ℤ} (hsize : o.size = o'.size)
    (hshift : ∀ b < o.getBundleSize c, ∀ v v', o.getAddrVec c b type = .ok v →
      o'.getAddrVec c b type = .ok v' → v' = v.renameRow ρ ∧ v.row ∈ S)
    (hinj : Set.InjOn ρ S) {keep : RamulatorAddrVec → Bool} (hkeep : RowBlind keep)
    {t : PIMCommandType} {op : PIMOperandType} {d : DRAMRequestType} {l l' : List PIMCommand}
    (h : bundleLoop c o type keep (fun v => ⟨t, op, v, d⟩) [] = .ok l)
    (h' : bundleLoop c o' type keep (fun v => ⟨t, op, v, d⟩) [] = .ok l') :
    RowRenaming l l' := by
  obtain ⟨vs, hvs, rfl⟩ := bundleLoop_ok h
  obtain ⟨vs', hvs', rfl⟩ := bundleLoop_ok h'
  have hbundles : o'.getBundleSize c = o.getBundleSize c := by
    unfold MemoryObject.getBundleSize
    rw [hsize]
  rw [hbundles] at hvs'
  obtain ⟨rfl, hrows⟩ := vectors_rename (fun b hb => hshift b (List.mem_range.mp hb)) hvs hvs'
  refine ⟨ρ, hinj.mono ?_, ?_⟩
  · rintro r ⟨p, hp, rfl⟩
    obtain ⟨v, hv, rfl⟩ := List.mem_map.mp ((List.nil_append _).symm ▸ hp)
    exact hrows v (List.mem_of_mem_filter hv)
  · have hfilter : keep ∘ (·.renameRow ρ) = keep := funext fun v => hkeep ρ v
    rw [List.nil_append, List.nil_append, List.filter_map, hfilter, List.map_map, List.map_map]
    rfl

/-- The one direction: the second object starts behind the first. -/
theorem bundleLoop_aligned_le {c : MemoryConfig} (hc : c.Valid) {type : ProcessorType}
    {o o' : MemoryObject} (ho : RowAligned c type o o') (hle : o.address ≤ o'.address)
    {keep : RamulatorAddrVec → Bool} (hkeep : RowBlind keep)
    {t : PIMCommandType} {op : PIMOperandType} {d : DRAMRequestType} {l l' : List PIMCommand}
    (h : bundleLoop c o type keep (fun v => ⟨t, op, v, d⟩) [] = .ok l)
    (h' : bundleLoop c o' type keep (fun v => ⟨t, op, v, d⟩) [] = .ok l') :
    RowRenaming l l' := by
  obtain ⟨address, size⟩ := o
  obtain ⟨address', size'⟩ := o'
  obtain ⟨a, rfl⟩ := Int.eq_ofNat_of_zero_le ho.nonneg
  obtain ⟨a', rfl⟩ := Int.eq_ofNat_of_zero_le ho.nonneg'
  have haa' : a ≤ a' := Int.ofNat_le.mp hle
  by_cases htype : type = .logic
  · obtain ⟨k, hk⟩ : ∃ k, a' = a + k * c.rowStripeLOGIC := by
      have hmod : a ≡ a' [MOD c.rowStripeLOGIC] :=
        Int.natCast_modEq_iff.mp (ho.alignedLOGIC htype)
      obtain ⟨k, hk⟩ := (Nat.modEq_iff_dvd' haa').mp hmod
      exact ⟨k, by rw [Nat.mul_comm k, ← hk]; omega⟩
    subst hk
    obtain ⟨q, ⟨hlo, _⟩, _, hhi⟩ := ho.region htype
    refine bundleLoop_rename (ρ := (· + k)) (S := Set.univ) ho.size_eq ?_ ?_ hkeep h h'
    · intro b hb v v' hv hv'
      unfold MemoryObject.getAddrVec at hv hv'
      rw [if_pos htype] at hv hv'
      have hbundle : b * c.granul < size' := by
        have hsize : size = size' := ho.size_eq
        have hpos := hc.granul_pos
        have hnext := (Nat.le_div_iff_mul_le hpos).mp (Nat.succ_le_of_lt hb)
        simp only [Nat.succ_mul] at hnext
        omega
      have hstart : q * (c.rowStripeLOGIC * c.numRow) ≤ a := Int.ofNat_le.mp (by simpa using hlo)
      have hend : a + k * c.rowStripeLOGIC + size' ≤ (q + 1) * (c.rowStripeLOGIC * c.numRow) :=
        Int.ofNat_le.mp (by simpa using hhi)
      exact ⟨getAddrVecLOGIC_shift hc hstart (by omega) hv hv', trivial⟩
    · intro r _ r' _ hr
      exact add_right_cancel hr
  · obtain ⟨k, hk⟩ : ∃ k, a' = a + k * c.rowStripe := by
      have hmod : a ≡ a' [MOD c.rowStripe] := Int.natCast_modEq_iff.mp (ho.aligned htype)
      obtain ⟨k, hk⟩ := (Nat.modEq_iff_dvd' haa').mp hmod
      exact ⟨k, by rw [Nat.mul_comm k, ← hk]; omega⟩
    subst hk
    refine bundleLoop_rename (ρ := fun r => toInt (r + k)) (S := IntRows) ho.size_eq ?_
      (toInt_add_injOn k) hkeep h h'
    intro b _ v v' hv hv'
    unfold MemoryObject.getAddrVec at hv hv'
    rw [if_neg htype] at hv hv'
    exact getAddrVec_shift hc hv hv'

theorem bundleLoop_aligned {c : MemoryConfig} (hc : c.Valid) {type : ProcessorType}
    {o o' : MemoryObject} (ho : RowAligned c type o o') {keep : RamulatorAddrVec → Bool}
    (hkeep : RowBlind keep) {t : PIMCommandType} {op : PIMOperandType} {d : DRAMRequestType}
    {l l' : List PIMCommand}
    (h : bundleLoop c o type keep (fun v => ⟨t, op, v, d⟩) [] = .ok l)
    (h' : bundleLoop c o' type keep (fun v => ⟨t, op, v, d⟩) [] = .ok l') :
    RowRenaming l l' := by
  rcases le_total o.address o'.address with hle | hle
  · exact bundleLoop_aligned_le hc ho hle hkeep h h'
  · exact (bundleLoop_aligned_le hc ho.symm hle hkeep h' h).symm

end LlmSystem
