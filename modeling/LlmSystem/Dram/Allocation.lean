import LlmSystem.Dram.AddressBijection
import LlmSystem.Dram.Kernels

/-!
`MMapController` as an allocator. Weights are placed one after the other by their sizes in bytes,
while a memory object only addresses the whole granules in its size.
-/
namespace LlmSystem

inductive MMap
  | allChannel | cubeChannel | channel
  deriving DecidableEq, Repr

/-- What `setMemoryObject` reads of a tensor. -/
structure TensorSpec where
  tag : String
  mmap : MMap := .allChannel
  size : ℕ
  deriving DecidableEq, Repr

namespace TensorSpec

def isWeight (t : TensorSpec) : Bool := t.tag != "act" && t.tag != "cache"

end TensorSpec

structure MMapController where
  memoryConfig : MemoryConfig
  startAddrNormal : ℤ := 0

namespace MMapController

/-- Activations and caches are all at address 0. -/
def setNormal (m : MMapController) (t : TensorSpec) : MemoryObject × MMapController :=
  let startAddress := m.startAddrNormal
  if t.isWeight then (⟨startAddress, t.size⟩, { m with startAddrNormal := startAddress + t.size })
  else (⟨0, t.size⟩, m)

/-- Other maps than `ALL_CHANNEL` are ignored. -/
def setMemoryObject (m : MMapController) (t : TensorSpec) :
    Option MemoryObject × MMapController :=
  if t.mmap = .allChannel then
    let (o, m) := m.setNormal t
    (some o, m)
  else (none, m)

/-- The tensors that get a memory object, in the order in which they are set. -/
def allocate : MMapController → List TensorSpec → List (TensorSpec × MemoryObject)
  | _, [] => []
  | m, t :: ts =>
    let (o?, m) := m.setMemoryObject t
    match o? with
    | some o => (t, o) :: allocate m ts
    | none => allocate m ts

/-- The memory objects of the weights. -/
def weightObjects (m : MMapController) (ts : List TensorSpec) : List MemoryObject :=
  ((m.allocate ts).filter (·.1.isWeight)).map (·.2)

/-- The sizes of the weights that are placed. -/
def weightSizes (ts : List TensorSpec) : List ℕ :=
  (ts.filter fun t => t.isWeight && t.mmap == .allChannel).map (·.size)

end MMapController

namespace MemoryObject

/-- Objects of the given sizes, one after the other. -/
def layOut : ℕ → List ℕ → List MemoryObject
  | _, [] => []
  | start, size :: sizes => ⟨start, size⟩ :: layOut (start + size) sizes

end MemoryObject

theorem MMapController.weightObjects_eq (m : MMapController) {start : ℕ}
    (hstart : m.startAddrNormal = start) (ts : List TensorSpec) :
    m.weightObjects ts = MemoryObject.layOut start (weightSizes ts) := by
  induction ts generalizing m start with
  | nil => rfl
  | cons t ts ih =>
    unfold weightObjects allocate setMemoryObject setNormal weightSizes
    by_cases hmap : t.mmap = .allChannel
    · by_cases hweight : t.isWeight = true
      · have hnext : (start : ℤ) + t.size = (start + t.size : ℕ) := by push_cast; rfl
        have hrest := ih { m with startAddrNormal := (start : ℤ) + t.size } hnext
        simp only [hmap, hweight, hstart, if_true]
        simpa [hmap, hweight, MemoryObject.layOut, weightObjects, weightSizes] using hrest
      · have hrest := ih m hstart
        simpa [hmap, hweight, weightObjects, weightSizes] using hrest
    · have hrest := ih m hstart
      simpa [hmap, weightObjects, weightSizes] using hrest

/-! ### Granules -/

namespace MemoryConfig
variable {c : MemoryConfig}

/-- Both halves of the channel number are kept, and the channel of a cube is below their number. -/
theorem toRamulator_injOn {numCube : ℕ} {v v' : AddrVec} (hv : v.InRange c numCube)
    (hv' : v'.InRange c numCube) (h : c.toRamulator v = c.toRamulator v') : v = v' := by
  have hdiv := congrArg RamulatorAddrVec.channel h
  have hmod := congrArg RamulatorAddrVec.pseudochannel h
  unfold toRamulator at hdiv hmod
  dsimp only at hdiv hmod
  have hjoined : (c.numChannel : ℤ) * v.cube + v.channel
      = (c.numChannel : ℤ) * v'.cube + v'.channel := by
    rw [← Int.mul_tdiv_add_tmod ((c.numChannel : ℤ) * v.cube + v.channel) 2, hdiv, hmod,
      Int.mul_tdiv_add_tmod]
  have hpos : (c.numChannel : ℤ) ≠ 0 := by
    have := hv.channel
    omega
  have hcube : ∀ {w : AddrVec}, w.InRange c numCube →
      ((c.numChannel : ℤ) * w.cube + w.channel) / c.numChannel = w.cube := by
    intro w hw
    rw [Int.add_comm, Int.add_mul_ediv_left _ _ hpos, Int.ediv_eq_zero_of_lt hw.channel.1
      hw.channel.2, Int.zero_add]
  have hcubes : v.cube = v'.cube := by rw [← hcube hv, hjoined, hcube hv']
  have hchannels : v.channel = v'.channel := by
    rw [hcubes] at hjoined
    exact Int.add_left_cancel hjoined
  obtain ⟨cube, channel, rank, bankgroup, bank, row, col⟩ := v
  obtain ⟨cube', channel', rank', bankgroup', bank', row', col'⟩ := v'
  injection h
  dsimp only at hcubes hchannels
  subst_vars
  rfl

/-- Two bundles in the memory have one address vector if they are in one granule. -/
theorem getAddrVec_eq_iff (hc : c.Valid) {a a' b b' : ℕ} (h : a + b * c.granul < c.capacity)
    (h' : a' + b' * c.granul < c.capacity) :
    (∃ v, c.getAddrVec a b = .ok v ∧ c.getAddrVec a' b' = .ok v) ↔
      a / c.granul + b = a' / c.granul + b' := by
  obtain ⟨v, hv, hrange⟩ := addrToVec_inRange hc h
  obtain ⟨v', hv', hrange'⟩ := addrToVec_inRange hc h'
  have hvec : c.getAddrVec a b = .ok (c.toRamulator v) := by
    unfold getAddrVec
    rw [show (a : ℤ) + b * c.granul = (a + b * c.granul : ℕ) by push_cast; rfl, hv]
    rfl
  have hvec' : c.getAddrVec a' b' = .ok (c.toRamulator v') := by
    unfold getAddrVec
    rw [show (a' : ℤ) + b' * c.granul = (a' + b' * c.granul : ℕ) by push_cast; rfl, hv']
    rfl
  have hgranules := addrToVec_eq_iff hc h h'
  rw [hv, hv', Nat.add_mul_div_right _ _ hc.granul_pos, Nat.add_mul_div_right _ _ hc.granul_pos]
    at hgranules
  rw [hvec, hvec', ← hgranules]
  constructor
  · rintro ⟨w, hw, hw'⟩
    have hsame := Except.ok.inj (hw.trans hw'.symm)
    rw [toRamulator_injOn hrange hrange' hsame]
  · intro heq
    rw [Except.ok.inj heq]
    exact ⟨_, rfl, rfl⟩

end MemoryConfig

namespace MemoryObject

/-- Every byte of the object is in a granule that one of its bundles addresses. -/
def Covered (c : MemoryConfig) (o : MemoryObject) : Prop :=
  ∀ x : ℤ, o.address ≤ x → x < o.address + o.size →
    ∃ b < o.getBundleSize c, ∃ v, c.getAddrVec x 0 = .ok v ∧ o.getAddrVec c b = .ok v

/-- No bundle of one object addresses a granule of the other. -/
def Apart (c : MemoryConfig) (o o' : MemoryObject) : Prop :=
  ∀ b < o.getBundleSize c, ∀ b' < o'.getBundleSize c,
    ¬∃ v, o.getAddrVec c b = .ok v ∧ o'.getAddrVec c b' = .ok v

variable {c : MemoryConfig}

theorem bundle_fits (hc : c.Valid) {start size b : ℕ} (hfits : start + size ≤ c.capacity)
    (hb : b < size / c.granul) : start + b * c.granul < c.capacity := by
  have hnext : (b + 1) * c.granul ≤ size := (Nat.le_div_iff_mul_le hc.granul_pos).mp hb
  have hpos := hc.granul_pos
  rw [Nat.succ_mul] at hnext
  omega

theorem byte_fits {start size x : ℕ} (hfits : start + size ≤ c.capacity)
    (hx : x < start + size) : x + 0 * c.granul < c.capacity := by omega

/-- The bundles reach the last byte if the object consists of granules. -/
theorem covered_iff (hc : c.Valid) {start size : ℕ} (hfits : start + size ≤ c.capacity) :
    Covered c ⟨start, size⟩ ↔ size = 0 ∨ (c.granul ∣ start ∧ c.granul ∣ size) := by
  have hpos := hc.granul_pos
  have hgranule {x b : ℕ} (hx : x < start + size) (hb : b < size / c.granul) :
      (∃ v, c.getAddrVec x 0 = .ok v ∧ (MemoryObject.mk start size).getAddrVec c b = .ok v) ↔
        x / c.granul = start / c.granul + b := by
    have h := MemoryConfig.getAddrVec_eq_iff hc (byte_fits hfits hx) (bundle_fits hc hfits hb)
    rwa [Nat.add_zero] at h
  constructor
  · intro h
    by_contra hbad
    obtain ⟨hsize, hmis⟩ := not_or.mp hbad
    have hlast : start + size - 1 < start + size := by omega
    obtain ⟨b, hb, hv⟩ := h (start + size - 1 : ℕ) (by dsimp only; omega) (by dsimp only; omega)
    have hb' : b < size / c.granul := hb
    have hreach := (hgranule hlast hb').mp hv
    -- The granule of the last byte is not that far when a remainder is left.
    have hrem : 0 < start % c.granul + size % c.granul := by
      by_contra hzero
      exact hmis ⟨Nat.dvd_of_mod_eq_zero (by omega), Nat.dvd_of_mod_eq_zero (by omega)⟩
    have hfar : start / c.granul + size / c.granul ≤ (start + size - 1) / c.granul := by
      rw [Nat.le_div_iff_mul_le hpos, Nat.add_mul]
      have hstart := Nat.div_add_mod start c.granul
      have hdiv := Nat.div_add_mod size c.granul
      rw [Nat.mul_comm] at hstart hdiv
      omega
    omega
  · rintro (hzero | ⟨⟨q, hq⟩, ⟨k, hk⟩⟩) x hx hlt
    · dsimp only at hx hlt
      omega
    · dsimp only at hx hlt
      obtain ⟨x, rfl⟩ := Int.eq_ofNat_of_zero_le (le_trans (Int.natCast_nonneg start) hx)
      have hx' : start ≤ x := by omega
      have hlt' : x < start + size := by omega
      have hfirst : start / c.granul = q := by rw [hq, Nat.mul_div_cancel_left _ hpos]
      have hnum : size / c.granul = k := by rw [hk, Nat.mul_div_cancel_left _ hpos]
      have hlow : q ≤ x / c.granul := hfirst ▸ Nat.div_le_div_right hx'
      have hhigh : x / c.granul < q + k := by
        rw [Nat.div_lt_iff_lt_mul hpos, Nat.add_mul]
        rw [hq, hk] at hlt'
        rwa [Nat.mul_comm q, Nat.mul_comm k]
      have hb : x / c.granul - q < size / c.granul := by omega
      exact ⟨x / c.granul - q, hb, (hgranule hlt' hb).mpr (by omega)⟩

/-- The objects before an address do not reach the granules of those after it. -/
theorem apart_of_le (hc : c.Valid) {start size start' size' : ℕ} (hle : start + size ≤ start')
    (hfits : start' + size' ≤ c.capacity) : Apart c ⟨start, size⟩ ⟨start', size'⟩ := by
  intro b hb b' hb' hv
  have hb₁ : b < size / c.granul := hb
  have hb₂ : b' < size' / c.granul := hb'
  have hsame := (MemoryConfig.getAddrVec_eq_iff hc
    (bundle_fits hc (by omega : start + size ≤ c.capacity) hb₁)
    (bundle_fits hc hfits hb₂)).mp hv
  have hsum : start / c.granul + size / c.granul ≤ start' / c.granul :=
    Nat.div_add_div_le_add_div.trans (Nat.div_le_div_right hle)
  omega

theorem layOut_mem {start : ℕ} {sizes : List ℕ} {o : MemoryObject} (h : o ∈ layOut start sizes) :
    ∃ first : ℕ, o.address = first ∧ start ≤ first ∧ first + o.size ≤ start + sizes.sum := by
  induction sizes generalizing start with
  | nil => simp [layOut] at h
  | cons size sizes ih =>
    rw [List.sum_cons]
    rcases List.mem_cons.mp h with rfl | h
    · exact ⟨start, rfl, le_refl _, by dsimp only; omega⟩
    · obtain ⟨first, heq, hle, hend⟩ := ih h
      exact ⟨first, heq, by omega, by omega⟩

theorem layOut_apart (hc : c.Valid) {start : ℕ} {sizes : List ℕ}
    (hfits : start + sizes.sum ≤ c.capacity) : (layOut start sizes).Pairwise (Apart c) := by
  induction sizes generalizing start with
  | nil => exact .nil
  | cons size sizes ih =>
    rw [List.sum_cons] at hfits
    refine .cons (fun o ho => ?_) (ih (by omega))
    obtain ⟨first, heq, hle, hend⟩ := layOut_mem ho
    obtain ⟨address, size'⟩ := o
    dsimp only at heq hend
    rw [heq]
    exact apart_of_le hc hle (by omega)

/-- From a granule on, all objects are covered exactly if all consist of granules. -/
theorem layOut_covered_iff (hc : c.Valid) {start : ℕ} (hstart : c.granul ∣ start)
    {sizes : List ℕ} (hfits : start + sizes.sum ≤ c.capacity) :
    (∀ o ∈ layOut start sizes, Covered c o) ↔ ∀ size ∈ sizes, c.granul ∣ size := by
  induction sizes generalizing start with
  | nil => simp [layOut]
  | cons size sizes ih =>
    rw [List.sum_cons] at hfits
    unfold layOut
    rw [List.forall_mem_cons, List.forall_mem_cons, covered_iff hc (by omega)]
    have hhead : (size = 0 ∨ (c.granul ∣ start ∧ c.granul ∣ size)) ↔ c.granul ∣ size :=
      ⟨fun h => h.elim (fun hzero => hzero ▸ Nat.dvd_zero _) And.right,
        fun h => .inr ⟨hstart, h⟩⟩
    rw [hhead]
    exact and_congr_right fun hsize => ih (Nat.dvd_add hstart hsize) (by omega)

end MemoryObject

namespace MMapController

end MMapController
end LlmSystem
