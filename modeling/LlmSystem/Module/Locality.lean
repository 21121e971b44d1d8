import LlmSystem.Lib.Blocks
import LlmSystem.Module.MoeTraffic

/-!
Which transfers the loops of `MoEScatter::forward` and `MoEGather::forward` book as transfers within
a node. Two of them go over devices and take eight of these for a node; the other two go over
data-parallel groups and look at the first device of a group.
-/
namespace LlmSystem

/-- A loop of a collective, as a device runs it. -/
structure PeerLoop where
  bound : ℕ
  /-- The devices that one round stands for. -/
  groupSize : ℕ
  skip : ℕ → Bool
  near : ℕ → Bool

namespace PeerLoop

/-- The tokens that the loop counts. -/
def count (l : PeerLoop) (tokens : ℕ → ℕ) : ℕ × ℕ :=
  countTokens (List.range l.bound) l.skip l.near tokens

end PeerLoop

namespace MoEScatter

def sendLoop (c : MoeConfig) (src : ℕ) : PeerLoop where
  bound := c.totalNumDevice
  groupSize := 1
  skip dst := decide (dst ∈ tpSharingDeviceList c src)
  near dst := decide (dst / 8 = src / c.numDevice)

def receiveLoop (c : MoeConfig) (dst : ℕ) : PeerLoop where
  bound := c.totalNumDevice / c.neTpDg
  groupSize := c.neTpDg
  skip srcDp := decide (srcDp = dst / c.neTpDg)
  near srcDp := decide (dst / c.numDevice = srcDp * c.neTpDg / c.numDevice)

theorem sendTokens_eq (c : MoeConfig) (runningQueue : List BatchedSequence) (src : ℕ) :
    sendTokens c runningQueue src = (sendLoop c src).count fun dst =>
      tokensFor runningQueue (src / c.neTpDg) (c.commExperts dst) := rfl

theorem receiveTokens_eq (c : MoeConfig) (runningQueue : List BatchedSequence) (dst : ℕ) :
    receiveTokens c runningQueue dst = (receiveLoop c dst).count fun srcDp =>
      tokensFor runningQueue srcDp (c.commExperts dst) := rfl

end MoEScatter

namespace MoEGather

def receiveLoop (c : MoeConfig) (dst : ℕ) : PeerLoop where
  bound := c.totalNumDevice
  groupSize := 1
  skip src := decide (src ∈ eTpSharingDeviceList c dst)
  near src := decide (src / 8 = dst / c.numDevice)

def sendLoop (c : MoeConfig) (src : ℕ) : PeerLoop where
  bound := c.totalNumDevice / c.neTpDg
  groupSize := c.neTpDg
  skip dstDp := decide (dstDp = src / c.neTpDg)
  near dstDp := decide (dstDp * c.neTpDg / c.numDevice = src / c.numDevice)

theorem receiveTokens_eq (c : MoeConfig) (runningQueue : List BatchedSequence) (dst : ℕ) :
    receiveTokens c runningQueue dst = (receiveLoop c dst).count fun src =>
      tokensFor runningQueue (dst / c.neTpDg) (c.commExperts src) := rfl

theorem sendTokens_eq (c : MoeConfig) (runningQueue : List BatchedSequence) (src : ℕ) :
    sendTokens c runningQueue src = (sendLoop c src).count fun dstDp =>
      tokensFor runningQueue dstDp (c.commExperts src) := rfl

end MoEGather

namespace MoeConfig
variable (c : MoeConfig)

def SameNode (r r' : ℕ) : Prop := r / c.numDevice = r' / c.numDevice

/-- The loop of each device books the transfer with a device as near exactly if both are on one
node, where it does not skip it. -/
def BooksPairs (loop : ℕ → PeerLoop) : Prop :=
  ∀ own < c.totalNumDevice, ∀ peer < c.totalNumDevice,
    peer / (loop own).groupSize < (loop own).bound →
    (loop own).skip (peer / (loop own).groupSize) = false →
    ((loop own).near (peer / (loop own).groupSize) = true ↔ c.SameNode own peer)

/-- As `BooksPairs`, for the first device of each group only. -/
def BooksFirsts (loop : ℕ → PeerLoop) : Prop :=
  ∀ own < c.totalNumDevice, ∀ round < (loop own).bound, (loop own).skip round = false →
    ((loop own).near round = true ↔ c.SameNode own (round * (loop own).groupSize))

/-- The loops of both collectives. -/
def loops : List (ℕ → PeerLoop) :=
  [MoEScatter.sendLoop c, MoEScatter.receiveLoop c, MoEGather.receiveLoop c, MoEGather.sendLoop c]

/-- Eight devices are those of a node, or are there no others to ask. -/
def EightToNode : Prop :=
  c.numDevice = 8 ∨ (c.numNode = 1 ∧ c.numDevice ≤ 8) ∨
    (c.totalNumDevice ≤ c.neTpDg ∧ c.totalNumDevice ≤ c.eTpDg)

/-- No data-parallel group straddles two nodes while a node has devices of two groups. -/
def GroupsNest : Prop :=
  c.numNode = 1 ∨ c.totalNumDevice ≤ c.neTpDg ∨ c.neTpDg ∣ c.numDevice ∨ c.numDevice ∣ c.neTpDg

variable {c}

/-! ### Loops over devices -/

/-- A literal node size against the real one, for devices of two groups. -/
def EightAgrees (c : MoeConfig) (size : ℕ) : Prop :=
  ∀ own < c.totalNumDevice, ∀ peer < c.totalNumDevice, peer / size ≠ own / size →
    (peer / 8 = own / c.numDevice ↔ own / c.numDevice = peer / c.numDevice)

/-- On larger nodes than eight devices, a node is cut. -/
theorem not_eightAgrees_large {size : ℕ} (hsize : 0 < size) (hlt : size < c.totalNumDevice)
    (hlarge : 8 < c.numDevice) : ¬c.EightAgrees size := by
  intro h
  have hpos : 0 < c.numDevice := by omega
  by_cases hsmall : size < c.numDevice
  · have hnode : c.numDevice ≤ c.totalNumDevice := by
      have hnodes : 0 < c.numNode := Nat.pos_of_mul_pos_right (hsize.trans hlt)
      exact Nat.le_mul_of_pos_left _ hnodes
    have hgroup : (c.numDevice - 1) / size ≠ 0 / size := by
      rw [Nat.zero_div]
      exact (Nat.div_pos (by omega) hsize).ne'
    have hbook := (h 0 (by omega) (c.numDevice - 1) (by omega) hgroup).mpr (by
      rw [Nat.zero_div, Nat.div_eq_of_lt (by omega)])
    rw [Nat.zero_div] at hbook
    omega
  · -- The node of the first device of the second group, and the eight that take its number.
    set node := size / c.numDevice with hnode
    have hone : 1 ≤ node := (Nat.one_le_div_iff hpos).mpr (by omega)
    have hbelow : node * c.numDevice ≤ size := Nat.div_mul_le_self _ _
    have hcut : 8 * node < node * c.numDevice := by
      rw [Nat.mul_comm]
      exact Nat.mul_lt_mul_of_pos_left hlarge hone
    have hgroup : 8 * node / size ≠ size / size := by
      rw [Nat.div_eq_of_lt (by omega), Nat.div_self hsize]
      exact Nat.zero_ne_one
    have hbook := (h size hlt (8 * node) (by omega) hgroup).mp (by
      rw [Nat.mul_div_cancel_left _ (by decide)])
    have hless : 8 * node / c.numDevice < node := (Nat.div_lt_iff_lt_mul hpos).mpr hcut
    omega

/-- On smaller nodes, the eight of a number are on two nodes. -/
theorem not_eightAgrees_small {size : ℕ} (hsize : 0 < size) (hlt : size < c.totalNumDevice)
    (hpos : 0 < c.numDevice) (hsmall : c.numDevice < 8) (hnodes : 2 ≤ c.numNode) :
    ¬c.EightAgrees size := by
  intro h
  have htwo : 2 * c.numDevice ≤ c.totalNumDevice := Nat.mul_le_mul_right _ hnodes
  by_cases hle : size ≤ c.numDevice
  · have hgroup : c.numDevice / size ≠ 0 / size := by
      rw [Nat.zero_div]
      exact (Nat.div_pos hle hsize).ne'
    have hbook := (h 0 (by omega) c.numDevice (by omega) hgroup).mp (by
      rw [Nat.zero_div, Nat.div_eq_of_lt hsmall])
    rw [Nat.zero_div, Nat.div_self hpos] at hbook
    omega
  · set node := size / c.numDevice with hnode
    have hone : 1 ≤ node := (Nat.one_le_div_iff hpos).mpr (by omega)
    have hbelow : node * c.numDevice ≤ size := Nat.div_mul_le_self _ _
    have hcut : node * c.numDevice < 8 * node := by
      rw [Nat.mul_comm]
      exact Nat.mul_lt_mul_of_pos_right hsmall hone
    by_cases hinside : node * c.numDevice < size
    · -- The first device of that node is in the first group.
      have hgroup : node * c.numDevice / size ≠ size / size := by
        rw [Nat.div_eq_of_lt hinside, Nat.div_self hsize]
        exact Nat.zero_ne_one
      have hbook := (h size hlt (node * c.numDevice) (by omega) hgroup).mpr (by
        rw [Nat.mul_div_cancel _ hpos])
      omega
    · have hexact : node * c.numDevice = size := by omega
      have hback : size / 8 * c.numDevice < size := by
        have hmul := Nat.div_mul_le_self size 8
        by_cases hzero : size / 8 = 0
        · rw [hzero]
          omega
        · have hless := Nat.mul_lt_mul_of_pos_left hsmall (Nat.pos_of_ne_zero hzero)
          omega
      have hgroup : size / size ≠ size / 8 * c.numDevice / size := by
        rw [Nat.div_eq_of_lt hback, Nat.div_self hsize]
        exact Nat.one_ne_zero
      have hbook := (h (size / 8 * c.numDevice) (by omega) size hlt hgroup).mp (by
        rw [Nat.mul_div_cancel _ hpos])
      rw [Nat.mul_div_cancel _ hpos] at hbook
      omega

theorem eightAgrees_iff {size : ℕ} (hsize : 0 < size) (hpos : 0 < c.numDevice)
    (hnodes : 0 < c.numNode) :
    c.EightAgrees size ↔ c.numDevice = 8 ∨ (c.numNode = 1 ∧ c.numDevice ≤ 8) ∨
      c.totalNumDevice ≤ size := by
  constructor
  · intro h
    by_contra hbad
    obtain ⟨height, hrest⟩ := not_or.mp hbad
    obtain ⟨hone, hlt⟩ := not_or.mp hrest
    by_cases hlarge : 8 < c.numDevice
    · exact not_eightAgrees_large hsize (by omega) hlarge h
    · exact not_eightAgrees_small hsize (by omega) hpos (by omega) (by omega) h
  · rintro (height | ⟨hone, hle⟩ | hle) own hown peer hpeer hgroup
    · rw [height]
      exact eq_comm
    · have htotal : c.totalNumDevice = c.numDevice := by
        unfold totalNumDevice
        rw [hone, Nat.one_mul]
      rw [Nat.div_eq_of_lt (by omega : peer < 8), Nat.div_eq_of_lt (by omega : own < c.numDevice),
        Nat.div_eq_of_lt (by omega : peer < c.numDevice)]
    · rw [Nat.div_eq_of_lt (by omega), Nat.div_eq_of_lt (by omega)] at hgroup
      exact absurd rfl hgroup

/-! ### Loops over data-parallel groups -/

/-- The node of a device against that of the first device of its group. -/
def FirstAgrees (c : MoeConfig) : Prop :=
  ∀ own < c.totalNumDevice, ∀ peer < c.totalNumDevice,
    peer / c.neTpDg < c.totalNumDevice / c.neTpDg → peer / c.neTpDg ≠ own / c.neTpDg →
    (own / c.numDevice = peer / c.neTpDg * c.neTpDg / c.numDevice ↔
      own / c.numDevice = peer / c.numDevice)

theorem div_mul_div_of_dvd {m n : ℕ} (h : m ∣ n) (i : ℕ) : i / m * m / n = i / n := by
  obtain ⟨k, rfl⟩ := h
  obtain rfl | hm := Nat.eq_zero_or_pos m
  · simp
  · rw [← Nat.div_div_eq_div_mul, ← Nat.div_div_eq_div_mul, Nat.mul_div_cancel _ hm]

/-- Where nodes lie in groups, devices of two groups are on two nodes. -/
theorem group_of_sameNode {m n : ℕ} (h : n ∣ m) {i j : ℕ} (hij : i / n = j / n) :
    i / m = j / m := by
  obtain ⟨k, rfl⟩ := h
  rw [← Nat.div_div_eq_div_mul, ← Nat.div_div_eq_div_mul, hij]

theorem firstAgrees_iff (hne : 0 < c.neTpDg) (hpos : 0 < c.numDevice) (hnodes : 0 < c.numNode) :
    c.FirstAgrees ↔ c.GroupsNest := by
  constructor
  · intro h
    by_contra hbad
    unfold GroupsNest at hbad
    push Not at hbad
    obtain ⟨hone, hlt, hgroup, hnode⟩ := hbad
    have htwo : 2 * c.numDevice ≤ c.totalNumDevice := Nat.mul_le_mul_right _ (by omega)
    have hmul := Nat.div_add_mod c.numDevice c.neTpDg
    have hrem : 0 < c.numDevice % c.neTpDg :=
      Nat.pos_of_ne_zero fun hzero => hgroup (Nat.dvd_of_mod_eq_zero hzero)
    rw [Nat.mul_comm] at hmul
    by_cases hsmall : c.neTpDg < c.numDevice
    · -- The group that contains the first device of the second node starts on the first node.
      have hfirst : c.numDevice / c.neTpDg * c.neTpDg / c.numDevice = 0 :=
        Nat.div_eq_of_lt (by omega)
      have hbound : c.numDevice / c.neTpDg < c.totalNumDevice / c.neTpDg := by
        apply (Nat.le_div_iff_mul_le hne).mpr
        rw [Nat.succ_mul]
        omega
      have hother : c.numDevice / c.neTpDg ≠ 0 / c.neTpDg := by
        rw [Nat.zero_div]
        exact (Nat.div_pos hsmall.le hne).ne'
      have hbook := (h 0 (by omega) c.numDevice (by omega) hbound hother).mp (by
        rw [Nat.zero_div, hfirst])
      rw [Nat.zero_div, Nat.div_self hpos] at hbook
      omega
    · -- The first device of the second group shares its node with a device of the first group.
      have hlast : (c.neTpDg - 1) / c.numDevice = c.neTpDg / c.numDevice := by
        have hdiv := Nat.div_add_mod c.neTpDg c.numDevice
        have hpart : 0 < c.neTpDg % c.numDevice :=
          Nat.pos_of_ne_zero fun hzero => hnode (Nat.dvd_of_mod_eq_zero hzero)
        have hmod := Nat.mod_lt c.neTpDg hpos
        rw [Nat.mul_comm] at hdiv
        rw [Nat.div_eq_iff hpos]
        omega
      have hzero : (c.neTpDg - 1) / c.neTpDg = 0 := Nat.div_eq_of_lt (by omega)
      have hbound : (c.neTpDg - 1) / c.neTpDg < c.totalNumDevice / c.neTpDg := by
        rw [hzero]
        exact Nat.div_pos hlt.le hne
      have hother : (c.neTpDg - 1) / c.neTpDg ≠ c.neTpDg / c.neTpDg := by
        rw [hzero, Nat.div_self hne]
        exact Nat.zero_ne_one
      have hbook := (h c.neTpDg hlt (c.neTpDg - 1) (by omega) hbound hother).mpr hlast.symm
      rw [hzero, Nat.zero_mul, Nat.zero_div] at hbook
      have hlarge : 1 ≤ c.neTpDg / c.numDevice := (Nat.one_le_div_iff hpos).mpr (by omega)
      omega
  · rintro (hone | hle | hdvd | hdvd) own hown peer hpeer hbound hgroup
    · have htotal : c.totalNumDevice = c.numDevice := by
        unfold totalNumDevice
        rw [hone, Nat.one_mul]
      have hfirst := Nat.div_mul_le_self peer c.neTpDg
      rw [Nat.div_eq_of_lt (by omega : own < c.numDevice),
        Nat.div_eq_of_lt (by omega : peer / c.neTpDg * c.neTpDg < c.numDevice),
        Nat.div_eq_of_lt (by omega : peer < c.numDevice)]
    · rw [Nat.div_eq_of_lt (by omega), Nat.div_eq_of_lt (by omega)] at hgroup
      exact absurd rfl hgroup
    · rw [div_mul_div_of_dvd hdvd]
    · constructor
      · intro hfirst
        have hsame := group_of_sameNode hdvd hfirst
        rw [Nat.mul_div_cancel _ hne] at hsame
        exact absurd hsame.symm hgroup
      · intro hsame
        exact absurd (group_of_sameNode hdvd hsame).symm hgroup

/-! ### The four loops -/

theorem booksPairs_send (hne : 0 < c.neTpDg) :
    c.BooksPairs (MoEScatter.sendLoop c) ↔ c.EightAgrees c.neTpDg := by
  unfold BooksPairs EightAgrees MoEScatter.sendLoop MoEScatter.tpSharingDeviceList SameNode
  simp only [Nat.div_one, decide_eq_false_iff_not, decide_eq_true_eq, deviceList,
    Blocks.mem_block hne]
  exact ⟨fun h own hown peer hpeer => h own hown peer hpeer hpeer,
    fun h own hown peer hpeer _ => h own hown peer hpeer⟩

theorem booksPairs_gatherReceive (hee : 0 < c.eTpDg) :
    c.BooksPairs (MoEGather.receiveLoop c) ↔ c.EightAgrees c.eTpDg := by
  unfold BooksPairs EightAgrees MoEGather.receiveLoop MoEGather.eTpSharingDeviceList SameNode
  simp only [Nat.div_one, decide_eq_false_iff_not, decide_eq_true_eq, deviceList,
    Blocks.mem_block hee]
  exact ⟨fun h own hown peer hpeer => h own hown peer hpeer hpeer,
    fun h own hown peer hpeer _ => h own hown peer hpeer⟩

theorem booksPairs_receive : c.BooksPairs (MoEScatter.receiveLoop c) ↔ c.FirstAgrees := by
  unfold BooksPairs FirstAgrees MoEScatter.receiveLoop SameNode
  simp only [decide_eq_false_iff_not, decide_eq_true_eq]

theorem booksPairs_gatherSend : c.BooksPairs (MoEGather.sendLoop c) ↔ c.FirstAgrees := by
  unfold BooksPairs FirstAgrees MoEGather.sendLoop SameNode
  simp only [decide_eq_false_iff_not, decide_eq_true_eq]
  have hcomm (own peer : ℕ) : peer / c.neTpDg * c.neTpDg / c.numDevice = own / c.numDevice ↔
      own / c.numDevice = peer / c.neTpDg * c.neTpDg / c.numDevice := eq_comm
  simp only [hcomm]

/-- A loop over devices asks each of them itself. -/
theorem booksFirsts_devices {loop : ℕ → PeerLoop} (hsize : ∀ own, (loop own).groupSize = 1)
    (hbound : ∀ own, (loop own).bound = c.totalNumDevice) :
    c.BooksFirsts loop ↔ c.BooksPairs loop := by
  unfold BooksFirsts BooksPairs
  simp only [hsize, hbound, Nat.div_one, Nat.mul_one]
  exact ⟨fun h own hown peer hpeer _ => h own hown peer hpeer,
    fun h own hown peer hpeer => h own hown peer hpeer hpeer⟩

theorem booksFirsts_receive : c.BooksFirsts (MoEScatter.receiveLoop c) := by
  intro own _ round _ _
  exact decide_eq_true_iff

theorem booksFirsts_gatherSend : c.BooksFirsts (MoEGather.sendLoop c) := by
  intro own _ round _ _
  exact decide_eq_true_iff.trans eq_comm

theorem eightToNode_iff (hpos : 0 < c.numDevice) (hnodes : 0 < c.numNode) (hne : 0 < c.neTpDg)
    (hee : 0 < c.eTpDg) :
    c.EightAgrees c.neTpDg ∧ c.EightAgrees c.eTpDg ↔ c.EightToNode := by
  rw [eightAgrees_iff hne hpos hnodes, eightAgrees_iff hee hpos hnodes]
  unfold EightToNode
  rw [← or_assoc, ← or_assoc, ← or_assoc, ← or_and_left]

/-- All loops book each transfer by the nodes of its two devices exactly when eight devices are a
node, or there are no others to ask, and no group straddles two nodes. The groups do not matter
for the device that a round looks at. -/
theorem locality_iff (hpos : 0 < c.numDevice) (hnodes : 0 < c.numNode) (hne : 0 < c.neTpDg)
    (hee : 0 < c.eTpDg) :
    ((∀ loop ∈ c.loops, c.BooksPairs loop) ↔ c.EightToNode ∧ c.GroupsNest) ∧
      ((∀ loop ∈ c.loops, c.BooksFirsts loop) ↔ c.EightToNode) := by
  have hscatter : c.BooksFirsts (MoEScatter.sendLoop c) ↔ c.BooksPairs (MoEScatter.sendLoop c) :=
    booksFirsts_devices (fun _ => rfl) fun _ => rfl
  have hgather : c.BooksFirsts (MoEGather.receiveLoop c) ↔
      c.BooksPairs (MoEGather.receiveLoop c) := booksFirsts_devices (fun _ => rfl) fun _ => rfl
  unfold loops
  simp only [List.forall_mem_cons, List.not_mem_nil, false_implies, implies_true, and_true]
  rw [hscatter, hgather, booksPairs_send hne, booksPairs_receive, booksPairs_gatherReceive hee,
    booksPairs_gatherSend, firstAgrees_iff hne hpos hnodes, ← eightToNode_iff hpos hnodes hne hee]
  constructor
  · tauto
  · have hreceive : c.BooksFirsts (MoEScatter.receiveLoop c) := booksFirsts_receive
    have hsend : c.BooksFirsts (MoEGather.sendLoop c) := booksFirsts_gatherSend
    tauto

/-- Two nodes of eight devices, with groups of two. -/
theorem locality_eight :
    (∀ loop ∈ loops ⟨2, 8, 2, 1, 16, 2, "", 1, 0, 1, 0⟩,
        BooksPairs ⟨2, 8, 2, 1, 16, 2, "", 1, 0, 1, 0⟩ loop) ∧
      ∀ loop ∈ loops ⟨2, 8, 2, 1, 16, 2, "", 1, 0, 1, 0⟩,
        BooksFirsts ⟨2, 8, 2, 1, 16, 2, "", 1, 0, 1, 0⟩ loop := by
  have h := @locality_iff ⟨2, 8, 2, 1, 16, 2, "", 1, 0, 1, 0⟩ (by decide) (by decide)
    (by decide) (by decide)
  exact ⟨h.1.mpr ⟨.inl rfl, .inr (.inr (.inl (by decide)))⟩, h.2.mpr (.inl rfl)⟩

/-- Two nodes of four devices: device 0 sends to device 4 on the other node as if it was on its own,
and device 4 receives from another node. -/
theorem locality_four :
    (MoEScatter.sendLoop ⟨2, 4, 1, 1, 8, 2, "", 1, 0, 1, 0⟩ 0).near 4 = true ∧
      (MoEScatter.receiveLoop ⟨2, 4, 1, 1, 8, 2, "", 1, 0, 1, 0⟩ 4).near 0 = false ∧
      ¬∀ loop ∈ loops ⟨2, 4, 1, 1, 8, 2, "", 1, 0, 1, 0⟩,
        BooksPairs ⟨2, 4, 1, 1, 8, 2, "", 1, 0, 1, 0⟩ loop := by
  refine ⟨by decide, by decide, fun h => ?_⟩
  have hsend := (h _ (List.mem_cons_self ..)) 0 (by decide) 4 (by decide) (by decide) (by decide)
  exact absurd hsend (by unfold SameNode; decide)

end MoeConfig
end LlmSystem
