import LlmSystem.Lib.Runs
import LlmSystem.Lib.Tally
import LlmSystem.Scheduler.Operations
import Mathlib.Algebra.BigOperators.Ring.List
import Mathlib.Data.Finset.Sort
import Mathlib.Tactic.Ring

/-!
Tokens of the routed experts. Every batch counts its own tokens layer by layer, from a trace or
with the random selectors of the scheduler; `aggregate_expert` then hands the counts of all
batches to each of them.
-/
namespace LlmSystem

/-- `top_k` distinct experts. -/
structure Selection (numExpert topK : ℤ) (experts : List ℤ) : Prop where
  length : experts.length = topK
  nodup : experts.Nodup
  inRange : ∀ e ∈ experts, 0 ≤ e ∧ e < numExpert

instance (numExpert topK : ℤ) (experts : List ℤ) : Decidable (Selection numExpert topK experts) :=
  decidable_of_iff (experts.length = topK ∧ experts.Nodup ∧ ∀ e ∈ experts, 0 ≤ e ∧ e < numExpert)
    ⟨fun ⟨hlen, hnodup, hin⟩ => ⟨hlen, hnodup, hin⟩, fun h => ⟨h.length, h.nodup, h.inRange⟩⟩

/-- Where the experts of a token come from: `expert_list` of each entry of `sequences_info`, and
what the calls of the random selectors return. -/
structure ExpertSource where
  expertList : List (List (List ℤ)) := []
  random : ℕ → Finset ℤ := fun _ => ∅

namespace Scheduler

/-- The loop of the selectors, on what the distribution yields. A call whose draws run out has
not returned. The size of the set is unsigned, so a negative `top_k` is not reached. -/
def fillRoute (numRoutedExpert topK : ℤ) : List ℤ → Finset ℤ → Except String (Finset ℤ × List ℤ)
  | [], route =>
    if 0 ≤ topK ∧ topK ≤ route.card then .ok (route, []) else .error "no draw left"
  | d :: draws, route =>
    if 0 ≤ topK ∧ topK ≤ route.card then .ok (route, d :: draws)
    else fillRoute numRoutedExpert topK draws (insert (d.tmod numRoutedExpert) route)

/-- The draws are uniform. -/
def getRandomExpert (m : ModelConfig) (topK : ℤ) (draws : List ℤ) :
    Except String (Finset ℤ × List ℤ) := fillRoute m.numRoutedExpert topK draws ∅

/-- The draws are weighted by rank; the loop is the same. -/
def getZipfianRandomExpert (m : ModelConfig) (topK : ℤ) (draws : List ℤ) :
    Except String (Finset ℤ × List ℤ) := fillRoute m.numRoutedExpert topK draws ∅

/-- Instead of draws, the numbers from `token_id` on, for at most `fuel` rounds. -/
def getEquallyDistributedExpert (m : ModelConfig) (fuel : ℕ) (tokenId topK : ℤ) :
    Except String (Finset ℤ × List ℤ) :=
  fillRoute m.numRoutedExpert topK ((List.range fuel).map fun i : ℕ => tokenId + i) ∅

/-- A loop that ends has selected `top_k` distinct experts. -/
theorem fillRoute_selects {numRoutedExpert topK : ℤ} (hexperts : 0 < numRoutedExpert)
    {draws : List ℤ} (hdraws : ∀ d ∈ draws, 0 ≤ d) {route route' : Finset ℤ} {rest : List ℤ}
    (hcard : route.card ≤ topK) (hroute : ∀ e ∈ route, 0 ≤ e ∧ e < numRoutedExpert)
    (h : fillRoute numRoutedExpert topK draws route = .ok (route', rest)) :
    Selection numRoutedExpert topK (route'.sort (· ≤ ·)) := by
  have hdone : ∀ {route : Finset ℤ}, route.card ≤ topK → topK ≤ route.card →
      (∀ e ∈ route, 0 ≤ e ∧ e < numRoutedExpert) →
      Selection numRoutedExpert topK (route.sort (· ≤ ·)) := by
    intro route hle hge hin
    constructor
    · simp
      omega
    · simp
    · simpa using hin
  induction draws generalizing route with
  | nil =>
    unfold fillRoute at h
    split_ifs at h with hfull
    obtain ⟨rfl, -⟩ := Prod.mk.inj (Except.ok.inj h)
    exact hdone hcard hfull.2 hroute
  | cons d draws ih =>
    obtain ⟨hd, hdraws⟩ := List.forall_mem_cons.mp hdraws
    unfold fillRoute at h
    split_ifs at h with hfull
    · obtain ⟨rfl, -⟩ := Prod.mk.inj (Except.ok.inj h)
      exact hdone hcard hfull.2 hroute
    · have hgrow := Finset.card_insert_le (d.tmod numRoutedExpert) route
      apply ih hdraws _ _ h
      · omega
      · intro e he
        rcases Finset.mem_insert.mp he with rfl | he
        · exact ⟨Int.tmod_nonneg _ hd, Int.tmod_lt_of_pos _ hexperts⟩
        · exact hroute e he

/-- So all three selectors do, whatever the draws. -/
theorem selectors_select {m : ModelConfig} (hexperts : 0 < m.numRoutedExpert) {topK : ℤ}
    (htop : 0 ≤ topK) {draws : List ℤ} (hdraws : ∀ d ∈ draws, 0 ≤ d) {fuel : ℕ} {tokenId : ℤ}
    (htoken : 0 ≤ tokenId) {route : Finset ℤ} {rest : List ℤ}
    (h : getRandomExpert m topK draws = .ok (route, rest) ∨
      getZipfianRandomExpert m topK draws = .ok (route, rest) ∨
      getEquallyDistributedExpert m fuel tokenId topK = .ok (route, rest)) :
    Selection m.numRoutedExpert topK (route.sort (· ≤ ·)) := by
  have hempty : ((∅ : Finset ℤ).card : ℤ) ≤ topK := by simpa using htop
  rcases h with h | h | h
  · exact fillRoute_selects hexperts hdraws hempty (by simp) h
  · exact fillRoute_selects hexperts hdraws hempty (by simp) h
  · apply fillRoute_selects hexperts _ hempty (by simp) h
    intro d hd
    obtain ⟨i, -, rfl⟩ := List.mem_map.mp hd
    omega

end Scheduler

namespace BatchedSequence

/-- `num_token_in_expert[e_id] += 1`. -/
def countExpert (counts : List ℕ) (e : ℤ) : Except String (List ℕ) :=
  if 0 ≤ e ∧ e < counts.length then .ok (Tally.bump counts e.toNat)
  else .error "undefined behaviour"

/-- The first `top_k` experts of a row of `expert_list`. -/
def traceExperts (src : ExpertSource) (seqId index topK : ℤ) : Option (List ℤ) :=
  (List.range topK.toNat).mapM fun k =>
    if 0 ≤ seqId ∧ 0 ≤ index then do
      let rows ← src.expertList[seqId.toNat]?
      let row ← rows[index.toNat]?
      row[k]?
    else none

/-- The set of a call of the random selectors, in its order. -/
def randomExperts (src : ExpertSource) (calls : ℕ) : List ℤ := (src.random calls).sort (· ≤ ·)

/-- The experts of a token, and how many calls the random selectors have had. -/
def routedExperts (src : ExpertSource) (numLayer topK : ℤ) (curLayer : ℕ) (seq : Sequence)
    (tokenId : ℤ) (calls : ℕ) : Except String (List ℤ × ℕ) :=
  if seq.getExpertFromList then
    match traceExperts src seq.expertSeqId (tokenId * numLayer + curLayer) topK with
    | none => .error "undefined behaviour"
    | some experts => .ok (experts, calls)
  else .ok (randomExperts src calls, calls + 1)

def countToken (src : ExpertSource) (numLayer topK : ℤ) (curLayer : ℕ) (seq : Sequence)
    (acc : List ℕ × ℕ) (tokenId : ℤ) : Except String (List ℕ × ℕ) := do
  let (experts, calls) ← routedExperts src numLayer topK curLayer seq tokenId acc.2
  .ok (← experts.foldlM countExpert acc.1, calls)

/-- The tokens of an iteration, from `current_len` on. -/
def tokenIds (seq : Sequence) : List ℤ :=
  (List.range seq.numProcessToken.toNat).map fun i : ℕ => seq.currentLen + i

def countSequence (src : ExpertSource) (numLayer topK : ℤ) (curLayer : ℕ) (acc : List ℕ × ℕ)
    (seq : Sequence) : Except String (List ℕ × ℕ) :=
  if seq.numProcessToken = 0 then .ok acc
  else (tokenIds seq).foldlM (countToken src numLayer topK curLayer seq) acc

def clearExpert (b : BatchedSequence) : BatchedSequence :=
  { b with numTokenInExpert := b.numTokenInExpert.map fun _ => 0 }

/-- The trace layers of the batch: the modulus of `cur_layer`. -/
def numLayer (m : ModelConfig) : ℤ := m.numLayers.tdiv m.expertFreq

/-- The batch at the end of `update_expert`. -/
def counted (m : ModelConfig) (b : BatchedSequence) (counts : List ℕ) : BatchedSequence :=
  { b with
    numTokenInExpert := counts
    curLayer := ((b.curLayer + 1 : ℤ).tmod (numLayer m)).toNat }

/-- `m` is the configuration of the scheduler. -/
def updateExpert (m : ModelConfig) (src : ExpertSource) (numExpert topK : ℤ)
    (b : BatchedSequence) (calls : ℕ) : Except String (BatchedSequence × ℕ) := do
  let b := { b with numTokenInExpert := List.replicate numExpert.toNat 0 }.clearExpert
  let (counts, calls) ← b.sequence.foldlM (countSequence src (numLayer m) topK b.curLayer)
    (b.numTokenInExpert, calls)
  if numLayer m = 0 then .error "division by zero" else .ok (b.counted m counts, calls)

/-- `local_num_token_in_expert[j] = num_token_in_expert[j]` for each expert. -/
def storeLocal (numExpert : ℤ) (b : BatchedSequence) : Except String BatchedSequence :=
  if numExpert ≤ b.localNumTokenInExpert.length ∧ numExpert ≤ b.numTokenInExpert.length then
    .ok { b with
      localNumTokenInExpert := b.numTokenInExpert.take numExpert.toNat ++
        b.localNumTokenInExpert.drop numExpert.toNat }
  else .error "undefined behaviour"

/-! ### One batch -/

section Counts
variable {numExpert topK : ℤ} {src : ExpertSource}

/-- A counter list with one counter for each expert. -/
def Sized (numExpert : ℤ) (counts : List ℕ) : Prop := counts.length = numExpert

instance (numExpert : ℤ) (counts : List ℕ) : Decidable (Sized numExpert counts) :=
  inferInstanceAs (Decidable (_ = _))

/-- A token adds `top_k` to the counters. -/
theorem foldlM_countExpert {experts : List ℤ} (hsel : Selection numExpert topK experts)
    {counts : List ℕ} (hsize : Sized numExpert counts) : ∃ counts',
      experts.foldlM countExpert counts = .ok counts' ∧ Sized numExpert counts' ∧
        (counts'.sum : ℤ) = counts.sum + topK := by
  have hstep : ∀ counts, Sized numExpert counts → ∀ e ∈ experts, ∃ counts',
      countExpert counts e = .ok counts' ∧ Sized numExpert counts' ∧
        (counts'.sum : ℤ) = counts.sum + 1 := by
    intro counts hsize e he
    obtain ⟨hpos, hlt⟩ := hsel.inRange e he
    have hlen : e < counts.length := hlt.trans_eq hsize.symm
    refine ⟨Tally.bump counts e.toNat, if_pos ⟨hpos, hlen⟩, ?_, ?_⟩
    · simpa [Sized] using hsize
    · rw [Tally.sum_bump (by omega)]
      simp
  obtain ⟨counts', hok, hsize', hsum⟩ := Tally.foldlM_adds
    (I := Sized numExpert) (v := fun counts => (counts.sum : ℤ)) (w := fun _ => 1) hstep hsize
  refine ⟨counts', hok, hsize', ?_⟩
  simp only [hsum, List.map_const', List.sum_replicate, ← hsel.length]
  simp

/-- Every token of the sequence selects `top_k` distinct experts, whichever call of a random
selector it gets. -/
def Routed (src : ExpertSource) (numExpert numLayer topK : ℤ) (curLayer : ℕ) (seq : Sequence) :
    Prop :=
  ∀ tokenId ∈ tokenIds seq, ∀ calls, ∃ experts calls',
    routedExperts src numLayer topK curLayer seq tokenId calls = .ok (experts, calls') ∧
      Selection numExpert topK experts

theorem countToken_ok {numLayer : ℤ} {curLayer : ℕ} {seq : Sequence}
    (hrouted : Routed src numExpert numLayer topK curLayer seq) {acc : List ℕ × ℕ}
    (hsize : Sized numExpert acc.1) {tokenId : ℤ} (htoken : tokenId ∈ tokenIds seq) : ∃ acc',
      countToken src numLayer topK curLayer seq acc tokenId = .ok acc' ∧
        Sized numExpert acc'.1 ∧ (acc'.1.sum : ℤ) = acc.1.sum + topK := by
  obtain ⟨experts, calls, hexperts, hsel⟩ := hrouted tokenId htoken acc.2
  obtain ⟨counts, hok, hsize', hsum⟩ := foldlM_countExpert hsel hsize
  refine ⟨(counts, calls), ?_, hsize', hsum⟩
  unfold countToken
  rw [hexperts]
  change experts.foldlM countExpert acc.1 >>= _ = _
  rw [hok]
  rfl

theorem countSequence_ok {numLayer : ℤ} {curLayer : ℕ} {seq : Sequence}
    (hrouted : Routed src numExpert numLayer topK curLayer seq) (hnonneg : 0 ≤ seq.numProcessToken)
    {acc : List ℕ × ℕ} (hsize : Sized numExpert acc.1) : ∃ acc',
      countSequence src numLayer topK curLayer acc seq = .ok acc' ∧
        Sized numExpert acc'.1 ∧ (acc'.1.sum : ℤ) = acc.1.sum + topK * seq.numProcessToken := by
  unfold countSequence
  split_ifs with hzero
  · exact ⟨acc, rfl, hsize, by simp [hzero]⟩
  · obtain ⟨acc', hok, hsize', hsum⟩ := Tally.foldlM_adds
      (I := fun acc : List ℕ × ℕ => Sized numExpert acc.1) (v := fun acc => (acc.1.sum : ℤ))
      (w := fun _ => topK) (l := tokenIds seq)
      (fun acc hacc tokenId htoken => countToken_ok hrouted hacc htoken) hsize
    refine ⟨acc', hok, hsize', ?_⟩
    have hlen : ((tokenIds seq).length : ℤ) = seq.numProcessToken := by
      simp [tokenIds, hnonneg]
    simp only [hsum, List.map_const', List.sum_replicate, nsmul_eq_mul, hlen]
    ring

/-- `top_k` experts are counted for each token of the batch. -/
structure Counted (numExpert topK : ℤ) (b : BatchedSequence) : Prop where
  sizedLocal : Sized numExpert b.localNumTokenInExpert
  sized : Sized numExpert b.numTokenInExpert
  sum : (b.numTokenInExpert.sum : ℤ) = topK * b.getProcessToken

theorem updateExpert_ok {m : ModelConfig} (hlayers : numLayer m ≠ 0) {b : BatchedSequence}
    (hlocal : Sized numExpert b.localNumTokenInExpert)
    (hrouted : ∀ t ∈ b.sequence, Routed src numExpert (numLayer m) topK b.curLayer t)
    (hnonneg : ∀ t ∈ b.sequence, 0 ≤ t.numProcessToken) (calls : ℕ) : ∃ b' calls',
      b.updateExpert m src numExpert topK calls = .ok (b', calls') ∧
        b'.sequence = b.sequence ∧ Counted numExpert topK b' := by
  have hexperts : 0 ≤ numExpert := hlocal ▸ Int.natCast_nonneg _
  obtain ⟨acc, hok, hsize, hsum⟩ := Tally.foldlM_adds
    (I := fun acc : List ℕ × ℕ => Sized numExpert acc.1) (v := fun acc => (acc.1.sum : ℤ))
    (w := fun t : Sequence => topK * t.numProcessToken) (l := b.sequence)
    (b := ((List.replicate numExpert.toNat 0).map fun _ => 0, calls))
    (fun acc hacc t ht => countSequence_ok (hrouted t ht) (hnonneg t ht) hacc)
    (by simp [Sized, hexperts])
  refine ⟨b.counted m acc.1, acc.2, ?_, rfl, ?_⟩
  · unfold updateExpert clearExpert
    simp only [hok]
    exact if_neg hlayers
  · constructor
    · exact hlocal
    · exact hsize
    · change (acc.1.sum : ℤ) = topK * b.getProcessToken
      rw [hsum, List.sum_map_mul_left]
      simp [getProcessToken]

end Counts

end BatchedSequence

namespace GateUpdate

open BatchedSequence

/-- The first loop over `running_queue`. -/
def updateExperts (m : ModelConfig) (src : ExpertSource) (numExpert topK : ℤ) :
    List BatchedSequence → ℕ → Except String (List BatchedSequence × ℕ)
  | [], calls => .ok ([], calls)
  | b :: bs, calls => do
    let (b, calls) ← b.updateExpert m src numExpert topK calls
    let (bs, calls) ← updateExperts m src numExpert topK bs calls
    .ok (b :: bs, calls)

/-- `device->model_config` is `m`. Only the first device aggregates. -/
def aggregateExpert (m : ModelConfig) (rank : ℕ) (src : ExpertSource) (s : Scheduler)
    (calls : ℕ) : Except String (Scheduler × ℕ) :=
  if rank = 0 then do
    let (updated, calls) ← updateExperts s.modelConfig src m.numRoutedExpert m.topK s.runningQueue
      calls
    let stored ← updated.mapM (storeLocal m.numRoutedExpert)
    let temp := Tally.columns m.numRoutedExpert.toNat (updated.map (·.numTokenInExpert))
    let queue := stored.map fun b => { b with numTokenInExpert := temp }
    let testToken : ℤ := queue.length * temp.sum
    let s := { s with runningQueue := queue }
    if testToken = s.getNumProcessToken * m.topK * queue.length then .ok (s, calls)
    else
      .error ("Number of tokens in experts is not macthed, expected " ++
        toString (s.getNumProcessToken * m.topK) ++ ", but" ++ toString testToken)
  else .ok (s, calls)

/-! ### All batches -/

section Batches
variable {m : ModelConfig} {src : ExpertSource} {numExpert topK : ℤ}

theorem updateExperts_ok (hlayers : numLayer m ≠ 0) {bs : List BatchedSequence}
    (hlocal : ∀ b ∈ bs, Sized numExpert b.localNumTokenInExpert)
    (hrouted : ∀ b ∈ bs, ∀ t ∈ b.sequence, Routed src numExpert (numLayer m) topK b.curLayer t)
    (hnonneg : ∀ b ∈ bs, ∀ t ∈ b.sequence, 0 ≤ t.numProcessToken) (calls : ℕ) : ∃ bs' calls',
      updateExperts m src numExpert topK bs calls = .ok (bs', calls') ∧
        bs'.map (·.sequence) = bs.map (·.sequence) ∧ ∀ b ∈ bs', Counted numExpert topK b := by
  induction bs generalizing calls with
  | nil => exact ⟨[], calls, rfl, rfl, by simp⟩
  | cons b bs ih =>
    obtain ⟨hlocal, hlocals⟩ := List.forall_mem_cons.mp hlocal
    obtain ⟨hrouted, hrouteds⟩ := List.forall_mem_cons.mp hrouted
    obtain ⟨hnonneg, hnonnegs⟩ := List.forall_mem_cons.mp hnonneg
    obtain ⟨b', calls₁, hok, hseq, hcounted⟩ := updateExpert_ok hlayers hlocal hrouted hnonneg calls
    obtain ⟨bs', calls₂, hoks, hseqs, hcounteds⟩ := ih hlocals hrouteds hnonnegs calls₁
    refine ⟨b' :: bs', calls₂, ?_, ?_, List.forall_mem_cons.mpr ⟨hcounted, hcounteds⟩⟩
    · simp only [updateExperts, hok]
      change updateExperts m src numExpert topK bs calls₁ >>= _ = _
      rw [hoks]
      rfl
    · simp [hseq, hseqs]

theorem storeLocal_ok {b : BatchedSequence} (hlocal : Sized numExpert b.localNumTokenInExpert)
    (hsize : Sized numExpert b.numTokenInExpert) : storeLocal numExpert b
      = .ok { b with localNumTokenInExpert := b.numTokenInExpert } := by
  unfold Sized at hlocal hsize
  unfold storeLocal
  rw [if_pos ⟨hlocal.ge, hsize.ge⟩]
  have htake : b.numTokenInExpert.take numExpert.toNat = b.numTokenInExpert := by
    apply List.take_of_length_le
    omega
  have hdrop : b.localNumTokenInExpert.drop numExpert.toNat = [] := by
    apply List.drop_of_length_le
    omega
  rw [htake, hdrop, List.append_nil]

end Batches

/-- A batch with two tokens from the trace and an idle sequence, and one with a random token. -/
def twoBatches : Scheduler :=
  { Scheduler.create { numNode := 1, numDevice := 2 }
      { maxSeqLen := 8, inputLen := 2, outputLen := 3, numRoutedExpert := 4, topK := 2 } {}
      2 64 64 0 0 with
    runningQueue :=
      [{ BatchedSequence.create 4 2 with
          sequence :=
            [{ Sequence.start 0 0 2 3 with numProcessToken := 2 }, Sequence.start 1 0 2 3] },
        { BatchedSequence.create 4 2 with
          sequence := [{ Sequence.start 2 0 2 3 with
            numProcessToken := 1, getExpertFromList := false }] }] }

/-- Its trace has one sequence, and every random selection is the same. -/
def twoExperts : ExpertSource where
  expertList := [[[0, 3], [1, 2]]]
  random := fun _ => {0, 1}

end GateUpdate
end LlmSystem
