import LlmSystem.Hardware.Waiting
import LlmSystem.Module.ExpertCounts

/-!
The trace layer that a batch is at, against the decoder that asks for its experts.
`update_expert` counts modulo `num_layers / expert_freq`; which decoders have experts is decided
by the constructor of `LLM`.
-/
namespace LlmSystem

open Scheduler BatchedSequence

/-- With the field that only `LLM` reads. -/
structure LlmConfig extends ModelConfig where
  firstKDense : ℤ := 0
  deriving DecidableEq, Repr

/-- `Decoder` or `MoEDecoder`, with its layer. -/
inductive Decoder where
  | dense (layer : ℤ)
  | moe (layer : ℤ)
  deriving DecidableEq, Repr

def Decoder.hasExperts : Decoder → Bool
  | .dense _ => false
  | .moe _ => true

/-- The trace layers of all batches. -/
def traceLayers (s : Scheduler) : List ℕ := s.runningQueue.map (·.curLayer)

namespace LLM

/-- `for (int layer = first; layer < last; layer++)`. -/
def layers (first last : ℤ) : List ℤ :=
  (List.range (last - first).toNat).map fun i : ℕ => first + i

/-- The decoders, in the order in which the constructor adds them and `forward` calls them. -/
def decoders (c : LlmConfig) : List Decoder :=
  if c.modelName ≠ "deepseekV3" then
    (layers 0 c.numLayers).map fun layer =>
      if c.expertFreq ≠ 0 ∧ layer.tmod c.expertFreq = 0 then .moe layer else .dense layer
  else (layers 0 c.firstKDense).map .dense ++ (layers c.firstKDense c.numLayers).map .moe

/-- What a decoder does to the batches: on the first device, the gate update of a decoder with
experts aggregates them. -/
def decode (c : LlmConfig) (src : ExpertSource) (acc : Scheduler × ℕ) :
    Decoder → Except String (Scheduler × ℕ)
  | .dense _ => .ok acc
  | .moe _ => GateUpdate.aggregateExpert c.toModelConfig 0 src acc.1 acc.2

def forward (c : LlmConfig) (src : ExpertSource) (acc : Scheduler × ℕ) :
    Except String (Scheduler × ℕ) := (decoders c).foldlM (decode c src) acc

/-- The trace layers that the `update_expert` calls of a decoder read, one for each batch. -/
def reads (acc : Scheduler × ℕ) : Decoder → List (List ℕ)
  | .dense _ => []
  | .moe _ => [traceLayers acc.1]

/-- Those of a whole forward, with one entry for each decoder with experts. -/
def layersRead (c : LlmConfig) (src : ExpertSource) (acc : Scheduler × ℕ) : List (List ℕ) :=
  Runs.log (decode c src) reads acc (decoders c)

/-- The number of decoders with experts. -/
def routed (c : LlmConfig) : ℕ := (decoders c).countP Decoder.hasExperts

/-! ### How many decoders have experts -/

/-- As many as the trace has layers, or none. -/
def LayersFit (c : LlmConfig) : Prop :=
  (c.modelName ≠ "deepseekV3" → c.expertFreq ∣ c.numLayers) ∧
  (c.modelName = "deepseekV3" → c.numLayers ≤ c.firstKDense ∨
    c.numLayers - c.firstKDense = c.numLayers.tdiv c.expertFreq)

instance (c : LlmConfig) : Decidable (LayersFit c) := inferInstanceAs (Decidable (_ ∧ _))

theorem length_layers (first last : ℤ) : (layers first last).length = (last - first).toNat := by
  simp [layers]

theorem routed_deepseek {c : LlmConfig} (hname : c.modelName = "deepseekV3") :
    routed c = (c.numLayers - c.firstKDense).toNat := by
  unfold routed decoders
  rw [if_neg (by simp [hname]), List.countP_append, List.countP_map, List.countP_map,
    ← length_layers]
  have hdense : (layers 0 c.firstKDense).countP (Decoder.hasExperts ∘ Decoder.dense) = 0 := by
    apply List.countP_eq_zero.mpr
    simp [Decoder.hasExperts]
  rw [hdense, Nat.zero_add]
  apply List.countP_eq_length.mpr
  simp [Decoder.hasExperts]

theorem routed_other {c : LlmConfig} (hname : c.modelName ≠ "deepseekV3")
    (hfreq : 1 ≤ c.expertFreq) (hlayers : c.expertFreq ≤ c.numLayers) :
    (routed c : ℤ) = numLayer c.toModelConfig
      + if c.expertFreq ∣ c.numLayers then 0 else 1 := by
  obtain ⟨f, hf⟩ := Int.eq_ofNat_of_zero_le (show 0 ≤ c.expertFreq by omega)
  obtain ⟨n, hn⟩ := Int.eq_ofNat_of_zero_le (show 0 ≤ c.numLayers by omega)
  have htest : ∀ i : ℕ, (if c.expertFreq ≠ 0 ∧ ((0 : ℤ) + i).tmod c.expertFreq = 0 then
      Decoder.moe (0 + i) else .dense (0 + i)).hasExperts = decide (f ∣ i) := by
    intro i
    have hmod : ((0 : ℤ) + i).tmod c.expertFreq = 0 ↔ f ∣ i := by
      rw [zero_add, hf, ← Int.dvd_iff_tmod_eq_zero]
      exact Int.natCast_dvd_natCast
    by_cases hdvd : f ∣ i
    · rw [if_pos ⟨by omega, hmod.mpr hdvd⟩]
      simp [Decoder.hasExperts, hdvd]
    · rw [if_neg fun h => hdvd (hmod.mp h.2)]
      simp [Decoder.hasExperts, hdvd]
  have hcount : routed c = (List.range n).countP fun i => decide (f ∣ i) := by
    unfold routed decoders layers
    rw [if_pos hname, List.countP_map, List.countP_map, hn]
    apply List.countP_congr
    intro i _
    rw [← htest i]
    rfl
  have hquot : numLayer c.toModelConfig = (n / f : ℕ) := by
    unfold numLayer
    rw [hf, hn]
    exact (Int.tdiv_eq_ediv_of_nonneg (by omega)).trans (Int.natCast_div n f).symm
  have hdvd : c.expertFreq ∣ c.numLayers ↔ f ∣ n := by
    rw [hf, hn]
    exact Int.natCast_dvd_natCast
  rw [hcount, Residues.countP_dvd_range, hquot]
  simp only [hdvd]
  push_cast
  rfl

theorem one_le_numLayer {c : LlmConfig} (hfreq : 1 ≤ c.expertFreq)
    (hlayers : c.expertFreq ≤ c.numLayers) : 1 ≤ numLayer c.toModelConfig := by
  unfold numLayer
  rw [Int.tdiv_eq_ediv_of_nonneg (by omega)]
  exact (Int.le_ediv_iff_mul_le (by omega)).mpr (by omega)

theorem layersFit_iff {c : LlmConfig} (hfreq : 1 ≤ c.expertFreq)
    (hlayers : c.expertFreq ≤ c.numLayers) :
    LayersFit c ↔ routed c = 0 ∨ (routed c : ℤ) = numLayer c.toModelConfig := by
  have hquot := one_le_numLayer hfreq hlayers
  unfold LayersFit
  by_cases hname : c.modelName = "deepseekV3"
  · have hrouted := routed_deepseek hname
    change _ ∧ (_ → _ ∨ c.numLayers - c.firstKDense = numLayer c.toModelConfig) ↔ _
    simp only [hname, ne_eq, not_true_eq_false, false_implies, true_and, forall_const]
    omega
  · have hrouted := routed_other hname hfreq hlayers
    by_cases hdvd : c.expertFreq ∣ c.numLayers
    · simp [hname, hdvd, hrouted]
    · simp only [hdvd, ↓reduceIte] at hrouted
      simp only [hname, ne_eq, not_false_eq_true, hdvd, forall_const, false_and, false_iff]
      omega

end LLM

/-! ### What moves the trace layers -/

section Aggregate
variable {src : ExpertSource} {L : ℕ}

theorem updateExpert_curLayer {m : ModelConfig} (hL : numLayer m = L) {numExpert topK : ℤ}
    {b b' : BatchedSequence} {calls calls' : ℕ}
    (h : b.updateExpert m src numExpert topK calls = .ok (b', calls')) :
    b'.curLayer = (b.curLayer + 1) % L := by
  unfold updateExpert at h
  obtain ⟨acc, -, h⟩ := Runs.bind_eq_ok h
  dsimp only at h
  split_ifs at h
  obtain ⟨rfl, -⟩ := Prod.mk.inj (Except.ok.inj h)
  simp only [counted, clearExpert, hL]
  rw [Int.tmod_eq_emod_of_nonneg (by omega)]
  norm_cast

theorem updateExperts_curLayer {m : ModelConfig} (hL : numLayer m = L) {numExpert topK : ℤ}
    {bs bs' : List BatchedSequence} {calls calls' : ℕ}
    (h : GateUpdate.updateExperts m src numExpert topK bs calls = .ok (bs', calls')) :
    bs'.map (·.curLayer) = bs.map fun b => (b.curLayer + 1) % L := by
  induction bs generalizing bs' calls calls' with
  | nil =>
    obtain ⟨rfl, -⟩ := Prod.mk.inj (Except.ok.inj h)
    rfl
  | cons b bs ih =>
    unfold GateUpdate.updateExperts at h
    obtain ⟨⟨b₁, calls₁⟩, hb, h⟩ := Runs.bind_eq_ok h
    obtain ⟨⟨bs₁, calls₂⟩, hbs, h⟩ := Runs.bind_eq_ok h
    obtain ⟨rfl, -⟩ := Prod.mk.inj (Except.ok.inj h)
    simp only [List.map_cons, updateExpert_curLayer hL hb, ih hbs]

/-- One aggregation takes every batch to its next layer. -/
theorem aggregateExpert_layers {m : ModelConfig} {s s' : Scheduler} {calls calls' : ℕ}
    (hL : numLayer s.modelConfig = L)
    (h : GateUpdate.aggregateExpert m 0 src s calls = .ok (s', calls')) :
    s'.modelConfig = s.modelConfig ∧
      traceLayers s' = (traceLayers s).map fun l => (l + 1) % L := by
  unfold GateUpdate.aggregateExpert at h
  obtain ⟨⟨updated, calls₁⟩, hupdated, h⟩ := Runs.bind_eq_ok h
  obtain ⟨stored, hstored, h⟩ := Runs.bind_eq_ok h
  dsimp only at h
  split_ifs at h
  obtain ⟨rfl, -⟩ := Prod.mk.inj (Except.ok.inj h)
  have hsame : stored.map (·.curLayer) = updated.map (·.curLayer) := by
    apply Runs.map_of_mapM _ hstored
    intro b b' hb
    unfold storeLocal at hb
    split_ifs at hb
    obtain rfl := Except.ok.inj hb
    rfl
  refine ⟨rfl, ?_⟩
  simp only [traceLayers, List.map_map]
  change stored.map (·.curLayer) = _
  rw [hsame, updateExperts_curLayer hL hupdated]
  rfl

/-- One forward, from the start of the trace. -/
theorem forward_layers {c : LlmConfig} {n : ℕ} {acc acc' : Scheduler × ℕ}
    (hL : numLayer acc.1.modelConfig = L) (hzero : traceLayers acc.1 = List.replicate n 0)
    (h : LLM.forward c src acc = .ok acc') :
    numLayer acc'.1.modelConfig = L ∧ traceLayers acc'.1 = List.replicate n (LLM.routed c % L) ∧
      LLM.layersRead c src acc
        = (List.range (LLM.routed c)).map fun i => List.replicate n (i % L) := by
  have hrun := Runs.Run.of_foldlM h
  apply hrun.invariant_trace (I := fun ds acc' => numLayer acc'.1.modelConfig = L ∧
    traceLayers acc'.1 = List.replicate n (ds.countP Decoder.hasExperts % L) ∧
    Runs.log (LLM.decode c src) LLM.reads acc ds
      = (List.range (ds.countP Decoder.hasExperts)).map fun i => List.replicate n (i % L))
  · refine ⟨hL, ?_, rfl⟩
    simpa using hzero
  · intro ds acc₁ d acc₂ hpre ⟨hmod, hlayers, hlog⟩ hstep
    rw [Runs.log_append _ hpre]
    cases d with
    | dense layer =>
      obtain rfl := Except.ok.inj hstep
      refine ⟨hmod, ?_, ?_⟩
      · simpa [Decoder.hasExperts] using hlayers
      · simpa [Decoder.hasExperts, LLM.reads] using hlog
    | moe layer =>
      obtain ⟨hconfig, hnext⟩ := aggregateExpert_layers hmod hstep
      refine ⟨by rw [hconfig]; exact hmod, ?_, ?_⟩
      · rw [hnext, hlayers]
        simp [Decoder.hasExperts, List.countP_append]
      · rw [hlog]
        simp [Decoder.hasExperts, LLM.reads, List.countP_append, List.range_succ, hlayers]

end Aggregate

namespace Cluster

/-- An iteration from the scheduler that `run` leaves behind. -/
def finish (split : Bool) (s : LoopState) (sch : Scheduler) (i : IterInput) :
    Except String LoopState :=
  if sch.getNumProcessToken = 0 then .ok { s with scheduler := sch }
  else if split && sch.hasSumSeq then .ok (summarize s sch i)
  else generate s sch i

theorem iterate_eq (split : Bool) (s : LoopState) (i : IterInput) :
    iterate split s i = finish split s s.scheduler.setMetadata i := by
  unfold iterate finish runIterationSumGenSplit runIterationMixed
  cases split
  · rfl
  · dsimp only
    cases s.scheduler.setMetadata.hasSumSeq <;> rfl

end Cluster

namespace Scheduler

/-- Nothing but an aggregation moves the trace layers. -/
structure KeepsLayers (s s' : Scheduler) : Prop where
  layers : traceLayers s' = traceLayers s
  modulus : numLayer s'.modelConfig = numLayer s.modelConfig

namespace KeepsLayers
variable {s s' s'' : Scheduler}

theorem trans (h : KeepsLayers s s') (h' : KeepsLayers s' s'') : KeepsLayers s s'' :=
  ⟨h'.layers.trans h.layers, h'.modulus.trans h.modulus⟩

theorem of_map {f : BatchedSequence → BatchedSequence} (hf : ∀ b, (f b).curLayer = b.curLayer) :
    KeepsLayers s { s with runningQueue := s.runningQueue.map f } := by
  constructor
  · simp [traceLayers, hf]
  · rfl

theorem setMetadata (s : Scheduler) : KeepsLayers s s.setMetadata := of_map fun _ => rfl

theorem setGenStart (s : Scheduler) (tokens : List Sequence) (time : ℚ) :
    KeepsLayers s (s.setGenStart tokens time) := of_map fun _ => rfl

theorem collectToken_curLayer (acc : BatchedSequence × List Sequence) (t : Sequence) :
    (collectToken acc t).1.curLayer = acc.1.curLayer := by
  unfold collectToken
  split_ifs <;> rfl

theorem foldl_curLayer {f : BatchedSequence × List Sequence → Sequence →
      BatchedSequence × List Sequence} (hf : ∀ acc t, (f acc t).1.curLayer = acc.1.curLayer)
    (l : List Sequence) (acc : BatchedSequence × List Sequence) :
    (l.foldl f acc).1.curLayer = acc.1.curLayer := by
  induction l generalizing acc with
  | nil => rfl
  | cons t l ih => exact (ih _).trans (hf acc t)

theorem updateScheduler (s : Scheduler) (time : ℚ) : KeepsLayers s (s.updateScheduler time).1 :=
  of_map fun _ => foldl_curLayer collectToken_curLayer _ _

theorem updateSchedulerSumGenSplit (s : Scheduler) (time : ℚ) :
    KeepsLayers s (s.updateSchedulerSumGenSplit time).1 :=
  of_map fun b => foldl_curLayer (f := updateAndCollect time (s.totalTime + time))
    (fun _ _ => collectToken_curLayer _ _) b.getSum (b, [])

theorem fillSequenceQueue {iterTime totalTime : ℚ} {draws : List ℕ}
    (h : s.fillSequenceQueue iterTime totalTime draws = .ok s') : KeepsLayers s s' := by
  obtain ⟨new, hnew⟩ := pushSeq_pushes h
  rw [hnew.frame]
  constructor
  · rfl
  · change numLayer s.pushModel = _
    unfold pushModel clampOutputLen
    split_ifs <;> rfl

theorem fillRunningQueue (s : Scheduler) : KeepsLayers s s.fillRunningQueue := by
  obtain ⟨k, hk⟩ := s.fillRunningQueue_moves
  constructor
  · have hsame : List.Forall₂ (fun l l' => l = l') (traceLayers s)
        (traceLayers s.fillRunningQueue) := by
      unfold traceLayers
      rw [List.forall₂_map_left_iff, List.forall₂_map_right_iff]
      apply hk.grow.imp
      rintro b b' ⟨new, rfl, -⟩
      rfl
    rw [List.forall₂_eq_eq_eq] at hsame
    exact hsame.symm
  · rw [hk.frame]

/-- What an iteration does after its forward. -/
theorem finish {split : Bool} {s t : LoopState} {sch : Scheduler} {i : IterInput}
    (h : Cluster.finish split s sch i = .ok t) : KeepsLayers sch t.scheduler := by
  unfold Cluster.finish at h
  split_ifs at h
  · obtain rfl := Except.ok.inj h
    exact ⟨rfl, rfl⟩
  · obtain rfl := Except.ok.inj h
    exact (updateSchedulerSumGenSplit _ _).trans (setGenStart _ _ _)
  · unfold Cluster.generate at h
    obtain ⟨sch', hfill, h⟩ := Runs.bind_eq_ok h
    obtain rfl := Except.ok.inj h
    have htime : KeepsLayers sch { sch with totalTime := s.totalTime + i.deviceTime } :=
      ⟨rfl, rfl⟩
    exact (((htime.trans (updateScheduler _ _)).trans (setGenStart _ _ _)).trans
      (fillSequenceQueue hfill)).trans (fillRunningQueue _)

/-- Before the first iteration. -/
theorem warm {s₀ : Scheduler} {s : LoopState} (h : Cluster.Warm s₀ s) :
    KeepsLayers s₀ s.scheduler := by
  apply h.rule
  · intro times draws s₁ hfill
    have hstart : KeepsLayers s₀ (s₀.getActualArrivalTime times) := ⟨rfl, rfl⟩
    exact (hstart.trans (fillSequenceQueue hfill)).trans (fillRunningQueue _)
  · intro s s' draws hs hok
    obtain ⟨s₁, hfill, hok⟩ := Runs.bind_eq_ok hok
    obtain rfl := Except.ok.inj hok
    have hupdate := (hs.trans (setMetadata s)).trans (updateScheduler s.setMetadata 0)
    exact (hupdate.trans (fillSequenceQueue hfill)).trans (fillRunningQueue _)

end KeepsLayers
end Scheduler

/-! ### Iterations -/

/-- The state of a loop, with the number of calls that the random selectors have had. -/
structure TracedState where
  loop : LoopState
  calls : ℕ := 0
  deriving Repr

namespace TracedState

/-- The batches as `run` gets them. -/
def metadata (u : TracedState) : Scheduler × ℕ := (u.loop.scheduler.setMetadata, u.calls)

/-- An iteration of either loop with the forward that `run` makes of it. -/
def iterate (c : LlmConfig) (src : ExpertSource) (split : Bool) (u : TracedState)
    (i : IterInput) : Except String TracedState := do
  let (sch, calls) ← LLM.forward c src u.metadata
  let loop ← Cluster.finish split u.loop sch i
  .ok { loop, calls }

/-- In the forward of an iteration: all batches start at layer 0, each decoder with experts
reads the layer of its number, and the calls are a multiple of the number of layers. -/
structure Aligned (c : LlmConfig) (src : ExpertSource) (u : TracedState) : Prop where
  calls : numLayer c.toModelConfig ∣ (LLM.layersRead c src u.metadata).length
  start : ∀ l ∈ traceLayers u.loop.scheduler, l = 0
  reads : ∀ (k : ℕ) (ls : List ℕ), (LLM.layersRead c src u.metadata)[k]? = some ls →
    ∀ l ∈ ls, l = k

/-- All batches are at the start of the trace. -/
structure AtStart (c : LlmConfig) (n : ℕ) (u : TracedState) : Prop where
  layers : traceLayers u.loop.scheduler = List.replicate n 0
  modulus : numLayer u.loop.scheduler.modelConfig = numLayer c.toModelConfig

variable {c : LlmConfig} {src : ExpertSource} {split : Bool} {u v : TracedState} {i : IterInput}
  {n : ℕ}

/-- The iteration read `routed` layers and moved the batches as far. -/
theorem iterate_layers (hu : AtStart c n u) {L : ℕ} (hL : numLayer c.toModelConfig = L)
    (h : u.iterate c src split i = .ok v) :
    LLM.layersRead c src u.metadata
        = ((List.range (LLM.routed c)).map fun k => List.replicate n (k % L)) ∧
      traceLayers v.loop.scheduler = List.replicate n (LLM.routed c % L) ∧
      numLayer v.loop.scheduler.modelConfig = numLayer c.toModelConfig := by
  obtain ⟨⟨sch, calls⟩, hforward, h⟩ := Runs.bind_eq_ok h
  obtain ⟨loop, hfinish, h⟩ := Runs.bind_eq_ok h
  obtain rfl := Except.ok.inj h
  have hmeta := KeepsLayers.setMetadata u.loop.scheduler
  obtain ⟨hmod, hlayers, hread⟩ := forward_layers (L := L)
    (hmeta.modulus.trans (hu.modulus.trans hL)) (hmeta.layers.trans hu.layers) hforward
  have hkeep := KeepsLayers.finish hfinish
  exact ⟨hread, hkeep.layers.trans hlayers, hkeep.modulus.trans (hmod.trans hL.symm)⟩

theorem aligned_iff (hu : AtStart c n u) (hn : 1 ≤ n) {L : ℕ}
    (hL : numLayer c.toModelConfig = L) (h : u.iterate c src split i = .ok v) :
    Aligned c src u ↔ LLM.routed c = 0 ∨ LLM.routed c = L := by
  obtain ⟨hread, -, -⟩ := iterate_layers hu hL h
  constructor
  · intro ha
    have hdvd : L ∣ LLM.routed c := by
      have hcalls := ha.calls
      rw [hread, hL] at hcalls
      simpa [Int.natCast_dvd_natCast] using hcalls
    by_contra hnot
    -- the decoder after the last layer would read layer 0 again
    have hmore : L < LLM.routed c := by
      have hle := Nat.le_of_dvd (by omega) hdvd
      omega
    have hget : (LLM.layersRead c src u.metadata)[L]? = some (List.replicate n 0) := by
      rw [hread]
      simp [hmore]
    have hzero := ha.reads L _ hget 0 (by simp; omega)
    rw [← hzero] at hdvd
    simp at hdvd
    omega
  · intro hfit
    constructor
    · rw [hread, hL]
      rcases hfit with hfit | hfit <;> simp [hfit]
    · simp [hu.layers]
    · intro k ls hget l hl
      rw [hread] at hget
      simp only [List.getElem?_map, Option.map_eq_some_iff] at hget
      obtain ⟨k', hk', rfl⟩ := hget
      obtain ⟨hlt, rfl⟩ := List.getElem?_eq_some_iff.mp hk'
      have hlt : k < LLM.routed c := by simpa using hlt
      have hl : l = k % L := by simpa using List.eq_of_mem_replicate hl
      rw [hl]
      apply Nat.mod_eq_of_lt
      omega

/-- If the layers fit, a forward brings the batches back to the start. -/
theorem AtStart.iterate (hu : AtStart c n u) {L : ℕ} (hL : numLayer c.toModelConfig = L)
    (hfit : LLM.routed c = 0 ∨ LLM.routed c = L) (h : u.iterate c src split i = .ok v) :
    AtStart c n v := by
  obtain ⟨-, hend, hmod⟩ := iterate_layers hu hL h
  have hzero : LLM.routed c % L = 0 := by
    rcases hfit with hfit | hfit <;> simp [hfit]
  constructor
  · rw [hend, hzero]
  · exact hmod

end TracedState

open TracedState

/-- From every warmed-up state and in every run of either loop with an iteration: all of its
forwards are aligned exactly if the decoders with experts are as many as the trace has layers. -/
theorem layers_aligned (c : LlmConfig) (sys : SystemConfig) (trace : ExpertTrace)
    (total maxBatched maxProcess : ℤ) (rotate countId : ℕ) {s₀ : Scheduler}
    (hs₀ : s₀ = Scheduler.create sys c.toModelConfig trace total maxBatched maxProcess rotate
      countId)
    (hdp : 1 ≤ s₀.dpDegree) (hfreq : 1 ≤ c.expertFreq) (hlayers : c.expertFreq ≤ c.numLayers)
    (src : ExpertSource) (split : Bool) {u v : TracedState} (hwarm : Cluster.Warm s₀ u.loop)
    {inputs : List IterInput} (hsome : inputs ≠ [])
    (hrun : Runs.Run (fun u i v => u.iterate c src split i = .ok v) u inputs v) :
    (∀ pre i post w x, inputs = pre ++ i :: post →
      Runs.Run (fun u i v => u.iterate c src split i = .ok v) u pre w →
      w.iterate c src split i = .ok x → Aligned c src w) ↔ LLM.LayersFit c := by
  obtain ⟨L, hL⟩ := Int.eq_ofNat_of_zero_le
    (zero_le_one.trans (LLM.one_le_numLayer hfreq hlayers))
  have hkeep := KeepsLayers.warm hwarm
  have hn : 1 ≤ s₀.dpDegree.toNat := by omega
  have hu : AtStart c s₀.dpDegree.toNat u := by
    constructor
    · rw [hkeep.layers]
      subst hs₀
      simp [traceLayers, Scheduler.create, initRunningQueue, BatchedSequence.create]
    · rw [hkeep.modulus]
      subst hs₀
      rfl
  have hiff : LLM.LayersFit c ↔ LLM.routed c = 0 ∨ LLM.routed c = L := by
    rw [LLM.layersFit_iff hfreq hlayers, hL]
    norm_cast
  constructor
  · intro haligned
    cases hrun with
    | nil => exact absurd rfl hsome
    | cons hstep _ =>
      have hfirst := haligned [] _ _ _ _ rfl (.nil _) hstep
      exact hiff.mpr ((aligned_iff hu hn hL hstep).mp hfirst)
  · intro hfit pre i post w x _ hpre hstep
    have hw : AtStart c s₀.dpDegree.toNat w :=
      hpre.invariant (I := AtStart c s₀.dpDegree.toNat)
        (fun _ _ _ hs h => hs.iterate hL (hiff.mp hfit) h) hu
    exact (aligned_iff hw hn hL hstep).mpr (hiff.mp hfit)

/-- A trace of one request, and experts of its tokens that are the same in every layer. -/
def oneRequest : ExpertTrace where
  realData := true
  totalSeqNum := 1
  sequencesInfo := [⟨1, 2⟩]

def sameExperts (topK : ℕ) : ExpertSource where
  expertList := [List.replicate 120 ((List.range topK).map fun e : ℕ => (e : ℤ))]

/-- One device with this request. -/
def oneDevice (c : LlmConfig) : Scheduler :=
  Scheduler.create { numNode := 1, numDevice := 1 } c.toModelConfig oneRequest 1 64 64 0 0

/-- The trace layers after its first iteration. -/
def firstIteration (c : LlmConfig) (src : ExpertSource) : Except String (List ℕ) := do
  let sch ← Cluster.warmUp ((oneDevice c).getActualArrivalTime []) [0] []
  let v ← TracedState.iterate c src false { loop := { scheduler := sch } } { deviceTime := 1 }
  .ok (traceLayers v.loop.scheduler)

theorem exists_firstIteration {c : LlmConfig} {src : ExpertSource} {ls : List ℕ}
    (h : firstIteration c src = .ok ls) : ∃ u v : TracedState, Cluster.Warm (oneDevice c) u.loop ∧
      u.iterate c src false { deviceTime := 1 } = .ok v ∧ traceLayers v.loop.scheduler = ls := by
  obtain ⟨sch, hsch, h⟩ := Runs.bind_eq_ok h
  obtain ⟨v, hv, h⟩ := Runs.bind_eq_ok h
  exact ⟨{ loop := { scheduler := sch } }, v, ⟨[], [0], [], hsch, rfl, rfl⟩, hv, Except.ok.inj h⟩

/-- Every other of four decoders has experts. -/
def fourLayers : LlmConfig where
  maxSeqLen := 8
  inputLen := 2
  outputLen := 3
  numRoutedExpert := 4
  topK := 2
  numLayers := 4
  expertFreq := 2

theorem layers_aligned_four_layers : ∃ u v : TracedState,
    Cluster.Warm (oneDevice fourLayers) u.loop ∧
    u.iterate fourLayers (sameExperts 2) false { deviceTime := 1 } = .ok v ∧
    Aligned fourLayers (sameExperts 2) u := by
  have hfirst : firstIteration fourLayers (sameExperts 2) = .ok [0] := by decide +kernel
  obtain ⟨u, v, hwarm, hv, -⟩ := exists_firstIteration hfirst
  exact ⟨u, v, hwarm, hv, (layers_aligned fourLayers _ oneRequest 1 64 64 0 0 rfl (by decide)
    (by decide) (by decide) (sameExperts 2) false hwarm (by simp) (.cons hv (.nil v))).mpr
      (by decide) [] _ [] u v rfl (.nil u) hv⟩

/-- The configuration of the source with this name. -/
def deepseekV3 : LlmConfig where
  maxSeqLen := 131072
  inputLen := 2
  outputLen := 3
  numRoutedExpert := 256
  topK := 8
  numLayers := 60
  expertFreq := 1
  precisionByte := 1
  modelName := "deepseekV3"
  firstKDense := 3

/-- Its second iteration starts at layer 57. -/
theorem layers_drift : ∃ u v : TracedState, Cluster.Warm (oneDevice deepseekV3) u.loop ∧
    u.iterate deepseekV3 (sameExperts 8) false { deviceTime := 1 } = .ok v ∧
    traceLayers v.loop.scheduler = [57] ∧ ¬Aligned deepseekV3 (sameExperts 8) v := by
  have hfirst : firstIteration deepseekV3 (sameExperts 8) = .ok [57] := by decide +kernel
  obtain ⟨u, v, hwarm, hv, hlayers⟩ := exists_firstIteration hfirst
  refine ⟨u, v, hwarm, hv, hlayers, ?_⟩
  intro ha
  have hzero := ha.start 57 (by simp [hlayers])
  exact absurd hzero (by decide)

end LlmSystem
