import LlmSystem.Lib.Selections
import LlmSystem.Module.Intervals
import LlmSystem.Module.LlmForward

/-!
`setTimeBreakDown` divides the time of an iteration by the names of the modules. The names of an
LLM are such that no module that is counted is inside of another, up to the communication in
`expertFFN`, which is subtracted there.
-/
namespace LlmSystem

open Runs Nesting

variable {N : ℕ} {σ : Type}

/-- The names of `setTimeBreakDown`, of both branches, apart from those below. -/
def ownNames : List String :=
  ["attn_qkv_proj", "attn_q_down_proj", "attn_kv_down_proj", "attn_kr_proj", "attn_q_up_proj",
    "attn_qr_proj", "attn_kv_up_proj", "attn_tr_k_up_proj", "attn_v_up_proj", "AttentionSum",
    "AttentionGen", "attn_o_proj", "feedforward", "k_rope", "q_rope", "input_layer_norm",
    "latent_q_layer_norm", "latent_kv_layer_norm", "post_attn_layer_norm", "residual_1",
    "residual_2"]

def commNames : List String := ["all_reduce", "moe_scatter", "moe_gather"]

def commInExpertFFNNames : List String :=
  ["moe_scatter", "moe_all_reduce_for_e_tp", "moe_all_reduce_for_gather", "moe_gather"]

/-- The durations of all stamps that are found under some names. -/
def TimeBoard.timeOf (names : List String) (b : TimeBoard) : ℚ :=
  (names.map fun name => ((b.findStamp name).map Stamp.getDuration).sum).sum

/-- The times of a `Stat`; those that a branch does not set are 0 here. -/
structure TimeStat where
  qkvGen : ℚ := 0
  qDownProj : ℚ := 0
  kvDownProj : ℚ := 0
  krProj : ℚ := 0
  qUpProj : ℚ := 0
  qrProj : ℚ := 0
  kvUpProj : ℚ := 0
  trKUpProj : ℚ := 0
  vUpProj : ℚ := 0
  attenSum : ℚ := 0
  attenGen : ℚ := 0
  oProj : ℚ := 0
  ffn : ℚ := 0
  expertFfn : ℚ := 0
  communication : ℚ := 0
  rope : ℚ := 0
  layernorm : ℚ := 0
  residual : ℚ := 0

def TimeStat.categories (t : TimeStat) : List ℚ :=
  [t.qkvGen, t.qDownProj, t.kvDownProj, t.krProj, t.qUpProj, t.qrProj, t.kvUpProj, t.trKUpProj,
    t.vUpProj, t.attenSum, t.attenGen, t.oProj, t.ffn, t.expertFfn, t.communication, t.rope,
    t.layernorm, t.residual]

/-- The times of `setTimeBreakDown`. The branch is taken by another head dimension than the one
that decides between the attention modules. -/
def TimeBoard.setTimeBreakDown (c : LayerConfig) (b : TimeBoard) : TimeStat :=
  let stat : TimeStat :=
    { attenSum := b.timeOf ["AttentionSum"]
      attenGen := b.timeOf ["AttentionGen"]
      oProj := b.timeOf ["attn_o_proj"]
      ffn := b.timeOf ["feedforward"]
      expertFfn := b.timeOf ["expertFFN"] - b.timeOf commInExpertFFNNames
      communication := b.timeOf commNames
      rope := b.timeOf ["k_rope", "q_rope"]
      residual := b.timeOf ["residual_1", "residual_2"] }
  if c.qkNopeHeadDim = 0 then
    { stat with
      qkvGen := b.timeOf ["attn_qkv_proj"]
      layernorm := b.timeOf ["input_layer_norm", "post_attn_layer_norm"] }
  else
    { stat with
      qDownProj := b.timeOf ["attn_q_down_proj"]
      kvDownProj := b.timeOf ["attn_kv_down_proj"]
      krProj := b.timeOf ["attn_kr_proj"]
      qUpProj := b.timeOf ["attn_q_up_proj"]
      qrProj := b.timeOf ["attn_qr_proj"]
      kvUpProj := b.timeOf ["attn_kv_up_proj"]
      trKUpProj := b.timeOf ["attn_tr_k_up_proj"]
      vUpProj := b.timeOf ["attn_v_up_proj"]
      layernorm := b.timeOf ["input_layer_norm", "latent_q_layer_norm", "latent_kv_layer_norm",
        "post_attn_layer_norm"] }

/-! ### Names with numbers -/

/-- A stamp with the name is found under the pattern. -/
def found (pattern name : String) : Bool := Stamp.hasName pattern { name }

/-- The characters of numbers. -/
def numeral (c : Char) : Bool := c.isDigit || c == '-'

def letters (s : String) : List Char := s.toList.filter fun c => !numeral c

theorem letters_toString_nat (n : ℕ) : letters (toString n) = [] := by
  unfold letters
  rw [List.filter_eq_nil_iff]
  intro c hc
  have hdigit : c.isDigit = true :=
    Nat.isDigit_of_mem_toDigits (b := 10) (n := n) (by decide) (by decide) (by simpa using hc)
  simp [numeral, hdigit]

theorem letters_append (s t : String) : letters (s ++ t) = letters s ++ letters t := by
  unfold letters
  rw [String.toList_append, List.filter_append]

theorem letters_toString_int (n : ℤ) : letters (toString n) = [] := by
  cases n with
  | ofNat n => exact letters_toString_nat n
  | negSucc n =>
    change letters ("-" ++ toString (n + 1)) = []
    rw [letters_append, letters_toString_nat]
    decide

/-- A number in a name does not help to find anything. -/
theorem letters_infix_of_found {pattern name number : String} (hnumber : letters number = [])
    (h : found pattern (name ++ number) = true) : letters pattern <:+: letters name := by
  have hcontained : pattern.toList <:+: (name ++ number).toList := by
    simpa [found, Stamp.hasName] using h
  have hinfix := hcontained.filter fun c => !numeral c
  change letters pattern <:+: letters (name ++ number) at hinfix
  rwa [letters_append, hnumber, List.append_nil] at hinfix

theorem hits_numbered {patterns : List String} {name number : String}
    (hnumber : letters number = []) (h : ∀ p ∈ patterns, ¬letters p <:+: letters name) :
    hits (patterns.map found) (name ++ number) = 0 := by
  apply List.countP_eq_zero.mpr
  intro p hp hfound
  obtain ⟨pattern, hmem, rfl⟩ := List.mem_map.mp hp
  exact h pattern hmem (letters_infix_of_found hnumber hfound)

/-! ### The names of the modules -/

/-- All names that are looked for. -/
def searched : List String := "expertFFN" :: (ownNames ++ commNames ++ commInExpertFFNNames)

/-- No name is found. -/
abbrev Unfound (F : Forest String) : Prop := F.Silent (searched.map found)

/-- What is found under different names is apart, but for the communication in `expertFFN`. -/
abbrev Apart (F : Forest String) : Prop :=
  F.Divided (ownNames.map found) (commNames.map found) (commInExpertFFNNames.map found)
    (found "expertFFN")

theorem Apart.numbered {name number : String} (hnumber : letters number = [])
    (hname : ∀ p ∈ searched, ¬letters p <:+: letters name) {F : Forest String} (hF : Apart F) :
    Apart (.node (name ++ number) F .nil) := by
  have hclear : ∀ {patterns : List String}, patterns ⊆ searched →
      hits (patterns.map found) (name ++ number) = 0 := fun hsub =>
    hits_numbered hnumber fun p hp => hname p (hsub hp)
  have hwhole : ¬found "expertFFN" (name ++ number) = true := by
    intro hfound
    exact hname "expertFFN" (by decide) (letters_infix_of_found hnumber hfound)
  refine ⟨hclear (by decide), ?_, trivial⟩
  rw [if_neg hwhole, ← List.map_append, if_pos (hclear (by decide))]
  exact hF

theorem Unfound.numbered {name number : String} (hnumber : letters number = [])
    (hname : ∀ p ∈ searched, ¬letters p <:+: letters name) {F : Forest String} (hF : Unfound F) :
    Unfound (.node (name ++ number) F .nil) :=
  .node (hits_numbered hnumber hname) hF fun _ _ => rfl

section Names
variable (path : List String) (devices : List ℕ) (c : LayerConfig) (input : TensorName)

/-- The names of a module do not depend on where it is. -/
theorem apart_attention : Apart (attention path devices c input).names := by
  have hnames : Apart (Attention.forward [] [] "attention" ⟨[], ""⟩).names ∧
      ∀ useAbsorb : Bool,
        Apart (MultiLatentAttention.forward [] [] useAbsorb 0 "attention" ⟨[], ""⟩).names := by
    decide +kernel
  unfold attention
  split_ifs
  · exact hnames.1
  · cases c.useAbsorb with
    | false => exact hnames.2 false
    | true => exact hnames.2 true

/-- A feed-forward layer has no names of its own inside. -/
theorem names_feedForward (useDp : Bool) (name : String) : ∃ F, Unfound F ∧
    (feedForward path devices c useDp name input).names = .node name F .nil := by
  have hnames : Unfound (FeedForward2Way.forward [] [] "" ⟨[], ""⟩).names.children ∧
      ∀ useDp : Bool, Unfound (FeedForward3Way.forward [] [] useDp "" ⟨[], ""⟩).names.children := by
    decide +kernel
  unfold feedForward
  split_ifs
  · exact ⟨_, hnames.1, rfl⟩
  · refine ⟨_, hnames.2 useDp, ?_⟩
    cases useDp <;> rfl

/-- The modules without submodules that are neither in an attention nor in a feed-forward layer. -/
theorem apart_leaf {name : String} (h : name ∈ ["Embedding_layer", "input_layer_norm",
    "residual_1", "post_attn_layer_norm", "all_reduce", "residual_2", "lm_head"])
    (kind : LayerKind) (output : String) :
    Apart (Calls.leaf kind (name :: path) devices output input).names := by
  have hall : ∀ name ∈ ["Embedding_layer", "input_layer_norm", "residual_1",
      "post_attn_layer_norm", "all_reduce", "residual_2", "lm_head"],
      Apart (.node name .nil .nil) := by
    decide +kernel
  exact hall name h

/-- The stems of the names with numbers. -/
theorem stem_unfound {stem : String}
    (h : stem ∈ ["decoder_", "MoE_decoder_", "expert_FFN_", "shared_expert_FFN_"]) :
    ∀ p ∈ searched, ¬letters p <:+: letters stem := by
  have hall : ∀ stem ∈ ["decoder_", "MoE_decoder_", "expert_FFN_", "shared_expert_FFN_"],
      ∀ p ∈ searched, ¬letters p <:+: letters stem := by
    decide +kernel
  exact hall stem h

end Names

/-- What `expertFFN` asks of its content: communication is found under both groups of names. -/
structure ExpertNames (F : Forest String) : Prop where
  silent : F.Silent (ownNames.map found)
  paired : F.Paired (commNames.map found) (commInExpertFFNNames.map found)

namespace ExpertNames
variable {F G : Forest String}

theorem append (hF : ExpertNames F) (hG : ExpertNames G) : ExpertNames (F.append G) :=
  ⟨hF.silent.append hG.silent, hF.paired.append hG.paired⟩

theorem of_unfound (h : Unfound F) : ExpertNames F := by
  have hsub : ∀ {patterns : List String}, patterns ⊆ searched → F.Silent (patterns.map found) :=
    fun hsub => h.mono (List.map_subset found hsub)
  exact ⟨hsub (by decide), .of_silent (hsub (by decide)) (hsub (by decide))⟩

/-- The experts of a device, or those that are shared. -/
theorem each {ι : Type} (stem : String) (hstem : ∀ p ∈ searched, ¬letters p <:+: letters stem)
    {name : ι → String} (hname : ∀ i, letters (name i) = []) (path : List String)
    (devices : List ℕ) (c : LayerConfig) (useDp : Bool) (input : ι → TensorName) (l : List ι) :
    ExpertNames (Calls.each (fun i => feedForward path devices c useDp (stem ++ name i)
      (input i)) l).names := by
  induction l with
  | nil => exact of_unfound fun _ _ => rfl
  | cons i l ih =>
    obtain ⟨F, hF, hnames⟩ := names_feedForward path devices c (input i) useDp (stem ++ name i)
    unfold Calls.each
    rw [Calls.names_bind, hnames, Calls.names_bind]
    refine append (of_unfound (hF.numbered (hname i) hstem)) ?_
    exact ih.append (of_unfound fun _ _ => rfl)

end ExpertNames

variable (b : LlmDevice) (f : ExpertFFN) (path : List String) (input : TensorName)

/-- The calls before, between and after the experts, which have no numbers. -/
theorem expertNames_callForward : ∃ F, ExpertNames F ∧
    (ExpertFFN.callForward b f path "expertFFN" input).names = .node "expertFFN" F .nil := by
  let sync (name : String) : Forest String := (Sync.forward [] [] name ⟨[], ""⟩).names
  let before : Forest String := (sync "sync_0").append
    (.node "gate_fn" (.node "Linear" .nil .nil) (.node "gate_update" .nil (.node "moe_scatter" .nil
      ((sync "sync_for_moe_scatter").append (.node "moe_route" .nil .nil)))))
  let between : Forest String := (sync "sync_2").append (.node "moe_all_reduce_for_e_tp" .nil
    ((sync "sync_3").append (.node "moe_gather" .nil ((sync "sync_for_moe_gather").append
      (.node "moe_all_reduce_for_gather" .nil (sync "sync_5"))))))
  have hnames : ∀ F ∈ [before, between, sync "sync_6"], F.Silent (ownNames.map found) ∧
      F.Paired (commNames.map found) (commInExpertFFNNames.map found) := by
    decide +kernel
  simp only [List.forall_mem_cons] at hnames
  obtain ⟨⟨hs₀, hp₀⟩, ⟨hs₁, hp₁⟩, ⟨hs₂, hp₂⟩, -⟩ := hnames
  have hbefore : ExpertNames before := ⟨hs₀, hp₀⟩
  have hbetween : ExpertNames between := ⟨hs₁, hp₁⟩
  have hafter : ExpertNames (sync "sync_6") := ⟨hs₂, hp₂⟩
  have hexperts := ExpertNames.each "expert_FFN_" (stem_unfound (by decide)) letters_toString_nat
    ("expertFFN" :: path) b.expertDeviceList b.config false
    (fun expert => ⟨"moe_route" :: "expertFFN" :: path, "expert_input_" ++ toString expert⟩)
    f.experts
  have hshared := ExpertNames.each "shared_expert_FFN_" (stem_unfound (by decide))
    letters_toString_nat ("expertFFN" :: path) b.nonMoeDeviceList b.config true (fun _ => input)
    (List.range b.config.numSharedExpert)
  refine ⟨_, hbefore.append (hexperts.append (hbetween.append (hshared.append hafter))), ?_⟩
  unfold ExpertFFN.callForward
  rw [Calls.names_onTensor]
  simp only [Calls.names_bind]
  rfl

theorem apart_denseForward (layer : ℤ) :
    Apart (Decoder.denseForward b path ("decoder_" ++ toString layer) input).names := by
  unfold Decoder.denseForward
  rw [Calls.names_onTensor]
  apply Apart.numbered (letters_toString_int layer) (stem_unfound (by decide))
  simp only [Calls.names_bind]
  have hffn : ∀ path devices input,
      Apart (feedForward path devices b.config false "feedforward" input).names := by
    intro path devices input
    obtain ⟨F, hF, hnames⟩ := names_feedForward path devices b.config input false "feedforward"
    rw [hnames]
    refine ⟨by decide +kernel, ?_, trivial⟩
    rw [if_neg (by decide +kernel), if_neg (by decide +kernel)]
    refine ⟨by decide +kernel, ?_⟩
    rw [← List.map_append, ← List.map_append, ← List.map_cons]
    exact hF
  refine .append (apart_leaf _ _ _ (by decide) _ _) ?_
  refine (apart_attention _ _ _ _).append ?_
  refine .append (apart_leaf _ _ _ (by decide) _ _) ?_
  refine .append (apart_leaf _ _ _ (by decide) _ _) ?_
  refine (hffn _ _ _).append ?_
  refine .append (apart_leaf _ _ _ (by decide) _ _) ?_
  exact apart_leaf _ _ _ (by decide) _ _

theorem apart_moeForward (layer : ℤ) :
    Apart (MoEDecoder.forward b f path ("MoE_decoder_" ++ toString layer) input).names := by
  unfold MoEDecoder.forward
  rw [Calls.names_onTensor]
  apply Apart.numbered (letters_toString_int layer) (stem_unfound (by decide))
  simp only [Calls.names_bind]
  have hexperts : ∀ path input, Apart (ExpertFFN.callForward b f path "expertFFN" input).names := by
    intro path input
    obtain ⟨F, hF, hnames⟩ := expertNames_callForward b f path input
    rw [hnames]
    refine ⟨by decide +kernel, ?_, trivial⟩
    rw [if_pos (by decide +kernel)]
    exact ⟨by decide +kernel, hF.silent, hF.paired⟩
  refine .append (apart_leaf _ _ _ (by decide) _ _) ?_
  refine (apart_attention _ _ _ _).append ?_
  refine .append (apart_leaf _ _ _ (by decide) _ _) ?_
  refine .append (apart_leaf _ _ _ (by decide) _ _) ?_
  refine (hexperts _ _).append ?_
  exact apart_leaf _ _ _ (by decide) _ _

theorem apart_callForward : Apart (LLM.callForward b f input).names := by
  have hdecoders : ∀ (input : TensorName) (ds : List Decoder),
      Apart (Calls.each (Decoder.forward b f ["LLM"] input) ds).names := by
    intro input ds
    induction ds with
    | nil => trivial
    | cons d ds ih =>
      unfold Calls.each
      simp only [Calls.names_bind]
      have hd : Apart (Decoder.forward b f ["LLM"] input d).names := by
        cases d with
        | dense layer => exact apart_denseForward b ["LLM"] input layer
        | moe layer => exact apart_moeForward b f ["LLM"] input layer
      exact hd.append (ih.append trivial)
  unfold LLM.callForward
  rw [Calls.names_onTensor]
  simp only [Calls.names_bind]
  refine ⟨by decide +kernel, ?_, trivial⟩
  rw [if_neg (by decide +kernel), if_pos (by decide +kernel)]
  refine .append (apart_leaf _ _ _ (by decide) _ _) ?_
  exact (hdecoders _ _).append (apart_leaf _ _ _ (by decide) _ _)

/-- The names of every LLM that can be built. -/
theorem apart_build {F : Forest LayerCall} (h : LLM.build b input = .ok F) :
    Apart (F.map LayerCall.name) := by
  obtain ⟨f, rfl⟩ := LLM.build_calls h
  exact apart_callForward b f input

/-! ### The times -/

/-- With every stamp closed, `find_stamp` looks through the complete tree. -/
theorem TimeBoard.timeOf_eq {b : TimeBoard} (htop : b.top = {}) (hframes : b.tree.frames = [])
    {names : List String} (hnames : "" ∉ names) : b.timeOf names
      = b.tree.closed.total Stamp.getDuration ((names.map found).map (· ∘ Stamp.name)) := by
  unfold timeOf Forest.total
  rw [List.map_map, List.map_map]
  congr 1
  apply List.map_congr_left
  intro name hname
  have hother : b.top.hasName name = false := by
    rw [htop]
    unfold Stamp.hasName
    rw [decide_eq_false_iff_not]
    intro hinfix
    have hempty : name = "" := String.toList_inj.mp (List.infix_nil.mp hinfix)
    exact hnames (hempty ▸ hname)
  unfold findStamp
  rw [hother, if_neg Bool.false_ne_true, Cursor.forest_eq_closed hframes]
  rfl

theorem TimeBoard.timeOf_nonneg {b : TimeBoard} (htop : b.top = {}) (hframes : b.tree.frames = [])
    {hi : ℚ} (hwithin : b.tree.closed.Within Stamp.startTime Stamp.endTime 0 hi)
    (names : List String) : 0 ≤ b.timeOf names := by
  have hfound : ∀ name, 0 ≤ ((b.findStamp name).map Stamp.getDuration).sum := by
    intro name
    unfold findStamp
    split_ifs
    · simp [htop, Stamp.getDuration]
    · have hselect : 0 ≤ b.tree.closed.total Stamp.getDuration [(·.hasName name)] :=
        hwithin.total_nonneg _
      rw [Cursor.forest_eq_closed hframes]
      simpa [Forest.total] using hselect
  unfold timeOf
  apply List.sum_nonneg
  intro t ht
  obtain ⟨name, -, rfl⟩ := List.mem_map.mp ht
  exact hfound name

theorem TimeBoard.timeOf_cons (b : TimeBoard) (name : String) (names : List String) :
    b.timeOf (name :: names) = b.timeOf [name] + b.timeOf names := by
  simp [timeOf]

/-- What the categories of either branch come to. -/
theorem TimeBoard.setTimeBreakDown_le {b : TimeBoard} (hnonneg : ∀ names, 0 ≤ b.timeOf names)
    (hinner : b.timeOf commInExpertFFNNames ≤ b.timeOf ["expertFFN"]) (c : LayerConfig) :
    (∀ t ∈ (b.setTimeBreakDown c).categories, 0 ≤ t) ∧
      (b.setTimeBreakDown c).categories.sum ≤ b.timeOf ownNames
        + (b.timeOf ["expertFFN"] - b.timeOf commInExpertFFNNames) + b.timeOf commNames := by
  have hexpert := sub_nonneg.mpr hinner
  unfold setTimeBreakDown TimeStat.categories
  dsimp only
  split_ifs
  · constructor
    · simp [hnonneg, hexpert]
    · simp only [ownNames, List.sum_cons, List.sum_nil, b.timeOf_cons _ (_ :: _)]
      linarith [hnonneg ["attn_q_down_proj"], hnonneg ["attn_kv_down_proj"],
        hnonneg ["attn_kr_proj"], hnonneg ["attn_q_up_proj"], hnonneg ["attn_qr_proj"],
        hnonneg ["attn_kv_up_proj"], hnonneg ["attn_tr_k_up_proj"], hnonneg ["attn_v_up_proj"],
        hnonneg ["latent_q_layer_norm"], hnonneg ["latent_kv_layer_norm"]]
  · constructor
    · simp [hnonneg, hexpert]
    · simp only [ownNames, List.sum_cons, List.sum_nil, b.timeOf_cons _ (_ :: _)]
      linarith [hnonneg ["attn_qkv_proj"]]

namespace LlmCluster

/-- In every run of an LLM, over any number of restarts, where no tensor has `parallel_execution`
set and nothing takes negative time: at the end of a device, no time of its breakdown is negative,
and together they are not longer than its run, as no stamp is counted twice. -/
theorem timeBreakDown_partitions {b : LlmCluster N σ} {input : TensorName}
    {C : CallGraphs N TensorName σ} (hbuild : b.Builds input C) (hcosts : ∀ d, (b.costs d).Nonneg)
    {s₀ s : TimedState N TensorName σ} (hinit : C.Init s₀)
    (hcharge : ∀ d, 0 ≤ (s₀.cluster.device d).work.execStatus.totalDuration)
    {as : List (Option (Fin N))} (hrun : Run C.PlainStep s₀ as s) {d : Fin N}
    (hend : ¬C.toGraphs.Remains s.cluster d) :
    Apart ((s.board d).tree.closed.map Stamp.name) ∧
    (∀ t ∈ ((s.board d).setTimeBreakDown b.config).categories, 0 ≤ t) ∧
    ((s.board d).setTimeBreakDown b.config).categories.sum ≤ CallGraphs.deviceTime s d := by
  have hpaced := CallGraphs.Paced.run (hbuild.acts hcosts) hinit hcharge hrun d
  obtain ⟨hframes, hnames⟩ := hpaced.mirrors.complete hend
  obtain ⟨F, hF, hcalls⟩ := hbuild.names d
  have hapart : Apart ((s.board d).tree.closed.map Stamp.name) := by
    rw [hnames, hcalls]
    exact apart_build _ _ hF
  have hwithin := (hpaced.complete hend).1
  have htime : ∀ {names : List String}, "" ∉ names → (s.board d).timeOf names
      = (s.board d).tree.closed.total Stamp.getDuration
          ((names.map found).map (· ∘ Stamp.name)) := TimeBoard.timeOf_eq hpaced.top hframes
  obtain ⟨hinner, hsum⟩ := (Forest.Divided.of_map hapart).total_le hwithin
  have hnonneg := TimeBoard.timeOf_nonneg hpaced.top hframes hwithin
  have hsub : (s.board d).timeOf commInExpertFFNNames ≤ (s.board d).timeOf ["expertFFN"] := by
    rw [htime (by decide), htime (by decide)]
    exact hinner
  have hparts : (s.board d).timeOf ownNames
      + ((s.board d).timeOf ["expertFFN"] - (s.board d).timeOf commInExpertFFNNames)
      + (s.board d).timeOf commNames ≤ CallGraphs.deviceTime s d := by
    rw [htime (by decide), htime (by decide), htime (by decide), htime (by decide)]
    exact hsum.trans_eq (sub_zero _)
  obtain ⟨hcategories, hle⟩ := TimeBoard.setTimeBreakDown_le hnonneg hsub b.config
  exact ⟨hapart, hcategories, hle.trans hparts⟩

/-- All that the run charges is in some category. -/
theorem timeBreakDown_partitions_one_decoder :
    ∃ s, oneDecoderRun denseConfig { processorType := [.gpu] } = .ok s ∧
      ((s.board 0).setTimeBreakDown denseConfig).categories.sum = 20 ∧
      ((s.board 0).setTimeBreakDown denseConfig).categories.sum ≤ CallGraphs.deviceTime s 0 := by
  set b := oneDecoder denseConfig { processorType := [.gpu] } with hb
  have hany : (oneDecoderRun denseConfig { processorType := [.gpu] }).toOption.any (fun s =>
      decide (¬(b.callGraphs ⟨[], "input"⟩).toGraphs.Remains s.cluster 0 ∧
        ((s.board 0).setTimeBreakDown denseConfig).categories.sum = 20)) = true := by
    decide +kernel
  obtain ⟨s, hrun, hs⟩ := exists_ok_of_any hany
  obtain ⟨hend, hsum⟩ := of_decide_eq_true hs
  obtain ⟨s₀, h₀, h⟩ := bind_eq_ok hrun
  have hbuild : b.Builds ⟨[], "input"⟩ (b.callGraphs ⟨[], "input"⟩) :=
    builds_callGraphs fun _ => ⟨_, rfl⟩
  obtain ⟨as, hsteps⟩ := CallGraphs.runs_steps (.single h)
  have hplain : CallGraphs.Plain s₀ := by
    intro d
    rw [(CallGraphs.restart_work h₀ d).1]
    exact fun _ => rfl
  have hcharge : ∀ d, 0 ≤ (s₀.cluster.device d).work.execStatus.totalDuration := by
    intro d
    rw [(CallGraphs.restart_work h₀ d).1]
    exact le_refl 0
  have hcosts : ∀ d, (b.costs d).Nonneg := fun _ =>
    ⟨fun _ _ _ _ => zero_le_two, fun _ _ => zero_le_one⟩
  have hdivides := hbuild.plain (by simp [UnitConfig.Divides, hb, oneDecoder])
  obtain ⟨hsteps, -⟩ := hplain.run hdivides hsteps
  exact ⟨s, hrun, hsum,
    (timeBreakDown_partitions hbuild hcosts ⟨_, fun _ => rfl, h₀⟩ hcharge hsteps hend).2.2⟩

end LlmCluster
end LlmSystem
