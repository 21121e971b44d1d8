import LlmSystem.Dram.CommandCounts
import LlmSystem.Dram.Departures
import LlmSystem.Dram.Selection
import Mathlib.Data.Finset.Card
import Mathlib.Data.List.Nodup

/-!
Rows that stay open: a row that was opened for a request is not closed before the request is
served, so a request is given one activation at most. This is as long as no refresh falls due:
refreshes close rows without asking.
-/
namespace LlmSystem

open Runs

/-- The command that opens the row of a request, and the one that closes another row first. -/
def RequestType.opening (t : RequestType) : HBM3Command :=
  if t = .allRead ∨ t = .allWrite then .allAct else .act

def RequestType.closing (t : RequestType) : HBM3Command :=
  if t = .allRead ∨ t = .allWrite then .allPre else .pre

/-- `rowOf` observes the open row of each bank. -/
structure IDRAM.OpenPage {δ : Type} (dram : IDRAM δ) (rowOf : δ → List ℤ → Option ℤ) : Prop where
  tick : ∀ d, rowOf (dram.tick d) = rowOf d
  preq : ∀ d (t : RequestType) v, t.reads = true ∨ t.writes = true →
    dram.getPreqCommand d t.translation v =
      match rowOf d (PIMDRAMController.rowgroup v) with
      | none => t.opening
      | some row => if row = v.row then t.translation else t.closing
  opens : ∀ d t v, rowOf (dram.issueCommand d (RequestType.opening t) v)
    = Function.update (rowOf d) (PIMDRAMController.rowgroup v) (some v.row)
  closes : ∀ d t v, rowOf (dram.issueCommand d (RequestType.closing t) v)
    = Function.update (rowOf d) (PIMDRAMController.rowgroup v) none
  accesses : ∀ d (t : RequestType) v, t.reads = true ∨ t.writes = true →
    rowOf (dram.issueCommand d t.translation v) = rowOf d

/-- The activations a request was given. -/
def Request.acts (req : Request) : ℕ := req.issuedDramCmd .kACT + req.issuedDramCmd .kALL_ACT

namespace PIMDRAMController
variable {δ : Type} {dram : IDRAM δ} {rowOf : δ → List ℤ → Option ℤ} {G : Finset (List ℤ)} {d : δ}

theorem acts_count (req : Request) (cmd : HBM3Command) :
    (req.count cmd).acts = req.acts + if cmd.num = 0 ∨ cmd.num = 1 then 1 else 0 := by
  unfold Request.acts
  rw [Request.count_issued, Request.count_issued]
  cases cmd <;> simp [HBM3Command.countedAs, HBM3Command.num, HBM3Command.mCommands] <;> omega

theorem num_translation (t : RequestType) : ¬(t.translation.num = 0 ∨ t.translation.num = 1) := by
  cases t <;> decide

theorem num_closing (t : RequestType) : ¬(t.closing.num = 0 ∨ t.closing.num = 1) := by
  cases t <;> decide

theorem num_opening (t : RequestType) : t.opening.num = 0 ∨ t.opening.num = 1 := by
  cases t <;> decide

/-- Those of the banks that belong to a channel. -/
def banksOf (G : Finset (List ℤ)) (channel : ℕ) : Finset (List ℤ) :=
  G.filter fun g => g.head? = some (channel : ℤ)

theorem banksOf_card_le {n : ℕ} (hG : G.card ≤ n) (channel : ℕ) : (banksOf G channel).card ≤ n :=
  (Finset.card_filter_le _ _).trans hG

/-- A window that holds one active request for each bank of the channel, and watermarks that let an
empty buffer go. -/
structure Configured (G : Finset (List ℤ)) (c : PIMDRAMController) : Prop where
  window : (banksOf G c.channelId).card ≤ (c.buffer .active).maxSize
  sizes : ∀ name, 0 < (c.buffer name).maxSize
  wrLowWatermark : 0 < c.wrLowWatermark
  wrHighWatermark : 0 ≤ c.wrHighWatermark

theorem Configured.kept {c c' : PIMDRAMController} (h : Configured G c) (hkept : Kept c c') :
    Configured G c' where
  window := by
    rw [hkept.channelId, hkept.maxSize]
    exact h.window
  sizes name := by
    rw [hkept.maxSize]
    exact h.sizes name
  wrLowWatermark := by
    rw [hkept.wrLowWatermark]
    exact h.wrLowWatermark
  wrHighWatermark := by
    rw [hkept.wrHighWatermark]
    exact h.wrHighWatermark

/-- A controller without refreshes whose active requests have their rows open, in different
banks. -/
structure RowsHeld (rowOf : δ → List ℤ → Option ℤ) (G : Finset (List ℤ)) (d : δ)
    (c : PIMDRAMController) : Prop where
  configured : Configured G c
  priority : c.queue .priority = []
  kinds : ∀ name, ∀ r ∈ c.queue name, (r.typeId.reads = true ∨ r.typeId.writes = true) ∧
    rowgroup r.addrVec ∈ G ∧ r.addrVec.channel = c.channelId
  active : ∀ r ∈ c.queue .active, rowOf d (rowgroup r.addrVec) = some r.addrVec.row ∧ r.acts = 1
  apart : ((c.queue .active).map fun r => rowgroup r.addrVec).Nodup
  fresh : ∀ name, name ≠ .active → ∀ r ∈ c.queue name, r.acts = 0
  pending : ∀ r ∈ c.pending, r.acts ≤ 1

namespace RowsHeld

/-- The active requests are in different banks, so the window holds them all. -/
theorem queueWindow {c : PIMDRAMController} (h : RowsHeld rowOf G d c) :
    c.queueWindow .active = c.queue .active := by
  have hsub : ((c.queue .active).map fun r => rowgroup r.addrVec).toFinset
      ⊆ banksOf G c.channelId := by
    intro g hg
    obtain ⟨r, hr, rfl⟩ := List.mem_map.mp (List.mem_toFinset.mp hg)
    obtain ⟨-, hgroup, hchannel⟩ := h.kinds .active r hr
    exact Finset.mem_filter.mpr ⟨hgroup, congrArg some hchannel⟩
  have hcard := Finset.card_le_card hsub
  rw [List.toFinset_card_of_nodup h.apart, List.length_map] at hcard
  exact List.take_of_length_le (hcard.trans h.configured.window)

theorem of_looked {c c' : PIMDRAMController} (h : RowsHeld rowOf G d c) (hlook : Looked c c') :
    RowsHeld rowOf G d c' := by
  obtain ⟨hconfigured, hpriority, hkinds, hactive, hapart, hfresh, hpending⟩ := h
  refine ⟨hconfigured.kept hlook.toKept, ?_, ?_, ?_, ?_, ?_, ?_⟩
  · rwa [hlook.queue]
  · intro name r hr
    rw [hlook.queue] at hr
    rw [hlook.channelId]
    exact hkinds name r hr
  · rwa [hlook.queue]
  · rwa [hlook.queue]
  · intro name hname r hr
    rw [hlook.queue] at hr
    exact hfresh name hname r hr
  · rwa [hlook.pending]

/-- Commands for other channels, and cycles, leave the rows of a channel alone. -/
theorem of_device {c : PIMDRAMController} {d' : δ} (h : RowsHeld rowOf G d c)
    (hd : ∀ v : RamulatorAddrVec, v.channel = c.channelId →
      rowOf d' (rowgroup v) = rowOf d (rowgroup v)) : RowsHeld rowOf G d' c := by
  refine { h with active := fun r hr => ?_ }
  rw [hd r.addrVec (h.kinds .active r hr).2.2]
  exact h.active r hr

end RowsHeld

theorem queue_setBuffer (c : PIMDRAMController) (name other : BufferName) (b : ReqBuffer) :
    (c.setBuffer name b).queue other
      = if other = name then b.buffer.map Request.idle else c.queue other := by
  unfold queue setBuffer
  by_cases h : other = name
  · subst h
    simp
  · simp [h]

/-- What a command does to the buffers: the final one ends the request, an opening one makes it
active, and any other one is counted where the request waits. -/
inductive Outcome (readLatency : ℤ) (c : PIMDRAMController) (name : BufferName) (i : ℕ)
    (req : Request) (cmd : HBM3Command) (c' : PIMDRAMController) (written : List Request) : Prop
  | served (hcmd : cmd = req.finalCommand)
      (hqueue : ∀ other, c'.queue other
        = if other = name then (c.queue name).eraseIdx i else c.queue other)
      (hpending : c'.pending = c.pending ∨
        c'.pending = c.pending ++ [(req.count cmd).departAt (c.clk + readLatency)])
      (hwritten : ∀ r ∈ written, r.acts = (req.count cmd).acts)
  | activated (hcmd : cmd.num = 0 ∨ cmd.num = 1)
      (hactive : name ≠ .active → c'.queue .active = c.queue .active ++ [(req.count cmd).idle])
      (hqueue : ∀ other, other ≠ .active → c'.queue other
        = if other = name then (c.queue name).eraseIdx i else c.queue other)
      (hpending : c'.pending = c.pending) (hwritten : written = [])
  | advanced (hcmd : ¬(cmd.num = 0 ∨ cmd.num = 1)) (hfinal : cmd ≠ req.finalCommand)
      (hqueue : ∀ other, c'.queue other
        = if other = name then (c.queue name).set i (req.count cmd).idle else c.queue other)
      (hpending : c'.pending = c.pending) (hwritten : written = [])

theorem queue_remove (c : PIMDRAMController) (name other : BufferName) (i : ℕ) :
    (c.setBuffer name ((c.buffer name).remove i)).queue other
      = if other = name then (c.queue name).eraseIdx i else c.queue other := by
  have hmap : ((c.buffer name).remove i).buffer.map Request.idle = (c.queue name).eraseIdx i :=
    (List.eraseIdx_map ..).symm
  rw [queue_setBuffer, hmap]

theorem queue_set (c : PIMDRAMController) (name other : BufferName) (i : ℕ) (r : Request) :
    (c.setBuffer name ((c.buffer name).set i r)).queue other
      = if other = name then (c.queue name).set i r.idle else c.queue other := by
  have hmap : ((c.buffer name).set i r).buffer.map Request.idle = (c.queue name).set i r.idle :=
    List.map_set
  rw [queue_setBuffer, hmap]

theorem issue_outcome {c c' : PIMDRAMController} {d' : δ} {it : Iterator} {written : List Request}
    (hfound : Found dram d c it) (h : issue dram d c it = (d', c', written)) :
    d' = dram.issueCommand d (InService.preq dram d it.2.2) it.2.2.addrVec ∧
      Kept c c' ∧
      Outcome dram.readLatency c it.1 it.2.1 it.2.2 (InService.preq dram d it.2.2) c' written := by
  obtain ⟨name, i, req⟩ := it
  obtain ⟨hpos, hcmd, -⟩ := hfound
  dsimp only at hpos hcmd ⊢
  generalize InService.preq dram d req = cmd at hcmd ⊢
  have hkind : ∀ cmd, (req.count cmd).finalCommand = req.finalCommand := fun cmd => by
    simp [Request.finalCommand]
  have hremove : Kept c (c.setBuffer name ((c.buffer name).remove i)) := .setBuffer rfl
  unfold issue at h
  simp only [hcmd, Request.updateState_eq hcmd, Request.count_typeId, Request.count_callback,
    hkind] at h
  split_ifs at h with hfinal hreads hwrites hopen
  · obtain ⟨rfl, rfl, rfl⟩ := h
    exact ⟨rfl, ⟨rfl, hremove.maxSize, rfl, rfl⟩,
      .served hfinal (fun other => queue_remove c name other i) (.inr rfl) (by simp)⟩
  · obtain ⟨rfl, rfl, rfl⟩ := h
    refine ⟨rfl, hremove,
      .served hfinal (fun other => queue_remove c name other i) (.inl rfl) ?_⟩
    intro r hr
    rw [List.mem_singleton.mp hr]
    rfl
  · obtain ⟨rfl, rfl, rfl⟩ := h
    exact ⟨rfl, hremove,
      .served hfinal (fun other => queue_remove c name other i) (.inl rfl) (by simp)⟩
  · obtain ⟨rfl, rfl, rfl⟩ := h
    set c₁ := c.setBuffer name ((c.buffer name).set i (req.count cmd)) with hc₁
    set c₂ := c₁.setBuffer .active ((c₁.buffer .active).enqueue (req.count cmd)) with hc₂
    refine ⟨rfl, ?_, .activated ?_ (fun hname => ?_) (fun other hother => ?_)
      rfl rfl⟩
    · have h₂ : Kept c₂ (c₂.setBuffer name ((c₂.buffer name).remove i)) := .setBuffer rfl
      have h₁ : Kept c₁ c₂ := .setBuffer rfl
      have h₀ : Kept c c₁ := .setBuffer rfl
      exact h₀.trans (h₁.trans h₂)
    · simp only [Bool.and_eq_true, Bool.or_eq_true, beq_iff_eq] at hopen
      exact hopen.2
    · rw [queue_remove, if_neg (Ne.symm hname), hc₂, queue_setBuffer, if_pos rfl,
        ReqBuffer.enqueue, List.map_append]
      have hsame : c₁.queue .active = c.queue .active := by
        rw [hc₁, queue_set, if_neg (Ne.symm hname)]
      rw [← hsame]
      rfl
    · rw [queue_remove]
      have hsame : ∀ other, other ≠ .active → c₂.queue other = c₁.queue other := by
        intro other hother
        rw [hc₂, queue_setBuffer, if_neg hother]
      split_ifs with hname
      · subst hname
        rw [hsame _ hother, hc₁, queue_set, if_pos rfl, List.eraseIdx_set_eq]
      · rw [hsame _ hother, hc₁, queue_set, if_neg hname]
  · obtain ⟨rfl, rfl, rfl⟩ := h
    refine ⟨rfl, .setBuffer rfl,
      .advanced ?_ hfinal (fun other => queue_set c name other i _) rfl rfl⟩
    intro hnum
    refine hopen ?_
    have hopening : cmd.commandMeta.isOpening = true := by
      revert hnum
      cases cmd <;> decide
    simpa [hopening] using hnum

theorem rowgroup_channel {v v' : RamulatorAddrVec} (h : rowgroup v = rowgroup v') :
    v.channel = v'.channel := by
  simp only [rowgroup, List.cons.injEq] at h
  exact h.1

namespace RowsHeld
variable {c c' : PIMDRAMController} {name : BufferName} {i : ℕ} {req : Request} {d' : δ}

/-- A request that is served leaves the rows as they are. -/
theorem served (h : RowsHeld rowOf G d c) (hpos : (c.queue name)[i]? = some req.idle)
    (hkept : Kept c c')
    (hrows : rowOf d' = rowOf d)
    (hqueue : ∀ other, c'.queue other
      = if other = name then (c.queue name).eraseIdx i else c.queue other)
    (hpending : ∀ r ∈ c'.pending, r ∈ c.pending ∨ r.acts = req.acts) : RowsHeld rowOf G d' c' := by
  have hsub : ∀ other, (c'.queue other).Sublist (c.queue other) := by
    intro other
    rw [hqueue]
    split_ifs with hother
    · subst hother
      exact List.eraseIdx_sublist _ _
    · exact List.Sublist.refl _
  refine ⟨h.configured.kept hkept, ?_, fun other r hr => ?_, fun r hr => ?_, ?_,
    fun other hother r hr => ?_, fun r hr => ?_⟩
  · have hnil := hsub .priority
    rw [h.priority] at hnil
    exact List.sublist_nil.mp hnil
  · rw [hkept.channelId]
    exact h.kinds other r ((hsub other).subset hr)
  · rw [hrows]
    exact h.active r ((hsub .active).subset hr)
  · exact h.apart.sublist ((hsub .active).map _)
  · exact h.fresh other hother r ((hsub other).subset hr)
  · rcases hpending r hr with hr | hr
    · exact h.pending r hr
    · rw [hr]
      have hmem := List.mem_of_getElem? hpos
      by_cases hname : name = .active
      · subst hname
        exact (h.active req.idle hmem).2.le
      · exact (h.fresh name hname req.idle hmem).le.trans zero_le_one

/-- The row of a request is opened, and the request becomes active. -/
theorem activated (h : RowsHeld rowOf G d c) (hpos : (c.queue name)[i]? = some req.idle)
    (hname : name ≠ .active) (hkept : Kept c c')
    (hclosed : rowOf d (rowgroup req.addrVec) = none)
    (hrows : rowOf d' = Function.update (rowOf d) (rowgroup req.addrVec) (some req.addrVec.row))
    {cmd : HBM3Command} (hcmd : cmd.num = 0 ∨ cmd.num = 1)
    (hactive : c'.queue .active = c.queue .active ++ [(req.count cmd).idle])
    (hqueue : ∀ other, other ≠ .active → c'.queue other
      = if other = name then (c.queue name).eraseIdx i else c.queue other)
    (hpending : c'.pending = c.pending) : RowsHeld rowOf G d' c' := by
  have hmem := List.mem_of_getElem? hpos
  have hother : ∀ r ∈ c.queue .active, rowgroup r.addrVec ≠ rowgroup req.addrVec := by
    intro r hr heq
    have hopen := (h.active r hr).1
    rw [heq, hclosed] at hopen
    cases hopen
  have hsub : ∀ other, other ≠ .active → (c'.queue other).Sublist (c.queue other) := by
    intro other hne
    rw [hqueue other hne]
    split_ifs with heq
    · subst heq
      exact List.eraseIdx_sublist _ _
    · exact List.Sublist.refl _
  have hacts : (req.count cmd).idle.acts = 1 := by
    have hzero : req.acts = 0 := h.fresh name hname req.idle hmem
    have hone := acts_count req cmd
    rw [if_pos hcmd, hzero] at hone
    exact hone
  have hvec : (req.count cmd).idle.addrVec = req.addrVec := Request.count_addrVec cmd req
  refine ⟨h.configured.kept hkept, ?_, fun other r hr => ?_, fun r hr => ?_, ?_,
    fun other hne r hr => ?_, by rw [hpending]; exact h.pending⟩
  · have hnil := hsub .priority (by decide)
    rw [h.priority] at hnil
    exact List.sublist_nil.mp hnil
  · rw [hkept.channelId]
    by_cases hne : other = .active
    · subst hne
      rw [hactive] at hr
      rcases List.mem_append.mp hr with hr | hr
      · exact h.kinds .active r hr
      · rw [List.mem_singleton.mp hr]
        have hkind := h.kinds name req.idle hmem
        rw [hvec]
        simpa [Request.idle] using hkind
    · exact h.kinds other r ((hsub other hne).subset hr)
  · rw [hactive] at hr
    rw [hrows]
    rcases List.mem_append.mp hr with hr | hr
    · rw [Function.update_of_ne (hother r hr)]
      exact h.active r hr
    · rw [List.mem_singleton.mp hr, hvec, Function.update_self]
      exact ⟨rfl, hacts⟩
  · rw [hactive, List.map_append, List.map_singleton, hvec]
    refine List.nodup_append.mpr ⟨h.apart, List.nodup_singleton _, ?_⟩
    intro g hg g' hg'
    obtain ⟨r, hr, rfl⟩ := List.mem_map.mp hg
    rw [List.mem_singleton.mp hg']
    exact hother r hr
  · exact h.fresh other hne r ((hsub other hne).subset hr)

/-- Another row is closed, of a bank without active requests. -/
theorem advanced (h : RowsHeld rowOf G d c) (hpos : (c.queue name)[i]? = some req.idle)
    (hkept : Kept c c')
    (hfree : ∀ r ∈ c.queue .active, rowgroup r.addrVec ≠ rowgroup req.addrVec)
    (hrows : rowOf d' = Function.update (rowOf d) (rowgroup req.addrVec) none)
    {cmd : HBM3Command} (hcmd : ¬(cmd.num = 0 ∨ cmd.num = 1))
    (hqueue : ∀ other, c'.queue other
      = if other = name then (c.queue name).set i (req.count cmd).idle else c.queue other)
    (hpending : c'.pending = c.pending) : RowsHeld rowOf G d' c' := by
  have hmem := List.mem_of_getElem? hpos
  have hname : name ≠ .active := by
    rintro rfl
    exact hfree req.idle hmem rfl
  have hacts : (req.count cmd).idle.acts = req.idle.acts := by
    have hsame := acts_count req cmd
    rw [if_neg hcmd, add_zero] at hsame
    exact hsame
  have hactive : c'.queue .active = c.queue .active := by
    rw [hqueue, if_neg (Ne.symm hname)]
  have hset : ∀ other, ∀ r ∈ c'.queue other, r ∈ c.queue other ∨
      other = name ∧ r = (req.count cmd).idle := by
    intro other r hr
    rw [hqueue] at hr
    split_ifs at hr with heq
    · subst heq
      rcases List.mem_or_eq_of_mem_set hr with hr | hr
      · exact .inl hr
      · exact .inr ⟨rfl, hr⟩
    · exact .inl hr
  refine ⟨h.configured.kept hkept, ?_, fun other r hr => ?_, fun r hr => ?_,
    by rw [hactive]; exact h.apart, fun other hne r hr => ?_, by rw [hpending]; exact h.pending⟩
  · rw [hqueue]
    split_ifs with heq
    · subst heq
      rw [h.priority] at hmem
      cases hmem
    · exact h.priority
  · rw [hkept.channelId]
    rcases hset other r hr with hr | ⟨rfl, rfl⟩
    · exact h.kinds other r hr
    · have hkind := h.kinds other req.idle hmem
      rw [show (req.count cmd).idle.addrVec = req.addrVec from Request.count_addrVec cmd req]
      simpa [Request.idle] using hkind
  · rw [hactive] at hr
    rw [hrows, Function.update_of_ne (hfree r hr)]
    exact h.active r hr
  · rcases hset other r hr with hr | ⟨rfl, rfl⟩
    · exact h.fresh other hne r hr
    · rw [hacts]
      exact h.fresh other hne req.idle hmem

end RowsHeld

/-- What the command for a request does to its bank: its row is open and accessed, or was closed
and is opened, or another row is closed. -/
inductive Moves (readLatency : ℤ) (rowOf : δ → List ℤ → Option ℤ) (c : PIMDRAMController) (d : δ)
    (it : Iterator) (cmd : HBM3Command) (d' : δ) (c' : PIMDRAMController) (written : List Request) :
    Prop
  | served (hrows : rowOf d' = rowOf d)
      (hqueue : ∀ other, c'.queue other
        = if other = it.1 then (c.queue it.1).eraseIdx it.2.1 else c.queue other)
      (hpending : c'.pending = c.pending ∨ ∃ r, c'.pending = c.pending ++ [r] ∧
        r.acts = it.2.2.acts ∧ r.depart = c.clk + readLatency)
      (hwritten : ∀ r ∈ written, r.acts = it.2.2.acts)
  | activated (hname : it.1 ≠ .active) (hcmd : cmd.num = 0 ∨ cmd.num = 1)
      (hclosed : rowOf d (rowgroup it.2.2.addrVec) = none)
      (hrows : rowOf d' = Function.update (rowOf d) (rowgroup it.2.2.addrVec)
        (some it.2.2.addrVec.row))
      (hactive : c'.queue .active = c.queue .active ++ [(it.2.2.count cmd).idle])
      (hqueue : ∀ other, other ≠ .active → c'.queue other
        = if other = it.1 then (c.queue it.1).eraseIdx it.2.1 else c.queue other)
      (hpending : c'.pending = c.pending) (hwritten : written = [])
  | advanced {row : ℤ} (hclosing : cmd.commandMeta.isClosing = true)
      (hcmd : ¬(cmd.num = 0 ∨ cmd.num = 1))
      (hopen : rowOf d (rowgroup it.2.2.addrVec) = some row)
      (hrows : rowOf d' = Function.update (rowOf d) (rowgroup it.2.2.addrVec) none)
      (hqueue : ∀ other, c'.queue other
        = if other = it.1 then (c.queue it.1).set it.2.1 (it.2.2.count cmd).idle
          else c.queue other)
      (hpending : c'.pending = c.pending) (hwritten : written = [])

/-- The request an iterator points to is one of the buffer. -/
theorem Found.queue {c : PIMDRAMController} {it : Iterator} (hfound : Found dram d c it) :
    (c.queue it.1)[it.2.1]? = some it.2.2.idle := by
  rw [PIMDRAMController.queue, List.getElem?_map, hfound.position]
  rfl

theorem issue_moves {c c' : PIMDRAMController} {d' : δ} {it : Iterator} {written : List Request}
    (hdram : dram.OpenPage rowOf) (h : RowsHeld rowOf G d c) (hfound : Found dram d c it)
    (hissue : issue dram d c it = (d', c', written)) :
    Moves dram.readLatency rowOf c d it (InService.preq dram d it.2.2) d' c' written := by
  obtain ⟨rfl, -, hout⟩ := issue_outcome hfound hissue
  have hmem := List.mem_of_getElem? hfound.queue
  obtain ⟨name, i, req⟩ := it
  dsimp only at hmem hout ⊢
  obtain ⟨hkind, -, -⟩ := h.kinds name req.idle hmem
  have hpreq : InService.preq dram d req = _ := hdram.preq d req.typeId req.addrVec hkind
  have hfinal : req.finalCommand = req.typeId.translation := rfl
  cases hrow : rowOf d (rowgroup req.addrVec) with
  | none =>
    have hname : name ≠ .active := by
      rintro rfl
      have hopen := (h.active req.idle hmem).1
      rw [Request.idle, hrow] at hopen
      cases hopen
    rw [hrow] at hpreq
    dsimp only at hpreq
    rw [hpreq] at hout ⊢
    have hrows := hdram.opens d req.typeId req.addrVec
    cases hout with
    | served hcmd =>
      exact absurd (num_opening req.typeId) (by rw [hcmd, hfinal]; exact num_translation _)
    | activated hcmd hact hqueue hpending hwritten =>
      exact .activated hname hcmd hrow hrows (hact hname) hqueue hpending hwritten
    | advanced hcmd => exact absurd (num_opening req.typeId) hcmd
  | some row =>
    rw [hrow] at hpreq
    dsimp only at hpreq
    by_cases heq : row = req.addrVec.row
    · rw [if_pos heq] at hpreq
      rw [hpreq] at hout ⊢
      have hrows := hdram.accesses d req.typeId req.addrVec hkind
      have hacts : (req.count req.typeId.translation).acts = req.acts := by
        rw [acts_count, if_neg (num_translation _), add_zero]
      cases hout with
      | served hcmd hqueue hpending hwritten =>
        rw [hacts] at hwritten
        refine .served hrows hqueue ?_ hwritten
        rcases hpending with hpending | hpending
        · exact .inl hpending
        · exact .inr ⟨_, hpending, hacts, rfl⟩
      | activated hcmd => exact absurd hcmd (num_translation _)
      | advanced hcmd hne => exact absurd rfl hne
    · rw [if_neg heq] at hpreq
      rw [hpreq] at hout ⊢
      have hrows := hdram.closes d req.typeId req.addrVec
      have hclosing : req.typeId.closing.commandMeta.isClosing = true := by
        cases req.typeId <;> rfl
      cases hout with
      | served hcmd =>
        rw [hfinal] at hcmd
        exfalso
        revert hcmd
        cases req.typeId <;> decide
      | activated hcmd => exact absurd hcmd (num_closing _)
      | advanced hcmd hne hqueue hpending hwritten =>
        exact .advanced hclosing hcmd hrow hrows hqueue hpending hwritten

/-- The command of a tick keeps the rows of active requests open, and changes no other channel. -/
theorem issue_held {c c' : PIMDRAMController} {d' : δ} {it : Iterator} {written : List Request}
    (hdram : dram.OpenPage rowOf) (h : RowsHeld rowOf G d c) (hfound : Found dram d c it)
    (hsafe : (InService.preq dram d it.2.2).commandMeta.isClosing = true →
      ∀ r ∈ c.queueWindow .active, rowgroup r.addrVec ≠ rowgroup it.2.2.addrVec)
    (hissue : issue dram d c it = (d', c', written)) :
    RowsHeld rowOf G d' c' ∧ c'.channelId = c.channelId ∧ (∀ r ∈ written, r.acts ≤ 1) ∧
      ∀ v : RamulatorAddrVec, v.channel ≠ c.channelId →
        rowOf d' (rowgroup v) = rowOf d (rowgroup v) := by
  have hmoves := issue_moves hdram h hfound hissue
  obtain ⟨-, hkept, -⟩ := issue_outcome hfound hissue
  have hqpos := hfound.queue
  have hmem := List.mem_of_getElem? hqpos
  obtain ⟨name, i, req⟩ := it
  dsimp only at hqpos hmem hsafe
  rw [h.queueWindow] at hsafe
  obtain ⟨-, -, hchannel⟩ := h.kinds name req.idle hmem
  have hapart : ∀ (row : Option ℤ) (v : RamulatorAddrVec), v.channel ≠ c.channelId →
      Function.update (rowOf d) (rowgroup req.addrVec) row (rowgroup v)
        = rowOf d (rowgroup v) := by
    intro row v hv
    refine Function.update_of_ne (fun heq => hv ?_) _ _
    exact (rowgroup_channel heq).trans hchannel
  cases hmoves with
  | served hrows hqueue hpending hwritten =>
    have hone : req.acts ≤ 1 := by
      by_cases hname : name = .active
      · subst hname
        exact (h.active req.idle hmem).2.le
      · exact (h.fresh name hname req.idle hmem).le.trans zero_le_one
    refine ⟨h.served hqpos hkept hrows hqueue fun r hr => ?_, hkept.channelId,
      fun r hr => (hwritten r hr).le.trans hone, fun v _ => by rw [hrows]⟩
    rcases hpending with hsame | ⟨r', hsame, hacts, -⟩
    · rw [hsame] at hr
      exact .inl hr
    · rw [hsame] at hr
      rcases List.mem_append.mp hr with hr | hr
      · exact .inl hr
      · rw [List.mem_singleton.mp hr]
        exact .inr hacts
  | activated hname hcmd hclosed hrows hactive hqueue hpending hwritten =>
    refine ⟨h.activated hqpos hname hkept hclosed hrows hcmd hactive hqueue hpending,
      hkept.channelId,
      by simp [hwritten], fun v hv => ?_⟩
    rw [hrows]
    exact hapart _ v hv
  | advanced hclosing hcmd hopen hrows hqueue hpending hwritten =>
    refine ⟨h.advanced hqpos hkept (hsafe hclosing) hrows hcmd hqueue hpending,
      hkept.channelId,
      by simp [hwritten], fun v hv => ?_⟩
    rw [hrows]
    exact hapart _ v hv

theorem looking_held {refresh : ℕ → ℤ → List RamulatorAddrVec} {c : PIMDRAMController}
    (hnone : refresh c.channelId (c.clk + 1) = []) (h : RowsHeld rowOf G d c) :
    RowsHeld rowOf G d (c.looking refresh) ∧ (c.looking refresh).channelId = c.channelId ∧
      ∀ r ∈ (serveCompletedReads { c with clk := c.clk + 1 }).2, r.acts ≤ 1 := by
  have hserve : ∃ pending served, serveCompletedReads { c with clk := c.clk + 1 }
      = ({ c with clk := c.clk + 1, pending }, served) ∧
      (∀ r ∈ pending, r ∈ c.pending) ∧ ∀ r ∈ served, r ∈ c.pending := by
    unfold serveCompletedReads
    dsimp only
    split
    · rename_i hnil
      exact ⟨c.pending, [], rfl, fun r hr => hr, by simp⟩
    · rename_i req pending hcons
      split_ifs with hdue hcall
      · exact ⟨pending, [req], rfl, by simp +contextual [hcons], by simp [hcons]⟩
      · exact ⟨pending, [], rfl, by simp +contextual [hcons], by simp⟩
      · exact ⟨c.pending, [], rfl, fun r hr => hr, by simp⟩
  obtain ⟨pending, served, hserve, hpending, hserved⟩ := hserve
  unfold looking refreshTick
  rw [hserve, hnone]
  refine ⟨?_, rfl, fun r hr => h.pending r (hserved r hr)⟩
  exact ⟨h.configured.kept ⟨rfl, fun _ => rfl, rfl, rfl⟩, h.priority, h.kinds, h.active, h.apart,
    h.fresh, fun r hr => h.pending r (hpending r hr)⟩

theorem tick_held {refresh : ℕ → ℤ → List RamulatorAddrVec} {c c' : PIMDRAMController} {d' : δ}
    {callbacks : List Request} (hdram : dram.OpenPage rowOf)
    (hnone : refresh c.channelId (c.clk + 1) = []) (h : RowsHeld rowOf G d c)
    (htick : tick dram d refresh c = (d', c', callbacks)) :
    RowsHeld rowOf G d' c' ∧ c'.channelId = c.channelId ∧ (∀ r ∈ callbacks, r.acts ≤ 1) ∧
      ∀ v : RamulatorAddrVec, v.channel ≠ c.channelId →
        rowOf d' (rowgroup v) = rowOf d (rowgroup v) := by
  obtain ⟨hlooking, hid, hserved⟩ := looking_held hnone h
  rcases hsched : scheduleRequest dram d (c.looking refresh) with ⟨c₁, it⟩
  obtain ⟨hlook, hfound⟩ := scheduleRequest_spec hsched
  have hserves := scheduleRequest_serves hsched
  have hc₁ := hlooking.of_looked hlook
  have hid₁ : c₁.channelId = c.channelId := hlook.channelId.trans hid
  unfold tick at htick
  dsimp only at htick
  unfold looking at hsched
  rw [hsched] at htick
  cases it with
  | none =>
    obtain ⟨rfl, rfl, rfl⟩ := htick
    exact ⟨hc₁, hid₁, hserved, fun _ _ => rfl⟩
  | some it =>
    rcases hissue : issue dram d c₁ it with ⟨d₂, c₂, written⟩
    simp only [hissue] at htick
    obtain ⟨rfl, rfl, rfl⟩ := htick
    have hsafe := (hserves it rfl).safe
    rw [← hlook.queueWindow] at hsafe
    obtain ⟨hheld, hid₂, hwritten, hframe⟩ :=
      issue_held hdram hc₁ (hfound it rfl).1 hsafe hissue
    rw [hid₁] at hframe
    refine ⟨hheld, hid₂.trans hid₁, fun r hr => ?_, hframe⟩
    rcases List.mem_append.mp hr with hr | hr
    · exact hserved r hr
    · exact hwritten r hr

theorem send_held {c c' : PIMDRAMController} {req : Request} (h : RowsHeld rowOf G d c)
    (hreq : rowgroup req.addrVec ∈ G ∧ req.addrVec.channel = c.channelId ∧ req.acts = 0)
    (hsend : c.send req = .ok c') : RowsHeld rowOf G d c' ∧ c'.channelId = c.channelId := by
  obtain ⟨hgroup, hchannel, hacts⟩ := hreq
  have henqueue : ∀ name, name ≠ .active → name ≠ .priority →
      (req.typeId.reads = true ∨ req.typeId.writes = true) →
      RowsHeld rowOf G d (c.setBuffer name ((c.buffer name).enqueue (req.arriveAt c.clk))) := by
    intro name hactive hpriority hkind
    have hqueue : ∀ other,
        (c.setBuffer name ((c.buffer name).enqueue (req.arriveAt c.clk))).queue other
          = if other = name then c.queue name ++ [(req.arriveAt c.clk).idle]
            else c.queue other := by
      intro other
      rw [queue_setBuffer, ReqBuffer.enqueue, List.map_append]
      rfl
    refine ⟨h.configured.kept (.setBuffer rfl), ?_, fun other r hr => ?_, ?_, ?_,
      fun other hne r hr => ?_, h.pending⟩
    · rw [hqueue, if_neg (Ne.symm hpriority)]
      exact h.priority
    · rw [hqueue] at hr
      split_ifs at hr with heq
      · subst heq
        rcases List.mem_append.mp hr with hr | hr
        · exact h.kinds other r hr
        · rw [List.mem_singleton.mp hr]
          exact ⟨hkind, hgroup, hchannel⟩
      · exact h.kinds other r hr
    · rw [hqueue, if_neg (Ne.symm hactive)]
      exact h.active
    · rw [hqueue, if_neg (Ne.symm hactive)]
      exact h.apart
    · rw [hqueue] at hr
      split_ifs at hr with heq
      · subst heq
        rcases List.mem_append.mp hr with hr | hr
        · exact h.fresh other hne r hr
        · rw [List.mem_singleton.mp hr]
          exact hacts
      · exact h.fresh other hne r hr
  unfold send at hsend
  split_ifs at hsend
  · obtain rfl := Except.ok.inj hsend
    refine ⟨⟨h.configured.kept ⟨rfl, fun _ => rfl, rfl, rfl⟩, h.priority, h.kinds, h.active,
      h.apart, h.fresh, fun r hr => ?_⟩, rfl⟩
    rcases List.mem_append.mp hr with hr | hr
    · exact h.pending r hr
    · rw [List.mem_singleton.mp hr]
      exact hacts.le.trans zero_le_one
  · have htype : (req.arriveAt c.clk).typeId = req.typeId := rfl
    simp only [htype] at hsend
    cases hkind : req.typeId <;> simp only [hkind] at hsend
    case read =>
      obtain rfl := Except.ok.inj hsend
      exact ⟨henqueue .read (by decide) (by decide) (by simp [hkind, RequestType.reads]), rfl⟩
    case write =>
      obtain rfl := Except.ok.inj hsend
      exact ⟨henqueue .write (by decide) (by decide) (by simp [hkind, RequestType.writes]), rfl⟩
    case allRead =>
      obtain rfl := Except.ok.inj hsend
      exact ⟨henqueue .pim (by decide) (by decide) (by simp [hkind, RequestType.reads]), rfl⟩
    case allWrite =>
      obtain rfl := Except.ok.inj hsend
      exact ⟨henqueue .pim (by decide) (by decide) (by simp [hkind, RequestType.writes]), rfl⟩
    all_goals cases hsend

end PIMDRAMController

namespace PIMDRAMSystem
open PIMDRAMController (RowsHeld rowgroup banksOf)

variable {δ : Type} {dram : IDRAM δ} {rowOf : δ → List ℤ → Option ℤ} {G : Finset (List ℤ)}
  {refresh : ℕ → ℤ → List RamulatorAddrVec}

theorem tickAll_held {d d' : δ} {cs cs' : List PIMDRAMController} {callbacks : List Request}
    (hdram : dram.OpenPage rowOf) (hnone : ∀ c ∈ cs, refresh c.channelId (c.clk + 1) = [])
    (hids : (cs.map PIMDRAMController.channelId).Nodup) (hcs : ∀ c ∈ cs, RowsHeld rowOf G d c)
    (h : tickAll dram refresh d cs = (d', cs', callbacks)) :
    (∀ c ∈ cs', RowsHeld rowOf G d' c) ∧
      cs'.map PIMDRAMController.channelId = cs.map PIMDRAMController.channelId ∧
      (∀ r ∈ callbacks, r.acts ≤ 1) ∧
      ∀ v : RamulatorAddrVec, (∀ c ∈ cs, v.channel ≠ c.channelId) →
        rowOf d' (rowgroup v) = rowOf d (rowgroup v) := by
  induction cs generalizing d cs' callbacks with
  | nil =>
    obtain ⟨rfl, rfl, rfl⟩ := h
    exact ⟨by simp, rfl, by simp, fun _ _ => rfl⟩
  | cons c cs ih =>
    obtain ⟨d₁, c₁, callbacks₁, cs₂, callbacks₂, hc, hrest, rfl, rfl⟩ := tickAll_cons h
    obtain ⟨hone, hcs⟩ := List.forall_mem_cons.mp hcs
    obtain ⟨hdue, hnone⟩ := List.forall_mem_cons.mp hnone
    obtain ⟨hnew, hids⟩ := List.nodup_cons.mp hids
    have hne : ∀ c' ∈ cs, c'.channelId ≠ c.channelId := fun c' hc' heq =>
      hnew (heq ▸ List.mem_map_of_mem hc')
    obtain ⟨hheld, hid, hcalled, hframe⟩ := PIMDRAMController.tick_held hdram hdue hone hc
    have hcs₁ : ∀ c' ∈ cs, RowsHeld rowOf G d₁ c' := fun c' hc' =>
      (hcs c' hc').of_device fun v hv => hframe v (by rw [hv]; exact_mod_cast hne c' hc')
    obtain ⟨hheld', hids', hcalled', hframe'⟩ := ih hnone hids hcs₁ hrest
    refine ⟨List.forall_mem_cons.mpr ⟨hheld.of_device fun v hv => ?_, hheld'⟩, ?_, ?_, ?_⟩
    · refine hframe' v fun c' hc' => ?_
      rw [hv, hid]
      exact_mod_cast (hne c' hc').symm
    · rw [List.map_cons, List.map_cons, hid, hids']
    · intro r hr
      rcases List.mem_append.mp hr with hr | hr
      · exact hcalled r hr
      · exact hcalled' r hr
    · intro v hv
      obtain ⟨hvc, hvcs⟩ := List.forall_mem_cons.mp hv
      exact (hframe' v hvcs).trans (hframe v hvc)

/-- The channels are numbered by their positions, and each keeps its rows. -/
structure Held (rowOf : δ → List ℤ → Option ℤ) (G : Finset (List ℤ)) (s : PIMDRAMSystem δ) :
    Prop where
  inStep : s.InStep
  ids : s.controllers.map PIMDRAMController.channelId = List.range s.controllers.length
  held : ∀ c ∈ s.controllers, RowsHeld rowOf G s.dram c

theorem create_held (hG : ∀ channel, (banksOf G channel).card ≤ 32) (numChannels : ℕ) (d : δ) :
    (create numChannels d).Held rowOf G := by
  refine ⟨create_inStep numChannels d, ?_, fun c hc => ?_⟩
  · simp [create, Function.comp_def]
  · obtain ⟨i, -, rfl⟩ := List.mem_map.mp hc
    refine ⟨⟨hG i, fun name => by cases name <;> simp, by norm_num, by norm_num⟩, rfl,
      fun name r hr => ?_, by simp [PIMDRAMController.queue], by simp [PIMDRAMController.queue],
      fun name _ r hr => ?_, by simp⟩
    · cases name <;> simp [PIMDRAMController.queue] at hr
    · cases name <;> simp [PIMDRAMController.queue] at hr

theorem tick_held {s s' : PIMDRAMSystem δ} {callbacks : List Request}
    (hdram : dram.OpenPage rowOf) (hnone : ∀ channel, refresh channel (s.clk + 1) = [])
    (hs : s.Held rowOf G) (h : s.tick dram refresh = (s', callbacks)) :
    s'.Held rowOf G ∧ ∀ r ∈ callbacks, r.acts ≤ 1 := by
  obtain ⟨-, hstep⟩ := tick_inStep h hs.inStep
  obtain ⟨d, cs, hall, rfl⟩ := tick_cases h
  have hstart : ∀ c ∈ s.controllers, RowsHeld rowOf G (dram.tick s.dram) c := fun c hc =>
    (hs.held c hc).of_device fun v _ => by rw [hdram.tick]
  have hdue : ∀ c ∈ s.controllers, refresh c.channelId (c.clk + 1) = [] := fun c hc => by
    rw [hs.inStep c hc, hnone]
  obtain ⟨hheld, hids, hcalled, -⟩ :=
    tickAll_held hdram hdue (by rw [hs.ids]; exact List.nodup_range) hstart hall
  have hlength := congrArg List.length hids
  rw [List.length_map, List.length_map] at hlength
  exact ⟨⟨hstep, by rw [hids, hs.ids, hlength], hheld⟩, hcalled⟩

theorem send_held {s s' : PIMDRAMSystem δ} {req : Request} (hs : s.Held rowOf G)
    (hreq : rowgroup req.addrVec ∈ G ∧ req.acts = 0) (h : s.send req = .ok s') :
    s'.Held rowOf G := by
  obtain ⟨-, hstep⟩ := send_inStep h hs.inStep
  obtain ⟨hpos, c, c', hc, hsend, rfl⟩ := send_cases h
  have hid : c.channelId = req.addrVec.channel.toNat := by
    have hget : (s.controllers.map PIMDRAMController.channelId)[req.addrVec.channel.toNat]?
        = some c.channelId := by
      rw [List.getElem?_map, hc]
      rfl
    rw [hs.ids] at hget
    obtain ⟨hlt, heq⟩ := List.getElem?_eq_some_iff.mp hget
    simpa using heq.symm
  have hchannel : req.addrVec.channel = c.channelId := by
    rw [hid, Int.toNat_of_nonneg hpos]
  obtain ⟨hheld, hid'⟩ := PIMDRAMController.send_held (hs.held c (List.mem_of_getElem? hc))
    ⟨hreq.1, hchannel, hreq.2⟩ hsend
  refine ⟨hstep, ?_, fun c₁ hc₁ => ?_⟩
  · dsimp only
    rw [List.length_set, ← hs.ids, List.map_set, hid']
    obtain ⟨hlt, rfl⟩ := List.getElem?_eq_some_iff.mp hc
    rw [← List.getElem_map PIMDRAMController.channelId (h := by simpa using hlt),
      List.set_getElem_self]
  · rcases List.mem_or_eq_of_mem_set hc₁ with hmem | rfl
    · exact hs.held c₁ hmem
    · exact hheld

theorem step_clk {h h' : History δ} {op : Op} (hstep : History.Step dram refresh h op h') :
    h.system.clk ≤ h'.system.clk := by
  cases op with
  | send req =>
    obtain ⟨s, hsend, hok⟩ := bind_eq_ok hstep
    obtain rfl := Except.ok.inj hok
    obtain ⟨-, c, c', -, -, rfl⟩ := send_cases hsend
    exact le_rfl
  | tick =>
    obtain rfl := Except.ok.inj hstep
    exact (lt_add_one _).le

theorem run_clk {h h' : History δ} {ops : List Op}
    (hrun : Run (History.Step dram refresh) h ops h') : h.system.clk ≤ h'.system.clk := by
  induction hrun with
  | nil => exact le_rfl
  | cons hstep _ ih => exact (step_clk hstep).trans ih

theorem run_held {h h' : History δ} {ops : List Op} (hdram : dram.OpenPage rowOf)
    (hnone : ∀ channel clk, h.system.clk < clk → clk ≤ h'.system.clk → refresh channel clk = [])
    (hops : ∀ req, Op.send req ∈ ops → rowgroup req.addrVec ∈ G ∧ req.acts = 0)
    (hrun : Run (History.Step dram refresh) h ops h') (hheld : h.system.Held rowOf G)
    (hcalled : ∀ r ∈ h.completed, r.acts ≤ 1) :
    h'.system.Held rowOf G ∧ ∀ r ∈ h'.completed, r.acts ≤ 1 := by
  induction hrun with
  | nil => exact ⟨hheld, hcalled⟩
  | @cons h h₁ h' op ops hstep hrun ih =>
    have hrest := ih (fun channel clk hlt hle =>
      hnone channel clk ((step_clk hstep).trans_lt hlt) hle)
      fun req hreq => hops req (List.mem_cons_of_mem _ hreq)
    cases op with
    | send req =>
      obtain ⟨s, hsend, hok⟩ := bind_eq_ok hstep
      obtain rfl := Except.ok.inj hok
      exact hrest (send_held hheld (hops req (List.mem_cons_self ..)) hsend) hcalled
    | tick =>
      rcases htick : h.system.tick dram refresh with ⟨s, callbacks⟩
      have hclk : s.clk = h.system.clk + 1 := (tick_inStep htick hheld.inStep).1
      simp only [History.Step, History.step, htick] at hstep
      obtain rfl := Except.ok.inj hstep
      have hnow : h.system.clk + 1 ≤ h'.system.clk := by
        have hle := run_clk hrun
        dsimp only at hle
        omega
      obtain ⟨hheld', hcalled'⟩ := tick_held hdram
        (fun channel => hnone channel _ (lt_add_one _) hnow) hheld htick
      refine hrest hheld' fun r hr => ?_
      rcases List.mem_append.mp hr with hr | hr
      · exact hcalled r hr
      · exact hcalled' r hr

/-- Until a refresh falls due no request is given a second activation, as long as at most 32 banks
of each channel are used: the window of its active buffer holds all requests whose rows it
protects. The requests in flight have the rows open that were opened for them. -/
theorem activated_once {numChannels : ℕ} {d₀ : δ} {ops : List Op} {h : History δ}
    (hdram : dram.OpenPage rowOf)
    (hnone : ∀ channel clk, 0 < clk → clk ≤ h.system.clk → refresh channel clk = [])
    (hG : ∀ channel, (banksOf G channel).card ≤ 32)
    (hops : ∀ req, Op.send req ∈ ops → rowgroup req.addrVec ∈ G ∧ req.acts = 0)
    (hrun : Run (History.Step dram refresh) { system := create numChannels d₀ } ops h) :
    h.system.Held rowOf G ∧ ∀ r ∈ h.completed, r.acts ≤ 1 :=
  run_held hdram hnone hops hrun (create_held hG numChannels d₀) (by simp)

theorem lookup_filter_ne (rows : List (List ℤ × ℤ)) (g g' : List ℤ) :
    (rows.filter fun r => r.1 ≠ g).lookup g' = if g' = g then none else rows.lookup g' := by
  induction rows with
  | nil => simp
  | cons r rows ih =>
    by_cases hr : r.1 = g
    · rw [List.filter_cons_of_neg (by simpa using hr), ih]
      split_ifs with hg
      · rfl
      · have hne : (g' == r.1) = false := by simp [hr, hg]
        rw [List.lookup_cons, hne]
    · rw [List.filter_cons_of_pos (by simpa using hr), List.lookup_cons, List.lookup_cons]
      by_cases hg : g' = r.1
      · simp [hg, hr]
      · have hne : (g' == r.1) = false := by simp [hg]
        rw [hne, ih]

theorem idram_openPage (gap readLatency : ℤ) :
    (OpenRows.idram gap readLatency).OpenPage fun d g => d.rows.lookup g where
  tick _ := rfl
  preq d t v ht := by
    show OpenRows.preq d t.translation v = _
    cases t
    case read => rfl
    case write => rfl
    case allRead => rfl
    case allWrite => rfl
    all_goals simp [RequestType.reads, RequestType.writes] at ht
  opens d t v := by
    funext g
    have hrows : OpenRows.update d t.opening v = (rowgroup v, v.row) :: d.rows := by
      cases t <;> rfl
    show (OpenRows.update d t.opening v).lookup g = _
    rw [hrows, List.lookup_cons]
    by_cases hg : g = rowgroup v
    · simp [hg]
    · have hne : (g == rowgroup v) = false := by simp [hg]
      rw [hne, Function.update_of_ne hg]
  closes d t v := by
    funext g
    have hrows : OpenRows.update d t.closing v = d.rows.filter fun r => r.1 ≠ rowgroup v := by
      cases t <;> rfl
    show (OpenRows.update d t.closing v).lookup g = _
    rw [hrows, lookup_filter_ne, Function.update_apply]
  accesses d t v ht := by
    have hrows : OpenRows.update d t.translation v = d.rows := by
      cases t <;> rfl
    show (fun g => (OpenRows.update d t.translation v).lookup g) = _
    rw [hrows]

/-- Three requests for the banks, two of them for one row. -/
theorem three_activated_once : ∃ h : History OpenRows,
    h.completed.length = 3 ∧ ∀ r ∈ h.completed, r.acts ≤ 1 := by
  have hrun : ((([1, 2, 1].map fun row =>
      Op.send (PIMController.request ⟨.kMAC, .kSrc, ⟨0, 0, 0, 0, 0, row, 0⟩, .kGEMV⟩)) ++
      List.replicate 16 Op.tick).foldlM (History.step (OpenRows.idram 1 2) fun _ _ => [])
        { system := create 1 {} }).toOption.any (fun h => h.completed.length == 3) = true := by
    decide +kernel
  obtain ⟨h, hok, hlength⟩ := exists_ok_of_any hrun
  refine ⟨h, by simpa using hlength, (activated_once (G := {[0, 0, 0, 0, 0]})
    (idram_openPage 1 2) (fun _ _ _ _ => rfl) (PIMDRAMController.banksOf_card_le (by decide))
    (fun req hreq => ?_) (Run.of_foldlM hok)).2⟩
  simp only [List.map_cons, List.map_nil, List.cons_append, List.nil_append, List.mem_cons,
    Op.send.injEq, List.mem_replicate, reduceCtorEq, and_false, or_false] at hreq
  rcases hreq with rfl | rfl | rfl <;> exact ⟨by decide, rfl⟩

end PIMDRAMSystem

namespace DRAMInterface
open PIMDRAMSystem
open PIMDRAMController (rowgroup)

variable {δ : Type} {dram : IDRAM δ} {rowOf : δ → List ℤ → Option ℤ} {G : Finset (List ℤ)}
  {refresh : ℕ → ℤ → List RamulatorAddrVec}

theorem Handled.clk {s loaded s' : PIMDRAMSystem δ} {cmds : List PIMCommand} {cycles : ℕ}
    {callbacks : List Request} (h : Handled dram refresh s cmds loaded cycles callbacks s') :
    s.clk ≤ s'.clk :=
  run_clk ((PIMController.sendAll_history h.sent [] []).append h.ticks)

theorem Handled.held {s loaded s' : PIMDRAMSystem δ} {cmds : List PIMCommand} {cycles : ℕ}
    {callbacks : List Request} (hdram : dram.OpenPage rowOf)
    (hnone : ∀ channel clk, s.clk < clk → clk ≤ s'.clk → refresh channel clk = [])
    (h : Handled dram refresh s cmds loaded cycles callbacks s') (hs : s.Held rowOf G)
    (hcmds : ∀ cmd ∈ cmds, rowgroup cmd.addrVec ∈ G) :
    s'.Held rowOf G ∧ ∀ r ∈ callbacks, r.acts ≤ 1 := by
  have hsent : ∀ req, Op.send req ∈
      cmds.map (fun cmd => Op.send (PIMController.request cmd)) ++ List.replicate cycles .tick →
      rowgroup req.addrVec ∈ G ∧ req.acts = 0 := by
    intro req hreq
    rcases List.mem_append.mp hreq with hreq | hreq
    · obtain ⟨cmd, hcmd, heq⟩ := List.mem_map.mp hreq
      cases heq
      exact ⟨hcmds cmd hcmd, rfl⟩
    · rw [List.mem_replicate] at hreq
      cases hreq.2
  exact run_held hdram hnone hsent ((PIMController.sendAll_history h.sent [] []).append h.ticks)
    hs (by simp)

section Requests
variable {c : MemoryConfig} {memoryScaleFactor : ℚ} {pimHWConfig : PIMHWConfig} {fuel : ℕ}
  {s s' : PIMDRAMSystem δ} {status status' : ExecStatus}

theorem sum_acts_le {callbacks : List Request} (h : ∀ r ∈ callbacks, r.acts ≤ 1) :
    (callbacks.map fun req => req.issuedDramCmd .kACT).sum
      + (callbacks.map fun req => req.issuedDramCmd .kALL_ACT).sum ≤ callbacks.length := by
  induction callbacks with
  | nil => simp
  | cons r callbacks ih =>
    obtain ⟨hr, hrest⟩ := List.forall_mem_cons.mp h
    have hle := ih hrest
    unfold Request.acts at hr
    simp only [List.map_cons, List.sum_cons, List.length_cons]
    omega

theorem foldlM_handle_clk {requests : List DRAMRequest}
    (h : requests.foldlM (handle dram refresh c memoryScaleFactor pimHWConfig fuel) (s, status)
      = .ok (s', status')) : s.clk ≤ s'.clk := by
  induction requests generalizing s status with
  | nil =>
    obtain ⟨rfl, rfl⟩ := Prod.mk.inj (Except.ok.inj h)
    exact le_rfl
  | cons request requests ih =>
    rw [List.foldlM_cons] at h
    obtain ⟨⟨s₁, status₁⟩, hone, hrest⟩ := bind_eq_ok h
    obtain ⟨cmds, loaded, cycles, callbacks, -, hhandled, -⟩ := handle_handled hone
    exact hhandled.clk.trans (ih hrest)

theorem foldlM_handle_activations {requests : List DRAMRequest} (hdram : dram.OpenPage rowOf)
    (hnone : ∀ channel clk, s.clk < clk → clk ≤ s'.clk → refresh channel clk = [])
    (hs : s.isFinished = true) (hheld : s.Held rowOf G)
    (hbanks : ∀ request ∈ requests, ∀ cmds, generatePIMCommand c pimHWConfig request [] = .ok cmds →
      ∀ cmd ∈ cmds, rowgroup cmd.addrVec ∈ G)
    (h : requests.foldlM (handle dram refresh c memoryScaleFactor pimHWConfig fuel) (s, status)
      = .ok (s', status')) :
    s'.isFinished = true ∧ s'.Held rowOf G ∧ ∃ batches,
      requests.mapM (fun request => generatePIMCommand c pimHWConfig request []) = .ok batches ∧
      status'.actCount + status'.allActCount
        ≤ status.actCount + status.allActCount + batches.flatten.length := by
  induction requests generalizing s status with
  | nil =>
    obtain ⟨rfl, rfl⟩ := Prod.mk.inj (Except.ok.inj h)
    exact ⟨hs, hheld, [], rfl, by simp⟩
  | cons request requests ih =>
    rw [List.foldlM_cons] at h
    obtain ⟨⟨s₁, status₁⟩, hone, hrest⟩ := bind_eq_ok h
    obtain ⟨cmds, loaded, cycles, callbacks, hcmds, hhandled, rfl⟩ := handle_handled hone
    obtain ⟨hbank, hbanks⟩ := List.forall_mem_cons.mp hbanks
    have hlater := foldlM_handle_clk hrest
    obtain ⟨hheld₁, hacts⟩ := hhandled.held hdram
      (fun channel clk hlt hle => hnone channel clk hlt (hle.trans hlater)) hheld
      (hbank cmds hcmds)
    obtain ⟨hfinished', hheld', batches, hbatches, hle⟩ := ih
      (fun channel clk hlt hle => hnone channel clk (hhandled.clk.trans_lt hlt) hle)
      hhandled.finished hheld₁ hbanks hrest
    have hlength : callbacks.length = cmds.length := by
      simpa using (hhandled.callbacks_perm hs).length_eq
    refine ⟨hfinished', hheld', cmds :: batches, ?_, ?_⟩
    · rw [List.mapM_cons, hcmds, hbatches]
      rfl
    · have hsum := sum_acts_le hacts
      simp only [updateStatus, PIMController.foldl_setEndTime, zero_add] at hle
      rw [List.flatten_cons, List.length_append]
      omega

/-- Until a refresh falls due, and on 32 banks of a channel at most, no more activations are counted
than there are commands. -/
theorem handleRequests_activations {requests : List DRAMRequest} (hdram : dram.OpenPage rowOf)
    (hnone : ∀ channel clk, s.clk < clk → clk ≤ s'.clk → refresh channel clk = [])
    (hs : s.isFinished = true) (hheld : s.Held rowOf G)
    (hbanks : ∀ request ∈ requests, ∀ cmds, generatePIMCommand c pimHWConfig request [] = .ok cmds →
      ∀ cmd ∈ cmds, rowgroup cmd.addrVec ∈ G)
    (h : handleRequests dram refresh c memoryScaleFactor pimHWConfig fuel requests (s, status)
      = .ok (s', status')) :
    s'.isFinished = true ∧ s'.Held rowOf G ∧ ∃ batches,
      requests.mapM (fun request => generatePIMCommand c pimHWConfig request []) = .ok batches ∧
      status'.actCount + status'.allActCount ≤ batches.flatten.length := by
  obtain ⟨hfinished', hheld', batches, hbatches, hle⟩ :=
    foldlM_handle_activations hdram hnone hs hheld hbanks h
  exact ⟨hfinished', hheld', batches, hbatches, by simpa [resetCounter] using hle⟩

/-- Two reads of one row. -/
theorem read_activations : ∃ status : ExecStatus,
    status.readCount = 2 ∧ status.actCount + status.allActCount ≤ 2 := by
  have hcmds : (generatePIMCommand hbm3_80GB {} ⟨.kRead, [(.kDRAM, ⟨0, 5120⟩)]⟩ []).toOption.any
      (fun cmds => cmds.length == 2 && cmds.all fun cmd =>
        rowgroup cmd.addrVec ∈ [[0, 0, 0, 0, 0], [0, 1, 0, 0, 0]]) = true := by
    decide +kernel
  have hrun : (handleRequests (OpenRows.idram 1 2) (fun _ _ => []) hbm3_80GB 1 {} 20
      [⟨.kRead, [(.kDRAM, ⟨0, 5120⟩)]⟩] (create 1 {}, {})).toOption.any
        (fun x => x.2.readCount == 2) = true := by
    decide +kernel
  obtain ⟨cmds, hgenerate, hp⟩ := exists_ok_of_any hcmds
  simp only [Bool.and_eq_true, beq_iff_eq, List.all_eq_true, decide_eq_true_eq] at hp
  obtain ⟨x, hok, hreads⟩ := exists_ok_of_any hrun
  have hbanks : ∀ request ∈ [(⟨.kRead, [(.kDRAM, ⟨0, 5120⟩)]⟩ : DRAMRequest)], ∀ cmds',
      generatePIMCommand hbm3_80GB {} request [] = .ok cmds' → ∀ cmd ∈ cmds',
        rowgroup cmd.addrVec ∈ ({[0, 0, 0, 0, 0], [0, 1, 0, 0, 0]} : Finset (List ℤ)) := by
    intro request hrequest cmds' hcmds' cmd hcmd
    obtain rfl := List.mem_singleton.mp hrequest
    rw [hgenerate] at hcmds'
    obtain rfl := Except.ok.inj hcmds'
    simpa using hp.2 cmd hcmd
  obtain ⟨-, -, batches, hbatches, hle⟩ := handleRequests_activations (idram_openPage 1 2)
    (fun _ _ _ _ => rfl) (by decide)
    (create_held (PIMDRAMController.banksOf_card_le (by decide)) 1 _) hbanks hok
  refine ⟨x.2, by simpa using hreads, hle.trans ?_⟩
  rw [List.mapM_cons, hgenerate] at hbatches
  obtain rfl := Except.ok.inj hbatches
  simpa using hp.1.le

end Requests
end DRAMInterface
end LlmSystem
