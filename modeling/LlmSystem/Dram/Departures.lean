import LlmSystem.Dram.Handled
import Mathlib.Algebra.Order.BigOperators.Group.List
import Mathlib.Tactic.Ring

/-!
How long `HandleRequest` takes: a channel is given one command in a cycle, so the departures of a
batch are a ladder, and the last of them is what a request ends with.
-/
namespace LlmSystem

open Runs

/-- A ladder of integers above `a` has one step for each of them. -/
theorem length_le_getLast {a : ℤ} {l : List ℤ} (h : l.Pairwise (· < ·)) (ha : ∀ x ∈ l, a < x)
    (hl : l ≠ []) : a + l.length ≤ l.getLast hl := by
  induction l generalizing a with
  | nil => exact absurd rfl hl
  | cons x l ih =>
    have hx := ha x (List.mem_cons_self ..)
    obtain ⟨hlt, hpair⟩ := List.pairwise_cons.mp h
    by_cases hnil : l = []
    · subst hnil
      simpa using Int.add_one_le_of_lt hx
    · have hlast := ih hpair hlt hnil
      rw [List.getLast_cons hnil, List.length_cons]
      push_cast
      omega

/-- A batch of one direction in a channel at cycle `clk`, which can be given a command from cycle
`due` on: the requests that wait, those that wait for their data, and those called back. -/
structure Paced (readLatency : ℤ) (reads : Bool) (start clk due : ℤ) (W : Multiset Request)
    (P C : List Request) : Prop where
  waiting : ∀ r ∈ W, (r.typeId.reads = true → r.callback = true) ∧
    (r.callback = true → r.typeId.reads = reads)
  pending : ∀ r ∈ P, reads = true ∧ r.callback = true ∧ clk < r.depart ∧
    r.depart < due + readLatency
  completed : ∀ r ∈ C, r.depart ≤ clk ∧ (reads = false → r.depart < due)
  above : ∀ r ∈ C ++ P, start + (if reads then readLatency else 0) < r.depart
  ladder : ((C ++ P).map Request.depart).Pairwise (· < ·)

namespace Paced
variable {δ : Type} {dram : IDRAM δ} {L start clk due : ℤ} {reads : Bool} {W : Multiset Request}
  {P C : List Request}

theorem writes_pending (h : Paced L false start clk due W P C) : P = [] := by
  refine List.eq_nil_iff_forall_not_mem.mpr fun r hr => ?_
  cases (h.pending r hr).1

theorem refresh (h : Paced L reads start clk due W P C) (vs : List RamulatorAddrVec) :
    Paced L reads start clk due (W + (vs.map Request.refresh : List Request)) P C := by
  refine { h with waiting := fun r hr => ?_ }
  rcases Multiset.mem_add.mp hr with hr | hr
  · exact h.waiting r hr
  · obtain ⟨v, -, rfl⟩ := List.mem_map.mp (Multiset.mem_coe.mp hr)
    exact ⟨fun h => absurd h Bool.false_ne_true, fun h => absurd h Bool.false_ne_true⟩

/-- The first pending request leaves exactly when its data is there. -/
theorem departure {P' served : List Request} (h : Paced L reads start clk (clk + 1) W P C)
    (hdep : InService.Departure (clk + 1) P P' served) :
    Paced L reads start (clk + 1) (clk + 1) W P' (C ++ served) := by
  obtain ⟨hwait, hpend, hcomp, habove, hladder⟩ := h
  cases hdep with
  | none hlate =>
    rw [List.append_nil]
    refine ⟨hwait, fun r hr => ?_, fun r hr => ?_, habove, hladder⟩
    · obtain ⟨hreads, hcall, -, hdue⟩ := hpend r hr
      refine ⟨hreads, hcall, ?_, hdue⟩
      cases P with
      | nil => cases hr
      | cons r₀ P =>
        have hfirst := hlate r₀ rfl
        rcases List.mem_cons.mp hr with rfl | hmem
        · exact hfirst
        · rw [List.map_append] at hladder
          have hlt := (List.pairwise_cons.mp (List.pairwise_append.mp hladder).2.1).1 r.depart
            (List.mem_map_of_mem hmem)
          omega
    · obtain ⟨hle, hlt⟩ := hcomp r hr
      exact ⟨by omega, hlt⟩
  | @front P r hdue =>
    obtain ⟨⟨hreads, hcall, hlt, -⟩, hrest⟩ := List.forall_mem_cons.mp hpend
    rw [if_pos hcall]
    rw [List.append_cons] at habove hladder
    refine ⟨hwait, fun r' hr' => ?_, fun r' hr' => ?_, habove, hladder⟩
    · obtain ⟨hreads', hcall', -, hdue'⟩ := hrest r' hr'
      refine ⟨hreads', hcall', ?_, hdue'⟩
      rw [List.map_append] at hladder
      have hstep := (List.pairwise_append.mp hladder).2.2 r.depart (by simp) r'.depart
        (List.mem_map_of_mem hr')
      omega
    · rcases List.mem_append.mp hr' with hmem | hmem
      · obtain ⟨hle, hlt'⟩ := hcomp r' hmem
        exact ⟨by omega, hlt'⟩
      · obtain rfl := List.mem_singleton.mp hmem
        exact ⟨hdue, fun hfalse => by rw [hreads] at hfalse; cases hfalse⟩

/-- A command makes at most one more departure, later than all before it. -/
theorem command {x y : InService δ} {written : List Request}
    (h : Paced dram.readLatency reads start clk clk x.waiting x.pending C) (hclk : start < clk)
    (hlatency : 0 < dram.readLatency) (hcmd : InService.Command dram clk x y written) :
    Paced dram.readLatency reads start clk (clk + 1) y.waiting y.pending (C ++ written) := by
  obtain ⟨hwait, hpend, hcomp, habove, hladder⟩ := h
  have hpend' : ∀ r ∈ x.pending, reads = true ∧ r.callback = true ∧ clk < r.depart ∧
      r.depart < clk + 1 + dram.readLatency := by
    intro r hr
    obtain ⟨hreads, hcall, hlt, hdue⟩ := hpend r hr
    exact ⟨hreads, hcall, hlt, by omega⟩
  have hcomp' : ∀ r ∈ C, r.depart ≤ clk ∧ (reads = false → r.depart < clk + 1) := by
    intro r hr
    obtain ⟨hle, -⟩ := hcomp r hr
    exact ⟨hle, fun _ => by omega⟩
  cases hcmd with
  | none =>
    rw [List.append_nil]
    exact ⟨hwait, hpend', hcomp', habove, hladder⟩
  | prepare hready hne =>
    obtain ⟨hr, hwait⟩ := Multiset.forall_mem_cons.mp hwait
    rw [List.append_nil]
    exact ⟨Multiset.forall_mem_cons.mpr ⟨by simpa using hr, hwait⟩, hpend', hcomp', habove,
      hladder⟩
  | @read d W P r hready hpreq hread =>
    obtain ⟨⟨hcall, hdir⟩, hwait⟩ := Multiset.forall_mem_cons.mp hwait
    have hreads : reads = true := (hdir (hcall hread)).symm.trans hread
    have hdepart : ((r.count r.finalCommand).departAt (clk + dram.readLatency)).depart
        = clk + dram.readLatency := rfl
    rw [List.append_nil]
    refine ⟨hwait, fun r' hr' => ?_, hcomp', fun r' hr' => ?_, ?_⟩
    · rcases List.mem_append.mp hr' with hmem | hmem
      · exact hpend' r' hmem
      · rw [List.mem_singleton.mp hmem, hdepart]
        exact ⟨hreads, by simpa using hcall hread, by omega, by omega⟩
    · rw [← List.append_assoc] at hr'
      rcases List.mem_append.mp hr' with hmem | hmem
      · exact habove r' hmem
      · rw [List.mem_singleton.mp hmem, hdepart, if_pos hreads]
        omega
    · rw [← List.append_assoc, List.map_append]
      refine List.pairwise_append.mpr ⟨hladder, List.pairwise_singleton _ _, ?_⟩
      intro t ht t' ht'
      rw [List.mem_singleton.mp ht', hdepart]
      obtain ⟨r', hr', rfl⟩ := List.mem_map.mp ht
      rcases List.mem_append.mp hr' with hmem | hmem
      · have hle := (hcomp r' hmem).1
        omega
      · exact (hpend r' hmem).2.2.2
  | @write d W P r hready hpreq hwrite =>
    obtain ⟨⟨-, hdir⟩, hrest⟩ := Multiset.forall_mem_cons.mp hwait
    have hreads : reads = false := by
      rw [← hdir hwrite.2]
      have hw := hwrite.1
      revert hw
      cases r.typeId <;> decide
    subst hreads
    have hnil : P = [] := writes_pending ⟨hrest, hpend, hcomp, habove, hladder⟩
    subst hnil
    have hdepart : ((r.count r.finalCommand).departAt clk).depart = clk := rfl
    rw [List.append_nil] at habove hladder
    refine ⟨hrest, hpend', fun r' hr' => ?_, fun r' hr' => ?_, ?_⟩
    · rcases List.mem_append.mp hr' with hmem | hmem
      · exact hcomp' r' hmem
      · rw [List.mem_singleton.mp hmem, hdepart]
        exact ⟨le_rfl, fun _ => by omega⟩
    · rw [List.append_nil] at hr'
      rcases List.mem_append.mp hr' with hmem | hmem
      · exact habove r' hmem
      · rw [List.mem_singleton.mp hmem, hdepart]
        simpa using hclk
    · rw [List.append_nil, List.map_append]
      refine List.pairwise_append.mpr ⟨hladder, List.pairwise_singleton _ _, ?_⟩
      intro t ht t' ht'
      rw [List.mem_singleton.mp ht', hdepart]
      obtain ⟨r', hr', rfl⟩ := List.mem_map.mp ht
      exact (hcomp r' hr').2 rfl
  | drop hready hpreq hread hwrite =>
    rw [List.append_nil]
    exact ⟨(Multiset.forall_mem_cons.mp hwait).2, hpend', hcomp', habove, hladder⟩

/-- A tick of the channel. -/
theorem tick {refreshes : ℤ → List RamulatorAddrVec} {d d' : δ} {x x' : Channel}
    {callbacks : List Request}
    (h : Paced dram.readLatency reads start x.clk (x.clk + 1) x.waiting x.pending C)
    (hclk : start ≤ x.clk) (hlatency : 0 < dram.readLatency)
    (htick : Channel.Tick dram refreshes d x d' x' callbacks) :
    x'.clk = x.clk + 1 ∧ Paced dram.readLatency reads start x'.clk (x'.clk + 1) x'.waiting
      x'.pending (C ++ callbacks) := by
  cases htick with
  | @mk P y served written hdep hcmd =>
    have hserved := (h.departure hdep).refresh (refreshes (x.clk + 1))
    have hnext := hserved.command (x := ⟨d, _, P⟩) (by omega) hlatency hcmd
    rw [List.append_assoc] at hnext
    exact ⟨rfl, hnext⟩

end Paced

theorem Channel.Tick.clk {δ : Type} {dram : IDRAM δ} {refreshes : ℤ → List RamulatorAddrVec}
    {d d' : δ} {x x' : Channel} {callbacks : List Request}
    (h : Channel.Tick dram refreshes d x d' x' callbacks) : x'.clk = x.clk + 1 := by
  cases h
  rfl

/-- A channel that refreshes, and nothing else. -/
structure Channel.Silent (x : Channel) : Prop where
  pending : x.pending = []
  waiting : ∀ r ∈ x.waiting, r.callback = false ∧ r.typeId.reads = false

variable {δ : Type} {dram : IDRAM δ} {refresh : ℕ → ℤ → List RamulatorAddrVec}

theorem Channel.Silent.tick {refreshes : ℤ → List RamulatorAddrVec} {d d' : δ} {x x' : Channel}
    {callbacks : List Request} (h : x.Silent)
    (htick : Channel.Tick dram refreshes d x d' x' callbacks) : x'.Silent ∧ callbacks = [] := by
  obtain ⟨hpend, hwait⟩ := h
  have hall : ∀ r ∈ x.waiting + ((refreshes (x.clk + 1)).map Request.refresh : List Request),
      r.callback = false ∧ r.typeId.reads = false := by
    intro r hr
    rcases Multiset.mem_add.mp hr with hr | hr
    · exact hwait r hr
    · obtain ⟨v, -, rfl⟩ := List.mem_map.mp (Multiset.mem_coe.mp hr)
      exact ⟨rfl, rfl⟩
  cases htick with
  | @mk P y served written hdep hcmd =>
    rw [hpend] at hdep
    cases hdep
    rw [List.nil_append]
    generalize x.waiting + ((refreshes (x.clk + 1)).map Request.refresh : List Request) = W
      at hall hcmd
    cases hcmd with
    | none => exact ⟨⟨rfl, hall⟩, rfl⟩
    | prepare hready hne =>
      obtain ⟨hr, hall⟩ := Multiset.forall_mem_cons.mp hall
      exact ⟨⟨rfl, Multiset.forall_mem_cons.mpr ⟨by simpa using hr, hall⟩⟩, rfl⟩
    | read hready hpreq hreads =>
      have hr := (Multiset.forall_mem_cons.mp hall).1
      rw [hr.2] at hreads
      cases hreads
    | write hready hpreq hwrites =>
      have hr := (Multiset.forall_mem_cons.mp hall).1
      rw [hr.1] at hwrites
      cases hwrites.2
    | drop hready hpreq hreads hwrites =>
      exact ⟨⟨rfl, (Multiset.forall_mem_cons.mp hall).2⟩, rfl⟩

namespace PIMDRAMSystem

/-- The controllers have the clock of the memory system. -/
def InStep (s : PIMDRAMSystem δ) : Prop := ∀ c ∈ s.controllers, c.clk = s.clk

theorem create_inStep (numChannels : ℕ) (d : δ) : (create numChannels d).InStep := by
  intro c hc
  obtain ⟨i, -, rfl⟩ := List.mem_map.mp hc
  rfl

theorem tickAll_clk {d d' : δ} {cs cs' : List PIMDRAMController} {callbacks : List Request}
    (h : tickAll dram refresh d cs = (d', cs', callbacks)) :
    cs'.map PIMDRAMController.clk = cs.map fun c => c.clk + 1 := by
  induction cs generalizing d cs' callbacks with
  | nil =>
    obtain ⟨rfl, rfl, rfl⟩ := h
    rfl
  | cons c cs ih =>
    obtain ⟨d₁, c₁, callbacks₁, cs₂, callbacks₂, hc, hcs, rfl, rfl⟩ := tickAll_cons h
    have hclk : c₁.clk = c.clk + 1 := (PIMDRAMController.tick_refines hc).2.clk
    rw [List.map_cons, List.map_cons, hclk, ih hcs]

theorem tickAll_silent {d d' : δ} {cs cs' : List PIMDRAMController} {callbacks : List Request}
    (h : tickAll dram refresh d cs = (d', cs', callbacks)) (hcs : ∀ c ∈ cs, c.view.Silent) :
    callbacks = [] ∧ ∀ c ∈ cs', c.view.Silent := by
  induction cs generalizing d cs' callbacks with
  | nil =>
    obtain ⟨rfl, rfl, rfl⟩ := h
    exact ⟨rfl, by simp⟩
  | cons c cs ih =>
    obtain ⟨d₁, c₁, callbacks₁, cs₂, callbacks₂, hc, hrest, rfl, rfl⟩ := tickAll_cons h
    obtain ⟨hone, hcs⟩ := List.forall_mem_cons.mp hcs
    obtain ⟨-, htick⟩ := PIMDRAMController.tick_refines hc
    obtain ⟨hsilent, hnone⟩ := hone.tick htick
    obtain ⟨rfl, hcs₂⟩ := ih hrest hcs
    refine ⟨?_, List.forall_mem_cons.mpr ⟨hsilent, hcs₂⟩⟩
    rw [List.append_nil]
    exact List.map_eq_nil_iff.mp hnone

/-- A memory system whose first channel works on a batch, after some callbacks. -/
structure PacedFront (dram : IDRAM δ) (reads : Bool) (start : ℤ) (s : PIMDRAMSystem δ)
    (C : List Request) : Prop where
  inStep : s.InStep
  started : start ≤ s.clk
  front : ∃ c cs, s.controllers = c :: cs ∧ (∀ c' ∈ cs, c'.view.Silent) ∧
    Paced dram.readLatency reads start s.clk (s.clk + 1) c.waiting (c.pending.map Request.idle)
      (C.map Request.idle)

theorem tick_inStep {s s' : PIMDRAMSystem δ} {callbacks : List Request}
    (h : s.tick dram refresh = (s', callbacks)) (hs : s.InStep) :
    s'.clk = s.clk + 1 ∧ s'.InStep := by
  obtain ⟨d, cs, hall, rfl⟩ := tick_cases h
  refine ⟨rfl, fun c hc => ?_⟩
  have hclk : c.clk ∈ s.controllers.map fun c => c.clk + 1 := by
    rw [← tickAll_clk hall]
    exact List.mem_map_of_mem hc
  obtain ⟨c₀, hc₀, heq⟩ := List.mem_map.mp hclk
  rw [← heq, hs c₀ hc₀]

theorem PacedFront.tick {reads : Bool} {start : ℤ} {s s' : PIMDRAMSystem δ}
    {C callbacks : List Request} (hs : PacedFront dram reads start s C)
    (hlatency : 0 < dram.readLatency) (h : s.tick dram refresh = (s', callbacks)) :
    PacedFront dram reads start s' (C ++ callbacks) := by
  obtain ⟨hstep, hstart, c, cs, hcs, hsilent, hpaced⟩ := hs
  obtain ⟨hclk, hstep'⟩ := tick_inStep h hstep
  rcases hc : c.tick dram (dram.tick s.dram) refresh with ⟨d₁, c₁, callbacks₁⟩
  rcases hrest : tickAll dram refresh d₁ cs with ⟨d₂, cs₂, callbacks₂⟩
  simp only [PIMDRAMSystem.tick, hcs, tickAll, hc, hrest] at h
  obtain ⟨rfl, rfl⟩ := Prod.mk.inj h
  obtain ⟨rfl, hsilent'⟩ := tickAll_silent hrest hsilent
  obtain ⟨-, htick⟩ := PIMDRAMController.tick_refines hc
  have hcclk : c.view.clk = s.clk := hstep c (by simp [hcs])
  rw [← hcclk] at hpaced hstart
  obtain ⟨hclk', hpaced'⟩ := Paced.tick (x := c.view) hpaced hstart hlatency htick
  refine ⟨hstep', ?_, c₁, cs₂, rfl, hsilent', ?_⟩
  · dsimp only at hclk ⊢
    omega
  · rw [hclk', hcclk, ← List.map_append] at hpaced'
    rw [List.append_nil]
    exact hpaced'

theorem PacedFront.ticks {reads : Bool} {start : ℤ} {cycles : ℕ} {s s' : PIMDRAMSystem δ}
    {sent sent' C C' : List Request} (hs : PacedFront dram reads start s C)
    (hlatency : 0 < dram.readLatency)
    (h : Run (History.Step dram refresh) ⟨s, sent, C⟩ (List.replicate cycles .tick)
      ⟨s', sent', C'⟩) :
    PacedFront dram reads start s' C' := by
  induction cycles generalizing s sent C with
  | zero =>
    cases h
    exact hs
  | succ cycles ih =>
    rcases htick : s.tick dram refresh with ⟨s₁, callbacks⟩
    cases h with
    | cons hstep hrest =>
      simp only [History.Step, History.step, htick] at hstep
      obtain rfl := Except.ok.inj hstep
      exact ih (hs.tick hlatency htick) hrest

theorem ticks_inStep {cycles : ℕ} {s s' : PIMDRAMSystem δ} {sent sent' C C' : List Request}
    (h : Run (History.Step dram refresh) ⟨s, sent, C⟩ (List.replicate cycles .tick)
      ⟨s', sent', C'⟩) (hs : s.InStep) : s'.clk = s.clk + cycles ∧ s'.InStep := by
  induction cycles generalizing s sent C with
  | zero =>
    cases h
    exact ⟨by simp, hs⟩
  | succ cycles ih =>
    rcases htick : s.tick dram refresh with ⟨s₁, callbacks⟩
    cases h with
    | cons hstep hrest =>
      simp only [History.Step, History.step, htick] at hstep
      obtain rfl := Except.ok.inj hstep
      obtain ⟨hclk, hs₁⟩ := tick_inStep htick hs
      obtain ⟨hclk', hs'⟩ := ih hrest hs₁
      refine ⟨?_, hs'⟩
      rw [hclk', hclk]
      push_cast
      ring

theorem send_inStep {s s' : PIMDRAMSystem δ} {req : Request} (h : s.send req = .ok s')
    (hs : s.InStep) : s'.clk = s.clk ∧ s'.InStep := by
  obtain ⟨-, c, c', hc, hsend, rfl⟩ := send_cases h
  obtain ⟨hclk, -⟩ := PIMDRAMController.send_spec hsend
  refine ⟨rfl, fun c₁ hc₁ => ?_⟩
  rcases List.mem_or_eq_of_mem_set hc₁ with hmem | rfl
  · exact hs c₁ hmem
  · exact hclk.trans (hs c (List.mem_of_getElem? hc))

end PIMDRAMSystem

namespace DRAMInterface
open PIMDRAMSystem

theorem sendAll_inStep {cmds : List PIMCommand} {s s' : PIMDRAMSystem δ}
    (h : PIMController.sendAll cmds s = .ok s') (hs : s.InStep) :
    s'.clk = s.clk ∧ s'.InStep := by
  induction cmds generalizing s with
  | nil =>
    obtain rfl := Except.ok.inj h
    exact ⟨rfl, hs⟩
  | cons cmd cmds ih =>
    obtain ⟨s₁, hsend, hrest⟩ := bind_eq_ok h
    obtain ⟨hclk, hs₁⟩ := send_inStep hsend hs
    obtain ⟨hclk', hs'⟩ := ih hrest hs₁
    exact ⟨hclk'.trans hclk, hs'⟩

/-- Commands for channel 0 leave the other controllers alone. -/
theorem sendAll_front {cmds : List PIMCommand} {s s' : PIMDRAMSystem δ}
    (hchannel : ∀ cmd ∈ cmds, cmd.addrVec.channel = 0) (hcmds : cmds ≠ [])
    (h : PIMController.sendAll cmds s = .ok s') :
    ∃ c c' cs, s.controllers = c :: cs ∧ s'.controllers = c' :: cs := by
  induction cmds generalizing s with
  | nil => exact absurd rfl hcmds
  | cons cmd cmds ih =>
    obtain ⟨hzero, hchannel⟩ := List.forall_mem_cons.mp hchannel
    obtain ⟨s₁, hsend, hrest⟩ := bind_eq_ok h
    obtain ⟨-, c, c₁, hc, -, rfl⟩ := send_cases hsend
    have hindex : (PIMController.request cmd).addrVec.channel = 0 := hzero
    rw [hindex] at hc hrest
    cases hcs : s.controllers with
    | nil =>
      rw [hcs] at hc
      cases hc
    | cons c₀ cs =>
      rw [hcs] at hrest
      by_cases hnil : cmds = []
      · subst hnil
        obtain rfl := Except.ok.inj hrest
        exact ⟨c₀, c₁, cs, rfl, rfl⟩
      · obtain ⟨c₂, c', cs', hcs₁, hcs'⟩ := ih hchannel hnil hrest
        obtain ⟨rfl, rfl⟩ := List.cons.inj hcs₁
        exact ⟨c₀, c', _, rfl, hcs'⟩

theorem finished_silent {s : PIMDRAMSystem δ} (hs : s.isFinished = true) :
    ∀ c ∈ s.controllers, c.view.Silent := by
  intro c hc
  have hfin := List.all_eq_true.mp hs c hc
  simp only [PIMDRAMController.isFinished, ReqBuffer.empty, Bool.and_eq_true,
    List.isEmpty_iff] at hfin
  constructor
  · simp [PIMDRAMController.view, hfin]
  · simp [PIMDRAMController.view, PIMDRAMController.waiting, ReqBuffer.bag, hfin]

/-- Whether a batch waits for data. -/
def reads (cmds : List PIMCommand) : Bool :=
  cmds.any fun cmd => (PIMController.getType cmd.pimcmdType).reads

/-- The cycles a batch takes at least: one for each command, and the latency of the last read. -/
def shortest (dram : IDRAM δ) (cmds : List PIMCommand) : ℤ :=
  cmds.length + if reads cmds then dram.readLatency else 0

theorem Handled.paced {c : MemoryConfig} {pimHWConfig : PIMHWConfig} {request : DRAMRequest}
    {s loaded s' : PIMDRAMSystem δ} {cmds : List PIMCommand} {cycles : ℕ}
    {callbacks : List Request} (h : Handled dram refresh s cmds loaded cycles callbacks s')
    (hs : s.isFinished = true) (hstep : s.InStep) (hlatency : 0 < dram.readLatency)
    (hgenerate : generatePIMCommand c pimHWConfig request [] = .ok cmds) (hcmds : cmds ≠ []) :
    PacedFront dram (reads cmds) s.clk s' callbacks := by
  obtain ⟨-, hchannel⟩ := generatePIMCommand_uniform hgenerate
  obtain ⟨-, type, htype, hloaded⟩ := h.loaded hs hgenerate
  obtain ⟨c₀, c₁, cs, hcs, hcs₁⟩ := sendAll_front hchannel hcmds h.sent
  obtain ⟨hclk, hstep₁⟩ := sendAll_inStep h.sent hstep
  have hreads : reads cmds = (PIMController.getType type).reads := by
    obtain ⟨cmd, hcmd⟩ := List.exists_mem_of_ne_nil cmds hcmds
    rw [Bool.eq_iff_iff, reads, List.any_eq_true]
    constructor
    · rintro ⟨cmd', hcmd', hr⟩
      rwa [htype cmd' hcmd'] at hr
    · intro hr
      exact ⟨cmd, hcmd, by rwa [htype cmd hcmd]⟩
  have hpend : c₁.pending = [] := by
    have hzero := hloaded.pending
    rw [PIMDRAMSystem.pending, hcs₁, List.map_cons, List.sum_cons] at hzero
    have hle := Multiset.le_zero.mp (hzero ▸ Multiset.le_add_right _ _)
    simpa using hle
  have hwait : ∀ r ∈ c₁.waiting, r.callback = true ∧ r.typeId = PIMController.getType type := by
    intro r hr
    refine (hloaded.waiting r ?_).1
    simp [PIMDRAMSystem.waiting, hcs₁, hr]
  have hstart : PacedFront dram (reads cmds) s.clk loaded [] := by
    refine ⟨hstep₁, hclk.ge, c₁, cs, hcs₁, fun c hc => ?_, fun r hr => ?_, ?_, ?_, ?_, ?_⟩
    · exact finished_silent hs c (by simp [hcs, hc])
    · obtain ⟨hcall, hkind⟩ := hwait r hr
      rw [hreads, hkind]
      exact ⟨fun _ => hcall, fun _ => rfl⟩
    all_goals simp [hpend]
  exact hstart.ticks hlatency h.ticks

/-- The interval of a batch: its first and last cycle are cycles of the memory system, and it is
no shorter than the commands and the latency allow. -/
theorem Handled.interval {c : MemoryConfig} {pimHWConfig : PIMHWConfig} {request : DRAMRequest}
    {s loaded s' : PIMDRAMSystem δ} {cmds : List PIMCommand} {cycles : ℕ}
    {callbacks : List Request} (h : Handled dram refresh s cmds loaded cycles callbacks s')
    (hs : s.isFinished = true) (hstep : s.InStep) (hlatency : 0 < dram.readLatency)
    (hgenerate : generatePIMCommand c pimHWConfig request [] = .ok cmds) {pimrequest : Simulated}
    (hsim : pimrequest
      = callbacks.foldl PIMController.setEndTime { start := s.clk, «end» := s.clk }) :
    s'.InStep ∧ s.clk ≤ s'.clk ∧ shortest dram cmds ≤ pimrequest.end - pimrequest.start ∧
      pimrequest.end - pimrequest.start ≤ s'.clk - s.clk := by
  obtain ⟨hclk, hstep₁⟩ := sendAll_inStep h.sent hstep
  obtain ⟨hclk', hstep'⟩ := ticks_inStep h.ticks hstep₁
  have hlength : callbacks.length = cmds.length := by
    simpa using (h.callbacks_perm hs).length_eq
  have hle : s.clk ≤ s'.clk := by omega
  refine ⟨hstep', hle, ?_⟩
  rw [hsim, PIMController.foldl_setEndTime]
  dsimp only
  by_cases hcmds : cmds = []
  · subst hcmds
    obtain rfl := List.length_eq_zero_iff.mp hlength
    simpa [shortest, reads] using hle
  · have hpaced := h.paced hs hstep hlatency hgenerate hcmds
    obtain ⟨c', cs, -, -, hpaced⟩ := hpaced.front
    have hnil : callbacks ≠ [] := by
      intro hnil
      rw [hnil] at hlength
      exact hcmds (List.length_eq_zero_iff.mp hlength.symm)
    have hmap : (callbacks.map Request.idle).map Request.depart
        = callbacks.map Request.depart := by
      rw [List.map_map]
      rfl
    have hladder : (callbacks.map Request.depart).Pairwise (· < ·) := by
      have hall := hpaced.ladder
      rw [List.map_append, hmap] at hall
      exact (List.pairwise_append.mp hall).1
    have habove : ∀ t ∈ callbacks.map Request.depart,
        s.clk + (if reads cmds then dram.readLatency else 0) < t := by
      intro t ht
      obtain ⟨r, hr, rfl⟩ := List.mem_map.mp ht
      exact hpaced.above r.idle (List.mem_append_left _ (List.mem_map_of_mem hr))
    have hlast := length_le_getLast hladder habove (by simpa using hnil)
    rw [List.getLast_map, List.length_map, hlength] at hlast
    have hend := (hpaced.completed _
      (List.mem_map_of_mem (List.getLast_mem hnil) : _ ∈ callbacks.map Request.idle)).1
    rw [List.getLast?_eq_some_getLast hnil, Option.map_some, Option.getD_some]
    have hidle : (callbacks.getLast hnil).idle.depart = (callbacks.getLast hnil).depart := rfl
    unfold shortest
    omega

section Requests
variable {c : MemoryConfig} {memoryScaleFactor : ℚ} {pimHWConfig : PIMHWConfig} {fuel : ℕ}
  {s s' : PIMDRAMSystem δ} {status status' : ExecStatus}

theorem foldlM_handle_duration {requests : List DRAMRequest} (hs : s.isFinished = true)
    (hstep : s.InStep) (hlatency : 0 < dram.readLatency)
    (h : requests.foldlM (handle dram refresh c memoryScaleFactor pimHWConfig fuel) (s, status)
      = .ok (s', status')) :
    s'.InStep ∧ ∃ batches duration,
      requests.mapM (fun request => generatePIMCommand c pimHWConfig request []) = .ok batches ∧
      status'.memoryDuration = status.memoryDuration + (duration : ℤ) * memoryScaleFactor ∧
      (batches.map (shortest dram)).sum ≤ duration ∧ duration ≤ s'.clk - s.clk := by
  induction requests generalizing s status with
  | nil =>
    obtain ⟨rfl, rfl⟩ := Prod.mk.inj (Except.ok.inj h)
    exact ⟨hstep, [], 0, rfl, by simp, by simp, by simp⟩
  | cons request requests ih =>
    rw [List.foldlM_cons] at h
    obtain ⟨⟨s₁, status₁⟩, hone, hrest⟩ := bind_eq_ok h
    obtain ⟨cmds, loaded, cycles, callbacks, hcmds, hhandled, rfl⟩ := handle_handled hone
    generalize hsim : callbacks.foldl PIMController.setEndTime _ = pimrequest at hrest
    obtain ⟨hstep₁, -, hshort, hlong⟩ :=
      hhandled.interval hs hstep hlatency hcmds hsim.symm
    obtain ⟨hstep', batches, duration, hbatches, hduration, hsum, hcycles⟩ :=
      ih hhandled.finished hstep₁ hrest
    refine ⟨hstep', cmds :: batches, (pimrequest.end - pimrequest.start) + duration, ?_, ?_, ?_, ?_⟩
    · rw [List.mapM_cons, hcmds, hbatches]
      rfl
    · rw [hduration, updateStatus]
      push_cast
      ring
    · rw [List.map_cons, List.sum_cons]
      exact add_le_add hshort hsum
    · omega

/-- The memory time of a list of requests, in cycles: no batch is faster than one command in a
cycle and the latency of a read, and no cycle is counted twice. -/
theorem handleRequests_duration {requests : List DRAMRequest} (hs : s.isFinished = true)
    (hstep : s.InStep) (hlatency : 0 < dram.readLatency)
    (h : handleRequests dram refresh c memoryScaleFactor pimHWConfig fuel requests (s, status)
      = .ok (s', status')) :
    ∃ batches duration,
      requests.mapM (fun request => generatePIMCommand c pimHWConfig request []) = .ok batches ∧
      status'.memoryDuration = (duration : ℤ) * memoryScaleFactor ∧
      (batches.map (shortest dram)).sum ≤ duration ∧ duration ≤ s'.clk - s.clk := by
  obtain ⟨-, batches, duration, hbatches, hduration, hsum⟩ :=
    foldlM_handle_duration hs hstep hlatency h
  refine ⟨batches, duration, hbatches, ?_, hsum⟩
  rw [hduration]
  simp [resetCounter]

/-- Two reads and two writes, at half a core cycle for each cycle of the memory. -/
theorem read_write_duration : ∃ (status : ExecStatus) (duration : ℤ),
    status.memoryDuration = duration * (1 / 2) ∧ 6 ≤ duration ∧ duration ≤ 20 := by
  have hrun : (handleRequests (OpenRows.idram 1 2) (fun _ _ => []) hbm3_80GB (1 / 2) {} 20
      [⟨.kRead, [(.kDRAM, ⟨0, 5120⟩)]⟩, ⟨.kWrite, [(.kDRAM, ⟨0, 5120⟩)]⟩]
      (create 1 {}, {})).toOption.any (fun x => x.1.clk ≤ 20) = true := by
    decide +kernel
  obtain ⟨x, hok, hclk⟩ := exists_ok_of_any hrun
  obtain ⟨batches, duration, hbatches, hduration, hshort, hlong⟩ :=
    handleRequests_duration (by decide) (create_inStep 1 ({} : OpenRows)) (by decide) hok
  refine ⟨x.2, duration, hduration, ?_, hlong.trans ?_⟩
  · have hsum : ((List.mapM (fun request => generatePIMCommand hbm3_80GB {} request [])
        [⟨.kRead, [(.kDRAM, ⟨0, 5120⟩)]⟩, ⟨.kWrite, [(.kDRAM, ⟨0, 5120⟩)]⟩]).toOption.map
        fun batches => (batches.map (shortest (OpenRows.idram 1 2))).sum) = some 6 := by
      decide +kernel
    rw [hbatches] at hsum
    exact (Option.some.inj hsum).ge.trans hshort
  · simpa [create] using hclk

end Requests

end DRAMInterface
end LlmSystem
