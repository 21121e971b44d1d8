import LlmSystem.Dram.InFlight
import LlmSystem.Dram.PIMDRAMSystem
import LlmSystem.Lib.Runs
import Mathlib.Data.Multiset.Filter

/-!
A memory system as a flow of requests: they wait, wait for their data, and are called back or
dropped. Which channel and which buffer a request is in does not matter here.
-/
namespace LlmSystem

open Relation Runs

structure Flow (δ : Type) where
  device : δ
  waiting : Multiset Request
  pending : Multiset Request
  completed : List Request
  dropped : Multiset Request

namespace Flow
variable {δ : Type}

/-- A step of the device or of one request. -/
inductive Step (dram : IDRAM δ) (refreshes : RamulatorAddrVec → Prop) : Flow δ → Flow δ → Prop
  | tick {d W P C D} : Step dram refreshes ⟨d, W, P, C, D⟩ ⟨dram.tick d, W, P, C, D⟩
  | refresh {d W P C D} {v : RamulatorAddrVec} (hv : refreshes v) :
      Step dram refreshes ⟨d, W, P, C, D⟩ ⟨d, .refresh v ::ₘ W, P, C, D⟩
  | prepare {d W P C D} {r : Request} (hcmd : InService.preq dram d r ≠ r.finalCommand) :
      Step dram refreshes ⟨d, r ::ₘ W, P, C, D⟩
        ⟨dram.issueCommand d (InService.preq dram d r) r.addrVec,
          r.count (InService.preq dram d r) ::ₘ W, P, C, D⟩
  | read {d W P C D} {r : Request} {clk : ℤ} (hreads : r.typeId.reads = true) :
      Step dram refreshes ⟨d, r ::ₘ W, P, C, D⟩
        ⟨dram.issueCommand d r.finalCommand r.addrVec, W,
          (r.count r.finalCommand).departAt clk ::ₘ P, C, D⟩
  | write {d W P C D} {r : Request} {clk : ℤ}
      (hwrites : r.typeId.writes = true ∧ r.callback = true) :
      Step dram refreshes ⟨d, r ::ₘ W, P, C, D⟩
        ⟨dram.issueCommand d r.finalCommand r.addrVec, W, P,
          C ++ [(r.count r.finalCommand).departAt clk], D⟩
  | drop {d W P C D} {r : Request} (hreads : r.typeId.reads = false)
      (hwrites : ¬(r.typeId.writes = true ∧ r.callback = true)) :
      Step dram refreshes ⟨d, r ::ₘ W, P, C, D⟩
        ⟨dram.issueCommand d r.finalCommand r.addrVec, W, P, C, r.count r.finalCommand ::ₘ D⟩
  | callback {d W P C D} {r : Request} (hcall : r.callback = true) :
      Step dram refreshes ⟨d, W, r ::ₘ P, C, D⟩ ⟨d, W, P, C ++ [r], D⟩
  | leave {d W P C D} {r : Request} (hcall : r.callback = false) :
      Step dram refreshes ⟨d, W, r ::ₘ P, C, D⟩ ⟨d, W, P, C, r ::ₘ D⟩

/-- Steps that only call requests back or drop them at the end. -/
abbrev Steps (dram : IDRAM δ) (refreshes : RamulatorAddrVec → Prop) : Flow δ → Flow δ → Prop :=
  ReflTransGen (Step dram refreshes)

variable {dram : IDRAM δ} {refreshes : RamulatorAddrVec → Prop}

/-! ### Ticks are steps of the flow -/

variable (dram) in
theorem steps_refresh {vs : List RamulatorAddrVec} (hvs : ∀ v ∈ vs, refreshes v) (d : δ)
    (W P : Multiset Request) (C : List Request) (D : Multiset Request) :
    Steps dram refreshes ⟨d, W, P, C, D⟩
      ⟨d, W + (vs.map Request.refresh : List Request), P, C, D⟩ := by
  induction vs generalizing W with
  | nil =>
    rw [List.map_nil, Multiset.coe_nil, add_zero]
  | cons v vs ih =>
    obtain ⟨hv, hvs⟩ := List.forall_mem_cons.mp hvs
    have hrest := ih hvs (.refresh v ::ₘ W)
    rw [List.map_cons, ← Multiset.cons_coe, Multiset.add_cons, ← Multiset.cons_add]
    exact .head (.refresh hv) hrest

variable (dram refreshes) in
theorem steps_departure {clk : ℤ} {P P' served : List Request}
    (h : InService.Departure clk P P' served) (d : δ) (W Q : Multiset Request) (C : List Request)
    (D : Multiset Request) :
    ∃ D', Steps dram refreshes ⟨d, W, P + Q, C, D⟩ ⟨d, W, P' + Q, C ++ served, D'⟩ := by
  cases h with
  | none hlate => exact ⟨D, by rw [List.append_nil]⟩
  | @front P r hdue =>
    rw [← Multiset.cons_coe, Multiset.cons_add]
    cases hcall : r.callback with
    | true => exact ⟨D, .single (.callback hcall)⟩
    | false =>
      refine ⟨r ::ₘ D, ?_⟩
      rw [if_neg (by simp), List.append_nil]
      exact .single (.leave hcall)

variable (refreshes) in
theorem steps_command {clk : ℤ} {x y : InService δ} {written : List Request}
    (h : InService.Command dram clk x y written) (W P : Multiset Request) (C : List Request)
    (D : Multiset Request) :
    ∃ D', Steps dram refreshes ⟨x.device, x.waiting + W, x.pending + P, C, D⟩
      ⟨y.device, y.waiting + W, y.pending + P, C ++ written, D'⟩ := by
  cases h with
  | none => exact ⟨D, by rw [List.append_nil]⟩
  | prepare hready hcmd =>
    refine ⟨D, ?_⟩
    rw [Multiset.cons_add, Multiset.cons_add, List.append_nil]
    exact .single (.prepare hcmd)
  | read hready hcmd hreads =>
    refine ⟨D, ?_⟩
    rw [Multiset.cons_add, List.append_nil, ← Multiset.coe_add, Multiset.coe_singleton,
      add_right_comm, Multiset.add_comm _ {_}, Multiset.singleton_add]
    exact .single (.read hreads)
  | write hready hcmd hwrites =>
    refine ⟨D, ?_⟩
    rw [Multiset.cons_add]
    exact .single (.write hwrites)
  | @drop d V Q r hready hcmd hreads hwrites =>
    refine ⟨r.count r.finalCommand ::ₘ D, ?_⟩
    rw [Multiset.cons_add, List.append_nil]
    exact .single (.drop hreads hwrites)

theorem steps_channel {refresh : ℤ → List RamulatorAddrVec} {d d' : δ} {x x' : Channel}
    {callbacks : List Request} (h : Channel.Tick dram refresh d x d' x' callbacks)
    (hrefresh : ∀ clk, ∀ v ∈ refresh clk, refreshes v) (W P : Multiset Request) (C : List Request)
    (D : Multiset Request) :
    ∃ D', Steps dram refreshes ⟨d, x.waiting + W, x.pending + P, C, D⟩
      ⟨d', x'.waiting + W, x'.pending + P, C ++ callbacks, D'⟩ := by
  cases h with
  | @mk Q y served written hdeparture hcommand =>
    obtain ⟨D₁, hserve⟩ := steps_departure dram refreshes hdeparture d
      (x.waiting + W) P C D
    have hsend := steps_refresh dram (hrefresh (x.clk + 1)) d (x.waiting + W) (Q + P)
      (C ++ served) D₁
    obtain ⟨D₂, hcmd⟩ := steps_command refreshes hcommand W P (C ++ served) D₁
    rw [add_right_comm] at hsend
    refine ⟨D₂, ?_⟩
    rw [← List.append_assoc]
    exact (hserve.trans hsend).trans hcmd

end Flow

namespace PIMDRAMSystem
variable {δ : Type} {dram : IDRAM δ} {refresh : ℕ → ℤ → List RamulatorAddrVec}

def waiting (cs : List PIMDRAMController) : Multiset Request :=
  (cs.map PIMDRAMController.waiting).sum

def pending (cs : List PIMDRAMController) : Multiset Request :=
  (cs.map fun c => (c.pending.map Request.idle : Multiset Request)).sum

/-- The flow of a memory system, after what has left it. -/
def flow (s : PIMDRAMSystem δ) (completed : List Request) (dropped : Multiset Request) : Flow δ :=
  ⟨s.dram, waiting s.controllers, pending s.controllers, completed, dropped⟩

/-- The address vectors that are ever refreshed. -/
def Refreshes (refresh : ℕ → ℤ → List RamulatorAddrVec) (v : RamulatorAddrVec) : Prop :=
  ∃ channel clk, v ∈ refresh channel clk

theorem tickAll_steps {d d' : δ} {cs cs' : List PIMDRAMController} {callbacks : List Request}
    (h : tickAll dram refresh d cs = (d', cs', callbacks)) (W P : Multiset Request)
    (C : List Request) (D : Multiset Request) :
    ∃ D', Flow.Steps dram (Refreshes refresh) ⟨d, waiting cs + W, pending cs + P, C, D⟩
      ⟨d', waiting cs' + W, pending cs' + P, C ++ callbacks.map Request.idle, D'⟩ := by
  induction cs generalizing d cs' callbacks W P C D with
  | nil =>
    obtain ⟨rfl, rfl, rfl⟩ := h
    exact ⟨D, by rw [List.map_nil, List.append_nil]⟩
  | cons c cs ih =>
    obtain ⟨d₁, c₁, callbacks₁, cs₂, callbacks₂, hc, hcs, rfl, rfl⟩ := tickAll_cons h
    obtain ⟨-, htick⟩ := PIMDRAMController.tick_refines hc
    have hrefresh : ∀ clk, ∀ v ∈ refresh c.channelId clk, Refreshes refresh v :=
      fun clk v hv => ⟨c.channelId, clk, hv⟩
    obtain ⟨D₁, hone⟩ :=
      Flow.steps_channel htick hrefresh (waiting cs + W) (pending cs + P) C D
    obtain ⟨D₂, hrest⟩ := ih hcs (c₁.waiting + W) (c₁.view.pending + P)
      (C ++ callbacks₁.map Request.idle) D₁
    refine ⟨D₂, ?_⟩
    rw [add_left_comm (waiting cs), add_left_comm (pending cs), add_left_comm (waiting cs₂),
      add_left_comm (pending cs₂), List.append_assoc, ← List.map_append] at hrest
    have hboth := hone.trans hrest
    simpa only [waiting, pending, PIMDRAMController.view, List.map_cons, List.sum_cons, add_assoc]
      using hboth

/-- A tick of the memory system is a run of the flow. -/
theorem tick_steps {s s' : PIMDRAMSystem δ} {callbacks : List Request}
    (h : s.tick dram refresh = (s', callbacks)) (C : List Request) (D : Multiset Request) :
    ∃ D', Flow.Steps dram (Refreshes refresh) (s.flow C D)
      (s'.flow (C ++ callbacks.map Request.idle) D') := by
  obtain ⟨d, cs, hall, rfl⟩ := tick_cases h
  obtain ⟨D', hsteps⟩ := tickAll_steps hall 0 0 C D
  simp only [add_zero] at hsteps
  exact ⟨D', .head .tick hsteps⟩

end PIMDRAMSystem
end LlmSystem
