import LlmSystem.Dram.Flow
import LlmSystem.Lib.Residues
import Mathlib.Data.Multiset.Bind

/-!
No request is lost, and none is answered twice: over any run of a memory system, what was sent is
what waits and what was called back.
-/
namespace LlmSystem

open Relation Runs

namespace Request

/-- A request with a callback, without what controllers change. -/
def charge (req : Request) :
    Multiset (ℤ × RamulatorAddrVec × RequestType × Option PIMCommand × Bool) :=
  if req.callback then {req.fixed} else 0

@[simp] theorem charge_count (cmd : HBM3Command) (req : Request) :
    (req.count cmd).charge = req.charge := by
  simp [charge]

@[simp] theorem charge_departAt (clk : ℤ) (req : Request) :
    (req.departAt clk).charge = req.charge := rfl

@[simp] theorem charge_arriveAt (clk : ℤ) (req : Request) :
    (req.arriveAt clk).charge = req.charge := rfl

@[simp] theorem charge_idle (req : Request) : req.idle.charge = req.charge := rfl

@[simp] theorem charge_refresh (v : RamulatorAddrVec) : (refresh v).charge = 0 := rfl

theorem charge_eq_zero {req : Request} (h : req.callback = false) : req.charge = 0 := by
  simp [charge, h]

/-- A request with a callback is one that a frontend can send. -/
def Answerable (req : Request) : Prop :=
  req.callback = true → req.typeId.reads = true ∨ req.typeId.writes = true

end Request

def charged (rs : Multiset Request) :
    Multiset (ℤ × RamulatorAddrVec × RequestType × Option PIMCommand × Bool) :=
  rs.bind Request.charge

@[simp] theorem charged_zero : charged 0 = 0 := rfl

@[simp] theorem charged_add (rs rs' : Multiset Request) :
    charged (rs + rs') = charged rs + charged rs' := Multiset.add_bind ..

@[simp] theorem charged_cons (r : Request) (rs : Multiset Request) :
    charged (r ::ₘ rs) = r.charge + charged rs := Multiset.cons_bind ..

@[simp] theorem charged_singleton (r : Request) : charged {r} = r.charge :=
  Multiset.singleton_bind ..

theorem charged_eq_zero {rs : Multiset Request} (h : ∀ r ∈ rs, r.callback = false) :
    charged rs = 0 := by
  unfold charged
  rw [Multiset.bind_congr fun r hr => Request.charge_eq_zero (h r hr), Multiset.bind_zero]

theorem charged_idle (rs : List Request) :
    charged (rs.map Request.idle : List Request) = charged rs := by
  unfold charged
  rw [← Multiset.map_coe, Multiset.bind_map]
  rfl

theorem charged_coe (rs : List Request) :
    charged rs = ((rs.filter fun r => r.callback).map Request.fixed : List _) := by
  induction rs with
  | nil => rfl
  | cons r rs ih =>
    rw [← Multiset.cons_coe, charged_cons, ih]
    cases hcall : r.callback with
    | true =>
      rw [List.filter_cons_of_pos (by simpa using hcall)]
      simp [Request.charge, hcall]
    | false =>
      rw [List.filter_cons_of_neg (by simp [hcall])]
      simp [Request.charge, hcall]

namespace Flow
variable {δ : Type} {dram : IDRAM δ} {refreshes : RamulatorAddrVec → Prop}

def all (x : Flow δ) : Multiset Request := x.waiting + x.pending + x.completed + x.dropped

/-- Only requests that nobody waits for are dropped. -/
structure Sound (x : Flow δ) : Prop where
  waiting : ∀ r ∈ x.waiting, r.Answerable
  completed : ∀ r ∈ x.completed, r.callback = true
  dropped : ∀ r ∈ x.dropped, r.callback = false

theorem Step.sound {x y : Flow δ} (h : Step dram refreshes x y) (hx : x.Sound) : y.Sound := by
  obtain ⟨hwait, hcomp, hdrop⟩ := hx
  cases h with
  | tick => exact ⟨hwait, hcomp, hdrop⟩
  | refresh hv =>
    refine ⟨Multiset.forall_mem_cons.mpr ⟨?_, hwait⟩, hcomp, hdrop⟩
    intro hcall
    cases hcall
  | prepare hcmd =>
    obtain ⟨hr, hwait⟩ := Multiset.forall_mem_cons.mp hwait
    refine ⟨Multiset.forall_mem_cons.mpr ⟨?_, hwait⟩, hcomp, hdrop⟩
    simpa [Request.Answerable] using hr
  | read hreads => exact ⟨(Multiset.forall_mem_cons.mp hwait).2, hcomp, hdrop⟩
  | @write d W P C D r clk hwrites =>
    exact ⟨(Multiset.forall_mem_cons.mp hwait).2,
      by simpa [or_imp, forall_and] using ⟨hcomp, hwrites.2⟩, hdrop⟩
  | @drop d W P C D r hreads hwrites =>
    obtain ⟨hr, hwait⟩ := Multiset.forall_mem_cons.mp hwait
    refine ⟨hwait, hcomp, Multiset.forall_mem_cons.mpr ⟨?_, hdrop⟩⟩
    rw [Request.count_callback]
    by_contra hcall
    rw [Bool.not_eq_false] at hcall
    rcases hr hcall with h | h
    · simp [h] at hreads
    · exact hwrites ⟨h, hcall⟩
  | callback hcall =>
    exact ⟨hwait, by simpa [or_imp, forall_and] using ⟨hcomp, hcall⟩, hdrop⟩
  | leave hcall => exact ⟨hwait, hcomp, Multiset.forall_mem_cons.mpr ⟨hcall, hdrop⟩⟩

theorem Step.charged {x y : Flow δ} (h : Step dram refreshes x y) :
    charged y.all = charged x.all := by
  cases h <;>
    simp only [all, charged_cons, charged_add, ← Multiset.coe_add, Multiset.coe_singleton,
      charged_singleton, Request.charge_count, Request.charge_departAt, Request.charge_refresh,
      zero_add] <;>
    abel

theorem Steps.sound {x y : Flow δ} (h : Steps dram refreshes x y) (hx : x.Sound) : y.Sound := by
  induction h with
  | refl => exact hx
  | tail _ hstep ih => exact hstep.sound ih

theorem Steps.charged {x y : Flow δ} (h : Steps dram refreshes x y) :
    charged y.all = charged x.all := by
  induction h with
  | refl => rfl
  | tail _ hstep ih => exact hstep.charged.trans ih

end Flow

namespace PIMDRAMSystem
variable {δ : Type} {dram : IDRAM δ} {refresh : ℕ → ℤ → List RamulatorAddrVec}

/-- The requests in all channels. -/
def inFlight (s : PIMDRAMSystem δ) : Multiset Request :=
  waiting s.controllers + pending s.controllers

theorem send_cases {s s' : PIMDRAMSystem δ} {req : Request} (h : s.send req = .ok s') :
    0 ≤ req.addrVec.channel ∧ ∃ c c', s.controllers[req.addrVec.channel.toNat]? = some c ∧
      c.send req = .ok c' ∧
        s' = { s with controllers := s.controllers.set req.addrVec.channel.toNat c' } := by
  unfold send at h
  dsimp only at h
  split at h
  · cases h
  · rename_i c hc
    obtain ⟨c', hsend, h⟩ := bind_eq_ok h
    split_ifs at hc with hpos
    exact ⟨hpos, c, c', hc, hsend, (Except.ok.inj h).symm⟩

/-- A request that is sent is in flight; it waits, or a waiting write has answered it. -/
theorem send_flow {s s' : PIMDRAMSystem δ} {req : Request} (h : s.send req = .ok s') :
    s'.dram = s.dram ∧ (req.typeId.reads = true ∨ req.typeId.writes = true) ∧
      ∃ clk, waiting s'.controllers = waiting s.controllers + {(req.arriveAt clk).idle} ∧
          pending s'.controllers = pending s.controllers ∨
        (req.typeId = .read ∧ ∃ c ∈ s.controllers, (c.buffer .write).buffer ≠ []) ∧
          waiting s'.controllers = waiting s.controllers ∧
          pending s'.controllers = pending s.controllers + {(req.departAt clk).idle} := by
  obtain ⟨-, c, c', hc, hsend, rfl⟩ := send_cases h
  obtain ⟨-, -, htype, hsent⟩ := PIMDRAMController.send_spec hsend
  refine ⟨rfl, htype, ?_⟩
  rcases hsent with ⟨hwait, hpend⟩ | ⟨hread, hwrites, hwait, hpend⟩
  · refine ⟨c.clk, .inl ⟨?_, ?_⟩⟩
    · exact Residues.sum_map_set _ hc (by rw [hwait, ← Multiset.singleton_add, add_comm])
    · refine (Residues.sum_map_set _ hc (x := 0) ?_).trans (add_zero _)
      rw [hpend, add_zero]
  · refine ⟨c.clk + 1, .inr ⟨⟨hread, c, List.mem_of_getElem? hc, hwrites⟩, ?_, ?_⟩⟩
    · refine (Residues.sum_map_set _ hc (x := 0) ?_).trans (add_zero _)
      rw [hwait, add_zero]
    · refine Residues.sum_map_set _ hc ?_
      rw [hpend, List.map_append, ← Multiset.coe_add]
      rfl

theorem finished_empty {s : PIMDRAMSystem δ} (h : s.isFinished = true) :
    waiting s.controllers = 0 ∧ pending s.controllers = 0 := by
  have hc : ∀ c ∈ s.controllers, c.waiting = 0 ∧ c.pending = [] := by
    intro c hc
    have hfin := List.all_eq_true.mp h c hc
    simp only [PIMDRAMController.isFinished, ReqBuffer.empty, Bool.and_eq_true,
      List.isEmpty_iff] at hfin
    simp [PIMDRAMController.waiting, ReqBuffer.bag, hfin]
  constructor
  · refine List.sum_eq_zero fun m hm => ?_
    obtain ⟨c, hmem, rfl⟩ := List.mem_map.mp hm
    exact (hc c hmem).1
  · refine List.sum_eq_zero fun m hm => ?_
    obtain ⟨c, hmem, rfl⟩ := List.mem_map.mp hm
    simp [(hc c hmem).2]

/-- What a frontend can do: send a request, or let a cycle pass. -/
inductive Op
  | send (req : Request)
  | tick

/-- A memory system with what was sent to it and what it called back, in order. -/
structure History (δ : Type) where
  system : PIMDRAMSystem δ
  sent : List Request := []
  completed : List Request := []

namespace History

def step (dram : IDRAM δ) (refresh : ℕ → ℤ → List RamulatorAddrVec) (h : History δ) :
    Op → Except String (History δ)
  | .send req => do
    let system ← h.system.send req
    .ok { h with system, sent := h.sent ++ [req] }
  | .tick =>
    let (system, callbacks) := h.system.tick dram refresh
    .ok { h with system, completed := h.completed ++ callbacks }

def Step (dram : IDRAM δ) (refresh : ℕ → ℤ → List RamulatorAddrVec) (h : History δ) (op : Op)
    (h' : History δ) : Prop :=
  h.step dram refresh op = .ok h'

/-- What holds over every run. -/
structure Conserved (h : History δ) : Prop where
  balance : charged h.sent = charged h.system.inFlight + charged h.completed
  answerable : ∀ r ∈ waiting h.system.controllers, r.Answerable
  completed : ∀ r ∈ h.completed, r.callback = true

theorem Conserved.step {h h' : History δ} {op : Op} (hh : h.Conserved)
    (hstep : Step dram refresh h op h') : h'.Conserved := by
  obtain ⟨hbalance, hanswer, hcomp⟩ := hh
  cases op with
  | send req =>
    obtain ⟨s, hsend, hok⟩ := bind_eq_ok hstep
    obtain rfl := Except.ok.inj hok
    obtain ⟨-, htype, clk, hsent⟩ := send_flow hsend
    have hsum : charged s.inFlight = charged h.system.inFlight + req.charge := by
      rcases hsent with ⟨hwait, hpend⟩ | ⟨-, hwait, hpend⟩
      · rw [inFlight, inFlight, hwait, hpend, add_right_comm]
        simp
      · rw [inFlight, inFlight, hwait, hpend, ← add_assoc]
        simp
    refine ⟨?_, ?_, hcomp⟩
    · dsimp only
      rw [hsum, add_right_comm, ← hbalance, ← Multiset.coe_add]
      simp
    · dsimp only
      rcases hsent with ⟨hwait, -⟩ | ⟨-, hwait, -⟩
      · rw [hwait]
        intro r hr
        rcases Multiset.mem_add.mp hr with hr | hr
        · exact hanswer r hr
        · rw [Multiset.mem_singleton.mp hr]
          exact fun _ => htype
      · rwa [hwait]
  | tick =>
    rcases htick : h.system.tick dram refresh with ⟨s, callbacks⟩
    obtain rfl : { h with system := s, completed := h.completed ++ callbacks } = h' := by
      simpa [Step, History.step, htick] using hstep
    obtain ⟨D, hsteps⟩ := tick_steps htick (h.completed.map Request.idle) 0
    have hstart : (h.system.flow (h.completed.map Request.idle) 0).Sound :=
      ⟨hanswer, by simpa [flow] using hcomp, by simp [flow]⟩
    obtain ⟨hanswer', hcomp', hdrop'⟩ := hsteps.sound hstart
    have hbags := hsteps.charged
    have hdrop : charged D = 0 := charged_eq_zero hdrop'
    simp only [Flow.all, flow, charged_add, hdrop, ← List.map_append, charged_idle,
      add_zero] at hbags
    refine ⟨?_, hanswer', by simpa [flow, or_imp, forall_and] using hcomp'⟩
    rw [hbalance, inFlight, inFlight, charged_add, charged_add]
    exact hbags.symm

theorem Conserved.start {s : PIMDRAMSystem δ} (hs : s.isFinished = true) :
    Conserved ({ system := s } : History δ) := by
  obtain ⟨hwait, hpend⟩ := finished_empty hs
  exact ⟨by simp [inFlight, hwait, hpend], by simp [hwait], by simp⟩

theorem Conserved.run {h h' : History δ} {ops : List Op} (hh : h.Conserved)
    (hrun : Run (Step dram refresh) h ops h') : h'.Conserved :=
  hrun.invariant (fun _ _ _ hh hstep => Conserved.step hh hstep) hh

/-- Nothing is in flight once the memory system is finished. -/
theorem Conserved.finished {h : History δ} (hh : h.Conserved) (hfin : h.system.isFinished = true) :
    (h.completed.map Request.fixed).Perm
      ((h.sent.filter fun r => r.callback).map Request.fixed) := by
  obtain ⟨hbalance, -, hcomp⟩ := hh
  obtain ⟨hwait, hpend⟩ := finished_empty hfin
  have hall : h.completed.filter (fun r => r.callback) = h.completed :=
    List.filter_eq_self.mpr hcomp
  rw [inFlight, hwait, hpend, charged_coe, charged_coe, hall, add_zero, charged_zero,
    zero_add] at hbalance
  exact (Multiset.coe_eq_coe.mp hbalance).symm

/-- Over every run of sends and cycles, from a memory system with empty buffers: the requests with
a callback that were sent are those in flight and those called back, and once the memory system
is finished each of them was called back exactly once. -/
theorem requests_conserved {s : PIMDRAMSystem δ} (hs : s.isFinished = true) {ops : List Op}
    {h : History δ} (hrun : Run (Step dram refresh) { system := s } ops h) :
    charged h.sent = charged h.system.inFlight + charged h.completed ∧
      (h.system.isFinished = true →
        (h.completed.map Request.fixed).Perm
          ((h.sent.filter fun r => r.callback).map Request.fixed)) := by
  have hend := (Conserved.start hs).run hrun
  exact ⟨hend.balance, hend.finished⟩

/-- Two reads of different rows of a bank. -/
theorem two_rows_conserved : ∃ h : History OpenRows,
    h.system.isFinished = true ∧ h.completed.length = 2 ∧ (h.completed.map Request.fixed).Perm
      ((h.sent.filter fun r => r.callback).map Request.fixed) := by
  have hrun : ((([1, 2].map fun row =>
      Op.send (PIMController.request ⟨.kRead, .kDRAM, ⟨0, 0, 0, 0, 0, row, 0⟩, .kRead⟩)) ++
      List.replicate 12 Op.tick).foldlM (History.step (OpenRows.idram 1 2) fun _ _ => [])
        { system := create 1 {} }).toOption.any
      (fun h => h.system.isFinished && h.completed.length == 2) = true := by decide +kernel
  obtain ⟨h, hok, hp⟩ := exists_ok_of_any hrun
  simp only [Bool.and_eq_true, beq_iff_eq] at hp
  exact ⟨h, hp.1, hp.2, (requests_conserved (by decide) (Run.of_foldlM hok)).2 hp.1⟩

end History
end PIMDRAMSystem
end LlmSystem
