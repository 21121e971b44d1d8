import LlmSystem.Dram.PIMDRAMController
import Mathlib.Data.Multiset.AddSub

/-!
A channel as a bag of waiting requests and a queue of requests that wait for their data, and the
controller as an implementation of it.
-/
namespace LlmSystem

/-- The requests of a channel, and the device their commands go to. -/
structure InService (δ : Type) where
  device : δ
  waiting : Multiset Request
  pending : List Request

namespace InService
variable {δ : Type}

def preq (dram : IDRAM δ) (d : δ) (req : Request) : HBM3Command :=
  dram.getPreqCommand d req.finalCommand req.addrVec

/-- A command for one waiting request: the request goes on waiting after any command but its
final one, which the device was ready for as well. The last list are the callbacks. -/
inductive Command (dram : IDRAM δ) (clk : ℤ) :
    InService δ → InService δ → List Request → Prop
  | none (x : InService δ) : Command dram clk x x []
  | prepare {d : δ} {W : Multiset Request} {P : List Request} {r : Request}
      (hready : dram.checkReady d (preq dram d r) r.addrVec = true)
      (hcmd : preq dram d r ≠ r.finalCommand) :
      Command dram clk ⟨d, r ::ₘ W, P⟩
        ⟨dram.issueCommand d (preq dram d r) r.addrVec, r.count (preq dram d r) ::ₘ W, P⟩ []
  | read {d : δ} {W : Multiset Request} {P : List Request} {r : Request}
      (hready : dram.checkReady d r.finalCommand r.addrVec = true)
      (hcmd : preq dram d r = r.finalCommand) (hreads : r.typeId.reads = true) :
      Command dram clk ⟨d, r ::ₘ W, P⟩
        ⟨dram.issueCommand d r.finalCommand r.addrVec, W,
          P ++ [(r.count r.finalCommand).departAt (clk + dram.readLatency)]⟩ []
  | write {d : δ} {W : Multiset Request} {P : List Request} {r : Request}
      (hready : dram.checkReady d r.finalCommand r.addrVec = true)
      (hcmd : preq dram d r = r.finalCommand)
      (hwrites : r.typeId.writes = true ∧ r.callback = true) :
      Command dram clk ⟨d, r ::ₘ W, P⟩
        ⟨dram.issueCommand d r.finalCommand r.addrVec, W, P⟩
        [(r.count r.finalCommand).departAt clk]
  | drop {d : δ} {W : Multiset Request} {P : List Request} {r : Request}
      (hready : dram.checkReady d r.finalCommand r.addrVec = true)
      (hcmd : preq dram d r = r.finalCommand) (hreads : r.typeId.reads = false)
      (hwrites : ¬(r.typeId.writes = true ∧ r.callback = true)) :
      Command dram clk ⟨d, r ::ₘ W, P⟩
        ⟨dram.issueCommand d r.finalCommand r.addrVec, W, P⟩ []

/-- The front of the queue leaves once its data is there. -/
inductive Departure (clk : ℤ) : List Request → List Request → List Request → Prop
  | none {P : List Request} (hlate : ∀ r ∈ P.head?, clk < r.depart) : Departure clk P P []
  | front {P : List Request} {r : Request} (hdue : r.depart ≤ clk) :
      Departure clk (r :: P) P (if r.callback then [r] else [])

end InService

/-- A refresh as the refresh manager sends it. -/
def Request.refresh (addrVec : RamulatorAddrVec) : Request := { addrVec, typeId := .allBankRefresh }

/-- A channel between two ticks. -/
structure Channel where
  clk : ℤ
  waiting : Multiset Request
  pending : List Request

/-- A tick of a channel: one departure at most, the refreshes that are due, and one command at
most. -/
inductive Channel.Tick {δ : Type} (dram : IDRAM δ) (refreshes : ℤ → List RamulatorAddrVec) :
    δ → Channel → δ → Channel → List Request → Prop
  | mk {d : δ} {x : Channel} {P : List Request} {y : InService δ} {served written : List Request}
      (hdeparture : InService.Departure (x.clk + 1) x.pending P served)
      (hcommand : InService.Command dram (x.clk + 1)
        ⟨d, x.waiting + ↑((refreshes (x.clk + 1)).map Request.refresh), P⟩ y written) :
      Tick dram refreshes d x y.device ⟨x.clk + 1, y.waiting, y.pending⟩ (served ++ written)

namespace ReqBuffer

/-- The requests of a buffer, whatever they were last looked at for. -/
def bag (b : ReqBuffer) : Multiset Request := ↑(b.buffer.map Request.idle)

theorem bag_enqueue (b : ReqBuffer) (req : Request) : (b.enqueue req).bag = req.idle ::ₘ b.bag := by
  unfold bag enqueue
  rw [List.map_append, ← Multiset.coe_add, add_comm]
  rfl

theorem bag_remove {b : ReqBuffer} {i : ℕ} {req : Request} (h : b.buffer[i]? = some req) :
    b.bag = req.idle ::ₘ (b.remove i).bag := by
  obtain ⟨hi, rfl⟩ := List.getElem?_eq_some_iff.mp h
  have hperm : b.buffer.Perm (b.buffer[i] :: b.buffer.eraseIdx i) :=
    (List.getElem_cons_eraseIdx_perm hi).symm
  exact Multiset.coe_eq_coe.mpr (hperm.map _)

theorem bag_set {b : ReqBuffer} {i : ℕ} {req : Request} (h : b.buffer[i]? = some req)
    (req' : Request) : (b.set i req').bag = req'.idle ::ₘ (b.remove i).bag := by
  obtain ⟨hi, -⟩ := List.getElem?_eq_some_iff.mp h
  have hperm : (b.buffer.set i req').Perm (req' :: b.buffer.eraseIdx i) :=
    List.set_perm_cons_eraseIdx hi req'
  exact Multiset.coe_eq_coe.mpr (hperm.map _)

theorem modifyWindow_window (b : ReqBuffer) (f : Request → Request) :
    (b.modifyWindow f).buffer.take b.maxSize = b.window.map f := by
  unfold modifyWindow window
  rcases le_total b.maxSize b.buffer.length with h | h
  · simp [h]
  · simp [List.drop_eq_nil_of_le h]

theorem modifyWindow_idle (b : ReqBuffer) {f : Request → Request} (hf : ∀ r, (f r).idle = r.idle) :
    (b.modifyWindow f).buffer.map Request.idle = b.buffer.map Request.idle := by
  have hmap : (b.window.map f).map Request.idle = b.window.map Request.idle := by
    rw [List.map_map]
    exact List.map_congr_left fun r _ => hf r
  unfold modifyWindow
  rw [List.map_append, hmap, ← List.map_append, window, List.take_append_drop]

end ReqBuffer

namespace PIMDRAMController

def waiting (c : PIMDRAMController) : Multiset Request :=
  (c.buffer .active).bag + (c.buffer .pim).bag + (c.buffer .priority).bag +
    (c.buffer .write).bag + (c.buffer .read).bag

/-- The channel a controller implements. -/
def view (c : PIMDRAMController) : Channel := ⟨c.clk, c.waiting, c.pending.map Request.idle⟩

theorem waiting_setBuffer (c : PIMDRAMController) (name : BufferName) (b : ReqBuffer) :
    (c.setBuffer name b).waiting + (c.buffer name).bag = c.waiting + b.bag := by
  unfold waiting setBuffer
  cases name <;> simp <;> abel

/-- What a controller is created with. -/
structure Kept (c c' : PIMDRAMController) : Prop where
  channelId : c'.channelId = c.channelId
  maxSize : ∀ name, (c'.buffer name).maxSize = (c.buffer name).maxSize
  wrLowWatermark : c'.wrLowWatermark = c.wrLowWatermark
  wrHighWatermark : c'.wrHighWatermark = c.wrHighWatermark

namespace Kept

theorem refl (c : PIMDRAMController) : Kept c c := ⟨rfl, fun _ => rfl, rfl, rfl⟩

theorem trans {c c' c'' : PIMDRAMController} (h : Kept c c') (h' : Kept c' c'') : Kept c c'' where
  channelId := h'.channelId.trans h.channelId
  maxSize name := (h'.maxSize name).trans (h.maxSize name)
  wrLowWatermark := h'.wrLowWatermark.trans h.wrLowWatermark
  wrHighWatermark := h'.wrHighWatermark.trans h.wrHighWatermark

theorem setBuffer {c : PIMDRAMController} {name : BufferName} {b : ReqBuffer}
    (h : b.maxSize = (c.buffer name).maxSize) : Kept c (c.setBuffer name b) where
  channelId := rfl
  maxSize other := by
    by_cases hother : other = name
    · subst hother
      simpa [PIMDRAMController.setBuffer] using h
    · simp [PIMDRAMController.setBuffer, hother]
  wrLowWatermark := rfl
  wrHighWatermark := rfl

end Kept

/-- Looking for a request changes stored commands and the mode only. -/
structure Looked (c c' : PIMDRAMController) : Prop extends Kept c c' where
  clk : c'.clk = c.clk
  pending : c'.pending = c.pending
  idle : ∀ name, (c'.buffer name).buffer.map Request.idle = (c.buffer name).buffer.map Request.idle

namespace Looked

theorem refl (c : PIMDRAMController) : Looked c c := ⟨.refl c, rfl, rfl, fun _ => rfl⟩

theorem trans {c c' c'' : PIMDRAMController} (h : Looked c c') (h' : Looked c' c'') :
    Looked c c'' where
  toKept := h.toKept.trans h'.toKept
  clk := h'.clk.trans h.clk
  pending := h'.pending.trans h.pending
  idle name := (h'.idle name).trans (h.idle name)

theorem waiting {c c' : PIMDRAMController} (h : Looked c c') : c'.waiting = c.waiting := by
  unfold PIMDRAMController.waiting ReqBuffer.bag
  simp only [h.idle]

theorem setBuffer {c : PIMDRAMController} {name : BufferName} {b : ReqBuffer}
    (hidle : b.buffer.map Request.idle = (c.buffer name).buffer.map Request.idle)
    (hsize : b.maxSize = (c.buffer name).maxSize) : Looked c (c.setBuffer name b) where
  toKept := .setBuffer hsize
  clk := rfl
  pending := rfl
  idle other := by
    by_cases h : other = name
    · subst h
      simpa [PIMDRAMController.setBuffer] using hidle
    · simp [PIMDRAMController.setBuffer, h]

theorem setWriteMode (c : PIMDRAMController) : Looked c c.setWriteMode := by
  unfold PIMDRAMController.setWriteMode
  dsimp only
  split_ifs <;> exact ⟨⟨rfl, fun _ => rfl, rfl, rfl⟩, rfl, rfl, fun _ => rfl⟩

end Looked

variable {δ : Type} {dram : IDRAM δ} {d : δ}

/-- An iterator points into its buffer, at a request with a command the device is ready for. -/
structure Found (dram : IDRAM δ) (d : δ) (c : PIMDRAMController) (it : Iterator) : Prop where
  position : (c.buffer it.1).buffer[it.2.1]? = some it.2.2
  command : it.2.2.command = some (InService.preq dram d it.2.2)
  ready : dram.checkReady d (InService.preq dram d it.2.2) it.2.2.addrVec = true

theorem ready_withPreq (r : Request) : PIMScheduler.ready dram d (PIMScheduler.withPreq dram d r)
    = dram.checkReady d (InService.preq dram d r) r.addrVec := rfl

theorem getBestRequest_looked (dram : IDRAM δ) (d : δ) (b : ReqBuffer) :
    (PIMScheduler.getBestRequest dram d b).1.buffer.map Request.idle = b.buffer.map Request.idle ∧
      (PIMScheduler.getBestRequest dram d b).1.maxSize = b.maxSize :=
  ⟨b.modifyWindow_idle fun _ => rfl, rfl⟩

/-- The best request of a buffer is one of its window, with the command that brings it forward. -/
theorem getBestRequest_found {b : ReqBuffer} {req : Request} {i : ℕ}
    (h : (PIMScheduler.getBestRequest dram d b).2 = some (req, i)) :
    (PIMScheduler.getBestRequest dram d b).1.buffer[i]? = some req ∧ i < b.maxSize ∧
      ∃ r ∈ b.window, req = PIMScheduler.withPreq dram d r := by
  have hpos := Scans.best_getElem h
  have hmem := Scans.best_mem h
  have hsize : (b.modifyWindow (PIMScheduler.withPreq dram d)).maxSize = b.maxSize := rfl
  rw [hsize] at hpos hmem
  obtain ⟨hi, hget⟩ := List.getElem?_eq_some_iff.mp hpos
  have hlt : i < b.maxSize := hi.trans_le (List.length_take_le _ _)
  rw [ReqBuffer.modifyWindow_window] at hmem
  obtain ⟨r, hr, rfl⟩ := List.mem_map.mp hmem
  refine ⟨?_, hlt, r, hr, rfl⟩
  rw [List.getElem?_take_of_lt hlt] at hpos
  exact hpos

theorem pick_spec {c c' : PIMDRAMController} {name : BufferName} {it : Option Iterator}
    (h : pick dram d c name = (c', it)) :
    Looked c c' ∧ ∀ i ∈ it, i.1 = name ∧ Found dram d c' i := by
  obtain ⟨hidle, hsize⟩ := getBestRequest_looked dram d (c.buffer name)
  have hlook : Looked c (c.setBuffer name (PIMScheduler.getBestRequest dram d (c.buffer name)).1) :=
    .setBuffer hidle hsize
  unfold pick at h
  dsimp only at h
  cases hbest : (PIMScheduler.getBestRequest dram d (c.buffer name)).2 with
  | none =>
    rw [hbest] at h
    obtain ⟨rfl, rfl⟩ := Prod.mk.inj h
    exact ⟨hlook, fun i hi => by cases hi⟩
  | some p =>
    obtain ⟨req, i⟩ := p
    obtain ⟨hpos, hlt, r, hr, rfl⟩ := getBestRequest_found hbest
    rw [hbest] at h
    obtain ⟨rfl, rfl⟩ := Prod.mk.inj h
    refine ⟨hlook, fun it hit => ?_⟩
    split_ifs at hit with hready
    · obtain rfl := Option.some.inj hit
      exact ⟨rfl, ⟨by simpa [setBuffer] using hpos, rfl, hready⟩⟩
    · cases hit

theorem pickRest_spec {c c' : PIMDRAMController} {it : Option Iterator}
    (h : pickRest dram d c = (c', it)) : Looked c c' ∧ ∀ i ∈ it, Found dram d c' i := by
  unfold pickRest at h
  split at h
  · rename_i req rest hpriority
    obtain ⟨rfl, rfl⟩ := Prod.mk.inj h
    refine ⟨.setBuffer (by rw [hpriority]; rfl) rfl, fun it hit => ?_⟩
    split_ifs at hit with hready
    · obtain rfl := Option.some.inj hit
      exact ⟨by simp [setBuffer], rfl, hready⟩
    · cases hit
  · obtain ⟨hlook, hfound⟩ := pick_spec h
    exact ⟨(Looked.setWriteMode c).trans hlook, fun i hi => (hfound i hi).2⟩

theorem findRequest_spec {c c' : PIMDRAMController} {it : Option Iterator}
    (h : findRequest dram d c = (c', it)) : Looked c c' ∧ ∀ i ∈ it, Found dram d c' i := by
  unfold findRequest at h
  split at h
  · rename_i c₁ i hactive
    obtain ⟨rfl, rfl⟩ := Prod.mk.inj h
    obtain ⟨hlook, hfound⟩ := pick_spec hactive
    exact ⟨hlook, fun i hi => (hfound i hi).2⟩
  · rename_i c₁ hactive
    have hlook₁ := (pick_spec hactive).1
    split at h
    · rename_i c₂ i hpim
      obtain ⟨rfl, rfl⟩ := Prod.mk.inj h
      obtain ⟨hlook, hfound⟩ := pick_spec hpim
      exact ⟨hlook₁.trans hlook, fun i hi => (hfound i hi).2⟩
    · rename_i c₂ hpim
      obtain ⟨hlook, hfound⟩ := pickRest_spec h
      exact ⟨(hlook₁.trans (pick_spec hpim).1).trans hlook, hfound⟩

theorem scheduleRequest_spec {c c' : PIMDRAMController} {it : Option Iterator}
    (h : scheduleRequest dram d c = (c', it)) :
    Looked c c' ∧ ∀ i ∈ it, Found dram d c' i ∧ c'.interrupts i.2.2 = false := by
  unfold scheduleRequest at h
  split at h
  · rename_i c₁ i hfind
    obtain ⟨rfl, rfl⟩ := Prod.mk.inj h
    obtain ⟨hlook, hfound⟩ := findRequest_spec hfind
    refine ⟨hlook, fun j hj => ?_⟩
    split_ifs at hj with hint
    · cases hj
    · obtain rfl := Option.some.inj hj
      exact ⟨hfound i rfl, by simpa using hint⟩
  · rename_i c₁ hfind
    obtain ⟨rfl, rfl⟩ := Prod.mk.inj h
    exact ⟨(findRequest_spec hfind).1, fun j hj => by cases hj⟩

/-! ### The controller implements the channel -/

/-- The requests and the device, as the channel has them. -/
def inService (d : δ) (c : PIMDRAMController) : InService δ :=
  ⟨d, c.waiting, c.pending.map Request.idle⟩

theorem waiting_remove {c : PIMDRAMController} {name : BufferName} {i : ℕ} {r : Request}
    (h : (c.buffer name).buffer[i]? = some r) :
    c.waiting = r.idle ::ₘ (c.setBuffer name ((c.buffer name).remove i)).waiting := by
  have hset := c.waiting_setBuffer name ((c.buffer name).remove i)
  rw [ReqBuffer.bag_remove h, Multiset.add_cons, ← Multiset.cons_add] at hset
  exact (add_right_cancel hset).symm

theorem waiting_set {c : PIMDRAMController} {name : BufferName} {i : ℕ} {r : Request}
    (h : (c.buffer name).buffer[i]? = some r) (r' : Request) :
    (c.setBuffer name ((c.buffer name).set i r')).waiting
      = r'.idle ::ₘ (c.setBuffer name ((c.buffer name).remove i)).waiting := by
  have hset := c.waiting_setBuffer name ((c.buffer name).set i r')
  rw [ReqBuffer.bag_set h, ReqBuffer.bag_remove h, waiting_remove h] at hset
  simp only [Multiset.add_cons, Multiset.cons_add] at hset
  rw [Multiset.cons_swap r'.idle, Multiset.cons_inj_right, ← Multiset.cons_add] at hset
  exact add_right_cancel hset

theorem waiting_enqueue (c : PIMDRAMController) (name : BufferName) (r : Request) :
    (c.setBuffer name ((c.buffer name).enqueue r)).waiting = r.idle ::ₘ c.waiting := by
  have hset := c.waiting_setBuffer name ((c.buffer name).enqueue r)
  rw [ReqBuffer.bag_enqueue, Multiset.add_cons, ← Multiset.cons_add] at hset
  exact add_right_cancel hset

/-- Moving a request to the active buffer keeps the bag. -/
theorem waiting_activate {c : PIMDRAMController} {name : BufferName} {i : ℕ} {r : Request}
    (h : (c.buffer name).buffer[i]? = some r) :
    let c' := c.setBuffer .active ((c.buffer .active).enqueue r)
    (c'.setBuffer name ((c'.buffer name).remove i)).waiting = c.waiting := by
  intro c'
  have hpos : (c'.buffer name).buffer[i]? = some r := by
    by_cases hname : name = .active
    · subst hname
      obtain ⟨hi, -⟩ := List.getElem?_eq_some_iff.mp h
      simpa [c', setBuffer, ReqBuffer.enqueue, List.getElem?_append_left hi] using h
    · simpa [c', setBuffer, hname] using h
  have hbag := waiting_remove hpos
  rw [waiting_enqueue c .active r] at hbag
  exact ((Multiset.cons_inj_right _).mp hbag).symm

/-- The command a controller issues is a command of its channel. -/
theorem issue_spec {c c' : PIMDRAMController} {d' : δ} {it : Iterator} {written : List Request}
    (hfound : Found dram d c it) (h : issue dram d c it = (d', c', written)) :
    c'.clk = c.clk ∧ c'.channelId = c.channelId ∧
      InService.Command dram c.clk (c.inService d) (c'.inService d')
        (written.map Request.idle) := by
  obtain ⟨name, i, req⟩ := it
  obtain ⟨hpos, hcmd, hready⟩ := hfound
  dsimp only at hpos hcmd hready
  obtain ⟨hi, -⟩ := List.getElem?_eq_some_iff.mp hpos
  have hstart : c.inService d = ⟨d,
      req.idle ::ₘ (c.setBuffer name ((c.buffer name).remove i)).waiting,
      c.pending.map Request.idle⟩ := by
    rw [inService, waiting_remove hpos]
  have hpreq : InService.preq dram d req.idle = InService.preq dram d req := rfl
  have hkind : ∀ cmd, (req.count cmd).finalCommand = req.idle.finalCommand := fun cmd => by
    simp [Request.finalCommand]
  set W := (c.setBuffer name ((c.buffer name).remove i)).waiting
  unfold issue at h
  simp only [hcmd, Request.updateState_eq hcmd, Request.count_typeId, Request.count_callback,
    hkind] at h
  rw [hstart]
  split_ifs at h with hfinal hreads hwrites hopen
  · obtain ⟨rfl, rfl, rfl⟩ := h
    refine ⟨rfl, rfl, ?_⟩
    have hstep : InService.Command dram c.clk ⟨d, req.idle ::ₘ W, c.pending.map Request.idle⟩ _ _ :=
      .read (hfinal ▸ hready) hfinal hreads
    rw [← hfinal, ← Request.count_idle, ← Request.departAt_idle, ← List.map_singleton,
      ← List.map_append] at hstep
    exact hstep
  · obtain ⟨rfl, rfl, rfl⟩ := h
    refine ⟨rfl, rfl, ?_⟩
    have hstep : InService.Command dram c.clk ⟨d, req.idle ::ₘ W, c.pending.map Request.idle⟩ _ _ :=
      .write (hfinal ▸ hready) hfinal (by simpa using hwrites)
    rw [← hfinal, ← Request.count_idle, ← Request.departAt_idle, ← List.map_singleton] at hstep
    exact hstep
  · obtain ⟨rfl, rfl, rfl⟩ := h
    refine ⟨rfl, rfl, ?_⟩
    have hstep : InService.Command dram c.clk ⟨d, req.idle ::ₘ W, c.pending.map Request.idle⟩ _ _ :=
      .drop (hfinal ▸ hready) hfinal (by simpa using hreads) (by simpa using hwrites)
    rw [← hfinal] at hstep
    exact hstep
  · obtain ⟨rfl, rfl, rfl⟩ := h
    refine ⟨rfl, rfl, ?_⟩
    rw [inService, waiting_activate (c := c.setBuffer name ((c.buffer name).set i _))
      (by simp [setBuffer, ReqBuffer.set, hi]), waiting_set hpos, Request.count_idle]
    exact .prepare hready hfinal
  · obtain ⟨rfl, rfl, rfl⟩ := h
    refine ⟨rfl, rfl, ?_⟩
    rw [inService, waiting_set hpos, Request.count_idle]
    exact .prepare hready hfinal

/-- A request that is sent waits, unless a waiting write answers it. -/
theorem send_spec {c c' : PIMDRAMController} {req : Request} (h : c.send req = .ok c') :
    c'.clk = c.clk ∧ c'.channelId = c.channelId ∧
      (req.typeId.reads = true ∨ req.typeId.writes = true) ∧
      (c'.waiting = (req.arriveAt c.clk).idle ::ₘ c.waiting ∧ c'.pending = c.pending ∨
        req.typeId = .read ∧ (c.buffer .write).buffer ≠ [] ∧ c'.waiting = c.waiting ∧
          c'.pending = c.pending ++ [req.departAt (c.clk + 1)]) := by
  unfold send at h
  split_ifs at h with hforward
  · obtain rfl := Except.ok.inj h
    obtain ⟨htype, hany⟩ := hforward
    refine ⟨rfl, rfl, .inl (by rw [htype]; rfl), .inr ⟨htype, ?_, rfl, rfl⟩⟩
    intro hnil
    simp [ReqBuffer.window, hnil] at hany
  · have hqueued : ∀ name, c' = c.setBuffer name ((c.buffer name).enqueue (req.arriveAt c.clk)) →
        c'.clk = c.clk ∧ c'.channelId = c.channelId ∧
          c'.waiting = (req.arriveAt c.clk).idle ::ₘ c.waiting ∧ c'.pending = c.pending := by
      rintro name rfl
      exact ⟨rfl, rfl, waiting_enqueue c name _, rfl⟩
    have htype : (req.arriveAt c.clk).typeId = req.typeId := rfl
    simp only [htype] at h
    cases hkind : req.typeId <;> simp only [hkind] at h
    case read =>
      obtain ⟨hclk, hid, hwait, hpend⟩ := hqueued .read (Except.ok.inj h).symm
      exact ⟨hclk, hid, .inl rfl, .inl ⟨hwait, hpend⟩⟩
    case write =>
      obtain ⟨hclk, hid, hwait, hpend⟩ := hqueued .write (Except.ok.inj h).symm
      exact ⟨hclk, hid, .inr rfl, .inl ⟨hwait, hpend⟩⟩
    case allRead =>
      obtain ⟨hclk, hid, hwait, hpend⟩ := hqueued .pim (Except.ok.inj h).symm
      exact ⟨hclk, hid, .inl rfl, .inl ⟨hwait, hpend⟩⟩
    case allWrite =>
      obtain ⟨hclk, hid, hwait, hpend⟩ := hqueued .pim (Except.ok.inj h).symm
      exact ⟨hclk, hid, .inr rfl, .inl ⟨hwait, hpend⟩⟩
    all_goals cases h

theorem serveCompletedReads_spec {c c' : PIMDRAMController} {served : List Request}
    (h : c.serveCompletedReads = (c', served)) :
    c'.clk = c.clk ∧ c'.channelId = c.channelId ∧ c'.buffer = c.buffer ∧
      InService.Departure c.clk (c.pending.map Request.idle) (c'.pending.map Request.idle)
        (served.map Request.idle) := by
  unfold serveCompletedReads at h
  split at h
  · rename_i hnil
    obtain ⟨rfl, rfl⟩ := Prod.mk.inj h
    refine ⟨rfl, rfl, rfl, .none ?_⟩
    simp [hnil]
  · rename_i req pending hcons
    rw [hcons]
    split_ifs at h with hdue hcall
    · obtain ⟨rfl, rfl⟩ := Prod.mk.inj h
      refine ⟨rfl, rfl, rfl, ?_⟩
      have hfront : InService.Departure c.clk (req.idle :: pending.map Request.idle) _ _ :=
        .front hdue
      rwa [Request.idle_callback, if_pos hcall] at hfront
    · obtain ⟨rfl, rfl⟩ := Prod.mk.inj h
      refine ⟨rfl, rfl, rfl, ?_⟩
      have hfront : InService.Departure c.clk (req.idle :: pending.map Request.idle) _ _ :=
        .front hdue
      rwa [Request.idle_callback, if_neg hcall] at hfront
    · obtain ⟨rfl, rfl⟩ := Prod.mk.inj h
      refine ⟨rfl, rfl, rfl, ?_⟩
      rw [hcons]
      exact .none (by simpa using not_le.mp hdue)

theorem refreshTick_spec (refresh : ℕ → ℤ → List RamulatorAddrVec) (c : PIMDRAMController) :
    (c.refreshTick refresh).clk = c.clk ∧ (c.refreshTick refresh).channelId = c.channelId ∧
      (c.refreshTick refresh).pending = c.pending ∧ (c.refreshTick refresh).waiting
        = c.waiting + ↑((refresh c.channelId c.clk).map Request.refresh) := by
  unfold refreshTick
  generalize refresh c.channelId c.clk = addrVecs
  induction addrVecs generalizing c with
  | nil => simp
  | cons v addrVecs ih =>
    obtain ⟨hclk, hid, hpending, hwaiting⟩ := ih (c.prioritySend (.refresh v))
    refine ⟨hclk, hid, hpending, ?_⟩
    rw [List.foldl_cons]
    show (List.foldl _ (c.prioritySend (.refresh v)) addrVecs).waiting = _
    rw [hwaiting, prioritySend, waiting_enqueue, List.map_cons, ← Multiset.cons_coe,
      Multiset.add_cons, Multiset.cons_add]
    rfl

/-- A tick of a controller is a tick of its channel. -/
theorem tick_refines {refresh : ℕ → ℤ → List RamulatorAddrVec} {c c' : PIMDRAMController} {d' : δ}
    {callbacks : List Request} (h : tick dram d refresh c = (d', c', callbacks)) :
    c'.channelId = c.channelId ∧
      Channel.Tick dram (refresh c.channelId) d c.view d' c'.view (callbacks.map Request.idle) := by
  rcases hserve : serveCompletedReads { c with clk := c.clk + 1 } with ⟨c₁, served⟩
  rcases hsched : scheduleRequest dram d (c₁.refreshTick refresh) with ⟨c₃, it⟩
  obtain ⟨hclk₁, hid₁, hbuf₁, hdep⟩ := serveCompletedReads_spec hserve
  obtain ⟨hclk₂, hid₂, hpend₂, hwait₂⟩ := refreshTick_spec refresh c₁
  obtain ⟨hlook, hfound⟩ := scheduleRequest_spec hsched
  have hwait₁ : c₁.waiting = c.waiting := by simp only [waiting, hbuf₁]
  have hclk₃ : c₃.clk = c.clk + 1 := (hlook.clk.trans hclk₂).trans hclk₁
  have hid₃ : c₃.channelId = c.channelId := (hlook.channelId.trans hid₂).trans hid₁
  have hservice : c₃.inService d = ⟨d, c.waiting + ↑((refresh c.channelId (c.clk + 1)).map
      Request.refresh), c₁.pending.map Request.idle⟩ := by
    rw [inService, hlook.waiting, hlook.pending, hwait₂, hpend₂, hwait₁, hid₁, hclk₁]
  have hstep : ∀ {d' : δ} {c' : PIMDRAMController} {written : List Request}, c'.clk = c.clk + 1 →
      InService.Command dram (c.clk + 1) (c₃.inService d) (c'.inService d') written →
      Channel.Tick dram (refresh c.channelId) d c.view d' c'.view
        (served.map Request.idle ++ written) := by
    intro d' c' written hclk hcmd
    rw [hservice] at hcmd
    have htick := Channel.Tick.mk (x := c.view) hdep hcmd
    rwa [← show c'.clk = c.view.clk + 1 from hclk] at htick
  unfold tick at h
  simp only [hserve, hsched] at h
  cases it with
  | none =>
    obtain ⟨rfl, rfl, rfl⟩ := h
    refine ⟨hid₃, ?_⟩
    simpa using hstep hclk₃ (.none _)
  | some it =>
    rcases hissue : issue dram d c₃ it with ⟨d₄, c₄, written⟩
    obtain ⟨hclk₄, hid₄, hcmd⟩ := issue_spec (hfound it rfl).1 hissue
    simp only [hissue] at h
    obtain ⟨rfl, rfl, rfl⟩ := h
    rw [hclk₃] at hcmd
    refine ⟨hid₄.trans hid₃, ?_⟩
    rw [List.map_append]
    exact hstep (hclk₄.trans hclk₃) hcmd

end PIMDRAMController
end LlmSystem
