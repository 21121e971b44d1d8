import LlmSystem.Dram.Conservation

/-!
Which request a controller serves: in every state a run reaches, the buffers are in the order of
arrival, and `schedule_request` takes the first ready request of the first buffer that has one.
-/
namespace LlmSystem

open Runs

namespace PIMDRAMController
variable {δ : Type} {dram : IDRAM δ} {d : δ}

/-- Whether the device is ready for the command that brings a request forward. -/
def advances (dram : IDRAM δ) (d : δ) (req : Request) : Bool :=
  dram.checkReady d (InService.preq dram d req) req.addrVec

/-- A buffer, without the commands its requests were last looked at for. -/
def queue (c : PIMDRAMController) (name : BufferName) : List Request :=
  (c.buffer name).buffer.map Request.idle

def queueWindow (c : PIMDRAMController) (name : BufferName) : List Request :=
  (c.queue name).take (c.buffer name).maxSize

theorem Looked.queue {c c' : PIMDRAMController} (h : Looked c c') (name : BufferName) :
    c'.queue name = c.queue name := h.idle name

theorem Looked.queueWindow {c c' : PIMDRAMController} (h : Looked c c') (name : BufferName) :
    c'.queueWindow name = c.queueWindow name := by
  rw [PIMDRAMController.queueWindow, h.queue, h.maxSize, PIMDRAMController.queueWindow]

/-- Requests in the order in which they arrived. -/
def InOrder (rs : List Request) : Prop := rs.Pairwise fun r r' => r.arrive ≤ r'.arrive

/-- The request at a position of a buffer is its first ready one. -/
structure FirstOf (dram : IDRAM δ) (d : δ) (rs : List Request) (i : ℕ) (req : Request) : Prop where
  position : rs[i]? = some req.idle
  advances : advances dram d req = true
  first : InOrder rs → ∀ j < i, ∀ r, rs[j]? = some r → PIMDRAMController.advances dram d r = false

theorem queueWindow_looked (c : PIMDRAMController) (name : BufferName) :
    ((c.buffer name).window.map (PIMScheduler.withPreq dram d)).map Request.idle
      = c.queueWindow name := by
  rw [List.map_map, queueWindow, queue, ← List.map_take]
  rfl

theorem queueWindow_getElem? {c : PIMDRAMController} {name : BufferName} {i : ℕ} {r : Request}
    (h : (c.queueWindow name)[i]? = some r) :
    i < (c.buffer name).maxSize ∧ (c.queue name)[i]? = some r := by
  rw [queueWindow, List.getElem?_take] at h
  split_ifs at h with hi
  exact ⟨hi, h⟩

/-- Looking for the best request of a buffer: none is ready, or the first ready one is taken. -/
theorem pick_first {c c' : PIMDRAMController} {name : BufferName} {it : Option Iterator}
    (h : pick dram d c name = (c', it)) :
    (it = none → ∀ r ∈ c.queueWindow name, advances dram d r = false) ∧
      ∀ i ∈ it, i.1 = name ∧ FirstOf dram d (c.queue name) i.2.1 i.2.2 := by
  set looked := (c.buffer name).window.map (PIMScheduler.withPreq dram d) with hlooked
  have hidle : looked.map Request.idle = c.queueWindow name := queueWindow_looked c name
  have hready : ∀ r ∈ looked, PIMScheduler.ready dram d r = advances dram d r.idle := by
    intro r hr
    obtain ⟨r', -, rfl⟩ := List.mem_map.mp hr
    rfl
  have hbest : (PIMScheduler.getBestRequest dram d (c.buffer name)).2
      = Scans.best (PIMScheduler.compare dram d) looked := by
    rw [hlooked, ← ReqBuffer.modifyWindow_window]
    rfl
  unfold pick at h
  dsimp only at h
  rw [hbest] at h
  cases hscan : Scans.best (PIMScheduler.compare dram d) looked with
  | none =>
    rw [hscan] at h
    obtain ⟨-, rfl⟩ := Prod.mk.inj h
    rw [Scans.best_eq_none.mp hscan] at hidle
    exact ⟨by simp [← hidle], by simp⟩
  | some p =>
    obtain ⟨req, i⟩ := p
    rw [hscan] at h
    obtain ⟨-, rfl⟩ := Prod.mk.inj h
    have hreq := Scans.best_mem hscan
    cases hpick : PIMScheduler.ready dram d req with
    | false =>
      refine ⟨fun _ r hr => ?_, by simp⟩
      rw [← hidle] at hr
      obtain ⟨r', hr', rfl⟩ := List.mem_map.mp hr
      rw [← hready r' hr']
      by_contra hne
      rw [Scans.ready_of_best hscan hr' (by simpa using hne)] at hpick
      cases hpick
    | true =>
      refine ⟨by simp, fun it hit => ?_⟩
      obtain rfl := Option.some.inj hit
      have hpos : (c.queueWindow name)[i]? = some req.idle := by
        rw [← hidle, List.getElem?_map, Scans.best_getElem hscan]
        rfl
      obtain ⟨hi, hpos'⟩ := queueWindow_getElem? hpos
      refine ⟨rfl, hpos', ?_, fun hsorted j hj r hr => ?_⟩
      · rw [hready req hreq] at hpick
        exact hpick
      · have horder : looked.Pairwise fun r r' => r.arrive ≤ r'.arrive := by
          have hprefix : InOrder (c.queueWindow name) := hsorted.sublist (List.take_sublist _ _)
          rw [InOrder, ← hidle, List.pairwise_map] at hprefix
          exact hprefix
        have hwindow : (c.queueWindow name)[j]? = some r := by
          rw [queueWindow, List.getElem?_take, if_pos (hj.trans hi), hr]
        rw [← hidle, List.getElem?_map] at hwindow
        obtain ⟨r', hr', rfl⟩ := Option.map_eq_some_iff.mp hwindow
        rw [← hready r' (List.mem_of_getElem? hr')]
        exact Scans.not_ready_before hscan horder hpick hj hr'

/-- What a controller serves: a ready request, of the first buffer that has one, which closes no
row of a request in the active buffer. -/
structure Serves (dram : IDRAM δ) (d : δ) (c : PIMDRAMController) (it : Iterator) : Prop where
  first : FirstOf dram d (c.queue it.1) it.2.1 it.2.2
  active : it.1 ≠ .active → ∀ r ∈ c.queueWindow .active, advances dram d r = false
  pim : it.1 ≠ .active → it.1 ≠ .pim → ∀ r ∈ c.queueWindow .pim, advances dram d r = false
  priority : it.1 = .read ∨ it.1 = .write → c.queue .priority = []
  safe : (InService.preq dram d it.2.2).commandMeta.isClosing = true →
    ∀ r ∈ c.queueWindow .active, rowgroup r.addrVec ≠ rowgroup it.2.2.addrVec

theorem pickRest_first {c c' : PIMDRAMController} {it : Option Iterator}
    (h : pickRest dram d c = (c', it)) : ∀ i ∈ it, i.1 ≠ .active ∧ i.1 ≠ .pim ∧
      (i.1 = .read ∨ i.1 = .write → c.queue .priority = []) ∧
      FirstOf dram d (c.queue i.1) i.2.1 i.2.2 := by
  unfold pickRest at h
  split at h
  · rename_i req rest hpriority
    obtain ⟨-, rfl⟩ := Prod.mk.inj h
    intro i hi
    split_ifs at hi with hready
    · obtain rfl := Option.some.inj hi
      refine ⟨by simp, by simp, by simp, ?_, hready, fun _ j hj => absurd hj (Nat.not_lt_zero j)⟩
      rw [queue, hpriority]
      rfl
    · cases hi
  · rename_i hpriority
    intro i hi
    obtain ⟨hname, hfirst⟩ := (pick_first h).2 i hi
    have hlook := Looked.setWriteMode c
    refine ⟨?_, ?_, fun _ => by rw [queue, hpriority]; rfl, ?_⟩
    · rw [hname]
      split_ifs <;> simp
    · rw [hname]
      split_ifs <;> simp
    · rw [hname]
      rwa [hlook.queue] at hfirst

theorem findRequest_first {c c' : PIMDRAMController} {it : Option Iterator}
    (h : findRequest dram d c = (c', it)) : ∀ i ∈ it,
      FirstOf dram d (c.queue i.1) i.2.1 i.2.2 ∧
      (i.1 ≠ .active → ∀ r ∈ c.queueWindow .active, advances dram d r = false) ∧
      (i.1 ≠ .active → i.1 ≠ .pim → ∀ r ∈ c.queueWindow .pim, advances dram d r = false) ∧
      (i.1 = .read ∨ i.1 = .write → c.queue .priority = []) := by
  unfold findRequest at h
  split at h
  · rename_i c₁ i hactive
    obtain ⟨-, rfl⟩ := Prod.mk.inj h
    intro j hj
    obtain rfl := Option.some.inj hj
    obtain ⟨hname, hfirst⟩ := (pick_first hactive).2 i rfl
    rw [← hname] at hfirst
    exact ⟨hfirst, by simp [hname], by simp [hname], by simp [hname]⟩
  · rename_i c₁ hactive
    have hlook₁ := (pick_spec hactive).1
    have hnone := (pick_first hactive).1 rfl
    split at h
    · rename_i c₂ i hpim
      obtain ⟨-, rfl⟩ := Prod.mk.inj h
      intro j hj
      obtain rfl := Option.some.inj hj
      obtain ⟨hname, hfirst⟩ := (pick_first hpim).2 i rfl
      rw [hlook₁.queue, ← hname] at hfirst
      exact ⟨hfirst, fun _ => hnone, by simp [hname], by simp [hname]⟩
    · rename_i c₂ hpim
      have hlook₂ := hlook₁.trans (pick_spec hpim).1
      have hnone' := (pick_first hpim).1 rfl
      rw [hlook₁.queueWindow] at hnone'
      intro i hi
      obtain ⟨hactive', hpim', hpriority, hfirst⟩ := pickRest_first h i hi
      rw [hlook₂.queue] at hpriority hfirst
      exact ⟨hfirst, fun _ => hnone, fun _ _ => hnone', hpriority⟩

theorem scheduleRequest_serves {c c' : PIMDRAMController} {it : Option Iterator}
    (h : scheduleRequest dram d c = (c', it)) : ∀ i ∈ it, Serves dram d c i := by
  unfold scheduleRequest at h
  split at h
  · rename_i c₁ i hfind
    obtain ⟨-, rfl⟩ := Prod.mk.inj h
    intro j hj
    split_ifs at hj with hint
    · cases hj
    · obtain rfl := Option.some.inj hj
      obtain ⟨hlook, hfound⟩ := findRequest_spec hfind
      obtain ⟨hfirst, hactive, hpim, hpriority⟩ := findRequest_first hfind i rfl
      refine ⟨hfirst, hactive, hpim, hpriority, fun hclosing r hr heq => hint ?_⟩
      unfold interrupts
      rw [(hfound i rfl).command]
      dsimp only
      rw [hclosing, Bool.true_and, List.any_eq_true]
      rw [← hlook.queueWindow, queueWindow, queue, ← List.map_take] at hr
      obtain ⟨r', hr', rfl⟩ := List.mem_map.mp hr
      exact ⟨r', hr', beq_iff_eq.mpr heq.symm⟩
  · obtain ⟨-, rfl⟩ := Prod.mk.inj h
    simp

/-! ### The order of arrival -/

/-- The buffers that are filled from outside hold their requests in the order of arrival. -/
def Ordered (c : PIMDRAMController) : Prop :=
  ∀ name, name ≠ .active → name ≠ .priority →
    InOrder (c.queue name) ∧ ∀ r ∈ c.queue name, r.arrive ≤ c.clk

def arrivals (c : PIMDRAMController) (name : BufferName) : List ℤ :=
  (c.queue name).map Request.arrive

theorem ordered_iff {c : PIMDRAMController} : c.Ordered ↔ ∀ name, name ≠ .active →
    name ≠ .priority → (c.arrivals name).Pairwise (· ≤ ·) ∧ ∀ t ∈ c.arrivals name, t ≤ c.clk := by
  simp [Ordered, InOrder, arrivals, List.pairwise_map]

/-- Requests that leave their buffers do not disturb the order. -/
theorem Ordered.of_sublist {c c' : PIMDRAMController} (h : c.Ordered) (hclk : c.clk ≤ c'.clk)
    (hsub : ∀ name, name ≠ .active → name ≠ .priority →
      (c'.arrivals name).Sublist (c.arrivals name)) : c'.Ordered := by
  rw [ordered_iff] at h ⊢
  intro name hactive hpriority
  obtain ⟨hsorted, hle⟩ := h name hactive hpriority
  have hname := hsub name hactive hpriority
  exact ⟨hsorted.sublist hname, fun t ht => (hle t (hname.subset ht)).trans hclk⟩

theorem arrivals_setBuffer (c : PIMDRAMController) (name other : BufferName) (b : ReqBuffer) :
    (c.setBuffer name b).arrivals other
      = if other = name then b.buffer.map Request.arrive else c.arrivals other := by
  unfold arrivals queue setBuffer
  by_cases h : other = name
  · subst h
    simp [Request.idle]
  · simp [h]

theorem arrivals_eq (c : PIMDRAMController) (name : BufferName) :
    c.arrivals name = (c.buffer name).buffer.map Request.arrive := by
  simp [arrivals, queue, Request.idle]

theorem arrivals_remove (c : PIMDRAMController) (name other : BufferName) (i : ℕ) :
    ((c.setBuffer name ((c.buffer name).remove i)).arrivals other).Sublist (c.arrivals other) := by
  rw [arrivals_setBuffer]
  split_ifs with h
  · subst h
    rw [arrivals_eq]
    exact (List.eraseIdx_sublist _ _).map _
  · exact List.Sublist.refl _

theorem arrivals_set {c : PIMDRAMController} {name other : BufferName} {i : ℕ} {r r' : Request}
    (h : (c.buffer name).buffer[i]? = some r) (harrive : r'.arrive = r.arrive) :
    (c.setBuffer name ((c.buffer name).set i r')).arrivals other = c.arrivals other := by
  rw [arrivals_setBuffer]
  split_ifs with hname
  · subst hname
    rw [arrivals_eq, ReqBuffer.set, List.map_set, harrive]
    obtain ⟨hi, rfl⟩ := List.getElem?_eq_some_iff.mp h
    rw [← List.getElem_map Request.arrive (h := by simpa using hi), List.set_getElem_self]
  · rfl

theorem updateState_arrive (r : Request) : r.updateState.arrive = r.arrive := by
  unfold Request.updateState
  split
  · rename_i cmd hcmd
    unfold Request.count
    cases cmd.countedAs <;> rfl
  · rfl

theorem issue_arrivals {c c' : PIMDRAMController} {d' : δ} {it : Iterator}
    {written : List Request} (hpos : (c.buffer it.1).buffer[it.2.1]? = some it.2.2)
    (h : issue dram d c it = (d', c', written)) :
    c'.clk = c.clk ∧ ∀ name, name ≠ .active → (c'.arrivals name).Sublist (c.arrivals name) := by
  obtain ⟨name, i, req⟩ := it
  unfold issue at h
  cases hcmd : req.command with
  | none =>
    simp only [hcmd] at h
    obtain ⟨rfl, rfl, rfl⟩ := h
    exact ⟨rfl, fun _ _ => List.Sublist.refl _⟩
  | some cmd =>
    simp only [hcmd] at h
    split_ifs at h
    · obtain ⟨rfl, rfl, rfl⟩ := h
      exact ⟨rfl, fun other _ => arrivals_remove c name other i⟩
    · obtain ⟨rfl, rfl, rfl⟩ := h
      exact ⟨rfl, fun other _ => arrivals_remove c name other i⟩
    · obtain ⟨rfl, rfl, rfl⟩ := h
      exact ⟨rfl, fun other _ => arrivals_remove c name other i⟩
    · obtain ⟨rfl, rfl, rfl⟩ := h
      refine ⟨rfl, fun other hother => ?_⟩
      refine (arrivals_remove _ name other i).trans ?_
      rw [arrivals_setBuffer, if_neg hother, arrivals_set hpos (updateState_arrive req)]
    · obtain ⟨rfl, rfl, rfl⟩ := h
      refine ⟨rfl, fun other _ => ?_⟩
      rw [arrivals_set hpos (updateState_arrive req)]

theorem refreshTick_arrivals (refresh : ℕ → ℤ → List RamulatorAddrVec) (c : PIMDRAMController)
    {name : BufferName} (hname : name ≠ .priority) :
    (c.refreshTick refresh).arrivals name = c.arrivals name := by
  unfold refreshTick
  generalize refresh c.channelId c.clk = addrVecs
  induction addrVecs generalizing c with
  | nil => rfl
  | cons v addrVecs ih =>
    rw [List.foldl_cons, ih, prioritySend, arrivals_setBuffer, if_neg hname]

/-- The state in which a tick looks for a request. -/
def looking (refresh : ℕ → ℤ → List RamulatorAddrVec) (c : PIMDRAMController) :
    PIMDRAMController :=
  (serveCompletedReads { c with clk := c.clk + 1 }).1.refreshTick refresh

theorem looking_ordered (refresh : ℕ → ℤ → List RamulatorAddrVec) {c : PIMDRAMController}
    (hc : c.Ordered) : (c.looking refresh).Ordered := by
  rcases hserve : serveCompletedReads { c with clk := c.clk + 1 } with ⟨c₁, served⟩
  obtain ⟨hclk, -, hbuffer, -⟩ := serveCompletedReads_spec hserve
  obtain ⟨hclk', -⟩ := refreshTick_spec refresh c₁
  unfold looking
  rw [hserve]
  refine hc.of_sublist (by rw [hclk', hclk]; exact (lt_add_one _).le) fun name _ hname => ?_
  rw [refreshTick_arrivals refresh c₁ hname]
  unfold arrivals queue
  rw [hbuffer]

theorem tick_ordered {refresh : ℕ → ℤ → List RamulatorAddrVec} {c c' : PIMDRAMController}
    {d' : δ} {callbacks : List Request} (h : tick dram d refresh c = (d', c', callbacks))
    (hc : c.Ordered) : c'.Ordered := by
  have hlooking := looking_ordered refresh hc
  rcases hsched : scheduleRequest dram d (c.looking refresh) with ⟨c₁, it⟩
  obtain ⟨hlook, hfound⟩ := scheduleRequest_spec hsched
  have hc₁ : c₁.Ordered := by
    refine hlooking.of_sublist hlook.clk.ge fun name _ _ => ?_
    unfold arrivals
    rw [hlook.queue]
  unfold tick at h
  dsimp only at h
  unfold looking at hsched
  rw [hsched] at h
  cases it with
  | none =>
    obtain ⟨rfl, rfl, rfl⟩ := h
    exact hc₁
  | some it =>
    rcases hissue : issue dram d c₁ it with ⟨d₂, c₂, written⟩
    simp only [hissue] at h
    obtain ⟨rfl, rfl, rfl⟩ := h
    obtain ⟨hclk, hsub⟩ := issue_arrivals (hfound it rfl).1.position hissue
    exact hc₁.of_sublist hclk.ge fun name hactive _ => hsub name hactive

theorem send_ordered {c c' : PIMDRAMController} {req : Request} (h : c.send req = .ok c')
    (hc : c.Ordered) : c'.Ordered := by
  have henqueue : ∀ name,
      (c.setBuffer name ((c.buffer name).enqueue (req.arriveAt c.clk))).Ordered := by
    intro name
    rw [ordered_iff] at hc ⊢
    intro other hactive hpriority
    obtain ⟨hsorted, hle⟩ := hc other hactive hpriority
    rw [arrivals_setBuffer]
    split_ifs with hname
    · subst hname
      rw [ReqBuffer.enqueue, List.map_append, ← arrivals_eq]
      refine ⟨List.pairwise_append.mpr ⟨hsorted, List.pairwise_singleton _ _, ?_⟩, ?_⟩
      · intro t ht t' ht'
        rw [List.mem_singleton.mp ht']
        exact hle t ht
      · intro t ht
        rcases List.mem_append.mp ht with ht | ht
        · exact hle t ht
        · exact (List.mem_singleton.mp ht).le
    · exact ⟨hsorted, hle⟩
  unfold send at h
  split_ifs at h
  · obtain rfl := Except.ok.inj h
    exact hc
  · dsimp only at h
    split at h
    · exact Except.ok.inj h ▸ henqueue .read
    · exact Except.ok.inj h ▸ henqueue .write
    · exact Except.ok.inj h ▸ henqueue .pim
    · exact Except.ok.inj h ▸ henqueue .pim
    · cases h

end PIMDRAMController

namespace PIMDRAMSystem
variable {δ : Type} {dram : IDRAM δ} {refresh : ℕ → ℤ → List RamulatorAddrVec}

def Ordered (s : PIMDRAMSystem δ) : Prop := ∀ c ∈ s.controllers, c.Ordered

theorem tickAll_ordered {d d' : δ} {cs cs' : List PIMDRAMController} {callbacks : List Request}
    (h : tickAll dram refresh d cs = (d', cs', callbacks)) (hcs : ∀ c ∈ cs, c.Ordered) :
    ∀ c ∈ cs', c.Ordered := by
  induction cs generalizing d cs' callbacks with
  | nil =>
    obtain ⟨rfl, rfl, rfl⟩ := h
    exact hcs
  | cons c cs ih =>
    obtain ⟨d₁, c₁, callbacks₁, cs₂, callbacks₂, hc, hrest, rfl, rfl⟩ := tickAll_cons h
    obtain ⟨hone, hcs⟩ := List.forall_mem_cons.mp hcs
    exact List.forall_mem_cons.mpr ⟨PIMDRAMController.tick_ordered hc hone, ih hrest hcs⟩

theorem create_ordered (numChannels : ℕ) (d : δ) : (create numChannels d).Ordered := by
  intro c hc
  obtain ⟨i, -, rfl⟩ := List.mem_map.mp hc
  intro name _ _
  cases name <;> simp [PIMDRAMController.InOrder, PIMDRAMController.queue]

theorem History.step_ordered {h h' : History δ} {op : Op}
    (hstep : History.Step dram refresh h op h') (hh : h.system.Ordered) : h'.system.Ordered := by
  cases op with
  | send req =>
    obtain ⟨s, hsend, hok⟩ := bind_eq_ok hstep
    obtain rfl := Except.ok.inj hok
    obtain ⟨-, c, c', hc, hone, rfl⟩ := send_cases hsend
    intro c₁ hc₁
    rcases List.mem_or_eq_of_mem_set hc₁ with hmem | rfl
    · exact hh c₁ hmem
    · exact PIMDRAMController.send_ordered hone (hh c (List.mem_of_getElem? hc))
  | tick =>
    rcases hall : tickAll dram refresh (dram.tick h.system.dram) h.system.controllers
      with ⟨d, cs, callbacks⟩
    simp only [History.Step, History.step, tick, hall] at hstep
    obtain rfl := Except.ok.inj hstep
    exact tickAll_ordered hall hh

/-- In every state a run reaches, a controller that serves a request in its next cycle takes the
first one that is ready of the first buffer with a ready one: in the order of arrival where the
buffer is filled from outside, behind active requests, requests for the banks and refreshes. -/
theorem serves_first_ready {numChannels : ℕ} {d₀ : δ} {ops : List Op} {h : History δ}
    (hrun : Run (History.Step dram refresh) { system := create numChannels d₀ } ops h)
    {c c' : PIMDRAMController} (hc : c ∈ h.system.controllers) {d : δ}
    {it : PIMDRAMController.Iterator}
    (hsched : PIMDRAMController.scheduleRequest dram d (c.looking refresh) = (c', some it)) :
    PIMDRAMController.Serves dram d (c.looking refresh) it ∧
      (it.1 ≠ .active → it.1 ≠ .priority →
        ∀ j < it.2.1, ∀ r, ((c.looking refresh).queue it.1)[j]? = some r →
          PIMDRAMController.advances dram d r = false ∧ r.arrive ≤ it.2.2.arrive) := by
  have hordered : h.system.Ordered :=
    hrun.invariant (I := fun h => h.system.Ordered)
      (fun _ _ _ hh hstep => History.step_ordered hstep hh) (create_ordered numChannels d₀)
  have hserves := PIMDRAMController.scheduleRequest_serves hsched it rfl
  refine ⟨hserves, fun hactive hpriority j hj r hr => ?_⟩
  obtain ⟨hsorted, -⟩ :=
    PIMDRAMController.looking_ordered refresh (hordered c hc) it.1 hactive hpriority
  refine ⟨hserves.first.first hsorted j hj r hr, ?_⟩
  obtain ⟨hjlt, rfl⟩ := List.getElem?_eq_some_iff.mp hr
  obtain ⟨hilt, hget⟩ := List.getElem?_eq_some_iff.mp hserves.first.position
  have hle := List.pairwise_iff_getElem.mp hsorted j it.2.1 hjlt hilt hj
  rw [hget] at hle
  exact hle

/-- The row of the second read is open and cannot be closed yet. -/
theorem serves_open_row : ∃ (dram : IDRAM OpenRows) (d : OpenRows) (c : PIMDRAMController)
    (it : PIMDRAMController.Iterator), it.2.1 = 1 ∧ PIMDRAMController.Serves dram d c it := by
  let dram : IDRAM OpenRows :=
    { OpenRows.idram 1 2 with checkReady := fun _ cmd _ => decide (cmd ≠ .pre) }
  let d : OpenRows := { rows := [([0, 0, 0, 0, 0], 2)] }
  have hrun : (([1, 2].map fun row =>
      Op.send (PIMController.request ⟨.kRead, .kDRAM, ⟨0, 0, 0, 0, 0, row, 0⟩, .kRead⟩)).foldlM
      (History.step dram fun _ _ => []) { system := create 1 {} }).toOption.any
        (fun h => h.system.controllers.any fun c =>
          (PIMDRAMController.scheduleRequest dram d (c.looking fun _ _ => [])).2.any
            fun it => it.2.1 == 1) = true := by decide +kernel
  obtain ⟨h, hok, hp⟩ := exists_ok_of_any hrun
  obtain ⟨c, hc, hpick⟩ := List.any_eq_true.mp hp
  rcases hsched : PIMDRAMController.scheduleRequest dram d (c.looking fun _ _ => []) with ⟨c', it⟩
  rw [hsched] at hpick
  obtain ⟨i, rfl, hi⟩ := (Option.any_eq_true ..).mp hpick
  exact ⟨dram, d, _, i, by simpa using hi, (serves_first_ready (Run.of_foldlM hok) hc hsched).1⟩

end PIMDRAMSystem
end LlmSystem
