import LlmSystem.Dram.Conservation

/-!
One round of `HandleRequest` as a run of the memory system: the commands are sent, and cycles pass
until every buffer is empty.
-/
namespace LlmSystem

open Runs PIMDRAMSystem

/-- The kernels for the memory system generate commands of one type, for channel 0. -/
theorem generatePIMCommand_uniform {c : MemoryConfig} {pimHWConfig : PIMHWConfig}
    {request : DRAMRequest} {cmds : List PIMCommand}
    (h : generatePIMCommand c pimHWConfig request [] = .ok cmds) :
    (∃ type, ∀ cmd ∈ cmds, cmd.pimcmdType = type) ∧ ∀ cmd ∈ cmds, cmd.addrVec.channel = 0 := by
  have hloop : ∀ {opnd keep pimcmdType opType dramreqType},
      (∀ v : RamulatorAddrVec, keep v = true → v.channel = 0) →
      bundleLoop c opnd pimHWConfig.type keep (fun v => ⟨pimcmdType, opType, v, dramreqType⟩) []
        = .ok cmds →
      (∃ type, ∀ cmd ∈ cmds, cmd.pimcmdType = type) ∧ ∀ cmd ∈ cmds, cmd.addrVec.channel = 0 := by
    intro opnd keep pimcmdType opType dramreqType hkeep hloop
    obtain ⟨vs, -, rfl⟩ := bundleLoop_ok hloop
    rw [List.nil_append]
    refine ⟨⟨pimcmdType, fun cmd hcmd => ?_⟩, fun cmd hcmd => ?_⟩
    · obtain ⟨v, -, rfl⟩ := List.mem_map.mp hcmd
      rfl
    · obtain ⟨v, hv, rfl⟩ := List.mem_map.mp hcmd
      exact hkeep v (List.mem_filter.mp hv).2
  have hnil : cmds = [] →
      (∃ type, ∀ cmd ∈ cmds, cmd.pimcmdType = type) ∧ ∀ cmd ∈ cmds, cmd.addrVec.channel = 0 := by
    rintro rfl
    exact ⟨⟨.kRead, by simp⟩, by simp⟩
  unfold generatePIMCommand at h
  cases htype : request.type with
  | kRead =>
    simp only [htype, readKernel] at h
    obtain ⟨opnds, -, h⟩ := bind_eq_ok h
    split at h
    · exact hloop (by simp) h
    · cases h
  | kWrite =>
    simp only [htype, writeKernel] at h
    obtain ⟨opnds, -, h⟩ := bind_eq_ok h
    split at h
    · exact hloop (by simp) h
    · cases h
  | kGEMV =>
    simp only [htype, GEMV.kernel] at h
    obtain ⟨opnds, -, h⟩ := bind_eq_ok h
    split at h
    · obtain ⟨keep, hkeep, h⟩ := bind_eq_ok h
      cases keep with
      | none => exact hnil (Except.ok.inj h).symm
      | some keep =>
        refine hloop (fun v hv => ?_) h
        unfold GEMV.keeps at hkeep
        split at hkeep
        · split_ifs at hkeep <;>
            obtain rfl := Option.some.inj (Except.ok.inj hkeep) <;>
            simp at hv <;>
            simp [hv]
        · split_ifs at hkeep
          obtain rfl := Option.some.inj (Except.ok.inj hkeep)
          simp at hv
          simp [hv]
        · cases hkeep
    · cases h
  | _ =>
    simp only [htype] at h
    exact hnil (Except.ok.inj h).symm

variable {δ : Type} {dram : IDRAM δ} {refresh : ℕ → ℤ → List RamulatorAddrVec}

namespace PIMController

theorem sendAll_history {cmds : List PIMCommand} {s s' : PIMDRAMSystem δ}
    (h : sendAll cmds s = .ok s') (sent C : List Request) :
    Run (History.Step dram refresh) ⟨s, sent, C⟩ (cmds.map fun cmd => .send (request cmd))
      ⟨s', sent ++ cmds.map request, C⟩ := by
  induction cmds generalizing s sent with
  | nil =>
    obtain rfl := Except.ok.inj h
    rw [List.map_nil, List.map_nil, List.append_nil]
    exact .nil _
  | cons cmd cmds ih =>
    obtain ⟨s₁, hsend, hrest⟩ := bind_eq_ok h
    have hrun := ih hrest (sent ++ [request cmd])
    rw [List.append_assoc] at hrun
    refine .cons ?_ hrun
    simp [History.Step, History.step, hsend, bind, Except.bind]

/-- What the callbacks leave: the commands of all requests, and the cycle of the last one. -/
theorem foldl_setEndTime (callbacks : List Request) (pimrequest : Simulated) :
    callbacks.foldl setEndTime pimrequest = {
      start := pimrequest.start
      «end» := (callbacks.getLast?.map Request.depart).getD pimrequest.end
      issuedDramCmd := fun k =>
        pimrequest.issuedDramCmd k + (callbacks.map fun req => req.issuedDramCmd k).sum } := by
  induction callbacks generalizing pimrequest with
  | nil => simp
  | cons req callbacks ih =>
    rw [List.foldl_cons, ih]
    cases hlast : callbacks.getLast? with
    | none =>
      obtain rfl := List.getLast?_eq_none_iff.mp hlast
      simp [setEndTime]
    | some last =>
      simp [setEndTime, List.getLast?_cons, hlast, add_assoc]

end PIMController

namespace DRAMInterface

/-- A request that was handled: its commands, the memory system after they were sent, the cycles
until it was finished, and the callbacks in their order. -/
structure Handled (dram : IDRAM δ) (refresh : ℕ → ℤ → List RamulatorAddrVec)
    (s : PIMDRAMSystem δ) (cmds : List PIMCommand) (loaded : PIMDRAMSystem δ) (cycles : ℕ)
    (callbacks : List Request) (s' : PIMDRAMSystem δ) : Prop where
  sent : PIMController.sendAll cmds s = .ok loaded
  ticks : Run (History.Step dram refresh) ⟨loaded, cmds.map PIMController.request, []⟩
    (List.replicate cycles .tick) ⟨s', cmds.map PIMController.request, callbacks⟩
  finished : s'.isFinished = true

theorem run_history {fuel : ℕ} {s s' : PIMDRAMSystem δ} {pimrequest pimrequest' : Simulated}
    (h : run dram refresh fuel (s, pimrequest) = some (s', pimrequest')) (sent C : List Request) :
    ∃ cycles callbacks, Run (History.Step dram refresh) ⟨s, sent, C⟩ (List.replicate cycles .tick)
        ⟨s', sent, C ++ callbacks⟩ ∧
      s'.isFinished = true ∧ pimrequest' = callbacks.foldl PIMController.setEndTime pimrequest := by
  induction fuel generalizing s pimrequest C with
  | zero => cases h
  | succ fuel ih =>
    rcases htick : s.tick dram refresh with ⟨s₁, callbacks₁⟩
    have hstep : History.Step dram refresh ⟨s, sent, C⟩ .tick ⟨s₁, sent, C ++ callbacks₁⟩ := by
      simp [History.Step, History.step, htick]
    simp only [run, round, htick] at h
    split_ifs at h with hfin
    · obtain ⟨rfl, rfl⟩ := Prod.mk.inj (Option.some.inj h)
      exact ⟨1, callbacks₁, .single hstep, hfin, rfl⟩
    · obtain ⟨cycles, callbacks, hrun, hfin', rfl⟩ := ih h (C ++ callbacks₁)
      refine ⟨cycles + 1, callbacks₁ ++ callbacks, ?_, hfin', ?_⟩
      · rw [List.append_assoc] at hrun
        exact .cons hstep hrun
      · rw [List.foldl_append]

theorem handle_handled {c : MemoryConfig} {memoryScaleFactor : ℚ} {pimHWConfig : PIMHWConfig}
    {fuel : ℕ} {s s' : PIMDRAMSystem δ} {status status' : ExecStatus} {request : DRAMRequest}
    (h : handle dram refresh c memoryScaleFactor pimHWConfig fuel (s, status) request
      = .ok (s', status')) :
    ∃ cmds loaded cycles callbacks, generatePIMCommand c pimHWConfig request [] = .ok cmds ∧
      Handled dram refresh s cmds loaded cycles callbacks s' ∧
      status' = updateStatus memoryScaleFactor status
        (callbacks.foldl PIMController.setEndTime { start := s.clk, «end» := s.clk }) := by
  obtain ⟨cmds, hcmds, h⟩ := bind_eq_ok h
  obtain ⟨x, hsend, h⟩ := bind_eq_ok h
  obtain ⟨loaded, hsent, hsend⟩ := bind_eq_ok hsend
  obtain rfl := Except.ok.inj hsend
  dsimp only at h
  split at h
  · rename_i s₁ pimrequest hrun
    obtain ⟨rfl, rfl⟩ := Prod.mk.inj (Except.ok.inj h)
    obtain ⟨cycles, callbacks, hticks, hfin, rfl⟩ :=
      run_history hrun (cmds.map PIMController.request) []
    exact ⟨cmds, loaded, cycles, callbacks, hcmds, ⟨hsent, hticks, hfin⟩, rfl⟩
  · cases h

/-- Each command that was sent is called back, once. -/
theorem Handled.callbacks_perm {s loaded s' : PIMDRAMSystem δ} {cmds : List PIMCommand}
    {cycles : ℕ} {callbacks : List Request}
    (h : Handled dram refresh s cmds loaded cycles callbacks s') (hs : s.isFinished = true) :
    (callbacks.map Request.fixed).Perm
      (cmds.map fun cmd => (PIMController.request cmd).fixed) := by
  have hend := (History.Conserved.start hs).run
    ((PIMController.sendAll_history h.sent [] []).append h.ticks)
  have hall : (cmds.map PIMController.request).filter (fun r => r.callback)
      = cmds.map PIMController.request := by
    refine List.filter_eq_self.mpr fun r hr => ?_
    obtain ⟨cmd, -, rfl⟩ := List.mem_map.mp hr
    rfl
  have hperm := hend.finished h.finished
  rwa [hall, List.map_map] at hperm

/-- The cycles are steps of the flow. -/
theorem ticks_steps {cycles : ℕ} {s s' : PIMDRAMSystem δ} {sent sent' C C' : List Request}
    (h : Run (History.Step dram refresh) ⟨s, sent, C⟩ (List.replicate cycles .tick)
      ⟨s', sent', C'⟩) (D : Multiset Request) :
    ∃ D', Flow.Steps dram (Refreshes refresh) (s.flow (C.map Request.idle) D)
      (s'.flow (C'.map Request.idle) D') := by
  induction cycles generalizing s sent C D with
  | zero =>
    cases h
    exact ⟨D, .refl⟩
  | succ cycles ih =>
    rcases htick : s.tick dram refresh with ⟨s₁, callbacks⟩
    cases h with
    | cons hstep hrest =>
      simp only [History.Step, History.step, htick] at hstep
      obtain rfl := Except.ok.inj hstep
      obtain ⟨D₁, hone⟩ := tick_steps htick (C.map Request.idle) D
      rw [← List.map_append] at hone
      obtain ⟨D', hsteps⟩ := ih hrest D₁
      exact ⟨D', hone.trans hsteps⟩

/-! ### Before the first cycle -/

/-- No write waits, so no read is answered by one. -/
def NoWrites (s : PIMDRAMSystem δ) : Prop := ∀ c ∈ s.controllers, (c.buffer .write).buffer = []

theorem finished_noWrites {s : PIMDRAMSystem δ} (h : s.isFinished = true) : NoWrites s := by
  intro c hc
  have hfin := List.all_eq_true.mp h c hc
  simp only [PIMDRAMController.isFinished, ReqBuffer.empty, Bool.and_eq_true,
    List.isEmpty_iff] at hfin
  exact hfin.1.2

theorem send_noWrites {s s' : PIMDRAMSystem δ} {req : Request} (h : s.send req = .ok s')
    (htype : req.typeId ≠ .write) (hs : NoWrites s) : NoWrites s' := by
  obtain ⟨-, c, c', hc, hsend, rfl⟩ := send_cases h
  have hbuffer : c'.buffer .write = c.buffer .write := by
    unfold PIMDRAMController.send at hsend
    split_ifs at hsend
    · obtain rfl := Except.ok.inj hsend
      rfl
    · dsimp only at hsend
      split at hsend <;> first
        | cases hsend; rfl
        | cases hsend; exact absurd (by assumption) htype
        | cases hsend
  intro c₁ hc₁
  rcases List.mem_or_eq_of_mem_set hc₁ with hmem | rfl
  · exact hs c₁ hmem
  · rw [hbuffer]
    exact hs c (List.mem_of_getElem? hc)

/-- Only requests of one type, for which nothing was issued, and which all wait. -/
structure Loaded (type : RequestType) (s : PIMDRAMSystem δ) : Prop where
  pending : pending s.controllers = 0
  waiting : ∀ r ∈ waiting s.controllers,
    (r.callback = true ∧ r.typeId = type) ∧ r.Answerable ∧ ∀ k, r.issuedDramCmd k = 0

theorem finished_loaded {s : PIMDRAMSystem δ} (h : s.isFinished = true) (type : RequestType) :
    Loaded type s := by
  obtain ⟨hwait, hpend⟩ := finished_empty h
  exact ⟨hpend, by simp [hwait]⟩

theorem sendAll_loaded {cmds : List PIMCommand} {type : PIMCommandType} {s s' : PIMDRAMSystem δ}
    (htype : ∀ cmd ∈ cmds, cmd.pimcmdType = type)
    (hwrites : PIMController.getType type = .write ∨ NoWrites s)
    (hs : Loaded (PIMController.getType type) s) (h : PIMController.sendAll cmds s = .ok s') :
    s'.dram = s.dram ∧ Loaded (PIMController.getType type) s' := by
  induction cmds generalizing s with
  | nil =>
    obtain rfl := Except.ok.inj h
    exact ⟨rfl, hs⟩
  | cons cmd cmds ih =>
    obtain ⟨hcmd, htype⟩ := List.forall_mem_cons.mp htype
    obtain ⟨s₁, hsend, hrest⟩ := bind_eq_ok h
    obtain ⟨hdram, hanswer, clk, hsent⟩ := send_flow hsend
    have hkind : (PIMController.request cmd).typeId = PIMController.getType type := by
      rw [← hcmd]
      rfl
    rcases hsent with ⟨hwait, hpend⟩ | ⟨⟨hread, c, hc, hne⟩, -⟩
    · have hloaded : Loaded (PIMController.getType type) s₁ := by
        refine ⟨hpend.trans hs.pending, ?_⟩
        rw [hwait]
        intro r hr
        rcases Multiset.mem_add.mp hr with hr | hr
        · exact hs.waiting r hr
        · rw [Multiset.mem_singleton.mp hr]
          exact ⟨⟨rfl, hkind⟩, fun _ => hanswer, fun _ => rfl⟩
      have hnext : PIMController.getType type = .write ∨ NoWrites s₁ := by
        by_cases hw : PIMController.getType type = .write
        · exact .inl hw
        · exact .inr (send_noWrites hsend (by rwa [hkind]) (hwrites.resolve_left hw))
      obtain ⟨hdram', hend⟩ := ih htype hnext hloaded hrest
      exact ⟨hdram'.trans hdram, hend⟩
    · rw [hkind] at hread
      rcases hwrites with hw | hw
      · rw [hw] at hread
        cases hread
      · exact absurd (hw c hc) hne

/-- What a generated batch leaves in the buffers of a finished memory system. -/
theorem Handled.loaded {c : MemoryConfig} {pimHWConfig : PIMHWConfig} {request : DRAMRequest}
    {s loaded s' : PIMDRAMSystem δ} {cmds : List PIMCommand} {cycles : ℕ}
    {callbacks : List Request} (h : Handled dram refresh s cmds loaded cycles callbacks s')
    (hs : s.isFinished = true) (hcmds : generatePIMCommand c pimHWConfig request [] = .ok cmds) :
    loaded.dram = s.dram ∧ ∃ type, (∀ cmd ∈ cmds, cmd.pimcmdType = type) ∧
      Loaded (PIMController.getType type) loaded := by
  obtain ⟨⟨type, htype⟩, -⟩ := generatePIMCommand_uniform hcmds
  obtain ⟨hdram, hloaded⟩ :=
    sendAll_loaded htype (.inr (finished_noWrites hs)) (finished_loaded hs _) h.sent
  exact ⟨hdram, type, htype, hloaded⟩

end DRAMInterface
end LlmSystem
