import LlmSystem.Dram.Handled
import LlmSystem.Lib.Tally

/-!
What `HandleRequest` counts: one access for each command of a request, the row commands on its
behalf, and no refresh.
-/
namespace LlmSystem

open Relation Runs

/-- Commands that open or close rows. -/
def DRAMCommandType.ofRows : DRAMCommandType → Bool
  | .kACT | .kPRE | .kPREA | .kALL_PRE | .kALL_ACT => true
  | .kREAD | .kWRITE | .kALL_READ | .kALL_WRITE | .kREF => false

namespace IDRAM
variable {δ : Type}

/-- A prerequisite of a command is a command for rows. -/
def PreparesRows (dram : IDRAM δ) : Prop := ∀ d cmd v, dram.getPreqCommand d cmd v = cmd ∨
  (dram.getPreqCommand d cmd v).commandMeta.isAccessing = false ∧
    (dram.getPreqCommand d cmd v).commandMeta.isRefreshing = false

/-- `issued` observes the commands that the device is given. -/
structure Counts (dram : IDRAM δ) (issued : δ → DRAMCommandType → ℕ) : Prop where
  tick : ∀ d, issued (dram.tick d) = issued d
  issueCommand : ∀ d cmd v k, issued (dram.issueCommand d cmd v) k
    = issued d k + if cmd.countedAs = some k then 1 else 0

end IDRAM

theorem HBM3Command.countedAs_ofRows {cmd : HBM3Command} {k : DRAMCommandType}
    (hacc : cmd.commandMeta.isAccessing = false) (href : cmd.commandMeta.isRefreshing = false)
    (hk : cmd.countedAs = some k) : k.ofRows = true := by
  cases cmd <;> simp_all [commandMeta] <;> cases hk <;> rfl

namespace Request

/-- No access was issued for the request. -/
def Unserved (req : Request) : Prop :=
  req.callback = true → ∀ k, k.ofRows = false → req.issuedDramCmd k = 0

/-- One access was issued for the request, and it was its own. -/
def Served (req : Request) : Prop :=
  req.callback = true → ∀ k, k.ofRows = false →
    req.issuedDramCmd k = if req.finalCommand.countedAs = some k then 1 else 0

theorem Unserved.prepare {req : Request} {cmd : HBM3Command} (h : req.Unserved)
    (hacc : cmd.commandMeta.isAccessing = false) (href : cmd.commandMeta.isRefreshing = false) :
    (req.count cmd).Unserved := by
  intro hcall k hk
  rw [count_callback] at hcall
  have hne : cmd.countedAs ≠ some k := by
    intro hcount
    rw [HBM3Command.countedAs_ofRows hacc href hcount] at hk
    cases hk
  rw [count_issued, h hcall k hk, if_neg hne]

theorem Unserved.serve {req : Request} (h : req.Unserved) (clk : ℤ) :
    ((req.count req.finalCommand).departAt clk).Served := by
  intro hcall k hk
  have hcall' : req.callback = true := by simpa using hcall
  have hfinal : ((req.count req.finalCommand).departAt clk).finalCommand = req.finalCommand := by
    simp [finalCommand]
  rw [hfinal]
  show (req.count req.finalCommand).issuedDramCmd k = _
  rw [count_issued, h hcall' k hk, zero_add]

end Request

namespace Flow
variable {δ : Type} {dram : IDRAM δ} {refreshes : RamulatorAddrVec → Prop}

/-- The requests by how far they are. -/
structure Staged (x : Flow δ) : Prop where
  waiting : ∀ r ∈ x.waiting, r.Unserved
  pending : ∀ r ∈ x.pending, r.Served
  completed : ∀ r ∈ x.completed, r.Served

theorem Step.staged {x y : Flow δ} (hdram : dram.PreparesRows) (h : Step dram refreshes x y)
    (hx : x.Staged) : y.Staged := by
  obtain ⟨hwait, hpend, hcomp⟩ := hx
  cases h with
  | tick => exact ⟨hwait, hpend, hcomp⟩
  | refresh hv =>
    refine ⟨Multiset.forall_mem_cons.mpr ⟨?_, hwait⟩, hpend, hcomp⟩
    intro hcall
    cases hcall
  | @prepare d W P C D r hcmd =>
    obtain ⟨hr, hwait⟩ := Multiset.forall_mem_cons.mp hwait
    obtain ⟨hacc, href⟩ := (hdram d r.finalCommand r.addrVec).resolve_left hcmd
    exact ⟨Multiset.forall_mem_cons.mpr ⟨hr.prepare hacc href, hwait⟩, hpend, hcomp⟩
  | read hreads =>
    obtain ⟨hr, hwait⟩ := Multiset.forall_mem_cons.mp hwait
    exact ⟨hwait, Multiset.forall_mem_cons.mpr ⟨hr.serve _, hpend⟩, hcomp⟩
  | write hwrites =>
    obtain ⟨hr, hwait⟩ := Multiset.forall_mem_cons.mp hwait
    exact ⟨hwait, hpend, by simpa [or_imp, forall_and] using ⟨hcomp, hr.serve _⟩⟩
  | drop hreads hwrites => exact ⟨(Multiset.forall_mem_cons.mp hwait).2, hpend, hcomp⟩
  | callback hcall =>
    obtain ⟨hr, hpend⟩ := Multiset.forall_mem_cons.mp hpend
    exact ⟨hwait, hpend, by simpa [or_imp, forall_and] using ⟨hcomp, hr⟩⟩
  | leave hcall => exact ⟨hwait, (Multiset.forall_mem_cons.mp hpend).2, hcomp⟩

theorem Steps.staged {x y : Flow δ} (hdram : dram.PreparesRows) (h : Steps dram refreshes x y)
    (hx : x.Staged) : y.Staged := by
  induction h with
  | refl => exact hx
  | tail _ hstep ih => exact hstep.staged hdram ih

/-- The requests without a callback are refreshes, before any access. -/
structure Maintained (refreshes : RamulatorAddrVec → Prop) (x : Flow δ) : Prop where
  waiting : ∀ r ∈ x.waiting, r.callback = true ∨ r.typeId = .allBankRefresh ∧
    refreshes r.addrVec ∧ ∀ k, k.ofRows = false → r.issuedDramCmd k = 0
  pending : ∀ r ∈ x.pending, r.callback = true
  dropped : ∀ r ∈ x.dropped, refreshes r.addrVec ∧
    ∀ k, k.ofRows = false → k ≠ .kREF → r.issuedDramCmd k = 0

theorem Step.maintained {x y : Flow δ} (hdram : dram.PreparesRows) (h : Step dram refreshes x y)
    (hsound : x.Sound) (hx : x.Maintained refreshes) : y.Maintained refreshes := by
  obtain ⟨hwait, hpend, hdrop⟩ := hx
  cases h with
  | tick => exact ⟨hwait, hpend, hdrop⟩
  | refresh hv =>
    exact ⟨Multiset.forall_mem_cons.mpr ⟨.inr ⟨rfl, hv, fun _ _ => rfl⟩, hwait⟩, hpend, hdrop⟩
  | @prepare d W P C D r hcmd =>
    obtain ⟨hr, hwait⟩ := Multiset.forall_mem_cons.mp hwait
    refine ⟨Multiset.forall_mem_cons.mpr ⟨?_, hwait⟩, hpend, hdrop⟩
    obtain ⟨hacc, href⟩ := (hdram d r.finalCommand r.addrVec).resolve_left hcmd
    rw [Request.count_callback, Request.count_typeId, Request.count_addrVec]
    rcases hr with hcall | ⟨htype, hv, hissued⟩
    · exact .inl hcall
    · refine .inr ⟨htype, hv, fun k hk => ?_⟩
      have hne : (InService.preq dram d r).countedAs ≠ some k := by
        intro hcount
        rw [HBM3Command.countedAs_ofRows hacc href hcount] at hk
        cases hk
      rw [Request.count_issued, hissued k hk, if_neg hne]
  | @read d W P C D r clk hreads =>
    obtain ⟨hr, hwait⟩ := Multiset.forall_mem_cons.mp hwait
    refine ⟨hwait, Multiset.forall_mem_cons.mpr ⟨?_, hpend⟩, hdrop⟩
    rcases hr with hcall | ⟨htype, -⟩
    · simpa using hcall
    · rw [htype] at hreads
      cases hreads
  | write hwrites => exact ⟨(Multiset.forall_mem_cons.mp hwait).2, hpend, hdrop⟩
  | @drop d W P C D r hreads hwrites =>
    obtain ⟨hr, hwait⟩ := Multiset.forall_mem_cons.mp hwait
    refine ⟨hwait, hpend, Multiset.forall_mem_cons.mpr ⟨?_, hdrop⟩⟩
    rcases hr with hcall | ⟨htype, hv, hissued⟩
    · rcases (Multiset.forall_mem_cons.mp hsound.waiting).1 hcall with h | h
      · rw [h] at hreads
        cases hreads
      · exact absurd ⟨h, hcall⟩ hwrites
    · refine ⟨by simpa using hv, fun k hk href => ?_⟩
      have hfinal : r.finalCommand.countedAs = some .kREF := by
        rw [Request.finalCommand, htype]
        rfl
      rw [Request.count_issued, hissued k hk, hfinal, if_neg (by simpa using href.symm)]
  | callback hcall => exact ⟨hwait, (Multiset.forall_mem_cons.mp hpend).2, hdrop⟩
  | leave hcall =>
    have htrue := (Multiset.forall_mem_cons.mp hpend).1
    rw [hcall] at htrue
    cases htrue

theorem Steps.maintained {x y : Flow δ} (hdram : dram.PreparesRows)
    (h : Steps dram refreshes x y) (hsound : x.Sound) (hx : x.Maintained refreshes) :
    y.Maintained refreshes := by
  induction h with
  | refl => exact hx
  | tail hsteps hstep ih => exact hstep.maintained hdram (Steps.sound hsteps hsound) ih

/-- The commands of a kind that were issued for some requests. -/
def issuedFor (k : DRAMCommandType) (rs : Multiset Request) : ℕ :=
  (rs.map fun r => r.issuedDramCmd k).sum

/-- Each command the device is given is counted with one request. -/
theorem Step.issued {x y : Flow δ} {issued : δ → DRAMCommandType → ℕ} (hdram : dram.Counts issued)
    (h : Step dram refreshes x y) (k : DRAMCommandType) :
    issued y.device k + issuedFor k x.all = issued x.device k + issuedFor k y.all := by
  cases h <;>
    simp [all, issuedFor, hdram.tick, hdram.issueCommand, Request.count_issued, Request.departAt,
      Request.refresh, ← Multiset.coe_add] <;>
    omega

theorem Steps.issued {x y : Flow δ} {issued : δ → DRAMCommandType → ℕ}
    (hdram : dram.Counts issued) (h : Steps dram refreshes x y) (k : DRAMCommandType) :
    issued y.device k + issuedFor k x.all = issued x.device k + issuedFor k y.all := by
  induction h with
  | refl => rfl
  | tail _ hstep ih =>
    have hone := hstep.issued hdram k
    omega

end Flow

namespace DRAMInterface

open PIMDRAMSystem

variable {δ : Type} {dram : IDRAM δ} {refresh : ℕ → ℤ → List RamulatorAddrVec}

theorem Loaded.staged {type : RequestType} {s : PIMDRAMSystem δ} (h : Loaded type s)
    (D : Multiset Request) : (s.flow [] D).Staged := by
  refine ⟨fun r hr _ k _ => (h.waiting r hr).2.2 k, ?_, by simp [flow]⟩
  simp [flow, h.pending]

/-- The commands of a type in a batch. -/
def ofType (type : RequestType) (cmds : List PIMCommand) : ℕ :=
  cmds.countP fun cmd => PIMController.getType cmd.pimcmdType = type

/-- The accesses that are counted for a batch are its own commands. -/
theorem Handled.issued_access {s loaded s' : PIMDRAMSystem δ} {cmds : List PIMCommand}
    {cycles : ℕ} {callbacks : List Request} (hdram : dram.PreparesRows)
    (h : Handled dram refresh s cmds loaded cycles callbacks s') (hs : s.isFinished = true)
    {type : RequestType} (hloaded : Loaded type loaded) {k : DRAMCommandType}
    (hk : k.ofRows = false) :
    (callbacks.map fun req => req.issuedDramCmd k).sum = cmds.countP fun cmd =>
      (PIMController.getType cmd.pimcmdType).translation.countedAs = some k := by
  obtain ⟨D, hsteps⟩ := ticks_steps h.ticks 0
  have hend := hsteps.staged hdram (hloaded.staged 0)
  have hcalled : ∀ r ∈ callbacks, r.callback = true := by
    intro r hr
    obtain ⟨cmd, -, hfixed⟩ := List.mem_map.mp
      ((h.callbacks_perm hs).mem_iff.mp (List.mem_map_of_mem hr))
    simp only [Request.fixed, Prod.mk.injEq] at hfixed
    exact hfixed.2.2.2.2.symm
  have hone : ∀ r ∈ callbacks, r.issuedDramCmd k
      = if r.fixed.2.2.1.translation.countedAs = some k then 1 else 0 :=
    fun r hr => hend.completed r.idle (List.mem_map_of_mem hr) (hcalled r hr) k hk
  rw [List.map_congr_left hone, Tally.sum_indicator]
  have hperm := (h.callbacks_perm hs).countP_eq fun x => x.2.2.1.translation.countedAs = some k
  rwa [List.countP_map, List.countP_map] at hperm

/-- The device has had the commands that are counted for a batch, and those of the refreshes. -/
theorem Handled.issued_device {s loaded s' : PIMDRAMSystem δ} {cmds : List PIMCommand}
    {cycles : ℕ} {callbacks : List Request} {issued : δ → DRAMCommandType → ℕ}
    (hdram : dram.PreparesRows) (hissued : dram.Counts issued)
    (h : Handled dram refresh s cmds loaded cycles callbacks s') {type : RequestType}
    (hloaded : Loaded type loaded) (k : DRAMCommandType) :
    ∃ n, issued s'.dram k
        = issued loaded.dram k + (callbacks.map fun req => req.issuedDramCmd k).sum + n ∧
      (k.ofRows = false ∧ k ≠ .kREF ∨ (∀ channel clk, refresh channel clk = []) → n = 0) := by
  obtain ⟨D, hsteps⟩ := ticks_steps h.ticks 0
  have hsound : (loaded.flow [] 0).Sound :=
    ⟨fun r hr => (hloaded.waiting r hr).2.1, by simp [flow], by simp [flow]⟩
  have hstart : (loaded.flow [] 0).Maintained (Refreshes refresh) :=
    ⟨fun r hr => .inl (hloaded.waiting r hr).1.1, by simp [flow, hloaded.pending], by simp [flow]⟩
  have hdropped := (hsteps.maintained hdram hsound hstart).dropped
  have hbalance := hsteps.issued hissued k
  obtain ⟨hwait, hpend⟩ := finished_empty h.finished
  have hbefore : Flow.issuedFor k (loaded.flow [] 0).all = 0 := by
    refine Multiset.sum_eq_zero fun n hn => ?_
    obtain ⟨r, hr, rfl⟩ := Multiset.mem_map.mp hn
    simp only [Flow.all, flow, hloaded.pending, Multiset.coe_nil, add_zero] at hr
    exact (hloaded.waiting r hr).2.2 k
  have hafter : Flow.issuedFor k (s'.flow (callbacks.map Request.idle) D).all
      = (callbacks.map fun req => req.issuedDramCmd k).sum + Flow.issuedFor k D := by
    simp only [Flow.all, flow, hwait, hpend, Flow.issuedFor, zero_add, Multiset.map_add,
      Multiset.sum_add, Multiset.map_coe, Multiset.sum_coe, List.map_map]
    rfl
  rw [List.map_nil, hbefore, hafter, add_zero] at hbalance
  refine ⟨Flow.issuedFor k D, hbalance.trans (add_assoc _ _ _).symm, fun hk => ?_⟩
  refine Multiset.sum_eq_zero fun n hn => ?_
  obtain ⟨r, hr, rfl⟩ := Multiset.mem_map.mp hn
  obtain ⟨⟨channel, clk, hv⟩, hnone⟩ := hdropped r hr
  rcases hk with ⟨hk, href⟩ | hnever
  · exact hnone k hk href
  · simp [hnever] at hv

/-! ### The counters of a status -/

/-- The counter for a kind of command; precharges have none. -/
def counter (status : ExecStatus) : DRAMCommandType → Option ℕ
  | .kACT => some status.actCount
  | .kREAD => some status.readCount
  | .kWRITE => some status.writeCount
  | .kALL_ACT => some status.allActCount
  | .kALL_READ => some status.allReadCount
  | .kALL_WRITE => some status.allWriteCount
  | .kREF => some status.refCount
  | .kPRE | .kPREA | .kALL_PRE => none

theorem counter_updateStatus (memoryScaleFactor : ℚ) (status : ExecStatus)
    (pimrequest : Simulated) (k : DRAMCommandType) :
    counter (updateStatus memoryScaleFactor status pimrequest) k
      = (counter status k).map (· + pimrequest.issuedDramCmd k) := by
  cases k <;> rfl

section Requests
variable {c : MemoryConfig} {memoryScaleFactor : ℚ} {pimHWConfig : PIMHWConfig} {fuel : ℕ}
  {s s' : PIMDRAMSystem δ} {status status' : ExecStatus}

/-- What some commands add to a counter, beside what they are to the device: the accesses are the
commands themselves, and the rest of what the device was given is for refreshes. -/
def Adds (dram : IDRAM δ) (refresh : ℕ → ℤ → List RamulatorAddrVec) (cmds : List PIMCommand)
    (d d' : δ) (k : DRAMCommandType) (n : ℕ) : Prop :=
  (k.ofRows = false → n = cmds.countP fun cmd =>
    (PIMController.getType cmd.pimcmdType).translation.countedAs = some k) ∧
  ∀ issued, dram.Counts issued → issued d k + n ≤ issued d' k ∧
    (k.ofRows = false ∧ k ≠ .kREF ∨ (∀ channel clk, refresh channel clk = []) →
      issued d' k = issued d k + n)

theorem Adds.append {cmds cmds' : List PIMCommand} {d d' d'' : δ} {k : DRAMCommandType} {n n' : ℕ}
    (h : Adds dram refresh cmds d d' k n) (h' : Adds dram refresh cmds' d' d'' k n') :
    Adds dram refresh (cmds ++ cmds') d d'' k (n + n') := by
  refine ⟨fun hk => ?_, fun issued hissued => ?_⟩
  · rw [List.countP_append, h.1 hk, h'.1 hk]
  · obtain ⟨hle, heq⟩ := h.2 issued hissued
    obtain ⟨hle', heq'⟩ := h'.2 issued hissued
    refine ⟨by omega, fun hk => ?_⟩
    rw [heq' hk, heq hk, add_assoc]

/-- One round of the loop. -/
theorem handle_counts {request : DRAMRequest} (hdram : dram.PreparesRows)
    (hs : s.isFinished = true)
    (h : handle dram refresh c memoryScaleFactor pimHWConfig fuel (s, status) request
      = .ok (s', status')) :
    s'.isFinished = true ∧ ∃ cmds, generatePIMCommand c pimHWConfig request [] = .ok cmds ∧
      ∀ k, ∃ n, counter status' k = (counter status k).map (· + n) ∧
        Adds dram refresh cmds s.dram s'.dram k n := by
  obtain ⟨cmds, loaded, cycles, callbacks, hcmds, hhandled, rfl⟩ := handle_handled h
  obtain ⟨hdevice, type, -, hloaded⟩ := hhandled.loaded hs hcmds
  refine ⟨hhandled.finished, cmds, hcmds, fun k => ?_⟩
  refine ⟨(callbacks.map fun req => req.issuedDramCmd k).sum, ?_,
    fun hk => hhandled.issued_access hdram hs hloaded hk, fun issued hissued => ?_⟩
  · rw [counter_updateStatus, PIMController.foldl_setEndTime]
    simp
  · obtain ⟨m, hbalance, hm⟩ := hhandled.issued_device hdram hissued hloaded k
    rw [hdevice] at hbalance
    exact ⟨by omega, fun hk => by rw [hbalance, hm hk, add_zero]⟩

theorem foldlM_handle_counts {requests : List DRAMRequest} (hdram : dram.PreparesRows)
    (hs : s.isFinished = true)
    (h : requests.foldlM (handle dram refresh c memoryScaleFactor pimHWConfig fuel) (s, status)
      = .ok (s', status')) :
    s'.isFinished = true ∧ ∃ batches,
      requests.mapM (fun request => generatePIMCommand c pimHWConfig request []) = .ok batches ∧
      ∀ k, ∃ n, counter status' k = (counter status k).map (· + n) ∧
        Adds dram refresh batches.flatten s.dram s'.dram k n := by
  induction requests generalizing s status with
  | nil =>
    obtain ⟨rfl, rfl⟩ := Prod.mk.inj (Except.ok.inj h)
    refine ⟨hs, [], rfl, fun k => ⟨0, ?_, fun _ => rfl, fun issued _ => ⟨le_rfl, fun _ => rfl⟩⟩⟩
    cases counter status k <;> rfl
  | cons request requests ih =>
    rw [List.foldlM_cons] at h
    obtain ⟨⟨s₁, status₁⟩, hone, hrest⟩ := bind_eq_ok h
    obtain ⟨hs₁, cmds, hcmds, hcounts⟩ := handle_counts hdram hs hone
    obtain ⟨hs', batches, hbatches, hcounts'⟩ := ih hs₁ hrest
    refine ⟨hs', cmds :: batches, ?_, fun k => ?_⟩
    · rw [List.mapM_cons, hcmds, hbatches]
      rfl
    · obtain ⟨n, hcounter, hadds⟩ := hcounts k
      obtain ⟨n', hcounter', hadds'⟩ := hcounts' k
      refine ⟨n + n', ?_, by simpa using hadds.append hadds'⟩
      rw [hcounter', hcounter, Option.map_map]
      congr 1
      funext m
      exact add_assoc m n n'

/-- The counters of accesses after a list of requests are the numbers of their commands; the
refreshes the device was given are in none of them. -/
theorem handleRequests_counts {requests : List DRAMRequest} (hdram : dram.PreparesRows)
    (hs : s.isFinished = true)
    (h : handleRequests dram refresh c memoryScaleFactor pimHWConfig fuel requests (s, status)
      = .ok (s', status')) :
    s'.isFinished = true ∧ ∃ batches,
      requests.mapM (fun request => generatePIMCommand c pimHWConfig request []) = .ok batches ∧
      status'.readCount = ofType .read batches.flatten ∧
      status'.writeCount = ofType .write batches.flatten ∧
      status'.allReadCount = ofType .allRead batches.flatten ∧
      status'.allWriteCount = ofType .allWrite batches.flatten ∧ status'.refCount = 0 := by
  obtain ⟨hs', batches, hbatches, hcounts⟩ := foldlM_handle_counts hdram hs h
  have hcount : ∀ k, k.ofRows = false → counter status' k = (counter {} k).map (· +
      batches.flatten.countP fun cmd =>
        (PIMController.getType cmd.pimcmdType).translation.countedAs = some k) := by
    intro k hk
    obtain ⟨n, hcounter, hadds⟩ := hcounts k
    rw [hcounter, hadds.1 hk]
    rfl
  have htype : ∀ (k : DRAMCommandType) (type : RequestType), k.ofRows = false →
      (∀ t, (PIMController.getType t).translation.countedAs = some k ↔
        PIMController.getType t = type) →
      counter status' k = (counter {} k).map (· + ofType type batches.flatten) := by
    intro k type hk hiff
    simp only [hcount k hk, ofType, hiff]
  have hread := htype .kREAD .read rfl (by rintro (_ | _) <;> decide)
  have hwrite := htype .kWRITE .write rfl (by rintro (_ | _) <;> decide)
  have hallRead := htype .kALL_READ .allRead rfl (by rintro (_ | _) <;> decide)
  have hallWrite := htype .kALL_WRITE .allWrite rfl (by rintro (_ | _) <;> decide)
  have href := htype .kREF .allBankRefresh rfl (by rintro (_ | _) <;> decide)
  have hnone : ofType .allBankRefresh batches.flatten = 0 := by
    refine List.countP_eq_zero.mpr fun cmd _ => ?_
    cases cmd.pimcmdType <;> decide
  rw [hnone] at href
  simp only [counter, Option.map_some, zero_add,
    Option.some.injEq] at hread hwrite hallRead hallWrite href
  exact ⟨hs', batches, hbatches, hread, hwrite, hallRead, hallWrite, href⟩

theorem idram_preparesRows (gap readLatency : ℤ) :
    (OpenRows.idram gap readLatency).PreparesRows := by
  intro d cmd v
  show OpenRows.preq d cmd v = cmd ∨ (OpenRows.preq d cmd v).commandMeta.isAccessing = false ∧
    (OpenRows.preq d cmd v).commandMeta.isRefreshing = false
  unfold OpenRows.preq
  cases cmd <;> dsimp only <;> first | exact .inl rfl | skip
  case refab =>
    split_ifs
    · exact .inl rfl
    · exact .inr ⟨rfl, rfl⟩
  all_goals
    split
    · exact .inr ⟨rfl, rfl⟩
    · split_ifs
      · exact .inl rfl
      · exact .inr ⟨rfl, rfl⟩

theorem idram_counts (gap readLatency : ℤ) : (OpenRows.idram gap readLatency).Counts
    fun d k => d.commands.countP fun cmd => cmd.countedAs = some k where
  tick _ := rfl
  issueCommand d cmd v k := by
    show List.countP _ (d.commands ++ [cmd]) = _
    rw [List.countP_append, List.countP_singleton]
    simp

/-- A read and a write of two commands each, with a refresh between them. -/
theorem read_write_run : ∃ x, handleRequests (OpenRows.idram 1 2)
    (fun _ clk => if clk = 5 then [⟨0, 0, 0, 0, 0, 0, 0⟩] else []) hbm3_80GB 1 {} 20
    [⟨.kRead, [(.kDRAM, ⟨0, 5120⟩)]⟩, ⟨.kWrite, [(.kDRAM, ⟨0, 5120⟩)]⟩] (create 1 {}, {}) = .ok x ∧
      x.2.readCount = 2 ∧ x.2.writeCount = 2 ∧
      (x.1.dram.commands.countP fun cmd => cmd.countedAs = some .kREF) = 1 := by
  obtain ⟨x, hok, hp⟩ := exists_ok_of_any (p := fun x => x.2.readCount == 2 &&
    (x.2.writeCount == 2 && (x.1.dram.commands.countP fun cmd => cmd.countedAs = some .kREF) == 1))
    (x := handleRequests (OpenRows.idram 1 2)
      (fun _ clk => if clk = 5 then [⟨0, 0, 0, 0, 0, 0, 0⟩] else []) hbm3_80GB 1 {} 20
      [⟨.kRead, [(.kDRAM, ⟨0, 5120⟩)]⟩, ⟨.kWrite, [(.kDRAM, ⟨0, 5120⟩)]⟩] (create 1 {}, {}))
    (by decide +kernel)
  exact ⟨x, hok, by simpa using hp⟩

/-- The counters of that run. -/
theorem read_write_counts : ∃ status : ExecStatus, status.readCount = 2 ∧ status.writeCount = 2 ∧
    status.refCount = 0 := by
  obtain ⟨x, hok, hreads, hwrites, -⟩ := read_write_run
  obtain ⟨-, batches, -, -, -, -, -, href⟩ :=
    handleRequests_counts (idram_preparesRows 1 2) (by decide) hok
  exact ⟨x.2, hreads, hwrites, href⟩

/-- No counter is above what the device was given; the counters of accesses are exact, and without
refreshes those of activations are too. -/
theorem handleRequests_issued {requests : List DRAMRequest}
    {issued : δ → DRAMCommandType → ℕ} (hdram : dram.PreparesRows) (hissued : dram.Counts issued)
    (hs : s.isFinished = true)
    (h : handleRequests dram refresh c memoryScaleFactor pimHWConfig fuel requests (s, status)
      = .ok (s', status')) {k : DRAMCommandType} {n : ℕ} (hn : counter status' k = some n) :
    issued s.dram k + n ≤ issued s'.dram k ∧
      (k.ofRows = false ∧ k ≠ .kREF ∨ (∀ channel clk, refresh channel clk = []) →
        issued s'.dram k = issued s.dram k + n) := by
  obtain ⟨-, batches, -, hcounts⟩ := foldlM_handle_counts hdram hs h
  obtain ⟨m, hcounter, hadds⟩ := hcounts k
  have hmn : m = n := by
    rw [hn] at hcounter
    cases k <;> simpa [counter, resetCounter] using hcounter.symm
  rw [← hmn]
  exact hadds.2 issued hissued

/-- The refresh of that run is not counted. -/
theorem read_write_issued : ∃ x : PIMDRAMSystem OpenRows × ExecStatus,
    x.2.readCount = 2 ∧ (x.1.dram.commands.countP fun cmd => cmd.countedAs = some .kREAD) = 2 ∧
      (x.1.dram.commands.countP fun cmd => cmd.countedAs = some .kREF) = 1 := by
  obtain ⟨x, hok, hreads, -, hrefreshes⟩ := read_write_run
  obtain ⟨-, hexact⟩ := handleRequests_issued (k := .kREAD) (idram_preparesRows 1 2)
    (idram_counts 1 2) (by decide) hok rfl
  have hdevice := hexact (.inl ⟨rfl, by decide⟩)
  refine ⟨x, hreads, ?_, hrefreshes⟩
  rw [hreads] at hdevice
  exact hdevice

end Requests

end DRAMInterface
end LlmSystem
