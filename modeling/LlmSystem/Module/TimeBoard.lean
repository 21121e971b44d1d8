import LlmSystem.Lib.Nesting
import LlmSystem.Module.WorkSteps
import Mathlib.Data.List.Infix

/-!
The time stamps of a device. `Module::operator()` appends to the graph of its device the call,
then what its forward function calls, then the return, so a graph is a walk over the forest of
its calls; `set_stamp` rebuilds that forest as a tree of stamps, however often the walk stops.
-/
namespace LlmSystem

open Runs Nesting

variable {N : ℕ} {τ σ : Type}

/-- A `TimeStamp`: the board at its push, and from its pop on what was added to the board in
between. -/
structure Stamp where
  name : String := ""
  status : StatusBoard := {}
  startTime : ℚ := 0
  endTime : ℚ := 0
  /-- What the pop has charged. The source does not keep it and no step reads it. -/
  charged : ExecStatus := {}

namespace Stamp

/-- `set_status`; its choice of clocks by processor is overwritten at once. -/
def setStatus (output : StatusBoard) (e : ExecStatus) (x : Stamp) : Stamp :=
  let flops := output.flops - x.status.flops
  let memorySize := output.memorySize - x.status.memorySize
  { x with
    startTime := x.status.deviceTime
    endTime := output.deviceTime
    charged := e
    status :=
      { x.status with
        actEnergy := output.actEnergy - x.status.actEnergy
        readEnergy := output.readEnergy - x.status.readEnergy
        writeEnergy := output.writeEnergy - x.status.writeEnergy
        allActEnergy := output.allActEnergy - x.status.allActEnergy
        allReadEnergy := output.allReadEnergy - x.status.allReadEnergy
        allWriteEnergy := output.allWriteEnergy - x.status.allWriteEnergy
        macEnergy := output.macEnergy - x.status.macEnergy
        memoryUtil := output.memoryUtil
        computeUtil := output.computeUtil
        processorType := output.processorType
        flops := flops
        memorySize := memorySize
        qkDuration := output.qkDuration - x.status.qkDuration
        softmaxDuration := output.softmaxDuration - x.status.softmaxDuration
        scoreVDuration := output.scoreVDuration - x.status.scoreVDuration
        kvQuantDuration := output.kvQuantDuration - x.status.kvQuantDuration
        pimRbDuration := output.pimRbDuration - x.status.pimRbDuration
        pimPeDuration := output.pimPeDuration - x.status.pimPeDuration
        pimRbQk := output.pimRbQk - x.status.pimRbQk
        pimPeQk := output.pimPeQk - x.status.pimPeQk
        pimRbSv := output.pimRbSv - x.status.pimRbSv
        pimPeSv := output.pimPeSv - x.status.pimPeSv
        opb := if memorySize ≠ 0 then flops / memorySize else x.status.opb } }

def getDuration (x : Stamp) : ℚ := x.endTime - x.startTime

/-- `name.find(..) != npos`. -/
def hasName (name : String) (x : Stamp) : Bool := decide (name.toList <:+: x.name.toList)

end Stamp

/-- The stamps below `top`, with the path to `current_stamp`. -/
structure TimeBoard where
  top : Stamp := {}
  tree : Cursor Stamp := {}
  /-- `current_stamp` is not null, as the parent of `top` is. -/
  valid : Bool := true

namespace TimeBoard

def pushTimestamp (status : StatusBoard) (name : String) (b : TimeBoard) :
    Except String TimeBoard :=
  if b.valid then .ok { b with tree := b.tree.push { name, status } }
  else .error "No stamp in TimeBoard"

def popTimestamp (status : StatusBoard) (e : ExecStatus) (b : TimeBoard) :
    Except String TimeBoard :=
  if b.valid then
    match b.tree.pop (·.setStatus status e) with
    | some tree => .ok { b with tree }
    | none => .ok { b with top := b.top.setStatus status e, valid := false }
  else .error "current_stamp is null"

def resetTimeboard (b : TimeBoard) : TimeBoard := { b with tree := {}, valid := true }

/-- `find_stamp` from `top` on. -/
def findStamp (name : String) (b : TimeBoard) : List Stamp :=
  if b.top.hasName name then [b.top] else b.tree.forest.select (·.hasName name)

end TimeBoard

/-- A call of `Module::operator()`. -/
structure Call (N : ℕ) (τ σ : Type) where
  name : String
  module : Module N τ σ
  input : GraphInput τ
  output : GraphInput τ

/-- What `push_module_graph` and `pop_module_graph` append for a call. -/
def Call.node : Event (Call N τ σ) → ModuleGraph N τ σ
  | .push c => { module := some c.module, input := c.input }
  | .pop c => { module := none, input := c.output }

/-- What `set_stamp` does to the time board, once the status is set. -/
def TimeBoard.stamp (status : StatusBoard) (e : ExecStatus) (b : TimeBoard) :
    Event (Call N τ σ) → Except String TimeBoard
  | .push c => b.pushTimestamp status c.name
  | .pop _ => b.popTimestamp status e

/-- Apart from a return too many, a stamp is opened or closed. -/
theorem TimeBoard.stamp_cases {status : StatusBoard} {e : ExecStatus} {b b' : TimeBoard}
    {event : Event (Call N τ σ)} (h : b.stamp status e event = .ok b') (hvalid : b'.valid = true) :
    (∃ c, event = .push c ∧ b' = { b with tree := b.tree.push { name := c.name, status } }) ∨
      ∃ c tree, event = .pop c ∧ b.tree.pop (·.setStatus status e) = some tree ∧
        b' = { b with tree } := by
  cases event with
  | push c =>
    unfold TimeBoard.stamp pushTimestamp at h
    dsimp only at h
    split_ifs at h
    exact .inl ⟨c, rfl, (Except.ok.inj h).symm⟩
  | pop c =>
    unfold TimeBoard.stamp popTimestamp at h
    dsimp only at h
    split_ifs at h
    cases hpop : b.tree.pop (·.setStatus status e) with
    | none =>
      rw [hpop] at h
      obtain rfl := Except.ok.inj h
      cases hvalid
    | some tree =>
      rw [hpop] at h
      exact .inr ⟨c, tree, rfl, rfl, (Except.ok.inj h).symm⟩

/-- The calls of each device, as they were nested when the graphs were built. -/
structure CallGraphs (N : ℕ) (τ σ : Type) where
  calls : Fin N → Forest (Call N τ σ)
  dramPowers : Fin N → ProcessorType → DramEnergy

/-- The cluster with the time boards of its devices. -/
structure TimedState (N : ℕ) (τ σ : Type) where
  cluster : ClusterState N τ σ
  board : Fin N → TimeBoard

namespace CallGraphs

def toGraphs (C : CallGraphs N τ σ) : Graphs N τ σ where
  graph d := (C.calls d).events.map Call.node
  dramPowers := C.dramPowers

variable [DecidableEq τ] (C : CallGraphs N τ σ)

/-- `set_stamp`. -/
def setStamp (d : Fin N) (e : Event (Call N τ σ)) (s : TimedState N τ σ) :
    Except String (TimedState N τ σ) :=
  let x := s.cluster.device d
  if x.stamped x.current then .ok s
  else do
    let cluster := C.toGraphs.stamp d (Call.node e) s.cluster
    let board ← (s.board d).stamp (cluster.device d).work.status x.work.execStatus e
    .ok ⟨cluster, Function.update s.board d board⟩

/-- The loop of `TopModuleGraph::run`, from `current_module` on. -/
def runFrom (d : Fin N) : List (Event (Call N τ σ)) → TimedState N τ σ →
    Except String (TimedState N τ σ)
  | [], s => .ok s
  | e :: rest, s => do
    let s ← C.setStamp d e s
    let (done, cluster) ← (Call.node e).run d s.cluster
    if done then runFrom d rest { s with cluster := cluster.modify d (·.next) }
    else .ok { s with cluster }

def run (d : Fin N) (s : TimedState N τ σ) : Except String (TimedState N τ σ) :=
  C.runFrom d ((C.calls d).events.drop (s.cluster.device d).current) s

/-- `restartModuleGraph` with its `reset_timeboard`. -/
def restart (s : TimedState N τ σ) : Except String (TimedState N τ σ) := do
  let cluster ← C.toGraphs.restartModuleGraph s.cluster
  .ok ⟨cluster, fun d => (s.board d).resetTimeboard⟩

/-- The device is at `e` in its walk. -/
def At (d : Fin N) (s : TimedState N τ σ) (e : Event (Call N τ σ)) : Prop :=
  (C.calls d).events[(s.cluster.device d).current]? = some e

/-- A run in small steps: `set_stamp`, and `ModuleGraph::run` with the move of
`current_module`. -/
inductive Move : TimedState N τ σ → Fin N → TimedState N τ σ → Prop
  | stamp {s s' : TimedState N τ σ} {d : Fin N} {e : Event (Call N τ σ)} (hat : C.At d s e)
      (h : C.setStamp d e s = .ok s') : Move s d s'
  | advance {s : TimedState N τ σ} {d : Fin N} {e : Event (Call N τ σ)}
      {cluster : ClusterState N τ σ} (hat : C.At d s e)
      (hstamped : (s.cluster.device d).stamped (s.cluster.device d).current = true)
      (h : (Call.node e).run d s.cluster = .ok (true, cluster)) :
      Move s d { s with cluster := cluster.modify d (·.next) }
  | block {s : TimedState N τ σ} {d : Fin N} {e : Event (Call N τ σ)}
      {cluster : ClusterState N τ σ} (hat : C.At d s e)
      (h : (Call.node e).run d s.cluster = .ok (false, cluster)) :
      Move s d { s with cluster }

variable {C}

omit [DecidableEq τ] in
/-- A position that has been stamped is not stamped again. -/
theorem setStamp_cases {s s' : TimedState N τ σ} {d : Fin N} {e : Event (Call N τ σ)}
    (h : C.setStamp d e s = .ok s') :
    s'.cluster = C.toGraphs.stamp d (Call.node e) s.cluster ∧
    (((s.cluster.device d).stamped (s.cluster.device d).current = true ∧ s' = s) ∨
      ((s.cluster.device d).stamped (s.cluster.device d).current = false ∧ ∃ board,
        (s.board d).stamp (s'.cluster.device d).work.status
          (s.cluster.device d).work.execStatus e = .ok board ∧
        s'.board = Function.update s.board d board)) := by
  unfold setStamp at h
  dsimp only at h
  split_ifs at h with hstamped
  · obtain rfl := Except.ok.inj h
    refine ⟨?_, .inl ⟨hstamped, rfl⟩⟩
    have hsame : (s.cluster.device d).setStamp (C.toGraphs.dramPowers d) (Call.node e)
        = s.cluster.device d := if_pos hstamped
    unfold Graphs.stamp ClusterState.modify
    dsimp only
    rw [hsame, Function.update_eq_self]
  · obtain ⟨board, hboard, h⟩ := bind_eq_ok h
    obtain rfl := Except.ok.inj h
    exact ⟨rfl, .inr ⟨by simpa using hstamped, board, hboard, rfl⟩⟩

omit [DecidableEq τ] in
theorem setStamp_frame {s s' : TimedState N τ σ} {d : Fin N} {e : Event (Call N τ σ)}
    (h : C.setStamp d e s = .ok s') :
    (∀ e', (s'.cluster.device e').current = (s.cluster.device e').current) ∧
      (s'.cluster.device d).stamped
        = Function.update (s.cluster.device d).stamped (s.cluster.device d).current true ∧
      ∀ e', e' ≠ d → s'.cluster.device e' = s.cluster.device e' ∧ s'.board e' = s.board e' := by
  obtain ⟨hcluster, hboard⟩ := setStamp_cases h
  rw [hcluster]
  refine ⟨fun e' => (Graphs.stamp_frame _ _ e').1, ?_, fun e' he => ⟨?_, ?_⟩⟩
  · unfold Graphs.stamp
    rw [ClusterState.modify_device_self]
    exact ((s.cluster.device d).setStamp_frame _ _).2.2.2.2
  · unfold Graphs.stamp
    rw [ClusterState.modify_device_of_ne he]
  · rcases hboard with ⟨-, rfl⟩ | ⟨-, board, -, hupdate⟩
    · rfl
    · rw [hupdate, Function.update_of_ne he]

/-- Every run is made of moves. -/
theorem run_moves {s s' : TimedState N τ σ} {d : Fin N} (h : C.run d s = .ok s') :
    ∃ ds, (∀ e ∈ ds, e = d) ∧ Run C.Move s ds s' := by
  unfold run at h
  generalize hrest : (C.calls d).events.drop (s.cluster.device d).current = rest at h
  induction rest generalizing s with
  | nil =>
    obtain rfl := Except.ok.inj h
    exact ⟨[], by simp, .nil s⟩
  | cons e rest ih =>
    have hat : C.At d s e := by
      unfold At
      rw [← List.head?_drop, hrest]
      rfl
    obtain ⟨s₁, hstamp, h⟩ := bind_eq_ok h
    obtain ⟨⟨done, cluster⟩, hnode, h⟩ := bind_eq_ok h
    obtain ⟨hcurrent, hstamped, -⟩ := setStamp_frame hstamp
    have hat₁ : C.At d s₁ e := by
      unfold At
      rw [hcurrent d]
      exact hat
    cases done with
    | false =>
      obtain rfl := Except.ok.inj h
      exact ⟨[d, d], by simp, .cons (.stamp hat hstamp) (.single (.block hat₁ hnode))⟩
    | true =>
      have hdone : (s₁.cluster.device d).stamped (s₁.cluster.device d).current = true := by
        rw [hstamped, hcurrent, Function.update_self]
      have hnext : ((cluster.modify d (·.next)).device d).current
          = (s.cluster.device d).current + 1 := by
        rw [ClusterState.modify_device_self]
        change (cluster.device d).current + 1 = _
        rw [((ModuleGraph.run_outcome hnode).frame d).1, hcurrent]
      obtain ⟨ds, hds, hrun⟩ := ih (s := { s₁ with cluster := cluster.modify d (·.next) })
        (by rw [hnext, ← List.drop_drop, hrest]; rfl) h
      refine ⟨d :: d :: ds, by simpa using hds, ?_⟩
      exact .cons (.stamp hat hstamp) (.cons (.advance hat₁ hdone hnode) hrun)

/-! ### The shape of the tree -/

/-- The events of a device that have been stamped. -/
def stampedEvents (s : TimedState N τ σ) (d : Fin N) : ℕ :=
  (s.cluster.device d).current
    + if (s.cluster.device d).stamped (s.cluster.device d).current then 1 else 0

/-- The names of the calls of a device. -/
def names (C : CallGraphs N τ σ) (d : Fin N) : Forest String := (C.calls d).map (·.name)

/-- The board has replayed the stamped events, and no others. -/
structure Mirrors (C : CallGraphs N τ σ) (d : Fin N) (s : TimedState N τ σ) : Prop where
  valid : (s.board d).valid = true
  unstamped : ∀ p, (s.cluster.device d).current < p → (s.cluster.device d).stamped p = false
  shape : ((C.names d).events.take (stampedEvents s d)).foldlM Cursor.step {}
    = some ((s.board d).tree.map (·.name))

omit [DecidableEq τ] in
theorem names_take_succ {s : TimedState N τ σ} {d : Fin N} {e : Event (Call N τ σ)}
    (h : C.At d s e) : (C.names d).events.take ((s.cluster.device d).current + 1)
      = (C.names d).events.take (s.cluster.device d).current ++ [e.map (·.name)] := by
  unfold names
  rw [List.take_add_one, Forest.events_map, List.getElem?_map, h]
  rfl

omit [DecidableEq τ] in
/-- A prefix of the events can be replayed. -/
theorem replay_take (C : CallGraphs N τ σ) (d : Fin N) (k : ℕ) :
    ∃ c : Cursor String, ((C.names d).events.take k).foldlM Cursor.step {} = some c := by
  have hall := Cursor.replay_events (C.names d) {}
  rw [← List.take_append_drop k (C.names d).events, List.foldlM_append] at hall
  obtain ⟨c, hc, -⟩ := Option.bind_eq_some_iff.mp hall
  exact ⟨c, hc⟩

omit [DecidableEq τ] in
/-- `set_stamp` does not fail, and keeps the board a mirror. -/
theorem Mirrors.setStamp {s : TimedState N τ σ} {d : Fin N} {e : Event (Call N τ σ)}
    (hm : C.Mirrors d s) (hat : C.At d s e) :
    ∃ s', C.setStamp d e s = .ok s' ∧ C.Mirrors d s' := by
  cases hstamped : (s.cluster.device d).stamped (s.cluster.device d).current with
  | true => exact ⟨s, if_pos hstamped, hm⟩
  | false =>
    have hshape := hm.shape
    unfold stampedEvents at hshape
    rw [hstamped, if_neg Bool.false_ne_true, Nat.add_zero] at hshape
    set cluster := C.toGraphs.stamp d (Call.node e) s.cluster
    set status := (cluster.device d).work.status
    -- one more event of the walk
    obtain ⟨c, hc⟩ := C.replay_take d ((s.cluster.device d).current + 1)
    have hstep : ((s.board d).tree.map (·.name)).step (e.map (·.name)) = some c := by
      rw [names_take_succ hat, List.foldlM_append, hshape] at hc
      simpa [List.foldlM_cons] using hc
    have hboard : ∃ board, (s.board d).stamp status (s.cluster.device d).work.execStatus e
        = .ok board ∧ board.valid = true ∧ board.tree.map (·.name) = c := by
      cases e with
      | push call => exact ⟨_, if_pos hm.valid, hm.valid, Option.some.inj hstep⟩
      | pop call =>
        have hpop := Cursor.map_pop (f := Stamp.name) (h := id)
          (g := (·.setStatus status (s.cluster.device d).work.execStatus)) (fun _ => rfl)
          (s.board d).tree
        change ((s.board d).tree.map (·.name)).pop id = some c at hstep
        rw [hstep] at hpop
        obtain ⟨tree, htree, hmap⟩ := Option.map_eq_some_iff.mp hpop
        refine ⟨{ s.board d with tree }, ?_, hm.valid, hmap⟩
        unfold TimeBoard.stamp TimeBoard.popTimestamp
        dsimp only
        rw [if_pos hm.valid, htree]
    obtain ⟨board, hok, hvalid, htree⟩ := hboard
    have hset : C.setStamp d e s = .ok ⟨cluster, Function.update s.board d board⟩ := by
      unfold CallGraphs.setStamp
      dsimp only
      rw [if_neg (by simp [hstamped]), hok]
      rfl
    obtain ⟨hcurrent, hstamps, -⟩ := setStamp_frame hset
    have hcur : (cluster.device d).current = (s.cluster.device d).current := hcurrent d
    have hst : (cluster.device d).stamped
        = Function.update (s.cluster.device d).stamped (s.cluster.device d).current true := hstamps
    refine ⟨_, hset, ?_, ?_, ?_⟩
    · change (Function.update s.board d board d).valid = true
      rw [Function.update_self]
      exact hvalid
    · intro p hp
      change (cluster.device d).stamped p = false
      change (cluster.device d).current < p at hp
      rw [hcur] at hp
      rw [hst, Function.update_of_ne hp.ne']
      exact hm.unstamped p hp
    · unfold stampedEvents
      dsimp only
      rw [hcur, hst, Function.update_self, if_pos rfl, hc, Function.update_self, htree]

omit [DecidableEq τ] in
/-- The board looks at nothing else. -/
theorem Mirrors.congr {s s' : TimedState N τ σ} {d : Fin N} (hm : C.Mirrors d s)
    (hcurrent : (s'.cluster.device d).current = (s.cluster.device d).current)
    (hstamped : (s'.cluster.device d).stamped = (s.cluster.device d).stamped)
    (hboard : s'.board d = s.board d) : C.Mirrors d s' := by
  refine ⟨hboard ▸ hm.valid, ?_, ?_⟩
  · rw [hcurrent, hstamped]
    exact hm.unstamped
  · unfold stampedEvents
    rw [hcurrent, hstamped, hboard]
    exact hm.shape

/-- A device that goes on has stamped its position. -/
theorem Mirrors.advance {s : TimedState N τ σ} {d e : Fin N} {n : ModuleGraph N τ σ}
    {cluster : ClusterState N τ σ} (hm : C.Mirrors d s)
    (hstamped : (s.cluster.device e).stamped (s.cluster.device e).current = true)
    (h : n.run e s.cluster = .ok (true, cluster)) :
    C.Mirrors d { s with cluster := cluster.modify e (·.next) } := by
  obtain ⟨hcur, hst, -⟩ := (ModuleGraph.run_outcome h).frame d
  by_cases hde : d = e
  · subst hde
    have hnew : (s.cluster.device d).stamped ((s.cluster.device d).current + 1) = false :=
      hm.unstamped _ (Nat.lt_succ_self _)
    have hshape := hm.shape
    unfold stampedEvents at hshape
    rw [hstamped, if_pos rfl] at hshape
    have hdevice : (cluster.modify d (·.next)).device d = (cluster.device d).next :=
      ClusterState.modify_device_self ..
    refine ⟨hm.valid, fun p hp => ?_, ?_⟩
    · dsimp only at hp ⊢
      rw [hdevice] at hp ⊢
      change (cluster.device d).current + 1 < p at hp
      change (cluster.device d).stamped p = false
      rw [hcur] at hp
      rw [hst]
      exact hm.unstamped p (Nat.lt_of_succ_lt hp)
    · unfold stampedEvents
      dsimp only
      rw [hdevice]
      change ((C.names d).events.take ((cluster.device d).current + 1
        + if (cluster.device d).stamped ((cluster.device d).current + 1) then 1 else 0)).foldlM
        Cursor.step {} = _
      rw [hcur, hst, hnew, if_neg Bool.false_ne_true, Nat.add_zero]
      exact hshape
  · have hdevice : (cluster.modify e (·.next)).device d = cluster.device d :=
      ClusterState.modify_device_of_ne hde ..
    exact hm.congr ((congrArg _ hdevice).trans hcur) ((congrArg _ hdevice).trans hst) rfl

theorem Mirrors.move {s s' : TimedState N τ σ} {d e : Fin N} (hm : C.Mirrors d s)
    (h : C.Move s e s') : C.Mirrors d s' := by
  cases h with
  | stamp hat h =>
    by_cases hde : d = e
    · subst hde
      obtain ⟨s₁, h₁, hm₁⟩ := hm.setStamp hat
      obtain rfl := Except.ok.inj (h.symm.trans h₁)
      exact hm₁
    · obtain ⟨-, -, hother⟩ := setStamp_frame h
      obtain ⟨hdevice, hboard⟩ := hother d hde
      exact hm.congr (congrArg _ hdevice) (congrArg _ hdevice) hboard
  | advance _ hstamped h => exact hm.advance hstamped h
  | block _ h =>
    obtain ⟨hcur, hst, -⟩ := (ModuleGraph.run_outcome h).frame d
    exact hm.congr hcur hst rfl

theorem Mirrors.run {s s' : TimedState N τ σ} {d e : Fin N} (hm : C.Mirrors d s)
    (h : C.run e s = .ok s') : C.Mirrors d s' := by
  obtain ⟨ds, -, hrun⟩ := run_moves h
  exact hrun.invariant (I := C.Mirrors d) (fun _ _ _ hx hxy => hx.move hxy) hm

/-- The time boards never stop a run. -/
theorem Mirrors.run_cluster {s : TimedState N τ σ} {d : Fin N} (hm : C.Mirrors d s) :
    (C.run d s).map (·.cluster) = C.toGraphs.run d s.cluster := by
  have hgraph : (C.toGraphs.graph d).drop (s.cluster.device d).current
      = ((C.calls d).events.drop (s.cluster.device d).current).map Call.node := by
    rw [List.map_drop]
    rfl
  unfold CallGraphs.run Graphs.run
  rw [hgraph]
  generalize hrest : (C.calls d).events.drop (s.cluster.device d).current = rest
  clear hgraph
  induction rest generalizing s with
  | nil => rfl
  | cons e rest ih =>
    have hat : C.At d s e := by
      unfold At
      rw [← List.head?_drop, hrest]
      rfl
    obtain ⟨s₁, hset, hm₁⟩ := hm.setStamp hat
    obtain ⟨hcluster, -⟩ := setStamp_cases hset
    obtain ⟨hcurrent, hstamps, -⟩ := setStamp_frame hset
    have hstamped : (s₁.cluster.device d).stamped (s₁.cluster.device d).current = true := by
      rw [hstamps, hcurrent, Function.update_self]
    have htimed : C.runFrom d (e :: rest) s = (Call.node e).run d s₁.cluster >>= fun r =>
        if r.1 then C.runFrom d rest { s₁ with cluster := r.2.modify d (·.next) }
        else .ok { s₁ with cluster := r.2 } := by
      change C.setStamp d e s >>= _ = _
      rw [hset]
      rfl
    have huntimed : C.toGraphs.runFrom d ((e :: rest).map Call.node) s.cluster
        = (Call.node e).run d s₁.cluster >>= fun r =>
          if r.1 then C.toGraphs.runFrom d (rest.map Call.node) (r.2.modify d (·.next))
          else .ok r.2 := by
      rw [hcluster]
      rfl
    rw [htimed, huntimed]
    cases hnode : (Call.node e).run d s₁.cluster with
    | error message => rfl
    | ok r =>
      obtain ⟨done, cluster⟩ := r
      cases done with
      | false => rfl
      | true =>
        have hnext : ((cluster.modify d (·.next)).device d).current
            = (s.cluster.device d).current + 1 := by
          rw [ClusterState.modify_device_self]
          change (cluster.device d).current + 1 = _
          rw [((ModuleGraph.run_outcome hnode).frame d).1, hcurrent]
        apply ih (hm₁.advance hstamped hnode)
        change (C.calls d).events.drop ((cluster.modify d (·.next)).device d).current = rest
        rw [hnext, ← List.drop_drop, hrest]
        rfl

theorem Mirrors.restart {s s₀ : TimedState N τ σ} (h : C.restart s = .ok s₀) (d : Fin N) :
    C.Mirrors d s₀ := by
  obtain ⟨cluster, hcluster, h⟩ := bind_eq_ok h
  obtain rfl := Except.ok.inj h
  obtain ⟨n, root, -, -, hdevice⟩ := Graphs.restartModuleGraph_device hcluster d
  have hcurrent : (cluster.device d).current = 0 := by
    rw [hdevice]
    rfl
  have hstamped : (cluster.device d).stamped = fun _ => false := by
    rw [hdevice]
    rfl
  refine ⟨rfl, fun p _ => ?_, ?_⟩
  · exact congrFun hstamped p
  · unfold stampedEvents
    dsimp only
    rw [hcurrent, hstamped, if_neg Bool.false_ne_true]
    rfl

omit [DecidableEq τ] in
/-- A position is stamped once: at a call a stamp opens with the status, and at a return the
innermost one closes with it. -/
theorem Mirrors.stamp_cases {s s' : TimedState N τ σ} {d : Fin N} {event : Event (Call N τ σ)}
    (hm : C.Mirrors d s') (h : C.setStamp d event s = .ok s') :
    s' = s ∨
    (∃ c, event = .push c ∧
      (s'.cluster.device d).work = { (s.cluster.device d).work with
        status := (s.cluster.device d).work.status.setPushStatus
          (c.input.placement (s.cluster.device d).work) } ∧
      s'.board d = { s.board d with
        tree := (s.board d).tree.push
          { name := c.name, status := (s'.cluster.device d).work.status } }) ∨
    ∃ c tree, event = .pop c ∧
      (s'.cluster.device d).work = { (s.cluster.device d).work with
        status := (s.cluster.device d).work.status.setPopStatus (C.dramPowers d)
          (c.output.placement (s.cluster.device d).work) (s.cluster.device d).work.execStatus
        execStatus := {} } ∧
      (s.board d).tree.pop (·.setStatus (s'.cluster.device d).work.status
        (s.cluster.device d).work.execStatus) = some tree ∧
      s'.board d = { s.board d with tree } := by
  obtain ⟨hcluster, ⟨-, rfl⟩ | ⟨hstamped, board, hboard, hupdate⟩⟩ := setStamp_cases h
  · exact .inl rfl
  · have hdevice : s'.cluster.device d
        = (s.cluster.device d).setStamp (C.dramPowers d) (Call.node event) := by
      rw [hcluster]
      exact ClusterState.modify_device_self ..
    have hown : s'.board d = board := by rw [hupdate, Function.update_self]
    unfold DeviceState.setStamp at hdevice
    rw [if_neg (by simp [hstamped])] at hdevice
    rw [hown]
    rcases TimeBoard.stamp_cases hboard (hown ▸ hm.valid) with
      ⟨c, rfl, rfl⟩ | ⟨c, tree, rfl, hpop, rfl⟩
    · exact .inr (.inl ⟨c, rfl, congrArg DeviceState.work hdevice, rfl⟩)
    · exact .inr (.inr ⟨c, tree, rfl, congrArg DeviceState.work hdevice, hpop, rfl⟩)

omit [DecidableEq τ] in
theorem Mirrors.complete {s : TimedState N τ σ} {d : Fin N} (hm : C.Mirrors d s)
    (hend : ¬C.toGraphs.Remains s.cluster d) : (s.board d).tree.frames = [] ∧
      (s.board d).tree.closed.map (·.name) = C.names d := by
  have hcurrent : (s.cluster.device d).current = (C.names d).events.length := by
    rw [not_not.mp hend]
    unfold names toGraphs
    simp [Forest.events_map]
  have hshape := hm.shape
  unfold stampedEvents at hshape
  rw [List.take_of_length_le (by omega), Cursor.replay_events] at hshape
  have htree : (⟨C.names d, []⟩ : Cursor String) = (s.board d).tree.map (·.name) :=
    Option.some.inj hshape
  obtain ⟨hclosed, hframes⟩ := Cursor.mk.inj htree
  exact ⟨List.map_eq_nil_iff.mp hframes.symm, hclosed.symm⟩

/-- After any restart, and then any runs of the devices in any order, blocked and resumed as
often as it takes: the boards have not failed a run, and a device at its end has one stamp for
each call, with the names and the nesting of the calls, and its `current_stamp` at `top`. -/
theorem timeboard_mirrors_calls (C : CallGraphs N τ σ) {s s₀ s₁ : TimedState N τ σ}
    (hrestart : C.restart s = .ok s₀) {ds : List (Fin N)}
    (hrun : Run (fun s d t => C.run d s = .ok t) s₀ ds s₁) (d : Fin N) :
    (C.run d s₁).map (·.cluster) = C.toGraphs.run d s₁.cluster ∧
    (¬C.toGraphs.Remains s₁.cluster d →
      (s₁.board d).valid = true ∧ (s₁.board d).tree.frames = [] ∧
      (s₁.board d).tree.closed.map (·.name) = (C.calls d).map (·.name)) := by
  have hm : C.Mirrors d s₁ := hrun.invariant (I := C.Mirrors d) (fun _ _ _ hx hxy => hx.run hxy)
    (Mirrors.restart hrestart d)
  exact ⟨hm.run_cluster, fun hend => ⟨hm.valid, hm.complete hend⟩⟩

/-- Two devices that charge different times and then meet at a barrier. -/
def twoCalls : CallGraphs (1 * 2) ℕ Unit where
  calls d :=
    .node
      { name := "LLM"
        module :=
          { graphExecution := false
            tensorList := [1, 2]
            activations_mem := by simp
            forward := Prod.mk }
        input := .tensor 0
        output := .tensor 2 }
      (.node
        { name := "lm_head"
          module :=
            { graphExecution := true
              tensorList := [1]
              activations := [1]
              activations_mem := fun _ h => h
              forward := fun x w => (x, (WorkStep.execute
                { processorType := .gpu, totalDuration := d.val + 1, flops := 2 }).apply w) }
          input := .tensor 0
          output := .tensor 1 } .nil
        (.node
          { name := "sync__set"
            module :=
              { graphExecution := true
                tensorList := [2]
                activations := [2]
                activations_mem := fun _ h => h
                forward := fun x w => (x, WorkStep.align.apply w) }
            input := .tensor 1
            output := .tensor 2 } .nil
          (.node
            { name := "sync__"
              module :=
                { graphExecution := true
                  sync := true
                  deviceList := [0, 1]
                  tensorList := []
                  activations_mem := fun _ h => h
                  forward := Prod.mk }
              input := .tensor 2
              output := .tensor 2 } .nil .nil))) .nil
  dramPowers _ _ := { kMAC := 3 }

/-- The first device is blocked at the barrier, and resumed when the second has come to it. -/
def twoCallsRun : Except String (TimedState (1 * 2) ℕ Unit) := do
  let s ← twoCalls.restart ⟨Graphs.newCluster (1 * 2) ℕ, fun _ => {}⟩
  let s ← twoCalls.run 0 s
  let s ← twoCalls.run 1 s
  twoCalls.run 0 s

theorem timeboard_mirrors_calls_two_devices : ∃ s, twoCallsRun = .ok s ∧
    (s.board 0).tree.closed.map (·.name) = (twoCalls.calls 0).map (·.name) := by
  have hrun : ∃ s, twoCallsRun = .ok s ∧ ¬twoCalls.toGraphs.Remains s.cluster 0 := by
    refine ⟨_, rfl, ?_⟩
    decide
  obtain ⟨s, hrun, hend⟩ := hrun
  obtain ⟨s₀, h₀, h⟩ := bind_eq_ok hrun
  obtain ⟨s₁, h₁, h⟩ := bind_eq_ok h
  obtain ⟨s₂, h₂, h₃⟩ := bind_eq_ok h
  have hruns : Run (fun s d t => twoCalls.run d s = .ok t) s₀ [0, 1, 0] s :=
    .cons h₁ (.cons h₂ (.single h₃))
  exact ⟨s, hrun, ((timeboard_mirrors_calls twoCalls h₀ hruns 0).2 hend).2.2⟩

end CallGraphs
end LlmSystem
