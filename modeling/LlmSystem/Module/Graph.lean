import LlmSystem.Lib.Runs
import LlmSystem.Module.Status
import Mathlib.Data.List.FinRange
import Mathlib.Logic.Function.Basic

/-!
`ModuleGraph` and `TopModuleGraph`: every device walks over its own list of module calls, and
stops at a module whose inputs are not ready. A sync module waits for the tensor of the same
name on every device of its group, and the first device that gets through sets the clocks of
all of them to the latest one.

`N` is the number of devices, `τ` names the tensors of a device and `σ` is the state that the
forward functions share, such as the batches. The tree of time stamps is left out: no step
reads it.
-/
namespace LlmSystem

open Runs

/-- What `forward` can change on its own device. -/
structure Work (τ : Type) where
  status : StatusBoard := {}
  execStatus : ExecStatus := {}
  placement : τ → Placement := fun _ => {}

/-- A module as its graph sees it. The tensors that `forward` requests with `get_activation`
become ready; they are all its own. -/
structure Module (N : ℕ) (τ σ : Type) where
  graphExecution : Bool
  sync : Bool := false
  deviceList : List (Fin N) := []
  /-- With those of the submodules, as `unset_tensor` reaches them. -/
  tensorList : List τ
  activations : List τ := []
  activations_mem : ∀ t ∈ activations, t ∈ tensorList
  forward : σ → Work τ → σ × Work τ

inductive GraphInput (τ : Type)
  | tensor (input : τ)
  | tensorVec (inputVec : List τ)

/-- A call of a module, or with no module the return from one. -/
structure ModuleGraph (N : ℕ) (τ σ : Type) where
  module : Option (Module N τ σ)
  input : GraphInput τ

structure DeviceState (τ : Type) where
  work : Work τ
  /-- The position of `current_module`. -/
  current : ℕ
  stamped : ℕ → Bool
  ready : τ → Bool
  timeboardSynced : τ → Bool
  /-- `start_time` of the stamp pushed at a position. -/
  startTime : ℕ → ℚ
  /-- The clock when a module was let through. The source does not keep it and no step reads
  it. -/
  passTime : ℕ → ℚ

structure ClusterState (N : ℕ) (τ σ : Type) where
  device : Fin N → DeviceState τ
  shared : σ

variable {N : ℕ} {τ σ : Type}

namespace ClusterState

def modify (s : ClusterState N τ σ) (d : Fin N) (f : DeviceState τ → DeviceState τ) :
    ClusterState N τ σ :=
  { s with device := Function.update s.device d (f (s.device d)) }

@[simp] theorem modify_device_self (s : ClusterState N τ σ) (d : Fin N)
    (f : DeviceState τ → DeviceState τ) : (s.modify d f).device d = f (s.device d) :=
  Function.update_self ..

@[simp] theorem modify_device_of_ne {d e : Fin N} (h : e ≠ d) (s : ClusterState N τ σ)
    (f : DeviceState τ → DeviceState τ) : (s.modify d f).device e = s.device e :=
  Function.update_of_ne h ..

@[simp] theorem modify_shared (s : ClusterState N τ σ) (d : Fin N)
    (f : DeviceState τ → DeviceState τ) : (s.modify d f).shared = s.shared := rfl

end ClusterState

namespace GraphInput

/-- The placement of a single tensor. -/
def placement (i : GraphInput τ) (w : Work τ) : Option Placement :=
  match i with
  | .tensor t => some (w.placement t)
  | .tensorVec _ => none

def tensors : GraphInput τ → List τ
  | .tensor t => [t]
  | .tensorVec ts => ts

end GraphInput

namespace DeviceState
variable [DecidableEq τ]

/-- `set_stamp`: once for each position. -/
def setStamp (dramPowers : ProcessorType → DramEnergy) (n : ModuleGraph N τ σ)
    (x : DeviceState τ) : DeviceState τ :=
  if x.stamped x.current then x
  else
    let placement := n.input.placement x.work
    match n.module with
    | none =>
      let status := x.work.status.setPopStatus dramPowers placement x.work.execStatus
      { x with
        work := { x.work with status, execStatus := {} }
        stamped := Function.update x.stamped x.current true }
    | some _ =>
      let status := x.work.status.setPushStatus placement
      { x with
        work := { x.work with status }
        startTime := Function.update x.startTime x.current status.deviceTime
        stamped := Function.update x.stamped x.current true }

/-- A group member's part of `sync_devices`. -/
def syncTo (t : τ) (time : ℚ) (x : DeviceState τ) : DeviceState τ :=
  { x with
    work := { x.work with status := { x.work.status with deviceTime := time } }
    timeboardSynced := Function.update x.timeboardSynced t true }

def clearSynced (t : τ) (x : DeviceState τ) : DeviceState τ :=
  { x with timeboardSynced := Function.update x.timeboardSynced t false }

def recordPass (x : DeviceState τ) : DeviceState τ :=
  { x with passTime := Function.update x.passTime x.current x.work.status.deviceTime }

def finish (activations : List τ) (work : Work τ) (x : DeviceState τ) : DeviceState τ :=
  { x with work, ready := fun t => x.ready t || decide (t ∈ activations) }

/-- A device at the start of its graph: the input of the first module is made ready first and
the tensors of all modules are unset afterwards. Flags of synchronisation stay. -/
def restart (root : τ) (unset : τ → Bool) (x : DeviceState τ) : DeviceState τ :=
  { x with
    work := { x.work with status := {} }
    current := 0
    stamped := fun _ => false
    ready := fun t => (decide (t = root) || x.ready t) && !unset t
    startTime := fun _ => 0
    passTime := fun _ => 0 }

/-- `current_module++`. -/
def next (x : DeviceState τ) : DeviceState τ := { x with current := x.current + 1 }

end DeviceState

namespace ModuleGraph
variable [DecidableEq τ]

/-- `set_dependency_tensor`: for a sync module with a single input, the tensor of this name on
every device of the group. -/
def dependencyTensorList (n : ModuleGraph N τ σ) : List (Fin N × τ) :=
  match n.module, n.input with
  | some m, .tensor t => if m.sync then m.deviceList.map (·, t) else []
  | _, _ => []

/-- The argument of `checkListReady` is not used; it looks at the dependency tensors. -/
def checkListReady (n : ModuleGraph N τ σ) (s : ClusterState N τ σ) : Bool :=
  n.dependencyTensorList.all fun (e, t) => (s.device e).ready t

def syncDevices (n : ModuleGraph N τ σ) (d : Fin N) (s : ClusterState N τ σ) :
    Except String (ClusterState N τ σ) :=
  match n.input with
  | .tensor t =>
    if (s.device d).timeboardSynced t then .ok (s.modify d (·.clearSynced t))
    else
      let time := n.dependencyTensorList.foldl
        (fun time (e, _) => max time (s.device e).work.status.deviceTime) 0
      let s := n.dependencyTensorList.foldl (fun s (e, t') => s.modify e (·.syncTo t' time)) s
      .ok (s.modify d (·.clearSynced t))
  | .tensorVec _ => .error "Module cannot be synced when it's inputs are TensorVector"

def checkReady (n : ModuleGraph N τ σ) (m : Module N τ σ) (d : Fin N) (s : ClusterState N τ σ) :
    Except String (Bool × ClusterState N τ σ) :=
  if m.sync then
    if n.checkListReady s then do
      let s ← n.syncDevices d s
      .ok (true, s)
    else .ok (false, s)
  else
    match n.input with
    | .tensor t => .ok ((s.device d).ready t, s)
    | .tensorVec ts => .ok (!ts.isEmpty && n.checkListReady s, s)

def forward (m : Module N τ σ) (d : Fin N) (s : ClusterState N τ σ) : ClusterState N τ σ :=
  let (shared, work) := m.forward s.shared (s.device d).work
  { s.modify d (·.finish m.activations work) with shared }

/-- `false` means that the device is blocked. -/
def run (n : ModuleGraph N τ σ) (d : Fin N) (s : ClusterState N τ σ) :
    Except String (Bool × ClusterState N τ σ) :=
  match n.module with
  | none => .ok (true, s)
  | some m =>
    if m.graphExecution then do
      let (ready, s) ← n.checkReady m d s
      if ready then .ok (true, forward m d (s.modify d (·.recordPass))) else .ok (false, s)
    else .ok (true, s)

end ModuleGraph

/-- The module graphs of the devices, and the energies of their commands. -/
structure Graphs (N : ℕ) (τ σ : Type) where
  graph : Fin N → List (ModuleGraph N τ σ)
  dramPowers : Fin N → ProcessorType → DramEnergy

namespace Graphs
variable [DecidableEq τ] (C : Graphs N τ σ)

/-- The loop of `TopModuleGraph::run`, from `current_module` on. -/
def runFrom (d : Fin N) : List (ModuleGraph N τ σ) → ClusterState N τ σ →
    Except String (ClusterState N τ σ)
  | [], s => .ok s
  | n :: rest, s => do
    let (done, s) ← n.run d (s.modify d (·.setStamp (C.dramPowers d) n))
    if done then runFrom d rest (s.modify d (·.next)) else .ok s

/-- `TopModuleGraph::run` on the device `d`. -/
def run (d : Fin N) (s : ClusterState N τ σ) : Except String (ClusterState N τ σ) :=
  C.runFrom d ((C.graph d).drop (s.device d).current) s

/-- `unset_tensor` reaches the tensor on this device. -/
def Unset (d : Fin N) (t : τ) : Prop :=
  ∃ n ∈ C.graph d, ∃ m, n.module = some m ∧ t ∈ m.tensorList

instance (d : Fin N) (t : τ) : Decidable (C.Unset d t) :=
  decidable_of_iff (∃ n ∈ C.graph d, ∃ m ∈ n.module, t ∈ m.tensorList) (by
    unfold Unset
    simp only [Option.mem_def])

/-- `restart_graph` and `reset_status`; a `TensorVec` at the start has no `input` to set. -/
def restartGraph (d : Fin N) (s : ClusterState N τ σ) : Except String (ClusterState N τ σ) :=
  match C.graph d with
  | [] => .error "No module in TopModuleGraph"
  | n :: _ =>
    match n.input with
    | .tensorVec _ => .error "no input"
    | .tensor root => .ok (s.modify d (·.restart root fun t => decide (C.Unset d t)))

/-- `Cluster::restartModuleGraph`. -/
def restartModuleGraph (s : ClusterState N τ σ) : Except String (ClusterState N τ σ) :=
  (List.finRange N).foldlM (fun s d => C.restartGraph d s) s

/-- `check_module_graph_remain` of one device. -/
def Remains (s : ClusterState N τ σ) (d : Fin N) : Prop :=
  (s.device d).current ≠ (C.graph d).length

instance (s : ClusterState N τ σ) (d : Fin N) : Decidable (C.Remains s d) :=
  inferInstanceAs (Decidable (_ ≠ _))

end Graphs
end LlmSystem
