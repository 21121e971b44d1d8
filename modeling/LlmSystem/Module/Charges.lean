import LlmSystem.Module.Intervals
import Mathlib.Tactic.Ring

/-!
What the stamps store of energy and work. A stamp holds the totals of its device at its push and
their differences from its pop on, so it has what its children have and the charge of its own
pop; forward functions change clocks only.
-/
namespace LlmSystem

open Runs Nesting

variable {N : ℕ} {τ σ : Type}

/-- The fields of a `StatusBoard` that add up. -/
inductive Quantity
  | actEnergy | readEnergy | writeEnergy | allActEnergy | allReadEnergy | allWriteEnergy | macEnergy
  | flops | memorySize
  | qkDuration | softmaxDuration | scoreVDuration | kvQuantDuration
  | pimRbDuration | pimPeDuration | pimRbQk | pimPeQk | pimRbSv | pimPeSv
  deriving DecidableEq, Repr

namespace Quantity

def get (s : StatusBoard) : Quantity → ℚ
  | actEnergy => s.actEnergy
  | readEnergy => s.readEnergy
  | writeEnergy => s.writeEnergy
  | allActEnergy => s.allActEnergy
  | allReadEnergy => s.allReadEnergy
  | allWriteEnergy => s.allWriteEnergy
  | macEnergy => s.macEnergy
  | flops => s.flops
  | memorySize => s.memorySize
  | qkDuration => s.qkDuration
  | softmaxDuration => s.softmaxDuration
  | scoreVDuration => s.scoreVDuration
  | kvQuantDuration => s.kvQuantDuration
  | pimRbDuration => s.pimRbDuration
  | pimPeDuration => s.pimPeDuration
  | pimRbQk => s.pimRbQk
  | pimPeQk => s.pimPeQk
  | pimRbSv => s.pimRbSv
  | pimPeSv => s.pimPeSv

/-- What a pop charges for `e`; without a processor there is no energy. -/
def charge (dramPowers : ProcessorType → DramEnergy) (e : ExecStatus) : Quantity → ℚ
  | actEnergy => energy e.actCount (dramPowers e.processorType).kACT
  | readEnergy => energy e.readCount (dramPowers e.processorType).kREAD
  | writeEnergy => energy e.writeCount (dramPowers e.processorType).kWRITE
  | allActEnergy => energy e.allActCount (dramPowers e.processorType).kALL_ACT
  | allReadEnergy => energy e.allReadCount (dramPowers e.processorType).kALL_READ
  | allWriteEnergy => energy e.allWriteCount (dramPowers e.processorType).kALL_WRITE
  | macEnergy => energy e.flops (dramPowers e.processorType).kMAC
  | flops => e.flops
  | memorySize => e.memorySize
  | qkDuration => e.qkDuration
  | softmaxDuration => e.softmaxDuration
  | scoreVDuration => e.scoreVDuration
  | kvQuantDuration => e.kvQuantDuration
  | pimRbDuration => e.pimRbDuration
  | pimPeDuration => e.pimPeDuration
  | pimRbQk => e.pimRbQk
  | pimPeQk => e.pimPeQk
  | pimRbSv => e.pimRbSv
  | pimPeSv => e.pimPeSv
where
  energy (count each : ℚ) : ℚ := if e.processorType = .none then 0 else count * each

/-- Those of `getDeviceEnergy`. -/
def energies : List Quantity :=
  [actEnergy, readEnergy, writeEnergy, allActEnergy, allReadEnergy, allWriteEnergy, macEnergy]

/-- Seven energies and their sum. -/
def report (f : Quantity → ℚ) : List ℚ := energies.map f ++ [(energies.map f).sum]

theorem report_add (f g : Quantity → ℚ) :
    List.zipWith (· + ·) (report f) (report g) = report fun q => f q + g q := by
  unfold report energies
  simp only [List.map_cons, List.map_nil, List.cons_append, List.nil_append, List.zipWith_cons_cons,
    List.zipWith_nil_left, List.sum_cons, List.sum_nil, List.cons.injEq, true_and, and_true]
  ring

variable (q : Quantity)

theorem get_setPushStatus (s : StatusBoard) (input : Option Placement) :
    q.get (s.setPushStatus input) = q.get s := by
  unfold StatusBoard.setPushStatus
  cases input with
  | none => cases q <;> rfl
  | some p =>
    dsimp only
    split_ifs
    · cases q <;> rfl
    · cases q <;> rfl
    · cases q <;> rfl

theorem get_chargeDuration (s : StatusBoard) (e : ExecStatus) :
    q.get (s.chargeDuration e) = q.get s := by
  unfold StatusBoard.chargeDuration
  split_ifs
  · cases e.processorType <;> cases q <;> rfl
  · cases q <;> rfl

theorem get_chargeEnergy (dramPowers : ProcessorType → DramEnergy) (s : StatusBoard)
    (e : ExecStatus) : q.get (StatusBoard.chargeWork (s.chargeEnergy dramPowers e) e)
      = q.get s + q.charge dramPowers e := by
  unfold StatusBoard.chargeEnergy charge charge.energy
  split_ifs with hnone
  · cases q <;> simp [get, StatusBoard.chargeWork]
  · cases q <;> rfl

theorem get_setPopStatus (dramPowers : ProcessorType → DramEnergy) (s : StatusBoard)
    (output : Option Placement) (e : ExecStatus) :
    q.get (s.setPopStatus dramPowers output e) = q.get s + q.charge dramPowers e := by
  unfold StatusBoard.setPopStatus
  dsimp only
  rw [get_chargeEnergy, get_chargeDuration]
  cases output with
  | none => cases q <;> rfl
  | some p => cases q <;> rfl

theorem get_setStatus (output : StatusBoard) (e : ExecStatus) (x : Stamp) :
    q.get (x.setStatus output e).status = q.get output - q.get x.status := by
  cases q <;> rfl

/-- Neither forward functions nor barriers charge. -/
theorem carried_get [DecidableEq τ] : Carried (τ := τ) (fun _ => True) fun w w' =>
    ∀ q : Quantity, q.get w'.status = q.get w.status where
  refl _ _ := rfl
  trans h h' q := (h' q).trans (h q)
  sync _ _ _ q := by cases q <;> rfl
  apply a _ _ q := by cases a <;> cases q <;> rfl

end Quantity

/-- `getDeviceEnergy` of a device's status. -/
def StatusBoard.getDeviceEnergy (s : StatusBoard) : List ℚ :=
  [s.actEnergy, s.readEnergy, s.writeEnergy, s.allActEnergy, s.allReadEnergy, s.allWriteEnergy,
    s.macEnergy, s.actEnergy + s.readEnergy + s.writeEnergy + s.allActEnergy + s.allReadEnergy
      + s.allWriteEnergy + s.macEnergy]

theorem StatusBoard.getDeviceEnergy_eq (s : StatusBoard) :
    s.getDeviceEnergy = Quantity.report (Quantity.get s) := by
  simp [getDeviceEnergy, Quantity.report, Quantity.energies, Quantity.get, ← add_assoc]

namespace CallGraphs

def status (s : TimedState N τ σ) (d : Fin N) : StatusBoard := (s.cluster.device d).work.status

/-- `getTotalEnergy`. -/
def getTotalEnergy (s : TimedState N τ σ) : List ℚ :=
  (List.finRange N).foldl (fun total d => List.zipWith (· + ·) total (status s d).getDeviceEnergy)
    (List.replicate 8 0)

/-- All that the pops of the closed stamps of `d` have charged. -/
def charged (C : CallGraphs N τ σ) (s : TimedState N τ σ) (d : Fin N) (q : Quantity) : ℚ :=
  ((s.board d).tree.closed.toList.map fun x => q.charge (C.dramPowers d) x.charged).sum

/-- The stamps of `d` account for its totals. -/
def Accounted (C : CallGraphs N τ σ) (s : TimedState N τ σ) (d : Fin N) (q : Quantity) : Prop :=
  (s.board d).tree.Gains (fun x => q.get x.status) (fun x => q.charge (C.dramPowers d) x.charged)
    0 (q.get (status s d))

variable {C : CallGraphs N τ σ}

/-- A stamp opens at the totals that it copies, and closes with what its pop has just added. -/
theorem Accounted.stamp {s s' : TimedState N τ σ} {d : Fin N} {event : Event (Call N τ σ)}
    (hm : C.Mirrors d s') (hset : C.setStamp d event s = .ok s') {q : Quantity}
    (h : C.Accounted s d q) : C.Accounted s' d q := by
  rcases hm.stamp_cases hset with rfl | ⟨c, -, hwork, hboard⟩ | ⟨c, tree, -, hwork, hpop, hboard⟩
  · exact h
  · have hsame : q.get (status s' d) = q.get (status s d) := by
      unfold status
      rw [hwork]
      exact q.get_setPushStatus _ _
    unfold Accounted
    rw [hboard, hsame]
    exact Cursor.Gains.push h hsame
  · have hadded : q.get (status s' d) = q.get (status s d)
        + q.charge (C.dramPowers d) (s.cluster.device d).work.execStatus := by
      unfold status
      rw [hwork]
      exact q.get_setPopStatus _ _ _ _
    unfold Accounted
    rw [hboard]
    apply Cursor.Gains.pop h (fun x => q.get_setStatus _ _ x) _ hpop
    intro x
    exact (sub_eq_of_eq_add' hadded).symm

variable [DecidableEq τ]

theorem Accounted.restart {s s₀ : TimedState N τ σ} (hrestart : C.restart s = .ok s₀) (d : Fin N)
    (q : Quantity) : C.Accounted s₀ d q := by
  obtain ⟨hwork, hboard⟩ := restart_work hrestart d
  have hzero : q.get {} = 0 := by cases q <;> rfl
  unfold Accounted status
  rw [hwork, hboard]
  refine ⟨trivial, ?_⟩
  change q.get {} = 0 + 0
  rw [hzero, add_zero]

theorem Accounted.step (hC : C.Acts fun _ => True) {s s' : TimedState N τ σ} {a : Option (Fin N)}
    (hstep : C.Step s a s') {d : Fin N} (h : C.Mirrors d s ∧ ∀ q, C.Accounted s d q) :
    C.Mirrors d s' ∧ ∀ q, C.Accounted s' d q := by
  obtain ⟨hm, haccounted⟩ := h
  cases hstep with
  | restart hrestart => exact ⟨Mirrors.restart hrestart d, Accounted.restart hrestart d⟩
  | move hmove =>
    have hm' := hm.move hmove
    refine ⟨hm', fun q => ?_⟩
    rcases hmove.cases Quantity.carried_get.toKept (hC.forwards Quantity.carried_get) d with
      ⟨event, hset⟩ | ⟨hcarried, hboard⟩
    · exact (haccounted q).stamp hm' hset
    · unfold Accounted
      rw [hboard]
      exact (hcarried q).symm ▸ haccounted q

omit [DecidableEq τ] in
/-- Once every stamp is closed, its charges are the totals of the device. -/
theorem Accounted.complete {s : TimedState N τ σ} {d : Fin N} {q : Quantity}
    (h : C.Accounted s d q) (hframes : (s.board d).tree.frames = []) :
    (s.board d).tree.closed.Balanced (fun x => q.get x.status)
      (fun x => q.charge (C.dramPowers d) x.charged) ∧ C.charged s d q = q.get (status s d) := by
  unfold Accounted Cursor.Gains at h
  rw [hframes] at h
  obtain ⟨hbalanced, htotal⟩ := h
  refine ⟨hbalanced, ?_⟩
  rw [htotal, zero_add]
  exact hbalanced.sum_roots.symm

omit [DecidableEq τ] in
theorem getTotalEnergy_eq (s : TimedState N τ σ) : getTotalEnergy s
    = Quantity.report fun q => ((List.finRange N).map fun d => q.get (status s d)).sum := by
  have hfold : ∀ (ds : List (Fin N)) (f : Quantity → ℚ),
      ds.foldl (fun total d => List.zipWith (· + ·) total (status s d).getDeviceEnergy)
        (Quantity.report f)
        = Quantity.report fun q => f q + (ds.map fun d => q.get (status s d)).sum := by
    intro ds
    induction ds with
    | nil => exact fun f => by simp
    | cons d ds ih =>
      intro f
      rw [List.foldl_cons, StatusBoard.getDeviceEnergy_eq, Quantity.report_add, ih]
      simp [add_assoc]
  have hzero : List.replicate 8 (0 : ℚ) = Quantity.report fun _ => 0 := by
    simp [Quantity.report, Quantity.energies, List.replicate]
  unfold getTotalEnergy
  rw [hzero, hfold]
  simp

/-- In every run, over any number of restarts and with any interleaving of the devices: every
closed stamp has the values of its children and the charge of its own pop, in every quantity; and
once the devices are at their ends, `getDeviceEnergy` and `getTotalEnergy` report the sums of all
charges. -/
theorem charges_conserved (C : CallGraphs N τ σ) (hC : C.Acts fun _ => True)
    {s₀ s : TimedState N τ σ} (hinit : C.Init s₀) {as : List (Option (Fin N))}
    (hrun : Run C.Step s₀ as s) :
    (∀ d q, C.Accounted s d q) ∧
    (∀ d, ¬C.toGraphs.Remains s.cluster d →
      (∀ q : Quantity, (s.board d).tree.closed.Balanced (fun x => q.get x.status)
        (fun x => q.charge (C.dramPowers d) x.charged) ∧
        C.charged s d q = q.get (status s d)) ∧
      (status s d).getDeviceEnergy = Quantity.report (C.charged s d)) ∧
    ((∀ d, ¬C.toGraphs.Remains s.cluster d) → getTotalEnergy s
      = Quantity.report fun q => ((List.finRange N).map fun d => C.charged s d q).sum) := by
  obtain ⟨s₁, -, hrestart⟩ := hinit
  have hall : ∀ d, C.Mirrors d s ∧ ∀ q, C.Accounted s d q := by
    intro d
    exact hrun.invariant (I := fun s => C.Mirrors d s ∧ ∀ q, C.Accounted s d q)
      (fun _ _ _ hx hxy => Accounted.step hC hxy hx)
      ⟨Mirrors.restart hrestart d, Accounted.restart hrestart d⟩
  have hcomplete : ∀ d, ¬C.toGraphs.Remains s.cluster d → ∀ q : Quantity,
      (s.board d).tree.closed.Balanced (fun x => q.get x.status)
        (fun x => q.charge (C.dramPowers d) x.charged) ∧ C.charged s d q = q.get (status s d) := by
    intro d hend q
    exact ((hall d).2 q).complete ((hall d).1.complete hend).1
  refine ⟨fun d => (hall d).2, fun d hend => ⟨hcomplete d hend, ?_⟩, fun hend => ?_⟩
  · rw [StatusBoard.getDeviceEnergy_eq]
    congr 1
    funext q
    exact (hcomplete d hend q).2.symm
  · rw [getTotalEnergy_eq]
    congr 1
    funext q
    congr 1
    apply List.map_congr_left
    intro d _
    exact (hcomplete d (hend d) q).2.symm

/-- Each of the two devices has executed two operations. -/
theorem charges_conserved_two_devices : ∃ s, twoCallsRun = .ok s ∧
    getTotalEnergy s = [0, 0, 0, 0, 0, 0, 12, 12] ∧ getTotalEnergy s
      = Quantity.report fun q => ((List.finRange _).map fun d => twoCalls.charged s d q).sum := by
  have hrun : ∃ s, twoCallsRun = .ok s ∧ (∀ d, ¬twoCalls.toGraphs.Remains s.cluster d) ∧
      getTotalEnergy s = [0, 0, 0, 0, 0, 0, 12, 12] := by
    refine ⟨_, rfl, ?_, ?_⟩
    · decide
    · decide +kernel
  obtain ⟨s, hrun, hend, htotal⟩ := hrun
  obtain ⟨s₀, h₀, h⟩ := bind_eq_ok hrun
  obtain ⟨s₁, h₁, h⟩ := bind_eq_ok h
  obtain ⟨s₂, h₂, h₃⟩ := bind_eq_ok h
  obtain ⟨as, hsteps⟩ := runs_steps (C := twoCalls) (.cons h₁ (.cons h₂ (.single h₃)))
  have hC : twoCalls.Acts fun _ => True := twoCalls_acts trivial fun _ _ => trivial
  exact ⟨s, hrun, htotal,
    (charges_conserved twoCalls hC ⟨_, fun _ => rfl, h₀⟩ hsteps).2.2 hend⟩

end CallGraphs
end LlmSystem
