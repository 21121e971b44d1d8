import LlmSystem.Executor.Reports

/-!
What `getIdealMemoryStatus` returns over the executions of a device. A tensor of size 0 leaves
the status of the device as it is, with the counts of the request before it.
-/
namespace LlmSystem

/-- The commands of a status: its act, read and write counts. -/
def ExecStatus.commands (e : ExecStatus) : ℕ × ℕ × ℕ := (e.actCount, e.readCount, e.writeCount)

theorem runIdeal_empty (c : MemoryConfig) (dramRequestType : DRAMRequestType)
    (execStatus : ExecStatus) : runIdeal c dramRequestType 0 execStatus = execStatus := rfl

/-- A tensor with bytes resets the status before it counts. -/
theorem runIdeal_fresh {c : MemoryConfig} {dramRequestType : DRAMRequestType} {size : ℕ}
    (hsize : size ≠ 0) (execStatus : ExecStatus) :
    runIdeal c dramRequestType size execStatus = runIdeal c dramRequestType size {} := by
  unfold runIdeal
  rw [if_neg hsize, if_neg hsize]
  rfl

/-- There is at least one activation. -/
theorem runIdeal_actCount_pos {c : MemoryConfig} (hc : c.Valid)
    (dramRequestType : DRAMRequestType) {size : ℕ} (hsize : size ≠ 0) (execStatus : ExecStatus) :
    0 < (runIdeal c dramRequestType size execStatus).actCount := by
  have hact (n : ℕ) : 0 < if n < c.numCol then 1 else n / c.numCol := by
    split_ifs with hn
    · exact Nat.one_pos
    · exact Nat.div_pos (not_lt.mp hn) hc.numCol_pos
  unfold runIdeal
  rw [if_neg hsize]
  dsimp only
  split
  · exact hact _
  · exact hact _
  · exact hact _

namespace DeviceMemory
variable (d : DeviceMemory)

/-- The calls of `getIdealMemoryStatus` in one execution. -/
def idealStatuses : IssueState → List IssueCall → List ExecStatus × IssueState
  | s, [] => ([], s)
  | s, call :: calls =>
    let answer := d.getIdealMemoryStatus s call
    let rest := idealStatuses answer.2 calls
    (answer.1 :: rest.1, rest.2)

theorem askAll_eq_idealStatuses (s : IssueState) (calls : List IssueCall) :
    d.askAll false s calls = .ok (d.idealStatuses s calls) := by
  induction calls generalizing s with
  | nil => rfl
  | cons call calls ih =>
    show Except.bind (d.askAll false (d.getIdealMemoryStatus s call).2 calls) _ = _
    rw [ih]
    rfl

/-- `Device::execution` after the reset. -/
def begin (s : IssueState) : IssueState :=
  { s with execStatus := DRAMInterface.resetCounter s.execStatus }

/-- The executions of a device, one after the other. -/
def executions : IssueState → List (List IssueCall) → List (List ExecStatus)
  | _, [] => []
  | s, calls :: callss =>
    let answers := d.idealStatuses (begin s) calls
    answers.1 :: executions answers.2 callss

/-- The commands of each answer are those that `own` gives for the request type and the size. -/
def Answers (own : DRAMRequestType → ℕ → ℕ × ℕ × ℕ) : List IssueCall → List ExecStatus → Prop :=
  List.Forall₂ fun call e => e.commands = own call.dramRequestType call.tensor.size

/-- The commands that a call returns depend on its request alone; without bytes there are none. -/
def CountsOwn (s : IssueState) (callss : List (List IssueCall)) : Prop :=
  ∃ own : DRAMRequestType → ℕ → ℕ × ℕ × ℕ, (∀ dramRequestType, own dramRequestType 0 = (0, 0, 0)) ∧
    List.Forall₂ (Answers own) callss (d.executions s callss)

/-- No tensor without bytes comes after one with bytes. -/
def EmptyFirst (calls : List IssueCall) : Prop :=
  calls.Pairwise fun earlier later => later.tensor.size = 0 → earlier.tensor.size = 0

/-- What a call returns on a device that has counted nothing. -/
def ownCommands (dramRequestType : DRAMRequestType) (size : ℕ) : ℕ × ℕ × ℕ :=
  (runIdeal d.memoryConfig dramRequestType size {}).commands

variable {d}

theorem commands_own {s : IssueState} {call : IssueCall} (hsize : call.tensor.size ≠ 0) :
    (d.getIdealMemoryStatus s call).1.commands
      = d.ownCommands call.dramRequestType call.tensor.size := by
  unfold getIdealMemoryStatus ownCommands
  rw [runIdeal_fresh hsize]

/-- Calls with bytes count their own, from whatever status they start. -/
theorem answers_nonempty {calls : List IssueCall} (h : ∀ call ∈ calls, call.tensor.size ≠ 0)
    (s : IssueState) : Answers d.ownCommands calls (d.idealStatuses s calls).1 := by
  induction calls generalizing s with
  | nil => exact .nil
  | cons call calls ih =>
    have hcall : call.tensor.size ≠ 0 := h call (by simp)
    exact .cons (commands_own hcall) (ih (fun c hc => h c (by simp [hc])) _)

theorem answers_emptyFirst {calls : List IssueCall} (h : EmptyFirst calls) {s : IssueState}
    (hs : s.execStatus.commands = (0, 0, 0)) :
    Answers d.ownCommands calls (d.idealStatuses s calls).1 := by
  induction calls generalizing s with
  | nil => exact .nil
  | cons call calls ih =>
    obtain ⟨hfirst, hrest⟩ := List.pairwise_cons.mp h
    by_cases hsize : call.tensor.size = 0
    · have hanswer : (d.getIdealMemoryStatus s call).1 = s.execStatus := by
        unfold getIdealMemoryStatus
        rw [hsize, runIdeal_empty]
      have hown : d.ownCommands call.dramRequestType call.tensor.size = (0, 0, 0) := by
        unfold ownCommands
        rw [hsize, runIdeal_empty]
        rfl
      refine .cons ?_ (ih hrest ?_)
      · rw [hanswer, hs, hown]
      · show (d.getIdealMemoryStatus s call).1.commands = _
        rw [hanswer, hs]
    · -- From here on no tensor is empty.
      have hnonempty : ∀ c ∈ calls, c.tensor.size ≠ 0 := fun c hc hzero => hsize (hfirst c hc hzero)
      exact .cons (commands_own hsize) (answers_nonempty hnonempty _)

/-- After a call with bytes, one without would return its activations. -/
theorem nonempty_of_answers {own : DRAMRequestType → ℕ → ℕ × ℕ × ℕ}
    (hown : ∀ dramRequestType, own dramRequestType 0 = (0, 0, 0)) (hc : d.memoryConfig.Valid)
    {calls : List IssueCall} {s : IssueState} (hs : 0 < s.execStatus.actCount)
    (h : Answers own calls (d.idealStatuses s calls).1) :
    ∀ call ∈ calls, call.tensor.size ≠ 0 := by
  induction calls generalizing s with
  | nil => simp
  | cons call calls ih =>
    obtain ⟨hcall, hrest⟩ := List.forall₂_cons.mp h
    have hsize : call.tensor.size ≠ 0 := by
      intro hzero
      unfold getIdealMemoryStatus at hcall
      rw [hzero, runIdeal_empty, hown] at hcall
      have hact : s.execStatus.actCount = 0 := (Prod.ext_iff.mp hcall).1
      omega
    exact List.forall_mem_cons.mpr ⟨hsize, ih (runIdeal_actCount_pos hc _ hsize _) hrest⟩

theorem emptyFirst_of_answers {own : DRAMRequestType → ℕ → ℕ × ℕ × ℕ}
    (hown : ∀ dramRequestType, own dramRequestType 0 = (0, 0, 0)) (hc : d.memoryConfig.Valid)
    {calls : List IssueCall} {s : IssueState}
    (h : Answers own calls (d.idealStatuses s calls).1) : EmptyFirst calls := by
  induction calls generalizing s with
  | nil => exact .nil
  | cons call calls ih =>
    obtain ⟨-, hrest⟩ := List.forall₂_cons.mp h
    refine .cons (fun later hlater hzero => ?_) (ih hrest)
    by_contra hsize
    exact nonempty_of_answers hown hc (runIdeal_actCount_pos hc _ hsize _) hrest later hlater hzero

/-- The counts of a call depend on its request alone exactly when no execution asks for an empty
tensor after one with bytes. -/
theorem countsOwn_iff (hc : d.memoryConfig.Valid) (s : IssueState)
    (callss : List (List IssueCall)) :
    d.CountsOwn s callss ↔ ∀ calls ∈ callss, EmptyFirst calls := by
  constructor
  · rintro ⟨own, hown, h⟩
    induction callss generalizing s with
    | nil => simp
    | cons calls callss ih =>
      obtain ⟨hcalls, hrest⟩ := List.forall₂_cons.mp h
      exact List.forall_mem_cons.mpr ⟨emptyFirst_of_answers hown hc hcalls, ih _ hrest⟩
  · intro h
    refine ⟨d.ownCommands, fun _ => rfl, ?_⟩
    induction callss generalizing s with
    | nil => exact .nil
    | cons calls callss ih =>
      obtain ⟨hcalls, hrest⟩ := List.forall_mem_cons.mp h
      exact .cons (answers_emptyFirst hcalls rfl) (ih _ hrest)

/-- A read of 64 bytes and one of none. -/
def readCall (size : ℕ) : IssueCall :=
  ⟨.linear, .gpu, .kRead, .kDRAM, ⟨0, size⟩, {}⟩

theorem countsOwn_empty_first :
    (⟨hbm3_80GB, 1, fun _ => {}⟩ : DeviceMemory).CountsOwn {}
      [[readCall 0, readCall 64], [readCall 0]] :=
  (countsOwn_iff hbm3_80GB_valid {} _).mpr (by
    simp [EmptyFirst, readCall])

/-- The empty tensor is read with the one activation and the one command of the other. -/
theorem countsOwn_leak :
    ¬(⟨hbm3_80GB, 1, fun _ => {}⟩ : DeviceMemory).CountsOwn {}
      [[readCall 64, readCall 0]] := by
  rintro ⟨own, hown, h⟩
  obtain ⟨hcalls, -⟩ := List.forall₂_cons.mp h
  obtain ⟨-, hrest⟩ := List.forall₂_cons.mp hcalls
  obtain ⟨hempty, -⟩ := List.forall₂_cons.mp hrest
  have hzero := hempty.trans (hown .kRead)
  exact absurd hzero (by decide)

end DeviceMemory
end LlmSystem
