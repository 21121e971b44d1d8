import LlmSystem.Dram.OpenPage

/-!
The loop of `run` ends. A command serves a request, opens a row for one, or closes a row, and until
a refresh falls due no row is closed before the request it was opened for is served. So only so many
commands are left, and one of them is issued as soon as the device is ready for any.
-/
namespace LlmSystem

open Runs

/-- `busy` bounds the cycles until the device is ready for every command, if it is given none. -/
structure IDRAM.Settles {δ : Type} (dram : IDRAM δ) (busy : δ → ℕ) (longest : ℕ) : Prop where
  tick : ∀ d, busy (dram.tick d) ≤ busy d - 1
  issueCommand : ∀ d cmd v, busy (dram.issueCommand d cmd v) ≤ longest
  checkReady : ∀ d cmd v, busy d = 0 → dram.checkReady d cmd v = true

namespace PIMDRAMController
variable {δ : Type} {dram : IDRAM δ} {rowOf : δ → List ℤ → Option ℤ} {G : Finset (List ℤ)}
  {d d' : δ} {busy : δ → ℕ} {longest : ℕ}

/-- One command for each active request; for the others the one that opens their row and the one
that closes it again as well. -/
def work (c : PIMDRAMController) : ℕ :=
  (c.queue .active).length + 3 * ((c.queue .pim).length + (c.queue .priority).length
    + (c.queue .write).length + (c.queue .read).length)

theorem work_eq_zero {c : PIMDRAMController} : c.work = 0 ↔ ∀ name, c.queue name = [] := by
  constructor
  · intro h name
    unfold work at h
    cases name <;> exact List.length_eq_zero_iff.mp (by omega)
  · intro h
    simp [work, h]

/-- How many of the banks have an open row. -/
def opened (rowOf : δ → List ℤ → Option ℤ) (G : Finset (List ℤ)) (d : δ) : ℕ :=
  (G.filter fun g => (rowOf d g).isSome).card

theorem opened_le (rowOf : δ → List ℤ → Option ℤ) (G : Finset (List ℤ)) (d : δ) :
    opened rowOf G d ≤ G.card := Finset.card_filter_le _ _

theorem opened_open {g : List ℤ} {row : ℤ}
    (hrows : rowOf d' = Function.update (rowOf d) g (some row)) :
    opened rowOf G d' ≤ opened rowOf G d + 1 := by
  have hsub : (G.filter fun g' => (rowOf d' g').isSome)
      ⊆ insert g (G.filter fun g' => (rowOf d g').isSome) := by
    intro g' hg'
    obtain ⟨hmem, hsome⟩ := Finset.mem_filter.mp hg'
    rw [hrows, Function.update_apply] at hsome
    split_ifs at hsome with heq
    · exact Finset.mem_insert.mpr (.inl heq)
    · exact Finset.mem_insert_of_mem (Finset.mem_filter.mpr ⟨hmem, hsome⟩)
  exact (Finset.card_le_card hsub).trans (Finset.card_insert_le _ _)

theorem opened_close {g : List ℤ} {row : ℤ} (hg : g ∈ G) (hopen : rowOf d g = some row)
    (hrows : rowOf d' = Function.update (rowOf d) g none) :
    opened rowOf G d' + 1 ≤ opened rowOf G d := by
  have hmem : g ∈ G.filter fun g' => (rowOf d g').isSome :=
    Finset.mem_filter.mpr ⟨hg, by rw [hopen]; rfl⟩
  have hsub : (G.filter fun g' => (rowOf d' g').isSome)
      ⊆ (G.filter fun g' => (rowOf d g').isSome).erase g := by
    intro g' hg'
    obtain ⟨hmem', hsome⟩ := Finset.mem_filter.mp hg'
    rw [hrows, Function.update_apply] at hsome
    split_ifs at hsome with heq
    · cases hsome
    · exact Finset.mem_erase.mpr ⟨heq, Finset.mem_filter.mpr ⟨hmem', hsome⟩⟩
  have hcard := Finset.card_le_card hsub
  have hpos := Finset.card_pos.mpr ⟨g, hmem⟩
  rw [Finset.card_erase_of_mem hmem] at hcard
  unfold opened
  omega

theorem length_eraseIdx_add_one {l : List Request} {i : ℕ} {r : Request} (h : l[i]? = some r) :
    (l.eraseIdx i).length + 1 = l.length := by
  obtain ⟨hi, -⟩ := List.getElem?_eq_some_iff.mp h
  rw [List.length_eraseIdx_of_lt hi]
  omega

/-- Each command leaves less to do. -/
theorem Moves.work {readLatency : ℤ} {c c' : PIMDRAMController} {it : Iterator}
    {cmd : HBM3Command} {written : List Request}
    (h : Moves readLatency rowOf c d it cmd d' c' written)
    (hpos : (c.queue it.1)[it.2.1]? = some it.2.2.idle)
    (hgroup : rowgroup it.2.2.addrVec ∈ G) :
    c'.work + opened rowOf G d' + 1 ≤ c.work + opened rowOf G d := by
  have herase := length_eraseIdx_add_one hpos
  obtain ⟨name, i, req⟩ := it
  dsimp only at herase hgroup h
  cases h with
  | served hrows hqueue =>
    have hsame : opened rowOf G d' = opened rowOf G d := by rw [opened, hrows, opened]
    simp only [PIMDRAMController.work, hqueue]
    cases name <;> simp only [reduceCtorEq, if_false, if_true] <;> omega
  | activated hname hcmd hclosed hrows hactive hqueue =>
    have hone := opened_open (G := G) hrows
    have hlength : (c'.queue .active).length = (c.queue .active).length + 1 := by
      rw [hactive, List.length_append, List.length_singleton]
    simp only [PIMDRAMController.work, hlength, hqueue .pim (by decide),
      hqueue .priority (by decide), hqueue .write (by decide), hqueue .read (by decide)]
    cases name <;> simp only [reduceCtorEq, if_false, if_true]
    case active => exact absurd rfl hname
    all_goals omega
  | advanced hclosing hcmd hopen hrows hqueue =>
    have hone := opened_close hgroup hopen hrows
    have hlength : ∀ other, (c'.queue other).length = (c.queue other).length := by
      intro other
      rw [hqueue]
      split_ifs with heq
      · rw [heq, List.length_set]
      · rfl
    simp only [PIMDRAMController.work, hlength]
    omega

/-! ### A controller with work to do -/

/-- The mode chooses the buffer that has requests, if one of two is empty. -/
theorem setWriteMode_queue {c : PIMDRAMController} (hc : Configured G c)
    (h : c.queue (if c.setWriteMode.isWriteMode then .write else .read) = []) :
    c.queue .write = [] ∧ c.queue .read = [] := by
  have hnil : ∀ name, (c.buffer name).size = 0 ↔ c.queue name = [] := by
    intro name
    rw [queue, List.map_eq_nil_iff, ReqBuffer.size, List.length_eq_zero_iff]
  have hlow : 0 < c.wrLowWatermark * ((c.buffer .write).maxSize : ℚ) :=
    mul_pos hc.wrLowWatermark (Nat.cast_pos.mpr (hc.sizes .write))
  have hhigh : 0 ≤ c.wrHighWatermark * ((c.buffer .write).maxSize : ℚ) :=
    mul_nonneg hc.wrHighWatermark (Nat.cast_nonneg _)
  rcases hmode : c.setWriteMode.isWriteMode with _ | _ <;> rw [hmode] at h
  · refine ⟨?_, h⟩
    have hread := (hnil .read).mpr h
    by_contra hwrite
    unfold setWriteMode at hmode
    simp only [hread] at hmode
    split_ifs at hmode <;> simp_all
  · refine ⟨h, ?_⟩
    have hwrite := (hnil .write).mpr h
    by_contra hread
    have hsome : (c.buffer .read).size ≠ 0 := fun hzero => hread ((hnil .read).mp hzero)
    unfold setWriteMode at hmode
    simp only [hwrite, Nat.cast_zero, hsome, hlow, hhigh.not_gt] at hmode
    split_ifs at hmode <;> simp_all

theorem pick_none {c c' : PIMDRAMController} {name : BufferName}
    (hready : ∀ cmd v, dram.checkReady d cmd v = true) (hsize : 0 < (c.buffer name).maxSize)
    (h : pick dram d c name = (c', none)) : c.queue name = [] := by
  have hnone := (pick_first h).1 rfl
  by_contra hne
  obtain ⟨r, rs, hqueue⟩ := List.exists_cons_of_ne_nil hne
  have hmem : r ∈ c.queueWindow name := by
    rw [queueWindow, hqueue, ← Nat.succ_pred_eq_of_pos hsize, List.take_succ_cons]
    exact List.mem_cons_self
  have hlate := hnone r hmem
  rw [advances, hready] at hlate
  cases hlate

theorem findRequest_none {c c' : PIMDRAMController} (hc : Configured G c)
    (hready : ∀ cmd v, dram.checkReady d cmd v = true)
    (h : findRequest dram d c = (c', none)) : c.work = 0 := by
  unfold findRequest at h
  split at h
  · cases h
  · rename_i c₁ hactive
    have hlook₁ := (pick_spec hactive).1
    have hc₁ := hc.kept hlook₁.toKept
    split at h
    · cases h
    · rename_i c₂ hpim
      have hlook₂ := (pick_spec hpim).1
      have hc₂ := hc₁.kept hlook₂.toKept
      have hlook := hlook₁.trans hlook₂
      have hactive' := pick_none hready (hc.sizes .active) hactive
      have hpim' := pick_none hready (hc₁.sizes .pim) hpim
      unfold pickRest at h
      split at h
      · obtain ⟨-, h⟩ := Prod.mk.inj h
        rw [ready_withPreq, hready] at h
        cases h
      · rename_i hpriority
        have hmode := Looked.setWriteMode c₂
        have hrest := pick_none hready ((hc₂.kept hmode.toKept).sizes _) h
        rw [hmode.queue] at hrest
        obtain ⟨hwrite, hread⟩ := setWriteMode_queue hc₂ hrest
        refine work_eq_zero.mpr fun name => ?_
        rw [← hlook.queue]
        cases name with
        | active => rwa [hlook.queue]
        | pim => rwa [hlook₂.queue]
        | priority => rw [queue, hpriority, List.map_nil]
        | write => exact hwrite
        | read => exact hread

/-- A ready device is given a command, unless there is nothing to do. -/
theorem scheduleRequest_none {c c' : PIMDRAMController} (hdram : dram.OpenPage rowOf)
    (hready : ∀ cmd v, dram.checkReady d cmd v = true) (hc : RowsHeld rowOf G d c)
    (h : scheduleRequest dram d c = (c', none)) : c.work = 0 := by
  unfold scheduleRequest at h
  split at h
  · rename_i c₁ it hfind
    obtain ⟨rfl, hint⟩ := Prod.mk.inj h
    obtain ⟨hlook, hfound⟩ := findRequest_spec hfind
    obtain ⟨hfirst, hactive, -, -⟩ := findRequest_first hfind it rfl
    split_ifs at hint with hinterrupts
    unfold interrupts at hinterrupts
    simp only [(hfound it rfl).command, Bool.and_eq_true, List.any_eq_true] at hinterrupts
    obtain ⟨hclosing, r, hr, -⟩ := hinterrupts
    have hmem : r.idle ∈ c.queueWindow .active := by
      rw [← hlook.queueWindow, queueWindow, queue, ← List.map_take]
      exact List.mem_map_of_mem hr
    have hname : it.1 = .active := by
      by_contra hne
      have hlate := hactive hne r.idle hmem
      rw [advances, hready] at hlate
      cases hlate
    -- the row of an active request is open, so its command is the access
    have hpos := hfirst.position
    rw [hname] at hpos
    have hit := List.mem_of_getElem? hpos
    have hpreq := hdram.preq d it.2.2.typeId it.2.2.addrVec (hc.kinds .active _ hit).1
    have hopen : rowOf d (rowgroup it.2.2.addrVec) = some it.2.2.addrVec.row :=
      (hc.active _ hit).1
    rw [hopen] at hpreq
    dsimp only at hpreq
    rw [if_pos rfl] at hpreq
    have hfinal : InService.preq dram d it.2.2 = it.2.2.typeId.translation := hpreq
    rw [hfinal] at hclosing
    exfalso
    revert hclosing
    cases it.2.2.typeId <;> decide
  · rename_i c₁ hfind
    obtain ⟨rfl, -⟩ := Prod.mk.inj h
    exact findRequest_none hc.configured hready hfind

/-! ### One tick -/

/-- The first of the pending requests leaves once it is due. -/
theorem looking_pending (refresh : ℕ → ℤ → List RamulatorAddrVec) (c : PIMDRAMController) :
    (c.looking refresh).pending <:+ c.pending ∧ ((∀ r ∈ c.pending, r.depart ≤ c.clk + 1) →
      (c.looking refresh).pending.length ≤ c.pending.length - 1) := by
  unfold looking
  rw [(refreshTick_spec refresh _).2.2.1]
  unfold serveCompletedReads
  dsimp only
  split
  · rename_i hnil
    exact ⟨List.suffix_refl _, fun _ => by simp [hnil]⟩
  · rename_i req pending hcons
    split_ifs with hdue hcall
    · exact ⟨by rw [hcons]; exact List.suffix_cons _ _, fun _ => by simp [hcons]⟩
    · exact ⟨by rw [hcons]; exact List.suffix_cons _ _, fun _ => by simp [hcons]⟩
    · refine ⟨List.suffix_refl _, fun hall => absurd (hall req ?_) hdue⟩
      rw [hcons]
      exact List.mem_cons_self

theorem looking_clk (refresh : ℕ → ℤ → List RamulatorAddrVec) (c : PIMDRAMController) :
    (c.looking refresh).clk = c.clk + 1 := by
  rcases hserve : serveCompletedReads { c with clk := c.clk + 1 } with ⟨c₁, served⟩
  unfold looking
  rw [(refreshTick_spec refresh _).1, hserve, (serveCompletedReads_spec hserve).1]

theorem looking_queue {refresh : ℕ → ℤ → List RamulatorAddrVec} {c : PIMDRAMController}
    (hnone : refresh c.channelId (c.clk + 1) = []) (name : BufferName) :
    (c.looking refresh).queue name = c.queue name := by
  rcases hserve : serveCompletedReads { c with clk := c.clk + 1 } with ⟨c₁, served⟩
  obtain ⟨hclk, hid, hbuffer, -⟩ := serveCompletedReads_spec hserve
  unfold looking refreshTick
  rw [hserve]
  dsimp only at hclk hid ⊢
  rw [hid, hclk, hnone, List.foldl_nil, queue, hbuffer]
  rfl

/-- What a tick of some controllers does: nothing is issued, and whoever waits for data gets closer
to it; or the work becomes less, for each command by one. No data comes later than `due`. -/
inductive Advance (rowOf : δ → List ℤ → Option ℤ) (G : Finset (List ℤ)) (busy : δ → ℕ)
    (longest : ℕ) (latency now due : ℤ) (d : δ) (works awaited : ℕ) (due' : ℤ) (d' : δ)
    (works' awaited' : ℕ) : Prop
  | idle (hdevice : d' = d) (hdue' : due' = due) (hworks : works' = works)
      (hstuck : busy d = 0 → works = 0) (hawaited : awaited' ≤ awaited)
      (hfront : due ≤ now → awaited' ≤ awaited - 1)
  | issued {n : ℕ} (hn : 1 ≤ n) (hbusy : busy d' ≤ longest) (hdue' : due' = max due (now + latency))
      (hworks : works' + opened rowOf G d' + n ≤ works + opened rowOf G d)
      (hawaited : awaited' ≤ awaited + n)

theorem Advance.add {latency now due due₁ due₂ : ℤ} {d d₁ d₂ : δ}
    {w₁ w₁' a₁ a₁' w₂ w₂' a₂ a₂' : ℕ}
    (h : Advance rowOf G busy longest latency now due d w₁ a₁ due₁ d₁ w₁' a₁')
    (h' : Advance rowOf G busy longest latency now due d₁ w₂ a₂ due₂ d₂ w₂' a₂') :
    Advance rowOf G busy longest latency now due d (w₁ + w₂) (a₁ + a₂) (max due₁ due₂) d₂
      (w₁' + w₂') (a₁' + a₂') := by
  cases h with
  | idle hdevice hdue₁ hworks hstuck hawaited hfront =>
    subst hdevice
    cases h' with
    | idle hdevice' hdue₂ hworks' hstuck' hawaited' hfront' =>
      refine .idle hdevice' (by omega) (by omega) (fun hzero => ?_) (by omega) fun hpast => ?_
      · have h₁ := hstuck hzero
        have h₂ := hstuck' hzero
        omega
      · have h₁ := hfront hpast
        have h₂ := hfront' hpast
        omega
    | issued hn hbusy hdue₂ hworks' hawaited' =>
      exact .issued hn hbusy (by omega) (by omega) (by omega)
  | @issued n hn hbusy hdue₁ hworks hawaited =>
    cases h' with
    | idle hdevice' hdue₂ hworks' _ hawaited' =>
      subst hdevice'
      exact .issued hn hbusy (by omega) (by omega) (by omega)
    | @issued n' hn' hbusy' hdue₂ hworks' hawaited' =>
      exact .issued (n := n + n') (le_add_right hn) hbusy' (by omega) (by omega) (by omega)

theorem tick_advance {refresh : ℕ → ℤ → List RamulatorAddrVec} {c c' : PIMDRAMController}
    {callbacks : List Request} {due : ℤ} (hdram : dram.OpenPage rowOf)
    (hsettles : dram.Settles busy longest) (hnone : refresh c.channelId (c.clk + 1) = [])
    (h : RowsHeld rowOf G d c) (hdue : ∀ r ∈ c.pending, r.depart ≤ due)
    (htick : tick dram d refresh c = (d', c', callbacks)) :
    ∃ due', Advance rowOf G busy longest dram.readLatency (c.clk + 1) due d c.work c.pending.length
        due' d' c'.work c'.pending.length ∧
      ∀ r ∈ c'.pending, r.depart ≤ due' := by
  obtain ⟨hlooking, -, -⟩ := looking_held hnone h
  obtain ⟨hsuffix, hfront⟩ := looking_pending refresh c
  have hclk := looking_clk refresh c
  have hwork : (c.looking refresh).work = c.work := by
    simp only [work, looking_queue hnone]
  rcases hsched : scheduleRequest dram d (c.looking refresh) with ⟨c₁, it⟩
  obtain ⟨hlook, hfound⟩ := scheduleRequest_spec hsched
  have hwork₁ : c₁.work = c.work := by
    rw [← hwork]
    simp only [work, hlook.queue]
  rw [← hlook.pending] at hsuffix hfront
  rw [← hlook.clk] at hclk
  have hdue₁ : ∀ r ∈ c₁.pending, r.depart ≤ due := fun r hr => hdue r (hsuffix.subset hr)
  have hlength := hsuffix.length_le
  unfold tick at htick
  dsimp only at htick
  have hsched' := hsched
  unfold looking at hsched'
  rw [hsched'] at htick
  cases it with
  | none =>
    obtain ⟨rfl, rfl, rfl⟩ := htick
    refine ⟨due, .idle rfl rfl hwork₁ (fun hbusy => ?_) hlength fun hpast => ?_, hdue₁⟩
    · rw [← hwork]
      exact scheduleRequest_none hdram (fun cmd v => hsettles.checkReady d cmd v hbusy) hlooking
        hsched
    · exact hfront fun r hr => (hdue r hr).trans hpast
  | some it =>
    rcases hissue : issue dram d c₁ it with ⟨d₂, c₂, written⟩
    simp only [hissue] at htick
    obtain ⟨rfl, rfl, rfl⟩ := htick
    have hheld := hlooking.of_looked hlook
    have hfound := (hfound it rfl).1
    obtain ⟨rfl, -, -⟩ := issue_outcome hfound hissue
    have hmoves := issue_moves hdram hheld hfound hissue
    have hgroup := (hheld.kinds it.1 _ (List.mem_of_getElem? hfound.queue)).2.1
    have hless := hmoves.work hfound.queue hgroup
    rw [hwork₁] at hless
    have hpending : c'.pending = c₁.pending ∨
        ∃ r, c'.pending = c₁.pending ++ [r] ∧ r.depart = c.clk + 1 + dram.readLatency := by
      cases hmoves with
      | served _ _ hpending =>
        rcases hpending with hsame | ⟨r, hmore, -, hdepart⟩
        · exact .inl hsame
        · exact .inr ⟨r, hmore, by rw [hdepart, hclk]⟩
      | activated _ _ _ _ _ _ hpending => exact .inl hpending
      | advanced _ _ _ _ _ hpending => exact .inl hpending
    refine ⟨max due (c.clk + 1 + dram.readLatency),
      .issued le_rfl (hsettles.issueCommand _ _ _) rfl hless ?_, fun r hr => ?_⟩
    · rcases hpending with hsame | ⟨r, hmore, -⟩
      · rw [hsame]
        omega
      · rw [hmore, List.length_append, List.length_singleton]
        omega
    · rcases hpending with hsame | ⟨r', hmore, hdepart⟩
      · rw [hsame] at hr
        exact (hdue₁ r hr).trans (le_max_left _ _)
      · rw [hmore] at hr
        rcases List.mem_append.mp hr with hr | hr
        · exact (hdue₁ r hr).trans (le_max_left _ _)
        · rw [List.mem_singleton.mp hr, hdepart]
          exact le_max_right _ _

theorem isFinished_iff {c : PIMDRAMController} :
    c.isFinished = true ↔ c.work = 0 ∧ c.pending.length = 0 := by
  have hempty : ∀ name, (c.buffer name).empty = true ↔ c.queue name = [] := by
    intro name
    rw [ReqBuffer.empty, List.isEmpty_iff, queue, List.map_eq_nil_iff]
  rw [work_eq_zero, List.length_eq_zero_iff]
  simp only [isFinished, Bool.and_eq_true, hempty, List.isEmpty_iff]
  constructor
  · rintro ⟨⟨⟨⟨⟨hpending, hactive⟩, hpriority⟩, hread⟩, hwrite⟩, hpim⟩
    exact ⟨fun name => by cases name <;> assumption, hpending⟩
  · rintro ⟨hqueues, hpending⟩
    exact ⟨⟨⟨⟨⟨hpending, hqueues _⟩, hqueues _⟩, hqueues _⟩, hqueues _⟩, hqueues _⟩

/-- A waiting request is given three commands at most. -/
theorem work_le (c : PIMDRAMController) : c.work ≤ 3 * c.waiting.card := by
  simp only [work, queue, waiting, ReqBuffer.bag, Multiset.card_add, Multiset.coe_card]
  omega

end PIMDRAMController

/-! ### The loop -/

namespace PIMDRAMSystem
open PIMDRAMController (RowsHeld Advance work opened rowgroup)

variable {δ : Type} {dram : IDRAM δ} {rowOf : δ → List ℤ → Option ℤ} {G : Finset (List ℤ)}
  {busy : δ → ℕ} {longest : ℕ} {refresh : ℕ → ℤ → List RamulatorAddrVec}

def works (cs : List PIMDRAMController) : ℕ := (cs.map work).sum

def awaited (cs : List PIMDRAMController) : ℕ := (cs.map fun c => c.pending.length).sum

theorem tickAll_advance {d d' : δ} {cs cs' : List PIMDRAMController} {callbacks : List Request}
    {clk due : ℤ} (hdram : dram.OpenPage rowOf) (hsettles : dram.Settles busy longest)
    (hnone : ∀ c ∈ cs, refresh c.channelId (c.clk + 1) = [])
    (hids : (cs.map PIMDRAMController.channelId).Nodup) (hclk : ∀ c ∈ cs, c.clk = clk)
    (hcs : ∀ c ∈ cs, RowsHeld rowOf G d c) (hdue : ∀ c ∈ cs, ∀ r ∈ c.pending, r.depart ≤ due)
    (h : tickAll dram refresh d cs = (d', cs', callbacks)) :
    ∃ due', Advance rowOf G busy longest dram.readLatency (clk + 1) due d (works cs) (awaited cs)
        due' d' (works cs') (awaited cs') ∧
      ∀ c ∈ cs', ∀ r ∈ c.pending, r.depart ≤ due' := by
  induction cs generalizing d cs' callbacks with
  | nil =>
    obtain ⟨rfl, rfl, rfl⟩ := h
    exact ⟨due, .idle rfl rfl rfl (fun _ => rfl) le_rfl fun _ => le_rfl, by simp⟩
  | cons c cs ih =>
    obtain ⟨d₁, c₁, callbacks₁, cs₂, callbacks₂, hc, hrest, rfl, rfl⟩ := tickAll_cons h
    obtain ⟨hone, hcs⟩ := List.forall_mem_cons.mp hcs
    obtain ⟨hfirst, hnone⟩ := List.forall_mem_cons.mp hnone
    obtain ⟨hnow, hclk⟩ := List.forall_mem_cons.mp hclk
    obtain ⟨hdue₀, hdue⟩ := List.forall_mem_cons.mp hdue
    obtain ⟨hnew, hids⟩ := List.nodup_cons.mp hids
    obtain ⟨-, -, -, hframe⟩ := PIMDRAMController.tick_held hdram hfirst hone hc
    have hcs₁ : ∀ c' ∈ cs, RowsHeld rowOf G d₁ c' := by
      intro c' hc'
      have hne : c'.channelId ≠ c.channelId := fun heq => hnew (heq ▸ List.mem_map_of_mem hc')
      exact (hcs c' hc').of_device fun v hv => hframe v (by rw [hv]; exact_mod_cast hne)
    obtain ⟨due₁, hadvance, hdue₁⟩ :=
      PIMDRAMController.tick_advance hdram hsettles hfirst hone hdue₀ hc
    obtain ⟨due₂, hadvance', hdue₂⟩ := ih hnone hids hclk hcs₁ hdue hrest
    rw [hnow] at hadvance
    refine ⟨max due₁ due₂, ?_, List.forall_mem_cons.mpr ⟨fun r hr => ?_, fun c' hc' r hr => ?_⟩⟩
    · simpa only [works, awaited, List.map_cons, List.sum_cons] using hadvance.add hadvance'
    · exact (hdue₁ r hr).trans (le_max_left _ _)
    · exact (hdue₂ c' hc' r hr).trans (le_max_right _ _)

theorem isFinished_iff {s : PIMDRAMSystem δ} :
    s.isFinished = true ↔ works s.controllers = 0 ∧ awaited s.controllers = 0 := by
  simp only [isFinished, List.all_eq_true, PIMDRAMController.isFinished_iff, works, awaited,
    List.sum_eq_zero_iff, List.forall_mem_map, forall_and]

/-- The rounds that are left, if no data comes later than `due`. -/
def remaining (dram : IDRAM δ) (rowOf : δ → List ℤ → Option ℤ) (G : Finset (List ℤ))
    (busy : δ → ℕ) (longest : ℕ) (due : ℤ) (s : PIMDRAMSystem δ) : ℕ :=
  (longest + dram.readLatency.toNat + 2) * (works s.controllers + opened rowOf G s.dram)
    + busy s.dram + awaited s.controllers + (due - s.clk).toNat

theorem tick_remaining {s s' : PIMDRAMSystem δ} {callbacks : List Request} {due : ℤ}
    (hdram : dram.OpenPage rowOf) (hsettles : dram.Settles busy longest)
    (hnone : ∀ channel, refresh channel (s.clk + 1) = []) (hs : s.Held rowOf G)
    (hbusy : busy s.dram ≤ longest)
    (hdue : ∀ c ∈ s.controllers, ∀ r ∈ c.pending, r.depart ≤ due)
    (h : s.tick dram refresh = (s', callbacks)) :
    busy s'.dram ≤ longest ∧ (s'.isFinished = true ∨ ∃ due',
      (∀ c ∈ s'.controllers, ∀ r ∈ c.pending, r.depart ≤ due') ∧
        remaining dram rowOf G busy longest due' s'
          < remaining dram rowOf G busy longest due s) := by
  obtain ⟨d, cs, hall, rfl⟩ := tick_cases h
  have hheld : ∀ c ∈ s.controllers, RowsHeld rowOf G (dram.tick s.dram) c := fun c hc =>
    (hs.held c hc).of_device fun v _ => by rw [hdram.tick]
  have hrefresh : ∀ c ∈ s.controllers, refresh c.channelId (c.clk + 1) = [] := fun c hc => by
    rw [hs.inStep c hc, hnone]
  obtain ⟨due', hadvance, hdue'⟩ := tickAll_advance hdram hsettles hrefresh
    (by rw [hs.ids]; exact List.nodup_range) hs.inStep hheld hdue hall
  have hopened : opened rowOf G (dram.tick s.dram) = opened rowOf G s.dram := by
    rw [opened, hdram.tick, opened]
  have hcool := hsettles.tick s.dram
  rw [isFinished_iff]
  dsimp only
  cases hadvance with
  | idle hdevice hdue₁ hworks hstuck hawaited hfront =>
    subst hdevice hdue₁
    refine ⟨by omega, ?_⟩
    by_cases hdone : works cs = 0 ∧ awaited cs = 0
    · exact .inl hdone
    · refine .inr ⟨due', hdue', ?_⟩
      unfold remaining
      dsimp only
      rw [hworks, hopened]
      by_cases hzero : busy (dram.tick s.dram) = 0
      · have hnowork := hstuck hzero
        by_cases hpast : due' ≤ s.clk + 1
        · have hless := hfront hpast
          omega
        · omega
      · omega
  | @issued n hn hbusy' hdue₁ hworks hawaited =>
    refine ⟨hbusy', .inr ⟨due', hdue', ?_⟩⟩
    rw [hopened] at hworks
    have hscaled := Nat.mul_le_mul_left (longest + dram.readLatency.toNat + 2) hworks
    have hcost : longest + dram.readLatency.toNat + 2 * n
        ≤ (longest + dram.readLatency.toNat + 2) * n := by
      nlinarith
    rw [mul_add] at hscaled
    unfold remaining
    dsimp only
    omega

theorem tick_controllers {s s' : PIMDRAMSystem δ} {callbacks : List Request}
    (h : s.tick dram refresh = (s', callbacks)) :
    s'.controllers.length = s.controllers.length := by
  obtain ⟨d, cs, hall, rfl⟩ := tick_cases h
  simpa using congrArg List.length (tickAll_clk hall)

/-! ### A batch that is sent -/

theorem works_le (cs : List PIMDRAMController) : works cs ≤ 3 * (waiting cs).card := by
  induction cs with
  | nil => simp [works]
  | cons c cs ih =>
    have hone := c.work_le
    simp only [works, waiting, List.map_cons, List.sum_cons, Multiset.card_add] at ih ⊢
    omega

theorem awaited_eq (cs : List PIMDRAMController) : awaited cs = (pending cs).card := by
  induction cs with
  | nil => rfl
  | cons c cs ih =>
    simp only [awaited, pending, List.map_cons, List.sum_cons, Multiset.card_add,
      Multiset.coe_card, List.length_map] at ih ⊢
    rw [ih]

theorem send_ok {s : PIMDRAMSystem δ} (req : Request)
    (htype : req.typeId.reads = true ∨ req.typeId.writes = true)
    (hchannel : req.addrVec.channel = 0) (hs : s.controllers ≠ []) :
    ∃ s', s.send req = .ok s' := by
  obtain ⟨c, cs, hcs⟩ := List.exists_cons_of_ne_nil hs
  have hsend : ∃ c', c.send req = .ok c' := by
    unfold PIMDRAMController.send
    split_ifs
    · exact ⟨_, rfl⟩
    · have hkind : (req.arriveAt c.clk).typeId = req.typeId := rfl
      simp only [hkind]
      cases ht : req.typeId <;>
        first | exact ⟨_, rfl⟩ | simp [ht, RequestType.reads, RequestType.writes] at htype
  obtain ⟨c', hc'⟩ := hsend
  refine ⟨{ s with controllers := c' :: cs }, ?_⟩
  simp [send, hchannel, hcs, hc', bind, Except.bind]

theorem send_controllers {s s' : PIMDRAMSystem δ} {req : Request} (h : s.send req = .ok s') :
    s'.controllers.length = s.controllers.length := by
  obtain ⟨-, c, c', -, -, rfl⟩ := send_cases h
  exact List.length_set

end PIMDRAMSystem

namespace DRAMInterface
open PIMDRAMSystem
open PIMDRAMController (rowgroup opened opened_le)

variable {δ : Type} {dram : IDRAM δ} {rowOf : δ → List ℤ → Option ℤ} {G : Finset (List ℤ)}
  {busy : δ → ℕ} {longest : ℕ} {refresh : ℕ → ℤ → List RamulatorAddrVec}

/-- The loop ends when no work remains, within so many rounds. -/
theorem run_returns {fuel : ℕ} {s : PIMDRAMSystem δ} {due : ℤ} (pimrequest : Simulated)
    (hdram : dram.OpenPage rowOf) (hsettles : dram.Settles busy longest)
    (hnone : ∀ channel clk, s.clk < clk → clk ≤ s.clk + fuel → refresh channel clk = [])
    (hs : s.Held rowOf G) (hbusy : busy s.dram ≤ longest)
    (hdue : ∀ c ∈ s.controllers, ∀ r ∈ c.pending, r.depart ≤ due)
    (hfuel : remaining dram rowOf G busy longest due s < fuel) :
    ∃ s' pimrequest', run dram refresh fuel (s, pimrequest) = some (s', pimrequest') ∧
      s'.isFinished = true ∧ s'.controllers.length = s.controllers.length ∧ s'.Held rowOf G ∧
      busy s'.dram ≤ longest ∧ s'.clk ≤ s.clk + fuel := by
  induction fuel generalizing s pimrequest due with
  | zero => exact absurd hfuel (Nat.not_lt_zero _)
  | succ fuel ih =>
    rcases htick : s.tick dram refresh with ⟨s₁, callbacks⟩
    have hnow : ∀ channel, refresh channel (s.clk + 1) = [] := fun channel =>
      hnone channel _ (lt_add_one _) (by push_cast; omega)
    obtain ⟨hclk, -⟩ := tick_inStep htick hs.inStep
    obtain ⟨hs₁, -⟩ := tick_held hdram hnow hs htick
    have hlength := tick_controllers htick
    obtain ⟨hbusy₁, hnext⟩ := tick_remaining hdram hsettles hnow hs hbusy hdue htick
    simp only [run, round, htick]
    by_cases hfin : s₁.isFinished = true
    · rw [if_pos hfin]
      exact ⟨s₁, _, rfl, hfin, hlength, hs₁, hbusy₁, by push_cast; omega⟩
    · rw [if_neg hfin]
      obtain ⟨due', hdue', hless⟩ := hnext.resolve_left hfin
      obtain ⟨s', pimrequest', hrun, hfin', hlength', hheld, hbusy', hclk'⟩ := ih _
        (fun channel clk hlt hle => hnone channel clk (by omega) (by push_cast; omega)) hs₁ hbusy₁
        hdue' (by omega)
      exact ⟨s', pimrequest', hrun, hfin', hlength'.trans hlength, hheld, hbusy',
        by push_cast; omega⟩

theorem getType_sends (type : PIMCommandType) :
    (PIMController.getType type).reads = true ∨ (PIMController.getType type).writes = true := by
  cases type <;> decide

/-- Commands for channel 0 can be sent, and each of them waits. -/
theorem sendAll_ok {cmds : List PIMCommand} {s : PIMDRAMSystem δ}
    (hchannel : ∀ cmd ∈ cmds, cmd.addrVec.channel = 0) (hs : s.controllers ≠ [])
    (hheld : s.Held rowOf G) (hbanks : ∀ cmd ∈ cmds, rowgroup cmd.addrVec ∈ G) :
    ∃ s', PIMController.sendAll cmds s = .ok s' ∧ s'.Held rowOf G ∧
      s'.controllers.length = s.controllers.length ∧
      (waiting s'.controllers).card ≤ (waiting s.controllers).card + cmds.length := by
  induction cmds generalizing s with
  | nil => exact ⟨s, rfl, hheld, rfl, le_rfl⟩
  | cons cmd cmds ih =>
    obtain ⟨hzero, hchannel⟩ := List.forall_mem_cons.mp hchannel
    obtain ⟨hbank, hbanks⟩ := List.forall_mem_cons.mp hbanks
    obtain ⟨s₁, hsend⟩ := send_ok (PIMController.request cmd)
      (getType_sends cmd.pimcmdType) hzero hs
    have hlength := send_controllers hsend
    have hcard : (waiting s₁.controllers).card ≤ (waiting s.controllers).card + 1 := by
      obtain ⟨-, -, clk, ⟨hwait, -⟩ | ⟨-, hwait, -⟩⟩ := send_flow hsend
      · simp [hwait]
      · simp [hwait]
    obtain ⟨s', hrest, hheld', hlength', hcard'⟩ := ih hchannel
      (by rwa [← List.length_pos_iff, hlength, List.length_pos_iff])
      (send_held hheld ⟨hbank, rfl⟩ hsend) hbanks
    refine ⟨s', ?_, hheld', hlength'.trans hlength, ?_⟩
    · simp [PIMController.sendAll, hsend, hrest, bind, Except.bind]
    · rw [List.length_cons]
      omega

/-- The rounds after which a batch is handled. -/
def rounds (dram : IDRAM δ) (G : Finset (List ℤ)) (longest : ℕ) (cmds : List PIMCommand) : ℕ :=
  (longest + dram.readLatency.toNat + 2) * (3 * cmds.length + G.card) + longest

section Requests
variable {c : MemoryConfig} {pimHWConfig : PIMHWConfig} {fuel : ℕ} {s : PIMDRAMSystem δ}
  (memoryScaleFactor : ℚ) (status : ExecStatus)

theorem handle_returns {request : DRAMRequest} {cmds : List PIMCommand}
    (hdram : dram.OpenPage rowOf) (hsettles : dram.Settles busy longest)
    (hnone : ∀ channel clk, s.clk < clk → clk ≤ s.clk + fuel → refresh channel clk = [])
    (hs : s.isFinished = true) (hchannels : s.controllers ≠ []) (hheld : s.Held rowOf G)
    (hbusy : busy s.dram ≤ longest)
    (hcmds : generatePIMCommand c pimHWConfig request [] = .ok cmds)
    (hbanks : ∀ cmd ∈ cmds, rowgroup cmd.addrVec ∈ G)
    (hfuel : rounds dram G longest cmds < fuel) :
    ∃ s' status', handle dram refresh c memoryScaleFactor pimHWConfig fuel (s, status) request
        = .ok (s', status') ∧
      s'.isFinished = true ∧ s'.controllers ≠ [] ∧ s'.Held rowOf G ∧ busy s'.dram ≤ longest ∧
      s'.clk ≤ s.clk + fuel := by
  obtain ⟨⟨type, htype⟩, hzero⟩ := generatePIMCommand_uniform hcmds
  obtain ⟨loaded, hsent, hheld₁, hlength, hcard⟩ := sendAll_ok hzero hchannels hheld hbanks
  obtain ⟨hdevice, hloaded⟩ :=
    sendAll_loaded htype (.inr (finished_noWrites hs)) (finished_loaded hs _) hsent
  obtain ⟨hclk, -⟩ := sendAll_inStep hsent hheld.inStep
  have hawaited : awaited loaded.controllers = 0 := by
    rw [awaited_eq, hloaded.pending, Multiset.card_zero]
  have hdue : ∀ c ∈ loaded.controllers, ∀ r ∈ c.pending, r.depart ≤ s.clk := by
    intro c hc r hr
    have hzero : c.pending.length = 0 :=
      List.sum_eq_zero_iff.mp hawaited _ (List.mem_map_of_mem (f := fun c => c.pending.length) hc)
    rw [List.length_eq_zero_iff.mp hzero] at hr
    cases hr
  have hremaining : remaining dram rowOf G busy longest s.clk loaded
      ≤ rounds dram G longest cmds := by
    have hworks := works_le loaded.controllers
    rw [(finished_empty hs).1, Multiset.card_zero, zero_add] at hcard
    have hopened := opened_le rowOf G loaded.dram
    have hscaled := Nat.mul_le_mul_left (longest + dram.readLatency.toNat + 2)
      (show works loaded.controllers + opened rowOf G loaded.dram ≤ 3 * cmds.length + G.card by
        omega)
    rw [← hdevice] at hbusy
    unfold remaining rounds
    omega
  rw [← hdevice] at hbusy
  obtain ⟨s', pimrequest', hrun, hfin, hlength', hheld', hbusy', hclk'⟩ := run_returns
    { start := s.clk, «end» := s.clk } hdram hsettles
    (fun channel clk hlt hle => hnone channel clk (by omega) (by omega)) hheld₁ hbusy hdue
    (hremaining.trans_lt hfuel)
  refine ⟨s', updateStatus memoryScaleFactor status pimrequest', ?_, hfin, ?_, hheld', hbusy',
    by omega⟩
  · simp [handle, hcmds, PIMController.send, hsent, hrun, bind, Except.bind]
  · rwa [← List.length_pos_iff, hlength', hlength, List.length_pos_iff]

/-- The requests are handled: until a refresh falls due, and on 32 banks of a channel at most, the
loop for each of them ends. -/
theorem handleRequests_returns {requests : List DRAMRequest} {batches : List (List PIMCommand)}
    (hdram : dram.OpenPage rowOf) (hsettles : dram.Settles busy longest)
    (hnone : ∀ channel clk, s.clk < clk → clk ≤ s.clk + requests.length * fuel →
      refresh channel clk = [])
    (hs : s.isFinished = true) (hchannels : s.controllers ≠ []) (hheld : s.Held rowOf G)
    (hbusy : busy s.dram ≤ longest)
    (hbatches : requests.mapM (fun request => generatePIMCommand c pimHWConfig request [])
      = .ok batches)
    (hbanks : ∀ cmds ∈ batches, ∀ cmd ∈ cmds, rowgroup cmd.addrVec ∈ G)
    (hfuel : ∀ cmds ∈ batches, rounds dram G longest cmds < fuel) :
    ∃ x, handleRequests dram refresh c memoryScaleFactor pimHWConfig fuel requests (s, status)
        = .ok x ∧ x.1.isFinished = true ∧ x.1.clk ≤ s.clk + requests.length * fuel := by
  unfold handleRequests
  generalize resetCounter status = status
  induction requests generalizing s status batches with
  | nil => exact ⟨_, rfl, hs, by simp⟩
  | cons request requests ih =>
    rw [List.mapM_cons] at hbatches
    obtain ⟨cmds, hcmds, hrest⟩ := bind_eq_ok hbatches
    obtain ⟨batches', htail, hcons⟩ := bind_eq_ok hrest
    obtain rfl := Except.ok.inj hcons
    obtain ⟨hbank, hbanks⟩ := List.forall_mem_cons.mp hbanks
    obtain ⟨hfuel₀, hfuel⟩ := List.forall_mem_cons.mp hfuel
    have hspan : ((request :: requests).length : ℤ) * fuel = fuel + requests.length * fuel := by
      push_cast [List.length_cons]
      ring
    have hlater : (0 : ℤ) ≤ requests.length * fuel := by positivity
    rw [hspan] at hnone ⊢
    obtain ⟨s₁, status₁, hone, hs₁, hchannels₁, hheld₁, hbusy₁, hclk₁⟩ :=
      handle_returns memoryScaleFactor status hdram hsettles
        (fun channel clk hlt hle => hnone channel clk hlt (by omega)) hs hchannels hheld hbusy
        hcmds hbank hfuel₀
    have hstart : s.clk ≤ s₁.clk := by
      obtain ⟨_, _, _, _, -, hhandled, -⟩ := handle_handled hone
      exact hhandled.clk
    obtain ⟨x, hx, hfin, hclk⟩ := ih
      (fun channel clk hlt hle => hnone channel clk (by omega) (by omega)) hs₁ hchannels₁ hheld₁
      hbusy₁ htail hbanks hfuel status₁
    refine ⟨x, ?_, hfin, by omega⟩
    rw [List.foldlM_cons, hone]
    exact hx

theorem idram_settles (gap readLatency : ℤ) : (OpenRows.idram gap readLatency).Settles
    (fun d => (d.free - d.clk).toNat) gap.toNat where
  tick d := by
    show (d.free - (d.clk + 1)).toNat ≤ (d.free - d.clk).toNat - 1
    omega
  issueCommand d cmd v := by
    show (d.clk + gap - d.clk).toNat ≤ gap.toNat
    omega
  checkReady d cmd v h := by
    refine decide_eq_true ?_
    omega

/-- Two reads, within the rounds that are enough for them. -/
theorem read_returns : ∃ x, handleRequests (OpenRows.idram 1 2) (fun _ _ => []) hbm3_80GB 1 {} 42
    [⟨.kRead, [(.kDRAM, ⟨0, 5120⟩)]⟩] (create 1 {}, {}) = .ok x ∧ x.1.isFinished = true := by
  have hcmds : ([⟨.kRead, [(.kDRAM, ⟨0, 5120⟩)]⟩].mapM fun request =>
      generatePIMCommand hbm3_80GB {} request []).toOption.any
      (fun batches => batches.all fun cmds => cmds.length == 2 && cmds.all fun cmd =>
        rowgroup cmd.addrVec ∈ [[0, 0, 0, 0, 0], [0, 1, 0, 0, 0]]) = true := by
    decide +kernel
  obtain ⟨batches, hbatches, hp⟩ := exists_ok_of_any hcmds
  simp only [List.all_eq_true, Bool.and_eq_true, beq_iff_eq, decide_eq_true_eq] at hp
  have hfuel : ∀ cmds ∈ batches,
      rounds (OpenRows.idram 1 2) {[0, 0, 0, 0, 0], [0, 1, 0, 0, 0]} 1 cmds < 42 := by
    intro cmds hmem
    unfold rounds
    rw [(hp cmds hmem).1]
    decide
  obtain ⟨x, hx, hfin, -⟩ := handleRequests_returns
    (G := {[0, 0, 0, 0, 0], [0, 1, 0, 0, 0]}) (s := create 1 {}) 1 {} (idram_openPage 1 2)
    (idram_settles 1 2) (fun _ _ _ _ => rfl) (by decide) (by decide)
    (create_held (PIMDRAMController.banksOf_card_le (by decide)) 1 _) (by decide) hbatches
    (fun cmds hmem cmd hcmd => by simpa using (hp cmds hmem).2 cmd hcmd) hfuel
  exact ⟨x, hx, hfin⟩

end Requests
end DRAMInterface
end LlmSystem
