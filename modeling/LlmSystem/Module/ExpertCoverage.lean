import LlmSystem.Lib.Blocks
import LlmSystem.Lib.Runs
import LlmSystem.Module.Placement

/-!
The experts of the device groups against all routed experts. The constructor compares the
number of experts with the sizes of the groups, but the experts are divided by the number of
groups; a remainder is on no device.
-/
namespace LlmSystem

open Finset

/-- `Route::forward`: the input of each expert module has one row for each of its tokens. -/
def Route.forward (c : MoeConfig) (numTokenInExpert : List ℕ) : List ℕ :=
  (List.range c.numRoutedExpert).map fun e => numTokenInExpert.getD e 0

namespace ExpertFFN

/-- The rows that the routed expert modules of the device process, in `ExpertFFN::forward`. -/
def forward (f : ExpertFFN) (routeOut : List ℕ) : Except String (List ℕ) :=
  f.experts.mapM fun e =>
    match routeOut[e]? with
    | none => .error "std::out_of_range"
    | some rows => .ok rows

/-- The number of groups that share their experts. -/
def groups (c : MoeConfig) : ℕ := c.totalNumDevice / c.eTpDg

/-- Every routed expert is on the devices of exactly one group, so one device of each group
together process all tokens. -/
structure RunsAll (c : MoeConfig) (f : ℕ → ExpertFFN) : Prop where
  disjoint : ∀ r < c.totalNumDevice, ∀ r' < c.totalNumDevice, r / c.eTpDg ≠ r' / c.eTpDg →
    ∀ e ∈ (f r).experts, e ∉ (f r').experts
  inside : ∀ r < c.totalNumDevice, ∀ e ∈ (f r).experts, e < c.numRoutedExpert
  covered : ∀ e < c.numRoutedExpert, ∃ r < c.totalNumDevice, e ∈ (f r).experts
  conserved : ∀ tokens : List ℕ, tokens.length = c.numRoutedExpert → ∀ device : ℕ → ℕ,
    (∀ g < groups c, device g < c.totalNumDevice ∧ device g / c.eTpDg = g) →
    ∃ rows, (List.range (groups c)).mapM
        (fun g => (f (device g)).forward (Route.forward c tokens)) = .ok rows ∧
      (rows.map List.sum).sum = tokens.sum

theorem forward_route {c : MoeConfig} {f : ExpertFFN} {tokens : List ℕ}
    (hin : ∀ e ∈ f.experts, e < c.numRoutedExpert) :
    f.forward (Route.forward c tokens) = .ok (f.experts.map fun e => tokens.getD e 0) := by
  apply Runs.mapM_ok
  intro e he
  simp [Route.forward, hin e he]

theorem mem_experts {f : ExpertFFN} {e : ℕ} : e ∈ f.experts ↔
    f.expertOffset ≤ e ∧ e < f.expertOffset + f.numExpertPerDevice := by
  simp [experts, List.mem_range'_1]

section Groups
variable {c : MoeConfig} {f : ℕ → ExpertFFN}

/-- The experts of a group, by its number. -/
theorem mem_group {rank : ℕ} {g : ExpertFFN} (hg : create c rank = .ok g) {e : ℕ} :
    e ∈ g.experts ↔ c.numRoutedExpert / groups c * (rank / c.eTpDg) ≤ e ∧
      e < c.numRoutedExpert / groups c * (rank / c.eTpDg + 1) := by
  obtain ⟨-, hper, hoff⟩ := create_ok hg
  rw [mem_experts, hoff, hper, Nat.mul_succ]
  rfl

theorem group_lt (hacc : Accepted c) {rank : ℕ} (h : rank < c.totalNumDevice) :
    rank / c.eTpDg < groups c := by
  apply Nat.div_lt_div_of_lt_of_dvd hacc.e_dvd_device h

/-- Without overlap and within the routed experts, in every accepted configuration. -/
theorem group_bounds {rank rank' : ℕ} (hrank : rank < c.totalNumDevice) {g g' : ExpertFFN}
    (hg : create c rank = .ok g) (hg' : create c rank' = .ok g') :
    (rank / c.eTpDg ≠ rank' / c.eTpDg → ∀ e ∈ g.experts, e ∉ g'.experts) ∧
      ∀ e ∈ g.experts, e < c.numRoutedExpert := by
  constructor
  · intro hne e he he'
    rw [mem_group hg] at he
    rw [mem_group hg'] at he'
    apply hne
    have hmono : ∀ {a b : ℕ}, a < b → c.numRoutedExpert / groups c * (a + 1)
        ≤ c.numRoutedExpert / groups c * b := fun hlt => Nat.mul_le_mul_left _ hlt
    rcases lt_trichotomy (rank / c.eTpDg) (rank' / c.eTpDg) with hlt | heq | hlt
    · have := hmono hlt
      omega
    · exact heq
    · have := hmono hlt
      omega
  · intro e he
    rw [mem_group hg] at he
    have hlt := group_lt (create_ok hg).1 hrank
    calc e < c.numRoutedExpert / groups c * (rank / c.eTpDg + 1) := he.2
      _ ≤ c.numRoutedExpert / groups c * groups c := Nat.mul_le_mul_left _ hlt
      _ ≤ c.numRoutedExpert := Nat.div_mul_le_self _ _

/-- The last expert is on a device only if no remainder is left. -/
theorem dvd_of_covered (hpos : 0 < c.totalNumDevice)
    (hf : ∀ r < c.totalNumDevice, create c r = .ok (f r))
    (hcov : ∀ e < c.numRoutedExpert, ∃ r < c.totalNumDevice, e ∈ (f r).experts) :
    groups c ∣ c.numRoutedExpert := by
  have hacc := (create_ok (hf 0 hpos)).1
  rcases Nat.eq_zero_or_pos c.numRoutedExpert with hzero | hsome
  · simp [hzero]
  · obtain ⟨r, hr, he⟩ := hcov (c.numRoutedExpert - 1) (by omega)
    rw [mem_group (hf r hr)] at he
    have hle := Nat.mul_le_mul_left (c.numRoutedExpert / groups c) (group_lt hacc hr)
    have hall := Nat.div_mul_le_self c.numRoutedExpert (groups c)
    apply Nat.dvd_of_mod_eq_zero
    have hmod := Nat.div_add_mod' c.numRoutedExpert (groups c)
    have hsucc : c.numRoutedExpert / groups c * (r / c.eTpDg).succ
        = c.numRoutedExpert / groups c * (r / c.eTpDg + 1) := rfl
    omega

/-- With one device of each group, the rows are those of all experts. -/
theorem sum_groups (hdvd : groups c ∣ c.numRoutedExpert) {tokens : List ℕ}
    (hlen : tokens.length = c.numRoutedExpert) {device : ℕ → ℕ}
    (hdev : ∀ g < groups c, create c (device g) = .ok (f (device g)) ∧ device g / c.eTpDg = g) :
    (((List.range (groups c)).map fun g =>
      (f (device g)).experts.map fun e => tokens.getD e 0).map List.sum).sum = tokens.sum := by
  have hgroup : ∀ g ∈ range (groups c),
      ((f (device g)).experts.map fun e => tokens.getD e 0).sum
        = ∑ i ∈ range (c.numRoutedExpert / groups c),
          tokens.getD (c.numRoutedExpert / groups c * g + i) 0 := by
    intro g hg
    obtain ⟨hcreate, hdiv⟩ := hdev g (mem_range.mp hg)
    obtain ⟨-, hper, hoff⟩ := create_ok hcreate
    rw [experts, hoff, hper, hdiv, List.range'_eq_map_range, List.map_map]
    rfl
  have htotal : ∑ e ∈ range c.numRoutedExpert, tokens.getD e 0 = tokens.sum := by
    rw [← hlen, ← Blocks.list_sum_range]
    congr 1
    apply List.ext_getElem
    · simp
    · intro i hi hi'
      simp [hi']
  rw [List.map_map, Blocks.list_sum_range]
  calc ∑ g ∈ range (groups c), ((f (device g)).experts.map fun e => tokens.getD e 0).sum
      = ∑ g ∈ range (groups c), ∑ i ∈ range (c.numRoutedExpert / groups c),
          tokens.getD (c.numRoutedExpert / groups c * g + i) 0 := sum_congr rfl hgroup
    _ = ∑ e ∈ range (groups c * (c.numRoutedExpert / groups c)), tokens.getD e 0 :=
        Blocks.sum_blocks _ _ fun e => tokens.getD e 0
    _ = ∑ e ∈ range c.numRoutedExpert, tokens.getD e 0 := by rw [Nat.mul_div_cancel' hdvd]
    _ = tokens.sum := htotal

/-- In a configuration that the constructor accepts on all devices, every routed expert runs
exactly if the number of groups divides the number of routed experts. -/
theorem runsAll_iff (hpos : 0 < c.totalNumDevice)
    (hf : ∀ r < c.totalNumDevice, create c r = .ok (f r)) :
    RunsAll c f ↔ groups c ∣ c.numRoutedExpert := by
  have hacc := (create_ok (hf 0 hpos)).1
  constructor
  · exact fun h => dvd_of_covered hpos hf h.covered
  · intro hdvd
    have hinside : ∀ r < c.totalNumDevice, ∀ e ∈ (f r).experts, e < c.numRoutedExpert :=
      fun r hr => (group_bounds hr (hf r hr) (hf r hr)).2
    refine ⟨fun r hr r' hr' => (group_bounds hr (hf r hr) (hf r' hr')).1, hinside, ?_, ?_⟩
    · intro e he
      have hn : 0 < c.numRoutedExpert / groups c := by
        apply Nat.pos_of_ne_zero
        intro hzero
        have := Nat.div_mul_cancel hdvd
        simp [hzero] at this
        omega
      have hetp : 0 < c.eTpDg := Nat.pos_of_dvd_of_pos hacc.e_dvd_device hpos
      have hlt : e / (c.numRoutedExpert / groups c) < groups c := by
        rw [Nat.div_lt_iff_lt_mul hn, Nat.mul_div_cancel' hdvd]
        exact he
      have hr : e / (c.numRoutedExpert / groups c) * c.eTpDg < c.totalNumDevice := by
        calc e / (c.numRoutedExpert / groups c) * c.eTpDg < groups c * c.eTpDg :=
              Nat.mul_lt_mul_of_pos_right hlt hetp
          _ = c.totalNumDevice := Nat.div_mul_cancel hacc.e_dvd_device
      refine ⟨_, hr, ?_⟩
      rw [mem_group (hf _ hr), Nat.mul_div_cancel _ hetp]
      exact ⟨Nat.mul_div_le _ _, Nat.lt_mul_div_succ _ hn⟩
    · intro tokens hlen device hdev
      have hrows : (List.range (groups c)).mapM
          (fun g => (f (device g)).forward (Route.forward c tokens))
            = .ok ((List.range (groups c)).map fun g =>
              (f (device g)).experts.map fun e => tokens.getD e 0) := by
        apply Runs.mapM_ok
        intro g hg
        exact forward_route (hinside _ (hdev g (List.mem_range.mp hg)).1)
      refine ⟨_, hrows, sum_groups hdvd hlen ?_⟩
      intro g hg
      exact ⟨hf _ (hdev g hg).1, (hdev g hg).2⟩

end Groups

/-- Two groups of two devices. -/
theorem runsAll_four_devices :
    RunsAll { numNode := 1, numDevice := 4, neTpDg := 2, eTpDg := 2, numRoutedExpert := 8 }
      fun r => { expertOffset := 4 * (r / 2), numExpertPerDevice := 4 } :=
  (runsAll_iff (by decide) fun r _ => by
    simp [create, MoeConfig.deviceList, MoeConfig.totalNumDevice]).mpr (by decide)

/-- Three groups of two devices run two experts each; the last two of eight are on none. -/
theorem runsAll_fails :
    (∀ r < 6, create { numNode := 1, numDevice := 6, neTpDg := 2, eTpDg := 2
                       numRoutedExpert := 8 } r
      = .ok { expertOffset := 2 * (r / 2), numExpertPerDevice := 2 }) ∧
    ¬RunsAll { numNode := 1, numDevice := 6, neTpDg := 2, eTpDg := 2, numRoutedExpert := 8 }
      fun r => { expertOffset := 2 * (r / 2), numExpertPerDevice := 2 } := by
  constructor
  · intro r _
    simp [create, MoeConfig.deviceList, MoeConfig.totalNumDevice]
  · intro h
    obtain ⟨r, hr, he⟩ := h.covered 7 (by decide)
    have hr : r < 6 := hr
    rw [mem_experts] at he
    simp only at he
    omega

end ExpertFFN
end LlmSystem
