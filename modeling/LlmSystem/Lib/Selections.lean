import LlmSystem.Lib.Nesting
import Mathlib.Algebra.Order.BigOperators.Group.List

/-!
Sums over what several predicates select from a forest. A selected node hides what is below it;
where at most one predicate selects a node on each way down, no part of an interval counts twice.
-/
namespace Nesting

variable {α β K : Type*}

/-- How many of the predicates hold. -/
def hits (ps : List (α → Bool)) (a : α) : ℕ := ps.countP (· a)

theorem hits_append (ps qs : List (α → Bool)) (a : α) :
    hits (ps ++ qs) a = hits ps a + hits qs a := List.countP_append

theorem hits_map (f : β → α) (ps : List (α → Bool)) (b : β) :
    hits (ps.map (· ∘ f)) b = hits ps (f b) := by
  unfold hits
  rw [List.countP_map]
  rfl

namespace Forest

variable {F G : Forest α} {ps qs : List (α → Bool)} {a : α}

theorem select_append (F G : Forest α) (p : α → Bool) :
    (F.append G).select p = F.select p ++ G.select p := by
  induction F with
  | nil => rfl
  | node a children rest _ ih => simp only [append, select, ih, List.append_assoc]

theorem select_map (f : β → α) (F : Forest β) (p : α → Bool) :
    (F.map f).select p = (F.select (p ∘ f)).map f := by
  induction F with
  | nil => rfl
  | node b children rest hchildren hrest =>
    simp only [map, select, hchildren, hrest, List.map_append, Function.comp_apply]
    split_ifs
    · rfl
    · rfl

/-- No predicate selects a node. -/
def Silent (ps : List (α → Bool)) (F : Forest α) : Prop := ∀ p ∈ ps, F.select p = []

theorem Silent.append (hF : F.Silent ps) (hG : G.Silent ps) : (F.append G).Silent ps := by
  intro p hp
  rw [select_append, hF p hp, hG p hp]
  rfl

theorem Silent.mono (h : F.Silent qs) (hsub : ps ⊆ qs) : F.Silent ps := fun p hp => h p (hsub hp)

theorem Silent.node (ha : hits ps a = 0) (hF : F.Silent ps) (hG : G.Silent ps) :
    (Forest.node a F G).Silent ps := by
  intro p hp
  have hpa : p a = false := by simpa using (List.countP_eq_zero.mp ha) p hp
  simp only [select, hpa, hF p hp, hG p hp]
  rfl

theorem Silent.of_map {f : β → α} {F : Forest β} (h : (F.map f).Silent ps) :
    F.Silent (ps.map (· ∘ f)) := by
  intro q hq
  obtain ⟨p, hp, rfl⟩ := List.mem_map.mp hq
  have hmap := h p hp
  rw [select_map] at hmap
  exact List.map_eq_nil_iff.mp hmap

/-- Each node is selected by no predicate on either side, or by one on each side and hides
none. -/
def Paired (ps qs : List (α → Bool)) : Forest α → Prop
  | nil => True
  | node a children rest =>
    (if hits ps a = 0 then hits qs a = 0 ∧ children.Paired ps qs
      else hits ps a = 1 ∧ hits qs a = 1 ∧ children.Silent ps ∧ children.Silent qs) ∧
    rest.Paired ps qs

theorem Paired.append (hF : F.Paired ps qs) (hG : G.Paired ps qs) :
    (F.append G).Paired ps qs := by
  induction F with
  | nil => exact hG
  | node a children rest _ ih => exact ⟨hF.1, ih hF.2⟩

theorem Paired.of_silent (hps : F.Silent ps) (hqs : F.Silent qs) : F.Paired ps qs := by
  induction F with
  | nil => trivial
  | node a children rest hchildren hrest =>
    have hnode : ∀ {rs : List (α → Bool)}, (Forest.node a children rest).Silent rs →
        hits rs a = 0 ∧ children.Silent rs ∧ rest.Silent rs := by
      intro rs h
      have hclear : ∀ p ∈ rs, p a = false := by
        intro p hp
        cases hpa : p a with
        | false => rfl
        | true =>
          have hsel := h p hp
          simp [select, hpa] at hsel
      have hparts : ∀ p ∈ rs, children.select p = [] ∧ rest.select p = [] := by
        intro p hp
        have hsel := h p hp
        simpa [select, hclear p hp] using hsel
      refine ⟨List.countP_eq_zero.mpr fun p hp => ?_, fun p hp => (hparts p hp).1,
        fun p hp => (hparts p hp).2⟩
      simp [hclear p hp]
    obtain ⟨hzero, hin, hafter⟩ := hnode hps
    obtain ⟨hzero', hin', hafter'⟩ := hnode hqs
    refine ⟨?_, hrest hafter hafter'⟩
    rw [if_pos hzero]
    exact ⟨hzero', hchildren hin hin'⟩

theorem Paired.of_map {f : β → α} {F : Forest β} (h : (F.map f).Paired ps qs) :
    F.Paired (ps.map (· ∘ f)) (qs.map (· ∘ f)) := by
  induction F with
  | nil => trivial
  | node b children rest hchildren hrest =>
    obtain ⟨hb, hafter⟩ := h
    refine ⟨?_, hrest hafter⟩
    rw [hits_map, hits_map]
    split_ifs at hb ⊢
    · exact ⟨hb.1, hchildren hb.2⟩
    · exact ⟨hb.1, hb.2.1, hb.2.2.1.of_map, hb.2.2.2.of_map⟩

/-- One predicate, `whole`, selects trees in which `shared` and `inner` select the same; outside of
these, `inner` selects nothing, and no two others select a node or one below it. -/
def Divided (own shared inner : List (α → Bool)) (whole : α → Bool) : Forest α → Prop
  | nil => True
  | node a children rest =>
    hits inner a = 0 ∧
    (if whole a then hits (own ++ shared) a = 0 ∧ children.Silent own ∧
        children.Paired shared inner
      else if hits (own ++ shared) a = 0 then children.Divided own shared inner whole
      else hits (own ++ shared) a = 1 ∧ children.Silent (whole :: (own ++ shared ++ inner))) ∧
    rest.Divided own shared inner whole

theorem Divided.append {own shared inner : List (α → Bool)} {whole : α → Bool}
    (hF : F.Divided own shared inner whole) (hG : G.Divided own shared inner whole) :
    (F.append G).Divided own shared inner whole := by
  induction F with
  | nil => exact hG
  | node a children rest _ ih => exact ⟨hF.1, hF.2.1, ih hF.2.2⟩

theorem Divided.of_map {own shared inner : List (α → Bool)} {whole : α → Bool} {f : β → α}
    {F : Forest β} (h : (F.map f).Divided own shared inner whole) :
    F.Divided (own.map (· ∘ f)) (shared.map (· ∘ f)) (inner.map (· ∘ f)) (whole ∘ f) := by
  induction F with
  | nil => trivial
  | node b children rest hchildren hrest =>
    obtain ⟨hinner, hb, hafter⟩ := h
    refine ⟨(hits_map f inner b).trans hinner, ?_, hrest hafter⟩
    rw [← List.map_append, hits_map, Function.comp_apply]
    split_ifs at hb ⊢ with hwhole hsel
    · exact ⟨hb.1, hb.2.1.of_map, hb.2.2.of_map⟩
    · exact hchildren hb
    · refine ⟨hb.1, ?_⟩
      have hsilent := hb.2.of_map
      simpa only [List.map_cons, List.map_append] using hsilent

/-! ### Decisions -/

section Decidable
variable [DecidableEq α] (ps qs own shared inner : List (α → Bool)) (whole : α → Bool)

instance decidableSilent (F : Forest α) : Decidable (F.Silent ps) :=
  inferInstanceAs (Decidable (∀ p ∈ ps, F.select p = []))

instance decidablePaired : (F : Forest α) → Decidable (F.Paired ps qs)
  | nil => .isTrue trivial
  | node a children rest =>
    have := decidablePaired children
    have := decidablePaired rest
    inferInstanceAs (Decidable ((if hits ps a = 0 then hits qs a = 0 ∧ children.Paired ps qs
      else hits ps a = 1 ∧ hits qs a = 1 ∧ children.Silent ps ∧ children.Silent qs) ∧
        rest.Paired ps qs))

instance decidableDivided : (F : Forest α) → Decidable (F.Divided own shared inner whole)
  | nil => .isTrue trivial
  | node a children rest =>
    have := decidableDivided children
    have := decidableDivided rest
    inferInstanceAs (Decidable (hits inner a = 0 ∧
      (if whole a then hits (own ++ shared) a = 0 ∧ children.Silent own ∧
          children.Paired shared inner
        else if hits (own ++ shared) a = 0 then children.Divided own shared inner whole
        else hits (own ++ shared) a = 1 ∧
          children.Silent (whole :: (own ++ shared ++ inner))) ∧
      rest.Divided own shared inner whole))

end Decidable

/-! ### Sums -/

section Total
variable [AddCommMonoid K] (value : α → K)

/-- The values of all selected nodes, with those of each predicate. -/
def total (ps : List (α → Bool)) (F : Forest α) : K :=
  (ps.map fun p => ((F.select p).map value).sum).sum

theorem total_append (ps : List (α → Bool)) (F G : Forest α) :
    total value ps (F.append G) = total value ps F + total value ps G := by
  unfold total
  rw [← List.sum_map_add]
  congr 1
  apply List.map_congr_left
  intro p _
  rw [select_append, List.map_append, List.sum_append]

theorem total_predicates (ps qs : List (α → Bool)) (F : Forest α) :
    total value (ps ++ qs) F = total value ps F + total value qs F := by
  unfold total
  rw [List.map_append, List.sum_append]

theorem Silent.total (h : F.Silent ps) : total value ps F = 0 := by
  unfold Forest.total
  apply List.sum_eq_zero
  intro x hx
  obtain ⟨p, hp, rfl⟩ := List.mem_map.mp hx
  rw [h p hp]
  rfl

theorem total_node_of_clear (h : hits ps a = 0) (F : Forest α) :
    total value ps (.node a F .nil) = total value ps F := by
  unfold total
  congr 1
  apply List.map_congr_left
  intro p hp
  have hpa : p a = false := by simpa using (List.countP_eq_zero.mp h) p hp
  simp [select, hpa]

/-- A node that hides nothing counts once for each predicate. -/
theorem Silent.total_node (h : F.Silent ps) (a : α) :
    Forest.total value ps (.node a F .nil) = hits ps a • value a := by
  unfold Forest.total
  induction ps with
  | nil => simp [hits]
  | cons p ps ih =>
    have hrest := ih (h.mono (List.subset_cons_self p ps))
    rw [List.map_cons, List.sum_cons, hrest]
    cases hpa : p a with
    | false => simp [select, hits, hpa, h p List.mem_cons_self]
    | true =>
      rw [show hits (p :: ps) a = hits ps a + 1 by simp [hits, hpa], succ_nsmul, add_comm]
      simp [select, hpa]

theorem Paired.total_eq (h : F.Paired ps qs) :
    Forest.total value ps F = Forest.total value qs F := by
  induction F with
  | nil => simp [Forest.total, select]
  | node a children rest hchildren hrest =>
    obtain ⟨ha, hafter⟩ := h
    change Forest.total value ps ((Forest.node a children .nil).append rest)
      = Forest.total value qs ((Forest.node a children .nil).append rest)
    rw [total_append, total_append, hrest hafter]
    congr 1
    split_ifs at ha with hclear
    · rw [total_node_of_clear value hclear, total_node_of_clear value ha.1, hchildren ha.2]
    · obtain ⟨hone, hone', hps, hqs⟩ := ha
      rw [hps.total_node, hqs.total_node, hone, hone']

end Total

section Intervals
variable [AddCommGroup K] [LinearOrder K] [IsOrderedAddMonoid K] {start finish : α → K} {lo hi : K}

theorem Within.total_nonneg (h : F.Within start finish lo hi) (ps : List (α → Bool)) :
    0 ≤ total (fun a => finish a - start a) ps F := by
  have hselect : ∀ {F : Forest α} {p : α → Bool} {x : α}, x ∈ F.select p → x ∈ F.toList := by
    intro F p x
    induction F with
    | nil => exact id
    | node a children rest hchildren hrest =>
      intro hx
      simp only [select, List.mem_append] at hx
      simp only [toList, List.mem_cons, List.mem_append]
      split_ifs at hx
      · simp only [List.mem_singleton] at hx
        exact hx.imp_right fun hx => .inr (hrest hx)
      · exact .inr (hx.imp hchildren hrest)
  unfold total
  apply List.sum_nonneg
  intro x hx
  obtain ⟨p, -, rfl⟩ := List.mem_map.mp hx
  apply List.sum_nonneg
  intro y hy
  obtain ⟨a, ha, rfl⟩ := List.mem_map.mp hy
  exact sub_nonneg.mpr (h.forall_mem a (hselect ha)).2.1

/-- What the predicates of a pair select is apart, so it fits. -/
theorem Paired.total_le (hpaired : F.Paired ps qs) (h : F.Within start finish lo hi) :
    total (fun a => finish a - start a) ps F ≤ hi - lo := by
  induction F generalizing lo hi with
  | nil =>
    have hle : lo ≤ hi := h
    simpa [total, select] using hle
  | node a children rest hchildren hrest =>
    obtain ⟨hlo, hin, hafter⟩ := h
    obtain ⟨ha, hpaired⟩ := hpaired
    have hfirst : total (fun a => finish a - start a) ps (.node a children .nil)
        ≤ finish a - start a := by
      split_ifs at ha with hclear
      · rw [total_node_of_clear _ hclear]
        exact hchildren ha.2 hin
      · rw [ha.2.2.1.total_node, ha.1, one_nsmul]
    change total _ ps ((Forest.node a children .nil).append rest) ≤ _
    rw [total_append]
    calc _ ≤ (finish a - start a) + (hi - finish a) := add_le_add hfirst (hrest hpaired hafter)
      _ = hi - start a := by abel
      _ ≤ hi - lo := sub_le_sub_left hlo hi

/-- The parts: `own`, what `whole` has without `inner`, and `shared`. -/
theorem Divided.total_le {own shared inner : List (α → Bool)} {whole : α → Bool}
    (hdivided : F.Divided own shared inner whole) (h : F.Within start finish lo hi) :
    total (fun a => finish a - start a) inner F ≤ total (fun a => finish a - start a) [whole] F ∧
    total (fun a => finish a - start a) own F +
        (total (fun a => finish a - start a) [whole] F
          - total (fun a => finish a - start a) inner F) +
        total (fun a => finish a - start a) shared F ≤ hi - lo := by
  induction F generalizing lo hi with
  | nil =>
    have hle : lo ≤ hi := h
    simpa [total, select] using hle
  | node a children rest hchildren hrest =>
    obtain ⟨hlo, hin, hafter⟩ := h
    obtain ⟨hinner, ha, hdivided⟩ := hdivided
    set value := fun a => finish a - start a
    have hfirst : total value inner (.node a children .nil)
          ≤ total value [whole] (.node a children .nil) ∧
        total value own (.node a children .nil) + (total value [whole] (.node a children .nil)
          - total value inner (.node a children .nil)) + total value shared (.node a children .nil)
          ≤ value a := by
      rw [total_node_of_clear value hinner]
      split_ifs at ha with hwhole hclear
      · obtain ⟨hclear, hown, hpaired⟩ := ha
        rw [hits_append, Nat.add_eq_zero_iff] at hclear
        have htotal : total value [whole] (.node a children .nil) = value a := by
          simp [total, select, hwhole]
        have heq := hpaired.total_eq value
        rw [total_node_of_clear value hclear.1, total_node_of_clear value hclear.2, htotal,
          hown.total, zero_add, ← heq, sub_add_cancel]
        exact ⟨hpaired.total_le hin, le_refl _⟩
      · rw [hits_append, Nat.add_eq_zero_iff] at hclear
        have hzero : hits [whole] a = 0 := by simp [hits, hwhole]
        rw [total_node_of_clear value hclear.1, total_node_of_clear value hclear.2,
          total_node_of_clear value hzero]
        exact hchildren ha hin
      · obtain ⟨hone, hsilent⟩ := ha
        have hzero : hits [whole] a = 0 := by simp [hits, hwhole]
        have hparts : children.Silent (own ++ shared) :=
          hsilent.mono (List.subset_cons_of_subset _ (List.subset_append_left _ _))
        have hwholes : children.Silent [whole] := hsilent.mono (by simp)
        have hinners : children.Silent inner :=
          hsilent.mono (List.subset_cons_of_subset _ (List.subset_append_right _ _))
        have hboth : total value own (.node a children .nil)
            + total value shared (.node a children .nil) = value a := by
          rw [← total_predicates, hparts.total_node, hone, one_nsmul]
        rw [total_node_of_clear value hzero, hwholes.total, hinners.total, sub_zero, add_zero,
          hboth]
        exact ⟨le_refl _, le_refl _⟩
    obtain ⟨hle, hsum⟩ := hfirst
    obtain ⟨hle', hsum'⟩ := hrest hdivided hafter
    change total value inner ((Forest.node a children .nil).append rest)
        ≤ total value [whole] ((Forest.node a children .nil).append rest) ∧
      total value own ((Forest.node a children .nil).append rest)
        + (total value [whole] ((Forest.node a children .nil).append rest)
          - total value inner ((Forest.node a children .nil).append rest))
        + total value shared ((Forest.node a children .nil).append rest) ≤ hi - lo
    simp only [total_append]
    refine ⟨add_le_add hle hle', ?_⟩
    calc _ = (total value own (.node a children .nil)
            + (total value [whole] (.node a children .nil)
              - total value inner (.node a children .nil))
            + total value shared (.node a children .nil))
          + (total value own rest + (total value [whole] rest - total value inner rest)
            + total value shared rest) := by abel
      _ ≤ (finish a - start a) + (hi - finish a) := add_le_add hsum hsum'
      _ = hi - start a := by abel
      _ ≤ hi - lo := sub_le_sub_left hlo hi

end Intervals

end Forest
end Nesting
