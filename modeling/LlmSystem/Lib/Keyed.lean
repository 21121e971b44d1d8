import Mathlib.Data.List.Nodup
import Mathlib.Data.List.Perm.Basic

/-!
Lists whose entries carry distinct keys, edited through a key: the entry with the
key is replaced or erased. A loop over a copy of such a list that edits every visited
entry at most once acts on each entry by itself.
-/
namespace Keyed

variable {α κ : Type*} {key : α → κ}

theorem eq_of_key_eq {l : List α} (hl : (l.map key).Nodup) {a b : α} (ha : a ∈ l) (hb : b ∈ l)
    (h : key a = key b) : a = b := List.inj_on_of_nodup_map hl ha hb h

theorem keys_filterMap {f : α → Option α} (hf : ∀ t t', f t = some t' → key t' = key t)
    (l : List α) : ((l.filterMap f).map key).Sublist (l.map key) := by
  induction l with
  | nil => simp
  | cons t l ih =>
    cases h : f t with
    | none => simpa [List.filterMap_cons, h] using ih.trans (List.sublist_cons_self _ _)
    | some t' => simpa [List.filterMap_cons, h, hf t t' h] using ih

variable [DecidableEq κ]

theorem filter_key_eq {l : List α} (hl : (l.map key).Nodup) {a : α} (ha : a ∈ l) :
    (l.filter fun t => key t = key a) = [a] := by
  induction l with
  | nil => exact absurd ha List.not_mem_nil
  | cons b l ih =>
    obtain ⟨hb, hl⟩ := List.nodup_cons.mp hl
    rcases List.mem_cons.mp ha with rfl | ha
    · have hrest : (l.filter fun t => key t = key a) = [] := by
        apply List.filter_eq_nil_iff.mpr
        intro t ht heq
        exact hb (of_decide_eq_true heq ▸ List.mem_map_of_mem ht)
      simp [hrest]
    · have hne : key b ≠ key a := fun heq => hb (heq ▸ List.mem_map_of_mem ha)
      simp [hne, ih hl ha]

/-- The entry that `lookup` finds is the only one with its key. -/
theorem lookup_eq_some_iff {β : Type*} {l : List (κ × β)} (hl : (l.map Prod.fst).Nodup) {k : κ}
    {b : β} : l.lookup k = some b ↔ (k, b) ∈ l := by
  induction l with
  | nil => simp
  | cons e l ih =>
    obtain ⟨k', b'⟩ := e
    obtain ⟨hfirst, hl⟩ := List.nodup_cons.mp hl
    by_cases heq : k = k'
    · subst heq
      have hout : (k, b) ∉ l := fun hmem => hfirst (List.mem_map.mpr ⟨(k, b), hmem, rfl⟩)
      simp [hout, eq_comm]
    · rw [List.lookup_cons, beq_eq_false_iff_ne.mpr heq]
      simp [heq, ih hl]

variable (key)

/-- Apply `f` to the entries with key `k`; `none` erases. -/
def edit (k : κ) (f : α → Option α) (l : List α) : List α :=
  l.filterMap fun t => if key t = k then f t else some t

/-- The loop over a copy `xs`: visiting `a` edits the entry with the key of `a`. -/
def sweep (g : α → α → Option α) (xs l : List α) : List α :=
  xs.foldl (fun acc a => edit key (key a) (g a) acc) l

variable {key}

theorem edit_keeps {k : κ} {f : α → Option α}
    (hf : ∀ t t', key t = k → f t = some t' → key t' = k)
    (t t' : α) (h : (if key t = k then f t else some t) = some t') : key t' = key t := by
  split_ifs at h with hk
  · rw [hf t t' hk h, hk]
  · rw [Option.some.inj h]

theorem mem_edit_of_ne {k : κ} {f : α → Option α} {l : List α} {t : α} (ht : t ∈ l)
    (hk : key t ≠ k) : t ∈ edit key k f l :=
  List.mem_filterMap.mpr ⟨t, ht, by simp [hk]⟩

/-- Two edits under one key, the first of which keeps the key, are one edit. -/
theorem edit_edit {k : κ} (f : α → Option α) (h : α → α) (hh : ∀ t, key t = k → key (h t) = k)
    (l : List α) : edit key k f (edit key k (fun t => some (h t)) l) = edit key k (f ∘ h) l := by
  unfold edit
  rw [List.filterMap_filterMap]
  apply List.filterMap_congr
  intro t _
  by_cases hk : key t = k
  · simp [hk, hh t hk]
  · simp [hk]

theorem filter_eq_edit (k : κ) (l : List α) :
    l.filter (fun t => key t ≠ k) = edit key k (fun _ => none) l := by
  unfold edit
  rw [← List.filterMap_eq_filter]
  apply List.filterMap_congr
  intro t _
  by_cases hk : key t = k <;> simp [hk]

theorem map_eq_edit (k : κ) (h : α → α) (l : List α) :
    l.map (fun t => if key t = k then h t else t) = edit key k (fun t => some (h t)) l := by
  unfold edit
  rw [← List.filterMap_eq_map]
  apply List.filterMap_congr
  intro t _
  by_cases hk : key t = k <;> simp [hk]

theorem eq_edit (k : κ) (l : List α) : l = edit key k some l := by
  simp [edit]

/-- A sweep over distinct entries of `l` edits exactly the visited entries, each once. -/
theorem sweep_eq_filterMap (key : α → κ) {g : α → α → Option α}
    (hg : ∀ a t t', key t = key a → g a t = some t' → key t' = key a) (xs l : List α)
    (hxs : ∀ a ∈ xs, a ∈ l) (hl : (l.map key).Nodup) (hnd : (xs.map key).Nodup) :
    sweep key g xs l = l.filterMap fun t => if key t ∈ xs.map key then g t t else some t := by
  induction xs generalizing l with
  | nil => simp [sweep]
  | cons a xs ih =>
    simp only [List.map_cons, List.nodup_cons] at hnd
    have hne : ∀ b ∈ xs, key b ≠ key a := fun b hb h => hnd.1 (h ▸ List.mem_map_of_mem hb)
    have hrest := ih (edit key (key a) (g a) l)
      (fun b hb => mem_edit_of_ne (hxs b (List.mem_cons_of_mem a hb)) (hne b hb))
      (hl.sublist (keys_filterMap (edit_keeps (hg a)) l)) hnd.2
    have hunfold : sweep key g (a :: xs) l = sweep key g xs (edit key (key a) (g a) l) := rfl
    rw [hunfold, hrest]
    unfold edit
    rw [List.filterMap_filterMap]
    apply List.filterMap_congr
    intro t ht
    by_cases hk : key t = key a
    · -- the visited entry is `a` itself, and what replaces it is not visited again
      obtain rfl := eq_of_key_eq hl ht (hxs a (List.mem_cons_self ..)) hk
      cases hga : g t t with
      | none => simp
      | some t' =>
        have hlater : key t' ∉ xs.map key := hg t t t' rfl hga ▸ hnd.1
        simp only [↓reduceIte, Option.bind_some, hlater, List.map_cons, List.mem_cons, true_or]
    · simp [hk]

end Keyed
