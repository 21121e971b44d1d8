import LlmSystem.Lib.Pairing
import Mathlib.Data.List.Infix
import Mathlib.Data.List.Nodup

/-!
Forests whose nodes carry paths. The path of a node is the path of the node above it with a name
in front, so names that differ among siblings make all paths differ. A path is written with a
separator before each name; where its last character is in no name, paths that differ are written
differently. Last, forests of calls that are answered level by level by a forest of those called.
-/
namespace Nesting
namespace Forest

variable {α κ : Type*}

/-- The nodes at the top, each with what is below it. -/
def nodes : Forest α → List (α × Forest α)
  | nil => []
  | node a children rest => (a, children) :: rest.nodes

/-- All nodes, each after its children. -/
def postorder : Forest α → List α
  | nil => []
  | node a children rest => children.postorder ++ a :: rest.postorder

variable {F G : Forest α}

@[simp] theorem nodes_append : (F.append G).nodes = F.nodes ++ G.nodes := by
  induction F with
  | nil => rfl
  | node a children rest _ ih => simp only [append, nodes, ih, List.cons_append]

theorem postorder_perm (F : Forest α) : F.postorder.Perm F.toList := by
  induction F with
  | nil => exact .nil
  | node a children rest hchildren hrest =>
    exact List.perm_middle.trans (.cons a (hchildren.append hrest))

theorem mem_toList_of_nodes {a : α} {children : Forest α} (h : (a, children) ∈ F.nodes) :
    a ∈ F.toList ∧ children.toList ⊆ F.toList := by
  induction F with
  | nil => cases h
  | node a' children' rest _ ih =>
    rcases List.mem_cons.mp h with heq | h
    · obtain ⟨rfl, rfl⟩ := Prod.mk.inj heq
      exact ⟨List.mem_cons_self .., fun b hb => by simp [toList, hb]⟩
    · obtain ⟨ha, hchildren⟩ := ih h
      exact ⟨by simp [toList, ha], fun b hb => by simp [toList, hchildren hb]⟩

variable {P : κ → Prop} {path : α → List κ} {p : List κ}

/-- The nodes at the top are directly below `p`, under different names that satisfy `P`. -/
def Level (P : κ → Prop) (path : α → List κ) (p : List κ) (F : Forest α) : Prop :=
  ∃ names : List κ, names.Nodup ∧ (∀ name ∈ names, P name) ∧ F.roots.map path = names.map (· :: p)

/-- In the whole forest the nodes are below each other as their paths say. -/
def Named (P : κ → Prop) (path : α → List κ) (p : List κ) (F : Forest α) : Prop :=
  F.Level P path p ∧ F.Licensed fun a children => children.Level P path (path a)

theorem Level.cons_of_mem {a : α} (h : F.Level P path p) (ha : a ∈ F.roots) :
    ∃ name, P name ∧ path a = name :: p := by
  obtain ⟨names, -, hnames, hroots⟩ := h
  have hmem := List.mem_map_of_mem (f := path) ha
  rw [hroots] at hmem
  obtain ⟨name, hin, hname⟩ := List.mem_map.mp hmem
  exact ⟨name, hnames name hin, hname.symm⟩

theorem Level.nodup (h : F.Level P path p) : (F.roots.map path).Nodup := by
  obtain ⟨names, hnodup, -, hroots⟩ := h
  rw [hroots]
  exact hnodup.map fun _ _ heq => (List.cons.inj heq).1

theorem Level.rest {a : α} {children rest : Forest α}
    (h : (node a children rest).Level P path p) : rest.Level P path p := by
  obtain ⟨_ | ⟨name, names⟩, hnodup, hnames, hroots⟩ := h
  · cases hroots
  · exact ⟨names, (List.nodup_cons.mp hnodup).2, (List.forall_mem_cons.mp hnames).2,
      (List.cons.inj hroots).2⟩

/-- All names in the paths satisfy `P`. -/
theorem Named.forall_mem (h : F.Named P path p) (hp : ∀ name ∈ p, P name) :
    ∀ a ∈ F.toList, ∀ name ∈ path a, P name := by
  induction F generalizing p with
  | nil => exact fun a ha => absurd ha List.not_mem_nil
  | node a children rest hchildren hrest =>
    obtain ⟨hlevel, hbelow, hin, hafter⟩ := h
    have ha : ∀ name ∈ path a, P name := by
      obtain ⟨name, hname, heq⟩ := hlevel.cons_of_mem (List.mem_cons_self ..)
      rw [heq]
      exact List.forall_mem_cons.mpr ⟨hname, hp⟩
    intro b hb
    rcases List.mem_cons.mp hb with rfl | hb
    · exact ha
    · rcases List.mem_append.mp hb with hb | hb
      · exact hchildren ⟨hbelow, hin⟩ ha b hb
      · exact hrest ⟨hlevel.rest, hafter⟩ hp b hb

/-- Every node is at or below one at the top. -/
theorem Named.below (h : F.Named P path p) : ∀ b ∈ F.toList, ∃ a ∈ F.roots, path a <:+ path b := by
  induction F generalizing p with
  | nil => exact fun b hb => absurd hb List.not_mem_nil
  | node a children rest hchildren hrest =>
    obtain ⟨hlevel, hbelow, hin, hafter⟩ := h
    intro b hb
    rcases List.mem_cons.mp hb with rfl | hb
    · exact ⟨b, List.mem_cons_self .., List.suffix_rfl⟩
    · rcases List.mem_append.mp hb with hb | hb
      · obtain ⟨a', ha', hsuffix⟩ := hchildren ⟨hbelow, hin⟩ b hb
        obtain ⟨name, -, hname⟩ := hbelow.cons_of_mem ha'
        exact ⟨a, List.mem_cons_self .., (hname ▸ List.suffix_cons name (path a)).trans hsuffix⟩
      · obtain ⟨a', ha', hsuffix⟩ := hrest ⟨hlevel.rest, hafter⟩ b hb
        exact ⟨a', List.mem_cons_of_mem a ha', hsuffix⟩

/-- Names that differ among siblings make all paths differ. -/
theorem Named.nodup (h : F.Named P path p) : (F.toList.map path).Nodup := by
  induction F generalizing p with
  | nil => exact List.nodup_nil
  | node a children rest hchildren hrest =>
    obtain ⟨hlevel, hbelow, hin, hafter⟩ := h
    have hlower : Named P path (path a) children := ⟨hbelow, hin⟩
    have hlater : Named P path p rest := ⟨hlevel.rest, hafter⟩
    have hfirst : path a ∉ rest.roots.map path := (List.nodup_cons.mp hlevel.nodup).1
    have hlength : ∀ r ∈ (node a children rest).roots, (path r).length = p.length + 1 := by
      intro r hr
      obtain ⟨name, -, hname⟩ := hlevel.cons_of_mem hr
      simp [hname]
    -- whatever is at or below a later sibling is not at or below `a`
    have hapart : ∀ b ∈ rest.toList, ¬ path a <:+ path b := by
      intro b hb hsuffix
      obtain ⟨r, hr, hrb⟩ := hlater.below b hb
      have hsame : (path a).length = (path r).length := by
        rw [hlength a (List.mem_cons_self ..), hlength r (List.mem_cons_of_mem a hr)]
      have heq := (List.suffix_of_suffix_length_le hsuffix hrb hsame.le).eq_of_length hsame
      exact hfirst (heq ▸ List.mem_map_of_mem hr)
    have hunder : ∀ b ∈ children.toList, path a <:+ path b ∧ path a ≠ path b := by
      intro b hb
      obtain ⟨r, hr, hrb⟩ := hlower.below b hb
      obtain ⟨name, -, hname⟩ := hbelow.cons_of_mem hr
      refine ⟨(hname ▸ List.suffix_cons name (path a)).trans hrb, fun heq => ?_⟩
      have hle := hrb.length_le
      rw [hname, ← heq, List.length_cons] at hle
      omega
    simp only [toList, List.map_cons, List.map_append]
    rw [List.nodup_cons, List.nodup_append]
    refine ⟨?_, hchildren hlower, hrest hlater, ?_⟩
    · rw [List.mem_append, List.mem_map, List.mem_map]
      rintro (⟨b, hb, heq⟩ | ⟨b, hb, heq⟩)
      · exact (hunder b hb).2 heq.symm
      · exact hapart b hb (heq ▸ List.suffix_rfl)
    · rintro x hx y hy rfl
      obtain ⟨b, hb, rfl⟩ := List.mem_map.mp hx
      obtain ⟨b', hb', heq⟩ := List.mem_map.mp hy
      exact hapart b' hb' (heq ▸ (hunder b hb).1)

/-! ### Answers -/

variable {β : Type*} {R : α → β → Prop} {F' : Forest α} {H : Forest β}

/-- Each node has an answer at its level, and what is below it is answered below that. -/
def Answered (R : α → β → Prop) : Forest α → Forest β → Prop
  | nil, _ => True
  | node a children rest, H =>
    (∃ b below, (b, below) ∈ H.nodes ∧ R a b ∧ Answered R children below) ∧ Answered R rest H

@[simp] theorem answered_append :
    (F.append F').Answered R H ↔ F.Answered R H ∧ F'.Answered R H := by
  induction F with
  | nil => simp [append, Answered]
  | node a children rest _ ih => simp only [append, Answered, ih, and_assoc]

end Forest

/-! ### Written paths -/

section Written

/-- The path as a string, its last name last. -/
def written (separator : String) : List String → String
  | [] => ""
  | name :: p => written separator p ++ separator ++ name

theorem append_cons_cancel {α : Type*} {c : α} {x y s t : List α} (hs : c ∉ s) (ht : c ∉ t)
    (h : x ++ c :: s = y ++ c :: t) : x = y ∧ s = t := by
  rcases List.append_eq_append_iff.mp h with ⟨z, rfl, hz⟩ | ⟨z, rfl, hz⟩
  · cases z with
    | nil => exact ⟨by simp, (List.cons.inj hz).2⟩
    | cons a z => exact absurd (by simp [(List.cons.inj hz).2]) hs
  · cases z with
    | nil => exact ⟨by simp, (List.cons.inj hz).2.symm⟩
    | cons a z => exact absurd (by simp [(List.cons.inj hz).2]) ht

variable {separator : String} {c : Char}

theorem written_injective (start : List Char) (hsep : separator.toList = start ++ [c])
    {p q : List String}
    (hp : ∀ name ∈ p, c ∉ name.toList) (hq : ∀ name ∈ q, c ∉ name.toList)
    (h : written separator p = written separator q) : p = q := by
  have hchars : ∀ (name : String) (p : List String), (written separator (name :: p)).toList
      = ((written separator p).toList ++ start) ++ c :: name.toList := by
    intro name p
    simp [written, String.toList_append, hsep]
  induction p generalizing q with
  | nil =>
    cases q with
    | nil => rfl
    | cons name q =>
      have hempty := congrArg String.toList h
      rw [hchars] at hempty
      simp [written] at hempty
  | cons name p ih =>
    cases q with
    | nil =>
      have hempty := congrArg String.toList h
      rw [hchars] at hempty
      simp [written] at hempty
    | cons name' q =>
      obtain ⟨hname, hp⟩ := List.forall_mem_cons.mp hp
      obtain ⟨hname', hq⟩ := List.forall_mem_cons.mp hq
      have hall := congrArg String.toList h
      rw [hchars, hchars] at hall
      obtain ⟨hrest, hlast⟩ := append_cons_cancel hname hname' hall
      rw [ih hp hq (String.toList_inj.mp (List.append_cancel_right hrest)),
        String.toList_inj.mp hlast]

end Written
end Nesting
