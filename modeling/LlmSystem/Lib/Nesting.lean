import Mathlib.Algebra.BigOperators.Group.List.Basic
import Mathlib.Algebra.Order.Group.Unbundled.Basic
import Mathlib.Algebra.Order.Sub.Basic
import Mathlib.Tactic.Abel

/-!
Ordered forests that grow by pushes and pops at a cursor. The shape depends on the order of the
events alone; intervals nest where every push and pop is stamped with a clock that never goes
back; and differences of a running total add up along the tree.
-/
namespace Nesting

variable {α β : Type*}

/-- A node with its children, then the nodes after it. -/
inductive Forest (α : Type*)
  | nil
  | node (a : α) (children rest : Forest α)
  deriving Repr

namespace Forest

def append : Forest α → Forest α → Forest α
  | nil, G => G
  | node a children rest, G => node a children (rest.append G)

def map (f : α → β) : Forest α → Forest β
  | nil => nil
  | node a children rest => node (f a) (children.map f) (rest.map f)

def roots : Forest α → List α
  | nil => []
  | node a _ rest => a :: rest.roots

/-- Below the first node. -/
def children : Forest α → Forest α
  | nil => nil
  | node _ children _ => children

/-- All nodes, each before its children. -/
def toList : Forest α → List α
  | nil => []
  | node a children rest => a :: (children.toList ++ rest.toList)

/-- The nodes that satisfy `p`, without looking below one that does. -/
def select (p : α → Bool) : Forest α → List α
  | nil => []
  | node a children rest => (if p a then [a] else children.select p) ++ rest.select p

variable {F G H : Forest α}

@[simp] theorem append_nil : ∀ F : Forest α, F.append nil = F
  | nil => rfl
  | node a children rest => by rw [append, append_nil rest]

theorem append_assoc : (F.append G).append H = F.append (G.append H) := by
  induction F with
  | nil => rfl
  | node a children rest _ ih => simp only [append, ih]

theorem map_map {γ : Type*} (g : β → γ) (f : α → β) : (F.map f).map g = F.map (g ∘ f) := by
  induction F with
  | nil => rfl
  | node a children rest hchildren hrest => simp only [map, hchildren, hrest, Function.comp_apply]

@[simp] theorem map_append (f : α → β) : (F.append G).map f = (F.map f).append (G.map f) := by
  induction F with
  | nil => rfl
  | node a children rest _ ih => simp only [append, map, ih]

@[simp] theorem roots_append : (F.append G).roots = F.roots ++ G.roots := by
  induction F with
  | nil => rfl
  | node a children rest _ ih => simp only [append, roots, ih, List.cons_append]

@[simp] theorem toList_append : (F.append G).toList = F.toList ++ G.toList := by
  induction F with
  | nil => rfl
  | node a children rest _ ih =>
    simp only [append, toList, ih, List.cons_append, List.append_assoc]

@[simp] theorem toList_map (f : α → β) : (F.map f).toList = F.toList.map f := by
  induction F with
  | nil => rfl
  | node a children rest hchildren hrest =>
    simp only [map, toList, hchildren, hrest, List.map_cons, List.map_append]

end Forest

/-! ### Events and the cursor -/

inductive Event (α : Type*)
  | push (a : α)
  | pop (a : α)

def Event.map (f : α → β) : Event α → Event β
  | push a => push (f a)
  | pop a => pop (f a)

/-- The pushes and pops of a walk over the forest. -/
def Forest.events : Forest α → List (Event α)
  | nil => []
  | node a children rest => .push a :: (children.events ++ .pop a :: rest.events)

def Event.pushed : Event α → Option α
  | push a => some a
  | pop _ => none

@[simp] theorem Event.pushed_push (a : α) : (push a).pushed = some a := rfl

@[simp] theorem Event.pushed_pop (a : α) : (pop a).pushed = none := rfl

/-- A walk pushes the nodes in their order. -/
theorem Forest.pushed_events (F : Forest α) : F.events.filterMap Event.pushed = F.toList := by
  induction F with
  | nil => rfl
  | node a children rest hchildren hrest =>
    simp [Forest.events, Forest.toList, List.filterMap_cons, hchildren, hrest]

theorem Forest.mem_of_push_mem {a : α} {F : Forest α} (h : Event.push a ∈ F.events) :
    a ∈ F.toList := by
  rw [← F.pushed_events]
  exact List.mem_filterMap.mpr ⟨_, h, rfl⟩

theorem Forest.mem_of_pop_mem {a : α} {F : Forest α} (h : Event.pop a ∈ F.events) :
    a ∈ F.toList := by
  induction F with
  | nil => exact absurd h List.not_mem_nil
  | node b children rest hchildren hrest =>
    simp only [Forest.events, List.mem_cons, List.mem_append, Event.pop.injEq, reduceCtorEq,
      false_or] at h
    rcases h with h | rfl | h
    · exact List.mem_cons_of_mem _ (List.mem_append_left _ (hchildren h))
    · exact List.mem_cons_self
    · exact List.mem_cons_of_mem _ (List.mem_append_right _ (hrest h))

theorem Forest.events_map (f : α → β) (F : Forest α) :
    (F.map f).events = F.events.map (Event.map f) := by
  induction F with
  | nil => rfl
  | node a children rest hchildren hrest =>
    simp only [Forest.map, Forest.events, hchildren, hrest, List.map_cons, List.map_append,
      Event.map]

/-- A forest under construction: the complete trees, and the open nodes, innermost first, with
their children so far. -/
structure Cursor (α : Type*) where
  closed : Forest α := .nil
  frames : List (α × Forest α) := []

namespace Cursor

def push (a : α) (c : Cursor α) : Cursor α := { c with frames := (a, .nil) :: c.frames }

/-- Complete trees at the end of the innermost level. -/
def attach (G : Forest α) (c : Cursor α) : Cursor α :=
  match c.frames with
  | [] => { c with closed := c.closed.append G }
  | (a, children) :: outer => { c with frames := (a, children.append G) :: outer }

/-- Close the innermost node, as `f` leaves it. -/
def pop (f : α → α) (c : Cursor α) : Option (Cursor α) :=
  match c.frames with
  | [] => none
  | (a, children) :: outer =>
    some (attach (.node (f a) children .nil) { c with frames := outer })

/-- The forest as it stands, with the open nodes at the ends of their levels. -/
def zip (closed : Forest α) : List (α × Forest α) → Forest α → Forest α
  | [], G => closed.append G
  | (a, children) :: outer, G => zip closed outer (.node a (children.append G) .nil)

def forest (c : Cursor α) : Forest α := zip c.closed c.frames .nil

theorem forest_eq_closed {c : Cursor α} (h : c.frames = []) : c.forest = c.closed := by
  unfold forest
  rw [h]
  exact Forest.append_nil _

def map (f : α → β) (c : Cursor α) : Cursor β :=
  ⟨c.closed.map f, c.frames.map fun (a, children) => (f a, children.map f)⟩

@[simp] theorem attach_nil (c : Cursor α) : c.attach .nil = c := by
  obtain ⟨closed, frames⟩ := c
  cases frames with
  | nil => simp [attach]
  | cons frame outer => simp [attach]

theorem attach_attach (c : Cursor α) (F G : Forest α) :
    (c.attach F).attach G = c.attach (F.append G) := by
  obtain ⟨closed, frames⟩ := c
  cases frames with
  | nil => simp [attach, Forest.append_assoc]
  | cons frame outer => simp [attach, Forest.append_assoc]

theorem map_attach (f : α → β) (c : Cursor α) (G : Forest α) :
    (c.attach G).map f = (c.map f).attach (G.map f) := by
  obtain ⟨closed, frames⟩ := c
  cases frames with
  | nil => simp [attach, map]
  | cons frame outer => simp [attach, map]

/-- Closing a node, as `f` sees it. -/
theorem map_pop {f : α → β} {g : α → α} {h : β → β} (hg : ∀ a, f (g a) = h (f a))
    (c : Cursor α) : (c.pop g).map (map f) = (c.map f).pop h := by
  obtain ⟨closed, frames⟩ := c
  cases frames with
  | nil => rfl
  | cons frame outer =>
    simp only [pop, Option.map_some, map_attach, Forest.map, hg]
    rfl

/-- A pop does not look at the name that it closes. -/
def step (c : Cursor α) : Event α → Option (Cursor α)
  | .push a => some (c.push a)
  | .pop _ => c.pop id

/-- The events of a forest add it to the innermost level, whatever is open. -/
theorem replay_events (F : Forest α) (c : Cursor α) :
    F.events.foldlM step c = some (c.attach F) := by
  induction F generalizing c with
  | nil => simp [Forest.events]
  | node a children rest hchildren hrest =>
    have hopen : (c.push a).attach children = { c with frames := (a, children) :: c.frames } := rfl
    have hpop : step ((c.push a).attach children) (.pop a)
        = some (c.attach (.node a children .nil)) := by rw [hopen]; rfl
    simp only [Forest.events, List.foldlM_cons, List.foldlM_append, step, Option.bind_eq_bind,
      Option.bind_some, hchildren]
    change (step ((c.push a).attach children) (.pop a)).bind _ = _
    rw [hpop, Option.bind_some, hrest, attach_attach]
    rfl

end Cursor

/-! ### Intervals -/

section Intervals
variable {K : Type*} [LinearOrder K] (opened start finish : α → K)

namespace Forest

/-- The intervals of siblings follow each other between `lo` and `hi`, those of children between
the ends of their parent. -/
def Within : K → Forest α → K → Prop
  | lo, nil, hi => lo ≤ hi
  | lo, node a children rest, hi => lo ≤ start a ∧ Within (start a) children (finish a) ∧
      Within (finish a) rest hi

variable {start finish} {F G : Forest α} {lo mid hi : K}

theorem Within.le (h : F.Within start finish lo hi) : lo ≤ hi := by
  induction F generalizing lo hi with
  | nil => exact h
  | node a children rest hchildren hrest =>
    obtain ⟨hlo, hin, hafter⟩ := h
    exact hlo.trans ((hchildren hin).trans (hrest hafter))

theorem Within.append (hF : F.Within start finish lo mid) (hG : G.Within start finish mid hi) :
    (F.append G).Within start finish lo hi := by
  induction F generalizing lo with
  | nil =>
    cases G with
    | nil => exact le_trans hF hG
    | node a children rest => exact ⟨le_trans hF hG.1, hG.2⟩
  | node a children rest _ hrest => exact ⟨hF.1, hF.2.1, hrest hF.2.2⟩

theorem Within.mono (h : F.Within start finish lo mid) (hle : mid ≤ hi) :
    F.Within start finish lo hi := by
  have happend := h.append (G := .nil) hle
  rwa [append_nil] at happend

/-- What holds of every node whose interval has a forest of children in it. -/
theorem Within.forall_mem (h : F.Within start finish lo hi) :
    ∀ a ∈ F.toList, lo ≤ start a ∧ start a ≤ finish a ∧ finish a ≤ hi := by
  induction F generalizing lo hi with
  | nil => exact fun a ha => absurd ha List.not_mem_nil
  | node a children rest hchildren hrest =>
    obtain ⟨hlo, hin, hafter⟩ := h
    intro b hb
    rcases List.mem_cons.mp hb with rfl | hb
    · exact ⟨hlo, hin.le, hafter.le⟩
    · rcases List.mem_append.mp hb with hb | hb
      · obtain ⟨hs, hd, hf⟩ := hchildren hin b hb
        exact ⟨hlo.trans hs, hd, hf.trans hafter.le⟩
      · obtain ⟨hs, hd, hf⟩ := hrest hafter b hb
        exact ⟨(hlo.trans hin.le).trans hs, hd, hf⟩

variable [AddCommGroup K] [IsOrderedAddMonoid K]

/-- Selected intervals are disjoint, so they are not longer than the whole. -/
theorem Within.select_le (h : F.Within start finish lo hi) (p : α → Bool) :
    ((F.select p).map fun a => finish a - start a).sum ≤ hi - lo := by
  induction F generalizing lo hi with
  | nil =>
    have hle : lo ≤ hi := h
    simpa [select] using hle
  | node a children rest hchildren hrest =>
    obtain ⟨hlo, hin, hafter⟩ := h
    have hfirst : ((if p a then [a] else children.select p).map fun a => finish a - start a).sum
        ≤ finish a - start a := by
      split_ifs
      · simp
      · exact hchildren hin
    have hlater := hrest hafter
    simp only [select, List.map_append, List.sum_append]
    calc _ ≤ (finish a - start a) + (hi - finish a) := add_le_add hfirst hlater
      _ = hi - start a := by abel
      _ ≤ hi - lo := sub_le_sub_left hlo hi

end Forest

namespace Cursor

/-- The open nodes have been opened in their order, after what is complete beside them. -/
def OpensAt (lo : K) (closed : Forest α) : List (α × Forest α) → K → Prop
  | [], now => closed.Within start finish lo now
  | (a, children) :: outer, now =>
    children.Within start finish (opened a) now ∧ OpensAt lo closed outer (opened a)

/-- The intervals of a forest under construction, at the time `now`. -/
def Within (lo : K) (c : Cursor α) (now : K) : Prop :=
  OpensAt opened start finish lo c.closed c.frames now

variable {opened start finish} {lo now now' : K} {c c' : Cursor α}

theorem Within.later (h : c.Within opened start finish lo now) (hle : now ≤ now') :
    c.Within opened start finish lo now' := by
  obtain ⟨closed, frames⟩ := c
  cases frames with
  | nil => exact Forest.Within.mono h hle
  | cons frame outer => exact ⟨h.1.mono hle, h.2⟩

theorem Within.attach {G : Forest α} (h : c.Within opened start finish lo now)
    (hG : G.Within start finish now now') : (c.attach G).Within opened start finish lo now' := by
  obtain ⟨closed, frames⟩ := c
  cases frames with
  | nil => exact Forest.Within.append h hG
  | cons frame outer => exact ⟨h.1.append hG, h.2⟩

theorem Within.push (h : c.Within opened start finish lo now) {a : α} (ha : now ≤ opened a) :
    (c.push a).Within opened start finish lo (opened a) := ⟨le_refl _, h.later ha⟩

theorem Within.pop {f : α → α} (h : c.Within opened start finish lo now)
    (hstart : ∀ a, start (f a) = opened a) (hfinish : ∀ a, finish (f a) = now')
    (hle : now ≤ now') (hpop : c.pop f = some c') :
    c'.Within opened start finish lo now' := by
  obtain ⟨closed, frames⟩ := c
  cases frames with
  | nil => cases hpop
  | cons frame outer =>
    obtain ⟨a, children⟩ := frame
    obtain rfl := Option.some.inj hpop
    obtain ⟨hin, hout⟩ := h
    have hnode : (Forest.node (f a) children .nil).Within start finish (opened a) now' := by
      refine ⟨(hstart a).ge, ?_, (hfinish a).le⟩
      rw [hstart, hfinish]
      exact hin.mono hle
    exact Within.attach (c := ⟨closed, outer⟩) hout hnode

end Cursor

end Intervals

/-! ### Sums -/

section Sums
variable {M : Type*} [AddCommGroup M] (value own : α → M)

namespace Forest

/-- Every node has the values of its children and something of its own. -/
def Balanced : Forest α → Prop
  | nil => True
  | node a children rest => value a = (children.roots.map value).sum + own a ∧
      children.Balanced ∧ rest.Balanced

variable {value own} {F G : Forest α}

theorem Balanced.append (hF : F.Balanced value own) (hG : G.Balanced value own) :
    (F.append G).Balanced value own := by
  induction F with
  | nil => exact hG
  | node a children rest _ hrest => exact ⟨hF.1, hF.2.1, hrest hF.2.2⟩

/-- The values at the top are all that the nodes have of their own. -/
theorem Balanced.sum_roots (h : F.Balanced value own) :
    (F.roots.map value).sum = (F.toList.map own).sum := by
  induction F with
  | nil => rfl
  | node a children rest hchildren hrest =>
    obtain ⟨hvalue, hin, hafter⟩ := h
    simp only [roots, toList, List.map_cons, List.map_append, List.sum_cons, List.sum_append,
      hvalue, hchildren hin, hrest hafter]
    abel

end Forest

namespace Cursor

/-- An open node holds the total at its push, and has gained the values of its children. -/
def GainsAt (base : M) (closed : Forest α) : List (α × Forest α) → M → Prop
  | [], total => closed.Balanced value own ∧ total = base + (closed.roots.map value).sum
  | (a, children) :: outer, total => (children.Balanced value own ∧
      total = value a + (children.roots.map value).sum) ∧ GainsAt base closed outer (value a)

/-- The values of a forest under construction, when the running total is `total`. -/
def Gains (base : M) (c : Cursor α) (total : M) : Prop :=
  GainsAt value own base c.closed c.frames total

variable {value own} {base total total' : M} {c c' : Cursor α}

theorem Gains.attach {G : Forest α} (h : c.Gains value own base total)
    (hG : G.Balanced value own) :
    (c.attach G).Gains value own base (total + (G.roots.map value).sum) := by
  obtain ⟨closed, frames⟩ := c
  cases frames with
  | nil =>
    obtain ⟨hbalanced, rfl⟩ := h
    refine ⟨hbalanced.append hG, ?_⟩
    simp [Cursor.attach, add_assoc]
  | cons frame outer =>
    obtain ⟨⟨hbalanced, rfl⟩, hout⟩ := h
    refine ⟨⟨hbalanced.append hG, ?_⟩, hout⟩
    simp [add_assoc]

theorem Gains.push (h : c.Gains value own base total) {a : α} (ha : value a = total) :
    (c.push a).Gains value own base total := by
  refine ⟨⟨trivial, ?_⟩, ?_⟩
  · simp [Forest.roots, ha]
  · rw [ha]
    exact h

/-- Closing a node turns the total that it holds into a difference. -/
theorem Gains.pop {f : α → α} (h : c.Gains value own base total)
    (hvalue : ∀ a, value (f a) = total' - value a) (hown : ∀ a, own (f a) = total' - total)
    (hpop : c.pop f = some c') : c'.Gains value own base total' := by
  obtain ⟨closed, frames⟩ := c
  cases frames with
  | nil => cases hpop
  | cons frame outer =>
    obtain ⟨a, children⟩ := frame
    obtain rfl := Option.some.inj hpop
    obtain ⟨⟨hbalanced, htotal⟩, hout⟩ := h
    have hnode : (Forest.node (f a) children .nil).Balanced value own := by
      refine ⟨?_, hbalanced, trivial⟩
      rw [hvalue, hown, htotal]
      abel
    have hgains := Gains.attach (c := ⟨closed, outer⟩) hout hnode
    simp only [Forest.roots, List.map_cons, List.map_nil, List.sum_cons, List.sum_nil, add_zero,
      hvalue, add_sub_cancel] at hgains
    exact hgains

end Cursor

end Sums
end Nesting
