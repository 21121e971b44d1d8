import LlmSystem.Lib.Nesting

/-!
A walk over a forest that records something of each node: the nodes that it has left are paired
with what it has recorded of them.
-/
namespace Nesting

variable {α β : Type*}

namespace Forest

/-- Every node satisfies `P`, together with the forest below it. -/
def Licensed (P : α → Forest α → Prop) : Forest α → Prop
  | nil => True
  | node a children rest => P a children ∧ Licensed P children ∧ Licensed P rest

variable {P : α → Forest α → Prop} {F G : Forest α}

@[simp] theorem licensed_append : (F.append G).Licensed P ↔ F.Licensed P ∧ G.Licensed P := by
  induction F with
  | nil => simp [append, Licensed]
  | node a children rest _ ih => simp only [append, Licensed, ih, and_assoc]

theorem Licensed.forall_mem (h : F.Licensed P) : ∀ a ∈ F.toList, ∃ children, P a children := by
  induction F with
  | nil => exact fun a ha => absurd ha List.not_mem_nil
  | node b children rest hchildren hrest =>
    obtain ⟨hb, hin, hafter⟩ := h
    intro a ha
    simp only [toList, List.mem_cons, List.mem_append] at ha
    rcases ha with rfl | ha | ha
    · exact ⟨children, hb⟩
    · exact hchildren hin a ha
    · exact hrest hafter a ha

/-- A walk leaves a node without children as soon as it has come to it. -/
theorem Licensed.events_pop (h : F.Licensed P) {a : α}
    (ha : ∀ children, P a children → children = nil) {i : ℕ} (hi : F.events[i]? = some (.push a)) :
    F.events[i + 1]? = some (.pop a) := by
  induction F generalizing i with
  | nil => simp [events] at hi
  | node b children rest hchildren hrest =>
    obtain ⟨hb, hin, hafter⟩ := h
    unfold events at hi ⊢
    cases i with
    | zero =>
      obtain rfl : b = a := by simpa using hi
      obtain rfl := ha children hb
      simp [events]
    | succ i =>
      rw [List.getElem?_cons_succ] at hi ⊢
      rcases lt_trichotomy i children.events.length with hlt | rfl | hgt
      · rw [List.getElem?_append_left hlt] at hi
        have hpop := hchildren hin hi
        rw [List.getElem?_append_left (List.getElem?_eq_some_iff.mp hpop).1]
        exact hpop
      · simp at hi
      · obtain ⟨j, rfl⟩ := Nat.exists_eq_add_of_lt hgt
        have hdrop : ∀ k, (children.events ++ .pop b :: rest.events)[
            children.events.length + (k + 1)]? = rest.events[k]? := by
          intro k
          rw [List.getElem?_append_right (Nat.le_add_right _ _), Nat.add_sub_cancel_left,
            List.getElem?_cons_succ]
        rw [Nat.add_assoc, hdrop] at hi
        rw [Nat.add_assoc, Nat.add_assoc, hdrop]
        exact hrest hafter hi

/-- Two forests of one shape, node by node. -/
def pair : Forest α → Forest β → Forest (α × β)
  | node a children rest, node b children' rest' =>
    node (a, b) (children.pair children') (rest.pair rest')
  | _, _ => nil

theorem pair_map (F : Forest (α × β)) : (F.map Prod.fst).pair (F.map Prod.snd) = F := by
  induction F with
  | nil => rfl
  | node x children rest hchildren hrest => simp only [map, pair, hchildren, hrest]

end Forest

namespace Cursor

/-- The nodes that are open, innermost first. -/
def openNodes (c : Cursor α) : List α := c.frames.map Prod.fst

/-- The nodes that have been left. -/
def finished (c : Cursor α) : List α :=
  c.closed.toList ++ c.frames.flatMap fun frame => frame.2.toList

def pair (c : Cursor α) (c' : Cursor β) : Cursor (α × β) :=
  ⟨c.closed.pair c'.closed,
    List.zipWith (fun frame frame' => ((frame.1, frame'.1), frame.2.pair frame'.2)) c.frames
      c'.frames⟩

theorem pair_map (c : Cursor (α × β)) : (c.map Prod.fst).pair (c.map Prod.snd) = c := by
  obtain ⟨closed, frames⟩ := c
  unfold pair map
  dsimp only
  rw [Forest.pair_map]
  congr 1
  induction frames with
  | nil => rfl
  | cons frame outer ih =>
    simp only [List.map_cons, List.zipWith_cons_cons, Forest.pair_map, ih]

@[simp] theorem openNodes_push (a : α) (c : Cursor α) :
    (c.push a).openNodes = a :: c.openNodes := rfl

@[simp] theorem finished_push (a : α) (c : Cursor α) : (c.push a).finished = c.finished := by
  simp [finished, push, Forest.toList]

theorem openNodes_attach (c : Cursor α) (G : Forest α) : (c.attach G).openNodes = c.openNodes := by
  obtain ⟨closed, frames⟩ := c
  cases frames with
  | nil => rfl
  | cons frame outer => rfl

theorem mem_finished_attach {c : Cursor α} {G : Forest α} {x : α} :
    x ∈ (c.attach G).finished ↔ x ∈ c.finished ∨ x ∈ G.toList := by
  obtain ⟨closed, frames⟩ := c
  cases frames with
  | nil => simp [attach, finished]
  | cons frame outer =>
    simp only [attach, finished, Forest.toList_append, List.flatMap_cons, List.mem_append]
    tauto

/-- The innermost node is left, and nothing else. -/
theorem pop_cases {f : α → α} {c c' : Cursor α} (h : c.pop f = some c') : ∃ a,
    c.openNodes = a :: c'.openNodes ∧ ∀ x ∈ c'.finished, x = f a ∨ x ∈ c.finished := by
  obtain ⟨closed, frames⟩ := c
  cases frames with
  | nil => cases h
  | cons frame outer =>
    obtain ⟨a, children⟩ := frame
    obtain rfl := Option.some.inj h
    refine ⟨a, ?_, fun x hx => ?_⟩
    · rw [openNodes_attach]
      rfl
    · simp only [finished, List.flatMap_cons, List.mem_append]
      rcases mem_finished_attach.mp hx with hx | hx
      · right
        simp only [finished, List.mem_append] at hx
        exact hx.imp_right .inr
      · simp only [Forest.toList, List.append_nil, List.mem_cons] at hx
        exact hx.imp_right fun hx => .inr (.inl hx)

/-- The walk up to an event that opens a node, with what is recorded of it. -/
theorem replay_push {events : List (Event α)} {k : ℕ} {a : α} (b : β) {c : Cursor (α × β)}
    (h : (events.take k).foldlM step {} = some (c.map Prod.fst))
    (hk : events[k]? = some (.push a)) :
    (events.take (k + 1)).foldlM step {} = some ((c.push (a, b)).map Prod.fst) := by
  rw [List.take_add_one, hk, List.foldlM_append, h]
  rfl

/-- The walk up to an event that closes a node, with what is recorded of it. -/
theorem replay_pop {events : List (Event α)} {k : ℕ} {a : α} {f : β → β} {c : Cursor (α × β)}
    {tree : Cursor β} (h : (events.take k).foldlM step {} = some (c.map Prod.fst))
    (hk : events[k]? = some (.pop a)) (hpop : (c.map Prod.snd).pop f = some tree) :
    ∃ c', c.pop (Prod.map id f) = some c' ∧ tree = c'.map Prod.snd ∧
      (events.take (k + 1)).foldlM step {} = some (c'.map Prod.fst) := by
  have hsnd := map_pop (f := Prod.snd) (g := Prod.map id f) (h := f) (fun _ => rfl) c
  rw [hpop] at hsnd
  obtain ⟨c', hc', rfl⟩ := Option.map_eq_some_iff.mp hsnd
  refine ⟨c', hc', rfl, ?_⟩
  have hfst := map_pop (f := Prod.fst) (g := Prod.map id f) (h := id) (fun _ => rfl) c
  rw [hc'] at hfst
  rw [List.take_add_one, hk, List.foldlM_append, h]
  change ((c.map Prod.fst).pop id).bind some = _
  rw [← hfst]
  rfl

end Cursor
end Nesting
