import LlmSystem.Lib.Runs
import Mathlib.Data.List.Forall2

/-! A table of computed values: the first call with a key computes, the others look up. -/
namespace Memo

open Runs

variable {κ α β ε : Type} [DecidableEq κ] (key : α → κ) (compute : α → Except ε β)

/-- One call: the value and the table after it. -/
def call (table : List (κ × β)) (a : α) : Except ε (β × List (κ × β)) :=
  match table.lookup (key a) with
  | some b => .ok (b, table)
  | none => do
    let b ← compute a
    .ok (b, (key a, b) :: table)

/-- Calls one after the other. -/
def callAll : List (κ × β) → List α → Except ε (List β × List (κ × β))
  | table, [] => .ok ([], table)
  | table, a :: as => do
    let (b, table) ← call key compute table a
    let (bs, table) ← callAll table as
    .ok (b :: bs, table)

/-- The earliest call with a key. -/
def first (as : List α) (k : κ) : Option α := as.find? fun a => key a = k

/-- The table holds for each key what the earliest call with it computed. -/
def Holds (seen : List α) (table : List (κ × β)) : Prop :=
  ∀ k, (first key seen k).map compute = (table.lookup k).map .ok

variable {key} {compute}

theorem holds_nil : Holds key compute ([] : List α) ([] : List (κ × β)) := fun _ => rfl

theorem first_append (seen : List α) (a : α) (k : κ) : first key (seen ++ [a]) k
    = (first key seen k).or (if key a = k then some a else none) := by
  unfold first
  rw [List.find?_append, List.find?_singleton]
  simp only [decide_eq_true_eq]

theorem first_append_of_some {seen : List α} {k : κ} {a : α} (h : first key seen k = some a)
    (as : List α) : first key (seen ++ as) k = some a := by
  unfold first at h ⊢
  rw [List.find?_append, h]
  rfl

theorem call_holds {seen : List α} {table table' : List (κ × β)} {a : α} {b : β}
    (hseen : Holds key compute seen table) (h : call key compute table a = .ok (b, table')) :
    Holds key compute (seen ++ [a]) table' ∧
      (first key (seen ++ [a]) (key a)).map compute = some (.ok b) := by
  unfold call at h
  cases hlook : table.lookup (key a) with
  | some b' =>
    rw [hlook] at h
    obtain ⟨rfl, rfl⟩ := Prod.mk.inj (Except.ok.inj h)
    have hfirst := hseen (key a)
    rw [hlook] at hfirst
    obtain ⟨a₀, ha₀, hcompute⟩ := Option.map_eq_some_iff.mp hfirst
    constructor
    · intro k
      rw [first_append]
      by_cases hk : key a = k
      · rw [if_pos hk, ← hk, ha₀, hlook]
        exact congrArg some hcompute
      · rw [if_neg hk, Option.or_none]
        exact hseen k
    · rw [first_append_of_some ha₀]
      exact congrArg some hcompute
  | none =>
    rw [hlook] at h
    obtain ⟨b', hcompute, h⟩ := bind_eq_ok h
    obtain ⟨rfl, rfl⟩ := Prod.mk.inj (Except.ok.inj h)
    have hfirst := hseen (key a)
    rw [hlook] at hfirst
    have hnone : first key seen (key a) = none := Option.map_eq_none_iff.mp hfirst
    constructor
    · intro k
      rw [first_append, List.lookup_cons]
      by_cases hk : key a = k
      · rw [if_pos hk, ← hk, hnone, beq_self_eq_true]
        exact congrArg some hcompute
      · rw [if_neg hk, Option.or_none, beq_eq_false_iff_ne.mpr (Ne.symm hk)]
        exact hseen k
    · rw [first_append, if_pos rfl, hnone]
      exact congrArg some hcompute

theorem callAll_holds {seen as : List α} {table table' : List (κ × β)} {bs : List β}
    (hseen : Holds key compute seen table)
    (h : callAll key compute table as = .ok (bs, table')) :
    List.Forall₂ (fun a b => (first key (seen ++ as) (key a)).map compute = some (.ok b))
      as bs := by
  induction as generalizing seen table bs with
  | nil =>
    obtain ⟨rfl, rfl⟩ := Prod.mk.inj (Except.ok.inj h)
    exact .nil
  | cons a as ih =>
    obtain ⟨⟨b, table₁⟩, hone, h⟩ := bind_eq_ok h
    obtain ⟨⟨bs', table₂⟩, hrest, h⟩ := bind_eq_ok h
    obtain ⟨rfl, rfl⟩ := Prod.mk.inj (Except.ok.inj h)
    obtain ⟨hseen', hfirst⟩ := call_holds hseen hone
    have hall := ih hseen' hrest
    rw [List.append_assoc, List.singleton_append] at hall
    refine .cons ?_ hall
    obtain ⟨a₀, ha₀, hcompute⟩ := Option.map_eq_some_iff.mp hfirst
    have hsome := first_append_of_some ha₀ as
    rw [List.append_assoc, List.singleton_append] at hsome
    rw [hsome]
    exact congrArg some hcompute

/-- Started with an empty table, every call returns what the earliest call with its key
computes. -/
theorem callAll_first {as : List α} {table' : List (κ × β)} {bs : List β}
    (h : callAll key compute [] as = .ok (bs, table')) :
    List.Forall₂ (fun a b => ∃ a₀, first key as (key a) = some a₀ ∧ compute a₀ = .ok b) as bs := by
  apply (callAll_holds holds_nil h).imp
  intro a b hab
  exact Option.map_eq_some_iff.mp hab

theorem first_cons (a : α) (as : List α) (k : κ) :
    first key (a :: as) k = if key a = k then some a else first key as k := by
  unfold first
  rw [List.find?_cons]
  by_cases hk : key a = k
  · simp [hk]
  · simp [hk]

theorem call_lookup {table table' : List (κ × β)} {a : α} {b : β}
    (h : call key compute table a = .ok (b, table')) :
    table'.lookup (key a) = some b ∧ ∀ k, (table'.lookup k).map Except.ok
      = ((table.lookup k).map .ok).or (if key a = k then some (compute a) else none) := by
  unfold call at h
  cases hlook : table.lookup (key a) with
  | some b' =>
    rw [hlook] at h
    obtain ⟨rfl, rfl⟩ := Prod.mk.inj (Except.ok.inj h)
    refine ⟨hlook, fun k => ?_⟩
    by_cases hk : key a = k
    · rw [← hk, hlook]
      rfl
    · rw [if_neg hk, Option.or_none]
  | none =>
    rw [hlook] at h
    obtain ⟨b', hcompute, h⟩ := bind_eq_ok h
    obtain ⟨rfl, rfl⟩ := Prod.mk.inj (Except.ok.inj h)
    refine ⟨by rw [List.lookup_cons, beq_self_eq_true], fun k => ?_⟩
    rw [List.lookup_cons]
    by_cases hk : key a = k
    · rw [← hk, beq_self_eq_true, hlook, if_pos rfl, hcompute]
      rfl
    · rw [if_neg hk, beq_eq_false_iff_ne.mpr (Ne.symm hk), Option.or_none]

/-- Entries stay, the earliest call with a key that is not there computes one, and every answer is
the entry that is there in the end. -/
theorem callAll_lookup {as : List α} {table table' : List (κ × β)} {bs : List β}
    (h : callAll key compute table as = .ok (bs, table')) :
    (∀ k, (table'.lookup k).map Except.ok
        = ((table.lookup k).map .ok).or ((first key as k).map compute)) ∧
      bs.map some = as.map fun a => table'.lookup (key a) := by
  induction as generalizing table bs with
  | nil =>
    obtain ⟨rfl, rfl⟩ := Prod.mk.inj (Except.ok.inj h)
    exact ⟨fun k => (Option.or_none ..).symm, rfl⟩
  | cons a as ih =>
    obtain ⟨⟨b, table₁⟩, hone, h⟩ := bind_eq_ok h
    obtain ⟨⟨bs', table₂⟩, hrest, h⟩ := bind_eq_ok h
    obtain ⟨rfl, rfl⟩ := Prod.mk.inj (Except.ok.inj h)
    obtain ⟨hentry, hlookup⟩ := call_lookup hone
    obtain ⟨hlookups, hanswers⟩ := ih hrest
    constructor
    · intro k
      rw [hlookups, hlookup, Option.or_assoc, first_cons]
      by_cases hk : key a = k
      · simp [hk]
      · simp [hk]
    · have hkept := hlookups (key a)
      rw [hentry, Option.map_some, Option.some_or] at hkept
      obtain ⟨b', hb', heq⟩ := Option.map_eq_some_iff.mp hkept
      obtain rfl := Except.ok.inj heq
      rw [List.map_cons, List.map_cons, hanswers, hb']

end Memo
