import Mathlib.Logic.Relation
import Mathlib.Order.WellFounded

/-! Labelled runs of a step relation, their invariants, and sequencing in `Except`. -/
namespace Runs

variable {σ α : Type*} {step : σ → α → σ → Prop}

/-- `Run step s as t`: the steps labelled `as`, in this order, lead from `s` to `t`. -/
inductive Run (step : σ → α → σ → Prop) : σ → List α → σ → Prop
  | nil (s : σ) : Run step s [] s
  | cons {s t u : σ} {a : α} {as : List α} :
      step s a t → Run step t as u → Run step s (a :: as) u

namespace Run

theorem append {s t u : σ} {as bs : List α} (h : Run step s as t) (h' : Run step t bs u) :
    Run step s (as ++ bs) u := by
  induction h with
  | nil => exact h'
  | cons hs _ ih => exact .cons hs (ih h')

theorem single {s t : σ} {a : α} (h : step s a t) : Run step s [a] t := .cons h (.nil t)

/-- The invariant rule. -/
theorem invariant {I : σ → Prop} (hI : ∀ s a t, I s → step s a t → I t) {s t : σ}
    {as : List α} (h : Run step s as t) (hs : I s) : I t := by
  induction h with
  | nil => exact hs
  | cons ha _ ih => exact ih (hI _ _ _ hs ha)

/-- The invariant rule for an invariant that knows the steps so far. -/
theorem invariant_trace {I : List α → σ → Prop} {s t : σ} {as : List α}
    (h : Run step s as t) (hs : I [] s)
    (hI : ∀ as t a u, Run step s as t → I as t → step t a u → I (as ++ [a]) u) : I as t := by
  suffices hrest : ∀ {t u : σ} {bs : List α}, Run step t bs u → ∀ as, Run step s as t → I as t →
      I (as ++ bs) u from hrest h [] (.nil s) hs
  intro t u bs hrun
  induction hrun with
  | nil => exact fun as _ ht => by simpa using ht
  | @cons t u v a bs ha _ ih =>
    intro as hpre ht
    have hnext := ih (as ++ [a]) (hpre.append (.single ha)) (hI as t a u hpre ht ha)
    simpa using hnext

/-- Every single step of a run is a step of a coarser relation. -/
theorem mono {step' : σ → α → σ → Prop} (hle : ∀ s a t, step s a t → step' s a t) {s t : σ}
    {as : List α} (h : Run step s as t) : Run step' s as t := by
  induction h with
  | nil => exact .nil _
  | cons ha _ ih => exact .cons (hle _ _ _ ha) ih

theorem exists_of_total (htotal : ∀ s a, ∃ t, step s a t) (s : σ) (as : List α) :
    ∃ t, Run step s as t := by
  induction as generalizing s with
  | nil => exact ⟨s, .nil s⟩
  | cons a as ih =>
    obtain ⟨t, ht⟩ := htotal s a
    obtain ⟨u, hu⟩ := ih t
    exact ⟨u, .cons ht hu⟩

/-- The image of a run, of which the labels are images themselves. -/
theorem image {τ β : Type*} {step' : τ → β → τ → Prop} {f : σ → τ} {g : β → α} {I : σ → Prop}
    (hI : ∀ s b t, I s → step s (g b) t → I t ∧ step' (f s) b (f t)) {s t : σ} {bs : List β}
    (h : Run step s (bs.map g) t) (hs : I s) : I t ∧ Run step' (f s) bs (f t) := by
  induction bs generalizing s with
  | nil =>
    cases h
    exact ⟨hs, .nil _⟩
  | cons b bs ih =>
    cases h with
    | cons hstep hrest =>
      obtain ⟨ht, hb⟩ := hI _ _ _ hs hstep
      obtain ⟨hend, hbs⟩ := ih hrest ht
      exact ⟨hend, .cons hb hbs⟩

end Run

/-- The rule of a falling rank: a chain that lowers a rank as long as a goal is not met meets it. -/
theorem exists_of_rank_lt {ρ : Type*} [Preorder ρ] [WellFoundedLT ρ] {chain : ℕ → σ} (rank : σ → ρ)
    {goal : σ → Prop} (hfall : ∀ n, ¬ goal (chain n) → rank (chain (n + 1)) < rank (chain n)) :
    ∃ n, goal (chain n) := by
  obtain ⟨n, hn⟩ :=
    WellFounded.not_rel_apply_succ (r := fun x y : ρ => x < y) fun n => rank (chain n)
  by_contra hnone
  push Not at hnone
  exact hn (hfall n (hnone n))

/-- The states some run from `init` ends in. -/
def Reachable (init : σ → Prop) (step : σ → α → σ → Prop) (t : σ) : Prop :=
  ∃ s as, init s ∧ Run step s as t

theorem Reachable.invariant {init I : σ → Prop} (h0 : ∀ s, init s → I s)
    (hI : ∀ s a t, I s → step s a t → I t) {t : σ} (h : Reachable init step t) : I t := by
  obtain ⟨s, as, hs, hrun⟩ := h
  exact hrun.invariant hI (h0 s hs)

theorem Reachable.next {init : σ → Prop} {s t : σ} {a : α} (h : Reachable init step s)
    (hstep : step s a t) : Reachable init step t := by
  obtain ⟨s₀, as, h0, hrun⟩ := h
  exact ⟨s₀, as ++ [a], h0, hrun.append (.single hstep)⟩

/-- A computation that succeeds after a bind succeeded before it. -/
theorem bind_eq_ok {ε β γ : Type} {x : Except ε β} {f : β → Except ε γ} {c : γ}
    (h : (x >>= f) = .ok c) : ∃ b, x = .ok b ∧ f b = .ok c := by
  cases x with
  | error e => cases h
  | ok b => exact ⟨b, rfl, h⟩

theorem exists_ok_of_any {ε β : Type} {x : Except ε β} {p : β → Bool}
    (h : x.toOption.any p = true) : ∃ b, x = .ok b ∧ p b = true := by
  cases x with
  | error e => cases h
  | ok b => exact ⟨b, rfl, h⟩

theorem mapM_ok {ε β γ : Type} {g : γ → Except ε β} {f : γ → β} {l : List γ}
    (h : ∀ a ∈ l, g a = .ok (f a)) : l.mapM g = .ok (l.map f) := by
  induction l with
  | nil => rfl
  | cons a l ih =>
    obtain ⟨ha, hl⟩ := List.forall_mem_cons.mp h
    simp [List.mapM_cons, ha, ih hl]
    rfl

/-- What a fallible map keeps of each entry, it keeps of the list. -/
theorem map_of_mapM {ε β γ δ : Type} {g : γ → Except ε β} {f : β → δ} {f' : γ → δ}
    (hg : ∀ a b, g a = .ok b → f b = f' a) {l : List γ} {l' : List β} (h : l.mapM g = .ok l') :
    l'.map f = l.map f' := by
  induction l generalizing l' with
  | nil =>
    obtain rfl := Except.ok.inj h
    rfl
  | cons a l ih =>
    rw [List.mapM_cons] at h
    obtain ⟨b, hb, h⟩ := bind_eq_ok h
    obtain ⟨bs, hbs, h⟩ := bind_eq_ok h
    obtain rfl := Except.ok.inj h
    simp [hg a b hb, ih hbs]

/-- A result for each element gives the list of them. -/
theorem exists_mapM {ε β γ : Type} {g : γ → Except ε β} {l : List γ}
    (h : ∀ a ∈ l, ∃ b, g a = .ok b) : ∃ bs, l.mapM g = .ok bs := by
  induction l with
  | nil => exact ⟨[], rfl⟩
  | cons a l ih =>
    obtain ⟨⟨b, hb⟩, hl⟩ := List.forall_mem_cons.mp h
    obtain ⟨bs, hbs⟩ := ih hl
    exact ⟨b :: bs, by simp [List.mapM_cons, hb, hbs, bind, Except.bind, pure, Except.pure]⟩

/-- The elements of the list, in order. -/
theorem getElem?_of_mapM {ε β γ : Type} {g : γ → Except ε β} {l : List γ} {bs : List β}
    (h : l.mapM g = .ok bs) :
    bs.length = l.length ∧
      ∀ (i : Nat) (a : γ), l[i]? = some a → ∃ b, bs[i]? = some b ∧ g a = .ok b := by
  induction l generalizing bs with
  | nil =>
    obtain rfl := Except.ok.inj h
    simp
  | cons a l ih =>
    rw [List.mapM_cons] at h
    obtain ⟨b, hb, h⟩ := bind_eq_ok h
    obtain ⟨bs', hbs, h⟩ := bind_eq_ok h
    obtain rfl := Except.ok.inj h
    obtain ⟨hlength, hget⟩ := ih hbs
    refine ⟨by simp [hlength], fun i a' hi => ?_⟩
    cases i with
    | zero =>
      obtain rfl := Option.some.inj hi
      exact ⟨b, rfl, hb⟩
    | succ i => exact hget i a' hi

/-- A fold of a fallible step function is a run of its graph. -/
theorem Run.of_foldlM {ε β γ : Type} {f : β → γ → Except ε β} {b b' : β} {as : List γ}
    (h : as.foldlM f b = .ok b') : Run (fun s a t => f s a = .ok t) b as b' := by
  induction as generalizing b with
  | nil =>
    obtain rfl := Except.ok.inj h
    exact .nil b
  | cons a as ih =>
    rw [List.foldlM_cons] at h
    obtain ⟨c, hc, h⟩ := bind_eq_ok h
    exact .cons hc (ih h)

/-- What the steps of a fallible step function write to a log, up to its first error. -/
def log {ε β : Type*} (f : σ → α → Except ε σ) (write : σ → α → List β) : σ → List α → List β
  | _, [] => []
  | s, a :: as => write s a ++
    match f s a with
    | .ok t => log f write t as
    | .error _ => []

theorem log_append {ε β : Type*} {f : σ → α → Except ε σ} (write : σ → α → List β) {s t : σ}
    {as : List α} (h : Run (fun s a t => f s a = .ok t) s as t) (a : α) :
    log f write s (as ++ [a]) = log f write s as ++ write t a := by
  induction h with
  | nil s =>
    simp only [List.nil_append, log]
    cases f s a <;> simp
  | @cons s t u a₁ as ha _ ih => simp only [List.cons_append, log, ha, ih, List.append_assoc]

end Runs
