import Mathlib.Logic.Basic

/-! Finite labelled runs of a step relation, and invariants along them. -/
namespace Transitions

variable {State Label : Type} {tr : State → Label → State → Prop}
  {s t u : State} {l : Label} {ls ms : List Label}

/-- A finite run, with its labels in order. -/
inductive Run (tr : State → Label → State → Prop) : State → List Label → State → Prop
  | refl {s : State} : Run tr s [] s
  | stepL {s t u : State} {l : Label} {ls : List Label} :
      tr s l t → Run tr t ls u → Run tr s (l :: ls) u

/-- A property that every step preserves. -/
def Preserved (tr : State → Label → State → Prop) (p : State → Prop) : Prop :=
  ∀ s l t, tr s l t → p s → p t

/-- States that some run from an initial state reaches. -/
def Reachable (init : State → Prop) (tr : State → Label → State → Prop) (s : State) : Prop :=
  ∃ s₀ ls, init s₀ ∧ Run tr s₀ ls s

theorem Run.invariant {p : State → Prop} (hp : Preserved tr p) (h : Run tr s ls t)
    (hs : p s) : p t := by
  induction h with
  | refl => exact hs
  | stepL h _ ih => exact ih (hp _ _ _ h hs)

theorem Reachable.invariant {init p : State → Prop} (hp : Preserved tr p)
    (hi : ∀ s, init s → p s) (h : Reachable init tr s) : p s := by
  obtain ⟨s₀, ls, h₀, hr⟩ := h
  exact hr.invariant hp (hi s₀ h₀)

theorem Run.single (h : tr s l t) : Run tr s [l] t := .stepL h .refl

theorem Run.append (h : Run tr s ls t) (h' : Run tr t ms u) : Run tr s (ls ++ ms) u := by
  induction h with
  | refl => exact h'
  | stepL h _ ih => exact .stepL h (ih h')

theorem Run.snoc (h : Run tr s ls t) (h' : tr t l u) : Run tr s (ls ++ [l]) u :=
  h.append (.single h')

theorem Reachable.initial {init : State → Prop} (h : init s) : Reachable init tr s :=
  ⟨s, [], h, .refl⟩

theorem Reachable.step {init : State → Prop} (h : Reachable init tr s) (hs : tr s l t) :
    Reachable init tr t := by
  obtain ⟨s₀, ls, h₀, hr⟩ := h
  exact ⟨s₀, ls ++ [l], h₀, hr.snoc hs⟩

/-- A run whose labels split has an intermediate state. -/
theorem Run.split (h : Run tr s (ls ++ ms) u) : ∃ t, Run tr s ls t ∧ Run tr t ms u := by
  induction ls generalizing s with
  | nil => exact ⟨s, .refl, h⟩
  | cons l ls ih =>
    cases h with
    | stepL hs hr =>
      obtain ⟨t, h₁, h₂⟩ := ih hr
      exact ⟨t, .stepL hs h₁, h₂⟩

/-- The step that carries a given occurrence of a label. -/
theorem Run.split_at (h : Run tr s (ls ++ l :: ms) u) :
    ∃ v w, Run tr s ls v ∧ tr v l w ∧ Run tr w ms u := by
  obtain ⟨v, h₁, h₂⟩ := h.split
  cases h₂ with
  | stepL hs hr => exact ⟨v, _, h₁, hs, hr⟩

theorem Run.get {i : Nat} (h : Run tr s ls t) (hi : ls[i]? = some l) :
    ∃ v w, Run tr s (ls.take i) v ∧ tr v l w := by
  obtain ⟨hlt, rfl⟩ := List.getElem?_eq_some_iff.mp hi
  rw [← List.take_append_drop i ls, List.drop_eq_getElem_cons hlt] at h
  obtain ⟨v, w, hv, hs, -⟩ := h.split_at
  exact ⟨v, w, hv, hs⟩

/-- A property of a state and of the labels so far. -/
theorem Run.history {p : List Label → State → Prop}
    (hp : ∀ past u l v, p past u → tr u l v → p (past ++ [l]) v) (h : Run tr s ls t)
    (hs : p [] s) : p ls t := by
  have hgen : ∀ past, p past s → p (past ++ ls) t := by
    clear hs
    induction h with
    | refl =>
      intro past hs
      rwa [List.append_nil]
    | @stepL s u t l ls h _ ih =>
      intro past hs
      have := ih (past ++ [l]) (hp past s l u hs h)
      rwa [List.append_assoc] at this
  exact hgen [] hs

/-- The steps of a run that have these labels only. -/
theorem Run.restrict {p : Label → Prop} (h : Run tr s ls t) (hp : ∀ l ∈ ls, p l) :
    Run (fun s l t => tr s l t ∧ p l) s ls t := by
  induction h with
  | refl => exact .refl
  | stepL h _ ih =>
    exact .stepL ⟨h, hp _ List.mem_cons_self⟩ (ih fun l hl => hp l (List.mem_cons_of_mem _ hl))

/-- Where each step shortens what is to go, a run is no longer than that. -/
theorem Run.bounded {p : State → Prop} {toGo : State → Nat}
    (hp : ∀ s l t, tr s l t → p s → p t ∧ toGo t < toGo s) (h : Run tr s ls t) (hs : p s) :
    p t ∧ ls.length + toGo t ≤ toGo s := by
  induction h with
  | refl => exact ⟨hs, by simp⟩
  | stepL h _ ih =>
    obtain ⟨hu, hless⟩ := hp _ _ _ h hs
    obtain ⟨ht, hrest⟩ := ih hu
    refine ⟨ht, ?_⟩
    rw [List.length_cons]
    omega

/-- A run of a smaller relation is a run of a larger one. -/
theorem Run.mono {tr' : State → Label → State → Prop}
    (hle : ∀ s l t, tr s l t → tr' s l t) (h : Run tr s ls t) : Run tr' s ls t := by
  induction h with
  | refl => exact .refl
  | stepL h _ ih => exact .stepL (hle _ _ _ h) ih

theorem Reachable.mono {init : State → Prop} {tr' : State → Label → State → Prop}
    (hle : ∀ s l t, tr s l t → tr' s l t) (h : Reachable init tr s) : Reachable init tr' s := by
  obtain ⟨s₀, ls, h₀, hr⟩ := h
  exact ⟨s₀, ls, h₀, hr.mono hle⟩

end Transitions
