import Mathlib.Logic.Relation

/-
  Transition systems given by an initial predicate and a
  step relation, their reachable states, and the rule that
  proves a predicate of every reachable state.

  Main declarations:
    * `TransitionSystem`
    * `TransitionSystem.Reachable`
    * `TransitionSystem.Reachable.invariant`
    * `TransitionSystem.Reachable.simulated`
-/

------------------------------------------------------------
-- Transition Systems
------------------------------------------------------------

universe u

/- A transition system over a type of states. -/
structure TransitionSystem (σ : Type u) where
  Init : σ → Prop
  Step : σ → σ → Prop

namespace TransitionSystem

variable {σ : Type u}
variable {M : TransitionSystem σ}

/-
  A state is reachable when finitely many steps lead to it
  from an initial state.
-/
def Reachable
    (M : TransitionSystem σ)
    (s : σ) : Prop :=
  ∃ s₀, M.Init s₀ ∧ Relation.ReflTransGen M.Step s₀ s

/- Initial states are reachable. -/
theorem Reachable.init
    {s : σ}
    (hInit : M.Init s) :
    M.Reachable s :=
  ⟨s, hInit, Relation.ReflTransGen.refl⟩

/- A step from a reachable state leads to a reachable one. -/
theorem Reachable.step
    {s s' : σ}
    (hReach : M.Reachable s)
    (hStep : M.Step s s') :
    M.Reachable s' := by
  rcases hReach with ⟨s₀, hInit, hSteps⟩
  exact ⟨s₀, hInit, hSteps.tail hStep⟩

/- A system with more steps reaches what the other does. -/
theorem Reachable.mono
    {N : TransitionSystem σ}
    (hInit : ∀ s, M.Init s → N.Init s)
    (hStep : ∀ s s', M.Step s s' → N.Step s s')
    {s : σ}
    (hReach : M.Reachable s) :
    N.Reachable s := by
  rcases hReach with ⟨s₀, hInit₀, hSteps⟩
  exact ⟨s₀, hInit s₀ hInit₀,
    Relation.ReflTransGen.mono hStep s₀ s hSteps⟩

------------------------------------------------------------
-- Invariants
------------------------------------------------------------

/-
  A predicate that holds initially and is kept by every step
  holds of every reachable state.
-/
theorem Reachable.invariant
    {P : σ → Prop}
    (hInit : ∀ s, M.Init s → P s)
    (hStep : ∀ s s', P s → M.Step s s' → P s')
    {s : σ}
    (hReach : M.Reachable s) :
    P s := by
  rcases hReach with ⟨s₀, hInit₀, hSteps⟩
  induction hSteps with
  | refl => exact hInit s₀ hInit₀
  | tail _ hLast ih => exact hStep _ _ ih hLast

/-
  A system whose steps are matched by any number of steps of
  another one from every state related to it reaches only
  states related to reachable ones.
-/
theorem Reachable.simulated
    {τ : Type u}
    {N : TransitionSystem τ}
    {R : σ → τ → Prop}
    (hInit : ∀ s, M.Init s → ∃ t, N.Init t ∧ R s t)
    (hStep : ∀ s s' t, R s t → N.Reachable t → M.Step s s' →
      ∃ t', Relation.ReflTransGen N.Step t t' ∧ R s' t')
    {s : σ}
    (hReach : M.Reachable s) :
    ∃ t, N.Reachable t ∧ R s t := by
  rcases hReach with ⟨s₀, hInit₀, hSteps⟩
  induction hSteps with
  | refl =>
      rcases hInit s₀ hInit₀ with ⟨t, hStart, hRelated⟩
      exact ⟨t, .init hStart, hRelated⟩
  | tail _ hLast ih =>
      rcases ih with ⟨t, hReach, hRelated⟩
      rcases hStep _ _ t hRelated hReach hLast with
        ⟨t', hRun, hRelated'⟩
      rcases hReach with ⟨t₀, hStart, hRun₀⟩
      exact ⟨t', ⟨t₀, hStart, hRun₀.trans hRun⟩,
        hRelated'⟩

end TransitionSystem
