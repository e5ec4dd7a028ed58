import Mathlib.Data.Prod.Lex
import Mathlib.Order.WellFounded

/-
  Iterating a step that may fail.

  The step may differ from one iteration to the next. While
  the states keep an invariant under which the step does not
  fail, the iteration goes on; when a rank falls with every
  step until a goal is reached, it reaches the goal.

  Main declarations:
    * `Iteration.run`
    * `Iteration.run_ok`
    * `Iteration.reaches_of_rank`
    * `Iteration.exists_change`
-/

------------------------------------------------------------
-- Iterations
------------------------------------------------------------

namespace Iteration

variable {ε σ β : Type}

/- The state after some steps, unless one of them fails. -/
def run
    (next : Nat → σ → Except ε σ) : Nat → σ → Except ε σ
  | 0, s => .ok s
  | n + 1, s => run next n s >>= next n

variable {next : Nat → σ → Except ε σ}
variable {I goal : σ → Prop}
variable {s t : σ}

theorem run_succ
    {n : Nat}
    {s' : σ}
    (hRun : run next n s = .ok s') :
    run next (n + 1) s = next n s' := by
  rw [run, hRun]
  rfl

/- Under the invariant no step fails. -/
theorem run_ok
    (hNext : ∀ n s, I s → ∃ s', next n s = .ok s' ∧ I s')
    (hInv : I s)
    (n : Nat) :
    ∃ s', run next n s = .ok s' ∧ I s' := by
  induction n with
  | zero => exact ⟨s, rfl, hInv⟩
  | succ n ih =>
      rcases ih with ⟨s', hRun, hInv'⟩
      rcases hNext n s' hInv' with ⟨s'', hStep, hInv''⟩
      exact ⟨s'', (run_succ hRun).trans hStep, hInv''⟩

/-
  A rank that falls until the goal is reached cannot fall
  forever.
-/
theorem reaches_of_rank
    [Preorder β]
    [WellFoundedLT β]
    (rank : Nat → σ → β)
    (hNext : ∀ n s, I s → ∃ s', next n s = .ok s' ∧ I s' ∧
      (¬ goal s → rank (n + 1) s' < rank n s))
    (hInv : I s) :
    ∃ n s', run next n s = .ok s' ∧ goal s' := by
  have hKeeps :
      ∀ n s, I s → ∃ s', next n s = .ok s' ∧ I s' := by
    intro n s hInv
    rcases hNext n s hInv with ⟨s', hStep, hInv', _⟩
    exact ⟨s', hStep, hInv'⟩
  choose state hRun hState using run_ok hKeeps hInv
  by_contra hNever
  rcases WellFounded.not_rel_apply_succ (r := (· < ·))
    (fun n => rank n (state n)) with ⟨n, hRises⟩
  apply hRises
  rcases hNext n (state n) (hState n) with
    ⟨s', hStep, _, hFalls⟩
  have hSame : s' = state (n + 1) := by
    have hBoth := (run_succ (hRun n)).symm.trans
      (hRun (n + 1))
    rw [hStep] at hBoth
    exact Except.ok.inj hBoth
  rw [← hSame]
  apply hFalls
  exact fun hGoal => hNever ⟨n, state n, hRun n, hGoal⟩

theorem inv_of_run
    {n : Nat}
    (hNext : ∀ n s, I s → ∃ s', next n s = .ok s' ∧ I s')
    (hInv : I s)
    (hRun : run next n s = .ok t) :
    I t := by
  rcases run_ok hNext hInv n with ⟨s', hRun', hInv'⟩
  rw [hRun] at hRun'
  rw [Except.ok.inj hRun']
  exact hInv'

/- What holds first and does not hold later has been lost in
one step. -/
theorem exists_change
    {n : Nat}
    {P : σ → Prop}
    (hRun : run next n s = .ok t)
    (hFirst : P s)
    (hLater : ¬ P t) :
    ∃ k u v, run next k s = .ok u ∧ next k u = .ok v ∧
      P u ∧ ¬ P v := by
  induction n generalizing t with
  | zero =>
      rw [← Except.ok.inj hRun] at hLater
      exact absurd hFirst hLater
  | succ n ih =>
      cases hBefore : run next n s with
      | error e =>
          rw [run, hBefore] at hRun
          cases hRun
      | ok u =>
          rw [run_succ hBefore] at hRun
          by_cases hHolds : P u
          · exact ⟨n, u, t, hBefore, hRun, hHolds, hLater⟩
          · exact ih hBefore hHolds

/- Ranks of three numbers fall with the first one that
changes. -/
theorem rank_lt
    {a a' b b' c c' : Nat}
    (hFalls : a' < a ∨ a' ≤ a ∧
      (b' < b ∨ b' ≤ b ∧ c' < c)) :
    toLex (a', toLex (b', c')) <
      toLex (a, toLex (b, c)) := by
  simp only [Prod.Lex.toLex_lt_toLex]
  omega

end Iteration
