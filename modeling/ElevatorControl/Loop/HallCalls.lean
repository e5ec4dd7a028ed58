import ElevatorControl.Loop.Calls

/-
  Where one iteration of `_loop` clears hall calls.

  A pending call is cleared where the car has waited with
  open doors at its floor since the start of the iteration,
  or where the car leaves the floor of the call.

  Key definitions include:
    * `Car.Waits`
    * `Loop.Completes`
    * `Loop.LeavesCaller`

  Key theorems include:
    * `Loop.cleared_cases`
-/

------------------------------------------------------------
-- Waiting Cars
------------------------------------------------------------

namespace ElevatorControl

namespace Car

variable {d : BasicDriverInfo}
variable {i : Inputs}
variable {c c' : Car}

/- The motor is stopped and the doors are open. -/
def Open
    (c : Car) : Prop :=
  c.motor = .none ∧ c.doorOpenLamp = true

/- A car that waits at a floor has open doors. -/
def Waits
    (c : Car) : Prop :=
  c.state = .waitingForInButton → c.Open

/-
  Without an obstruction, a car waits before the local state
  only if it has waited since the start of the iteration.
-/
theorem Waits.approached
    (hWaits : c.Waits)
    (hClear : i.getObstruction = false)
    (hMove : Approached d i c c') :
    c'.Waits ∧
      (c'.state = .waitingForInButton →
        c.state = .waitingForInButton) := by
  cases hMove with
  | intro c₁ c₂ hPolled hCommanded =>
      have hPolls :
          c₁.Waits ∧
            (c₁.state = .waitingForInButton →
              c.state = .waitingForInButton) := by
        cases hPolled with
        | ignored => exact ⟨hWaits, fun hState => hState⟩
        | stopped =>
            exact ⟨fun hState => LocalState.noConfusion hState,
              fun hState => LocalState.noConfusion hState⟩
        | resumed c₀ hStarts =>
            exact ⟨fun hState => LocalState.noConfusion hState,
              fun hState => LocalState.noConfusion hState⟩
      have hSame : c₂ = c₁ := by
        cases hCommanded with
        | ignored => rfl
        | obstructed hObstruction =>
            rw [hClear] at hObstruction
            cases hObstruction
      subst hSame
      unfold sensed safetyStop
      split
      · exact ⟨fun hState => ⟨rfl, (hPolls.1 hState).2⟩,
          hPolls.2⟩
      · exact hPolls

theorem Waits.reacted
    (hWaits : c.Waits)
    (hMove : Reacted d i c c') :
    c'.Waits := by
  cases hMove with
  | rested => exact hWaits
  | served hState => exact fun _ => ⟨rfl, rfl⟩
  | left _ hState hDirection hStarts =>
      cases hStarts
      intro hWaiting
      change c.state = .waitingForInButton at hWaiting
      rw [hState] at hWaiting
      cases hWaiting
  | shut hState =>
      exact fun hWaiting => LocalState.noConfusion hWaiting

end Car

------------------------------------------------------------
-- Calls in One Iteration
------------------------------------------------------------

namespace Loop

open Exec

/- The state an iteration leaves, whether it completes or
fails an assertion. -/
def finished
    (d : BasicDriverInfo)
    (i : Inputs)
    (s : Loop) : Loop :=
  match loopBody d i s with
  | .ok _ t => t
  | .error _ t => t

/- The iteration fails no assertion. -/
def Completes
    (d : BasicDriverInfo)
    (i : Inputs)
    (s : Loop) : Prop :=
  ∃ s', loopBody d i s = .ok () s'

/- The iteration reaches its local state and leaves the
caller there. -/
def LeavesCaller
    (d : BasicDriverInfo)
    (i : Inputs)
    (s : Loop)
    (x : CallDirection)
    (f : Int) : Prop :=
  ∃ currentFloor t, approach d i s = .ok currentFloor t ∧
    Leaves d i t x f

section Iteration

variable {S : Shaft}
variable {i : Inputs}
variable {s : Loop}
variable {x : CallDirection}
variable {f : Int}

/- An iteration that fails before its local state clears
no call. -/
theorem finished_of_approach_error
    {d : BasicDriverInfo}
    {e : AssertionFailed}
    {t : Loop}
    (hRun : approach d i s = .error e t) :
    finished d i s = t ∧ ¬ Completes d i s := by
  have hBody : loopBody d i s = .error e t := by
    simp only [loopBody, bind, EStateM.bind, hRun]
  refine ⟨?_, ?_⟩
  · simp only [finished, hBody]
  · rintro ⟨s', hOk⟩
    rw [hBody] at hOk
    cases hOk

theorem finished_of_ok
    {d : BasicDriverInfo}
    {t : Loop}
    (hRun : loopBody d i s = .ok () t) :
    finished d i s = t := by
  simp only [finished, hRun]

theorem loopBody_of_approach
    {d : BasicDriverInfo}
    {currentFloor : Int}
    {t : Loop}
    (hRun : approach d i s = .ok currentFloor t) :
    loopBody d i s = react d i currentFloor t := by
  simp only [loopBody, bind, EStateM.bind, hRun]

/- Reaching the local state accepts the command. -/
theorem approach_ok
    {currentFloor : Int}
    {t : Loop}
    (hRun :
      approach S.toBasicDriverInfo i s =
        .ok currentFloor t) :
    currentFloor = i.getFloor .loop ∧
      Car.Approached S.toBasicDriverInfo i s.car t.car ∧
      Accepted S.toBasicDriverInfo i.accepts s t := by
  have hCar :=
    wp_ok (refines_approach S.toBasicDriverInfo i s) hRun
  have hCalls := wp_ok (wp_approach_calls s) hRun
  exact ⟨hCar.1, hCar.2, hCalls⟩

/-
  A call that is pending or accepted and then cleared has
  been cleared where the car has waited at its floor since
  the start of the iteration, or where the car leaves.
-/
theorem cleared_cases
    (hf : S.InRange f)
    (hWaits : s.car.Waits)
    (hClear : i.getObstruction = false)
    (hCall :
      called S.toBasicDriverInfo x f s = true ∨
        (Completes S.toBasicDriverInfo i s ∧
          i.accepts x f = true))
    (hCleared :
      called S.toBasicDriverInfo x f
        (finished S.toBasicDriverInfo i s) = false) :
    (i.getFloor .loop = f ∧ s.car.Open) ∨
      LeavesCaller S.toBasicDriverInfo i s x f := by
  cases hRun : approach S.toBasicDriverInfo i s with
  | error e t =>
      rcases finished_of_approach_error hRun with
        ⟨hFinished, hFails⟩
      have hKept :=
        wp_error (wp_approach_calls s) hRun x f hf
      rcases hCall with hCalled | ⟨hCompletes, _⟩
      · rw [hFinished, hKept hCalled] at hCleared
        cases hCleared
      · exact absurd hCompletes hFails
  | ok currentFloor t =>
      rcases approach_ok hRun with
        ⟨hCurrent, hCar, hAccepted⟩
      have hCalled :
          called S.toBasicDriverInfo x f t = true := by
        rw [hAccepted x f hf]
        rcases hCall with hCalled | ⟨_, hAccepts⟩
        · rw [hCalled]
          rfl
        · rw [hAccepts]
          simp
      have hBody := loopBody_of_approach hRun
      rw [hCurrent] at hBody
      by_cases hStands : WaitsAt i t f
      · left
        have hBack := (hWaits.approached hClear hCar).2
        exact ⟨hStands.2, hWaits (hBack hStands.1)⟩
      · right
        refine ⟨currentFloor, t, hRun, ?_⟩
        by_contra hStays
        cases hReact :
            react S.toBasicDriverInfo i
              (i.getFloor .loop) t with
        | ok u s' =>
            have hKept :=
              (wp_ok (wp_react_calls t) hReact).kept x f hf
                hCalled hStands hStays
            rw [finished, hBody, hReact] at hCleared
            rw [hKept] at hCleared
            cases hCleared
        | error e s' =>
            have hKept :=
              (wp_error (wp_react_calls t) hReact).kept x f
                hf hCalled
            rw [finished, hBody, hReact] at hCleared
            rw [hKept] at hCleared
            cases hCleared

/- Iterations without an obstruction keep waiting cars
open. -/
theorem waits_of_completes
    {d : BasicDriverInfo}
    (hWaits : s.car.Waits)
    (hClear : i.getObstruction = false)
    (hCompletes : Completes d i s) :
    (finished d i s).car.Waits := by
  have hWp :
      wp (loopBody d i) (fun _ s' => s'.car.Waits)
        (fun _ _ => True) s := by
    unfold loopBody
    rw [wp_bind]
    apply wp_mono _ (fun _ _ _ => trivial)
      (refines_approach d i s)
    rintro currentFloor s₁ ⟨_, hMove₁⟩
    have hWaits₁ := (hWaits.approached hClear hMove₁).1
    apply wp_mono _ (fun _ _ _ => trivial)
      (refines_react d i currentFloor s₁)
    exact fun _ _ hMove₂ => hWaits₁.reacted hMove₂
  rcases hCompletes with ⟨s', hRun⟩
  rw [finished, hRun]
  have hOk := wp_ok hWp hRun
  exact hOk

end Iteration

end Loop

end ElevatorControl
