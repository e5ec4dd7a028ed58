import ElevatorControl.Loop.Outlook

/-
  Hall calls over whole runs of `_loop`.

  A call that a command has set ought to be cleared only if
  the car stands at its floor with open doors in some
  iteration from the one that sets it to the one that clears
  it. The loop breaks this where a car that stands still with
  closed doors departs: it clears the call of the floor it
  leaves without having opened the doors for it.

  A car that rests, at a floor with open doors or with closed
  ones and no direction, has stood there since every call for
  the floor, as long as such a car does not take a call for
  the floor it leaves.

  Key definitions include:
    * `Loop.LeavesFrom`
    * `Loop.JumpsFrom`
    * `Loop.SparesCallers`
    * `LoopRun`
    * `LoopRun.ServesCalls`

  Key theorems include:
    * `Loop.rests_cases`
    * `Loop.leavesCaller_cases`
    * `LoopRun.met`
    * `LoopRun.servesCalls_of_spares`
-/

------------------------------------------------------------
-- Callers at the Floor of the Car
------------------------------------------------------------

namespace ElevatorControl

namespace Loop

open Exec Car

/- An idle car that does not open its doors leaves floor `f`
in direction `x`, if it has any request. -/
structure LeavesFrom
    (d : BasicDriverInfo)
    (i : Inputs)
    (s : Loop)
    (x : CallDirection)
    (f : Int) : Prop where
  idle : Idle i s
  shut : ¬ StopsHere d i s
  floor : leftFloor i s = f
  heading : (departure d i s).heading d = x.direction

/- A car that overshoots to an end floor leaves floor `f` in
direction `x`, if it has any request. -/
structure JumpsFrom
    (d : BasicDriverInfo)
    (i : Inputs)
    (s : Loop)
    (x : CallDirection)
    (f : Int) : Prop where
  overshoots : Overshoots d i s
  floor : leftFloor i s = f
  heading : (jump d i s).heading d = x.direction

/- The doors are open at the floor the sensor reads. -/
def OpenAt
    (i : Inputs)
    (s : Loop)
    (f : Int) : Prop :=
  i.getFloor .loop = f ∧ s.car.Open

/-
  No call comes up at the floor of a car that leaves it. The
  command is no call for the floor and the direction in which
  an idle car leaves, the sensor does not move an idle car to
  the floor of a pending call, no call for the last floor
  comes while the doors are open and the sensor sees no
  floor, and a car that overshoots to an end floor does not
  leave the floor of a call in its direction.
-/
structure SparesCallers
    (d : BasicDriverInfo)
    (i : Inputs)
    (s : Loop) : Prop where
  accepted : ∀ x f, d.InRange f → LeavesFrom d i s x f →
    i.accepts x f = true → OpenAt i s f
  moved : ∀ x f, d.InRange f → LeavesFrom d i s x f →
    called d x f s = true →
      f = s.elevState.lastFloor ∨ OpenAt i s f
  unseen : ∀ x, s.state = .waitingForInButton →
    i.getFloor .loop = intMin →
      i.accepts x s.elevState.lastFloor = false
  overshot : ∀ x f, d.InRange f → JumpsFrom d i s x f →
    called d x f s = false ∧ i.accepts x f = false

/- The car is at a floor, with open doors or without a
direction. -/
def Rests
    (s : Loop) : Prop :=
  s.state = .waitingForInButton ∨
    (s.state = .normal ∧ s.elevState.direction = .none)

section Iteration

variable {S : Shaft}
variable {i : Inputs}
variable {s s' t : Loop}
variable {x : CallDirection}
variable {f : Int}

------------------------------------------------------------
-- Cars That Come to Rest
------------------------------------------------------------

/- Opening the doors ends in the local state that waits. -/
theorem wp_serveFloor_waits
    {d : BasicDriverInfo}
    (s : Loop) :
    wp (serveFloor d i f)
      (fun _ u => u.state = .waitingForInButton)
      (fun _ _ => True) s := by
  have hFlag : ∀ s, wp (setButtonLampAndFlag d
      ⟨.targetFloor, f⟩ false) (fun _ _ => True)
      (fun _ _ => True) s := by
    intro s
    unfold wp
    split
    · trivial
    · trivial
  have hInside : Keeps Loop.state (setInside d false f) :=
    keeps_setInside (fun _ _ => rfl) d false f
  unfold serveFloor stopElevator emitStateChange
  simp only [wp_bind, wp_modify]
  apply wp_mono _ (fun _ _ _ => trivial) (hFlag s)
  intro _ s₁ _
  apply hInside.wp _ fun _ _ _ => trivial
  exact fun _ _ hSame => hSame

/- A car that departs does not rest, and one that does not
depart has no calls. -/
theorem wp_depart_rests
    (s : Loop)
    (hState : s.state = .normal)
    (currentFloor : Int) :
    wp (depart S.toBasicDriverInfo i currentFloor)
      (fun _ u => Rests u → ∀ x f, S.InRange f →
        called S.toBasicDriverInfo x f u = false)
      (fun _ _ => True) s := by
  unfold depart startForRequests emitStateChange
  simp only [wp_bind, wp_get, wp_when, wp_modify]
  split
  · next hRequests =>
      cases hPriority :
          priorityFloorsInDirection S.toBasicDriverInfo
            s.elevState s.previousDirection with
      | error e => exact trivial
      | ok priority =>
          rw [wp_check_ok, wp_startFor]
          apply (keeps_car_clearDirectionButtonLamp _).wp _
            fun _ _ _ => trivial
          intro _ u hCar hRests
          have hNormal : u.state = s.state :=
            congrArg Car.state hCar
          have hMoves : u.elevState.direction ≠ .none := by
            have hSame := congrArg Car.direction hCar
            change u.elevState.direction =
              (departing S.toBasicDriverInfo i priority
                s).elevState.direction at hSame
            rw [hSame]
            exact direction_departed_ne_none
          rcases hRests with hWaits | ⟨_, hStands⟩
          · rw [hNormal, hState] at hWaits
            cases hWaits
          · exact absurd hStands hMoves
  · next hRequests =>
      apply wp_mono _ (fun _ _ _ => trivial)
        (wp_clearDirectionButtonLamp_calls _ s)
      intro _ u hCleared _ x f hf
      have hNone :
          called S.toBasicDriverInfo x f s = false := by
        by_contra hCalled
        apply hRequests
        exact hasAny_of_called (by simpa using hCalled)
      by_cases hButton :
          directionButton S.toBasicDriverInfo s.elevState =
            some (x, f)
      · exact (hCleared x f hf).2 hButton
      · rw [(hCleared x f hf).1 hButton]
        exact hNone

/- A car that rests after the local state `Normal` has opened
its doors at the floor it senses, or has no calls. -/
theorem wp_handleNormal_rests
    (s : Loop)
    (hState : s.state = .normal) :
    wp (handleNormal S.toBasicDriverInfo i
        (i.getFloor .loop))
      (fun _ u => Rests u →
        (u.state = .waitingForInButton ∧
            i.getFloor .loop ≠ intMin) ∨
          ∀ x f, S.InRange f →
            called S.toBasicDriverInfo x f u = false)
      (fun _ _ => True) s := by
  unfold handleNormal
  simp only [wp_bind, wp_get]
  cases hArrives :
      arrives S.toBasicDriverInfo s.elevState
        (i.getFloor .loop) with
  | error e => exact trivial
  | ok arrived =>
      rw [wp_check_ok, wp_ite, wp_when]
      split
      · next hArrived =>
          have hKnown : i.getFloor .loop ≠ intMin := by
            intro hUnknown
            rw [arrives, if_neg (not_not_intro hUnknown)]
              at hArrives
            rw [← Except.ok.inj hArrives] at hArrived
            cases hArrived
          apply wp_mono _ (fun _ _ _ => trivial)
            (wp_serveFloor_waits s)
          exact fun _ u hWaits _ => Or.inl ⟨hWaits, hKnown⟩
      · split
        · next hStands =>
            apply wp_mono _ (fun _ _ _ => trivial)
              (wp_depart_rests s hState _)
            exact fun _ u hCalls hRests =>
              Or.inr (hCalls hRests)
        · next hMoves =>
            rintro (hWaits | ⟨_, hStands⟩)
            · rw [hState] at hWaits
              cases hWaits
            · exact absurd hStands hMoves

/- The end of an iteration moves neither the car nor the
calls. -/
theorem keeps_calls_finishCycle
    (currentFloor : Int) :
    Keeps (fun s => (s.car, s.allCalls))
      (finishCycle i currentFloor) := by
  unfold finishCycle
  apply Keeps.bind keeps_get
  intro s
  apply Keeps.bind
  · exact keeps_when fun _ => keeps_modify fun _ => rfl
  · exact fun _ => keeps_modify fun _ => rfl

theorem wp_react_rests
    (s : Loop)
    (hState : s.state = .normal) :
    wp (react S.toBasicDriverInfo i (i.getFloor .loop))
      (fun _ u => Rests u →
        (u.state = .waitingForInButton ∧
            i.getFloor .loop ≠ intMin) ∨
          ∀ x f, S.InRange f →
            called S.toBasicDriverInfo x f u = false)
      (fun _ _ => True) s := by
  unfold react handleState
  simp only [wp_bind, wp_get, hState]
  apply wp_mono _ (fun _ _ _ => trivial)
    (wp_handleNormal_rests s hState)
  intro _ s₁ hRests
  apply (keeps_calls_finishCycle _).wp _ fun _ _ _ => trivial
  intro _ u hSame
  have hCar : u.car = s₁.car := congrArg Prod.fst hSame
  have hCalls : u.allCalls = s₁.allCalls :=
    congrArg Prod.snd hSame
  have hState₁ : u.state = s₁.state :=
    congrArg Car.state hCar
  have hDirection :
      u.elevState.direction = s₁.elevState.direction :=
    congrArg Car.direction hCar
  unfold Rests at hRests ⊢
  rw [hState₁, hDirection]
  intro hRests'
  rcases hRests hRests' with hOpens | hNone
  · exact Or.inl hOpens
  · right
    intro x f hf
    rw [called_congr hCalls]
    exact hNone x f hf

/- A car that waits before the local state has waited at the
last floor it knew, unless the sensor reads one. -/
theorem waiting_approached
    {d : BasicDriverInfo}
    {c c' : Car}
    (hMove : Approached d i c c')
    (hState : c'.state = .waitingForInButton) :
    c'.lastFloor =
      floorAfter (i.getFloor .loop) c.lastFloor := by
  cases hMove with
  | intro c₁ c₂ hPolled hCommanded =>
      rcases same_of_commanded hCommanded with
        ⟨hState₂, _, hLast₂⟩
      rw [state_sensed, hState₂] at hState
      rw [lastFloor_sensed, hLast₂]
      cases hPolled with
      | ignored => rfl
      | stopped => cases hState
      | resumed c₀ hStarts => cases hState

/- A car with closed doors opens them where it stands. -/
theorem opened_of_reacted
    {d : BasicDriverInfo}
    {c c' : Car}
    (hMove : Reacted d i c c')
    (hNormal : c.state = .normal)
    (hOpens : c'.state = .waitingForInButton) :
    c'.Open ∧ c'.lastFloor = c.lastFloor := by
  cases hMove with
  | rested =>
      rw [hNormal] at hOpens
      cases hOpens
  | served _ => exact ⟨⟨rfl, rfl⟩, rfl⟩
  | left c' _ _ hStarts =>
      cases hStarts
      change c.state = _ at hOpens
      rw [hNormal] at hOpens
      cases hOpens
  | shut _ => cases hOpens

/- A car that waits stays at its floor. -/
theorem lastFloor_of_reacted
    {d : BasicDriverInfo}
    {c c' : Car}
    (hMove : Reacted d i c c')
    (hWaiting : c.state = .waitingForInButton) :
    c'.lastFloor = c.lastFloor := by
  cases hMove with
  | rested => rfl
  | served hNormal =>
      rw [hWaiting] at hNormal
      cases hNormal
  | left c' hNormal _ _ =>
      rw [hWaiting] at hNormal
      cases hNormal
  | shut _ => rfl

/- A stopped car stays as it is. -/
theorem eq_of_reacted
    {d : BasicDriverInfo}
    {c c' : Car}
    (hMove : Reacted d i c c')
    (hStopped : c.state = .stopped) :
    c' = c := by
  cases hMove with
  | rested => rfl
  | served hNormal =>
      rw [hStopped] at hNormal
      cases hNormal
  | left c' hNormal _ _ =>
      rw [hStopped] at hNormal
      cases hNormal
  | shut hWaiting =>
      rw [hStopped] at hWaiting
      cases hWaiting

/-
  A car that rests with a pending call for its last floor has
  been open while the sensor has read the floor, or has
  waited there without seeing it.
-/
theorem rests_cases
    (hf : S.InRange f)
    (hWaits : s.car.Waits)
    (hClear : i.getObstruction = false)
    (hRun : loopBody S.toBasicDriverInfo i s = .ok () s')
    (hCalled : called S.toBasicDriverInfo x f s' = true)
    (hRests : Rests s')
    (hLast : s'.elevState.lastFloor = f) :
    (i.getFloor .loop = f ∧ (s.car.Open ∨ s'.car.Open)) ∨
      (s.state = .waitingForInButton ∧
        i.getFloor .loop = intMin ∧
        s.elevState.lastFloor = f) := by
  cases hApproach : approach S.toBasicDriverInfo i s with
  | error e t =>
      have hCompletes := finished_of_approach_error hApproach
      exact absurd ⟨s', hRun⟩ hCompletes.2
  | ok currentFloor t =>
      rcases approach_ok hApproach with ⟨hCurrent, hCar, _⟩
      rw [loopBody_of_approach hApproach, hCurrent] at hRun
      have hMove : Reacted S.toBasicDriverInfo i t.car
          s'.car := by
        have hReacts := refines_react S.toBasicDriverInfo i
          (i.getFloor .loop) t
        have hOk := wp_ok hReacts hRun
        exact hOk
      have hLast' : s'.car.lastFloor = f := hLast
      cases hState : t.state with
      | normal =>
          have hRest := wp_ok (wp_react_rests t hState) hRun
          rcases hRest hRests with
            ⟨hOpens, hKnown⟩ | hNone
          · left
            rcases opened_of_reacted hMove hState hOpens with
              ⟨hOpen, hSame⟩
            refine ⟨?_, Or.inr hOpen⟩
            rw [← hLast', hSame]
            exact (lastFloor_of_approach hApproach
              hKnown).symm
          · rw [hNone x f hf] at hCalled
            cases hCalled
      | waitingForInButton =>
          have hBefore := (hWaits.approached hClear hCar).2
            hState
          have hFloor :=
            waiting_approached hCar hState
          rw [lastFloor_of_reacted hMove hState, hFloor]
            at hLast'
          by_cases hKnown : i.getFloor .loop ≠ intMin
          · left
            rw [floorAfter, if_pos hKnown] at hLast'
            exact ⟨hLast', Or.inl (hWaits hBefore)⟩
          · right
            rw [floorAfter, if_neg hKnown] at hLast'
            exact ⟨hBefore, not_not.mp hKnown, hLast'⟩
      | stopped =>
          have hState' : s'.state = .stopped := by
            change s'.car.state = .stopped
            rw [eq_of_reacted hMove hState]
            exact hState
          unfold Rests at hRests
          rw [hState'] at hRests
          rcases hRests with hWaiting | ⟨hNormal, _⟩
          · cases hWaiting
          · cases hNormal

------------------------------------------------------------
-- Cars That Leave a Caller
------------------------------------------------------------

/- The button that is cleared belongs to the last floor. -/
theorem lastFloor_of_directionButton
    {d : BasicDriverInfo}
    {e : ElevatorState}
    (hButton : directionButton d e = some (x, f)) :
    e.lastFloor = f := by
  unfold directionButton at hButton
  split at hButton
  · next hMax =>
      cases hButton
      exact hMax
  · split at hButton
    · next hMin =>
        cases hButton
        exact hMin
    · split at hButton
      · cases hButton
      · cases hButton
        rfl
      · cases hButton
        rfl

/- The button a departure clears is the one of its floor and
its direction. -/
theorem directionButton_departed
    {direction : Direction}
    {reading : Int}
    (hButton : directionButton S.toBasicDriverInfo
      (departed S.toBasicDriverInfo direction reading
        s).elevState = some (x, f)) :
    startDirection S.toBasicDriverInfo
      (startState direction reading s) = x.direction := by
  have hDirection :
      (departed S.toBasicDriverInfo direction reading
          s).elevState.direction =
        startDirection S.toBasicDriverInfo
          (startState direction reading s) := rfl
  rw [← hDirection]
  unfold directionButton at hButton
  split at hButton
  · next hMax =>
      cases hButton
      exact direction_departed_max S.ordered hMax
  · split at hButton
    · next hMin =>
        cases hButton
        exact direction_departed_min hMin
    · split at hButton
      · cases hButton
      · next hDown =>
          cases hButton
          exact hDown
      · next hUp =>
          cases hButton
          exact hUp

/- A pending call asks for its floor. -/
theorem asks_of_call
    {d : BasicDriverInfo}
    (hCall : called d x f s = true ∨
      i.accepts x f = true) :
    asks d i s f = true := by
  unfold asks asksHall
  cases x with
  | up =>
      rcases hCall with hCalled | hAccepts
      · simp [hCalled]
      · simp [hAccepts]
  | down =>
      rcases hCall with hCalled | hAccepts
      · simp [hCalled]
      · simp [hAccepts]

/-
  A caller is left by a car whose doors have been open at the
  floor, by one that has waited there without seeing it, by
  an idle one that departs, or by one that overshoots.
-/
theorem leavesCaller_cases
    (hWaits : s.car.Waits)
    (hClear : i.getObstruction = false)
    (hLeaves :
      LeavesCaller S.toBasicDriverInfo i s x f) :
    OpenAt i s f ∨
      (s.state = .waitingForInButton ∧
        i.getFloor .loop = intMin ∧
        s.elevState.lastFloor = f) ∨
      LeavesFrom S.toBasicDriverInfo i s x f ∨
      JumpsFrom S.toBasicDriverInfo i s x f := by
  rcases hLeaves with ⟨currentFloor, t, hApproach, hLeaves⟩
  rcases approach_ok hApproach with ⟨_, hCar, _⟩
  cases hLeaves with
  | shuts hState hPress hTimeout hButton =>
      have hLast := lastFloor_of_directionButton hButton
      have hBefore := (hWaits.approached hClear hCar).2 hState
      have hFloor := waiting_approached hCar hState
      change t.elevState.lastFloor = _ at hFloor
      rw [hLast] at hFloor
      by_cases hKnown : i.getFloor .loop ≠ intMin
      · left
        rw [floorAfter, if_pos hKnown] at hFloor
        exact ⟨hFloor.symm, hWaits hBefore⟩
      · right
        left
        rw [floorAfter, if_neg hKnown] at hFloor
        exact ⟨hBefore, not_not.mp hKnown, hFloor.symm⟩
  | departs priority hState hArrives hDirection hRequests
      hPriority hButton =>
      right
      right
      have hInformed :
          Informed S.toBasicDriverInfo i s t := by
        have hOk := wp_ok (wp_approach_informed s) hApproach
        exact hOk
      have hShut :=
        hInformed.not_stopsHere hDirection hArrives
      have hLast := lastFloor_of_directionButton hButton
      change floorAfter (i.getFloor .depart)
        t.elevState.lastFloor = f at hLast
      rcases standing_cases hApproach hState hDirection with
        ⟨hIdle, hFloor, hPrevious⟩ | ⟨hMoved, hEnd, hFloor⟩
      · left
        rw [hFloor] at hLast
        refine ⟨hIdle, hShut, hLast, ?_⟩
        rw [← (shows_departure hInformed hFloor hPrevious
          hPriority).startDirection]
        exact directionButton_departed hButton
      · right
        have hFloors : i.getFloor .loop = S.minFloor ∨
            i.getFloor .loop = S.maxFloor :=
          hEnd.symm.imp And.left And.left
        have hSeen : t.elevState.lastFloor = seenFloor i s :=
          hFloor.trans (if_pos (known_of_end hFloors)).symm
        rw [hSeen] at hLast
        refine ⟨overshoots_of_end hMoved hFloors hShut, hLast,
          ?_⟩
        rw [← (shows_jump hInformed hEnd hFloor
          hPriority).startDirection]
        exact directionButton_departed hButton

end Iteration

end Loop

------------------------------------------------------------
-- Runs of the Control Loop
------------------------------------------------------------

open Loop

/-
  A run of `_loop` without obstruction, in which commands
  name floors in range. All iterations but the last
  complete; the last one may fail an assertion.
-/
structure LoopRun
    (S : Shaft) where
  state : Nat → Loop
  input : Nat → Inputs
  length : Nat
  entered : ∃ s,
    enter S.toBasicDriverInfo s = .ok () (state 0)
  next : ∀ n, n < length →
    state (n + 1) =
      finished S.toBasicDriverInfo (input n) (state n)
  completes : ∀ n, n + 1 < length →
    Completes S.toBasicDriverInfo (input n) (state n)
  unobstructed : ∀ n, n < length →
    (input n).getObstruction = false
  inRange : ∀ n, n < length → ∀ c,
    (input n).tryDequeue = some c →
      S.InRange c.targetFloor

namespace LoopRun

open Exec

variable {S : Shaft}

/- The command of iteration `n` sets the call. -/
def Accepts
    (run : LoopRun S)
    (n : Nat)
    (x : CallDirection)
    (f : Int) : Prop :=
  Completes S.toBasicDriverInfo (run.input n) (run.state n) ∧
    (run.input n).accepts x f = true

/-
  The sensor reads `f` in iteration `n`, and at its start or
  its end the motor is stopped and the doors are open.
-/
def Stands
    (run : LoopRun S)
    (n : Nat)
    (f : Int) : Prop :=
  (run.input n).getFloor .loop = f ∧
    ((run.state n).car.Open ∨
      (run.state (n + 1)).car.Open)

/- The car stands at `f` in some iteration from `m` to
`n`. -/
def StandsBetween
    (run : LoopRun S)
    (m n : Nat)
    (f : Int) : Prop :=
  ∃ k, m ≤ k ∧ k ≤ n ∧ run.Stands k f

/- Accepted calls are cleared only if the car has stood at
their floor since. -/
def ServesCalls
    (run : LoopRun S) : Prop :=
  ∀ m n x f, m ≤ n → n < run.length → S.InRange f →
    run.Accepts m x f →
    (∀ k, m < k → k ≤ n →
      called S.toBasicDriverInfo x f (run.state k) = true) →
    called S.toBasicDriverInfo x f (run.state (n + 1)) =
      false →
    run.StandsBetween m n f

/- Waiting cars are open in every state of a run. -/
theorem waits
    (run : LoopRun S) :
    ∀ n, n < run.length → (run.state n).car.Waits
  | 0, _ => by
      rcases run.entered with ⟨s, hEnter⟩
      have hState := (car_of_enter hEnter).2
      exact fun hWaiting => absurd hWaiting hState
  | n + 1, hn => by
      have hPrevious : n < run.length := by omega
      rw [run.next n hPrevious]
      exact waits_of_completes (run.waits n hPrevious)
        (run.unobstructed n hPrevious)
        (run.completes n hn)

/-
  A car that rests at the floor of a pending call has stood
  there since the call. The induction is on the iterations:
  a car that waits without seeing the floor has waited there
  before.
-/
theorem met
    (run : LoopRun S)
    (hSpares : ∀ n < run.length,
      SparesCallers S.toBasicDriverInfo (run.input n)
        (run.state n)) :
    ∀ n, n + 1 < run.length →
      ∀ m x f, m ≤ n → S.InRange f → run.Accepts m x f →
      (∀ k, m < k → k ≤ n + 1 →
        called S.toBasicDriverInfo x f (run.state k) =
          true) →
      Rests (run.state (n + 1)) →
      (run.state (n + 1)).elevState.lastFloor = f →
      run.StandsBetween m n f
  | n, hn, m, x, f, hLe, hf, hAccepts, hKept, hRests,
      hLast => by
      have hHere : n < run.length := by omega
      rcases run.completes n hn with ⟨s', hRun⟩
      have hNext : run.state (n + 1) = s' := by
        rw [run.next n hHere, finished_of_ok hRun]
      have hCalled := hKept (n + 1) (by omega) (Nat.le_refl _)
      have hStart := hSpares n hHere
      rw [hNext] at hCalled hRests hLast
      rcases rests_cases hf (run.waits n hHere)
        (run.unobstructed n hHere) hRun hCalled hRests hLast
        with ⟨hReading, hOpen⟩ | ⟨hWaiting, hBlind, hFloor⟩
      · refine ⟨n, hLe, Nat.le_refl n, hReading, ?_⟩
        rw [hNext]
        exact hOpen
      · rcases Nat.lt_or_eq_of_le hLe with hEarlier | rfl
        · cases n with
          | zero => omega
          | succ k =>
              rcases met run hSpares k (by omega) m x f
                (by omega) hf hAccepts
                (fun j hAfter hBefore =>
                  hKept j hAfter (by omega))
                (Or.inl hWaiting) hFloor with
                ⟨j, hMj, hJk, hStands⟩
              exact ⟨j, hMj, by omega, hStands⟩
        · have hNone := hStart.unseen x hWaiting hBlind
          rw [hFloor, hAccepts.2] at hNone
          cases hNone

/- A car that stands at the floor of a call before an
iteration has stood there since the call. -/
theorem standsBetween_of_rests
    (run : LoopRun S)
    {m n : Nat}
    {x : CallDirection}
    {f : Int}
    (hSpares : ∀ n < run.length,
      SparesCallers S.toBasicDriverInfo (run.input n)
        (run.state n))
    (hLess : m < n)
    (hn : n < run.length)
    (hf : S.InRange f)
    (hAccepts : run.Accepts m x f)
    (hKept : ∀ k, m < k → k ≤ n →
      called S.toBasicDriverInfo x f (run.state k) = true)
    (hRests : Rests (run.state n))
    (hLast : (run.state n).elevState.lastFloor = f) :
    run.StandsBetween m n f := by
  cases n with
  | zero => omega
  | succ k =>
      rcases run.met hSpares k hn m x f (by omega) hf
        hAccepts hKept hRests hLast with
        ⟨j, hMj, hJk, hStands⟩
      exact ⟨j, hMj, by omega, hStands⟩

/-
  A run in which no call comes up at the floor of a car that
  leaves it serves its calls.
-/
theorem servesCalls_of_spares
    (run : LoopRun S)
    (hSpares : ∀ n < run.length,
      SparesCallers S.toBasicDriverInfo (run.input n)
        (run.state n)) :
    run.ServesCalls := by
  intro m n x f hLe hn hf hAccepts hKept hCleared
  have hStart := hSpares n hn
  -- the call is pending, or the iteration accepts it
  have hCall :
      (m < n ∧ called S.toBasicDriverInfo x f
          (run.state n) = true) ∨ m = n := by
    rcases Nat.lt_or_eq_of_le hLe with hLess | hSame
    · exact Or.inl ⟨hLess, hKept n hLess (Nat.le_refl n)⟩
    · exact Or.inr hSame
  have hPending :
      called S.toBasicDriverInfo x f (run.state n) = true ∨
        (Completes S.toBasicDriverInfo (run.input n)
            (run.state n) ∧
          (run.input n).accepts x f = true) := by
    rcases hCall with ⟨_, hCalled⟩ | rfl
    · exact Or.inl hCalled
    · exact Or.inr hAccepts
  have hOpenAt : OpenAt (run.input n) (run.state n) f →
      run.StandsBetween m n f :=
    fun hOpen => ⟨n, hLe, Nat.le_refl n, hOpen.1,
      Or.inl hOpen.2⟩
  have hSince : m < n → Rests (run.state n) →
      (run.state n).elevState.lastFloor = f →
      run.StandsBetween m n f :=
    fun hLess hRests hLast =>
      run.standsBetween_of_rests hSpares hLess hn hf hAccepts
        hKept hRests hLast
  rw [run.next n hn] at hCleared
  rcases cleared_cases hf (run.waits n hn)
    (run.unobstructed n hn) hPending hCleared with
    hOpen | hLeaves
  · exact hOpenAt hOpen
  · rcases leavesCaller_cases (run.waits n hn)
      (run.unobstructed n hn) hLeaves with
      hOpen | ⟨hWaiting, hBlind, hFloor⟩ | hFrom | hJumps
    · exact hOpenAt hOpen
    · rcases hCall with ⟨hLess, _⟩ | rfl
      · exact hSince hLess (Or.inl hWaiting) hFloor
      · have hNone := hStart.unseen x hWaiting hBlind
        rw [hFloor, hAccepts.2] at hNone
        cases hNone
    · rcases hCall with ⟨hLess, hCalled⟩ | rfl
      · rcases hStart.moved x f hf hFrom hCalled with
          hLast | hOpen
        · exact hSince hLess
            (Or.inr ⟨hFrom.idle.1, hFrom.idle.2.1⟩)
            hLast.symm
        · exact hOpenAt hOpen
      · exact hOpenAt
          (hStart.accepted x f hf hFrom hAccepts.2)
    · rcases hStart.overshot x f hf hJumps with
        ⟨hNotCalled, hNotAccepted⟩
      rcases hPending with hCalled | ⟨_, hAccepted⟩
      · rw [hNotCalled] at hCalled
        cases hCalled
      · rw [hNotAccepted] at hAccepted
        cases hAccepted

/- A call comes from the lower floor while the car stands
there. -/
def callBelow : Inputs :=
  { firstCall with getFloor := fun _ => 0 }

/- The doors have been open for long enough. -/
def timeUp : Inputs :=
  { callBelow with
    tryDequeue := none
    now := fun _ => 6000 }

/- The car opens its doors for the call, and closes them. -/
theorem callBelow_iterations :
    ∃ s s₁ s₂ : Loop,
      enter twoFloors.toBasicDriverInfo
        (create twoFloors.toBasicDriverInfo 0 darkDriver) =
          .ok () s ∧
      loopBody twoFloors.toBasicDriverInfo callBelow s =
        .ok () s₁ ∧
      loopBody twoFloors.toBasicDriverInfo timeUp s₁ =
        .ok () s₂ ∧
      s.car.state = .normal ∧
      s.car.direction = .none ∧
      s₁.car.state = .waitingForInButton ∧
      s₁.car.direction = .none ∧
      called twoFloors.toBasicDriverInfo .up 0 s₁ = true ∧
      called twoFloors.toBasicDriverInfo .up 0 s₂ =
        false := by
  have hWp :
      wp (enter twoFloors.toBasicDriverInfo)
        (fun _ s =>
          (s.car.state = .normal ∧
            s.car.direction = .none) ∧
          wp (loopBody twoFloors.toBasicDriverInfo callBelow)
            (fun _ s₁ =>
              (s₁.car.state = .waitingForInButton ∧
                s₁.car.direction = .none ∧
                called twoFloors.toBasicDriverInfo .up 0
                  s₁ = true) ∧
              wp (loopBody twoFloors.toBasicDriverInfo timeUp)
                (fun _ s₂ =>
                  called twoFloors.toBasicDriverInfo .up 0
                    s₂ = false)
                (fun _ _ => False) s₁)
            (fun _ _ => False) s)
        (fun _ _ => False)
        (create twoFloors.toBasicDriverInfo 0 darkDriver) := by
    decide +kernel
  rcases exists_of_wp hWp with
    ⟨_, s, hEnter, ⟨hState, hStands⟩, hWp₀⟩
  rcases exists_of_wp hWp₀ with
    ⟨_, s₁, hRun₀, ⟨hState₁, hStands₁, hCalled⟩, hWp₁⟩
  rcases exists_of_wp hWp₁ with ⟨_, s₂, hRun₁, hCleared⟩
  exact ⟨s, s₁, s₂, hEnter, hRun₀, hRun₁, hState, hStands,
    hState₁, hStands₁, hCalled, hCleared⟩

/- A run that serves the call from the floor of the car. -/
theorem servesCalls_callBelow :
    ∃ run : LoopRun twoFloors,
      run.length = 2 ∧
      called twoFloors.toBasicDriverInfo .up 0
        (run.state 1) = true ∧
      called twoFloors.toBasicDriverInfo .up 0
        (run.state 2) = false ∧
      run.ServesCalls := by
  rcases callBelow_iterations with
    ⟨s, s₁, s₂, hEnter, hRun₀, hRun₁, hState, hStands,
      hState₁, hStands₁, hCalled, hCleared⟩
  have hTwo : ∀ {n : Nat}, n < 2 → n = 0 ∨ n = 1 := by
    intro n hn
    omega
  let run : LoopRun twoFloors :=
    { state := fun n =>
        if n = 0 then s else if n = 1 then s₁ else s₂
      input := fun n => if n = 0 then callBelow else timeUp
      length := 2
      entered := ⟨_, hEnter⟩
      next := by
        intro n hn
        rcases hTwo hn with rfl | rfl
        · exact (finished_of_ok hRun₀).symm
        · exact (finished_of_ok hRun₁).symm
      completes := by
        intro n hn
        have hZero : n = 0 := by omega
        subst hZero
        exact ⟨s₁, hRun₀⟩
      unobstructed := by
        intro n hn
        rcases hTwo hn with rfl | rfl
        · rfl
        · rfl
      inRange := by
        intro n hn c hc
        rcases hTwo hn with rfl | rfl
        · cases hc
          decide
        · cases hc }
  refine ⟨run, rfl, hCalled, hCleared, ?_⟩
  apply servesCalls_of_spares run
  intro n hn
  rcases hTwo hn with rfl | rfl
  · -- the car opens its doors at once
    have hOpens : StopsHere twoFloors.toBasicDriverInfo
        callBelow s := by
      refine ⟨by decide, Or.inr ⟨Or.inl rfl, ?_⟩⟩
      exact asks_of_call (x := .up) (Or.inr rfl)
    exact
      { accepted := fun _ _ _ hFrom =>
          absurd hOpens hFrom.shut
        moved := fun _ _ _ hFrom => absurd hOpens hFrom.shut
        unseen := fun _ hWaiting => by
          have hNormal := hState.symm.trans hWaiting
          cases hNormal
        overshot := fun _ _ _ hJumps => by
          rcases hJumps.overshoots.1 with hMoves | hPressed
          · exact absurd hStands hMoves
          · cases hPressed.1 }
  · exact
      { accepted := fun _ _ _ hFrom => by
          have hNormal := hState₁.symm.trans hFrom.idle.1
          cases hNormal
        moved := fun _ _ _ hFrom => by
          have hNormal := hState₁.symm.trans hFrom.idle.1
          cases hNormal
        unseen := fun _ _ hBlind => by
          have hRead : (0 : Int) = intMin := hBlind
          exact absurd hRead (by decide)
        overshot := fun _ _ _ hJumps => by
          rcases hJumps.overshoots.1 with hMoves | hPressed
          · exact absurd hStands₁ hMoves
          · cases hPressed.1 }

/-
  An elevator that has been started between the two floors
  leaves upwards for a call from the lower floor and drops
  the call, with its doors closed all the time.
-/
theorem firstCall_dropped :
    ∃ run : LoopRun twoFloors,
      run.length = 1 ∧ run.input 0 = firstCall ∧
      ¬ run.ServesCalls := by
  rcases firstCall_phases with
    ⟨s, s₁, s₂, s₃, s', hEnter, hPoll, hCommand, hSense,
      hReact, hStart, hEnd, hCleared⟩
  have hRun := loopBody_of_phases hPoll hCommand hSense hReact
  have hFinished :
      finished twoFloors.toBasicDriverInfo firstCall s =
        s' :=
    finished_of_ok hRun
  let run : LoopRun twoFloors :=
    { state := fun n => if n = 0 then s else s'
      input := fun _ => firstCall
      length := 1
      entered := ⟨_, hEnter⟩
      next := by
        intro n hn
        have hZero : n = 0 := by omega
        subst hZero
        exact hFinished.symm
      completes := by
        intro n hn
        omega
      unobstructed := fun _ _ => rfl
      inRange := by
        intro n _ c hc
        rw [← Option.some.inj hc]
        decide }
  refine ⟨run, rfl, rfl, ?_⟩
  intro hServes
  have hKept :
      ∀ k, 0 < k → k ≤ 0 →
        called twoFloors.toBasicDriverInfo .up 0
          (run.state k) = true := by
    intro k hPos hZero
    omega
  rcases hServes 0 0 .up 0 (Nat.le_refl 0) Nat.one_pos
    (by decide) ⟨⟨s', hRun⟩, rfl⟩ hKept hCleared with
    ⟨k, _, hk, _, hOpen⟩
  have hZero : k = 0 := by omega
  subst hZero
  rcases hOpen with ⟨_, hDoor⟩ | ⟨_, hDoor⟩
  · have hShut : s.car.doorOpenLamp = false := by
      rw [hStart]
    exact Bool.noConfusion (hShut.symm.trans hDoor)
  · have hShut : s'.car.doorOpenLamp = false := by
      rw [hEnd]
    exact Bool.noConfusion (hShut.symm.trans hDoor)

end LoopRun

end ElevatorControl
