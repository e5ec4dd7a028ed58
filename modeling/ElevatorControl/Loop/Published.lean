import ElevatorControl.Loop.Frames
import ElevatorControl.Loop.Motion

/-
  What the elevator publishes about its motor and about the
  stop button.

  The published direction ought to be the one in which the
  motor runs, and the published stop flag, the stop lamp and
  the local state `Stopped` ought to be one fact. The phases
  of an iteration keep both, but for the obstruction: its
  shutdown cuts the motor and switches off the stop lamp, and
  leaves the published state as it was. A recovered stop flag
  is not shown on the stop lamp either.

  Key definitions include:
    * `Loop.Toggled`
    * `Loop.MovesOn`
    * `Loop.StaysStopped`
    * `Loop.StopAgrees`

  Key theorems include:
    * `Loop.wp_pollButtons_toggled`
    * `Loop.motor_eq_direction`
    * `Loop.stopAgrees`
-/

------------------------------------------------------------
-- Stop Button
------------------------------------------------------------

namespace ElevatorControl

namespace Loop

open Exec Car

/- The stop button is pressed, and has not been in the last
iteration. -/
def StopPressed
    (i : Inputs)
    (s : Loop) : Prop :=
  i.getStop = true ∧ s.stopNow = false

instance
    (i : Inputs)
    (s : Loop) :
    Decidable (StopPressed i s) := by
  unfold StopPressed
  infer_instance

/- The car moves after the stop button has been handled. -/
def MovesOn
    (i : Inputs)
    (s : Loop) : Prop :=
  if StopPressed i s then s.driver.stopLamp = true
  else s.elevState.direction ≠ .none

/- The stop lamp is lit after the stop button has been
handled. -/
def StaysStopped
    (i : Inputs)
    (s : Loop) : Prop :=
  if StopPressed i s then s.driver.stopLamp = false
  else s.driver.stopLamp = true

/- The published stop flag and the stop lamp. -/
def stopSigns
    (s : Loop) : Bool × Bool :=
  (s.elevState.stopped, s.driver.stopLamp)

/- What the buttons do to the car, the flag and the lamp. -/
inductive Toggled
    (d : BasicDriverInfo)
    (i : Inputs)
    (s t : Loop) : Prop where
  | ignored
      (hPressed : ¬ StopPressed i s)
      (hCar : t.car = s.car)
      (hSigns : t.stopSigns = s.stopSigns)
  | stopped
      (hPressed : StopPressed i s)
      (hDark : s.driver.stopLamp = false)
      (hCar : t.car =
        { s.car.halt with state := .stopped }.read
          (i.getFloor .stopButton))
      (hSigns : t.stopSigns = (true, true))
  | resumed
      (c : Car)
      (hPressed : StopPressed i s)
      (hLit : s.driver.stopLamp = true)
      (hStarts : Starts d (i.getFloor .resume) s.car c)
      (hCar : t.car =
        { c with state := .normal }.read
          (i.getFloor .stopButton))
      (hSigns : t.stopSigns = (false, false))

/- What handling the stop button depends on. -/
structure StopPanel where
  car : Car
  stopSigns : Bool × Bool
  stopLast : Bool
  stopNow : Bool

/- The part of the state the stop button depends on. -/
def stopPanel
    (s : Loop) : StopPanel where
  car := s.car
  stopSigns := s.stopSigns
  stopLast := s.stopLast
  stopNow := s.stopNow

theorem ignoresPanel_stopPanel :
    IgnoresPanel stopPanel where
  lamp _ _ := rfl
  inside _ _ := rfl
  held _ _ := rfl
  report _ _ _ _ := rfl

theorem callStable_stopSigns
    (v : Bool × Bool) :
    CallStable (fun s => s.stopSigns = v) where
  report _ _ _ _ hSigns := hSigns
  floor _ _ hSigns := hSigns
  halt _ hSigns := hSigns
  depart _ _ _ _ hSigns := hSigns
  indicator _ _ _ hSigns := hSigns
  hallLamp _ _ _ _ hSigns := hSigns
  calls x _ _ hSigns := by
    cases x with
    | up => exact hSigns
    | down => exact hSigns

theorem panelStable_stopSigns
    (v : Bool × Bool) :
    PanelStable (fun s => s.stopSigns = v) where
  lamp _ _ _ hSigns := hSigns
  inside _ _ hSigns := hSigns
  held _ _ hSigns := hSigns

theorem doorStable_stopSigns
    (v : Bool × Bool) :
    DoorStable (fun s => s.stopSigns = v) where
  opened _ _ hSigns := hSigns
  shut _ hSigns := hSigns
  finish _ _ hSigns := hSigns

theorem keeps_stopSigns_stopPressed
    {i : Inputs} :
    Keeps stopSigns (stopPressed i) :=
  Keeps.of_preserves fun v => stable_stopPressed
    (callStable_stopSigns v).toMotionStable i
      fun _ _ hSigns => hSigns

theorem keeps_stopSigns_resumePressed
    {d : BasicDriverInfo}
    {i : Inputs} :
    Keeps stopSigns (resumePressed d i) :=
  Keeps.of_preserves fun v => stable_resumePressed
    (callStable_stopSigns v).toMotionStable d i
      fun _ _ hSigns => hSigns

section Toggle

variable {d : BasicDriverInfo}
variable {i : Inputs}
variable {s t : Loop}

/- A button that is held is not pressed again. -/
theorem wp_handleStop
    (hPanel : t.stopPanel =
      { s.stopPanel with stopLast := s.stopNow }) :
    wp (handleStop d i) (fun _ t' => Toggled d i s t')
      (fun _ t' => t'.elevState.stopped = t'.driver.stopLamp)
      t := by
  have hCar : t.car = s.car :=
    congrArg StopPanel.car hPanel
  have hSigns : t.stopSigns = s.stopSigns :=
    congrArg StopPanel.stopSigns hPanel
  have hLamp : t.driver.stopLamp = s.driver.stopLamp :=
    congrArg Prod.snd hSigns
  have hLast : t.stopLast = s.stopNow :=
    congrArg StopPanel.stopLast hPanel
  have hIff : (i.getStop = true ∧ i.getStop ≠ t.stopLast) ↔
      StopPressed i s := by
    rw [hLast]
    unfold StopPressed
    cases i.getStop <;> simp
  unfold handleStop toggleStop
  simp only [wp_bind, wp_modify, wp_get, wp_when, wp_ite]
  split
  · next hNew =>
      have hPressed := hIff.mp hNew
      split
      · next hDark =>
          have hDark' : t.driver.stopLamp = false := by
            simpa using hDark
          apply wp_mono _ _ (wp_and (moves_stopPressed i _)
            (keeps_stopSigns_stopPressed _))
          · rintro _ t' ⟨hMove, hKept⟩
            refine Toggled.stopped hPressed
              (hLamp.symm.trans hDark') ?_ ?_
            · rw [hMove, ← hCar]
              rfl
            · rw [hKept]
              change (!t.driver.stopLamp, !t.driver.stopLamp) =
                (true, true)
              rw [hDark']
              rfl
          · rintro _ t' ⟨_, hKept⟩
            have hSame : t'.stopSigns =
                (!t.driver.stopLamp, !t.driver.stopLamp) :=
              hKept
            exact (congrArg Prod.fst hSame).trans
              (congrArg Prod.snd hSame).symm
      · next hLit =>
          have hLit' : t.driver.stopLamp = true := by
            simpa using hLit
          apply wp_mono _ _ (wp_and (moves_resumePressed d i _)
            (keeps_stopSigns_resumePressed _))
          · rintro _ t' ⟨⟨c, hStarts, hMove⟩, hKept⟩
            refine Toggled.resumed c hPressed
              (hLamp.symm.trans hLit') ?_ hMove ?_
            · rw [← hCar]
              exact hStarts
            · rw [hKept]
              change (!t.driver.stopLamp, !t.driver.stopLamp) =
                (false, false)
              rw [hLit']
              rfl
          · rintro _ t' ⟨_, hKept⟩
            have hSame : t'.stopSigns =
                (!t.driver.stopLamp, !t.driver.stopLamp) :=
              hKept
            exact (congrArg Prod.fst hSame).trans
              (congrArg Prod.snd hSame).symm
  · next hOld =>
      exact Toggled.ignored (mt hIff.mpr hOld) hCar hSigns

/- If the flag and the lamp agree, they still do when the
buttons fail an assertion. -/
theorem wp_pollButtons_toggled
    (s : Loop) :
    wp (pollButtons d i) (fun _ t => Toggled d i s t)
      (fun _ t => t.stopSigns = s.stopSigns ∨
        t.elevState.stopped = t.driver.stopLamp) s := by
  unfold pollButtons beginCycle
  simp only [wp_bind, wp_modify]
  apply (keeps_assertConsistency (π := stopPanel) d).wp
  · intro _ s₁ hFirst
    apply (keeps_handleButtons ignoresPanel_stopPanel d i).wp
    · intro _ s₂ hSecond
      apply wp_mono (fun _ _ hToggled => hToggled)
        (fun _ _ hAgrees => Or.inr hAgrees)
      apply wp_handleStop
      rw [hSecond, hFirst]
      rfl
    · intro _ s₂ hSecond
      exact Or.inl (congrArg StopPanel.stopSigns
        (hSecond.trans hFirst))
  · intro _ s₁ hFirst
    exact Or.inl (congrArg StopPanel.stopSigns hFirst)

end Toggle

------------------------------------------------------------
-- Published Direction
------------------------------------------------------------

end Loop

namespace Car

variable {d : BasicDriverInfo}
variable {i : Inputs}
variable {c c' : Car}

/- The motor runs in the published direction. -/
def Matches
    (c : Car) : Prop :=
  c.motor = c.direction

/- An obstruction cuts the motor behind the direction. -/
theorem Matches.commanded
    (hMatches : c.Matches)
    (hStands : i.getObstruction = true →
      c.direction = .none)
    (hMove : Commanded i c c') :
    c'.Matches := by
  cases hMove with
  | ignored => exact hMatches
  | obstructed hObstruction =>
      exact (hStands hObstruction).symm

theorem Matches.sensed
    {reading : Int}
    (hMatches : c.Matches) :
    (c.sensed d reading).Matches := by
  unfold Car.sensed safetyStop
  split
  · exact rfl
  · exact hMatches

theorem Matches.reacted
    (hMatches : c.Matches)
    (hMove : Reacted d i c c') :
    c'.Matches := by
  cases hMove with
  | rested => exact hMatches
  | served hState => exact rfl
  | left _ hState hDirection hStarts =>
      cases hStarts
      exact rfl
  | shut hState => exact hMatches

end Car

namespace Loop

open Exec Car

section Direction

variable {d : BasicDriverInfo}
variable {i : Inputs}
variable {s s' t : Loop}

/- A car that matches its direction still does after the
buttons, and moves on only where it says so. -/
theorem Toggled.matches
    (hToggled : Toggled d i s t)
    (hMatches : s.car.Matches) :
    t.car.Matches ∧
      (¬ MovesOn i s → t.car.direction = .none) := by
  unfold MovesOn
  cases hToggled with
  | ignored hPressed hCar hSigns =>
      rw [hCar, if_neg hPressed]
      exact ⟨hMatches, fun hStands => not_not.mp hStands⟩
  | stopped hPressed hDark hCar hSigns =>
      rw [hCar]
      exact ⟨rfl, fun _ => rfl⟩
  | resumed c hPressed hLit hStarts hCar hSigns =>
      rw [hCar, if_pos hPressed]
      cases hStarts
      exact ⟨rfl, fun hDark => absurd hLit hDark⟩

/- An iteration in which no moving car is obstructed keeps
the published direction. -/
theorem matches_loopBody
    (hMatches : s.car.Matches)
    (hClear : i.getObstruction = true → ¬ MovesOn i s) :
    wp (loopBody d i)
      (fun _ s' => s'.car.motor = s'.car.direction)
      (fun _ _ => True) s := by
  unfold loopBody approach
  simp only [wp_bind]
  apply wp_mono _ (fun _ _ _ => trivial)
    (wp_pollButtons_toggled s)
  intro _ s₁ hToggled
  rcases hToggled.matches hMatches with ⟨hMatches₁, hStands⟩
  apply wp_mono _ (fun _ _ _ => trivial)
    (refines_pollCommands d i s₁)
  intro _ s₂ hCommanded
  have hMatches₂ : s₂.car.Matches :=
    hMatches₁.commanded (fun hObstruction =>
      hStands (hClear hObstruction)) hCommanded
  apply wp_mono _ (fun _ _ _ => trivial)
    (refines_senseFloor d i s₂)
  intro currentFloor s₃ hCar₃
  have hMatches₃ : s₃.car.Matches := by
    rw [hCar₃]
    exact hMatches₂.sensed
  apply wp_mono _ (fun _ _ _ => trivial)
    (refines_react d i currentFloor s₃)
  exact fun _ _ hMove => hMatches₃.reacted hMove

/- Entering the loop keeps the motor and the direction. -/
theorem matches_of_enter
    (hMatches : s.car.Matches)
    (hEnter : enter d s = .ok () s') :
    s'.car.Matches := by
  rw [(car_of_enter hEnter).1]
  exact hMatches

theorem matches_of_started
    (hStarted : Started d s) :
    s.car.Matches := by
  cases hStarted with
  | fresh id driver hEnter =>
      apply matches_of_enter _ hEnter
      exact Driver.motor_stopElevator (v := driver)
  | recovered id driver state hEnter =>
      apply matches_of_enter _ hEnter
      exact Driver.motor_stopElevator (v := driver)

theorem matches_of_step
    (hMatches : s.car.Matches)
    (hClear : i.getObstruction = true → ¬ MovesOn i s)
    (hStep : Step d i s s') :
    s'.car.Matches := by
  cases hStep with
  | iterate hRun =>
      have hOk := wp_ok (matches_loopBody hMatches hClear) hRun
      exact hOk
  | restart e t hRun hTag hEnter =>
      -- the deferred stop clears the direction, too
      apply matches_of_enter _ hEnter
      rw [car_halted]
      rfl

/- The runs in which no car is obstructed while it moves. -/
def clearSystem
    (d : BasicDriverInfo) : TransitionSystem Loop where
  Init := Started d
  Step s s' := ∃ i, Step d i s s' ∧
    (i.getObstruction = true → ¬ MovesOn i s)

/-
  In every run in which no car is obstructed while it moves,
  the motor runs in the published direction.
-/
theorem motor_eq_direction
    (hReach : (clearSystem d).Reachable s) :
    s.driver.motor = s.elevState.direction := by
  have hMatches : s.car.Matches := by
    apply hReach.invariant
    · exact fun _ hStarted => matches_of_started hStarted
    · rintro t t' hMatches ⟨i, hStep, hClear⟩
      exact matches_of_step hMatches hClear hStep
  exact hMatches

end Direction

/- An iteration in which nothing happens. -/
def idle : Inputs where
  getButtonSignal _ := false
  getStop := false
  getObstruction := false
  tryDequeue := none
  getFloor _ := intMin
  now _ := 0

/- A driver whose stop lamp is lit. -/
def litDriver : Driver :=
  { darkDriver with stopLamp := true }

/- The stop button is pressed, and the car is obstructed. -/
def obstructedResume : Inputs :=
  { idle with
    getStop := true
    getObstruction := true }

/- The phases of an iteration in which a stopped car leaves
upwards, and is obstructed at once. -/
theorem obstructedResume_phases :
    ∃ s s₁ s₂ s₃ s₄ : Loop,
      enter twoFloors.toBasicDriverInfo
        (create twoFloors.toBasicDriverInfo 0 litDriver) =
          .ok () s ∧
      pollButtons twoFloors.toBasicDriverInfo
        obstructedResume s = .ok () s₁ ∧
      pollCommands twoFloors.toBasicDriverInfo
        obstructedResume s₁ = .ok () s₂ ∧
      senseFloor twoFloors.toBasicDriverInfo
        obstructedResume s₂ = .ok intMin s₃ ∧
      react twoFloors.toBasicDriverInfo obstructedResume
        intMin s₃ = .ok () s₄ ∧
      s₄.driver.motor = .none ∧
      s₄.elevState.direction = .up :=
  ⟨_, _, _, _, _, rfl, rfl, rfl, rfl, rfl, rfl, rfl⟩

/- The obstruction stops the motor of a car that goes on
publishing that it moves up. -/
theorem obstructed_publishes_up :
    ∃ s, (system twoFloors.toBasicDriverInfo).Reachable s ∧
      s.driver.motor = .none ∧
      s.elevState.direction = .up := by
  rcases obstructedResume_phases with
    ⟨s, s₁, s₂, s₃, s₄, hEnter, hPoll, hCommand, hSense,
      hReact, hMotor, hDirection⟩
  have hRun :
      loopBody twoFloors.toBasicDriverInfo obstructedResume
        s = .ok () s₄ := by
    simp only [loopBody, approach, bind, EStateM.bind,
      hPoll, hCommand, hSense, hReact]
  have hReach :
      (system twoFloors.toBasicDriverInfo).Reachable s :=
    TransitionSystem.Reachable.init
      (Started.fresh 0 litDriver hEnter)
  exact ⟨s₄, hReach.step ⟨_, Step.iterate hRun⟩, hMotor,
    hDirection⟩

/- The motor of a car that leaves for its first call. -/
theorem motor_eq_direction_firstCall :
    ∃ s, (clearSystem
        twoFloors.toBasicDriverInfo).Reachable s ∧
      s.driver.motor = .up ∧
      s.driver.motor = s.elevState.direction := by
  rcases firstCall_phases with
    ⟨s, s₁, s₂, s₃, s₄, hEnter, hPoll, hCommand, hSense,
      hReact, _, hCar, _⟩
  have hRun :=
    loopBody_of_phases hPoll hCommand hSense hReact
  have hInit :
      (clearSystem twoFloors.toBasicDriverInfo).Reachable
        s :=
    TransitionSystem.Reachable.init
      (Started.fresh 0 darkDriver hEnter)
  have hReach := hInit.step ⟨firstCall, Step.iterate hRun,
    fun hObstruction => Bool.noConfusion hObstruction⟩
  exact ⟨s₄, hReach, congrArg Car.motor hCar,
    motor_eq_direction hReach⟩

------------------------------------------------------------
-- Stop Flag, Stop Lamp and Local State
------------------------------------------------------------

/- The local state `Stopped`, the published stop flag and
the stop lamp are one fact. -/
structure StopAgrees
    (s : Loop) : Prop where
  state : s.state = .stopped ↔ s.elevState.stopped = true
  lamp : s.elevState.stopped = s.driver.stopLamp

section Signs

variable {d : BasicDriverInfo}
variable {i : Inputs}
variable {s s' t : Loop}

theorem StopAgrees.congr
    (hState : t.state = .stopped ↔ s.state = .stopped)
    (hSigns : t.stopSigns = s.stopSigns)
    (hAgrees : StopAgrees s) :
    StopAgrees t := by
  have hFlag : t.elevState.stopped = s.elevState.stopped :=
    congrArg Prod.fst hSigns
  have hLamp : t.driver.stopLamp = s.driver.stopLamp :=
    congrArg Prod.snd hSigns
  constructor
  · rw [hState, hFlag]
    exact hAgrees.state
  · rw [hFlag, hLamp]
    exact hAgrees.lamp

/- What keeps the signs, and neither enters nor leaves the
local state `Stopped`, keeps the agreement. -/
theorem preserves_stopAgrees
    {α : Type}
    {x : LoopM α}
    {R : Car → Car → Prop}
    (hSigns : ∀ v, Stable (fun s => s.stopSigns = v) x)
    (hMoves : Moves R x)
    (hState : ∀ c c', R c c' →
      (c'.state = .stopped ↔ c.state = .stopped)) :
    Preserves StopAgrees StopAgrees x := by
  intro s hAgrees
  apply wp_mono _ _ (wp_and
    (Keeps.of_preserves hSigns s) (hMoves s))
  · rintro _ t ⟨hKept, hMove⟩
    exact hAgrees.congr (hState _ _ hMove) hKept
  · rintro _ t ⟨hKept, hMove⟩
    exact hAgrees.congr (hState _ _ hMove) hKept

/- After the buttons the signs agree, and the stop lamp is
lit where the car stays stopped. -/
theorem Toggled.agrees
    (hToggled : Toggled d i s t)
    (hAgrees : StopAgrees s) :
    StopAgrees t ∧
      (¬ StaysStopped i s → t.driver.stopLamp = false) := by
  unfold StaysStopped
  cases hToggled with
  | ignored hPressed hCar hSigns =>
      have hState : t.state = s.state :=
        congrArg Car.state hCar
      have hLamp : t.driver.stopLamp = s.driver.stopLamp :=
        congrArg Prod.snd hSigns
      rw [if_neg hPressed]
      refine ⟨hAgrees.congr (by rw [hState]) hSigns, ?_⟩
      intro hDark
      rw [hLamp]
      exact Bool.eq_false_iff.mpr hDark
  | stopped hPressed hDark hCar hSigns =>
      have hState : t.state = .stopped :=
        congrArg Car.state hCar
      have hFlag : t.elevState.stopped = true :=
        congrArg Prod.fst hSigns
      have hLamp : t.driver.stopLamp = true :=
        congrArg Prod.snd hSigns
      rw [if_pos hPressed]
      refine ⟨⟨?_, hFlag.trans hLamp.symm⟩, ?_⟩
      · exact iff_of_true hState hFlag
      · exact fun hLit => absurd hDark hLit
  | resumed c hPressed hLit hStarts hCar hSigns =>
      have hState : t.state = .normal :=
        congrArg Car.state hCar
      have hFlag : t.elevState.stopped = false :=
        congrArg Prod.fst hSigns
      have hLamp : t.driver.stopLamp = false :=
        congrArg Prod.snd hSigns
      refine ⟨⟨?_, hFlag.trans hLamp.symm⟩, fun _ => hLamp⟩
      rw [hState, hFlag]
      exact iff_of_false LocalState.noConfusion
        Bool.noConfusion

/- An obstruction switches the stop lamp off. -/
theorem wp_handleObstruction_signs
    (hDark : i.getObstruction = true →
      s.driver.stopLamp = false) :
    wp (handleObstruction d i)
      (fun _ t => t.stopSigns = s.stopSigns)
      (fun _ t => t.stopSigns = s.stopSigns) s := by
  unfold handleObstruction
  rw [wp_when]
  split
  · next hObstruction =>
      rcases Driver.shutdown_ok (d := d) (v := s.driver)
        with ⟨v, hShutdown, _, _, hStop⟩
      rw [wp_callDriver_ok hShutdown]
      change (s.elevState.stopped, v.stopLamp) =
        (s.elevState.stopped, s.driver.stopLamp)
      rw [hStop, hDark hObstruction]
  · rfl

theorem stopAgrees_pollCommands
    (hAgrees : StopAgrees s)
    (hDark : i.getObstruction = true →
      s.driver.stopLamp = false) :
    wp (pollCommands d i) (fun _ t => StopAgrees t)
      (fun _ t => StopAgrees t) s := by
  unfold pollCommands
  rw [wp_bind]
  have hObstructed :
      ∀ t : Loop, t.stopSigns = s.stopSigns →
        Commanded i s.car t.car → StopAgrees t := by
    intro t hSigns hMove
    apply hAgrees.congr _ hSigns
    have hState : t.car.state = s.car.state := by
      generalize t.car = c at hMove
      cases hMove with
      | ignored => rfl
      | obstructed hObstruction => rfl
    have hState' : t.state = s.state := hState
    rw [hState']
  have hCommand : Preserves StopAgrees StopAgrees
      (handleCommand d i) :=
    preserves_stopAgrees
      (fun v =>
        stable_handleCommand (callStable_stopSigns v) d i)
      (Moves.of_keeps (keeps_car_handleCommand d i)
        (R := fun c c' => c' = c) fun _ => rfl)
      (by
        rintro c _ rfl
        exact Iff.rfl)
  apply wp_mono _ _ (wp_and (wp_handleObstruction_signs hDark)
    (moves_handleObstruction d i s))
  · rintro _ t ⟨hSigns, hMove⟩
    exact hCommand t (hObstructed t hSigns hMove)
  · rintro _ t ⟨hSigns, hMove⟩
    exact hObstructed t hSigns hMove

theorem stopAgrees_senseFloor :
    Preserves StopAgrees StopAgrees (senseFloor d i) := by
  apply preserves_stopAgrees
    (fun v => stable_senseFloor
      (callStable_stopSigns v).toMotionStable d i)
    (refines_senseFloor d i)
  rintro c _ rfl
  unfold sensed safetyStop
  split
  · exact Iff.rfl
  · exact Iff.rfl

/- Only the stop button leads into the local state
`Stopped`, and out of it. -/
theorem stopAgrees_react
    (currentFloor : Int) :
    Preserves StopAgrees StopAgrees
      (react d i currentFloor) := by
  apply preserves_stopAgrees
    (fun v => stable_react (callStable_stopSigns v) d i
      (panelStable_stopSigns v) (doorStable_stopSigns v)
      currentFloor)
    (refines_react d i currentFloor)
  intro c c' hMove
  cases hMove with
  | rested => exact Iff.rfl
  | served hState => simp [hState]
  | left _ hState hDirection hStarts =>
      cases hStarts
      exact Iff.rfl
  | shut hState => simp [hState]

/- An iteration that completes keeps the agreement, and one
that fails keeps the flag with the lamp. -/
theorem stopAgrees_loopBody
    (hAgrees : StopAgrees s)
    (hClear : i.getObstruction = true →
      ¬ StaysStopped i s) :
    wp (loopBody d i) (fun _ s' => StopAgrees s')
      (fun _ s' => s'.elevState.stopped =
        s'.driver.stopLamp) s := by
  have hLamp :
      ∀ (_ : AssertionFailed) (t : Loop), StopAgrees t →
        t.elevState.stopped = t.driver.stopLamp :=
    fun _ _ hAgrees' => hAgrees'.lamp
  unfold loopBody approach
  simp only [wp_bind]
  apply wp_mono _ _ (wp_pollButtons_toggled s)
  · intro _ s₁ hToggled
    rcases hToggled.agrees hAgrees with ⟨hAgrees₁, hDark⟩
    apply wp_mono _ hLamp (stopAgrees_pollCommands hAgrees₁
      fun hObstruction => hDark (hClear hObstruction))
    intro _ s₂ hAgrees₂
    apply wp_mono _ hLamp (stopAgrees_senseFloor s₂ hAgrees₂)
    intro currentFloor s₃ hAgrees₃
    exact wp_mono (fun _ _ hAgrees₄ => hAgrees₄) hLamp
      (stopAgrees_react currentFloor s₃ hAgrees₃)
  · rintro _ s₁ (hSigns₁ | hLamp₁)
    · exact ((congrArg Prod.fst hSigns₁).trans
        hAgrees.lamp).trans (congrArg Prod.snd hSigns₁).symm
    · exact hLamp₁

------------------------------------------------------------
-- Stop Signs Over Runs
------------------------------------------------------------

/- A lit stop lamp stops the loop that is entered. -/
theorem stopAgrees_of_enter
    (hLamp : s.elevState.stopped = true →
      s.driver.stopLamp = true)
    (hEnter : enter d s = .ok () s') :
    StopAgrees s' := by
  have hKeeps : Keeps (fun s : Loop =>
      (s.stopSigns, s.state))
      (d.floors.forM (initializeFloor d)) := by
    apply keeps_forM
    intro floor _
    exact keeps_initializeFloor (fun _ _ _ => rfl)
      (fun _ _ => rfl) d
  have hWp :
      wp (enter d) (fun _ s' => StopAgrees s')
        (fun _ _ => True) s := by
    unfold enter initializeElevator
    simp only [wp_bind, wp_modify]
    apply hKeeps.wp _ (fun _ _ _ => trivial)
    intro _ t hKept
    have hFlag : t.elevState.stopped =
        s.elevState.stopped :=
      congrArg (fun p => p.1.1) hKept
    have hStop : t.driver.stopLamp = s.driver.stopLamp :=
      congrArg (fun p => p.1.2) hKept
    have hState : t.state = .normal :=
      congrArg (fun p => p.2) hKept
    simp only [wp_get, wp_when, wp_modify]
    cases hLit : t.driver.stopLamp with
    | true =>
        simp only [if_true]
        split
        · exact ⟨iff_of_true rfl rfl, hLit.symm⟩
        · exact ⟨iff_of_true rfl rfl, hLit.symm⟩
    | false =>
        have hDark : t.elevState.stopped = false := by
          rw [hFlag]
          apply Bool.eq_false_iff.mpr
          intro hStopped
          rw [← hStop, hLit] at hLamp
          exact Bool.noConfusion (hLamp hStopped)
        have hAgrees : StopAgrees t := by
          constructor
          · rw [hState, hDark]
            exact iff_of_false LocalState.noConfusion
              Bool.noConfusion
          · rw [hDark, hLit]
        simp only [Bool.false_eq_true, if_false]
        split
        · exact ⟨hAgrees.state, hAgrees.lamp⟩
        · exact hAgrees
  have hOk := wp_ok hWp hEnter
  exact hOk

/-
  The loop has just been entered by a fresh elevator, or by
  a recovered one whose stop flag, if it is set, is shown on
  the stop lamp.
-/
inductive StartedLit
    (d : BasicDriverInfo)
    (s : Loop) : Prop where
  | fresh
      (id : Int)
      (driver : Driver)
      (hEnter : enter d (create d id driver) = .ok () s)
  | recovered
      (id : Int)
      (driver : Driver)
      (state : ElevatorState)
      (hLamp : state.stopped = true →
        driver.stopLamp = true)
      (hEnter :
        enter d (recover state (create d id driver)) =
          .ok () s)

/- The runs from such starts in which no car is obstructed
while the stop lamp is lit. -/
def litSystem
    (d : BasicDriverInfo) : TransitionSystem Loop where
  Init := StartedLit d
  Step s s' := ∃ i, Step d i s s' ∧
    (i.getObstruction = true → ¬ StaysStopped i s)

theorem stopAgrees_of_step
    (hAgrees : StopAgrees s)
    (hClear : i.getObstruction = true →
      ¬ StaysStopped i s)
    (hStep : Step d i s s') :
    StopAgrees s' := by
  have hBody := stopAgrees_loopBody (d := d) hAgrees hClear
  cases hStep with
  | iterate hRun => exact wp_ok hBody hRun
  | restart e t hRun hTag hEnter =>
      have hLamp := wp_error hBody hRun
      apply stopAgrees_of_enter _ hEnter
      exact fun hStopped => hLamp.symm.trans hStopped

/-
  In every run in which a recovered stop flag is shown, and
  no car is obstructed while the stop lamp is lit, the local
  state, the flag and the lamp agree.
-/
theorem stopAgrees
    (hReach : (litSystem d).Reachable s) :
    StopAgrees s := by
  apply hReach.invariant
  · intro t hStarted
    cases hStarted with
    | fresh id driver hEnter =>
        apply stopAgrees_of_enter _ hEnter
        exact fun hStopped => Bool.noConfusion hStopped
    | recovered id driver state hLamp hEnter =>
        exact stopAgrees_of_enter hLamp hEnter
  · rintro t t' hAgrees ⟨i, hStep, hClear⟩
    exact stopAgrees_of_step hAgrees hClear hStep

end Signs

/- The first iteration of a car that is stopped already. -/
theorem idle_phases :
    ∃ s s₁ s₂ s₃ s₄ : Loop,
      enter twoFloors.toBasicDriverInfo
        (create twoFloors.toBasicDriverInfo 0 litDriver) =
          .ok () s ∧
      pollButtons twoFloors.toBasicDriverInfo idle s =
        .ok () s₁ ∧
      pollCommands twoFloors.toBasicDriverInfo idle s₁ =
        .ok () s₂ ∧
      senseFloor twoFloors.toBasicDriverInfo idle s₂ =
        .ok intMin s₃ ∧
      react twoFloors.toBasicDriverInfo idle intMin s₃ =
        .ok () s₄ ∧
      s₄.state = .stopped :=
  ⟨_, _, _, _, _, rfl, rfl, rfl, rfl, rfl, rfl⟩

/- The signs of a stopped car. -/
theorem stopAgrees_idle :
    ∃ s, (litSystem
        twoFloors.toBasicDriverInfo).Reachable s ∧
      s.state = .stopped ∧ StopAgrees s := by
  rcases idle_phases with
    ⟨s, s₁, s₂, s₃, s₄, hEnter, hPoll, hCommand, hSense,
      hReact, hState⟩
  have hRun :=
    loopBody_of_phases hPoll hCommand hSense hReact
  have hInit :
      (litSystem twoFloors.toBasicDriverInfo).Reachable s :=
    TransitionSystem.Reachable.init
      (StartedLit.fresh 0 litDriver hEnter)
  have hReach := hInit.step ⟨idle, Step.iterate hRun,
    fun hObstruction => Bool.noConfusion hObstruction⟩
  exact ⟨s₄, hReach, hState, stopAgrees hReach⟩

/- An obstruction of a stopped car. -/
def obstructed : Inputs :=
  { idle with getObstruction := true }

/- The phases of an iteration in which a stopped car is
obstructed. -/
theorem obstructed_phases :
    ∃ s s₁ s₂ s₃ s₄ : Loop,
      enter twoFloors.toBasicDriverInfo
        (create twoFloors.toBasicDriverInfo 0 litDriver) =
          .ok () s ∧
      pollButtons twoFloors.toBasicDriverInfo obstructed s =
        .ok () s₁ ∧
      pollCommands twoFloors.toBasicDriverInfo obstructed
        s₁ = .ok () s₂ ∧
      senseFloor twoFloors.toBasicDriverInfo obstructed s₂ =
        .ok intMin s₃ ∧
      react twoFloors.toBasicDriverInfo obstructed intMin
        s₃ = .ok () s₄ ∧
      s₄.state = .stopped ∧ s₄.driver.stopLamp = false :=
  ⟨_, _, _, _, _, rfl, rfl, rfl, rfl, rfl, rfl, rfl⟩

/- An elevator that has been recovered as a stopped one is
not stopped. -/
theorem recovered_phases :
    ∃ s s₁ s₂ s₃ s₄ : Loop,
      enter twoFloors.toBasicDriverInfo
        (recover
          { ElevatorState.default with
            id := 0
            lastFloor := 0
            stopped := true }
          (create twoFloors.toBasicDriverInfo 0
            darkDriver)) = .ok () s ∧
      pollButtons twoFloors.toBasicDriverInfo idle s =
        .ok () s₁ ∧
      pollCommands twoFloors.toBasicDriverInfo idle s₁ =
        .ok () s₂ ∧
      senseFloor twoFloors.toBasicDriverInfo idle s₂ =
        .ok intMin s₃ ∧
      react twoFloors.toBasicDriverInfo idle intMin s₃ =
        .ok () s₄ ∧
      s₄.state = .normal ∧ s₄.elevState.stopped = true :=
  ⟨_, _, _, _, _, rfl, rfl, rfl, rfl, rfl, rfl, rfl⟩

/-
  The obstruction switches off the lamp of a stopped car, and
  an elevator that has been recovered as a stopped one runs.
-/
theorem stop_signs_differ :
    (∃ s, (system twoFloors.toBasicDriverInfo).Reachable s ∧
      s.state = .stopped ∧ s.driver.stopLamp = false) ∧
    (∃ s, (system twoFloors.toBasicDriverInfo).Reachable s ∧
      s.state = .normal ∧ s.elevState.stopped = true) := by
  constructor
  · rcases obstructed_phases with
      ⟨s, s₁, s₂, s₃, s₄, hEnter, hPoll, hCommand, hSense,
        hReact, hState, hLamp⟩
    have hRun :=
      loopBody_of_phases hPoll hCommand hSense hReact
    have hInit :
        (system twoFloors.toBasicDriverInfo).Reachable s :=
      TransitionSystem.Reachable.init
        (Started.fresh 0 litDriver hEnter)
    exact ⟨s₄, hInit.step ⟨_, Step.iterate hRun⟩, hState,
      hLamp⟩
  · rcases recovered_phases with
      ⟨s, s₁, s₂, s₃, s₄, hEnter, hPoll, hCommand, hSense,
        hReact, hState, hFlag⟩
    have hRun :=
      loopBody_of_phases hPoll hCommand hSense hReact
    have hInit :
        (system twoFloors.toBasicDriverInfo).Reachable s :=
      TransitionSystem.Reachable.init
        (Started.recovered 0 darkDriver _ hEnter)
    exact ⟨s₄, hInit.step ⟨_, Step.iterate hRun⟩, hState,
      hFlag⟩

end Loop

end ElevatorControl
