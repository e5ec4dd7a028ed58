import ElevatorControl.Library.TransitionSystem
import ElevatorControl.Loop.Car

/-
  Safety of the motion: the motor runs only with the doors
  closed and in the local state `Normal`.

  `Car.Safe` is kept by every move of the abstract car, so
  the refinement theorems of the phases make it an invariant
  of the loop. Entering the loop establishes it because the
  motor has been stopped before.

  Key definitions include:
    * `Car.Safe`
    * `Loop.system`

  Key theorems include:
    * `Loop.enter_ok`
    * `Loop.safe_loopBody`
    * `Loop.motion_safe`
-/

------------------------------------------------------------
-- Safe Cars
------------------------------------------------------------

namespace ElevatorControl

namespace Car

variable {d : BasicDriverInfo}
variable {i : Inputs}
variable {c c' : Car}

/- A car that moves has closed doors and is in the local
state `Normal`. -/
def Safe
    (c : Car) : Prop :=
  c.motor ≠ .none →
    c.doorOpenLamp = false ∧ c.state = .normal

/- A car whose motor is off is safe. -/
theorem Safe.of_motor
    (hMotor : c.motor = .none) :
    c.Safe :=
  fun hMoving => absurd hMotor hMoving

theorem Safe.starts
    {reading : Int}
    (hState : c.state = .normal)
    (hStarts : Starts d reading c c') :
    c'.Safe := by
  cases hStarts
  exact fun _ => ⟨rfl, hState⟩

theorem Safe.polled
    (hSafe : c.Safe)
    (hMove : Polled d i c c') :
    c'.Safe := by
  cases hMove with
  | ignored => exact hSafe
  | stopped => exact Safe.of_motor rfl
  | resumed c₁ hStarts =>
      -- the start shut the doors and the branch then leaves
      -- the local state `Stopped`
      cases hStarts
      exact fun _ => ⟨rfl, rfl⟩

theorem Safe.commanded
    (hSafe : c.Safe)
    (hMove : Commanded i c c') :
    c'.Safe := by
  cases hMove with
  | ignored => exact hSafe
  | obstructed hObstruction => exact Safe.of_motor rfl

theorem Safe.sensed
    {reading : Int}
    (hSafe : c.Safe) :
    (c.sensed d reading).Safe := by
  unfold Car.sensed safetyStop
  split
  · exact Safe.of_motor rfl
  · exact hSafe

theorem Safe.approached
    (hSafe : c.Safe)
    (hMove : Approached d i c c') :
    c'.Safe := by
  cases hMove with
  | intro c₁ c₂ hPolled hCommanded =>
      exact ((hSafe.polled hPolled).commanded
        hCommanded).sensed

theorem Safe.reacted
    (hSafe : c.Safe)
    (hMove : Reacted d i c c') :
    c'.Safe := by
  cases hMove with
  | rested => exact hSafe
  | served hState => exact Safe.of_motor rfl
  | left _ hState hDirection hStarts =>
      exact Safe.starts hState hStarts
  | shut hState =>
      -- a waiting car that is safe stands still
      intro hMoving
      have hNormal := (hSafe hMoving).2
      rw [hState] at hNormal
      cases hNormal

end Car

------------------------------------------------------------
-- Entering the Loop
------------------------------------------------------------

namespace Loop

open Exec Car

section Enter

variable {d : BasicDriverInfo}

theorem keeps_car_initializeElevator :
    Keeps car (initializeElevator d) :=
  keeps_initializeElevator (fun _ _ => rfl)
    (fun _ _ => rfl) (fun _ _ => rfl) (fun _ _ => rfl) d

/-
  Entering the loop keeps the car, but for the local state,
  which is `Normal` or `Stopped`.
-/
theorem car_of_enter
    {s s' : Loop}
    (hEnter : enter d s = .ok () s') :
    s'.car = { s.car with state := s'.state } ∧
      s'.state ≠ .waitingForInButton := by
  have hWp :
      Exec.wp (enter d)
        (fun _ s' =>
          s'.car = { s.car with state := s'.state } ∧
            s'.state ≠ .waitingForInButton)
        (fun _ _ => True) s := by
    unfold enter
    simp only [wp_bind, wp_modify]
    apply keeps_car_initializeElevator.wp
    · intro _ s₁ hCar
      have hState : s₁.state = .normal :=
        congrArg Car.state hCar
      have hSame :
          s₁.car = { s.car with state := .normal } := hCar
      simp only [wp_get, wp_when, wp_modify]
      split
      · refine ⟨?_, by simp⟩
        change { s₁.car with state := LocalState.stopped } = _
        rw [hSame]
      · rw [hSame, hState]
        exact ⟨rfl, by simp⟩
    · exact fun _ _ _ => trivial
  have hOk := wp_ok hWp hEnter
  exact hOk

/- Initializing a floor between the bounds succeeds. -/
theorem initializeFloor_ok
    {floor : Int}
    (hRange : d.InRange floor)
    (s : Loop) :
    wp (initializeFloor d floor) (fun _ _ => True)
      (fun _ _ => False) s := by
  have hLamp :
      ∀ (t : Loop) (type : ButtonType),
        t.driver.getButtonLamp d ⟨type, floor⟩ =
          .ok (t.driver.buttonLamp ⟨type, floor⟩) := by
    intro t type
    have hEq : Driver.lamp d ⟨type, floor⟩ = .ok () :=
      Driver.lamp_eq hRange
    simp only [Driver.getButtonLamp, hEq]
    rfl
  have hSet :
      ∀ (t : Loop) (type : ButtonType) (state : Bool)
        (Q : Unit → Loop → Prop),
        (∀ t', Q () t') →
        wp (callDriver (Driver.setButtonLamp d
          ⟨type, floor⟩ state)) Q (fun _ _ => False) t := by
    intro t type state Q hQ
    have hRange' :
        d.InRange (Button.mk type floor).floor := hRange
    rw [wp_callDriver_ok (Driver.setButtonLamp_eq hRange')]
    exact hQ _
  have hInside :
      ∀ (t : Loop) (Q : Unit → Loop → Prop),
        (∀ t', Q () t') →
        wp (setInside d true floor) Q
          (fun _ _ => False) t := by
    intro t Q hQ
    simp only [setInside, wp_bind, wp_get,
      FloorSet.set_eq hRange, wp_check_ok, wp_modify]
    exact hQ _
  have hWhen :
      ∀ (c : Prop) [Decidable c] (x : LoopM Unit)
        (Q : Unit → Loop → Prop) (t : Loop),
        (∀ t', Q () t') →
        (∀ t, wp x Q (fun _ _ => False) t) →
        wp (when c x) Q (fun _ _ => False) t := by
    intro c _ x Q t hQ hx
    rw [wp_when]
    split
    · exact hx t
    · exact hQ t
  unfold initializeFloor
  simp only [wp_bind, wp_get, hLamp, wp_check_ok,
    FloorSet.get_eq_mem hRange]
  have hLights :
      ∀ t : Loop, wp (callDriver (Driver.setButtonLamp d
        ⟨.callUp, floor⟩
          (t.elevState.upButtons.mem floor d)))
        (fun _ s => wp (callDriver (Driver.setButtonLamp d
          ⟨.callDown, floor⟩
            (t.elevState.downButtons.mem floor d)))
          (fun _ _ => True) (fun _ _ => False) s)
        (fun _ _ => False) t := by
    intro t
    apply hSet
    intro t'
    apply hSet
    exact fun _ => trivial
  apply hWhen
  · intro t
    apply hWhen
    · exact hLights
    · intro t'
      apply hSet
      exact hLights
  · intro t
    apply hInside
    intro t'
    apply hWhen
    · exact hLights
    · intro t''
      apply hSet
      exact hLights

/- Entering the loop never fails an assertion. -/
theorem enter_ok
    (d : BasicDriverInfo)
    (s : Loop) :
    ∃ s', enter d s = .ok () s' := by
  have hWp :
      wp (enter d) (fun _ _ => True) (fun _ _ => False)
        s := by
    unfold enter initializeElevator
    simp only [wp_bind, wp_modify]
    apply wp_mono _ (fun _ _ hE => hE)
    · apply wp_forM (fun _ => True) (initializeFloor d)
      · intro floor hFloor t _
        exact initializeFloor_ok
          (BasicDriverInfo.mem_floors.mp hFloor) t
      · trivial
    · intro _ t _
      simp only [wp_get, wp_when, wp_modify, ite_self]
  unfold wp at hWp
  cases hRun : enter d s with
  | ok u s' => exact ⟨s', rfl⟩
  | error e s' =>
      simp only [hRun] at hWp

end Enter

------------------------------------------------------------
-- Runs of the Loop
------------------------------------------------------------

/- The runs of one control loop, restarts included. -/
def system
    (d : BasicDriverInfo) : TransitionSystem Loop where
  Init := Started d
  Step s s' := ∃ i, Step d i s s'

section Safety

variable {d : BasicDriverInfo}
variable {i : Inputs}

/- One iteration keeps a safe car safe. -/
theorem safe_loopBody
    {s : Loop}
    (hSafe : s.car.Safe) :
    wp (loopBody d i) (fun _ s' => s'.car.Safe)
      (fun _ _ => True) s := by
  unfold loopBody
  rw [wp_bind]
  apply wp_mono _ (fun _ _ _ => trivial)
    (refines_approach d i s)
  rintro currentFloor s₁ ⟨_, hMove₁⟩
  have hSafe₁ := hSafe.approached hMove₁
  apply wp_mono _ (fun _ _ _ => trivial)
    (refines_react d i currentFloor s₁)
  exact fun _ _ hMove₂ => hSafe₁.reacted hMove₂

/- Entering the loop does not start the motor. -/
theorem motor_of_enter
    {s s' : Loop}
    (hMotor : s.driver.motor = .none)
    (hEnter : enter d s = .ok () s') :
    s'.car.motor = .none := by
  rw [(car_of_enter hEnter).1]
  exact hMotor

/- The constructor has stopped the motor. -/
theorem motor_of_started
    {s : Loop}
    (hStarted : Started d s) :
    s.car.motor = .none := by
  cases hStarted with
  | fresh id driver hEnter =>
      exact motor_of_enter Driver.motor_stopElevator hEnter
  | recovered id driver state hEnter =>
      exact motor_of_enter Driver.motor_stopElevator hEnter

theorem safe_of_step
    {s s' : Loop}
    (hSafe : s.car.Safe)
    (hStep : Step d i s s') :
    s'.car.Safe := by
  cases hStep with
  | iterate hRun => exact wp_ok (safe_loopBody hSafe) hRun
  | restart e t hRun hTag hEnter =>
      apply Safe.of_motor
      exact motor_of_enter Driver.motor_stopElevator hEnter

/-
  In every run, a car that moves has closed doors and is in
  the local state `Normal`.
-/
theorem motion_safe
    {s : Loop}
    (hReach : (system d).Reachable s)
    (hMoving : s.driver.motor ≠ .none) :
    s.driver.doorOpenLamp = false ∧ s.state = .normal := by
  have hSafe : s.car.Safe := by
    apply hReach.invariant
    · exact fun _ hStarted =>
        Safe.of_motor (motor_of_started hStarted)
    · rintro t t' hSafe ⟨i, hStep⟩
      exact safe_of_step hSafe hStep
  exact hSafe hMoving

/- An iteration whose phases complete completes. -/
theorem loopBody_of_phases
    {currentFloor : Int}
    {s s₁ s₂ s₃ s₄ : Loop}
    (hPoll : pollButtons d i s = .ok () s₁)
    (hCommand : pollCommands d i s₁ = .ok () s₂)
    (hSense : senseFloor d i s₂ = .ok currentFloor s₃)
    (hReact : react d i currentFloor s₃ = .ok () s₄) :
    loopBody d i s = .ok () s₄ := by
  simp only [loopBody, approach, bind, EStateM.bind, hPoll,
    hCommand, hSense, hReact]

end Safety

------------------------------------------------------------
-- First Departure
------------------------------------------------------------

/- A shaft with two floors. -/
def twoFloors : Shaft where
  minFloor := 0
  maxFloor := 1
  ordered := by decide
  span := by decide
  sentinel := intMin_lt_zero

/- A driver with every lamp off and the motor stopped. -/
def darkDriver : Driver where
  lastDirection := .none
  motorDir := false
  motorSpeed := 0
  buttonLamp _ := false
  stopLamp := false
  doorOpenLamp := false
  floorInd1 := false
  floorInd2 := false

/- A call from the lower floor reaches a car that has been
started between the floors. -/
def firstCall : Inputs where
  getButtonSignal _ := false
  getStop := false
  getObstruction := false
  tryDequeue := some ⟨.callToFloorAndGoUp, 0, 0⟩
  getFloor _ := intMin
  now _ := 0

/- The phases of the iteration in which the car answers the
call by leaving upwards. -/
theorem firstCall_phases :
    ∃ s s₁ s₂ s₃ s₄ : Loop,
      enter twoFloors.toBasicDriverInfo
        (create twoFloors.toBasicDriverInfo 0 darkDriver) =
          .ok () s ∧
      pollButtons twoFloors.toBasicDriverInfo firstCall s =
        .ok () s₁ ∧
      pollCommands twoFloors.toBasicDriverInfo firstCall
        s₁ = .ok () s₂ ∧
      senseFloor twoFloors.toBasicDriverInfo firstCall s₂ =
        .ok intMin s₃ ∧
      react twoFloors.toBasicDriverInfo firstCall intMin
        s₃ = .ok () s₄ ∧
      s.car = ⟨.none, false, .normal, .none, 0⟩ ∧
      s₄.car = ⟨.up, false, .normal, .up, 0⟩ ∧
      (s₄.elevState.calls .up).mem 0
        twoFloors.toBasicDriverInfo = false :=
  ⟨_, _, _, _, _, rfl, rfl, rfl, rfl, rfl, rfl, rfl, rfl⟩

/- A run in which the car is safe while it moves. -/
theorem motion_safe_firstCall :
    ∃ s, (system twoFloors.toBasicDriverInfo).Reachable s ∧
      s.driver.motor = .up ∧
      s.driver.doorOpenLamp = false ∧
      s.state = .normal := by
  rcases firstCall_phases with
    ⟨s, s₁, s₂, s₃, s₄, hEnter, hPoll, hCommand, hSense,
      hReact, _, hCar, _⟩
  have hMotor : s₄.driver.motor = .up :=
    congrArg Car.motor hCar
  have hRun := loopBody_of_phases hPoll hCommand hSense hReact
  have hReach :
      (system twoFloors.toBasicDriverInfo).Reachable s₄ :=
    (TransitionSystem.Reachable.init
      (Started.fresh 0 darkDriver hEnter)).step
      ⟨firstCall, Step.iterate hRun⟩
  refine ⟨s₄, hReach, hMotor, ?_⟩
  apply motion_safe hReach
  rw [hMotor]
  simp

end Loop

end ElevatorControl
