import ElevatorControl.Loop.Operations

/-
  The car as seen from outside the control loop: the motor,
  the doors, the local state, and the published direction and
  floor.

  Each phase of an iteration acts on the car as one of a few
  moves. The refinement theorems hold for a phase that
  completes and for one that fails an assertion.

  Key definitions include:
    * `Car`
    * `Car.Starts`
    * `Car.Polled`
    * `Car.Commanded`
    * `Car.sensed`
    * `Car.Reacted`
    * `Loop.car`

  Key theorems include:
    * `Loop.refines_pollButtons`
    * `Loop.refines_pollCommands`
    * `Loop.refines_senseFloor`
    * `Loop.refines_react`
-/

------------------------------------------------------------
-- Abstract Car
------------------------------------------------------------

namespace ElevatorControl

/- The part of the loop state that decides how the car
moves. -/
structure Car where
  motor : Direction
  doorOpenLamp : Bool
  state : LocalState
  direction : Direction
  lastFloor : Int
  deriving DecidableEq, Repr

namespace Car

/- The floor known after a sensor reading. -/
def floorAfter
    (reading lastFloor : Int) : Int :=
  if reading ≠ intMin then reading else lastFloor

/- The car after a sensor reading. -/
def read
    (reading : Int)
    (c : Car) : Car :=
  { c with lastFloor := floorAfter reading c.lastFloor }

/- The car stops. -/
def halt
    (c : Car) : Car :=
  { c with
    motor := .none
    direction := .none }

/-
  The car starts after a sensor reading: in some direction,
  and away from an end floor.
-/
inductive Starts
    (d : BasicDriverInfo)
    (reading : Int)
    (c : Car) : Car → Prop where
  | intro
      (dir : Direction)
      (hSome : dir ≠ .none)
      (hMin :
        floorAfter reading c.lastFloor = d.minFloor →
          dir = .up)
      (hMax : d.minFloor < d.maxFloor →
        floorAfter reading c.lastFloor = d.maxFloor →
          dir = .down) :
      Starts d reading c
        { c.read reading with
          motor := dir
          doorOpenLamp := false
          direction := dir }

/- What the buttons do to the car. -/
inductive Polled
    (d : BasicDriverInfo)
    (i : Inputs)
    (c : Car) : Car → Prop where
  | ignored :
      Polled d i c c
  | stopped :
      Polled d i c
        ({ c.halt with state := .stopped }.read
          (i.getFloor .stopButton))
  | resumed
      (c' : Car)
      (hStarts : Starts d (i.getFloor .resume) c c') :
      Polled d i c
        ({ c' with state := .normal }.read
          (i.getFloor .stopButton))

/- What an obstruction and a command do to the car. -/
inductive Commanded
    (i : Inputs)
    (c : Car) : Car → Prop where
  | ignored :
      Commanded i c c
  | obstructed
      (hObstruction : i.getObstruction = true) :
      Commanded i c
        { c with
          motor := .none
          doorOpenLamp := false }

/- The safety stop at the end floors. -/
def safetyStop
    (d : BasicDriverInfo)
    (reading : Int)
    (c : Car) : Car :=
  if (reading = d.maxFloor ∧ c.direction = .up) ∨
      (reading = d.minFloor ∧ c.direction = .down) then
    c.halt
  else c

/- The car after the sensor read of the iteration. -/
def sensed
    (d : BasicDriverInfo)
    (reading : Int)
    (c : Car) : Car :=
  safetyStop d reading (c.read reading)

/- Only the safety stop changes the direction. -/
theorem sensed_cases
    (d : BasicDriverInfo)
    (reading : Int)
    (c : Car) :
    c.sensed d reading = c.read reading ∨
      (c.sensed d reading = (c.read reading).halt ∧
        ((reading = d.maxFloor ∧ c.direction = .up) ∨
          (reading = d.minFloor ∧ c.direction = .down))) := by
  unfold sensed safetyStop
  split
  · next hStops => exact Or.inr ⟨rfl, hStops⟩
  · exact Or.inl rfl

theorem state_sensed
    (d : BasicDriverInfo)
    (reading : Int)
    (c : Car) :
    (c.sensed d reading).state = c.state := by
  rcases sensed_cases d reading c with hRead | ⟨hHalt, _⟩
  · rw [hRead]
    rfl
  · rw [hHalt]
    rfl

theorem lastFloor_sensed
    (d : BasicDriverInfo)
    (reading : Int)
    (c : Car) :
    (c.sensed d reading).lastFloor =
      floorAfter reading c.lastFloor := by
  rcases sensed_cases d reading c with hRead | ⟨hHalt, _⟩
  · rw [hRead]
    rfl
  · rw [hHalt]
    rfl

/- What an iteration does to the car before it looks at the
local state. -/
inductive Approached
    (d : BasicDriverInfo)
    (i : Inputs)
    (c : Car) : Car → Prop where
  | intro
      (c₁ c₂ : Car)
      (hPolled : Polled d i c c₁)
      (hCommanded : Commanded i c₁ c₂) :
      Approached d i c (c₂.sensed d (i.getFloor .loop))

/- What the local state makes the car do. -/
inductive Reacted
    (d : BasicDriverInfo)
    (i : Inputs)
    (c : Car) : Car → Prop where
  | rested :
      Reacted d i c c
  | served
      (hState : c.state = .normal) :
      Reacted d i c
        { c.halt with
          doorOpenLamp := true
          state := .waitingForInButton }
  | left
      (c' : Car)
      (hState : c.state = .normal)
      (hDirection : c.direction = .none)
      (hStarts : Starts d (i.getFloor .depart) c c') :
      Reacted d i c c'
  | shut
      (hState : c.state = .waitingForInButton) :
      Reacted d i c
        { c with
          doorOpenLamp := false
          state := .normal }

end Car

------------------------------------------------------------
-- Car of a Loop State
------------------------------------------------------------

namespace Loop

open Exec Car

/- The car of a loop state. -/
def car
    (s : Loop) : Car where
  motor := s.driver.motor
  doorOpenLamp := s.driver.doorOpenLamp
  state := s.state
  direction := s.elevState.direction
  lastFloor := s.elevState.lastFloor

/- The program moves the car by the relation, whether it
completes or fails. -/
def Moves
    {α : Type}
    (R : Car → Car → Prop)
    (x : LoopM α) : Prop :=
  ∀ s, wp x (fun _ s' => R s.car s'.car)
    (fun _ s' => R s.car s'.car) s

section Operations

variable {d : BasicDriverInfo}
variable {i : Inputs}
variable {s : Loop}

@[simp] theorem car_emitted
    {type : ChangeType}
    {floor : Int}
    {now : MillisecondTime} :
    (emitted type floor now s).car = s.car :=
  rfl

@[simp] theorem car_floorUpdated
    {reading : Int} :
    (floorUpdated reading s).car = s.car.read reading :=
  rfl

@[simp] theorem car_halted :
    (halted s).car = s.car.halt := by
  simp only [halted, car, Car.halt,
    Driver.motor_stopElevator]
  rfl

@[simp] theorem car_withCalls
    {x : CallDirection}
    {calls : FloorSet} :
    (withCalls x calls s).car = s.car := by
  cases x with
  | up => rfl
  | down => rfl

/- A start of the loop is a start of the car. -/
theorem starts_departed
    (direction : Direction)
    (reading : Int) :
    Starts d reading s.car
      (departed d direction reading s).car := by
  have hCar :
      (departed d direction reading s).car =
        { s.car.read reading with
          motor :=
            (departed d direction reading
              s).elevState.direction
          doorOpenLamp := false
          direction :=
            (departed d direction reading
              s).elevState.direction } := by
    simp only [car, motor_departed, doorOpenLamp_departed,
      state_departed, lastFloor_departed, Car.read,
      floorAfter]
  rw [hCar]
  apply Starts.intro
  · exact direction_departed_ne_none
  · exact fun hMin => direction_departed_min hMin
  · exact fun hBounds hMax =>
      direction_departed_max hBounds hMax

/- Presses on the panel do not touch the car. -/
theorem ignoresPanel_car :
    IgnoresPanel car where
  lamp _ _ := rfl
  inside _ _ := rfl
  held _ _ := rfl
  report _ _ _ _ := rfl

theorem keeps_car_setButtonLamp
    (btn : Button)
    (state : Bool) :
    Keeps car (callDriver
      (Driver.setButtonLamp d btn state)) :=
  keeps_setButtonLamp ignoresPanel_car.lamp d btn state

theorem keeps_car_setInside
    (value : Bool)
    (floor : Int) :
    Keeps car (setInside d value floor) :=
  keeps_setInside ignoresPanel_car.inside d value floor

theorem keeps_car_emitStateChange
    (type : ChangeType)
    (floor : Int)
    (now : MillisecondTime) :
    Keeps car (emitStateChange type floor now) :=
  keeps_modify fun _ => rfl

theorem keeps_car_setCall
    (x : CallDirection)
    (value : Bool)
    (floor : Int) :
    Keeps car (setCall d x value floor) := by
  unfold setCall
  apply Keeps.bind keeps_get
  intro s
  apply Keeps.bind (keeps_check _)
  intro r
  apply Keeps.bind
  · exact keeps_modify fun _ => car_withCalls
  · exact fun _ => keeps_pure _

theorem keeps_car_setFloorIndicator
    (floor : Int) :
    Keeps car (callDriver
      (Driver.setFloorIndicator d floor)) := by
  apply keeps_callDriver
  intro s v hSet
  by_cases hRange : d.InRange floor
  · rw [Driver.setFloorIndicator_eq hRange] at hSet
    rw [← Except.ok.inj hSet]
    rfl
  · rcases Driver.setFloorIndicator_error (v := s.driver)
      hRange with ⟨msg, hError⟩
    rw [hError] at hSet
    cases hSet

theorem keeps_car_clearDirectionButtonLamp
    (now : MillisecondTime) :
    Keeps car (clearDirectionButtonLamp d now) := by
  unfold clearDirectionButtonLamp
  apply Keeps.bind keeps_get
  intro s
  cases directionButton d s.elevState with
  | none => exact keeps_pure _
  | some target =>
      apply Keeps.bind (keeps_car_setCall _ false _)
      intro wasSet
      apply Keeps.bind
      · exact keeps_when fun _ =>
          keeps_car_emitStateChange _ _ now
      · exact fun _ => keeps_car_setButtonLamp _ false

/- A program that keeps the car does so after any prefix. -/
theorem Moves.of_keeps
    {α : Type}
    {R : Car → Car → Prop}
    {x : LoopM α}
    (hx : Keeps car x)
    (hR : ∀ c, R c c) :
    Moves R x := by
  intro s
  have hSame :
      ∀ s' : Loop, s'.car = s.car → R s.car s'.car := by
    intro s' hCar
    rw [hCar]
    exact hR s.car
  exact hx.wp (fun _ s' => hSame s')
    (fun _ s' => hSame s')

end Operations

------------------------------------------------------------
-- Polling
------------------------------------------------------------

section Refinement

variable (d : BasicDriverInfo)
variable (i : Inputs)

/- The stop button halts the car. -/
theorem moves_stopPressed :
    Moves (fun c c' => c' =
      { c.halt with state := .stopped }.read
        (i.getFloor .stopButton)) (stopPressed i) := by
  intro s
  unfold stopPressed stopElevator updateAndGetFloor
    emitStateChange
  simp only [wp_bind, wp_modify, wp_pure, car_emitted,
    car_floorUpdated]
  rw [← car_halted]
  rfl

/- The stop button starts a stopped car. -/
theorem moves_resumePressed :
    Moves (fun c c' => ∃ c₁,
      Starts d (i.getFloor .resume) c c₁ ∧
      c' = { c₁ with state := .normal }.read
        (i.getFloor .stopButton)) (resumePressed d i) := by
  intro s
  unfold resumePressed updateAndGetFloor emitStateChange
  simp only [wp_bind, wp_get, wp_startElevator, wp_modify,
    wp_pure, car_emitted, car_floorUpdated]
  exact ⟨_, starts_departed _ _, rfl⟩

theorem refines_handleStop :
    Moves (Polled d i) (handleStop d i) := by
  intro s
  unfold handleStop
  simp only [wp_bind, wp_modify, wp_get, wp_when]
  split
  · unfold toggleStop
    simp only [wp_modify, wp_ite]
    split
    · apply wp_mono _ _ (moves_stopPressed i _)
      all_goals
        intro _ s' hCar
        rw [hCar]
        exact Polled.stopped
    · apply wp_mono _ _ (moves_resumePressed d i _)
      all_goals
        rintro _ s' ⟨c₁, hStarts, hCar⟩
        rw [hCar]
        exact Polled.resumed c₁ hStarts
  · exact Polled.ignored

theorem refines_pollButtons :
    Moves (Polled d i) (pollButtons d i) := by
  intro s
  unfold pollButtons beginCycle
  simp only [wp_bind, wp_modify]
  have hConsistency : Keeps car (assertConsistency d) :=
    keeps_assertConsistency d
  apply hConsistency.wp
  · intro _ s₁ hFirst
    have hCar₁ : s₁.car = s.car := hFirst
    apply (keeps_handleButtons ignoresPanel_car d i).wp
    · intro _ s₂ hSecond
      rw [← hCar₁, ← hSecond]
      exact refines_handleStop d i s₂
    · intro _ s₂ hSecond
      rw [hSecond, hCar₁]
      exact Polled.ignored
  · intro _ s₁ hFirst
    have hCar₁ : s₁.car = s.car := hFirst
    rw [hCar₁]
    exact Polled.ignored

------------------------------------------------------------
-- Obstruction and Commands
------------------------------------------------------------

theorem moves_handleObstruction :
    Moves (Commanded i) (handleObstruction d i) := by
  intro s
  unfold handleObstruction
  rw [wp_when]
  split
  · next hObstruction =>
      rcases Driver.shutdown_ok (d := d) (v := s.driver)
        with ⟨v, hShutdown, hMotor, hDoor, _⟩
      rw [wp_callDriver_ok hShutdown]
      have hCommanded := Commanded.obstructed (i := i)
        (c := s.car) hObstruction
      rw [← hMotor, ← hDoor] at hCommanded
      exact hCommanded
  · exact Commanded.ignored

theorem keeps_car_acceptCall
    (x : CallDirection)
    (floor : Int) :
    Keeps car (acceptCall d i x floor) := by
  unfold acceptCall
  apply Keeps.bind (keeps_car_setCall x true floor)
  intro _
  apply Keeps.bind (keeps_car_setButtonLamp _ true)
  intro _
  exact keeps_car_emitStateChange _ floor _

theorem keeps_car_executeCommand
    (command : Command) :
    Keeps car (executeCommand d i command) := by
  unfold executeCommand
  cases command.commandType with
  | empty => exact keeps_pure _
  | callToFloorAndGoUp =>
      exact keeps_car_acceptCall d i .up _
  | callToFloorAndGoDown =>
      exact keeps_car_acceptCall d i .down _
  | turnOnLightUp => exact keeps_car_setButtonLamp _ true
  | turnOffLightUp => exact keeps_car_setButtonLamp _ false
  | turnOnLightDown => exact keeps_car_setButtonLamp _ true
  | turnOffLightDown =>
      exact keeps_car_setButtonLamp _ false

theorem keeps_car_handleCommand :
    Keeps car (handleCommand d i) := by
  unfold handleCommand
  cases i.tryDequeue with
  | none => exact keeps_pure _
  | some command =>
      apply Keeps.bind keeps_get
      intro s
      apply Keeps.bind (keeps_check _)
      intro _
      exact keeps_car_executeCommand d i command

theorem refines_pollCommands :
    Moves (Commanded i) (pollCommands d i) := by
  intro s
  unfold pollCommands
  rw [wp_bind]
  apply wp_mono _ (fun _ _ hMove => hMove)
    (moves_handleObstruction d i s)
  intro _ s₁ hMove
  apply (keeps_car_handleCommand d i).wp
  all_goals
    intro _ s₂ hCar
    rw [hCar]
    exact hMove

------------------------------------------------------------
-- Sensing
------------------------------------------------------------

theorem keeps_car_reportFloor
    (currentFloor : Int) :
    Keeps car (reportFloor d i currentFloor) := by
  unfold reportFloor
  apply Keeps.bind
  · exact keeps_when fun _ =>
      keeps_car_setFloorIndicator currentFloor
  · intro _
    apply Keeps.bind keeps_get
    intro s
    exact keeps_when fun _ =>
      keeps_car_emitStateChange _ _ _

/- A car that stops at one end does not stop again. -/
theorem moves_safetyStops
    (currentFloor : Int) :
    Moves (fun c c' => c' = safetyStop d currentFloor c)
      (safetyStops d currentFloor) := by
  intro s
  have hDirection :
      s.elevState.direction = s.car.direction := rfl
  have hHalted :
      (halted s).elevState.direction = .none := rfl
  unfold safetyStops stopElevator
  simp only [wp_bind, wp_modify, wp_get, wp_when]
  by_cases hMax :
      currentFloor = d.maxFloor ∧ s.car.direction = .up
  · simp [hDirection, hMax, hHalted, safetyStop]
  · by_cases hMin :
        currentFloor = d.minFloor ∧ s.car.direction = .down
    · simp [hDirection, hMin, safetyStop]
    · simp [hDirection, hMin, hMax, safetyStop]

theorem refines_senseFloor :
    Moves (fun c c' => c' = sensed d (i.getFloor .loop) c)
      (senseFloor d i) := by
  intro s
  unfold senseFloor updateAndGetFloor
  simp only [wp_bind, wp_modify, wp_pure]
  apply wp_mono _ _ (moves_safetyStops d _ _)
  · intro _ s₁ hStops
    apply (keeps_car_reportFloor d i _).wp
    all_goals
      intro _ s₂ hCar
      rw [hCar, hStops, car_floorUpdated]
      rfl
  · intro _ s₁ hStops
    rw [hStops, car_floorUpdated]
    rfl

/- The phases before the local state, one after another. -/
theorem refines_approach
    (s : Loop) :
    wp (approach d i)
      (fun currentFloor s' =>
        currentFloor = i.getFloor .loop ∧
          Approached d i s.car s'.car)
      (fun _ _ => True) s := by
  unfold approach
  simp only [wp_bind]
  apply wp_mono _ (fun _ _ _ => trivial)
    (refines_pollButtons d i s)
  intro _ s₁ hPolled
  apply wp_mono _ (fun _ _ _ => trivial)
    (refines_pollCommands d i s₁)
  intro _ s₂ hCommanded
  have hReading :
      wp (senseFloor d i)
        (fun currentFloor _ =>
          currentFloor = i.getFloor .loop)
        (fun _ _ => True) s₂ := by
    unfold senseFloor updateAndGetFloor
    simp only [wp_bind, wp_modify, wp_pure]
    apply wp_mono _ (fun _ _ _ => trivial)
      (moves_safetyStops d _ _)
    intro _ s₃ _
    apply (keeps_car_reportFloor d i _).wp
    · exact fun _ _ _ => trivial
    · exact fun _ _ _ => trivial
  apply wp_mono _ (fun _ _ _ => trivial)
    (wp_and hReading (refines_senseFloor d i s₂))
  rintro currentFloor s₃ ⟨hCurrent, hCar⟩
  refine ⟨hCurrent, ?_⟩
  rw [hCar]
  exact Approached.intro _ _ hPolled hCommanded

------------------------------------------------------------
-- Reacting
------------------------------------------------------------

/- Opening the doors halts the car. -/
theorem moves_serveFloor
    (currentFloor : Int) :
    Moves (fun c c' => c' = c ∨
      c' = { c.halt with
        doorOpenLamp := true
        state := .waitingForInButton })
      (serveFloor d i currentFloor) := by
  intro s
  have hFlag : Keeps car (setButtonLampAndFlag d
      ⟨.targetFloor, currentFloor⟩ false) :=
    keeps_setButtonLampAndFlag ignoresPanel_car.lamp
      ignoresPanel_car.inside d _ false
  have hServed :
      ∀ s' : Loop, s'.car = s.car →
        (halted { s' with
          driver := s'.driver.setDoorOpenLamp true
          elevState.doorOpen := true
          state := .waitingForInButton
          doorWaitingStarted := i.now .doorOpened }).car =
        { s.car.halt with
          doorOpenLamp := true
          state := .waitingForInButton } := by
    intro s' hCar
    rw [← hCar, car_halted]
    rfl
  unfold serveFloor stopElevator
  simp only [wp_bind, wp_modify]
  apply hFlag.wp
  · intro _ s₁ hCar₁
    apply (keeps_car_setInside false currentFloor).wp
    · intro _ s₂ hCar₂
      apply (keeps_car_emitStateChange _ _ _).wp
      all_goals
        intro _ s₃ hCar₃
        right
        rw [hCar₃, hCar₂, hServed s₁ hCar₁]
    · intro _ s₂ hCar₂
      right
      rw [hCar₂, hServed s₁ hCar₁]
  · exact fun _ _ hCar => Or.inl hCar

/- A car that stands still starts when it has requests. -/
theorem moves_startForRequests :
    Moves (fun c c' => c' = c ∨
      Starts d (i.getFloor .depart) c c')
      (startForRequests d i) := by
  intro s
  unfold startForRequests
  simp only [wp_bind, wp_get]
  have hPriority : Keeps car
      (check (priorityFloorsInDirection d s.elevState
        s.previousDirection)) :=
    keeps_check _
  apply hPriority.wp
  · intro priority s₁ hCar
    simp only [wp_ite, wp_startElevator]
    split
    · right
      rw [← hCar]
      exact starts_departed _ _
    · right
      rw [← hCar]
      exact starts_departed _ _
  · exact fun _ _ hCar => Or.inl hCar

theorem moves_depart
    (currentFloor : Int) :
    Moves (fun c c' => c' = c ∨
      Starts d (i.getFloor .depart) c c')
      (depart d i currentFloor) := by
  intro s
  have hClear : Keeps car (clearDirectionButtonLamp d
      (i.now .directionServed)) :=
    keeps_car_clearDirectionButtonLamp _
  unfold depart emitStateChange
  simp only [wp_bind, wp_get, wp_when, wp_modify]
  split
  · apply wp_mono _ _ (moves_startForRequests d i s)
    · intro _ s₁ hStarts
      apply hClear.wp
      all_goals
        intro _ s₂ hCar
        rw [hCar]
        exact hStarts
    · exact fun _ _ hStarts => hStarts
  · apply hClear.wp
    · exact fun _ _ hCar => Or.inl hCar
    · exact fun _ _ hCar => Or.inl hCar

theorem refines_handleNormal
    (currentFloor : Int)
    (s : Loop)
    (hState : s.state = .normal) :
    wp (handleNormal d i currentFloor)
      (fun _ s' => Reacted d i s.car s'.car)
      (fun _ s' => Reacted d i s.car s'.car) s := by
  have hRested :
      ∀ s' : Loop, s'.car = s.car →
        Reacted d i s.car s'.car := by
    intro s' hCar
    rw [hCar]
    exact Reacted.rested
  unfold handleNormal
  simp only [wp_bind, wp_get]
  have hArrives : Keeps car
      (check (arrives d s.elevState currentFloor)) :=
    keeps_check _
  apply hArrives.wp
  · intro arrived s₁ hCar₁
    simp only [wp_ite, wp_when]
    split
    · apply wp_mono _ _ (moves_serveFloor d i currentFloor s₁)
      all_goals
        rintro _ s₂ (hCar₂ | hCar₂)
        · exact hRested s₂ (hCar₂.trans hCar₁)
        · rw [hCar₂, hCar₁]
          exact Reacted.served hState
    · split
      · next hDirection =>
          apply wp_mono _ _ (moves_depart d i currentFloor s₁)
          all_goals
            rintro _ s₂ (hCar₂ | hStarts)
            · exact hRested s₂ (hCar₂.trans hCar₁)
            · rw [hCar₁] at hStarts
              exact Reacted.left _ hState hDirection hStarts
      · exact hRested s₁ hCar₁
  · exact fun _ s₁ hCar₁ => hRested s₁ hCar₁

theorem keeps_car_closeByTimeout
    (currentFloor : Int) :
    Keeps car (closeByTimeout d i currentFloor) := by
  unfold closeByTimeout
  apply Keeps.bind (keeps_car_setCall .down false _)
  intro _
  apply Keeps.bind (keeps_car_setCall .up false _)
  intro _
  apply Keeps.bind (keeps_car_setButtonLamp _ false)
  intro _
  apply Keeps.bind (keeps_car_setButtonLamp _ false)
  intro _
  apply Keeps.bind (keeps_car_emitStateChange _ _ _)
  intro _
  exact keeps_car_emitStateChange _ _ _

theorem refines_handleWaiting
    (currentFloor : Int)
    (s : Loop)
    (hState : s.state = .waitingForInButton) :
    wp (handleWaiting d i currentFloor)
      (fun _ s' => Reacted d i s.car s'.car)
      (fun _ s' => Reacted d i s.car s'.car) s := by
  have hShut :
      ∀ s' : Loop, s'.car = (doorShut s).car →
        Reacted d i s.car s'.car := by
    intro s' hCar
    rw [hCar]
    exact Reacted.shut hState
  unfold handleWaiting emitStateChange
  simp only [wp_bind, wp_get, wp_modify, wp_when, wp_ite]
  split
  · split
    · apply (keeps_car_closeByTimeout d i currentFloor).wp
      · exact fun _ s₁ hCar => hShut s₁ hCar
      · exact fun _ s₁ hCar => hShut s₁ hCar
    · apply (keeps_car_clearDirectionButtonLamp _).wp
      · exact fun _ s₁ hCar => hShut s₁ hCar
      · exact fun _ s₁ hCar => hShut s₁ hCar
  · exact Reacted.rested

theorem refines_handleState
    (currentFloor : Int) :
    Moves (Reacted d i) (handleState d i currentFloor) := by
  intro s
  unfold handleState
  simp only [wp_bind, wp_get]
  cases hState : s.state with
  | normal =>
      exact refines_handleNormal d i currentFloor s hState
  | waitingForInButton =>
      exact refines_handleWaiting d i currentFloor s hState
  | stopped => exact Reacted.rested

theorem keeps_car_finishCycle
    (currentFloor : Int) :
    Keeps car (finishCycle i currentFloor) := by
  unfold finishCycle
  apply Keeps.bind keeps_get
  intro s
  apply Keeps.bind
  · exact keeps_when fun _ =>
      keeps_car_emitStateChange _ _ _
  · exact fun _ => keeps_modify fun _ => rfl

theorem refines_react
    (currentFloor : Int) :
    Moves (Reacted d i) (react d i currentFloor) := by
  intro s
  unfold react
  rw [wp_bind]
  apply wp_mono _ (fun _ _ hMove => hMove)
    (refines_handleState d i currentFloor s)
  intro _ s₁ hMove
  apply (keeps_car_finishCycle i currentFloor).wp
  all_goals
    intro _ s₂ hCar
    rw [hCar]
    exact hMove

end Refinement

end Loop

end ElevatorControl
