import ElevatorControl.State
import ElevatorControl.Library.Wp

/-
  The control loop of one elevator.

  `Loop` holds what `Elevator::_loop` reads and writes: the
  members of the elevator object, its driver, the queue of
  state changes it fills, and the local variables of the
  loop. `Inputs` holds what one iteration gets from outside:
  button signals, the stop button, the obstruction sensor, at
  most one command, and the values of the floor sensor and
  the clock at each place where the code reads them.

  A failed assertion aborts the iteration and keeps the state
  reached so far. The restart wrapper then runs the deferred
  stop and enters the loop again.

  Key definitions include:
    * `Loop`
    * `Inputs`
    * `Loop.startElevator`
    * `Loop.loopBody`
    * `Loop.enter`
    * `Loop.Step`
    * `Loop.Started`
-/

------------------------------------------------------------
-- Loop State
------------------------------------------------------------

namespace ElevatorControl

/- The local states of the control loop. -/
inductive LocalState where
  | normal
  | waitingForInButton
  | stopped
  deriving DecidableEq, Repr

/- The elevator object with the loop's local variables. -/
structure Loop where
  elevState : ElevatorState
  previousDirection : Direction
  lastStateUpdate : MillisecondTime
  driver : Driver
  outState : List StateChange
  inFloorButtons : FloorSet
  inFloorButtonsLast : FloorSet
  stopLast : Bool
  stopNow : Bool
  prevFloor : Int
  doorWaitingStarted : MillisecondTime
  state : LocalState

/-
  The places where an iteration reads the floor sensor:
  inside the start after the stop button, for the change
  reported after the stop button, the read after command
  handling, and inside a departure.
-/
inductive FloorRead where
  | resume
  | stopButton
  | loop
  | depart
  deriving DecidableEq, Repr

/- The places where an iteration reads the clock. -/
inductive ClockRead where
  | press (btn : Button)
  | stopButton
  | command
  | floorChange
  | doorOpened
  | served
  | departed
  | directionServed
  | doorTimeout
  | doorClosed
  | timeoutServedUp
  | timeoutServedDown
  | keepAliveTest
  | keepAlive
  deriving DecidableEq, Repr

/- What one iteration reads from outside. -/
structure Inputs where
  getButtonSignal : Button → Bool
  getStop : Bool
  getObstruction : Bool
  tryDequeue : Option Command
  getFloor : FloorRead → Int
  now : ClockRead → MillisecondTime

namespace Loop

open Exec (when)

/- Programs over the loop state that may fail an assertion. -/
abbrev LoopM : Type → Type :=
  EStateM AssertionFailed Loop

/- Run a check that does not touch the loop state. -/
def check
    {α : Type}
    (x : Except AssertionFailed α) : LoopM α :=
  match x with
  | .ok a => pure a
  | .error e => throw e

/- Run a driver operation that may fail an assertion. -/
def callDriver
    (f : Driver → Except AssertionFailed Driver) :
    LoopM Unit := do
  let v ← check (f (← get).driver)
  modify fun s => { s with driver := v }

------------------------------------------------------------
-- Elevator Operations
------------------------------------------------------------

/- The longest time between two reported changes. -/
def keepAlive : MillisecondTime := 500

/- The motor speed. -/
def speed : MillisecondTime := 300

/- How long the doors stay open. -/
def waitThreshold : MillisecondTime := 5000

/- The buttons an elevator has, in polling order. -/
def genFloorButtons
    (d : BasicDriverInfo) : List Button :=
  d.floors.flatMap fun i =>
    [⟨.targetFloor, i⟩] ++
      (if i < d.maxFloor then [⟨.callUp, i⟩] else []) ++
      (if i > d.minFloor then [⟨.callDown, i⟩] else [])

/- The state `_emitStateChange` leaves. -/
def emitted
    (type : ChangeType)
    (floor : Int)
    (now : MillisecondTime)
    (s : Loop) : Loop :=
  { s with
    lastStateUpdate := now
    outState := s.outState ++
      [⟨type, floor, { s.elevState with timestamp := now }⟩] }

/- Report a change, with the state stamped by the clock. -/
def emitStateChange
    (type : ChangeType)
    (floor : Int)
    (now : MillisecondTime) : LoopM Unit :=
  modify (emitted type floor now)

/- The state after a sensor reading. -/
def floorUpdated
    (reading : Int)
    (s : Loop) : Loop :=
  { s with
    elevState.lastFloor :=
      if reading ≠ intMin then reading
      else s.elevState.lastFloor }

/- Read the sensor, and keep the last floor it has shown. -/
def updateAndGetFloor
    (reading : Int) : LoopM Int := do
  modify (floorUpdated reading)
  return reading

/- The state `_stopElevator` leaves. -/
def halted
    (s : Loop) : Loop :=
  { s with
    previousDirection :=
      if s.elevState.direction ≠ .none then
        s.elevState.direction
      else s.previousDirection
    elevState.direction := .none
    driver := s.driver.stopElevator }

/- Stop the motor and publish that the car does not move. -/
def stopElevator : LoopM Unit :=
  modify halted

/- Set or clear an inside request. -/
def setInside
    (d : BasicDriverInfo)
    (value : Bool)
    (floor : Int) : LoopM Unit := do
  let s ← get
  let r ← check (s.elevState.insideButtons.set value floor d)
  modify fun s => { s with elevState.insideButtons := r.1 }

/- The state with other hall calls in one direction. -/
def withCalls
    (x : CallDirection)
    (calls : FloorSet)
    (s : Loop) : Loop :=
  match x with
  | .up => { s with elevState.upButtons := calls }
  | .down => { s with elevState.downButtons := calls }

/- Set or clear a hall call and return its old value. -/
def setCall
    (d : BasicDriverInfo)
    (x : CallDirection)
    (value : Bool)
    (floor : Int) : LoopM Bool := do
  let s ← get
  let r ← check ((s.elevState.calls x).set value floor d)
  modify (withCalls x r.1)
  return r.2

/- The published state is one of the shaft. -/
def assertConsistency
    (d : BasicDriverInfo) : LoopM Unit := do
  let s ← get
  check (assert (d.minFloor < d.maxFloor)
    "invalid floor bounds")
  check (s.elevState.assertConsistency d)
  check (assert (d.minFloor ≤ s.elevState.lastFloor)
    "last floor out of bounds")
  check (assert (s.elevState.lastFloor ≤ d.maxFloor)
    "last floor out of bounds")

/- The floors that decide the direction of a free start. -/
def floorsToServe
    (s : ElevatorState) : FloorSet :=
  if s.insideButtons.hasAny then s.insideButtons
  else s.insideButtons.union s.upButtons |>.union
    s.downButtons

/- One pass of the counting loop of `_optimalDirection`. -/
def countFloor
    (d : BasicDriverInfo)
    (s : ElevatorState)
    (counts : Nat × Nat)
    (i : Int) :
    Except AssertionFailed (Nat × Nat) := do
  if ← (floorsToServe s).get i d then
    return (
      if i < s.lastFloor then counts.1 + 1 else counts.1,
      if i > s.lastFloor then counts.2 + 1 else counts.2)
  else
    return counts

/- Count the floors below and above, and take the majority. -/
def optimalDirection
    (d : BasicDriverInfo)
    (s : ElevatorState) :
    Except AssertionFailed Direction := do
  let (lowerThan, higherThan) ←
    d.floors.foldlM (countFloor d s) (0, 0)
  return if higherThan ≥ lowerThan then .up else .down

/-
  Inside buttons take priority over the majority: the car
  continues in its last direction for them.
-/
def priorityFloorsInDirection
    (d : BasicDriverInfo)
    (s : ElevatorState) :
    Direction → Except AssertionFailed Bool
  | .down => s.insideButtons.anyLower s.lastFloor d
  | .up => s.insideButtons.anyHigher s.lastFloor d
  | .none => .ok false

/- The direction the end floors impose on a start. -/
def endFloorDirection
    (d : BasicDriverInfo)
    (s : ElevatorState) : Direction :=
  if s.lastFloor = d.minFloor then .up
  else if s.lastFloor = d.maxFloor then .down
  else s.direction

/-
  Start the car. The end floors override the requested
  direction, and without a direction the requests decide.
-/
def startElevator
    (d : BasicDriverInfo)
    (direction : Direction)
    (reading : Int) : LoopM Unit := do
  modify fun s => { s with elevState.direction := direction }
  let _ ← updateAndGetFloor reading
  modify fun s => { s with
    elevState.direction := endFloorDirection d s.elevState }
  let s ← get
  when (s.elevState.direction = .none) do
    let dir ← check (optimalDirection d s.elevState)
    modify fun s => { s with elevState.direction := dir }
  let s ← get
  callDriver
    (Driver.setMotorSpeed s.elevState.direction speed)
  modify fun s => { s with
    driver := s.driver.setDoorOpenLamp false }

/- Switch a lamp, and for an inside button the request as
well. -/
def setButtonLampAndFlag
    (d : BasicDriverInfo)
    (btn : Button)
    (val : Bool) : LoopM Unit := do
  callDriver (Driver.setButtonLamp d btn val)
  when (btn.type = .targetFloor)
    (setInside d val btn.floor)

/- The change that reports a press of the button. -/
def changeTypeByButton : ButtonType → ChangeType
  | .callUp => .buttonUpPressed
  | .callDown => .buttonDownPressed
  | .targetFloor => .insideButtonPresed

/- The floors with any request. -/
def allButtons
    (s : ElevatorState) : FloorSet :=
  (s.insideButtons.union s.upButtons).union s.downButtons

/-
  Whether the car stops at the floor it senses. The first
  read checks the bounds of the floor, so that the reads the
  source skips by short-circuit evaluation cannot fail.
-/
def shouldStop
    (d : BasicDriverInfo)
    (s : ElevatorState)
    (currentFloor : Int) :
    Except AssertionFailed Bool := do
  if ← s.insideButtons.get currentFloor d then
    return true
  let all := allButtons s
  match s.direction with
  | .up =>
      return (← s.upButtons.get currentFloor d) ||
        (!(← all.anyHigher currentFloor d) &&
          (← all.get currentFloor d))
  | .down =>
      return (← s.downButtons.get currentFloor d) ||
        (!(← all.anyLower currentFloor d) &&
          (← all.get currentFloor d))
  | .none =>
      return (decide (currentFloor = d.minFloor) &&
          (← all.get currentFloor d)) ||
        (decide (currentFloor = d.maxFloor) &&
          (← all.get currentFloor d))

/-
  The hall button `_clearDirectionButtonLamp` clears: at an
  end floor its only one, elsewhere the one in the direction
  of the car.
-/
def directionButton
    (d : BasicDriverInfo)
    (s : ElevatorState) :
    Option (CallDirection × Int) :=
  if s.lastFloor = d.maxFloor then
    some (.down, d.maxFloor)
  else if s.lastFloor = d.minFloor then
    some (.up, d.minFloor)
  else
    match s.direction with
    | .none => none
    | .down => some (.down, s.lastFloor)
    | .up => some (.up, s.lastFloor)

/- Clear the call, report it when it was set, and switch its
lamp off. -/
def clearDirectionButtonLamp
    (d : BasicDriverInfo)
    (now : MillisecondTime) : LoopM Unit := do
  let s ← get
  match directionButton d s.elevState with
  | none => pure ()
  | some (x, floor) => do
      let wasSet ← setCall d x false floor
      when wasSet (emitStateChange x.served floor now)
      callDriver (Driver.setButtonLamp d ⟨x.button, floor⟩ false)

------------------------------------------------------------
-- Entering the Loop
------------------------------------------------------------

/- Initialize one floor according to its lamps. -/
def initializeFloor
    (d : BasicDriverInfo)
    (i : Int) : LoopM Unit := do
  let s ← get
  let lit ← check (s.driver.getButtonLamp d ⟨.targetFloor, i⟩)
  when lit (setInside d true i)
  let s ← get
  let inside ← check (s.elevState.insideButtons.get i d)
  when inside
    (callDriver (Driver.setButtonLamp d ⟨.targetFloor, i⟩ true))
  let s ← get
  let up ← check (s.elevState.upButtons.get i d)
  callDriver (Driver.setButtonLamp d ⟨.callUp, i⟩ up)
  let down ← check (s.elevState.downButtons.get i d)
  callDriver (Driver.setButtonLamp d ⟨.callDown, i⟩ down)

/- Take the requests from the lamps that are lit, and the
flags from the others. -/
def initializeElevator
    (d : BasicDriverInfo) : LoopM Unit := do
  d.floors.forM (initializeFloor d)
  let s ← get
  when s.driver.stopLamp
    (modify fun s => { s with elevState.stopped := true })
  when s.driver.doorOpenLamp
    (modify fun s => { s with elevState.doorOpen := true })

/- The local variables at the start of the loop. -/
def freshLocals
    (s : Loop) : Loop :=
  { s with
    inFloorButtons := .empty
    inFloorButtonsLast := .empty
    stopLast := false
    stopNow := false
    prevFloor := intMin
    doorWaitingStarted := 0
    state := .normal }

/- What `_loop` does before its first iteration. -/
def enter
    (d : BasicDriverInfo) : LoopM Unit := do
  modify freshLocals
  initializeElevator d
  let s ← get
  when s.driver.stopLamp
    (modify fun s => { s with state := .stopped })

------------------------------------------------------------
-- Loop Body
------------------------------------------------------------

/- Keep the held buttons and the stop button of the last
iteration. -/
def beginCycle : LoopM Unit :=
  modify fun s => { s with
    inFloorButtonsLast := s.inFloorButtons
    inFloorButtons := .empty
    stopLast := s.stopNow }

/- Record that an inside button is held. -/
def holdInside
    (d : BasicDriverInfo)
    (floor : Int) : LoopM Unit := do
  let s ← get
  let r ← check (s.inFloorButtons.set true floor d)
  modify fun s => { s with inFloorButtons := r.1 }

/- A press counts as new when the lamp is off. -/
def newPress
    (d : BasicDriverInfo)
    (i : Inputs)
    (b : Button) : LoopM Unit := do
  setButtonLampAndFlag d b true
  when (b.type = .targetFloor) (setInside d true b.floor)
  emitStateChange (changeTypeByButton b.type) b.floor
    (i.now (.press b))

/- A button that is held is recorded, and reported when its
lamp is dark. -/
def handleButton
    (d : BasicDriverInfo)
    (i : Inputs)
    (b : Button) : LoopM Unit := do
  check (Driver.button d b)
  when (i.getButtonSignal b) do
    let s ← get
    let lit ← check (s.driver.getButtonLamp d b)
    when (!lit) (newPress d i b)
    when (b.type = .targetFloor) (holdInside d b.floor)

/- Read the buttons of all floors. -/
def handleButtons
    (d : BasicDriverInfo)
    (i : Inputs) : LoopM Unit :=
  (genFloorButtons d).forM (handleButton d i)

/- Set the published stop flag and the stop lamp. -/
def toggleStop : LoopM Unit :=
  modify fun s => { s with
    elevState.stopped := !s.driver.stopLamp
    driver := s.driver.setStopLamp (!s.driver.stopLamp) }

/- The car stops right where it is. -/
def stopPressed
    (i : Inputs) : LoopM Unit := do
  stopElevator
  modify fun s => { s with state := .stopped }
  let floor ← updateAndGetFloor (i.getFloor .stopButton)
  emitStateChange .otherChange floor (i.now .stopButton)

/- The movement is resumed in the previous direction. -/
def resumePressed
    (d : BasicDriverInfo)
    (i : Inputs) : LoopM Unit := do
  let s ← get
  startElevator d s.previousDirection (i.getFloor .resume)
  modify fun s => { s with state := .normal }
  let floor ← updateAndGetFloor (i.getFloor .stopButton)
  emitStateChange .otherChange floor (i.now .stopButton)

/-
  The stop button stops the car, and resumes the movement
  when it is pressed again.
-/
def handleStop
    (d : BasicDriverInfo)
    (i : Inputs) : LoopM Unit := do
  modify fun s => { s with stopNow := i.getStop }
  let s ← get
  when (s.stopNow ∧ s.stopNow ≠ s.stopLast) do
    toggleStop
    let s ← get
    if s.elevState.stopped then stopPressed i
    else resumePressed d i

/-
  An obstruction shuts the driver down; the loop goes on when
  it ends before the heartbeat is missed.
-/
def handleObstruction
    (d : BasicDriverInfo)
    (i : Inputs) : LoopM Unit :=
  when i.getObstruction (callDriver (Driver.shutdown d))

/- Accept a hall call. -/
def acceptCall
    (d : BasicDriverInfo)
    (i : Inputs)
    (x : CallDirection)
    (floor : Int) : LoopM Unit := do
  let _ ← setCall d x true floor
  callDriver (Driver.setButtonLamp d ⟨x.button, floor⟩ true)
  emitStateChange x.goingToServe floor (i.now .command)

/- Execute one command. -/
def executeCommand
    (d : BasicDriverInfo)
    (i : Inputs)
    (command : Command) : LoopM Unit :=
  match command.commandType with
  | .empty => pure ()
  | .callToFloorAndGoUp =>
      acceptCall d i .up command.targetFloor
  | .callToFloorAndGoDown =>
      acceptCall d i .down command.targetFloor
  | .turnOnLightUp =>
      callDriver (Driver.setButtonLamp d
        ⟨.callUp, command.targetFloor⟩ true)
  | .turnOffLightUp =>
      callDriver (Driver.setButtonLamp d
        ⟨.callUp, command.targetFloor⟩ false)
  | .turnOnLightDown =>
      callDriver (Driver.setButtonLamp d
        ⟨.callDown, command.targetFloor⟩ true)
  | .turnOffLightDown =>
      callDriver (Driver.setButtonLamp d
        ⟨.callDown, command.targetFloor⟩ false)

/- Take a command from the queue, if there is one. -/
def handleCommand
    (d : BasicDriverInfo)
    (i : Inputs) : LoopM Unit :=
  match i.tryDequeue with
  | none => pure ()
  | some command => do
      let s ← get
      check (assert
        (command.targetElevatorId = s.elevState.id ∨
          command.targetElevatorId = Command.anyId)
        "command to other elevator")
      executeCommand d i command

/- The safety precautions at the end floors. -/
def safetyStops
    (d : BasicDriverInfo)
    (currentFloor : Int) : LoopM Unit := do
  let s ← get
  when (currentFloor = d.maxFloor ∧
      s.elevState.direction = .up)
    stopElevator
  let s ← get
  when (currentFloor = d.minFloor ∧
      s.elevState.direction = .down)
    stopElevator

/- Show the floor, and report it when it has changed. -/
def reportFloor
    (d : BasicDriverInfo)
    (i : Inputs)
    (currentFloor : Int) : LoopM Unit := do
  when (currentFloor ≠ intMin)
    (callDriver (Driver.setFloorIndicator d currentFloor))
  let s ← get
  when (currentFloor ≠ s.prevFloor)
    (emitStateChange .otherChange currentFloor
      (i.now .floorChange))

/- The sensor read after command handling. -/
def senseFloor
    (d : BasicDriverInfo)
    (i : Inputs) : LoopM Int := do
  let currentFloor ← updateAndGetFloor (i.getFloor .loop)
  safetyStops d currentFloor
  reportFloor d i currentFloor
  return currentFloor

/- Serve the floor the car stands at: open the doors. -/
def serveFloor
    (d : BasicDriverInfo)
    (i : Inputs)
    (currentFloor : Int) : LoopM Unit := do
  setButtonLampAndFlag d ⟨.targetFloor, currentFloor⟩ false
  modify fun s => { s with
    driver := s.driver.setDoorOpenLamp true
    elevState.doorOpen := true
    state := .waitingForInButton
    doorWaitingStarted := i.now .doorOpened }
  stopElevator
  setInside d false currentFloor
  emitStateChange .served currentFloor (i.now .served)

/-
  Start in the previous direction for an inside request that
  lies there; otherwise the start decides by itself.
-/
def startForRequests
    (d : BasicDriverInfo)
    (i : Inputs) : LoopM Unit := do
  let s ← get
  let priority ← check (priorityFloorsInDirection d
    s.elevState s.previousDirection)
  if priority then
    startElevator d s.previousDirection (i.getFloor .depart)
  else
    startElevator d .none (i.getFloor .depart)

/- Leave the floor when there is a request to serve. -/
def depart
    (d : BasicDriverInfo)
    (i : Inputs)
    (currentFloor : Int) : LoopM Unit := do
  let s ← get
  when (allButtons s.elevState).hasAny do
    startForRequests d i
    emitStateChange .otherChange currentFloor
      (i.now .departed)
  clearDirectionButtonLamp d (i.now .directionServed)

/- The stop decision of the local state `Normal`. -/
def arrives
    (d : BasicDriverInfo)
    (s : ElevatorState)
    (currentFloor : Int) :
    Except AssertionFailed Bool :=
  if currentFloor ≠ intMin then
    shouldStop d s currentFloor
  else .ok false

/- The local state of a car on its way, or without anything
to do. -/
def handleNormal
    (d : BasicDriverInfo)
    (i : Inputs)
    (currentFloor : Int) : LoopM Unit := do
  let s ← get
  let arrived ← check (arrives d s.elevState currentFloor)
  if arrived then
    serveFloor d i currentFloor
  else
    when (s.elevState.direction = .none)
      (depart d i currentFloor)

/- Drop both hall calls when the doors close by timeout. -/
def closeByTimeout
    (d : BasicDriverInfo)
    (i : Inputs)
    (currentFloor : Int) : LoopM Unit := do
  let _ ← setCall d .down false currentFloor
  let _ ← setCall d .up false currentFloor
  callDriver (Driver.setButtonLamp d
    ⟨.callUp, currentFloor⟩ false)
  callDriver (Driver.setButtonLamp d
    ⟨.callDown, currentFloor⟩ false)
  emitStateChange .servedUp currentFloor
    (i.now .timeoutServedUp)
  emitStateChange .servedDown currentFloor
    (i.now .timeoutServedDown)

/- The doors have been open for longer than the threshold. -/
def doorTimeout
    (i : Inputs)
    (s : Loop) : Bool :=
  s.doorWaitingStarted + waitThreshold < i.now .doorTimeout

/- The doors are shut and the local state is normal again. -/
def doorShut
    (s : Loop) : Loop :=
  { s with
    driver := s.driver.setDoorOpenLamp false
    elevState.doorOpen := false
    state := .normal }

/-
  The doors close on a new inside press, or when they have
  been open for too long.
-/
def handleWaiting
    (d : BasicDriverInfo)
    (i : Inputs)
    (currentFloor : Int) : LoopM Unit := do
  let s ← get
  let timeout := doorTimeout i s
  when (FloorSet.hasAdditional s.inFloorButtonsLast
      s.inFloorButtons ∨ timeout) do
    modify doorShut
    emitStateChange .otherChange currentFloor
      (i.now .doorClosed)
    if timeout then closeByTimeout d i currentFloor
    else
      clearDirectionButtonLamp d (i.now .directionServed)

/- Do what is needed depending on the local state. -/
def handleState
    (d : BasicDriverInfo)
    (i : Inputs)
    (currentFloor : Int) : LoopM Unit := do
  let s ← get
  match s.state with
  | .normal => handleNormal d i currentFloor
  | .waitingForInButton => handleWaiting d i currentFloor
  | .stopped => pure ()

/- Report that the elevator is alive, when it has not
reported anything for long. -/
def finishCycle
    (i : Inputs)
    (currentFloor : Int) : LoopM Unit := do
  let s ← get
  when (s.lastStateUpdate + keepAlive ≤
      i.now .keepAliveTest)
    (emitStateChange .keepAlive currentFloor
      (i.now .keepAlive))
  modify fun s => { s with prevFloor := currentFloor }

/- From the start of an iteration to the stop button. -/
def pollButtons
    (d : BasicDriverInfo)
    (i : Inputs) : LoopM Unit := do
  beginCycle
  assertConsistency d
  handleButtons d i
  handleStop d i

/- From the obstruction sensor to the command. -/
def pollCommands
    (d : BasicDriverInfo)
    (i : Inputs) : LoopM Unit := do
  handleObstruction d i
  handleCommand d i

/- From the local state to the end of the iteration. -/
def react
    (d : BasicDriverInfo)
    (i : Inputs)
    (currentFloor : Int) : LoopM Unit := do
  handleState d i currentFloor
  finishCycle i currentFloor

/- From the start of an iteration to its local state. -/
def approach
    (d : BasicDriverInfo)
    (i : Inputs) : LoopM Int := do
  pollButtons d i
  pollCommands d i
  senseFloor d i

/- One iteration of `_loop`. -/
def loopBody
    (d : BasicDriverInfo)
    (i : Inputs) : LoopM Unit := do
  let currentFloor ← approach d i
  react d i currentFloor

------------------------------------------------------------
-- Steps of the Loop
------------------------------------------------------------

/-
  A run of the loop goes from the end of one iteration to the
  end of the next. An iteration that fails a general
  assertion runs the deferred stop, and the restart wrapper
  enters the loop again.
-/
inductive Step
    (d : BasicDriverInfo)
    (i : Inputs)
    (s s' : Loop) : Prop where
  | iterate
      (hRun : loopBody d i s = .ok () s')
  | restart
      (e : AssertionFailed)
      (t : Loop)
      (hRun : loopBody d i s = .error e t)
      (hTag : e.tag = .generall)
      (hEnter : enter d (halted t) = .ok () s')

/- The loop's variables before the loop has been entered. -/
def constructed
    (elevState : ElevatorState)
    (driver : Driver) : Loop where
  elevState := elevState
  previousDirection := .none
  lastStateUpdate := 0
  driver := driver.stopElevator
  outState := []
  inFloorButtons := .empty
  inFloorButtonsLast := .empty
  stopLast := false
  stopNow := false
  prevFloor := intMin
  doorWaitingStarted := 0
  state := .normal

/- The elevator the constructor makes; it stops the motor. -/
def create
    (d : BasicDriverInfo)
    (id : Int)
    (driver : Driver) : Loop :=
  constructed
    { ElevatorState.default with
      lastFloor := d.minFloor
      id := id }
    driver

/- Recovery replaces the state, but not the direction. -/
def recover
    (state : ElevatorState)
    (s : Loop) : Loop :=
  { s with
    elevState := { state with direction := .none } }

/-
  The loop has just been entered by a fresh or a recovered
  elevator.
-/
inductive Started
    (d : BasicDriverInfo)
    (s : Loop) : Prop where
  | fresh
      (id : Int)
      (driver : Driver)
      (hEnter : enter d (create d id driver) = .ok () s)
  | recovered
      (id : Int)
      (driver : Driver)
      (state : ElevatorState)
      (hEnter :
        enter d (recover state (create d id driver)) =
          .ok () s)

end Loop

end ElevatorControl
