import ElevatorControl.FloorSet

/-
  The state one elevator publishes, the changes it reports
  and the commands it receives.

  `CallDirection` ranges over the two directions of a hall
  call and names the button, the commands and the changes
  that belong to a direction.

  Key definitions include:
    * `ChangeType`
    * `ElevatorState`
    * `ElevatorState.assertConsistency`
    * `StateChange`
    * `Command`
    * `CallDirection`
-/

------------------------------------------------------------
-- Elevator States
------------------------------------------------------------

namespace ElevatorControl

/- Milliseconds, as a signed machine word. -/
abbrev MillisecondTime : Type := Int

/- What a state change reports. -/
inductive ChangeType where
  | none
  | keepAlive
  | insideButtonPresed
  | buttonDownPressed
  | buttonUpPressed
  | goingToServeUp
  | goingToServeDown
  | served
  | servedUp
  | servedDown
  | otherChange
  deriving DecidableEq, Repr

/- The published state of one elevator. -/
structure ElevatorState where
  id : Int
  timestamp : MillisecondTime
  lastFloor : Int
  direction : Direction
  stopped : Bool
  doorOpen : Bool
  insideButtons : FloorSet
  upButtons : FloorSet
  downButtons : FloorSet
  deriving DecidableEq, Repr

namespace ElevatorState

/- The state of the default constructor. -/
def default : ElevatorState where
  id := intMin
  timestamp := 0
  lastFloor := intMin
  direction := .none
  stopped := false
  doorOpen := true
  insideButtons := .empty
  upButtons := .empty
  downButtons := .empty

/-
  The test of the direction against its three values always
  succeeds and is left out.
-/
def assertConsistency
    (s : ElevatorState)
    (d : BasicDriverInfo) :
    Except AssertionFailed Unit := do
  assert (0 ≤ s.id) "invalid elevator id"
  assert (← s.insideButtons.consistent d)
    "invalid floor set"
  assert (← s.upButtons.consistent d) "invalid floor set"
  assert (← s.downButtons.consistent d)
    "invalid floor set"
  assert (d.minFloor ≤ s.lastFloor) "invalid lastFloor"

end ElevatorState

/- A state together with what changed. -/
structure StateChange where
  changeType : ChangeType
  changeFloor : Int
  state : ElevatorState
  deriving DecidableEq, Repr

------------------------------------------------------------
-- Commands
------------------------------------------------------------

/- What an elevator may be told to do. -/
inductive CommandType where
  | empty
  | callToFloorAndGoUp
  | callToFloorAndGoDown
  | turnOnLightUp
  | turnOffLightUp
  | turnOnLightDown
  | turnOffLightDown
  deriving DecidableEq, Repr

/- A command to one elevator or to all, about a floor. -/
structure Command where
  commandType : CommandType
  targetElevatorId : Int
  targetFloor : Int
  deriving DecidableEq, Repr

namespace Command

/- The target of a command for every elevator. -/
def anyId : Int := intMax

end Command

------------------------------------------------------------
-- Directions of Hall Calls
------------------------------------------------------------

/- The direction of a hall call. -/
inductive CallDirection where
  | up
  | down
  deriving DecidableEq, Repr

namespace CallDirection

/- The direction of the motor. -/
def direction : CallDirection → Direction
  | .up => .up
  | .down => .down

/- The hall button of the call. -/
def button : CallDirection → ButtonType
  | .up => .callUp
  | .down => .callDown

/- The command to serve the call. -/
def call : CallDirection → CommandType
  | .up => .callToFloorAndGoUp
  | .down => .callToFloorAndGoDown

/- The command to switch the lamp of the call on. -/
def turnOn : CallDirection → CommandType
  | .up => .turnOnLightUp
  | .down => .turnOnLightDown

/- The command to switch the lamp of the call off. -/
def turnOff : CallDirection → CommandType
  | .up => .turnOffLightUp
  | .down => .turnOffLightDown

/- The change that reports the press. -/
def pressed : CallDirection → ChangeType
  | .up => .buttonUpPressed
  | .down => .buttonDownPressed

/- The change that acknowledges the call. -/
def goingToServe : CallDirection → ChangeType
  | .up => .goingToServeUp
  | .down => .goingToServeDown

/- The change that reports the call as served. -/
def served : CallDirection → ChangeType
  | .up => .servedUp
  | .down => .servedDown

end CallDirection

/- The hall calls an elevator serves in one direction. -/
def ElevatorState.calls
    (s : ElevatorState) : CallDirection → FloorSet
  | .up => s.upButtons
  | .down => s.downButtons

end ElevatorControl
