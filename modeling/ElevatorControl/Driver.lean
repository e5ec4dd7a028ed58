import Mathlib.Logic.Function.Basic
import Mathlib.Tactic.Common

/-
  The middle level of the elevator: assertions, buttons,
  directions, the floor bounds, and the driver that owns the
  lamps and the motor.

  Sensors and button signals are inputs of the control loop
  and are not part of the driver's state. The lamp and button
  tables of the driver cover exactly the floors between its
  bounds.

  Key definitions include:
    * `AssertionFailed`
    * `Button`
    * `Direction`
    * `BasicDriverInfo`
    * `Driver`
    * `Driver.motor`
-/

------------------------------------------------------------
-- Assertions
------------------------------------------------------------

namespace ElevatorControl

/- The value of `INT_MIN`. -/
def intMin : Int := -2147483648

theorem intMin_lt_zero : intMin < 0 := by decide

/- The value of `INT_MAX`. -/
def intMax : Int := 2147483647

/- The kinds of failed assertion. -/
inductive AssertionTag where
  | generall
  | unimplemented
  | unreachable
  deriving DecidableEq, Repr

/- The exception a failed assertion throws. -/
structure AssertionFailed where
  what : String
  tag : AssertionTag
  deriving DecidableEq, Repr

/- A conditional assertion with its message. -/
def assert
    (cond : Prop)
    [Decidable cond]
    (msg : String) :
    Except AssertionFailed Unit :=
  if cond then .ok () else .error ⟨msg, .generall⟩

@[simp] theorem assert_true
    {cond : Prop}
    [Decidable cond]
    {msg : String}
    (hCond : cond) :
    assert cond msg = .ok () := by
  simp [assert, hCond]

@[simp] theorem assert_false
    {cond : Prop}
    [Decidable cond]
    {msg : String}
    (hCond : ¬ cond) :
    assert cond msg = .error ⟨msg, .generall⟩ := by
  simp [assert, hCond]

------------------------------------------------------------
-- Buttons and Directions
------------------------------------------------------------

/- The kinds of button on the panels. -/
inductive ButtonType where
  | callUp
  | callDown
  | targetFloor
  deriving DecidableEq, Repr

/- A button with the floor it belongs to. -/
structure Button where
  type : ButtonType
  floor : Int
  deriving DecidableEq, Repr

/- The direction of a movement. -/
inductive Direction where
  | none
  | up
  | down
  deriving DecidableEq, Repr

------------------------------------------------------------
-- Floor Bounds
------------------------------------------------------------

/- The lowest and the highest floor. -/
structure BasicDriverInfo where
  minFloor : Int
  maxFloor : Int
  deriving DecidableEq, Repr

namespace BasicDriverInfo

/- A floor lies between the bounds. -/
def InRange
    (d : BasicDriverInfo)
    (floor : Int) : Prop :=
  d.minFloor ≤ floor ∧ floor ≤ d.maxFloor

instance
    (d : BasicDriverInfo)
    (floor : Int) :
    Decidable (d.InRange floor) := by
  unfold InRange
  infer_instance

/- The floors in the order in which the loops visit them. -/
def floors
    (d : BasicDriverInfo) : List Int :=
  (List.range (d.maxFloor + 1 - d.minFloor).toNat).map
    (fun k : Nat => d.minFloor + k)

/- The loops visit exactly the floors between the bounds. -/
theorem mem_floors
    {d : BasicDriverInfo}
    {floor : Int} :
    floor ∈ d.floors ↔ d.InRange floor := by
  simp only [floors, List.mem_map, List.mem_range, InRange]
  constructor
  · rintro ⟨k, hk, rfl⟩
    omega
  · intro hRange
    exact ⟨(floor - d.minFloor).toNat, by omega, by omega⟩

end BasicDriverInfo

/-
  A shaft the software supports: at least two and at most 64
  floors, none of which is the sensor's value for an unknown
  floor.
-/
structure Shaft extends BasicDriverInfo where
  ordered : minFloor < maxFloor
  span : maxFloor - minFloor ≤ 63
  sentinel : intMin < minFloor

------------------------------------------------------------
-- Driver
------------------------------------------------------------

/-
  The state of the driver: the direction of the last start,
  the two motor registers and the lamps. `motorDir` is set
  for a downward movement and `motorSpeed` is the analog
  value written to the motor.
-/
structure Driver where
  lastDirection : Direction
  motorDir : Bool
  motorSpeed : Int
  buttonLamp : Button → Bool
  stopLamp : Bool
  doorOpenLamp : Bool
  floorInd1 : Bool
  floorInd2 : Bool

namespace Driver

/- The direction in which the motor moves the car. -/
def motor
    (v : Driver) : Direction :=
  if v.motorSpeed = 0 then .none
  else if v.motorDir then .down
  else .up

/- The lamp table has an entry for the floors in range. -/
def lamp
    (d : BasicDriverInfo)
    (btn : Button) :
    Except AssertionFailed Unit := do
  assert (btn.floor ≤ d.maxFloor) "out-of-bounds"
  assert (d.minFloor ≤ btn.floor) "out-of-bounds"

/- The button table covers the same floors. -/
def button
    (d : BasicDriverInfo)
    (btn : Button) :
    Except AssertionFailed Unit := do
  assert (btn.floor ≤ d.maxFloor) "out-of-bounds"
  assert (d.minFloor ≤ btn.floor) "out-of-bounds"

/- Switch a lamp that exists on or off. -/
def setButtonLamp
    (d : BasicDriverInfo)
    (btn : Button)
    (state : Bool)
    (v : Driver) :
    Except AssertionFailed Driver := do
  lamp d btn
  return { v with
    buttonLamp := Function.update v.buttonLamp btn state }

/- Switch the stop lamp on or off. -/
def setStopLamp
    (state : Bool)
    (v : Driver) : Driver :=
  { v with stopLamp := state }

/- Switch the door lamp on or off. -/
def setDoorOpenLamp
    (state : Bool)
    (v : Driver) : Driver :=
  { v with doorOpenLamp := state }

/- The indicator shows the low two bits of the floor. -/
def setFloorIndicator
    (d : BasicDriverInfo)
    (floor : Int)
    (v : Driver) :
    Except AssertionFailed Driver := do
  assert (d.minFloor ≤ floor) "floor out of bounds"
  assert (floor ≤ d.maxFloor) "floor out of bounds"
  return { v with
    floorInd1 := (floor - 1) / 2 % 2 = 1
    floorInd2 := (floor - 1) % 2 = 1 }

/- The lamp of a button that exists is lit. -/
def getButtonLamp
    (d : BasicDriverInfo)
    (btn : Button)
    (v : Driver) :
    Except AssertionFailed Bool := do
  lamp d btn
  return v.buttonLamp btn

/- Run the motor in a direction, with a positive speed. -/
def setMotorSpeed
    (direction : Direction)
    (speed : Int)
    (v : Driver) :
    Except AssertionFailed Driver := do
  assert (0 < speed) "Speed must be positive"
  return { v with
    lastDirection := direction
    motorDir := direction = .down
    motorSpeed := 2048 + 4 * speed }

/- Stopping reverses the direction and cuts the speed. -/
def stopElevator
    (v : Driver) : Driver :=
  { v with
    motorDir := v.lastDirection = .up
    motorSpeed := 0 }

/- Switch off a lamp that exists. -/
def clearLampIf
    (d : BasicDriverInfo)
    (cond : Prop)
    [Decidable cond]
    (btn : Button)
    (v : Driver) :
    Except AssertionFailed Driver :=
  if cond then setButtonLamp d btn false v else .ok v

/- Switch off the lamps of one floor; the hall lamps at the
ends that have no button are left out. -/
def initFloor
    (d : BasicDriverInfo)
    (v : Driver)
    (i : Int) :
    Except AssertionFailed Driver := do
  let v ← clearLampIf d (i ≠ d.maxFloor) ⟨.callUp, i⟩ v
  let v ← clearLampIf d (i ≠ d.minFloor) ⟨.callDown, i⟩ v
  setButtonLamp d ⟨.targetFloor, i⟩ false v

/- Switch off every lamp. -/
def init
    (d : BasicDriverInfo)
    (v : Driver) :
    Except AssertionFailed Driver := do
  let v ← d.floors.foldlM (initFloor d) v
  return setDoorOpenLamp false (setStopLamp false v)

/- Stop the motor and switch off every lamp. -/
def shutdown
    (d : BasicDriverInfo)
    (v : Driver) :
    Except AssertionFailed Driver :=
  init d (stopElevator v)

end Driver

end ElevatorControl
