import ElevatorControl.Driver
import ElevatorControl.Library.Client

/-
  The driver on the channels of the hardware.

  The driver stores nothing but the direction of the last
  start: lamps, motor and sensors are bits of numbered
  channels. The buttons that do not exist share one channel.
  A program that reads no lamp or signal of a button that
  does not exist cannot tell the channels from the record
  that `Driver` is.

  Key definitions include:
    * `Line` and `Line.channel`
    * `ChannelDriver`
    * `ChannelDriver.step`
    * `ChannelDriver.Shows`

  Key theorems include:
    * `Line.channel_injective`
    * `ChannelDriver.agree_step`
    * `ChannelDriver.refines`
    * `ChannelDriver.indicator_read_back`
-/

------------------------------------------------------------
-- Channels
------------------------------------------------------------

namespace ElevatorControl

namespace Channel

/- In port 4. -/
def obstruction : Int := 0x300 + 23
def stop : Int := 0x300 + 22
def floorCommand1 : Int := 0x300 + 21
def floorCommand2 : Int := 0x300 + 20
def floorCommand3 : Int := 0x300 + 19
def floorCommand4 : Int := 0x300 + 18
def floorUp1 : Int := 0x300 + 17
def floorUp2 : Int := 0x300 + 16

/- In port 1. -/
def floorDown2 : Int := 0x200 + 0
def floorUp3 : Int := 0x200 + 1
def floorDown3 : Int := 0x200 + 2
def floorDown4 : Int := 0x200 + 3
def sensor1 : Int := 0x200 + 4
def sensor2 : Int := 0x200 + 5
def sensor3 : Int := 0x200 + 6
def sensor4 : Int := 0x200 + 7

/- Out port 3. -/
def motorDir : Int := 0x300 + 15
def lightStop : Int := 0x300 + 14
def lightCommand1 : Int := 0x300 + 13
def lightCommand2 : Int := 0x300 + 12
def lightCommand3 : Int := 0x300 + 11
def lightCommand4 : Int := 0x300 + 10
def lightUp1 : Int := 0x300 + 9
def lightUp2 : Int := 0x300 + 8

/- Out port 2. -/
def lightDown2 : Int := 0x300 + 7
def lightUp3 : Int := 0x300 + 6
def lightDown3 : Int := 0x300 + 5
def lightDown4 : Int := 0x300 + 4
def doorOpen : Int := 0x300 + 3
def floorInd2 : Int := 0x300 + 1
def floorInd1 : Int := 0x300 + 0

/- Out port 0. -/
def motor : Int := 0x100 + 0

/- The channels of what does not exist. -/
def floorDown1 : Int := -1
def floorUp4 : Int := -1
def lightDown1 : Int := -1
def lightUp4 : Int := -1

/- The lamps, one row for each floor. -/
def lampChannelMatrix : List (List Int) :=
  [[lightUp1, lightDown1, lightCommand1],
    [lightUp2, lightDown2, lightCommand2],
    [lightUp3, lightDown3, lightCommand3],
    [lightUp4, lightDown4, lightCommand4]]

/- The buttons, one row for each floor. -/
def buttonChannelMatrix : List (List Int) :=
  [[floorUp1, floorDown1, floorCommand1],
    [floorUp2, floorDown2, floorCommand2],
    [floorUp3, floorDown3, floorCommand3],
    [floorUp4, floorDown4, floorCommand4]]

end Channel

/- The value of the enumerator. -/
def ButtonType.index : ButtonType → Nat
  | .callUp => 0
  | .callDown => 1
  | .targetFloor => 2

/- The entry of a table for a button at one of its floors. -/
def Channel.lookup
    (matrix : List (List Int))
    (btn : Button) : Int :=
  (matrix.getD (btn.floor - 1).toNat []).getD
    btn.type.index 0

/- The channel of a button, if it is at one of the floors of
the table. -/
def Channel.find
    (matrix : List (List Int))
    (btn : Button) : Except AssertionFailed Int := do
  assert (btn.floor ≤ matrix.length) "out-of-bounds"
  assert (1 ≤ btn.floor) "out-of-bounds"
  return Channel.lookup matrix btn

/- The channel of the lamp of a button. -/
def Channel.lamp
    (btn : Button) : Except AssertionFailed Int :=
  Channel.find Channel.lampChannelMatrix btn

/- The channel of a button. -/
def Channel.button
    (btn : Button) : Except AssertionFailed Int :=
  Channel.find Channel.buttonChannelMatrix btn

/- The floors the driver is constructed with. -/
def fourFloors : Shaft where
  minFloor := 1
  maxFloor := 4
  ordered := by decide
  span := by decide
  sentinel := by decide

------------------------------------------------------------
-- Operations
------------------------------------------------------------

/- The operations of the driver. -/
inductive DriverOp where
  | setButtonLamp (btn : Button) (state : Bool)
  | setStopLamp (state : Bool)
  | setDoorOpenLamp (state : Bool)
  | setFloorIndicator (floor : Int)
  | getButtonLamp (btn : Button)
  | getStopLamp
  | getDoorOpenLamp
  | getFloorIndicator
  | getButtonSignal (btn : Button)
  | stopElevator
  | getFloor
  | getStop
  | getObstruction
  | setMotorSpeed (direction : Direction) (speed : Int)
  deriving DecidableEq

/- What an operation returns. -/
inductive DriverValue where
  | unit
  | bool (b : Bool)
  | int (n : Int)
  deriving DecidableEq

/-
  The driver with its channels: the bits of the digital ones
  and the values last written to the analog ones.
-/
structure ChannelDriver where
  lastDirection : Direction
  setBits : Int → Bool
  analog : Int → Int

namespace ChannelDriver

open Channel

/- Write a digital channel. -/
def setBit
    (channel : Int)
    (value : Bool)
    (s : ChannelDriver) : ChannelDriver :=
  { s with
    setBits := Function.update s.setBits channel value }

/- Write an analog channel. -/
def writeAnalog
    (channel value : Int)
    (s : ChannelDriver) : ChannelDriver :=
  { s with
    analog := Function.update s.analog channel value }

/- The channels the hardware writes. -/
def inputs : List Int :=
  [obstruction, stop, floorCommand1, floorCommand2,
    floorCommand3, floorCommand4, floorUp1, floorUp2,
    floorDown2, floorUp3, floorDown3, floorDown4, sensor1,
    sensor2, sensor3, sensor4]

/- The hardware changes its channels, or does not. -/
def sense
    (bits : Option (Int → Bool))
    (s : ChannelDriver) : ChannelDriver :=
  match bits with
  | none => s
  | some bits =>
      { s with
        setBits := fun c =>
          if c ∈ inputs then bits c else s.setBits c }

/- Write the low two bits of the floor to the indicator. -/
def setFloorIndicator
    (floor : Int)
    (s : ChannelDriver) :
    Except AssertionFailed ChannelDriver := do
  assert (1 ≤ floor) "floor out of bounds"
  assert (floor ≤ 4) "floor out of bounds"
  -- the numbers start from 0 in the backend
  let floor := (floor - 1).toNat
  return (s.setBit floorInd1
    (decide (floor &&& 2 = 2))).setBit floorInd2
      (decide (floor &&& 1 = 1))

/- Read the floor back from the two bits. -/
def getFloorIndicator
    (s : ChannelDriver) : Int :=
  (((s.setBits floorInd1).toNat <<< 1) |||
    (s.setBits floorInd2).toNat : Nat) + 1

/- Write the direction, and the speed with its offset. -/
def setMotorSpeed
    (direction : Direction)
    (speed : Int)
    (s : ChannelDriver) :
    Except AssertionFailed ChannelDriver := do
  assert (0 < speed) "Speed must be positive"
  let s := { s with lastDirection := direction }
  return (s.setBit motorDir
    (decide (direction = Direction.down))).writeAnalog motor
      (2048 + 4 * speed)

/- Reverse the direction and cut the speed. -/
def stopElevator
    (s : ChannelDriver) : ChannelDriver :=
  (s.setBit motorDir
    (decide (s.lastDirection = Direction.up))).writeAnalog
      motor 0

/- The floor of the lowest sensor that senses the car. -/
def getFloor
    (s : ChannelDriver) : Int :=
  if s.setBits sensor1 then 1
  else if s.setBits sensor2 then 2
  else if s.setBits sensor3 then 3
  else if s.setBits sensor4 then 4
  else intMin

/- An operation that throws leaves the channels. -/
def written
    (s : ChannelDriver)
    (result : Except AssertionFailed ChannelDriver) :
    Except AssertionFailed DriverValue × ChannelDriver :=
  match result with
  | .ok t => (.ok .unit, t)
  | .error e => (.error e, s)

/- One call of the driver on the channels. -/
def call
    (op : DriverOp)
    (s : ChannelDriver) :
    Except AssertionFailed DriverValue × ChannelDriver :=
  match op with
  | .setButtonLamp btn state =>
      s.written ((lamp btn).map fun c => s.setBit c state)
  | .setStopLamp state =>
      s.written (.ok (s.setBit lightStop state))
  | .setDoorOpenLamp state =>
      s.written (.ok (s.setBit doorOpen state))
  | .setFloorIndicator floor =>
      s.written (s.setFloorIndicator floor)
  | .getButtonLamp btn =>
      ((lamp btn).map fun c => .bool (s.setBits c), s)
  | .getStopLamp => (.ok (.bool (s.setBits lightStop)), s)
  | .getDoorOpenLamp => (.ok (.bool (s.setBits doorOpen)), s)
  | .getFloorIndicator => (.ok (.int s.getFloorIndicator), s)
  | .getButtonSignal btn =>
      ((button btn).map fun c => .bool (s.setBits c), s)
  | .stopElevator => s.written (.ok s.stopElevator)
  | .getFloor => (.ok (.int s.getFloor), s)
  | .getStop => (.ok (.bool (s.setBits stop)), s)
  | .getObstruction => (.ok (.bool (s.setBits obstruction)), s)
  | .setMotorSpeed direction speed =>
      s.written (s.setMotorSpeed direction speed)

/- One call, and what has happened before it. -/
def step
    (bits : Option (Int → Bool))
    (op : DriverOp)
    (s : ChannelDriver) :
    Except AssertionFailed DriverValue × ChannelDriver :=
  (s.sense bits).call op

end ChannelDriver

------------------------------------------------------------
-- Driver and Sensors
------------------------------------------------------------

/- What the hardware tells the driver. -/
structure Sensors where
  floor : Int → Bool
  button : Button → Bool
  stop : Bool
  obstruction : Bool

/- The sensor of a floor. -/
def Channel.sensor
    (floor : Int) : Int :=
  if floor = 1 then sensor1
  else if floor = 2 then sensor2
  else if floor = 3 then sensor3
  else sensor4

/- What the input channels tell. -/
def Sensors.of
    (bits : Int → Bool) : Sensors where
  floor f := bits (Channel.sensor f)
  button btn :=
    bits (Channel.lookup Channel.buttonChannelMatrix btn)
  stop := bits Channel.stop
  obstruction := bits Channel.obstruction

/- The record of the driver and what the hardware says. -/
structure Panel where
  driver : Driver
  sensors : Sensors

namespace Panel

/- The hardware changes its sensors, or does not. -/
def sense
    (bits : Option (Int → Bool))
    (p : Panel) : Panel :=
  match bits with
  | none => p
  | some bits => { p with sensors := Sensors.of bits }

/- The lowest floor with the car, if there is one. -/
def getFloor
    (p : Panel) : Int :=
  (fourFloors.floors.find? p.sensors.floor).getD intMin

/- The floor the two bits of the record show. -/
def getFloorIndicator
    (p : Panel) : Int :=
  (if p.driver.floorInd1 then 2 else 0) +
    (if p.driver.floorInd2 then 1 else 0) + 1

/- An operation that throws leaves the record. -/
def written
    (p : Panel)
    (result : Except AssertionFailed Driver) :
    Except AssertionFailed DriverValue × Panel :=
  match result with
  | .ok v => (.ok .unit, { p with driver := v })
  | .error e => (.error e, p)

/- The same call on the record of the driver. -/
def call
    (op : DriverOp)
    (p : Panel) :
    Except AssertionFailed DriverValue × Panel :=
  let d := fourFloors.toBasicDriverInfo
  match op with
  | .setButtonLamp btn state =>
      p.written (p.driver.setButtonLamp d btn state)
  | .setStopLamp state =>
      p.written (.ok (p.driver.setStopLamp state))
  | .setDoorOpenLamp state =>
      p.written (.ok (p.driver.setDoorOpenLamp state))
  | .setFloorIndicator floor =>
      p.written (p.driver.setFloorIndicator d floor)
  | .getButtonLamp btn =>
      ((p.driver.getButtonLamp d btn).map DriverValue.bool, p)
  | .getStopLamp => (.ok (.bool p.driver.stopLamp), p)
  | .getDoorOpenLamp => (.ok (.bool p.driver.doorOpenLamp), p)
  | .getFloorIndicator => (.ok (.int p.getFloorIndicator), p)
  | .getButtonSignal btn =>
      ((Driver.button d btn).map fun _ =>
        .bool (p.sensors.button btn), p)
  | .stopElevator => p.written (.ok p.driver.stopElevator)
  | .getFloor => (.ok (.int p.getFloor), p)
  | .getStop => (.ok (.bool p.sensors.stop), p)
  | .getObstruction => (.ok (.bool p.sensors.obstruction), p)
  | .setMotorSpeed direction speed =>
      p.written (p.driver.setMotorSpeed direction speed)

/- The hardware acts, and then the driver is called. -/
def step
    (bits : Option (Int → Bool))
    (op : DriverOp)
    (p : Panel) :
    Except AssertionFailed DriverValue × Panel :=
  (p.sense bits).call op

end Panel

------------------------------------------------------------
-- Lines
------------------------------------------------------------

/- What the digital channels are for. -/
inductive Line where
  | lamp (btn : Button)
  | signal (btn : Button)
  | sensor (floor : Int)
  | stopLamp
  | doorOpenLamp
  | floorInd1
  | floorInd2
  | motorDir
  | stop
  | obstruction
  deriving DecidableEq

namespace Line

/- The number of the channel of a line. -/
def channel : Line → Int
  | .lamp btn =>
      Channel.lookup Channel.lampChannelMatrix btn
  | .signal btn =>
      Channel.lookup Channel.buttonChannelMatrix btn
  | .sensor floor => Channel.sensor floor
  | .stopLamp => Channel.lightStop
  | .doorOpenLamp => Channel.doorOpen
  | .floorInd1 => Channel.floorInd1
  | .floorInd2 => Channel.floorInd2
  | .motorDir => Channel.motorDir
  | .stop => Channel.stop
  | .obstruction => Channel.obstruction

/- The bit of the record and the sensors. -/
def value
    (p : Panel) : Line → Bool
  | .lamp btn => p.driver.buttonLamp btn
  | .signal btn => p.sensors.button btn
  | .sensor floor => p.sensors.floor floor
  | .stopLamp => p.driver.stopLamp
  | .doorOpenLamp => p.driver.doorOpenLamp
  | .floorInd1 => p.driver.floorInd1
  | .floorInd2 => p.driver.floorInd2
  | .motorDir => p.driver.motorDir
  | .stop => p.sensors.stop
  | .obstruction => p.sensors.obstruction

/- The buttons that exist. -/
def buttons : List Button :=
  [⟨.callUp, 1⟩, ⟨.callUp, 2⟩, ⟨.callUp, 3⟩, ⟨.callDown, 2⟩,
    ⟨.callDown, 3⟩, ⟨.callDown, 4⟩, ⟨.targetFloor, 1⟩,
    ⟨.targetFloor, 2⟩, ⟨.targetFloor, 3⟩, ⟨.targetFloor, 4⟩]

/- The lines the driver writes, and those the hardware
does. -/
def outputs : List Line :=
  buttons.map Line.lamp ++
    [.stopLamp, .doorOpenLamp, .floorInd1, .floorInd2,
      .motorDir]

/- The lines the hardware writes. -/
def inputs : List Line :=
  buttons.map Line.signal ++
    [.sensor 1, .sensor 2, .sensor 3, .sensor 4, .stop,
      .obstruction]

/- All the lines. -/
def all : List Line := outputs ++ inputs

/- No two lines have the same channel. -/
theorem channel_injective :
    ∀ l ∈ all, ∀ l' ∈ all,
      l.channel = l'.channel → l = l' := by
  decide

/- No line has the channel of what does not exist. -/
theorem channel_ne :
    ∀ l ∈ all, l.channel ≠ -1 := by
  decide

theorem channel_mem_inputs :
    ∀ l ∈ inputs, l.channel ∈ ChannelDriver.inputs := by
  decide

theorem channel_not_mem_inputs :
    ∀ l ∈ outputs, l.channel ∉ ChannelDriver.inputs := by
  decide

end Line

------------------------------------------------------------
-- Refinement
------------------------------------------------------------

namespace ChannelDriver

open Channel Line

/- The channels hold the record and the sensors. -/
structure Shows
    (s : ChannelDriver)
    (p : Panel) : Prop where
  lines : ∀ l ∈ Line.all, s.setBits l.channel = l.value p
  speed : s.analog motor = p.driver.motorSpeed
  direction : s.lastDirection = p.driver.lastDirection

/- The operation does not read a button that does not
exist. -/
def Reads : DriverOp → Prop
  | .getButtonLamp btn =>
      btn ≠ ⟨.callDown, 1⟩ ∧ btn ≠ ⟨.callUp, 4⟩
  | .getButtonSignal btn =>
      btn ≠ ⟨.callDown, 1⟩ ∧ btn ≠ ⟨.callUp, 4⟩
  | _ => True

variable {s : ChannelDriver}
variable {p : Panel}
variable {btn : Button}

/- A button at a floor exists, or it has the channel of what
does not. -/
theorem mem_buttons
    (hFloor : fourFloors.InRange btn.floor) :
    (btn ∈ Line.buttons) ∨
      ((btn = ⟨.callDown, 1⟩ ∨ btn = ⟨.callUp, 4⟩) ∧
        (Line.lamp btn).channel = -1) := by
  rcases btn with ⟨type, floor⟩
  rcases hFloor with ⟨hLow, hHigh⟩
  change 1 ≤ floor at hLow
  change floor ≤ 4 at hHigh
  have hCases : floor = 1 ∨ floor = 2 ∨ floor = 3 ∨
      floor = 4 := by
    omega
  rcases hCases with rfl | rfl | rfl | rfl
  · cases type <;> decide
  · cases type <;> decide
  · cases type <;> decide
  · cases type <;> decide

theorem lamp_mem_all
    (hMem : btn ∈ Line.buttons) :
    Line.lamp btn ∈ Line.all :=
  List.mem_append_left _ (List.mem_append_left _
    (List.mem_map_of_mem hMem))

theorem signal_mem_all
    (hMem : btn ∈ Line.buttons) :
    Line.signal btn ∈ Line.all :=
  List.mem_append_right _ (List.mem_append_left _
    (List.mem_map_of_mem hMem))

/- The tables have the buttons the driver asserts. -/
theorem find_eq
    {matrix : List (List Int)}
    (hRows : matrix.length = 4) :
    Channel.find matrix btn =
      (Driver.lamp fourFloors.toBasicDriverInfo btn).map
        fun _ => Channel.lookup matrix btn := by
  have hMax : assert (btn.floor ≤ matrix.length)
      "out-of-bounds" =
        assert (btn.floor ≤
          fourFloors.toBasicDriverInfo.maxFloor)
          "out-of-bounds" := by
    rw [hRows]
    rfl
  have hMin : assert (1 ≤ btn.floor) "out-of-bounds" =
      assert (fourFloors.toBasicDriverInfo.minFloor ≤
        btn.floor) "out-of-bounds" := rfl
  unfold Channel.find Driver.lamp
  rw [hMax, hMin]
  cases assert (btn.floor ≤
      fourFloors.toBasicDriverInfo.maxFloor)
      "out-of-bounds" with
  | error e => rfl
  | ok _ =>
      cases assert (fourFloors.toBasicDriverInfo.minFloor ≤
          btn.floor) "out-of-bounds" with
      | error e => rfl
      | ok _ => rfl

/- One line is written. -/
theorem Shows.setBit
    {l : Line}
    {b : Bool}
    {q : Panel}
    (hShows : Shows s p)
    (hLine : l ∈ Line.all)
    (hValue : ∀ l' : Line,
      l'.value q = if l' = l then b else l'.value p)
    (hSpeed : q.driver.motorSpeed = p.driver.motorSpeed)
    (hDirection : q.driver.lastDirection =
      p.driver.lastDirection) :
    Shows (s.setBit l.channel b) q where
  lines l' hLine' := by
    rw [hValue l']
    change Function.update s.setBits l.channel b l'.channel = _
    by_cases hSame : l' = l
    · rw [hSame, Function.update_self, if_pos rfl]
    · have hOther : l'.channel ≠ l.channel := fun hEq =>
        hSame (channel_injective l' hLine' l hLine hEq)
      rw [Function.update_of_ne hOther, if_neg hSame]
      exact hShows.lines l' hLine'
  speed := hShows.speed.trans hSpeed.symm
  direction := hShows.direction.trans hDirection.symm

/- The hardware changes its channels. -/
theorem Shows.sense
    (hShows : Shows s p)
    (bits : Option (Int → Bool)) :
    Shows (s.sense bits) (p.sense bits) := by
  cases bits with
  | none => exact hShows
  | some bits =>
      refine ⟨?_, hShows.speed, hShows.direction⟩
      intro l hLine
      change (if l.channel ∈ ChannelDriver.inputs then
        bits l.channel else s.setBits l.channel) = _
      rcases List.mem_append.mp hLine with hOut | hIn
      · rw [if_neg (channel_not_mem_inputs l hOut),
          hShows.lines l hLine]
        rcases List.mem_append.mp hOut with hLamp | hOther
        · rcases List.mem_map.mp hLamp with ⟨btn, _, rfl⟩
          rfl
        · simp only [List.mem_cons, List.not_mem_nil,
            or_false] at hOther
          rcases hOther with rfl | rfl | rfl | rfl | rfl <;>
            rfl
      · rw [if_pos (channel_mem_inputs l hIn)]
        rcases List.mem_append.mp hIn with hSignal | hOther
        · rcases List.mem_map.mp hSignal with ⟨btn, _, rfl⟩
          rfl
        · simp only [List.mem_cons, List.not_mem_nil,
            or_false] at hOther
          rcases hOther with
            rfl | rfl | rfl | rfl | rfl | rfl <;> rfl

------------------------------------------------------------
-- Calls
------------------------------------------------------------

/- The channels and the record answer alike and stay
alike. -/
def Agree
    (r : Except AssertionFailed DriverValue × ChannelDriver)
    (r' : Except AssertionFailed DriverValue × Panel) :
    Prop :=
  r.1 = r'.1 ∧ Shows r.2 r'.2

theorem inRange_of_lamp
    {d : BasicDriverInfo}
    (hLamp : Driver.lamp d btn = .ok ()) :
    d.InRange btn.floor := by
  unfold Driver.lamp at hLamp
  by_cases hHigh : btn.floor ≤ d.maxFloor
  · by_cases hLow : d.minFloor ≤ btn.floor
    · exact ⟨hLow, hHigh⟩
    · rw [assert_true hHigh, assert_false hLow] at hLamp
      cases hLamp
  · rw [assert_false hHigh] at hLamp
    cases hLamp

/- The lamp of a button is set, or the button is not at a
floor. -/
theorem agree_setButtonLamp
    (hShows : Shows s p)
    (state : Bool) :
    Agree (s.call (.setButtonLamp btn state))
      (p.call (.setButtonLamp btn state)) := by
  have hFind : Channel.lamp btn =
      (Driver.lamp fourFloors.toBasicDriverInfo btn).map
        fun _ => (Line.lamp btn).channel :=
    find_eq rfl
  unfold call Panel.call Driver.setButtonLamp
  dsimp only
  rw [hFind]
  cases hLamp : Driver.lamp fourFloors.toBasicDriverInfo
      btn with
  | error e => exact ⟨rfl, hShows⟩
  | ok _ =>
      have hFloor := inRange_of_lamp hLamp
      refine ⟨rfl, ?_⟩
      change Shows (s.setBit (Line.lamp btn).channel state)
        { p with driver :=
          { p.driver with
            buttonLamp := Function.update
              p.driver.buttonLamp btn state } }
      rcases mem_buttons hFloor with hMem | ⟨hNone, hNo⟩
      · refine hShows.setBit (lamp_mem_all hMem) ?_ rfl rfl
        intro l
        cases l with
        | lamp btn' =>
            change Function.update p.driver.buttonLamp btn
              state btn' = _
            by_cases hSame : btn' = btn
            · rw [hSame, Function.update_self, if_pos rfl]
            · rw [Function.update_of_ne hSame, if_neg
                fun hEq => hSame (Line.lamp.inj hEq)]
              rfl
        | _ => rfl
      · -- nothing is at the channel of a lamp that is missing
        refine ⟨?_, hShows.speed, hShows.direction⟩
        intro l hLine
        change Function.update s.setBits _ state l.channel = _
        rw [hNo, Function.update_of_ne (channel_ne l hLine),
          hShows.lines l hLine]
        cases l with
        | lamp btn' =>
            have hOther : btn' ≠ btn := by
              intro hSame
              rw [hSame] at hLine
              exact channel_ne _ hLine hNo
            exact (Function.update_of_ne hOther _ _).symm
        | _ => rfl

theorem agree_setStopLamp
    (hShows : Shows s p)
    (state : Bool) :
    Agree (s.call (.setStopLamp state))
      (p.call (.setStopLamp state)) := by
  refine ⟨rfl, ?_⟩
  refine Shows.setBit (l := .stopLamp) hShows (by decide)
    ?_ rfl rfl
  intro l
  cases l <;> rfl

theorem agree_setDoorOpenLamp
    (hShows : Shows s p)
    (state : Bool) :
    Agree (s.call (.setDoorOpenLamp state))
      (p.call (.setDoorOpenLamp state)) := by
  refine ⟨rfl, ?_⟩
  refine Shows.setBit (l := .doorOpenLamp) hShows (by decide)
    ?_ rfl rfl
  intro l
  cases l <;> rfl

/- The backend shows the two bits of the floor. -/
theorem agree_setFloorIndicator
    (hShows : Shows s p)
    (floor : Int) :
    Agree (s.call (.setFloorIndicator floor))
      (p.call (.setFloorIndicator floor)) := by
  unfold call Panel.call ChannelDriver.setFloorIndicator
    Driver.setFloorIndicator
  dsimp only
  have hMin : assert (fourFloors.minFloor ≤ floor)
      "floor out of bounds" =
        assert (1 ≤ floor) "floor out of bounds" := rfl
  have hMax : assert (floor ≤ fourFloors.maxFloor)
      "floor out of bounds" =
        assert (floor ≤ 4) "floor out of bounds" := rfl
  rw [hMin, hMax]
  by_cases hLow : 1 ≤ floor
  · by_cases hHigh : floor ≤ 4
    · rw [assert_true hLow, assert_true hHigh]
      refine ⟨rfl, ?_⟩
      have hCases : floor = 1 ∨ floor = 2 ∨ floor = 3 ∨
          floor = 4 := by
        omega
      have hFirst : decide ((floor - 1).toNat &&& 2 = 2) =
          decide ((floor - 1) / 2 % 2 = 1) := by
        rcases hCases with rfl | rfl | rfl | rfl <;> rfl
      have hSecond : decide ((floor - 1).toNat &&& 1 = 1) =
          decide ((floor - 1) % 2 = 1) := by
        rcases hCases with rfl | rfl | rfl | rfl <;> rfl
      change Shows
        ((s.setBit (Line.floorInd1).channel
          (decide ((floor - 1).toNat &&& 2 = 2))).setBit
            (Line.floorInd2).channel
          (decide ((floor - 1).toNat &&& 1 = 1))) _
      rw [hFirst, hSecond]
      have hOne : Shows
          (s.setBit (Line.floorInd1).channel
            (decide ((floor - 1) / 2 % 2 = 1)))
          { p with driver :=
            { p.driver with
              floorInd1 :=
                decide ((floor - 1) / 2 % 2 = 1) } } := by
        refine Shows.setBit (l := .floorInd1) hShows
          (by decide) ?_ rfl rfl
        intro l
        cases l <;> rfl
      refine Shows.setBit (l := .floorInd2) hOne (by decide)
        ?_ rfl rfl
      intro l
      cases l <;> rfl
    · rw [assert_true hLow, assert_false hHigh]
      exact ⟨rfl, hShows⟩
  · rw [assert_false hLow]
    exact ⟨rfl, hShows⟩

/- Neither the speed nor the direction of the last start is
a bit. -/
theorem Shows.register
    {q : Panel}
    {t : ChannelDriver}
    (hShows : Shows s p)
    (hBits : t.setBits = s.setBits)
    (hValue : ∀ l : Line, l.value q = l.value p)
    (hSpeed : t.analog motor = q.driver.motorSpeed)
    (hDirection : t.lastDirection = q.driver.lastDirection) :
    Shows t q where
  lines l hLine := by
    rw [hBits, hValue]
    exact hShows.lines l hLine
  speed := hSpeed
  direction := hDirection

/- The motor bit and the motor register are written. -/
theorem Shows.drive
    (hShows : Shows s p)
    (direction : Direction)
    (speed : Int)
    (down : Bool) :
    Shows
      (({ s with lastDirection := direction }.setBit
        (Line.motorDir).channel down).writeAnalog motor speed)
      { p with driver :=
        { p.driver with
          lastDirection := direction
          motorDir := down
          motorSpeed := speed } } := by
  have hBit : Shows (s.setBit (Line.motorDir).channel down)
      { p with driver :=
        { p.driver with motorDir := down } } := by
    refine Shows.setBit (l := .motorDir) hShows (by decide)
      ?_ rfl rfl
    intro l
    cases l <;> rfl
  refine hBit.register rfl ?_ ?_ rfl
  · intro l
    cases l <;> rfl
  · exact Function.update_self motor speed s.analog

theorem agree_setMotorSpeed
    (hShows : Shows s p)
    (direction : Direction)
    (speed : Int) :
    Agree (s.call (.setMotorSpeed direction speed))
      (p.call (.setMotorSpeed direction speed)) := by
  unfold call Panel.call ChannelDriver.setMotorSpeed
    Driver.setMotorSpeed
  dsimp only
  by_cases hSpeed : 0 < speed
  · rw [assert_true hSpeed]
    exact ⟨rfl, hShows.drive _ _ _⟩
  · rw [assert_false hSpeed]
    exact ⟨rfl, hShows⟩

theorem agree_stopElevator
    (hShows : Shows s p) :
    Agree (s.call .stopElevator) (p.call .stopElevator) := by
  refine ⟨rfl, ?_⟩
  have hDriven := hShows.drive p.driver.lastDirection 0
    (decide (p.driver.lastDirection = .up))
  rw [← hShows.direction] at hDriven
  change Shows s.stopElevator
    { p with driver := p.driver.stopElevator }
  unfold Driver.stopElevator
  rw [← hShows.direction]
  have hSame : p.driver.lastDirection = s.lastDirection :=
    hShows.direction.symm
  rcases p with ⟨v, sensors⟩
  rcases v with ⟨last, dir, speed, lamp, stop, door, i1, i2⟩
  change last = s.lastDirection at hSame
  subst hSame
  exact hDriven

/- The signal or the lamp of a button that exists. -/
theorem agree_lookup
    (matrix : List (List Int))
    (btn : Button)
    (value : Bool)
    (hShows : Shows s p)
    (hRows : matrix.length = 4)
    (hBit : fourFloors.InRange btn.floor →
      s.setBits (Channel.lookup matrix btn) = value) :
    Agree
      ((Channel.find matrix btn).map
        fun c => DriverValue.bool (s.setBits c), s)
      ((Driver.lamp fourFloors.toBasicDriverInfo btn).map
        fun _ => DriverValue.bool value, p) := by
  rw [find_eq hRows]
  cases hLamp : Driver.lamp fourFloors.toBasicDriverInfo
      btn with
  | error e => exact ⟨rfl, hShows⟩
  | ok _ =>
      refine ⟨?_, hShows⟩
      change Except.ok (DriverValue.bool
        (s.setBits (Channel.lookup matrix btn))) = _
      rw [hBit (inRange_of_lamp hLamp)]
      rfl

theorem mem_buttons_of_reads
    (hReads : btn ≠ ⟨.callDown, 1⟩ ∧ btn ≠ ⟨.callUp, 4⟩)
    (hFloor : fourFloors.InRange btn.floor) :
    btn ∈ Line.buttons := by
  rcases mem_buttons hFloor with hMem | ⟨hNone | hNone, _⟩
  · exact hMem
  · exact absurd hNone hReads.1
  · exact absurd hNone hReads.2

theorem agree_getButtonLamp
    (hShows : Shows s p)
    (hReads : Reads (.getButtonLamp btn)) :
    Agree (s.call (.getButtonLamp btn))
      (p.call (.getButtonLamp btn)) := by
  have hAgree := agree_lookup lampChannelMatrix btn
    (p.driver.buttonLamp btn) hShows rfl fun hFloor =>
      hShows.lines (.lamp btn)
        (lamp_mem_all (mem_buttons_of_reads hReads hFloor))
  have hSame : ((p.driver.getButtonLamp
        fourFloors.toBasicDriverInfo btn).map
          DriverValue.bool) =
      (Driver.lamp fourFloors.toBasicDriverInfo btn).map
        fun _ => DriverValue.bool
          (p.driver.buttonLamp btn) := by
    unfold Driver.getButtonLamp
    cases Driver.lamp fourFloors.toBasicDriverInfo btn with
    | error e => rfl
    | ok _ => rfl
  unfold call Panel.call
  dsimp only
  rw [hSame]
  exact hAgree

theorem agree_getButtonSignal
    (hShows : Shows s p)
    (hReads : Reads (.getButtonSignal btn)) :
    Agree (s.call (.getButtonSignal btn))
      (p.call (.getButtonSignal btn)) :=
  agree_lookup buttonChannelMatrix btn
    (p.sensors.button btn) hShows rfl
    fun hFloor => hShows.lines (.signal btn)
      (signal_mem_all (mem_buttons_of_reads hReads hFloor))

/- The sensors are tested from below. -/
theorem agree_getFloor
    (hShows : Shows s p) :
    Agree (s.call .getFloor) (p.call .getFloor) := by
  refine ⟨?_, hShows⟩
  change Except.ok (DriverValue.int s.getFloor) =
    Except.ok (DriverValue.int p.getFloor)
  have hFloors : fourFloors.floors = [1, 2, 3, 4] := by
    decide
  have hOne := hShows.lines (.sensor 1) (by decide)
  have hTwo := hShows.lines (.sensor 2) (by decide)
  have hThree := hShows.lines (.sensor 3) (by decide)
  have hFour := hShows.lines (.sensor 4) (by decide)
  change s.setBits sensor1 = p.sensors.floor 1 at hOne
  change s.setBits sensor2 = p.sensors.floor 2 at hTwo
  change s.setBits sensor3 = p.sensors.floor 3 at hThree
  change s.setBits sensor4 = p.sensors.floor 4 at hFour
  unfold ChannelDriver.getFloor Panel.getFloor
  rw [hFloors, hOne, hTwo, hThree, hFour]
  cases h₁ : p.sensors.floor 1 with
  | true => simp [h₁]
  | false =>
      cases h₂ : p.sensors.floor 2 with
      | true => simp [h₁, h₂]
      | false =>
          cases h₃ : p.sensors.floor 3 with
          | true => simp [h₁, h₂, h₃]
          | false =>
              cases h₄ : p.sensors.floor 4 with
              | true => simp [h₁, h₂, h₃, h₄]
              | false => simp [h₁, h₂, h₃, h₄]

theorem agree_getFloorIndicator
    (hShows : Shows s p) :
    Agree (s.call .getFloorIndicator)
      (p.call .getFloorIndicator) := by
  refine ⟨?_, hShows⟩
  change Except.ok (DriverValue.int s.getFloorIndicator) =
    Except.ok (DriverValue.int p.getFloorIndicator)
  have hOne := hShows.lines .floorInd1 (by decide)
  have hTwo := hShows.lines .floorInd2 (by decide)
  change s.setBits Channel.floorInd1 = p.driver.floorInd1
    at hOne
  change s.setBits Channel.floorInd2 = p.driver.floorInd2
    at hTwo
  unfold ChannelDriver.getFloorIndicator
    Panel.getFloorIndicator
  rw [hOne, hTwo]
  cases p.driver.floorInd1 with
  | true => cases p.driver.floorInd2 <;> rfl
  | false => cases p.driver.floorInd2 <;> rfl

/- A line that is read. -/
theorem agree_read
    (hShows : Shows s p)
    {l : Line}
    (hLine : l ∈ Line.all) :
    Agree (.ok (.bool (s.setBits l.channel)), s)
      (.ok (.bool (l.value p)), p) := by
  rw [hShows.lines l hLine]
  exact ⟨rfl, hShows⟩

/- One call, whatever the hardware has done before it. -/
theorem agree_step
    {op : DriverOp}
    (hReads : Reads op)
    (hShows : Shows s p)
    (bits : Option (Int → Bool)) :
    Agree (step bits op s) (Panel.step bits op p) := by
  have hSensed := hShows.sense bits
  unfold step Panel.step
  cases op with
  | setButtonLamp btn state =>
      exact agree_setButtonLamp hSensed state
  | setStopLamp state => exact agree_setStopLamp hSensed state
  | setDoorOpenLamp state =>
      exact agree_setDoorOpenLamp hSensed state
  | setFloorIndicator floor =>
      exact agree_setFloorIndicator hSensed floor
  | getButtonLamp btn =>
      exact agree_getButtonLamp hSensed hReads
  | getStopLamp =>
      exact agree_read (l := .stopLamp) hSensed (by decide)
  | getDoorOpenLamp =>
      exact agree_read (l := .doorOpenLamp) hSensed
        (by decide)
  | getFloorIndicator => exact agree_getFloorIndicator hSensed
  | getButtonSignal btn =>
      exact agree_getButtonSignal hSensed hReads
  | stopElevator => exact agree_stopElevator hSensed
  | getFloor => exact agree_getFloor hSensed
  | getStop =>
      exact agree_read (l := .stop) hSensed (by decide)
  | getObstruction =>
      exact agree_read (l := .obstruction) hSensed (by decide)
  | setMotorSpeed direction speed =>
      exact agree_setMotorSpeed hSensed direction speed

/-
  Every program that reads only buttons that exist gets the
  same answers from the channels as from the record, whatever
  the hardware does meanwhile, and leaves the same lamps and
  the same motor.
-/
theorem refines
    {α : Type}
    {client : Client DriverOp
      (Except AssertionFailed DriverValue) α}
    (hReads : client.Calls Reads)
    (hShows : Shows s p)
    (outside : Nat → Option (Int → Bool)) :
    (client.run step outside 0 s).1 =
        (client.run Panel.step outside 0 p).1 ∧
      Shows (client.run step outside 0 s).2
        (client.run Panel.step outside 0 p).2 := by
  have hStep : ∀ bits op s p, Reads op → Shows s p →
      (step bits op s).1 = (Panel.step bits op p).1 ∧
        Shows (step bits op s).2 (Panel.step bits op p).2 :=
    fun bits _ _ _ hOp hShows => agree_step hOp hShows bits
  exact client.run_related hStep outside hReads 0 s p hShows

/- The lamps are dark, and the car is at no floor. -/
def dark : ChannelDriver where
  lastDirection := .none
  setBits _ := false
  analog _ := 0

/- Nothing is lit, pressed or sensed. -/
def darkPanel : Panel where
  driver :=
    { lastDirection := .none
      motorDir := false
      motorSpeed := 0
      buttonLamp := fun _ => false
      stopLamp := false
      doorOpenLamp := false
      floorInd1 := false
      floorInd2 := false }
  sensors := Sensors.of fun _ => false

theorem shows_dark :
    Shows dark darkPanel where
  lines l _ := by
    cases l <;> rfl
  speed := rfl
  direction := rfl

/- Light a lamp and read it. -/
def lightAndRead : Client DriverOp
    (Except AssertionFailed DriverValue)
    (Except AssertionFailed DriverValue) :=
  .call (.setButtonLamp ⟨.callUp, 1⟩ true) fun _ =>
    .call (.getButtonLamp ⟨.callUp, 1⟩) fun lit => .done lit

theorem refines_lightAndRead :
    (lightAndRead.run step (fun _ => none) 0 dark).1 =
        (lightAndRead.run Panel.step (fun _ => none) 0
          darkPanel).1 ∧
      (lightAndRead.run step (fun _ => none) 0 dark).1 =
        .ok (.bool true) := by
  have hReads : lightAndRead.Calls Reads :=
    ⟨trivial, fun _ =>
      ⟨⟨by decide, by decide⟩, fun _ => trivial⟩⟩
  exact ⟨(refines hReads shows_dark fun _ => none).1,
    by decide⟩

/- The lamps that do not exist are one. -/
theorem not_refines_missing :
    ((step none (.setButtonLamp ⟨.callUp, 4⟩ true)
        dark).2.call (.getButtonLamp ⟨.callDown, 1⟩)).1 ≠
      ((Panel.step none (.setButtonLamp ⟨.callUp, 4⟩ true)
        darkPanel).2.call (.getButtonLamp
          ⟨.callDown, 1⟩)).1 := by
  decide

------------------------------------------------------------
-- Floor Indicator
------------------------------------------------------------

/- A write to another channel leaves the indicator. -/
theorem indicator_setBit
    {channel : Int}
    {value : Bool}
    (hFirst : channel ≠ Channel.floorInd1)
    (hSecond : channel ≠ Channel.floorInd2) :
    (s.setBit channel value).getFloorIndicator =
      s.getFloorIndicator := by
  unfold getFloorIndicator setBit
  dsimp only
  rw [Function.update_of_ne hFirst.symm,
    Function.update_of_ne hSecond.symm]

/- Neither does the motor. -/
theorem indicator_drive
    {down : Bool}
    {speed : Int} :
    ((s.setBit motorDir down).writeAnalog motor
      speed).getFloorIndicator = s.getFloorIndicator := by
  show (s.setBit motorDir down).getFloorIndicator = _
  exact indicator_setBit (by decide) (by decide)

theorem indicator_sense
    (bits : Option (Int → Bool)) :
    (s.sense bits).getFloorIndicator =
      s.getFloorIndicator := by
  have hFirst : Channel.floorInd1 ∉ ChannelDriver.inputs := by
    decide
  have hSecond : Channel.floorInd2 ∉ ChannelDriver.inputs := by
    decide
  cases bits with
  | none => rfl
  | some bits =>
      unfold getFloorIndicator sense
      dsimp only
      rw [if_neg hFirst, if_neg hSecond]

/- No lamp of a button at a floor is a bit of the
indicator. -/
theorem lamp_channel_ne
    {l : Line}
    (hFloor : fourFloors.InRange btn.floor)
    (hLine : l ∈ Line.all)
    (hOther : l ≠ .lamp btn) :
    (Line.lamp btn).channel ≠ l.channel := by
  intro hSame
  rcases mem_buttons hFloor with hMem | ⟨_, hNo⟩
  · exact hOther (channel_injective l hLine _
      (lamp_mem_all hMem) hSame.symm)
  · rw [hNo] at hSame
    exact channel_ne l hLine hSame.symm

/- Only one operation changes the indicator. -/
theorem indicator_step
    {op : DriverOp}
    (hOther : ∀ f, op ≠ .setFloorIndicator f)
    (bits : Option (Int → Bool)) :
    (step bits op s).2.getFloorIndicator =
      s.getFloorIndicator := by
  rw [← indicator_sense (s := s) bits]
  unfold step
  generalize s.sense bits = t
  cases op with
  | setButtonLamp btn state =>
      have hFind : Channel.lamp btn =
          (Driver.lamp fourFloors.toBasicDriverInfo btn).map
            fun _ => (Line.lamp btn).channel :=
        find_eq rfl
      unfold call
      dsimp only
      rw [hFind]
      cases hLamp : Driver.lamp fourFloors.toBasicDriverInfo
          btn with
      | error e => rfl
      | ok _ =>
          have hFloor := inRange_of_lamp hLamp
          exact indicator_setBit
            (lamp_channel_ne (l := .floorInd1) hFloor
              (by decide) (by simp))
            (lamp_channel_ne (l := .floorInd2) hFloor
              (by decide) (by simp))
  | setStopLamp state =>
      show (t.setBit lightStop state).getFloorIndicator = _
      exact indicator_setBit (by decide) (by decide)
  | setDoorOpenLamp state =>
      show (t.setBit doorOpen state).getFloorIndicator = _
      exact indicator_setBit (by decide) (by decide)
  | setFloorIndicator f => exact absurd rfl (hOther f)
  | stopElevator => exact indicator_drive
  | setMotorSpeed direction speed =>
      unfold call ChannelDriver.setMotorSpeed
      dsimp only
      by_cases hSpeed : 0 < speed
      · rw [assert_true hSpeed]
        exact indicator_drive
          (s := { t with lastDirection := direction })
      · rw [assert_false hSpeed]
        rfl
  | getButtonLamp btn => rfl
  | getStopLamp => rfl
  | getDoorOpenLamp => rfl
  | getFloorIndicator => rfl
  | getButtonSignal btn => rfl
  | getFloor => rfl
  | getStop => rfl
  | getObstruction => rfl

/- The driver after some calls, and what has happened before
each of them. -/
def after
    (calls : List (Option (Int → Bool) × DriverOp))
    (s : ChannelDriver) : ChannelDriver :=
  calls.foldl (fun s c => (step c.1 c.2 s).2) s

theorem indicator_after
    {calls : List (Option (Int → Bool) × DriverOp)}
    (hOther : ∀ c ∈ calls, ∀ f, c.2 ≠ .setFloorIndicator f) :
    (s.after calls).getFloorIndicator =
      s.getFloorIndicator := by
  induction calls generalizing s with
  | nil => rfl
  | cons c calls ih =>
      have hRest := ih (s := (step c.1 c.2 s).2) fun c' hc' =>
        hOther c' (List.mem_cons_of_mem c hc')
      exact hRest.trans (indicator_step
        (hOther c List.mem_cons_self) c.1)

/- The two bits that have been written. -/
theorem indicator_bits
    {first second : Bool} :
    ((s.setBit Channel.floorInd1 first).setBit
      Channel.floorInd2 second).getFloorIndicator =
        ((first.toNat <<< 1) ||| second.toNat : Nat) + 1 := by
  have hNe : Channel.floorInd1 ≠ Channel.floorInd2 := by
    decide
  unfold getFloorIndicator setBit
  dsimp only
  rw [Function.update_self, Function.update_of_ne hNe,
    Function.update_self]

theorem indicator_shown
    {f : Int}
    (hFloor : fourFloors.InRange f) :
    (s.call (.setFloorIndicator f)).2.getFloorIndicator =
      f := by
  rcases hFloor with ⟨hLow, hHigh⟩
  change 1 ≤ f at hLow
  change f ≤ 4 at hHigh
  unfold call ChannelDriver.setFloorIndicator
  dsimp only
  rw [assert_true hLow, assert_true hHigh]
  refine indicator_bits.trans ?_
  have hCases : f = 1 ∨ f = 2 ∨ f = 3 ∨ f = 4 := by
    omega
  rcases hCases with rfl | rfl | rfl | rfl <;> decide

/-
  A floor that has been shown is read back, whatever has been
  called since, but for showing another floor.
-/
theorem indicator_read_back
    {f : Int}
    {calls : List (Option (Int → Bool) × DriverOp)}
    (hFloor : fourFloors.InRange f)
    (hOther : ∀ c ∈ calls, ∀ g, c.2 ≠ .setFloorIndicator g)
    (bits : Option (Int → Bool)) :
    (((step bits (.setFloorIndicator f) s).2.after
      calls).call .getFloorIndicator).1 = .ok (.int f) := by
  change Except.ok (DriverValue.int (getFloorIndicator _)) = _
  rw [indicator_after hOther]
  exact congrArg (fun n => Except.ok (DriverValue.int n))
    (indicator_shown hFloor)

theorem indicator_read_back_three :
    (((step none (.setFloorIndicator 3) dark).2.after
      [(none, .setStopLamp true),
        (none, .setButtonLamp ⟨.callUp, 4⟩ true)]).call
          .getFloorIndicator).1 = .ok (.int 3) := by
  refine indicator_read_back (by decide) ?_ none
  intro c hc g
  rcases List.mem_cons.mp hc with rfl | hc
  · exact DriverOp.noConfusion
  · rw [List.mem_singleton.mp hc]
    exact DriverOp.noConfusion

end ChannelDriver

end ElevatorControl
