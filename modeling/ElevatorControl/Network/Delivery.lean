import ElevatorControl.Network.Routing

/-
  What a node receives of the state changes and commands that
  other nodes broadcast.

  The predicate of a receiver gets a reference to the message
  and may change it. The receiver of state changes replaces
  the timestamp by the time of reception, because the clocks
  of the nodes are not synchronized, and accepts what other
  elevators report.

  Key definitions include:
    * `Wire.ofStateChange` and `Wire.toStateChange`
    * `QueueReceiver.receiveRef`
    * `QueueReceiver.stateChangesIn`
    * `QueueReceiver.commandsToLocal`

  Key theorems include:
    * `Wire.toStateChange_ofStateChange`
    * `QueueReceiver.stateChangesIn_packet`
    * `QueueReceiver.commandsToLocal_packet`
-/

------------------------------------------------------------
-- Enumerations
------------------------------------------------------------

namespace ElevatorControl

open LittleEndian

/- The values of the enumerators. -/
def ChangeType.base : ChangeType → Int
  | .none => 0
  | .keepAlive => 1
  | .insideButtonPresed => 2
  | .buttonDownPressed => 3
  | .buttonUpPressed => 4
  | .goingToServeUp => 5
  | .goingToServeDown => 6
  | .served => 7
  | .servedUp => 8
  | .servedDown => 9
  | .otherChange => 10

/- The values of the directions. -/
def Direction.base : Direction → Int
  | .none => 0
  | .up => 1
  | .down => 2

/- The enumerators in the order of their declaration. -/
def ChangeType.all : List ChangeType :=
  [.none, .keepAlive, .insideButtonPresed,
    .buttonDownPressed, .buttonUpPressed, .goingToServeUp,
    .goingToServeDown, .served, .servedUp, .servedDown,
    .otherChange]

/- The directions in the order of their declaration. -/
def Direction.all : List Direction :=
  [.none, .up, .down]

/- The types of commands in the order of their declaration. -/
def CommandType.all : List CommandType :=
  [.empty, .callToFloorAndGoUp, .callToFloorAndGoDown,
    .turnOnLightUp, .turnOffLightUp, .turnOnLightDown,
    .turnOffLightDown]

/- The enumerator with the value, if there is one. -/
def Enumeration.enumerator
    {α : Type}
    (all : List α)
    (base : α → Int)
    (e : Enumeration α) : Option α :=
  all.find? fun a => base a = e.base

theorem ChangeType.enumerator_base
    (type : ChangeType) :
    Enumeration.enumerator ChangeType.all ChangeType.base
      ⟨type.base⟩ = some type := by
  cases type <;> rfl

theorem Direction.enumerator_base
    (direction : Direction) :
    Enumeration.enumerator Direction.all Direction.base
      ⟨direction.base⟩ = some direction := by
  cases direction <;> rfl

theorem CommandType.enumerator_base
    (type : CommandType) :
    Enumeration.enumerator CommandType.all CommandType.base
      ⟨type.base⟩ = some type := by
  cases type <;> rfl

theorem ChangeType.fits_base
    (type : ChangeType) :
    Fits 4 type.base := by
  cases type <;> decide

theorem Direction.fits_base
    (direction : Direction) :
    Fits 4 direction.base := by
  cases direction <;> decide

theorem CommandType.fits_base
    (type : CommandType) :
    Fits 4 type.base := by
  cases type <;> decide

------------------------------------------------------------
-- Records on the Wire
------------------------------------------------------------

namespace Wire

/- The state as it is stored in an object. -/
def ofElevatorState
    (s : ElevatorControl.ElevatorState) :
    ElevatorState where
  id := s.id
  timestamp := s.timestamp
  lastFloor := s.lastFloor
  direction := ⟨s.direction.base⟩
  stopped := s.stopped
  doorOpen := s.doorOpen
  insideButtons := s.insideButtons
  upButtons := s.upButtons
  downButtons := s.downButtons

/- The change as it is stored in an object. -/
def ofStateChange
    (c : ElevatorControl.StateChange) : StateChange where
  changeType := ⟨c.changeType.base⟩
  changeFloor := c.changeFloor
  state := ofElevatorState c.state

/- The record of an object whose enumerations have values of
enumerators. -/
def toElevatorState
    (s : ElevatorState) :
    Option ElevatorControl.ElevatorState := do
  let direction ←
    s.direction.enumerator Direction.all Direction.base
  return {
    id := s.id
    timestamp := s.timestamp
    lastFloor := s.lastFloor
    direction := direction
    stopped := s.stopped
    doorOpen := s.doorOpen
    insideButtons := s.insideButtons
    upButtons := s.upButtons
    downButtons := s.downButtons }

/- The change of an object, if its enumerations have values
of enumerators. -/
def toStateChange
    (c : StateChange) :
    Option ElevatorControl.StateChange := do
  let changeType ←
    c.changeType.enumerator ChangeType.all ChangeType.base
  let state ← toElevatorState c.state
  return ⟨changeType, c.changeFloor, state⟩

/- The command of an object, if its type is one. -/
def toCommand
    (c : Command) : Option ElevatorControl.Command := do
  let commandType ←
    c.commandType.enumerator CommandType.all
      CommandType.base
  return ⟨commandType, c.targetElevatorId, c.targetFloor⟩

theorem toElevatorState_ofElevatorState
    (s : ElevatorControl.ElevatorState) :
    toElevatorState (ofElevatorState s) = some s := by
  simp only [toElevatorState, ofElevatorState,
    Direction.enumerator_base]
  rfl

theorem toStateChange_ofStateChange
    (c : ElevatorControl.StateChange) :
    toStateChange (ofStateChange c) = some c := by
  simp only [toStateChange, ofStateChange,
    ChangeType.enumerator_base,
    toElevatorState_ofElevatorState]
  rfl

theorem toCommand_ofCommand
    (c : ElevatorControl.Command) :
    toCommand (ofCommand c) = some c := by
  simp only [toCommand, ofCommand,
    CommandType.enumerator_base]
  rfl

/- The fields of a change whose values the wire keeps. -/
structure Carried
    (c : ElevatorControl.StateChange) : Prop where
  changeFloor : Fits 4 c.changeFloor
  id : Fits 4 c.state.id
  lastFloor : Fits 4 c.state.lastFloor

theorem inRange_ofCommand
    {c : ElevatorControl.Command}
    (hId : Fits 4 c.targetElevatorId)
    (hFloor : Fits 4 c.targetFloor) :
    (ofCommand c).InRange :=
  ⟨c.commandType.fits_base, hId, hFloor⟩

/- Narrowing once narrows for good. -/
theorem received_received
    (s : ElevatorState) :
    s.received.received = s.received := by
  have hTwice : narrow 4 (narrow 4 s.timestamp) =
      narrow 4 s.timestamp :=
    narrow_eq (fits_narrow (by decide) _)
  unfold ElevatorState.received
  rw [hTwice]

/- A change is read from its packet with its timestamp
narrowed. -/
theorem fromPacket_stateChange
    {c : ElevatorControl.StateChange}
    (hCarried : Carried c) :
    Serializer.fromPacket StateChange.messageType
        (Serializer.packet (Serializer.serialize
          StateChange.messageType (ofStateChange c))) =
      .just (ofStateChange c).received := by
  have hSize := encodedSize_stateChange (ofStateChange c)
  have hBytes : StateChange.serializable.serialize
      (ofStateChange c).received =
        StateChange.serializable.serialize
          (ofStateChange c) := by
    simp only [StateChange.serializable,
      Serializable.serialize, SerializableTuple.serialize,
      StateChange.received, serialize_received]
  have hNarrow :
      Fits 4 (ofStateChange c).state.received.timestamp :=
    fits_narrow (by decide) _
  have hState :
      (ofStateChange c).state.received.InRange := by
    refine ⟨hCarried.id, ?_, hCarried.lastFloor,
      c.state.direction.fits_base⟩
    unfold Fits at hNarrow ⊢
    omega
  have hValid := valid_received hState
  rw [received_received] at hValid
  apply Serializer.fromPacket_packet
    (by rw [hSize]; decide) hBytes
  simp only [StateChange.messageType,
    StateChange.serializable, Serializable.Valid,
    SerializableTuple.Valid, enumeration, int]
  exact ⟨trivial, ⟨trivial, c.changeType.fits_base⟩,
    hCarried.changeFloor, hValid, trivial⟩

end Wire

------------------------------------------------------------
-- Receivers
------------------------------------------------------------

namespace QueueReceiver

/-
  One pass of the receiver's loop with a predicate that may
  change the message: what it leaves of the message, and
  whether it accepts it.
-/
def receiveRef
    {α : Type}
    (t : MessageType α)
    (localAddress : IPv4Address)
    (pred : α → α × Bool)
    (source : IPv4Address)
    (packet : List UInt8) : Outcome (Option α) :=
  if source = localAddress then
    .just none
  else
    match Serializer.fromPacket t packet with
    | .just x =>
        .just (if (pred x).2 then some (pred x).1 else none)
    | .nothing =>
        .failed ⟨"Received invalid message", .generall⟩
    | .failed e => .failed e
    | .badAlloc => .badAlloc
    | .outOfRange => .outOfRange

/- A predicate that only looks at the message. -/
theorem receiveRef_eq_receive
    {α : Type}
    {t : MessageType α}
    {localAddress source : IPv4Address}
    {pred : α → Bool}
    {packet : List UInt8} :
    receiveRef t localAddress (fun x => (x, pred x)) source
        packet =
      receive t localAddress pred source packet := by
  unfold receiveRef receive
  rfl

/-
  The change that the receiver of state changes enqueues, if
  any. A packet it cannot read fails an assertion, and the
  restart wrapper enters its loop again.
-/
def stateChangesIn
    (id : Int)
    (now : MillisecondTime)
    (source : IPv4Address)
    (datagram : List UInt8) : Option StateChange :=
  match receiveRef Wire.StateChange.messageType
      IPv4Address.any
      (fun chan =>
        ({ chan with state.timestamp := now },
          chan.state.id ≠ id))
      source (Serializer.recvPacket datagram) with
  | .just (some chan) => Wire.toStateChange chan
  | _ => none

/- The command that the receiver of commands enqueues. -/
def commandsToLocal
    (id : Int)
    (source : IPv4Address)
    (datagram : List UInt8) : Option Command :=
  match receiveRef Wire.Command.messageType
      IPv4Address.any
      (fun comm => (comm, comm.targetElevatorId == id))
      source (Serializer.recvPacket datagram) with
  | .just (some comm) => Wire.toCommand comm
  | _ => none

/- The datagrams that the senders broadcast. -/
def changePacket
    (c : StateChange) : List UInt8 :=
  Serializer.packet (Serializer.serialize
    Wire.StateChange.messageType (Wire.ofStateChange c))

/- The datagram of a command. -/
def commandPacket
    (c : Command) : List UInt8 :=
  Serializer.packet (Serializer.serialize
    Wire.Command.messageType (Wire.ofCommand c))

/- The serializer makes these packets. -/
theorem toPacket_changePacket
    (c : StateChange) :
    Serializer.toPacket Wire.StateChange.messageType
        (Wire.ofStateChange c) =
      .just (changePacket c) := by
  have hSize :=
    Wire.encodedSize_stateChange (Wire.ofStateChange c)
  exact Serializer.toPacket_eq_just (by rw [hSize]; decide)

theorem toPacket_commandPacket
    (c : Command) :
    Serializer.toPacket Wire.Command.messageType
        (Wire.ofCommand c) =
      .just (commandPacket c) := by
  have hSize := Wire.encodedSize_command (Wire.ofCommand c)
  exact Serializer.toPacket_eq_just (by rw [hSize]; decide)

/- What other elevators report is enqueued with the time of
reception, and what the own elevator reports is not. -/
theorem stateChangesIn_packet
    {c : StateChange}
    {source : IPv4Address}
    (hCarried : Wire.Carried c)
    (hSource : source ≠ IPv4Address.any)
    (id : Int)
    (now : MillisecondTime) :
    stateChangesIn id now source (changePacket c) =
      if c.state.id ≠ id then
        some { c with state.timestamp := now }
      else none := by
  have hLength := Serializer.length_packet
    (Serializer.serialize Wire.StateChange.messageType
      (Wire.ofStateChange c))
  have hData := Wire.encodedSize_stateChange
    (Wire.ofStateChange c)
  have hCut : Serializer.recvPacket (changePacket c) =
      changePacket c := by
    apply Serializer.recvPacket_eq
    unfold changePacket
    rw [hLength, Serializer.length_data]
    unfold Serializer.encodedSize at hData
    rw [hData]
    decide
  unfold stateChangesIn receiveRef
  rw [hCut, if_neg hSource, changePacket,
    Wire.fromPacket_stateChange hCarried]
  dsimp only
  by_cases hOther : c.state.id ≠ id
  · rw [if_pos hOther, if_pos (by
      rw [decide_eq_true_eq]
      exact hOther)]
    exact Wire.toStateChange_ofStateChange
      { c with state.timestamp := now }
  · rw [if_neg hOther, if_neg (by
      rw [decide_eq_true_eq]
      exact hOther)]

/- A command is enqueued by the node it is for. -/
theorem commandsToLocal_packet
    {c : Command}
    {source : IPv4Address}
    (hRange : (Wire.ofCommand c).InRange)
    (hSource : source ≠ IPv4Address.any)
    (id : Int) :
    commandsToLocal id source (commandPacket c) =
      if c.targetElevatorId = id then some c else none := by
  unfold commandsToLocal
  rw [receiveRef_eq_receive, commandPacket,
    Routing.recvPacket_command,
    Routing.receive_packet hRange hSource]
  by_cases hTarget : c.targetElevatorId = id
  · have hAccepted :
        ((Wire.ofCommand c).targetElevatorId == id) = true :=
      beq_iff_eq.mpr hTarget
    rw [if_pos hTarget, if_pos hAccepted]
    exact Wire.toCommand_ofCommand c
  · have hRefused :
        ¬ ((Wire.ofCommand c).targetElevatorId == id) =
          true :=
      fun hAccepted => hTarget (beq_iff_eq.mp hAccepted)
    rw [if_neg hTarget, if_neg hRefused]

end QueueReceiver

end ElevatorControl
