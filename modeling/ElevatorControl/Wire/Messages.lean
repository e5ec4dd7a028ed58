import Mathlib.Data.Fintype.Card
import Mathlib.Order.Fin.Basic
import ElevatorControl.Wire.Packet

/-
  The messages on the network.

  The records here have the declared types of the fields: an
  enumeration holds any number of its underlying type, and
  the timestamp is a word of eight bytes. The tuple a state
  is serialized through narrows the timestamp to an `int`.

  Key definitions include:
    * `Wire.Command`
    * `Wire.StateChange`
    * `Wire.RecoveryPeers`
    * `Wire.RecoveryState`
    * `Wire.Message.Survives`

  Key theorems include:
    * `Wire.Message.survives_iff`
-/

------------------------------------------------------------
-- Field Types
------------------------------------------------------------

namespace ElevatorControl

open LittleEndian

/- The value of an object of an enumeration type. -/
structure Enumeration (α : Type) where
  base : Int
  deriving DecidableEq, Repr

/- The values of the enumerators. -/
def CommandType.base : CommandType → Int
  | .empty => 0
  | .callToFloorAndGoUp => 1
  | .callToFloorAndGoDown => 2
  | .turnOnLightUp => 3
  | .turnOffLightUp => 4
  | .turnOnLightDown => 5
  | .turnOffLightDown => 6

/- An address, ordered by its number. -/
abbrev IPv4Address : Type := Fin 4294967296

instance IPv4Address.neZero :
    NeZero 4294967296 :=
  ⟨by decide⟩

/- What sorting a set of addresses relies on. -/
instance IPv4Address.isTrans :
    IsTrans IPv4Address fun a b => a ≤ b :=
  instIsTransLe

instance IPv4Address.antisymm :
    Std.Antisymm fun a b : IPv4Address => a ≤ b :=
  instAntisymmLe

instance IPv4Address.total :
    Std.Total fun a b : IPv4Address => a ≤ b :=
  LE.total

namespace Wire

/- A signed number of four bytes. -/
def int : Serializable Int := .int 4

/- An enumeration, stored as its value. -/
def enumeration
    (α : Type) : Serializable (Enumeration α) :=
  .enum int Enumeration.base Enumeration.mk

/- A set of floors, stored as its word. -/
def floorSet : Serializable FloorSet :=
  .tupleSerializable (.tuple (.cons (.uint 8) .nil))
    (fun s => (s.floors.toNat, ()))
    (fun t => ⟨BitVec.ofNat 64 t.1⟩)

/- An address, stored as its number. -/
def address : Serializable IPv4Address :=
  .tupleSerializable (.tuple (.cons (.uint 4) .nil))
    (fun a => (a.val, ()))
    (fun t => Fin.ofNat 4294967296 t.1)

------------------------------------------------------------
-- Commands
------------------------------------------------------------

/- A command in an object, of any type. -/
structure Command where
  commandType : Enumeration CommandType
  targetElevatorId : Int
  targetFloor : Int
  deriving DecidableEq, Repr

namespace Command

/- The tuple of a command. -/
def serializable : Serializable Command :=
  .tupleSerializable
    (.tuple
      (.cons (enumeration CommandType)
      (.cons int (.cons int .nil))))
    (fun c =>
      (c.commandType, c.targetElevatorId, c.targetFloor, ()))
    (fun t => ⟨t.1, t.2.1, t.2.2.1⟩)

/- The messages with a command. -/
def messageType : MessageType Command where
  type := .elevatorCommand
  serializable := serializable

/- The fields are values of their declared types. -/
def InRange
    (c : Command) : Prop :=
  Fits 4 c.commandType.base ∧
    Fits 4 c.targetElevatorId ∧
    Fits 4 c.targetFloor

end Command

/- The command as it is stored in an object. -/
def ofCommand
    (c : ElevatorControl.Command) : Command where
  commandType := ⟨c.commandType.base⟩
  targetElevatorId := c.targetElevatorId
  targetFloor := c.targetFloor

------------------------------------------------------------
-- State Changes
------------------------------------------------------------

/- The state of an elevator in an object. -/
structure ElevatorState where
  id : Int
  timestamp : MillisecondTime
  lastFloor : Int
  direction : Enumeration Direction
  stopped : Bool
  doorOpen : Bool
  insideButtons : FloorSet
  upButtons : FloorSet
  downButtons : FloorSet
  deriving DecidableEq, Repr

namespace ElevatorState

/- The tuple type has an `int` for the timestamp. -/
def serializable : Serializable ElevatorState :=
  .tupleSerializable
    (.tuple
      (.cons int (.cons int (.cons int
      (.cons (enumeration Direction)
      (.cons .bool (.cons .bool
      (.cons floorSet (.cons floorSet
      (.cons floorSet .nil))))))))))
    (fun s =>
      (s.id, narrow 4 s.timestamp, s.lastFloor, s.direction,
        s.stopped, s.doorOpen, s.insideButtons,
        s.upButtons, s.downButtons, ()))
    (fun (id, timestamp, lastFloor, direction, stopped,
        doorOpen, insideButtons, upButtons, downButtons, _) =>
      ⟨id, timestamp, lastFloor, direction, stopped,
        doorOpen, insideButtons, upButtons, downButtons⟩)

/- The fields are values of their declared types. -/
def InRange
    (s : ElevatorState) : Prop :=
  Fits 4 s.id ∧
    Fits 8 s.timestamp ∧
    Fits 4 s.lastFloor ∧
    Fits 4 s.direction.base

/- The state with the timestamp the tuple keeps. -/
def received
    (s : ElevatorState) : ElevatorState :=
  { s with timestamp := narrow 4 s.timestamp }

end ElevatorState

/- A change in an object, of any type. -/
structure StateChange where
  changeType : Enumeration ChangeType
  changeFloor : Int
  state : ElevatorState
  deriving DecidableEq, Repr

namespace StateChange

/- The tuple of a change. -/
def serializable : Serializable StateChange :=
  .tupleSerializable
    (.tuple
      (.cons (enumeration ChangeType)
      (.cons int
      (.cons ElevatorState.serializable .nil))))
    (fun c => (c.changeType, c.changeFloor, c.state, ()))
    (fun t => ⟨t.1, t.2.1, t.2.2.1⟩)

/- The messages with a change. -/
def messageType : MessageType StateChange where
  type := .elevatorState
  serializable := serializable

/- The fields are values of their declared types. -/
def InRange
    (c : StateChange) : Prop :=
  Fits 4 c.changeType.base ∧
    Fits 4 c.changeFloor ∧
    c.state.InRange

/- The change with the timestamp the tuple keeps. -/
def received
    (c : StateChange) : StateChange :=
  { c with state := c.state.received }

end StateChange

------------------------------------------------------------
-- Session Messages
------------------------------------------------------------

/- The messages without content. -/
structure Initial where
  deriving DecidableEq, Repr

/- A process has heard of all others. -/
structure Ready where
  deriving DecidableEq, Repr

/- The messages of a process that looks for others. -/
def Initial.messageType : MessageType Initial where
  type := .initialPacket
  serializable :=
    .tupleSerializable (.tuple .nil)
      (fun _ => ()) (fun _ => {})

/- The messages of a process that is ready. -/
def Ready.messageType : MessageType Ready where
  type := .elevatorReady
  serializable :=
    .tupleSerializable (.tuple .nil)
      (fun _ => ()) (fun _ => {})

/- The peers of a process that has lost its state. -/
structure RecoveryPeers where
  peers : Finset IPv4Address
  deriving DecidableEq

/- The messages with the peers only. -/
def RecoveryPeers.messageType :
    MessageType RecoveryPeers where
  type := .recoveryPeers
  serializable :=
    .tupleSerializable
      (.tuple (.cons (.set address) .nil))
      (fun m => (m.peers, ())) (fun t => ⟨t.1⟩)

/- The state a process had before, with its peers. -/
structure RecoveryState where
  state : ElevatorState
  peers : Finset IPv4Address
  deriving DecidableEq

/- The messages with a state and the peers. -/
def RecoveryState.messageType :
    MessageType RecoveryState where
  type := .recoveryState
  serializable :=
    .tupleSerializable
      (.tuple
        (.cons ElevatorState.serializable
        (.cons (.set address) .nil)))
      (fun m => (m.state, m.peers, ()))
      (fun t => ⟨t.1, t.2.1⟩)

/- The message with the timestamp the tuple keeps. -/
def RecoveryState.received
    (m : RecoveryState) : RecoveryState :=
  { m with state := m.state.received }

------------------------------------------------------------
-- Messages
------------------------------------------------------------

/- A message of any type. -/
inductive Message where
  | command
      (m : Command)
  | stateChange
      (m : StateChange)
  | initial
      (m : Initial)
  | ready
      (m : Ready)
  | recoveryPeers
      (m : RecoveryPeers)
  | recoveryState
      (m : RecoveryState)

namespace Message

/- The fields are values of their declared types. -/
def InRange : Message → Prop
  | command m => m.InRange
  | stateChange m => m.InRange
  | initial _ => True
  | ready _ => True
  | recoveryPeers _ => True
  | recoveryState m => m.state.InRange

end Message

/- A message is read back from its packet. -/
def Arrives
    {α : Type}
    (t : MessageType α)
    (m : α) : Prop :=
  (Serializer.toPacket t m >>= Serializer.fromPacket t) =
    .just m

namespace Message

/- The message survives the wire. -/
def Survives : Message → Prop
  | command m => Arrives Command.messageType m
  | stateChange m => Arrives StateChange.messageType m
  | initial m => Arrives Initial.messageType m
  | ready m => Arrives Ready.messageType m
  | recoveryPeers m => Arrives RecoveryPeers.messageType m
  | recoveryState m => Arrives RecoveryState.messageType m

/- The timestamp of a carried state is an `int`, and so is
the size of the packet. -/
def FitsWire : Message → Prop
  | command _ => True
  | stateChange m => Fits 4 m.state.timestamp
  | initial _ => True
  | ready _ => True
  | recoveryPeers m => 16 + 4 * (m.peers.card : Int) ≤ intMax
  | recoveryState m =>
      Fits 4 m.state.timestamp ∧
        58 + 4 * (m.peers.card : Int) ≤ intMax

end Message

------------------------------------------------------------
-- Valid Fields
------------------------------------------------------------

theorem valid_floorSet
    (s : FloorSet) :
    floorSet.Valid s := by
  have hLt : s.floors.toNat < 256 ^ 8 := s.floors.isLt
  simp only [floorSet, Serializable.Valid,
    SerializableTuple.Valid]
  refine ⟨?_, hLt, trivial⟩
  cases s with
  | mk floors => simp

theorem valid_address
    (a : IPv4Address) :
    address.Valid a := by
  have hLt : a.val < 256 ^ 4 := a.isLt
  simp only [address, Serializable.Valid,
    SerializableTuple.Valid]
  refine ⟨?_, hLt, trivial⟩
  exact Fin.ofNat_val_eq_self a

/- There are fewer addresses than a container can hold. -/
theorem card_addresses
    (s : Finset IPv4Address) :
    s.card ≤ 4294967296 := by
  have hCard := s.card_le_univ
  rwa [Fintype.card_fin] at hCard

theorem valid_addresses
    (s : Finset IPv4Address) :
    (Serializable.set address).Valid s := by
  have hCard := card_addresses s
  rw [Serializable.Valid]
  exact ⟨by omega, fun a _ => valid_address a⟩

theorem valid_command
    {c : Command}
    (hRange : c.InRange) :
    Command.serializable.Valid c := by
  rcases hRange with ⟨hType, hId, hFloor⟩
  simp only [Command.serializable, Serializable.Valid,
    SerializableTuple.Valid, enumeration, int]
  exact ⟨trivial, ⟨trivial, hType⟩, hId, hFloor, trivial⟩

/- The tuple of a state does not change when its timestamp
is narrowed before. -/
theorem narrow_received
    (s : ElevatorState) :
    narrow 4 s.received.timestamp = narrow 4 s.timestamp :=
  narrow_eq (fits_narrow (by decide) _)

theorem valid_received
    {s : ElevatorState}
    (hRange : s.InRange) :
    ElevatorState.serializable.Valid s.received := by
  rcases hRange with ⟨hId, _, hFloor, hDirection⟩
  have hTimestamp := fits_narrow (n := 4) (by decide)
    s.received.timestamp
  simp only [ElevatorState.serializable, Serializable.Valid,
    SerializableTuple.Valid, enumeration, int]
  refine ⟨?_, hId, hTimestamp, hFloor,
    ⟨trivial, hDirection⟩, trivial, trivial,
    valid_floorSet _, valid_floorSet _, valid_floorSet _,
    trivial⟩
  rw [narrow_received]
  rfl

theorem serialize_received
    (s : ElevatorState) :
    ElevatorState.serializable.serialize s.received =
      ElevatorState.serializable.serialize s := by
  simp only [ElevatorState.serializable,
    Serializable.serialize]
  rw [narrow_received]
  rfl

/- A state is received unchanged exactly if its timestamp is
an `int`. -/
theorem received_eq_iff
    (s : ElevatorState) :
    s.received = s ↔ Fits 4 s.timestamp := by
  constructor
  · intro hEq
    have hTimestamp := congrArg ElevatorState.timestamp hEq
    rw [← hTimestamp]
    exact fits_narrow (by decide) _
  · intro hFits
    unfold ElevatorState.received
    rw [narrow_eq hFits]

------------------------------------------------------------
-- Survival
------------------------------------------------------------

/-
  A message whose bytes are those of a valid `v` is received
  as `v`. It arrives unchanged if it equals `v` and the size
  of its packet is an `int`.
-/
theorem arrives_iff
    {α : Type}
    {t : MessageType α}
    {m v : α}
    (hBytes : t.serializable.serialize v =
      t.serializable.serialize m)
    (hValid : t.serializable.Valid v) :
    Arrives t m ↔
      v = m ∧ (Serializer.encodedSize t m : Int) ≤ intMax := by
  unfold Arrives
  by_cases hSize :
      (Serializer.encodedSize t m : Int) ≤ intMax
  · rw [Serializer.toPacket_eq_just hSize, Outcome.just_bind,
      Serializer.fromPacket_packet hSize hBytes hValid]
    constructor
    · intro hJust
      cases hJust
      exact ⟨rfl, hSize⟩
    · intro hEq
      rw [hEq.1]
  · constructor
    · intro hJust
      cases hPacket : Serializer.toPacket t m with
      | just bytes =>
          exact absurd hPacket (Serializer.toPacket_ne_just
            (Int.not_le.mp hSize) bytes)
      | _ =>
          rw [hPacket] at hJust
          cases hJust
    · intro hEq
      exact absurd hEq.2 hSize

theorem encodedSize_command
    (c : Command) :
    Serializer.encodedSize Command.messageType c = 20 :=
  rfl

theorem size_elevatorState
    (s : ElevatorState) :
    ElevatorState.serializable.size s = 42 := by
  simp only [ElevatorState.serializable, Serializable.size,
    SerializableTuple.size, enumeration, int, floorSet]

theorem encodedSize_stateChange
    (c : StateChange) :
    Serializer.encodedSize StateChange.messageType c =
      58 := by
  have hState := size_elevatorState c.state
  simp only [Serializer.encodedSize,
    Serializer.packetDataOffset, StateChange.messageType,
    StateChange.serializable, Serializable.size,
    SerializableTuple.size, enumeration, int] at hState ⊢
  omega

theorem arrives_command
    {c : Command}
    (hRange : c.InRange) :
    Arrives Command.messageType c := by
  rw [arrives_iff rfl (valid_command hRange),
    encodedSize_command]
  exact ⟨rfl, by decide⟩

theorem arrives_stateChange
    {c : StateChange}
    (hRange : c.InRange) :
    Arrives StateChange.messageType c ↔
      Fits 4 c.state.timestamp := by
  rcases hRange with ⟨hType, hFloor, hState⟩
  have hBytes : StateChange.serializable.serialize c.received =
      StateChange.serializable.serialize c := by
    simp only [StateChange.serializable,
      Serializable.serialize, SerializableTuple.serialize,
      StateChange.received, serialize_received]
  have hValid :
      StateChange.serializable.Valid c.received := by
    simp only [StateChange.serializable, Serializable.Valid,
      SerializableTuple.Valid, enumeration, int]
    exact ⟨trivial, ⟨trivial, hType⟩, hFloor,
      valid_received hState, trivial⟩
  rw [arrives_iff hBytes hValid, encodedSize_stateChange,
    ← received_eq_iff]
  constructor
  · intro hEq
    exact congrArg StateChange.state hEq.1
  · intro hEq
    refine ⟨?_, by decide⟩
    unfold StateChange.received
    rw [hEq]

/- Addresses take four bytes each. -/
theorem size_addressList
    (l : List IPv4Address) :
    (l.map address.size).sum = 4 * l.length := by
  induction l with
  | nil => rfl
  | cons a l ih =>
      have hAddress : address.size a = 4 := rfl
      rw [List.map_cons, List.sum_cons, ih, hAddress,
        List.length_cons]
      omega

theorem size_addresses
    (s : Finset IPv4Address) :
    (Serializable.set address).size s = 8 + 4 * s.card := by
  rw [Serializable.size, size_addressList,
    Finset.length_sort]

theorem encodedSize_recoveryPeers
    (m : RecoveryPeers) :
    Serializer.encodedSize RecoveryPeers.messageType m =
      16 + 4 * m.peers.card := by
  have hPeers := size_addresses m.peers
  simp only [Serializer.encodedSize,
    Serializer.packetDataOffset, RecoveryPeers.messageType,
    Serializable.size, SerializableTuple.size] at hPeers ⊢
  omega

theorem encodedSize_recoveryState
    (m : RecoveryState) :
    Serializer.encodedSize RecoveryState.messageType m =
      58 + 4 * m.peers.card := by
  have hPeers := size_addresses m.peers
  have hState := size_elevatorState m.state
  simp only [Serializer.encodedSize,
    Serializer.packetDataOffset, RecoveryState.messageType,
    Serializable.size, SerializableTuple.size]
    at hPeers hState ⊢
  omega

theorem valid_recoveryPeers
    (m : RecoveryPeers) :
    RecoveryPeers.messageType.serializable.Valid m := by
  have hPeers := valid_addresses m.peers
  simp only [RecoveryPeers.messageType,
    Serializable.Valid, SerializableTuple.Valid] at hPeers ⊢
  exact ⟨trivial, hPeers, trivial⟩

/- What a recovery state is received as. -/
theorem valid_recoveryState
    {m : RecoveryState}
    (hRange : m.state.InRange) :
    RecoveryState.messageType.serializable.Valid
      m.received := by
  have hPeers := valid_addresses m.peers
  have hState := valid_received hRange
  simp only [RecoveryState.messageType, Serializable.Valid,
    SerializableTuple.Valid] at hPeers ⊢
  exact ⟨trivial, hState, hPeers, trivial⟩

theorem serialize_recoveryState
    (m : RecoveryState) :
    RecoveryState.messageType.serializable.serialize
        m.received =
      RecoveryState.messageType.serializable.serialize m := by
  simp only [RecoveryState.messageType,
    Serializable.serialize, SerializableTuple.serialize,
    RecoveryState.received, serialize_received]

theorem arrives_recoveryPeers
    (m : RecoveryPeers) :
    Arrives RecoveryPeers.messageType m ↔
      16 + 4 * (m.peers.card : Int) ≤ intMax := by
  rw [arrives_iff rfl (valid_recoveryPeers m),
    encodedSize_recoveryPeers]
  push_cast
  exact ⟨And.right, fun h => ⟨rfl, h⟩⟩

theorem arrives_recoveryState
    {m : RecoveryState}
    (hRange : m.state.InRange) :
    Arrives RecoveryState.messageType m ↔
      Fits 4 m.state.timestamp ∧
        58 + 4 * (m.peers.card : Int) ≤ intMax := by
  rw [arrives_iff (serialize_recoveryState m)
    (valid_recoveryState hRange), encodedSize_recoveryState,
    ← received_eq_iff]
  push_cast
  constructor
  · intro hEq
    exact ⟨congrArg RecoveryState.state hEq.1, hEq.2⟩
  · intro hEq
    refine ⟨?_, hEq.2⟩
    unfold RecoveryState.received
    rw [hEq.1]

theorem arrives_initial
    (m : Initial) :
    Arrives Initial.messageType m := by
  have hValid :
      Initial.messageType.serializable.Valid m := by
    simp [Initial.messageType, Serializable.Valid,
      SerializableTuple.Valid]
  have hSize : Serializer.encodedSize
      Initial.messageType m = 8 := rfl
  rw [arrives_iff rfl hValid, hSize]
  exact ⟨rfl, by decide⟩

theorem arrives_ready
    (m : Ready) :
    Arrives Ready.messageType m := by
  have hValid :
      Ready.messageType.serializable.Valid m := by
    simp [Ready.messageType, Serializable.Valid,
      SerializableTuple.Valid]
  have hSize : Serializer.encodedSize
      Ready.messageType m = 8 := rfl
  rw [arrives_iff rfl hValid, hSize]
  exact ⟨rfl, by decide⟩

/-
  A message survives the wire exactly if the timestamp of
  the state it carries is an `int` and the peers it carries
  are not too many for the size of a packet.
-/
theorem Message.survives_iff
    (m : Message)
    (hRange : m.InRange) :
    m.Survives ↔ m.FitsWire := by
  cases m with
  | command m =>
      exact iff_of_true (arrives_command hRange) trivial
  | stateChange m => exact arrives_stateChange hRange
  | initial m => exact iff_of_true (arrives_initial m) trivial
  | ready m => exact iff_of_true (arrives_ready m) trivial
  | recoveryPeers m => exact arrives_recoveryPeers m
  | recoveryState m => exact arrives_recoveryState hRange

/- A keep-alive of an elevator whose clock has run for 2^31
milliseconds. -/
def lateKeepAlive : StateChange where
  changeType := ⟨1⟩
  changeFloor := -2147483648
  state := {
    id := 0
    timestamp := 2147483648
    lastFloor := 0
    direction := ⟨0⟩
    stopped := false
    doorOpen := false
    insideButtons := .empty
    upButtons := .empty
    downButtons := .empty }

/- The same keep-alive at the start of the clock survives. -/
theorem Message.survives_iff_lateKeepAlive :
    (Message.stateChange { lateKeepAlive with
        state.timestamp := 0 }).Survives ↔
      (Message.stateChange { lateKeepAlive with
        state.timestamp := 0 }).FitsWire :=
  Message.survives_iff _ (by
    simp [Message.InRange, StateChange.InRange,
      ElevatorState.InRange, lateKeepAlive, Fits])

theorem Message.lateKeepAlive_lost :
    (Message.stateChange lateKeepAlive).InRange ∧
      ¬ (Message.stateChange lateKeepAlive).Survives := by
  have hRange : lateKeepAlive.InRange := by
    simp [StateChange.InRange, ElevatorState.InRange,
      lateKeepAlive, Fits]
  refine ⟨hRange, ?_⟩
  intro hArrives
  have hFits := (arrives_stateChange hRange).mp hArrives
  exact absurd hFits (by decide)

------------------------------------------------------------
-- Decoded States
------------------------------------------------------------

/- Decoding a tuple decodes its first element and then the
others. -/
theorem deserialize_cons
    {α β : Type}
    {head : Serializable α}
    {tail : SerializableTuple β}
    {bytes rest : List UInt8}
    {a : α}
    {b : β}
    (hRead : (SerializableTuple.cons head tail).deserialize
      bytes = some ((a, b), rest)) :
    ∃ rest', head.deserialize bytes = some (a, rest') ∧
      tail.deserialize rest' = some (b, rest) := by
  unfold SerializableTuple.deserialize at hRead
  rcases Option.bind_eq_some_iff.mp hRead with
    ⟨⟨a', rest'⟩, hHead, hRest⟩
  rcases Option.bind_eq_some_iff.mp hRest with
    ⟨⟨b', rest''⟩, hTail, hSome⟩
  cases hSome
  exact ⟨rest', hHead, hTail⟩

/- A decoded `int` fits its type. -/
theorem fits_int
    {bytes rest : List UInt8}
    {v : Int}
    (hRead : int.deserialize bytes = some (v, rest)) :
    Fits 4 v := by
  unfold int Serializable.deserialize at hRead
  rcases Option.bind_eq_some_iff.mp hRead with
    ⟨⟨field, rest'⟩, _, hSome⟩
  simp only [Option.pure_def, Option.some.injEq,
    Prod.mk.injEq] at hSome
  rw [← hSome.1]
  exact fits_narrow (n := 4) (by decide) _

theorem fits_enumeration
    {α : Type}
    {bytes rest : List UInt8}
    {v : Enumeration α}
    (hRead : (enumeration α).deserialize bytes =
      some (v, rest)) :
    Fits 4 v.base := by
  unfold enumeration Serializable.deserialize at hRead
  rcases Option.bind_eq_some_iff.mp hRead with
    ⟨⟨base, rest'⟩, hBase, hSome⟩
  cases hSome
  exact fits_int hBase

/- A decoded state has fields of their declared types. -/
theorem inRange_deserialize
    {bytes rest : List UInt8}
    {s : ElevatorState}
    (hRead : ElevatorState.serializable.deserialize bytes =
      some (s, rest)) :
    s.InRange := by
  unfold ElevatorState.serializable at hRead
  rw [Serializable.deserialize] at hRead
  rcases Option.bind_eq_some_iff.mp hRead with
    ⟨⟨⟨id, timestamp, lastFloor, direction, others⟩, rest'⟩,
      hTuple, hSome⟩
  cases hSome
  rw [Serializable.deserialize] at hTuple
  rcases deserialize_cons hTuple with ⟨_, hId, hTuple₁⟩
  rcases deserialize_cons hTuple₁ with
    ⟨_, hTimestamp, hTuple₂⟩
  rcases deserialize_cons hTuple₂ with
    ⟨_, hLastFloor, hTuple₃⟩
  rcases deserialize_cons hTuple₃ with ⟨_, hDirection, _⟩
  have hInt := fits_int hTimestamp
  refine ⟨fits_int hId, ?_, fits_int hLastFloor,
    fits_enumeration hDirection⟩
  unfold Fits at hInt ⊢
  dsimp only
  omega

/- What is read from a packet has been decoded from some
bytes. -/
theorem deserialize_of_fromPacket
    {α : Type}
    {t : MessageType α}
    {packet : List UInt8}
    {m : α}
    (hRead : Serializer.fromPacket t packet = .just m) :
    ∃ data rest,
      t.serializable.deserialize data = some (m, rest) := by
  by_cases hFramed : Serializer.WellFramed packet
  case neg =>
    rcases Serializer.fromPacket_not_wellFramed (t := t)
      hFramed with hOut | hOut
    · rw [hOut] at hRead
      cases hRead
    · rw [hOut] at hRead
      cases hRead
  rw [Serializer.fromPacket_eq hFramed] at hRead
  unfold Serializer.deserialize at hRead
  split at hRead
  · cases hRead
  rcases Outcome.bind_eq_just hRead with ⟨p, hData, hRest⟩
  rcases Outcome.bind_eq_just hRest with ⟨_, _, hSame⟩
  refine ⟨Serializer.payload packet, p.2, ?_⟩
  rw [Outcome.access_eq_just hData, ← Outcome.just.inj hSame]

/- So has the state of a recovery message. -/
theorem inRange_recoveryState
    {packet : List UInt8}
    {m : RecoveryState}
    (hRead : Serializer.fromPacket RecoveryState.messageType
      packet = .just m) :
    m.state.InRange := by
  rcases deserialize_of_fromPacket hRead with
    ⟨data, rest, hData⟩
  unfold RecoveryState.messageType at hData
  dsimp only at hData
  rw [Serializable.deserialize] at hData
  rcases Option.bind_eq_some_iff.mp hData with
    ⟨⟨⟨state, others⟩, _⟩, hTuple, hSome⟩
  cases hSome
  rw [Serializable.deserialize] at hTuple
  rcases deserialize_cons hTuple with ⟨_, hState, _⟩
  exact inRange_deserialize hState

end Wire

end ElevatorControl
