import ElevatorControl.Wire.Messages

/-
  Which received packets are decoded without leaving them.

  The decoder of a message without sets needs a fixed number
  of bytes. A set of addresses needs as many as its element
  count says, and the count is read from the packet.

  Key definitions include:
    * `Outcome.Inside`
    * `Wire.MessageKind`
    * `Wire.MessageKind.reads`
    * `Wire.Decodable`

  Key theorems include:
    * `Wire.decode_inside_iff`
-/

------------------------------------------------------------
-- Outcomes Inside the Packet
------------------------------------------------------------

namespace ElevatorControl

open LittleEndian Reader

/- The call ends with a value, without one, or with a failed
assertion. -/
def Outcome.Inside
    {α : Type} : Outcome α → Prop
  | just _ => True
  | nothing => True
  | failed _ => True
  | badAlloc => False
  | outOfRange => False

namespace Wire

/- The message types. -/
inductive MessageKind where
  | command
  | stateChange
  | initial
  | ready
  | recoveryPeers
  | recoveryState
  deriving DecidableEq, Repr

namespace MessageKind

/- The values of a message type. -/
def Content : MessageKind → Type
  | command => Command
  | stateChange => StateChange
  | initial => Initial
  | ready => Ready
  | recoveryPeers => RecoveryPeers
  | recoveryState => RecoveryState

/- The message type of each kind. -/
def messageType :
    (kind : MessageKind) → MessageType kind.Content
  | command => Command.messageType
  | stateChange => StateChange.messageType
  | initial => Initial.messageType
  | ready => Ready.messageType
  | recoveryPeers => RecoveryPeers.messageType
  | recoveryState => RecoveryState.messageType

/- The number of elements a set at the front declares. -/
def declaredCount
    (bytes : List UInt8) : Nat :=
  (decodeInt 8 (bytes.take 8)).toNat

/- The number of bytes the decoder reads from the payload. -/
def reads : MessageKind → List UInt8 → Nat
  | command, _ => 12
  | stateChange, _ => 50
  | initial, _ => 0
  | ready, _ => 0
  | recoveryPeers, data => 8 + declaredCount data * 4
  | recoveryState, data =>
      50 + declaredCount (data.drop 42) * 4

end MessageKind

/-
  The payload lies in the packet, and if the packet is of the
  expected type, what the decoder reads lies in the payload.
-/
def Decodable
    (kind : MessageKind)
    (packet : List UInt8) : Prop :=
  Serializer.WellFramed packet ∧
    (Serializer.declaredType packet =
        kind.messageType.type.value →
      kind.reads (Serializer.payload packet) ≤
        (Serializer.payload packet).length)

------------------------------------------------------------
-- Decoders of Fixed Length
------------------------------------------------------------

theorem fixed_int :
    Fixed int.deserialize 4 :=
  (fixed_take 4).map (decodeInt 4)

theorem fixed_enumeration
    (α : Type) :
    Fixed (enumeration α).deserialize 4 :=
  fixed_int.map Enumeration.mk

theorem fixed_bool :
    Fixed Serializable.bool.deserialize 1 :=
  (fixed_take 1).map fun field => decide (decode field ≠ 0)

theorem fixed_nil :
    Fixed SerializableTuple.nil.deserialize 0 :=
  needs_pure ()

/- The elements of a tuple are read in sequence. -/
theorem fixed_cons
    {α β : Type}
    {head : Serializable α}
    {tail : SerializableTuple β}
    {n m : Nat}
    (hHead : Fixed head.deserialize n)
    (hTail : Fixed tail.deserialize m) :
    Fixed (SerializableTuple.cons head tail).deserialize
      (n + m) :=
  hHead.bind fun a => hTail.map fun b => (a, b)

theorem fixed_tupleSerializable
    {α β : Type}
    {base : Serializable β}
    {toTuple : α → β}
    {ofTuple : β → α}
    {n : Nat}
    (hBase : Fixed base.deserialize n) :
    Fixed (Serializable.tupleSerializable base toTuple
      ofTuple).deserialize n :=
  hBase.map ofTuple

theorem fixed_uint
    (n : Nat) :
    Fixed (Serializable.uint n).deserialize n :=
  (fixed_take n).map decode

theorem fixed_floorSet :
    Fixed floorSet.deserialize 8 :=
  fixed_tupleSerializable
    (fixed_cons (fixed_uint 8) fixed_nil)

theorem fixed_address :
    Fixed address.deserialize 4 :=
  fixed_tupleSerializable
    (fixed_cons (fixed_uint 4) fixed_nil)

theorem fixed_command :
    Fixed Command.serializable.deserialize 12 :=
  fixed_tupleSerializable
    (fixed_cons (fixed_enumeration _)
    (fixed_cons fixed_int (fixed_cons fixed_int fixed_nil)))

theorem fixed_elevatorState :
    Fixed ElevatorState.serializable.deserialize 42 :=
  fixed_tupleSerializable
    (fixed_cons fixed_int (fixed_cons fixed_int
    (fixed_cons fixed_int
    (fixed_cons (fixed_enumeration _)
    (fixed_cons fixed_bool (fixed_cons fixed_bool
    (fixed_cons fixed_floorSet (fixed_cons fixed_floorSet
    (fixed_cons fixed_floorSet fixed_nil)))))))))

theorem fixed_stateChange :
    Fixed StateChange.serializable.deserialize 50 :=
  fixed_tupleSerializable
    (fixed_cons (fixed_enumeration _)
    (fixed_cons fixed_int
    (fixed_cons fixed_elevatorState fixed_nil)))

------------------------------------------------------------
-- Decoders of Sets
------------------------------------------------------------

open MessageKind in
/- A set needs its element count and the declared elements. -/
theorem needs_addresses
    (bytes : List UInt8) :
    Needs (Serializable.set address).deserialize bytes
      (8 + declaredCount bytes * 4) := by
  have hElements : ∀ field,
      take 8 bytes = some (field, bytes.drop 8) →
        Needs (many address.deserialize
          (decodeInt 8 field).toNat) (bytes.drop 8)
          (declaredCount bytes * 4) := by
    intro field hField
    have hCount : field = bytes.take 8 := by
      unfold take at hField
      split at hField
      · cases hField
        rfl
      · cases hField
    rw [hCount]
    exact fixed_address.many (declaredCount bytes) _
  have hStore := (fixed_take 8 bytes).bind hElements
  exact hStore.map List.toFinset

/- A tuple whose first element needs `n` bytes. -/
theorem needs_cons
    {α β : Type}
    {head : Serializable α}
    {tail : SerializableTuple β}
    {data : List UInt8}
    {n m : Nat}
    (hHead : Needs head.deserialize data n)
    (hTail : Needs tail.deserialize (data.drop n) m) :
    Needs (SerializableTuple.cons head tail).deserialize
      data (n + m) :=
  hHead.bind fun a _ => hTail.map fun b => (a, b)

theorem needs_tupleSerializable
    {α β : Type}
    {base : Serializable β}
    {toTuple : α → β}
    {ofTuple : β → α}
    {data : List UInt8}
    {n : Nat}
    (hBase : Needs base.deserialize data n) :
    Needs (Serializable.tupleSerializable base toTuple
      ofTuple).deserialize data n :=
  hBase.map ofTuple

/- The decoder of a message needs the bytes it reads. -/
theorem needs_message
    (kind : MessageKind)
    (data : List UInt8) :
    Needs kind.messageType.serializable.deserialize data
      (kind.reads data) := by
  cases kind with
  | command => exact fixed_command data
  | stateChange => exact fixed_stateChange data
  | initial =>
      have hNil : Needs (Serializable.tuple
          .nil).deserialize data 0 := fixed_nil data
      exact needs_tupleSerializable hNil
  | ready =>
      have hNil : Needs (Serializable.tuple
          .nil).deserialize data 0 := fixed_nil data
      exact needs_tupleSerializable hNil
  | recoveryPeers =>
      have hReads : MessageKind.recoveryPeers.reads data =
          8 + MessageKind.declaredCount data * 4 + 0 := by
        simp only [MessageKind.reads]
        omega
      have hTuple : Needs (Serializable.tuple
          (.cons (.set address) .nil)).deserialize data
          (8 + MessageKind.declaredCount data * 4 + 0) :=
        needs_cons (needs_addresses data) (fixed_nil _)
      rw [hReads]
      exact needs_tupleSerializable hTuple
  | recoveryState =>
      have hReads : MessageKind.recoveryState.reads data =
          42 + (8 + MessageKind.declaredCount
            (data.drop 42) * 4 + 0) := by
        simp only [MessageKind.reads]
        omega
      have hTuple : Needs (Serializable.tuple
          (.cons ElevatorState.serializable
          (.cons (.set address) .nil))).deserialize data
          (MessageKind.recoveryState.reads data) := by
        rw [hReads]
        exact needs_cons (fixed_elevatorState data)
          (needs_cons (needs_addresses _) (fixed_nil _))
      exact needs_tupleSerializable hTuple

------------------------------------------------------------
-- Decoding
------------------------------------------------------------

/- Decoding the payload leaves it only when the bytes run
out. -/
theorem deserialize_inside_iff
    {α : Type}
    {t : MessageType α}
    {s : Serialized} :
    (Serializer.deserialize t s).Inside ↔
      (s.type = t.type.value →
        t.serializable.deserialize s.data ≠ none) := by
  unfold Serializer.deserialize
  by_cases hType : t.type.value = s.type
  case neg =>
    rw [if_pos hType]
    exact iff_of_true trivial fun h => absurd h.symm hType
  rw [if_neg (fun h => h hType)]
  cases hData : t.serializable.deserialize s.data with
  | none =>
      exact iff_of_false id fun h => h hType.symm rfl
  | some p =>
      refine iff_of_true ?_ fun _ => Option.some_ne_none _
      simp only [Outcome.access, Outcome.just_bind,
        Outcome.assert]
      split
      · trivial
      · trivial

/-
  Reading the type and the message of a packet stays inside
  the packet exactly if the packet is decodable: it has a
  whole header, a declared payload size that is not negative
  and lies in the packet, and, for a packet of the expected
  type, enough payload.
-/
theorem decode_inside_iff
    (kind : MessageKind)
    (packet : List UInt8) :
    ((Serializer.packetType packet).Inside ∧
        (Serializer.fromPacket kind.messageType
          packet).Inside) ↔
      Decodable kind packet := by
  by_cases hFramed : Serializer.WellFramed packet
  case neg =>
    refine iff_of_false ?_ fun h => hFramed h.1
    rintro ⟨_, hInside⟩
    rcases Serializer.fromPacket_not_wellFramed
      (t := kind.messageType) hFramed with hOut | hOut
    · rw [hOut] at hInside
      exact hInside
    · rw [hOut] at hInside
      exact hInside
  have hType : (Serializer.packetType packet).Inside := by
    have hOffset : Serializer.packetDataOffset = 8 := rfl
    have hHeader := hFramed.1
    unfold Serializer.packetType
    rw [Serializer.get_eq (by omega)]
    trivial
  rw [Serializer.fromPacket_eq hFramed,
    deserialize_inside_iff, (needs_message kind _).ne_none_iff]
  dsimp only
  exact ⟨fun h => ⟨hFramed, h.2⟩, fun h => ⟨hType, h.2⟩⟩

/- A datagram of a single byte leaves no room for the type. -/
theorem oneByte_leaves :
    Serializer.packetType [0] = .outOfRange ∧
      ¬ ((Serializer.packetType [0]).Inside ∧
        (Serializer.fromPacket
          MessageKind.command.messageType [0]).Inside) := by
  have hType : Serializer.packetType [0] = .outOfRange := rfl
  refine ⟨hType, ?_⟩
  rintro ⟨hInside, _⟩
  rw [hType] at hInside
  exact hInside

end Wire

end ElevatorControl
