import ElevatorControl.State
import ElevatorControl.Wire.Serializable

/-
  The packet layer over the serialization framework.

  A packet starts with the type signature and the size of
  the payload, each a signed integer of four bytes. Reads
  and copies are partial: an access past the end of a buffer
  is an outcome of its own, as is the allocation of a buffer
  of negative size.

  Key definitions include:
    * `Outcome`
    * `MessageType`
    * `Serializer.toPacket`
    * `Serializer.packetType`
    * `Serializer.fromPacket`

  Key theorems include:
    * `Serializer.toPacket_eq_just`
    * `Serializer.fromPacket_eq`
    * `Serializer.fromPacket_packet`
-/

------------------------------------------------------------
-- Outcomes
------------------------------------------------------------

namespace ElevatorControl

open LittleEndian Reader

/- How a call of the packet layer ends. -/
inductive Outcome (α : Type) where
  | just
      (v : α)
  | nothing
  | failed
      (e : AssertionFailed)
  | badAlloc
  | outOfRange
  deriving DecidableEq, Repr

namespace Outcome

/- What does not end with a value ends all. -/
def bind
    {α β : Type}
    (x : Outcome α)
    (f : α → Outcome β) : Outcome β :=
  match x with
  | just v => f v
  | nothing => nothing
  | failed e => failed e
  | badAlloc => badAlloc
  | outOfRange => outOfRange

instance : Monad Outcome where
  pure := just
  bind := bind

@[simp] theorem just_bind
    {α β : Type}
    (v : α)
    (f : α → Outcome β) :
    (just v >>= f) = f v :=
  rfl

@[simp] theorem outOfRange_bind
    {α β : Type}
    (f : α → Outcome β) :
    (outOfRange >>= f) = outOfRange :=
  rfl

@[simp] theorem badAlloc_bind
    {α β : Type}
    (f : α → Outcome β) :
    (badAlloc >>= f) = badAlloc :=
  rfl

/- A conditional assertion. -/
def assert
    (cond : Prop)
    [Decidable cond]
    (msg : String) : Outcome Unit :=
  if cond then just () else failed ⟨msg, .generall⟩

/- A partial access to a buffer. -/
def access
    {α : Type} : Option α → Outcome α
  | some v => just v
  | none => outOfRange

/- A sequence with a value has a value at each stage. -/
theorem bind_eq_just
    {α β : Type}
    {x : Outcome α}
    {f : α → Outcome β}
    {v : β}
    (hBind : x >>= f = just v) :
    ∃ a, x = just a ∧ f a = just v := by
  cases x with
  | just a => exact ⟨a, rfl, hBind⟩
  | nothing => cases hBind
  | failed e => cases hBind
  | badAlloc => cases hBind
  | outOfRange => cases hBind

theorem access_eq_just
    {α : Type}
    {o : Option α}
    {v : α}
    (hAccess : access o = just v) :
    o = some v := by
  cases o with
  | none => cases hAccess
  | some a => rw [just.inj hAccess]

end Outcome

------------------------------------------------------------
-- Message Types
------------------------------------------------------------

/- The type tags of the messages. -/
inductive TypeSignature where
  | noType
  | testType
  | elevatorCommand
  | elevatorState
  | initialPacket
  | elevatorReady
  | recoveryState
  | recoveryPeers
  deriving DecidableEq, Repr

/- The number of a type tag. -/
def TypeSignature.value : TypeSignature → Int
  | .noType => 0
  | .testType => 1
  | .elevatorCommand => 2
  | .elevatorState => 3
  | .initialPacket => 4
  | .elevatorReady => 5
  | .recoveryState => 6
  | .recoveryPeers => 7

theorem TypeSignature.fits_value
    (type : TypeSignature) :
    Fits 4 type.value := by
  cases type <;> decide

/- A message type: its tag and how it is serialized. -/
structure MessageType (α : Type) where
  type : TypeSignature
  serializable : Serializable α

/- A serialized message with the number of its type. -/
structure Serialized where
  type : Int
  data : List UInt8
  deriving DecidableEq, Repr

/- Copy `size` bytes of `data`. -/
def Serialized.copy
    (type : Int)
    (data : List UInt8)
    (size : Int) : Outcome Serialized := do
  if size < 0 then
    .badAlloc
  else
    let (bytes, _) ← .access (take size.toNat data)
    return ⟨type, bytes⟩

------------------------------------------------------------
-- Packets
------------------------------------------------------------

namespace Serializer

/- The size of the header. -/
def packetDataOffset : Nat := 8

/- Read an integer of four bytes. -/
def get
    (packet : List UInt8)
    (position : Nat) : Outcome Int := do
  let (field, _) ← .access (take 4 (packet.drop position))
  return decodeInt 4 field

/- The assertion on the written size always succeeds. -/
def serialize
    {α : Type}
    (t : MessageType α)
    (w : α) : Serialized :=
  ⟨t.type.value, t.serializable.serialize w⟩

/- Read the value of a message of the right type. -/
def deserialize
    {α : Type}
    (t : MessageType α)
    (s : Serialized) : Outcome α := do
  if t.type.value ≠ s.type then
    .nothing
  else
    let (data, _) ←
      .access (t.serializable.deserialize s.data)
    Outcome.assert
      (s.data.length = t.serializable.size data) "wrong size"
    return data

/- The size of the packet as an `int`. -/
def packetSize
    (serial : Serialized) : Int :=
  narrow 4 (packetDataOffset + serial.data.length)

/- The bytes of the packet. -/
def packet
    (serial : Serialized) : List UInt8 :=
  encodeInt 4 serial.type ++
    (encodeInt 4 serial.data.length ++ serial.data)

/-
  The packet is allocated by its size as an `int`, and then
  the header and the whole payload are written to it.
-/
def toPacket
    {α : Type}
    (t : MessageType α)
    (w : α) : Outcome (List UInt8) := do
  let serial := serialize t w
  if packetSize serial < 0 then
    .badAlloc
  else
    Outcome.assert (1 ≤ packetSize serial) "invalid size"
    if packetSize serial <
        packetDataOffset + serial.data.length then
      .outOfRange
    else
      return packet serial

/- The type in the header. -/
def packetType
    (packet : List UInt8) : Outcome Int :=
  get packet 0

/- Read the message from its header and payload. -/
def fromPacket
    {α : Type}
    (t : MessageType α)
    (packet : List UInt8) : Outcome α := do
  let type ← get packet 0
  let size ← get packet 4
  let serial ← Serialized.copy type
    (packet.drop packetDataOffset) size
  deserialize t serial

/- The size of the receive buffer of a socket. -/
def standardMTU : Nat := 1500

/- The packet a socket makes of a datagram: what does not fit
the receive buffer is cut off. -/
def recvPacket
    (datagram : List UInt8) : List UInt8 :=
  datagram.take standardMTU

------------------------------------------------------------
-- Encoding
------------------------------------------------------------

/- The bytes a message takes in a packet. -/
def encodedSize
    {α : Type}
    (t : MessageType α)
    (w : α) : Nat :=
  packetDataOffset + t.serializable.size w

theorem length_data
    {α : Type}
    (t : MessageType α)
    (w : α) :
    (serialize t w).data.length = t.serializable.size w :=
  t.serializable.length_serialize w

/- The size of a packet is positive, so it fits an `int`
exactly if it is at most `INT_MAX`. -/
theorem fits_size
    {n : Nat} :
    Fits 4 n ↔ (n : Int) ≤ intMax := by
  unfold Fits intMax
  omega

theorem packetSize_eq
    {α : Type}
    {t : MessageType α}
    {w : α}
    (hSize : (encodedSize t w : Int) ≤ intMax) :
    packetSize (serialize t w) = encodedSize t w := by
  unfold packetSize
  rw [length_data]
  exact narrow_eq (fits_size.mpr hSize)

/- A message becomes a packet exactly if the size of the
packet is an `int`. -/
theorem toPacket_eq_just
    {α : Type}
    {t : MessageType α}
    {w : α}
    (hSize : (encodedSize t w : Int) ≤ intMax) :
    toPacket t w = .just (packet (serialize t w)) := by
  have hPacket := packetSize_eq hSize
  have hData : (packetDataOffset : Int) +
      (serialize t w).data.length = encodedSize t w := by
    rw [length_data]
    rfl
  have hPos : (1 : Int) ≤ encodedSize t w := by
    have hOffset : packetDataOffset = 8 := rfl
    unfold encodedSize
    omega
  unfold toPacket
  dsimp only
  rw [hPacket, hData, if_neg (by omega), Outcome.assert,
    if_pos hPos, Outcome.just_bind, if_neg (by omega)]
  rfl

theorem toPacket_ne_just
    {α : Type}
    {t : MessageType α}
    {w : α}
    (hSize : intMax < (encodedSize t w : Int))
    (bytes : List UInt8) :
    toPacket t w ≠ .just bytes := by
  have hData : (packetDataOffset : Int) +
      (serialize t w).data.length = encodedSize t w := by
    rw [length_data]
    rfl
  have hNarrow : packetSize (serialize t w) <
      (encodedSize t w : Int) := by
    have hFits : Fits 4 (packetSize (serialize t w)) :=
      fits_narrow (by decide) _
    unfold Fits at hFits
    unfold intMax at hSize
    omega
  unfold toPacket
  dsimp only
  rw [hData]
  intro hJust
  by_cases hNegative : packetSize (serialize t w) < 0
  · rw [if_pos hNegative] at hJust
    cases hJust
  · rw [if_neg hNegative, Outcome.assert,
      if_pos hNarrow] at hJust
    split at hJust
    · cases hJust
    · cases hJust

------------------------------------------------------------
-- Decoding
------------------------------------------------------------

theorem get_eq
    {packet : List UInt8}
    {position : Nat}
    (hLength : position + 4 ≤ packet.length) :
    get packet position =
      .just (decodeInt 4 ((packet.drop position).take 4)) := by
  have hField : 4 ≤ (packet.drop position).length := by
    rw [List.length_drop]
    omega
  unfold get take
  rw [if_pos hField]
  rfl

theorem get_outOfRange
    {packet : List UInt8}
    {position : Nat}
    (hLength : packet.length < position + 4) :
    get packet position = .outOfRange := by
  have hField : ¬ 4 ≤ (packet.drop position).length := by
    rw [List.length_drop]
    omega
  unfold get take
  rw [if_neg hField]
  rfl

/- The type and the payload size a packet declares. -/
def declaredType
    (packet : List UInt8) : Int :=
  decodeInt 4 (packet.take 4)

/- The payload size in the header. -/
def declaredSize
    (packet : List UInt8) : Int :=
  decodeInt 4 ((packet.drop 4).take 4)

/- The payload of a packet. -/
def payload
    (packet : List UInt8) : List UInt8 :=
  (packet.drop packetDataOffset).take
    (declaredSize packet).toNat

/- The header is complete, and the declared payload lies in
the packet. -/
def WellFramed
    (packet : List UInt8) : Prop :=
  packetDataOffset ≤ packet.length ∧
    0 ≤ declaredSize packet ∧
    packetDataOffset + declaredSize packet ≤ packet.length

instance
    (packet : List UInt8) : Decidable (WellFramed packet) := by
  unfold WellFramed
  infer_instance

/- A well framed packet is decoded from its payload. -/
theorem fromPacket_eq
    {α : Type}
    {t : MessageType α}
    {packet : List UInt8}
    (hFramed : WellFramed packet) :
    fromPacket t packet =
      deserialize t ⟨declaredType packet, payload packet⟩ := by
  rcases hFramed with ⟨hHeader, hNonneg, hSize⟩
  have hOffset : packetDataOffset = 8 := rfl
  have hField : (declaredSize packet).toNat ≤
      (packet.drop packetDataOffset).length := by
    rw [List.length_drop]
    omega
  have hNegative : ¬ declaredSize packet < 0 := by omega
  unfold fromPacket
  rw [get_eq (by omega), get_eq (by omega),
    Outcome.just_bind, Outcome.just_bind]
  change Serialized.copy (declaredType packet) _
    (declaredSize packet) >>= _ = _
  unfold Serialized.copy take
  rw [if_neg hNegative, if_pos hField]
  rfl

/- Any other packet is read past its end, or its declared
size cannot be allocated. -/
theorem fromPacket_not_wellFramed
    {α : Type}
    {t : MessageType α}
    {packet : List UInt8}
    (hFramed : ¬ WellFramed packet) :
    fromPacket t packet = .outOfRange ∨
      fromPacket t packet = .badAlloc := by
  have hOffset : packetDataOffset = 8 := rfl
  unfold fromPacket
  by_cases hType : 4 ≤ packet.length
  case neg =>
    left
    rw [get_outOfRange (by omega)]
    rfl
  rw [get_eq (by omega), Outcome.just_bind]
  by_cases hHeader : 8 ≤ packet.length
  case neg =>
    left
    rw [get_outOfRange (by omega)]
    rfl
  rw [get_eq (by omega), Outcome.just_bind]
  change (Serialized.copy _ _ (declaredSize packet) >>= _ =
      _) ∨
    (Serialized.copy _ _ (declaredSize packet) >>= _ = _)
  unfold Serialized.copy
  by_cases hNegative : declaredSize packet < 0
  · right
    rw [if_pos hNegative]
    rfl
  · left
    have hField : ¬ (declaredSize packet).toNat ≤
        (packet.drop packetDataOffset).length := by
      intro hField
      apply hFramed
      rw [List.length_drop] at hField
      refine ⟨by omega, by omega, by omega⟩
    unfold take
    rw [if_neg hNegative, if_neg hField]
    rfl

------------------------------------------------------------
-- Encoded Packets
------------------------------------------------------------

theorem length_packet
    (serial : Serialized) :
    (packet serial).length =
      packetDataOffset + serial.data.length := by
  have hOffset : packetDataOffset = 8 := rfl
  unfold packet
  rw [List.length_append, List.length_append,
    length_encodeInt, length_encodeInt, hOffset]
  omega

/- A datagram that fits the receive buffer is received
whole. -/
theorem recvPacket_eq
    {datagram : List UInt8}
    (hLength : datagram.length ≤ standardMTU) :
    recvPacket datagram = datagram :=
  List.take_of_length_le hLength

/- The type of a packet, whatever lies behind it. -/
theorem packetType_packet
    {serial : Serialized}
    (hType : Fits 4 serial.type)
    (memory : List UInt8) :
    packetType (packet serial ++ memory) =
      .just serial.type := by
  have hTypeLength := length_encodeInt 4 serial.type
  unfold packetType
  rw [get_eq (by
    rw [List.length_append, length_packet]
    unfold packetDataOffset
    omega)]
  unfold packet
  rw [List.append_assoc, List.drop_zero,
    List.take_left' hTypeLength, decodeInt_encodeInt hType]

/-
  The packet of a message declares its type and carries
  exactly its bytes, whatever lies behind it.
-/
theorem declared_packet
    {serial : Serialized}
    (hType : Fits 4 serial.type)
    (hSize : ((packetDataOffset + serial.data.length : Nat) :
      Int) ≤ intMax)
    (memory : List UInt8) :
    WellFramed (packet serial ++ memory) ∧
      declaredType (packet serial ++ memory) =
        serial.type ∧
      payload (packet serial ++ memory) = serial.data := by
  have hOffset : packetDataOffset = 8 := rfl
  have hTypeLength := length_encodeInt 4 serial.type
  have hSizeLength := length_encodeInt 4 serial.data.length
  have hFits : Fits 4 serial.data.length :=
    fits_size.mpr (by omega)
  have hDrop :
      (packet serial ++ memory).drop packetDataOffset =
        serial.data ++ memory := by
    unfold packet
    rw [← List.append_assoc, List.append_assoc]
    apply List.drop_left'
    rw [List.length_append, hTypeLength, hSizeLength, hOffset]
  have hDeclared : declaredSize (packet serial ++ memory) =
      serial.data.length := by
    unfold declaredSize packet
    rw [List.append_assoc, List.drop_left' hTypeLength,
      List.append_assoc, List.take_left' hSizeLength,
      decodeInt_encodeInt hFits]
  have hLength :
      packetDataOffset + serial.data.length ≤
        (packet serial ++ memory).length := by
    rw [List.length_append, length_packet]
    omega
  refine ⟨⟨by omega, by omega, by omega⟩, ?_, ?_⟩
  · unfold declaredType packet
    rw [List.append_assoc, List.take_left' hTypeLength,
      decodeInt_encodeInt hType]
  · unfold payload
    rw [hDeclared, hDrop, Int.toNat_natCast, List.take_left]

/-
  A message whose packet has an `int` size arrives as the
  value its bytes decode to, whatever lies behind the
  packet.
-/
theorem fromPacket_append
    {α : Type}
    {t : MessageType α}
    {w v : α}
    (hSize : (encodedSize t w : Int) ≤ intMax)
    (hBytes : t.serializable.serialize v =
      t.serializable.serialize w)
    (hValid : t.serializable.Valid v)
    (memory : List UInt8) :
    fromPacket t (packet (serialize t w) ++ memory) =
      .just v := by
  have hLength : ((packetDataOffset +
      (serialize t w).data.length : Nat) : Int) ≤ intMax := by
    rw [length_data]
    exact hSize
  rcases declared_packet t.type.fits_value hLength memory
    with ⟨hFramed, hType, hPayload⟩
  have hRead :=
    t.serializable.deserialize_serialize v hValid []
  rw [List.append_nil] at hRead
  have hData : (serialize t w).data =
      t.serializable.serialize v := hBytes.symm
  rw [fromPacket_eq hFramed, hType, hPayload, hData]
  unfold deserialize
  rw [if_neg (fun h => h rfl), hRead,
    t.serializable.length_serialize]
  simp only [Outcome.access, Outcome.just_bind,
    Outcome.assert, if_pos]
  rfl

theorem fromPacket_packet
    {α : Type}
    {t : MessageType α}
    {w v : α}
    (hSize : (encodedSize t w : Int) ≤ intMax)
    (hBytes : t.serializable.serialize v =
      t.serializable.serialize w)
    (hValid : t.serializable.Valid v) :
    fromPacket t (packet (serialize t w)) = .just v := by
  have hArrives := fromPacket_append hSize hBytes hValid []
  rwa [List.append_nil] at hArrives

------------------------------------------------------------
-- Packets Cut Off
------------------------------------------------------------

/- What is received of a packet that exceeds the buffer. -/
theorem recvPacket_cut
    (serial : Serialized) :
    recvPacket (packet serial) =
      encodeInt 4 serial.type ++
        (encodeInt 4 serial.data.length ++
          serial.data.take 1492) := by
  have hType := length_encodeInt 4 serial.type
  have hSize := length_encodeInt 4 serial.data.length
  unfold recvPacket packet standardMTU
  rw [List.take_append, List.take_append, hType, hSize,
    List.take_of_length_le (by omega),
    List.take_of_length_le (by omega)]

/- A packet that exceeds the buffer is not received whole,
but its type is. -/
theorem not_wellFramed_cut
    {serial : Serialized}
    (hSize : ((packetDataOffset + serial.data.length : Nat) :
      Int) ≤ intMax)
    (hLong : standardMTU <
      packetDataOffset + serial.data.length) :
    ¬ WellFramed (recvPacket (packet serial)) := by
  have hOffset : packetDataOffset = 8 := rfl
  have hMTU : standardMTU = 1500 := rfl
  have hTypeLength := length_encodeInt 4 serial.type
  have hSizeLength := length_encodeInt 4 serial.data.length
  have hFits : Fits 4 serial.data.length :=
    fits_size.mpr (by omega)
  have hDeclared : declaredSize (recvPacket (packet serial)) =
      serial.data.length := by
    unfold declaredSize
    rw [recvPacket_cut, List.drop_left' hTypeLength,
      List.take_left' hSizeLength,
      decodeInt_encodeInt hFits]
  have hLength : (recvPacket (packet serial)).length ≤
      standardMTU := by
    unfold recvPacket
    rw [List.length_take]
    omega
  rintro ⟨_, _, hInside⟩
  rw [hDeclared] at hInside
  omega

theorem packetType_cut
    {serial : Serialized}
    (hType : Fits 4 serial.type) :
    packetType (recvPacket (packet serial)) =
      .just serial.type := by
  have hTypeLength := length_encodeInt 4 serial.type
  unfold packetType
  rw [recvPacket_cut, get_eq (by
    rw [List.length_append]
    omega), List.drop_zero,
    List.take_left' hTypeLength, decodeInt_encodeInt hType]

end Serializer

end ElevatorControl
