import ElevatorControl.Wire.Bounds

/-
  Messages that are passed on.

  Many byte strings are decoded as the same message, as the
  elements of a set may come in any order. What the decoder
  accepts is nevertheless a value of the declared type, so a
  node that sends a received message again sends one that
  everybody accepts, as the same message.

  Key definitions include:
    * `Serializable.Rebuilds`

  Key theorems include:
    * `Serializable.valid_of_deserialize`
    * `Serializable.deserialize_again`
    * `Serializer.repacked`
    * `Wire.passed_on`
-/

------------------------------------------------------------
-- Decoded Values
------------------------------------------------------------

namespace ElevatorControl

open LittleEndian Reader

/- What is rebuilt from a valid value of the base type is
converted to a valid value, and is rebuilt from that too. -/
def Serializable.Agrees
    {α β : Type}
    (base : Serializable β)
    (toBase : α → β)
    (ofBase : β → α) : Prop :=
  ∀ b, base.Valid b →
    base.Valid (toBase (ofBase b)) ∧
      ofBase (toBase (ofBase b)) = ofBase b

mutual

/- All conversions of the enumerations and the structures in
the type agree. -/
def Serializable.Rebuilds
    {α : Type}
    (t : Serializable α) : Prop :=
  match α, t with
  | _, .int _ => True
  | _, .uint _ => True
  | _, .bool => True
  | _, .enum base toBase ofBase =>
      base.Rebuilds ∧ base.Agrees toBase ofBase
  | _, .tuple elements => elements.Rebuilds
  | _, .vector value => value.Rebuilds
  | _, @Serializable.set _ _ value => value.Rebuilds
  | _, .tupleSerializable base toTuple ofTuple =>
      base.Rebuilds ∧ base.Agrees toTuple ofTuple

/- Every element is of such a type. -/
def SerializableTuple.Rebuilds
    {α : Type}
    (t : SerializableTuple α) : Prop :=
  match α, t with
  | _, .nil => True
  | _, .cons head tail => head.Rebuilds ∧ tail.Rebuilds

end

/- A container has as many elements as it declares, and each
has been read from some string. -/
theorem of_deserializeStore
    {α : Type}
    {read : List UInt8 → Option (α × List UInt8)}
    {bytes rest : List UInt8}
    {l : List α}
    (hRead : deserializeStore read bytes = some (l, rest)) :
    l.length < 2 ^ 63 ∧
      ∀ a ∈ l, ∃ bytes' rest',
        read bytes' = some (a, rest') := by
  unfold deserializeStore at hRead
  rcases Option.bind_eq_some_iff.mp hRead with
    ⟨⟨count, rest'⟩, hTake, hMany⟩
  rcases of_many hMany with ⟨hLength, hEach⟩
  refine ⟨?_, hEach⟩
  have hFits := fits_decodeInt count
  rw [length_of_take hTake] at hFits
  unfold Fits at hFits
  omega

mutual

/- What the decoder yields is a value of the described type,
whatever the bytes are. -/
theorem Serializable.valid_of_deserialize
    {α : Type}
    (t : Serializable α)
    (hRebuilds : t.Rebuilds)
    {bytes rest : List UInt8}
    {v : α}
    (hRead : t.deserialize bytes = some (v, rest)) :
    t.Valid v := by
  match α, t, v with
  | _, .int n, v =>
      rw [Serializable.deserialize] at hRead
      rcases Option.bind_eq_some_iff.mp hRead with
        ⟨⟨field, rest'⟩, hTake, hSome⟩
      cases hSome
      have hFits := fits_decodeInt field
      rw [length_of_take hTake] at hFits
      exact hFits
  | _, .uint n, v =>
      rw [Serializable.deserialize] at hRead
      rcases Option.bind_eq_some_iff.mp hRead with
        ⟨⟨field, rest'⟩, hTake, hSome⟩
      cases hSome
      have hLt := decode_lt field
      rw [length_of_take hTake] at hLt
      exact hLt
  | _, .bool, b => exact trivial
  | _, .enum base toBase ofBase, v =>
      rw [Serializable.deserialize] at hRead
      rcases Option.bind_eq_some_iff.mp hRead with
        ⟨⟨b, rest'⟩, hBase, hSome⟩
      cases hSome
      rcases hRebuilds with ⟨hInner, hAgrees⟩
      exact (hAgrees b
        (base.valid_of_deserialize hInner hBase)).symm
  | _, .tuple elements, v =>
      exact elements.valid_of_deserialize hRebuilds hRead
  | _, .vector value, l =>
      rw [Serializable.deserialize] at hRead
      rcases of_deserializeStore hRead with ⟨hCount, hEach⟩
      rw [Serializable.Valid]
      refine ⟨hCount, ?_⟩
      intro a ha
      rcases hEach a ha with ⟨bytes', rest', hElement⟩
      exact value.valid_of_deserialize hRebuilds hElement
  | _, @Serializable.set _ _ value, s =>
      rw [Serializable.deserialize] at hRead
      rcases Option.bind_eq_some_iff.mp hRead with
        ⟨⟨l, rest'⟩, hStore, hSome⟩
      cases hSome
      rcases of_deserializeStore hStore with ⟨hCount, hEach⟩
      rw [Serializable.Valid]
      refine ⟨?_, ?_⟩
      · exact lt_of_le_of_lt (List.toFinset_card_le l) hCount
      · intro a ha
        rcases hEach a (List.mem_toFinset.mp ha) with
          ⟨bytes', rest'', hElement⟩
        exact value.valid_of_deserialize hRebuilds hElement
  | _, .tupleSerializable base toTuple ofTuple, v =>
      rw [Serializable.deserialize] at hRead
      rcases Option.bind_eq_some_iff.mp hRead with
        ⟨⟨b, rest'⟩, hBase, hSome⟩
      cases hSome
      rcases hRebuilds with ⟨hInner, hAgrees⟩
      exact (hAgrees b
        (base.valid_of_deserialize hInner hBase)).symm

theorem SerializableTuple.valid_of_deserialize
    {α : Type}
    (t : SerializableTuple α)
    (hRebuilds : t.Rebuilds)
    {bytes rest : List UInt8}
    {v : α}
    (hRead : t.deserialize bytes = some (v, rest)) :
    t.Valid v := by
  match α, t, v with
  | _, .nil, _ => exact trivial
  | _, .cons head tail, (a, b) =>
      rcases Wire.deserialize_cons hRead with
        ⟨rest', hHead, hTail⟩
      rcases hRebuilds with ⟨hFirst, hOthers⟩
      exact ⟨head.valid_of_deserialize hFirst hHead,
        tail.valid_of_deserialize hOthers hTail⟩

end

/-
  Decoding what has been decoded and encoded again yields the
  same value, at the front of any string.
-/
theorem Serializable.deserialize_again
    {α : Type}
    (t : Serializable α)
    (hRebuilds : t.Rebuilds)
    {bytes rest : List UInt8}
    {v : α}
    (hRead : t.deserialize bytes = some (v, rest))
    (rest' : List UInt8) :
    t.deserialize (t.serialize v ++ rest') =
      some (v, rest') :=
  t.deserialize_serialize v
    (t.valid_of_deserialize hRebuilds hRead) rest'

/- A log of one entry: its addresses come in descending order,
one of them twice. -/
def looseLog : List UInt8 :=
  [1, 0, 0, 0, 0, 0, 0, 0, 254, 255, 255, 255,
    3, 0, 0, 0, 0, 0, 0, 0, 112, 17, 1, 0, 7, 0, 0, 0,
    7, 0, 0, 0, 1]

theorem Serializable.deserialize_again_looseLog :
    peerLog.deserialize
      (peerLog.serialize [(-2, {70000, 7}, true)] ++ [9]) =
        some ([(-2, {70000, 7}, true)], [9]) := by
  have hRebuilds : peerLog.Rebuilds := by
    simp [peerLog, Serializable.Rebuilds,
      SerializableTuple.Rebuilds, Serializable.Agrees]
  have hRead : peerLog.deserialize looseLog =
      some ([(-2, {70000, 7}, true)], []) := by
    simp [peerLog, looseLog, Serializable.deserialize,
      SerializableTuple.deserialize, deserializeStore, take,
      many, decodeInt, decode, narrow, Int.bmod]
  exact peerLog.deserialize_again hRebuilds hRead [9]

------------------------------------------------------------
-- Accepted Packets
------------------------------------------------------------

namespace Serializer

/- A message is read from serialized bytes of its type that
start with it and have its size. -/
theorem deserialize_eq_just_iff
    {α : Type}
    {t : MessageType α}
    {s : Serialized}
    {m : α} :
    deserialize t s = .just m ↔
      s.type = t.type.value ∧
        s.data.length = t.serializable.size m ∧
        ∃ rest, t.serializable.deserialize s.data =
          some (m, rest) := by
  constructor
  · intro hRead
    unfold deserialize at hRead
    split at hRead
    · cases hRead
    rename_i hType
    rcases Outcome.bind_eq_just hRead with
      ⟨⟨v, rest⟩, hData, hRest⟩
    rcases Outcome.bind_eq_just hRest with
      ⟨_, hAssert, hSame⟩
    have hSome := Outcome.access_eq_just hData
    have hValue := Outcome.just.inj hSame
    subst hValue
    rw [not_not] at hType
    refine ⟨hType.symm, ?_, rest, hSome⟩
    unfold Outcome.assert at hAssert
    split at hAssert
    · rename_i hLength
      exact hLength
    · cases hAssert
  · intro hRead
    rcases hRead with ⟨hType, hLength, rest, hData⟩
    unfold deserialize
    rw [if_neg (not_not.mpr hType.symm), hData]
    dsimp only [Outcome.access, Outcome.just_bind]
    unfold Outcome.assert
    rw [if_pos hLength]
    rfl

/-
  Which packets are accepted as a message: the well framed
  ones of its type whose payload starts with the message, if
  the payload has the size of the message.
-/
theorem fromPacket_eq_just_iff
    {α : Type}
    {t : MessageType α}
    {packet : List UInt8}
    {m : α} :
    fromPacket t packet = .just m ↔
      WellFramed packet ∧
        declaredType packet = t.type.value ∧
        (payload packet).length = t.serializable.size m ∧
        ∃ rest, t.serializable.deserialize (payload packet) =
          some (m, rest) := by
  by_cases hFramed : WellFramed packet
  · rw [fromPacket_eq hFramed, deserialize_eq_just_iff]
    dsimp only
    exact (and_iff_right hFramed).symm
  · refine iff_of_false ?_ fun hRead => hFramed hRead.1
    intro hRead
    rcases fromPacket_not_wellFramed (t := t) hFramed with
      hOut | hOut
    · rw [hOut] at hRead
      cases hRead
    · rw [hOut] at hRead
      cases hRead

/-
  The message read from a packet, whose size is an `int`, is
  packed again into no more bytes, and that packet is accepted
  as the same message.
-/
theorem repacked
    {α : Type}
    {t : MessageType α}
    (hRebuilds : t.serializable.Rebuilds)
    {packet : List UInt8}
    {m : α}
    (hSize : (packet.length : Int) ≤ intMax)
    (hRead : fromPacket t packet = .just m) :
    ∃ relayed, toPacket t m = .just relayed ∧
      relayed.length ≤ packet.length ∧
      fromPacket t relayed = .just m := by
  rcases fromPacket_eq_just_iff.mp hRead with
    ⟨⟨hHeader, _, _⟩, _, hLength, rest, hData⟩
  have hValid :=
    t.serializable.valid_of_deserialize hRebuilds hData
  have hFits : encodedSize t m ≤ packet.length := by
    unfold payload at hLength
    rw [List.length_take, List.length_drop] at hLength
    unfold encodedSize
    omega
  have hInt : (encodedSize t m : Int) ≤ intMax := by omega
  refine ⟨_, toPacket_eq_just hInt, ?_,
    fromPacket_packet hInt rfl hValid⟩
  rw [length_packet, length_data]
  exact hFits

end Serializer

------------------------------------------------------------
-- Messages
------------------------------------------------------------

namespace Wire

theorem rebuilds_int : int.Rebuilds :=
  trivial

theorem rebuilds_enumeration
    (α : Type) : (enumeration α).Rebuilds := by
  refine ⟨rebuilds_int, ?_⟩
  intro b hValid
  exact ⟨hValid, rfl⟩

theorem rebuilds_floorSet : floorSet.Rebuilds := by
  refine ⟨⟨trivial, trivial⟩, ?_⟩
  intro b _
  exact (valid_floorSet ⟨BitVec.ofNat 64 b.1⟩).symm

theorem rebuilds_address : address.Rebuilds := by
  refine ⟨⟨trivial, trivial⟩, ?_⟩
  intro b _
  exact (valid_address (Fin.ofNat 4294967296 b.1)).symm

/- The decoded timestamp is an `int`, and is not narrowed. -/
theorem rebuilds_elevatorState :
    ElevatorState.serializable.Rebuilds := by
  refine ⟨⟨rebuilds_int, rebuilds_int, rebuilds_int,
    rebuilds_enumeration _, trivial, trivial,
    rebuilds_floorSet, rebuilds_floorSet, rebuilds_floorSet,
    trivial⟩, ?_⟩
  rintro ⟨id, timestamp, others⟩ hValid
  have hTimestamp : narrow 4 timestamp = timestamp :=
    narrow_eq hValid.2.1
  dsimp only
  rw [hTimestamp]
  exact ⟨hValid, rfl⟩

theorem rebuilds_messageType
    (kind : MessageKind) :
    kind.messageType.serializable.Rebuilds := by
  cases kind with
  | command =>
      refine ⟨⟨rebuilds_enumeration _, rebuilds_int,
        rebuilds_int, trivial⟩, ?_⟩
      intro b hValid
      exact ⟨hValid, rfl⟩
  | stateChange =>
      refine ⟨⟨rebuilds_enumeration _, rebuilds_int,
        rebuilds_elevatorState, trivial⟩, ?_⟩
      intro b hValid
      exact ⟨hValid, rfl⟩
  | initial => exact ⟨trivial, fun _ _ => ⟨trivial, rfl⟩⟩
  | ready => exact ⟨trivial, fun _ _ => ⟨trivial, rfl⟩⟩
  | recoveryPeers =>
      refine ⟨⟨rebuilds_address, trivial⟩, ?_⟩
      intro b hValid
      exact ⟨hValid, rfl⟩
  | recoveryState =>
      refine ⟨⟨rebuilds_elevatorState, rebuilds_address,
        trivial⟩, ?_⟩
      intro b hValid
      exact ⟨hValid, rfl⟩

/-
  A received message can be passed on: whatever packet it has
  been read from, it is packed into no more bytes, and all who
  receive them read the same message.
-/
theorem passed_on
    (kind : MessageKind)
    {packet : List UInt8}
    {m : kind.Content}
    (hSize : (packet.length : Int) ≤ intMax)
    (hRead : Serializer.fromPacket kind.messageType packet =
      .just m) :
    ∃ relayed,
      Serializer.toPacket kind.messageType m =
        .just relayed ∧
      relayed.length ≤ packet.length ∧
      Serializer.fromPacket kind.messageType relayed =
        .just m :=
  Serializer.repacked (rebuilds_messageType kind) hSize hRead

/- Two peers in descending order. -/
def descendingPeers : List UInt8 :=
  [7, 0, 0, 0, 16, 0, 0, 0, 2, 0, 0, 0, 0, 0, 0, 0,
    2, 0, 0, 0, 1, 0, 0, 0]

theorem accepted_descendingPeers :
    Serializer.fromPacket MessageKind.recoveryPeers.messageType
      descendingPeers = .just ⟨{2, 1}⟩ := by
  have hPair : ({2, 1} : Finset IPv4Address).card = 2 := by
    decide
  have hSize := encodedSize_recoveryPeers ⟨{2, 1}⟩
  dsimp only at hSize
  rw [hPair] at hSize
  unfold Serializer.encodedSize at hSize
  refine Serializer.fromPacket_eq_just_iff.mpr
    ⟨by decide, by decide, ?_, [], ?_⟩
  · exact (Nat.add_left_cancel hSize).symm
  · have hPayload : Serializer.payload descendingPeers =
        [2, 0, 0, 0, 0, 0, 0, 0, 2, 0, 0, 0, 1, 0, 0, 0] := by
      decide
    rw [hPayload]
    simp [MessageKind.messageType,
      RecoveryPeers.messageType, Serializable.deserialize,
      SerializableTuple.deserialize, deserializeStore, take,
      many, address, decodeInt, decode, narrow, Int.bmod]
    rfl

/- The peers are passed on in ascending order. -/
theorem passed_on_descendingPeers :
    ∃ relayed,
      Serializer.toPacket
          MessageKind.recoveryPeers.messageType
          ⟨{2, 1}⟩ = .just relayed ∧
        relayed.length ≤ descendingPeers.length ∧
        Serializer.fromPacket
          MessageKind.recoveryPeers.messageType relayed =
            .just ⟨{2, 1}⟩ :=
  passed_on .recoveryPeers (by decide)
    accepted_descendingPeers

end Wire

end ElevatorControl
