import ElevatorControl.Wire.Bounds

/-
  How far the decoder reads when it accepts a message.

  A message is accepted when its size is the size of the
  decoded value. A set of addresses drops the addresses it
  has been given already, and its value then needs fewer
  bytes than have been read. The decoder does not check
  where the bytes end, and goes on in the memory that lies
  behind them.

  Key definitions include:
    * `Serializer.deserializeAt`
    * `Wire.MessageKind.peersIn`
    * `Wire.Collapses`

  Key theorems include:
    * `Serializer.deserializeAt_eq_just`
    * `Wire.decoded_eq`
    * `Wire.consumes_exactly_iff`
-/

------------------------------------------------------------
-- Decoding in Memory
------------------------------------------------------------

namespace ElevatorControl

open LittleEndian Reader

namespace Serializer

/-
  The decoder, with the memory behind the buffer. It returns
  the value and how far the read pointer has been advanced.
-/
def deserializeAt
    {α : Type}
    (memory : List UInt8)
    (t : MessageType α)
    (s : Serialized) : Outcome (α × Nat) := do
  if t.type.value ≠ s.type then
    .nothing
  else
    let (data, ptr) ←
      .access (t.serializable.deserialize (s.data ++ memory))
    Outcome.assert
      (s.data.length = t.serializable.size data) "wrong size"
    return (data, (s.data ++ memory).length - ptr.length)

/- What it takes for a message to be accepted. -/
theorem deserializeAt_eq_just
    {α : Type}
    {memory : List UInt8}
    {t : MessageType α}
    {s : Serialized}
    {v : α}
    {advance : Nat} :
    deserializeAt memory t s = .just (v, advance) ↔
      s.type = t.type.value ∧
        ∃ ptr,
          t.serializable.deserialize (s.data ++ memory) =
              some (v, ptr) ∧
            s.data.length = t.serializable.size v ∧
            advance =
              (s.data ++ memory).length - ptr.length := by
  unfold deserializeAt
  by_cases hType : t.type.value = s.type
  case neg =>
    rw [if_pos hType]
    refine iff_of_false ?_ fun h => hType h.1.symm
    intro hJust
    cases hJust
  rw [if_neg (fun h => h hType)]
  cases hData :
      t.serializable.deserialize (s.data ++ memory) with
  | none =>
      refine iff_of_false ?_ ?_
      · intro hJust
        cases hJust
      · rintro ⟨_, ptr, hSome, _⟩
        cases hSome
  | some p =>
      rcases p with ⟨data, ptr⟩
      simp only [Outcome.access, Outcome.just_bind,
        Outcome.assert]
      by_cases hSize :
          s.data.length = t.serializable.size data
      · rw [if_pos hSize]
        constructor
        · intro hJust
          cases hJust
          exact ⟨hType.symm, ptr, rfl, hSize, rfl⟩
        · rintro ⟨_, ptr', hSome, _, rfl⟩
          cases hSome
          rfl
      · rw [if_neg hSize]
        refine iff_of_false ?_ ?_
        · intro hJust
          cases hJust
        · rintro ⟨_, ptr', hSome, hSame, _⟩
          cases hSome
          exact hSize hSame

end Serializer

------------------------------------------------------------
-- Addresses in Messages
------------------------------------------------------------

namespace Wire

/- The addresses of a set at the front of the bytes, as many
as it declares. -/
def declaredAddresses
    (bytes : List UInt8) : List IPv4Address :=
  elements 4
    (fun b => Fin.ofNat 4294967296 (decode (b.take 4)))
    (MessageKind.declaredCount bytes) (bytes.drop 8)

namespace MessageKind

/- The bytes of a message without those of the addresses. -/
def fixedPart : MessageKind → Nat
  | command => 12
  | stateChange => 50
  | initial => 0
  | ready => 0
  | recoveryPeers => 8
  | recoveryState => 50

/- The addresses the payload of a message lists. -/
def peersIn :
    MessageKind → List UInt8 → List IPv4Address
  | command, _ => []
  | stateChange, _ => []
  | initial, _ => []
  | ready, _ => []
  | recoveryPeers, data => declaredAddresses data
  | recoveryState, data => declaredAddresses (data.drop 42)

/- The set of addresses of a message. -/
def peers :
    (kind : MessageKind) → kind.Content →
      Finset IPv4Address
  | command, _ => ∅
  | stateChange, _ => ∅
  | initial, _ => ∅
  | ready, _ => ∅
  | recoveryPeers, m => RecoveryPeers.peers m
  | recoveryState, m => RecoveryState.peers m

theorem reads_eq
    (kind : MessageKind)
    (data : List UInt8) :
    kind.reads data =
      kind.fixedPart + 4 * (kind.peersIn data).length := by
  cases kind with
  | recoveryPeers =>
      simp only [reads, fixedPart, peersIn,
        declaredAddresses, length_elements]
      omega
  | recoveryState =>
      simp only [reads, fixedPart, peersIn,
        declaredAddresses, length_elements]
      omega
  | command => rfl
  | stateChange => rfl
  | initial => rfl
  | ready => rfl

theorem size_eq
    (kind : MessageKind)
    (v : kind.Content) :
    kind.messageType.serializable.size v =
      kind.fixedPart + 4 * (kind.peers v).card := by
  cases kind with
  | command => rfl
  | stateChange =>
      have hSize :
          8 + stateChange.messageType.serializable.size v =
            58 := encodedSize_stateChange v
      change stateChange.messageType.serializable.size v = 50
      omega
  | initial => rfl
  | ready => rfl
  | recoveryPeers =>
      have hSize :
          8 + recoveryPeers.messageType.serializable.size v =
            16 + 4 * (recoveryPeers.peers v).card :=
        encodedSize_recoveryPeers v
      change recoveryPeers.messageType.serializable.size v =
        8 + 4 * (recoveryPeers.peers v).card
      omega
  | recoveryState =>
      have hSize :
          8 + recoveryState.messageType.serializable.size v =
            58 + 4 * (recoveryState.peers v).card :=
        encodedSize_recoveryState v
      change recoveryState.messageType.serializable.size v =
        50 + 4 * (recoveryState.peers v).card
      omega

end MessageKind

------------------------------------------------------------
-- Decoded Values
------------------------------------------------------------

/- A structure is made of a decoded tuple. -/
theorem deserialize_tupleSerializable
    {α β : Type}
    {base : Serializable β}
    {toTuple : α → β}
    {ofTuple : β → α}
    {bytes ptr : List UInt8}
    {v : α}
    (hDecoded :
      (Serializable.tupleSerializable base toTuple
        ofTuple).deserialize bytes = some (v, ptr)) :
    ∃ b, base.deserialize bytes = some (b, ptr) ∧
      v = ofTuple b := by
  rw [Serializable.deserialize, Option.bind_eq_bind,
    Option.bind_eq_some_iff] at hDecoded
  rcases hDecoded with ⟨⟨b, rest⟩, hBase, hPure⟩
  cases hPure
  exact ⟨b, hBase, rfl⟩

/- The set that is decoded holds the addresses listed. -/
theorem decoded_addresses
    {bytes ptr : List UInt8}
    {set : Finset IPv4Address}
    (hDecoded :
      (Serializable.set address).deserialize bytes =
        some (set, ptr)) :
    set = (declaredAddresses bytes).toFinset := by
  have hAddress : ∀ b : List UInt8, 4 ≤ b.length →
      address.deserialize b =
        some (Fin.ofNat 4294967296 (decode (b.take 4)),
          b.drop 4) := by
    intro b hLength
    simp only [address, Serializable.deserialize,
      SerializableTuple.deserialize, take, if_pos hLength]
    rfl
  have hEnough :
      8 + MessageKind.declaredCount bytes * 4 ≤
        bytes.length := by
    apply (needs_addresses bytes).ne_none_iff.mp
    rw [hDecoded]
    exact Option.some_ne_none _
  have hMany := many_eq_elements hAddress
    (MessageKind.declaredCount bytes) (bytes.drop 8) (by
      rw [List.length_drop]
      omega)
  have hTake : take 8 bytes =
      some (bytes.take 8, bytes.drop 8) := by
    unfold take
    exact if_pos (by omega)
  have hStore :
      deserializeStore address.deserialize bytes =
        some (declaredAddresses bytes,
          (bytes.drop 8).drop
            (MessageKind.declaredCount bytes * 4)) := by
    unfold deserializeStore
    rw [hTake, Option.bind_eq_bind, Option.bind_some]
    exact hMany
  rw [Serializable.deserialize, hStore, Option.bind_eq_bind,
    Option.bind_some] at hDecoded
  cases hDecoded
  rfl

/- What a decoder that needs a number of bytes leaves. -/
theorem rest_of_needs
    {α : Type}
    {read : List UInt8 → Option (α × List UInt8)}
    {bytes ptr : List UInt8}
    {n : Nat}
    {v : α}
    (hNeeds : Needs read bytes n)
    (hRead : read bytes = some (v, ptr)) :
    n ≤ bytes.length ∧ ptr = bytes.drop n := by
  have hLength : n ≤ bytes.length := by
    apply hNeeds.ne_none_iff.mp
    rw [hRead]
    exact Option.some_ne_none _
  rcases hNeeds.1 hLength with ⟨v', hRead'⟩
  rw [hRead] at hRead'
  exact ⟨hLength,
    (Prod.mk.inj (Option.some.inj hRead')).2⟩

/-
  A decoded message has the addresses its bytes list, and the
  decoder stops after the bytes it reads.
-/
theorem decoded_eq
    {kind : MessageKind}
    {bytes ptr : List UInt8}
    {v : kind.Content}
    (hDecoded :
      kind.messageType.serializable.deserialize bytes =
        some (v, ptr)) :
    kind.peers v = (kind.peersIn bytes).toFinset ∧
      kind.reads bytes ≤ bytes.length ∧
      ptr = bytes.drop (kind.reads bytes) := by
  refine ⟨?_, rest_of_needs (needs_message kind bytes)
    hDecoded⟩
  cases kind with
  | command => rfl
  | stateChange => rfl
  | initial => rfl
  | ready => rfl
  | recoveryPeers =>
      rcases deserialize_tupleSerializable hDecoded with
        ⟨b, hTuple, rfl⟩
      rcases deserialize_cons hTuple with ⟨rest, hSet, _⟩
      exact decoded_addresses hSet
  | recoveryState =>
      rcases deserialize_tupleSerializable hDecoded with
        ⟨b, hTuple, rfl⟩
      rcases deserialize_cons hTuple with
        ⟨rest, hState, hPeers⟩
      rcases deserialize_cons hPeers with ⟨_, hSet, _⟩
      have hRest : rest = bytes.drop 42 :=
        (rest_of_needs (fixed_elevatorState bytes)
          hState).2
      rw [hRest] at hSet
      exact decoded_addresses hSet

------------------------------------------------------------
-- Exact Consumption
------------------------------------------------------------

/-
  The message lists an address more than once, and its size
  is the one it would have without the repetitions.
-/
def Collapses
    (kind : MessageKind)
    (s : Serialized)
    (memory : List UInt8) : Prop :=
  s.type = kind.messageType.type.value ∧
    kind.reads (s.data ++ memory) ≤
      (s.data ++ memory).length ∧
    ¬ (kind.peersIn (s.data ++ memory)).Nodup ∧
    s.data.length = kind.fixedPart +
      4 * (kind.peersIn (s.data ++ memory)).toFinset.card

/- An accepted message has the size of its distinct
addresses, and all of its addresses are read. -/
theorem accepted_eq
    {kind : MessageKind}
    {memory : List UInt8}
    {s : Serialized}
    {v : kind.Content}
    {advance : Nat}
    (hAccepted :
      Serializer.deserializeAt memory kind.messageType s =
        .just (v, advance)) :
    s.type = kind.messageType.type.value ∧
      kind.reads (s.data ++ memory) ≤
        (s.data ++ memory).length ∧
      s.data.length = kind.fixedPart +
        4 * (kind.peersIn
          (s.data ++ memory)).toFinset.card ∧
      advance = kind.reads (s.data ++ memory) := by
  rcases Serializer.deserializeAt_eq_just.mp hAccepted with
    ⟨hType, ptr, hDecoded, hSize, hAdvance⟩
  rcases decoded_eq hDecoded with ⟨hPeers, hEnough, hRest⟩
  rw [kind.size_eq, hPeers] at hSize
  rw [hRest, List.length_drop] at hAdvance
  exact ⟨hType, hEnough, hSize, by omega⟩

/- Repeated addresses are read and then dropped. -/
theorem accepted_of_collapses
    {kind : MessageKind}
    {s : Serialized}
    {memory : List UInt8}
    (hCollapses : Collapses kind s memory) :
    ∃ v, Serializer.deserializeAt memory kind.messageType s =
      .just (v, kind.reads (s.data ++ memory)) := by
  rcases hCollapses with ⟨hType, hEnough, _, hSize⟩
  rcases (needs_message kind (s.data ++ memory)).1 hEnough
    with ⟨v, hDecoded⟩
  refine ⟨v, Serializer.deserializeAt_eq_just.mpr
    ⟨hType, _, hDecoded, ?_, ?_⟩⟩
  · rw [kind.size_eq, (decoded_eq hDecoded).1]
    exact hSize
  · rw [List.length_drop]
    omega

/-
  For every message type, bytes and memory behind them: what
  is accepted has been read to exactly the end of the bytes,
  unless repeated addresses make up for what is missing.
-/
theorem consumes_exactly_iff
    (kind : MessageKind)
    (s : Serialized)
    (memory : List UInt8) :
    (∀ v advance,
      Serializer.deserializeAt memory kind.messageType s =
          .just (v, advance) →
        advance = s.data.length) ↔
      ¬ Collapses kind s memory := by
  constructor
  · intro hExact hCollapses
    rcases accepted_of_collapses hCollapses with
      ⟨v, hAccepted⟩
    have hAll := hExact _ _ hAccepted
    rcases hCollapses with ⟨_, _, hRepeated, hSize⟩
    rw [kind.reads_eq] at hAll
    have hCard :
        (kind.peersIn (s.data ++ memory)).toFinset.card =
          (kind.peersIn (s.data ++ memory)).length := by
      omega
    exact hRepeated
      (Multiset.toFinset_card_eq_card_iff_nodup.mp hCard)
  · intro hCollapses v advance hAccepted
    rcases accepted_eq hAccepted with
      ⟨hType, hEnough, hSize, hAdvance⟩
    have hDistinct :
        (kind.peersIn (s.data ++ memory)).Nodup := by
      by_contra hRepeated
      exact hCollapses ⟨hType, hEnough, hRepeated, hSize⟩
    rw [hAdvance, kind.reads_eq, hSize,
      List.toFinset_card_of_nodup hDistinct]

/- Two addresses are declared, and one is there. -/
def repeatedPeer : Serialized :=
  ⟨7, [2, 0, 0, 0, 0, 0, 0, 0, 0, 0, 0, 0]⟩

/-
  The memory behind the bytes repeats the address, and the
  message of 12 bytes is accepted after 16 have been read.
-/
theorem repeatedPeer_accepted :
    ∃ v,
      Serializer.deserializeAt [0, 0, 0, 0]
          MessageKind.recoveryPeers.messageType
          repeatedPeer = .just (v, 16) ∧
        repeatedPeer.data.length = 12 := by
  have hCollapses :
      Collapses .recoveryPeers repeatedPeer [0, 0, 0, 0] := by
    refine ⟨rfl, ?_, ?_, ?_⟩
    · decide
    · decide
    · decide
  rcases accepted_of_collapses hCollapses with
    ⟨v, hAccepted⟩
  exact ⟨v, hAccepted, rfl⟩

end Wire

end ElevatorControl
