import Mathlib.Algebra.GroupWithZero.Nat
import Mathlib.Data.Finset.Sort
import ElevatorControl.Library.LittleEndian
import ElevatorControl.Library.Reader

/-
  The serialization framework.

  `Serializable α` describes how the values of `α` are
  serialized: the traits the framework dispatches on, each
  with the descriptions of its parts. The encoder, the size
  function and the decoder are three recursions over it.

  The decoder consumes a byte string. A read past the end of
  the string has no result.

  Key definitions include:
    * `Serializable` and `SerializableTuple`
    * `Serializable.size`
    * `Serializable.serialize`
    * `Serializable.deserialize`
    * `Serializable.Valid`

  Key theorems include:
    * `Serializable.deserialize_serialize`
    * `Serializable.roundTrip`
-/

------------------------------------------------------------
-- Serializable Types
------------------------------------------------------------

namespace ElevatorControl

open LittleEndian Reader

mutual

/-
  The serializable types: signed and unsigned integers of
  `n` bytes, booleans, enumerations over an underlying type,
  tuples, vectors, sets in ascending order, and structures
  that convert to a tuple and back.
-/
inductive Serializable : Type → Type 1 where
  | int
      (n : Nat) : Serializable Int
  | uint
      (n : Nat) : Serializable Nat
  | bool : Serializable Bool
  | enum
      {α β : Type}
      (base : Serializable β)
      (toBase : α → β)
      (ofBase : β → α) : Serializable α
  | tuple
      {α : Type}
      (elements : SerializableTuple α) : Serializable α
  | vector
      {α : Type}
      (value : Serializable α) : Serializable (List α)
  | set
      {α : Type}
      [LinearOrder α]
      (value : Serializable α) : Serializable (Finset α)
  | tupleSerializable
      {α β : Type}
      (base : Serializable β)
      (toTuple : α → β)
      (ofTuple : β → α) : Serializable α

/- The element types of a tuple; a tuple is a nested pair
that ends in the unit. -/
inductive SerializableTuple : Type → Type 1 where
  | nil : SerializableTuple Unit
  | cons
      {α β : Type}
      (head : Serializable α)
      (tail : SerializableTuple β) :
      SerializableTuple (α × β)

end

------------------------------------------------------------
-- Encoder
------------------------------------------------------------

mutual

/- The number of bytes of a serialized value. -/
def Serializable.size
    {α : Type}
    (t : Serializable α)
    (v : α) : Nat :=
  match α, t, v with
  | _, .int n, _ => n
  | _, .uint n, _ => n
  | _, .bool, _ => 1
  | _, .enum base toBase _, v => base.size (toBase v)
  | _, .tuple elements, v => elements.size v
  | _, .vector value, l => 8 + (l.map value.size).sum
  | _, @Serializable.set _ _ value, s => 8 + (s.sort.map value.size).sum
  | _, .tupleSerializable base toTuple _, v =>
      base.size (toTuple v)

/- The sizes of the elements add up. -/
def SerializableTuple.size
    {α : Type}
    (t : SerializableTuple α)
    (v : α) : Nat :=
  match α, t, v with
  | _, .nil, _ => 0
  | _, .cons head tail, (a, b) => head.size a + tail.size b

end

mutual

/- The bytes of a value. -/
def Serializable.serialize
    {α : Type}
    (t : Serializable α)
    (v : α) : List UInt8 :=
  match α, t, v with
  | _, .int n, v => encodeInt n v
  | _, .uint n, v => encode n v
  | _, .bool, b => [if b then 1 else 0]
  | _, .enum base toBase _, v => base.serialize (toBase v)
  | _, .tuple elements, v => elements.serialize v
  | _, .vector value, l =>
      encodeInt 8 l.length ++ l.flatMap value.serialize
  | _, @Serializable.set _ _ value, s =>
      encodeInt 8 s.card ++ s.sort.flatMap value.serialize
  | _, .tupleSerializable base toTuple _, v =>
      base.serialize (toTuple v)

/- The bytes of the elements, one after the other. -/
def SerializableTuple.serialize
    {α : Type}
    (t : SerializableTuple α)
    (v : α) : List UInt8 :=
  match α, t, v with
  | _, .nil, _ => []
  | _, .cons head tail, (a, b) =>
      head.serialize a ++ tail.serialize b

end

------------------------------------------------------------
-- Decoder
------------------------------------------------------------

/- Decode an element count and then the elements. -/
def deserializeStore
    {α : Type}
    (read : List UInt8 → Option (α × List UInt8))
    (bytes : List UInt8) : Option (List α × List UInt8) := do
  let (count, rest) ← take 8 bytes
  many read (decodeInt 8 count).toNat rest

mutual

/- Read a value, and return what is left of the bytes. -/
def Serializable.deserialize
    {α : Type}
    (t : Serializable α)
    (bytes : List UInt8) : Option (α × List UInt8) :=
  match α, t with
  | _, .int n => do
      let (field, rest) ← take n bytes
      return (decodeInt n field, rest)
  | _, .uint n => do
      let (field, rest) ← take n bytes
      return (decode field, rest)
  | _, .bool => do
      let (field, rest) ← take 1 bytes
      return (decide (decode field ≠ 0), rest)
  | _, .enum base _ ofBase => do
      let (b, rest) ← base.deserialize bytes
      return (ofBase b, rest)
  | _, .tuple elements => elements.deserialize bytes
  | _, .vector value => deserializeStore value.deserialize bytes
  | _, @Serializable.set _ _ value => do
      let (l, rest) ← deserializeStore value.deserialize bytes
      return (l.toFinset, rest)
  | _, .tupleSerializable base _ ofTuple => do
      let (b, rest) ← base.deserialize bytes
      return (ofTuple b, rest)

/- Read the elements, one after the other. -/
def SerializableTuple.deserialize
    {α : Type}
    (t : SerializableTuple α)
    (bytes : List UInt8) : Option (α × List UInt8) :=
  match α, t with
  | _, .nil => some ((), bytes)
  | _, .cons head tail => do
      let (a, rest) ← head.deserialize bytes
      let (b, rest) ← tail.deserialize rest
      return ((a, b), rest)

end

------------------------------------------------------------
-- Valid Values
------------------------------------------------------------

mutual

/-
  The values of the described type: integers fit their width,
  containers have less than 2^63 elements, and enumerations
  and structures are rebuilt by their conversions.
-/
def Serializable.Valid
    {α : Type}
    (t : Serializable α)
    (v : α) : Prop :=
  match α, t, v with
  | _, .int n, v => Fits n v
  | _, .uint n, v => v < 256 ^ n
  | _, .bool, _ => True
  | _, .enum base toBase ofBase, v =>
      ofBase (toBase v) = v ∧ base.Valid (toBase v)
  | _, .tuple elements, v => elements.Valid v
  | _, .vector value, l =>
      l.length < 2 ^ 63 ∧ ∀ a ∈ l, value.Valid a
  | _, @Serializable.set _ _ value, s =>
      s.card < 2 ^ 63 ∧ ∀ a ∈ s, value.Valid a
  | _, .tupleSerializable base toTuple ofTuple, v =>
      ofTuple (toTuple v) = v ∧ base.Valid (toTuple v)

/- The elements are values of their types. -/
def SerializableTuple.Valid
    {α : Type}
    (t : SerializableTuple α)
    (v : α) : Prop :=
  match α, t, v with
  | _, .nil, _ => True
  | _, .cons head tail, (a, b) =>
      head.Valid a ∧ tail.Valid b

end

------------------------------------------------------------
-- Sizes
------------------------------------------------------------

theorem length_flatMap_eq
    {α : Type}
    {write : α → List UInt8}
    {size : α → Nat}
    (hWrite : ∀ a, (write a).length = size a)
    (l : List α) :
    (l.flatMap write).length = (l.map size).sum := by
  induction l with
  | nil => rfl
  | cons a l ih =>
      rw [List.flatMap_cons, List.length_append, ih, hWrite,
        List.map_cons, List.sum_cons]

mutual

/- The encoder writes exactly the computed size. -/
theorem Serializable.length_serialize
    {α : Type}
    (t : Serializable α)
    (v : α) :
    (t.serialize v).length = t.size v := by
  match α, t, v with
  | _, .int n, v => exact length_encodeInt n v
  | _, .uint n, v => exact length_encode n v
  | _, .bool, b => rfl
  | _, .enum base toBase ofBase, v =>
      exact base.length_serialize (toBase v)
  | _, .tuple elements, v =>
      exact elements.length_serialize v
  | _, .vector value, l =>
      rw [Serializable.serialize, Serializable.size,
        List.length_append, length_encodeInt,
        length_flatMap_eq value.length_serialize]
  | _, @Serializable.set _ _ value, s =>
      rw [Serializable.serialize, Serializable.size,
        List.length_append, length_encodeInt,
        length_flatMap_eq value.length_serialize]
  | _, .tupleSerializable base toTuple ofTuple, v =>
      exact base.length_serialize (toTuple v)

theorem SerializableTuple.length_serialize
    {α : Type}
    (t : SerializableTuple α)
    (v : α) :
    (t.serialize v).length = t.size v := by
  match α, t, v with
  | _, .nil, _ => rfl
  | _, .cons head tail, (a, b) =>
      rw [SerializableTuple.serialize,
        SerializableTuple.size, List.length_append,
        head.length_serialize, tail.length_serialize]

end

------------------------------------------------------------
-- Round Trip
------------------------------------------------------------

/- The element count of a container is read back. -/
theorem decodeInt_count
    {n : Nat}
    (hCount : n < 2 ^ 63) :
    (decodeInt 8 (encodeInt 8 n)).toNat = n := by
  have hFits : Fits 8 n := by
    unfold Fits
    omega
  rw [decodeInt_encodeInt hFits, Int.toNat_natCast]

/- Reading back a counted sequence of values. -/
theorem deserializeStore_flatMap
    {α : Type}
    {read : List UInt8 → Option (α × List UInt8)}
    {write : α → List UInt8}
    (l : List α)
    (hCount : l.length < 2 ^ 63)
    (hRead : ∀ a ∈ l, ∀ rest,
      read (write a ++ rest) = some (a, rest))
    (rest : List UInt8) :
    deserializeStore read
      (encodeInt 8 l.length ++ (l.flatMap write ++ rest)) =
        some (l, rest) := by
  have hTake := take_append (length_encodeInt 8 l.length)
    (l.flatMap write ++ rest)
  unfold deserializeStore
  rw [hTake, Option.bind_eq_bind, Option.bind_some]
  show many read
    (decodeInt 8 (encodeInt 8 l.length)).toNat _ = _
  rw [decodeInt_count hCount]
  exact many_flatMap l hRead rest

/- A type reads back a value from the front of any string
that starts with the bytes of the value. -/
def Serializable.ReadsBack
    {α : Type}
    (t : Serializable α)
    (v : α) : Prop :=
  ∀ rest, t.deserialize (t.serialize v ++ rest) =
    some (v, rest)

theorem readsBack_vector
    {α : Type}
    {value : Serializable α}
    {l : List α}
    (hCount : l.length < 2 ^ 63)
    (hElements : ∀ a ∈ l, value.ReadsBack a) :
    (Serializable.vector value).ReadsBack l := by
  intro rest
  rw [Serializable.serialize, List.append_assoc]
  exact deserializeStore_flatMap l hCount hElements rest

/- The elements of a set are written in ascending order; the
set is rebuilt from any order. -/
theorem readsBack_set
    {α : Type}
    [LinearOrder α]
    {value : Serializable α}
    {s : Finset α}
    (hCount : s.card < 2 ^ 63)
    (hElements : ∀ a ∈ s, value.ReadsBack a) :
    (Serializable.set value).ReadsBack s := by
  intro rest
  have hLength := Finset.length_sort (s := s) (r := (· ≤ ·))
  have hStore := deserializeStore_flatMap s.sort
    (by rw [hLength]; exact hCount)
    (fun a ha => hElements a ((Finset.mem_sort _).mp ha)) rest
  rw [hLength] at hStore
  rw [Serializable.serialize, List.append_assoc,
    Serializable.deserialize, hStore]
  simp

mutual

/- The decoder rebuilds the value and stops right after the
bytes of the encoder. -/
theorem Serializable.deserialize_serialize
    {α : Type}
    (t : Serializable α)
    (v : α)
    (hValid : t.Valid v) :
    t.ReadsBack v := by
  match α, t, v with
  | _, .int n, v =>
      intro rest
      simp [Serializable.deserialize, Serializable.serialize,
        take_append (length_encodeInt n v),
        decodeInt_encodeInt hValid]
  | _, .uint n, v =>
      intro rest
      simp [Serializable.deserialize, Serializable.serialize,
        take_append (length_encode n v),
        decode_encode hValid]
  | _, .bool, b =>
      intro rest
      cases b with
      | true => rfl
      | false => rfl
  | _, .enum base toBase ofBase, v =>
      intro rest
      have hBase :=
        base.deserialize_serialize (toBase v) hValid.2 rest
      simp [Serializable.deserialize, Serializable.serialize,
        hBase, hValid.1]
  | _, .tuple elements, v =>
      exact elements.deserialize_serialize v hValid
  | _, .vector value, l =>
      rw [Serializable.Valid] at hValid
      exact readsBack_vector hValid.1 fun a ha =>
        value.deserialize_serialize a (hValid.2 a ha)
  | _, @Serializable.set _ _ value, s =>
      rw [Serializable.Valid] at hValid
      exact readsBack_set hValid.1 fun a ha =>
        value.deserialize_serialize a (hValid.2 a ha)
  | _, .tupleSerializable base toTuple ofTuple, v =>
      intro rest
      have hBase :=
        base.deserialize_serialize (toTuple v) hValid.2 rest
      simp [Serializable.deserialize, Serializable.serialize,
        hBase, hValid.1]

theorem SerializableTuple.deserialize_serialize
    {α : Type}
    (t : SerializableTuple α)
    (v : α)
    (hValid : t.Valid v)
    (rest : List UInt8) :
    t.deserialize (t.serialize v ++ rest) =
      some (v, rest) := by
  match α, t, v with
  | _, .nil, _ => rfl
  | _, .cons head tail, (a, b) =>
      have hHead := head.deserialize_serialize a hValid.1
        (tail.serialize b ++ rest)
      have hTail :=
        tail.deserialize_serialize b hValid.2 rest
      simp [SerializableTuple.deserialize,
        SerializableTuple.serialize, List.append_assoc,
        hHead, hTail]

end

/-
  Serialization round-trips: it writes exactly the computed
  number of bytes, and reading them back from the front of
  any string yields the value and the rest of the string.
-/
theorem Serializable.roundTrip
    {α : Type}
    (t : Serializable α)
    (v : α)
    (hValid : t.Valid v)
    (rest : List UInt8) :
    (t.serialize v).length = t.size v ∧
      t.deserialize (t.serialize v ++ rest) =
        some (v, rest) :=
  ⟨t.length_serialize v,
    t.deserialize_serialize v hValid rest⟩

/- A vector of structures, each an enumeration value, a set
of addresses and a flag. -/
def Serializable.peerLog :
    Serializable (List (Int × Finset Nat × Bool)) :=
  .vector (.tupleSerializable
    (.tuple (.cons (.enum (.int 4) id id)
      (.cons (.set (.uint 4)) (.cons .bool .nil))))
    (fun v => (v.1, v.2.1, v.2.2, ()))
    (fun t => (t.1, t.2.1, t.2.2.1)))

theorem Serializable.roundTrip_peerLog :
    (peerLog.serialize [(-2, {70000, 7}, true)]).length =
        peerLog.size [(-2, {70000, 7}, true)] ∧
      peerLog.deserialize
        (peerLog.serialize [(-2, {70000, 7}, true)] ++ [9]) =
          some ([(-2, {70000, 7}, true)], [9]) := by
  apply Serializable.roundTrip
  simp [peerLog, Serializable.Valid, SerializableTuple.Valid,
    Fits]

end ElevatorControl
