import Mathlib.Tactic.Common

/-
  Readers of byte strings.

  A reader takes a value off the front of a string and
  returns the rest, or has no result when the string is too
  short. A reader needs a number of bytes of a string; it is
  fixed when the number does not depend on the string.

  Main declarations:
    * `Reader.take`
    * `Reader.many`
    * `Reader.many_flatMap`
    * `Reader.of_many`
    * `Reader.elements`
    * `Reader.many_eq_elements`
    * `Reader.Needs`
    * `Reader.Needs.bind`
    * `Reader.Fixed`
    * `Reader.Fixed.many`
-/

------------------------------------------------------------
-- Reads
------------------------------------------------------------

namespace Reader

/- The first `n` bytes and the rest, unless the string is too
short. -/
def take
    (n : Nat)
    (bytes : List UInt8) :
    Option (List UInt8 × List UInt8) :=
  if n ≤ bytes.length then
    some (bytes.take n, bytes.drop n)
  else none

theorem take_append
    {n : Nat}
    {bytes : List UInt8}
    (hLength : bytes.length = n)
    (rest : List UInt8) :
    take n (bytes ++ rest) = some (bytes, rest) := by
  unfold take
  rw [if_pos (by simp [hLength]), ← hLength,
    List.take_left, List.drop_left]

/- What has been taken off a string has the length that was
asked for. -/
theorem length_of_take
    {n : Nat}
    {bytes field rest : List UInt8}
    (hTake : take n bytes = some (field, rest)) :
    field.length = n := by
  unfold take at hTake
  split at hTake
  · rename_i hLength
    cases hTake
    exact List.length_take_of_le hLength
  · cases hTake

/- Read `n` values, one after another. -/
def many
    {α : Type}
    (read : List UInt8 → Option (α × List UInt8)) :
    Nat → List UInt8 → Option (List α × List UInt8)
  | 0, bytes => some ([], bytes)
  | n + 1, bytes => do
      let (v, rest) ← read bytes
      let (l, rest) ← many read n rest
      return (v :: l, rest)

/- Reading back a sequence of values. -/
theorem many_flatMap
    {α : Type}
    {read : List UInt8 → Option (α × List UInt8)}
    {write : α → List UInt8}
    (l : List α)
    (hRead : ∀ a ∈ l, ∀ rest,
      read (write a ++ rest) = some (a, rest))
    (rest : List UInt8) :
    many read l.length (l.flatMap write ++ rest) =
      some (l, rest) := by
  induction l with
  | nil => rfl
  | cons a l ih =>
      have hFirst := hRead a (by simp)
      have hRest := ih fun b hb => hRead b (by simp [hb])
      rw [List.flatMap_cons, List.append_assoc,
        List.length_cons, many, hFirst]
      simp [hRest]

/- Each of the values is read from some string. -/
theorem of_many
    {α : Type}
    {read : List UInt8 → Option (α × List UInt8)}
    {n : Nat}
    {bytes rest : List UInt8}
    {l : List α}
    (hMany : many read n bytes = some (l, rest)) :
    l.length = n ∧
      ∀ a ∈ l, ∃ bytes' rest',
        read bytes' = some (a, rest') := by
  induction n generalizing bytes l with
  | zero =>
      cases hMany
      exact ⟨rfl, fun a ha => absurd ha List.not_mem_nil⟩
  | succ n ih =>
      rcases Option.bind_eq_some_iff.mp hMany with
        ⟨⟨a, rest₁⟩, hFirst, hOthers⟩
      rcases Option.bind_eq_some_iff.mp hOthers with
        ⟨⟨l', rest₂⟩, hRest, hSome⟩
      cases hSome
      rcases ih hRest with ⟨hLength, hEach⟩
      refine ⟨congrArg Nat.succ hLength, ?_⟩
      intro b hb
      rcases List.mem_cons.mp hb with rfl | hTail
      · exact ⟨bytes, rest₁, hFirst⟩
      · exact hEach b hTail

/- The values at `count` places of a string, `n` bytes from
one to the next. -/
def elements
    {α : Type}
    (n : Nat)
    (value : List UInt8 → α) :
    Nat → List UInt8 → List α
  | 0, _ => []
  | count + 1, bytes =>
      value bytes :: elements n value count (bytes.drop n)

theorem length_elements
    {α : Type}
    (n : Nat)
    (value : List UInt8 → α)
    (count : Nat)
    (bytes : List UInt8) :
    (elements n value count bytes).length = count := by
  induction count generalizing bytes with
  | zero => rfl
  | succ count ih =>
      rw [elements, List.length_cons, ih]

/- Values of a fixed number of bytes are read from places at
this distance. -/
theorem many_eq_elements
    {α : Type}
    {n : Nat}
    {read : List UInt8 → Option (α × List UInt8)}
    {value : List UInt8 → α}
    (hRead : ∀ bytes, n ≤ bytes.length →
      read bytes = some (value bytes, bytes.drop n))
    (count : Nat)
    (bytes : List UInt8)
    (hLength : count * n ≤ bytes.length) :
    many read count bytes =
      some (elements n value count bytes,
        bytes.drop (count * n)) := by
  induction count generalizing bytes with
  | zero =>
      rw [Nat.zero_mul]
      rfl
  | succ count ih =>
      rw [Nat.succ_mul] at hLength ⊢
      have hRest := ih (bytes.drop n) (by
        rw [List.length_drop]
        omega)
      rw [many, hRead bytes (by omega), Option.bind_eq_bind,
        Option.bind_some]
      dsimp only
      rw [hRest, Option.bind_eq_bind, Option.bind_some,
        List.drop_drop, Nat.add_comm n]
      rfl

------------------------------------------------------------
-- Needed Bytes
------------------------------------------------------------

/- The reader takes `n` bytes off the string, and has no
result if the string is shorter. -/
def Needs
    {α : Type}
    (read : List UInt8 → Option (α × List UInt8))
    (bytes : List UInt8)
    (n : Nat) : Prop :=
  (n ≤ bytes.length →
    ∃ v, read bytes = some (v, bytes.drop n)) ∧
  (bytes.length < n → read bytes = none)

/- The reader needs `n` bytes of every string. -/
def Fixed
    {α : Type}
    (read : List UInt8 → Option (α × List UInt8))
    (n : Nat) : Prop :=
  ∀ bytes, Needs read bytes n

variable
  {α β : Type}
  {read : List UInt8 → Option (α × List UInt8)}

theorem needs_pure
    (v : α)
    (bytes : List UInt8) :
    Needs (fun bytes => some (v, bytes)) bytes 0 := by
  refine ⟨?_, ?_⟩
  · intro _
    exact ⟨v, rfl⟩
  · intro hLength
    omega

theorem fixed_take
    (n : Nat) : Fixed (take n) n := by
  intro bytes
  unfold take
  refine ⟨?_, ?_⟩
  · intro hLength
    exact ⟨bytes.take n, if_pos hLength⟩
  · intro hLength
    exact if_neg (by omega)

namespace Needs

/- Two reads in sequence. -/
theorem bind
    {bytes : List UInt8}
    {n m : Nat}
    {next : α → List UInt8 → Option (β × List UInt8)}
    (hRead : Needs read bytes n)
    (hNext : ∀ v, read bytes = some (v, bytes.drop n) →
      Needs (next v) (bytes.drop n) m) :
    Needs
      (fun bytes => read bytes >>= fun p => next p.1 p.2)
      bytes (n + m) := by
  unfold Needs
  dsimp only
  rcases hRead with ⟨hSome, hNone⟩
  by_cases hFirst : n ≤ bytes.length
  case neg =>
    refine ⟨?_, ?_⟩
    · intro hLength
      omega
    · intro _
      rw [hNone (by omega)]
      rfl
  rcases hSome hFirst with ⟨v, hv⟩
  rcases hNext v hv with ⟨hSome', hNone'⟩
  rw [List.length_drop] at hSome' hNone'
  rw [hv, Option.bind_eq_bind, Option.bind_some,
    ← List.drop_drop]
  refine ⟨?_, ?_⟩
  · intro hLength
    exact hSome' (by omega)
  · intro hLength
    exact hNone' (by omega)

/- Converting the value does not change what is read. -/
theorem map
    {bytes : List UInt8}
    {n : Nat}
    (hRead : Needs read bytes n)
    (f : α → β) :
    Needs
      (fun bytes =>
        read bytes >>= fun p => some (f p.1, p.2))
      bytes n :=
  hRead.bind fun v _ => needs_pure (f v) _

/- A reader succeeds on a string with the needed bytes. -/
theorem ne_none_iff
    {bytes : List UInt8}
    {n : Nat}
    (hRead : Needs read bytes n) :
    read bytes ≠ none ↔ n ≤ bytes.length := by
  rcases hRead with ⟨hSome, hNone⟩
  constructor
  · intro hNe
    by_contra hLength
    exact hNe (hNone (by omega))
  · intro hLength
    rcases hSome hLength with ⟨v, hv⟩
    rw [hv]
    exact Option.some_ne_none _

end Needs

namespace Fixed

variable {n : Nat}

theorem bind
    {next : α → List UInt8 → Option (β × List UInt8)}
    {m : Nat}
    (hRead : Fixed read n)
    (hNext : ∀ v, Fixed (next v) m) :
    Fixed
      (fun bytes => read bytes >>= fun p => next p.1 p.2)
      (n + m) :=
  fun bytes => (hRead bytes).bind fun v _ => hNext v _

theorem map
    (hRead : Fixed read n)
    (f : α → β) :
    Fixed
      (fun bytes =>
        read bytes >>= fun p => some (f p.1, p.2)) n :=
  fun bytes => (hRead bytes).map f

theorem many
    (hRead : Fixed read n)
    (count : Nat) :
    Fixed (Reader.many read count) (count * n) := by
  induction count with
  | zero =>
      rw [Nat.zero_mul]
      exact needs_pure []
  | succ count ih =>
      have hStep := hRead.bind fun v => ih.map (v :: ·)
      rw [Nat.succ_mul, Nat.add_comm (count * n)]
      exact hStep

end Fixed

end Reader
