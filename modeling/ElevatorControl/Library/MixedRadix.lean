import Mathlib.Data.Nat.Basic
import Mathlib.Data.Prod.Lex

/-
  Numbers of two digits, and the order of their digits.

  When the low digit is less than the weight of the high one,
  comparing the numbers is comparing the digits one after the
  other. The low digit may itself be a number of two digits,
  so that the rule covers any number of them.

  Key definitions include:
    * `MixedRadix.value`

  Key theorems include:
    * `MixedRadix.value_lt`
    * `MixedRadix.value_le_iff`
-/

------------------------------------------------------------
-- Two Digits
------------------------------------------------------------

namespace MixedRadix

/- The number with the given digits. -/
def value
    (weight high low : Nat) : Nat :=
  high * weight + low

variable {weight : Nat}
variable {a a' b b' : Nat}

/- A larger high digit outweighs any low digits. -/
theorem value_lt
    (hLow : b < weight)
    (hHigh : a < a') :
    value weight a b < value weight a' b' := by
  have hNext : (a + 1) * weight ≤ a' * weight :=
    Nat.mul_le_mul_right weight hHigh
  unfold value
  calc
    a * weight + b < a * weight + weight :=
      Nat.add_lt_add_left hLow _
    _ = (a + 1) * weight := (Nat.succ_mul a weight).symm
    _ ≤ a' * weight := hNext
    _ ≤ a' * weight + b' := Nat.le_add_right _ _

/- Numbers are compared digit by digit. -/
theorem value_le_iff
    (hLow : b < weight)
    (hLow' : b' < weight) :
    value weight a b ≤ value weight a' b' ↔
      toLex (a, b) ≤ toLex (a', b') := by
  rw [Prod.Lex.toLex_le_toLex]
  dsimp only
  rcases Nat.lt_trichotomy a a' with hLess | rfl | hMore
  · have hValue : value weight a b < value weight a' b' :=
      value_lt hLow hLess
    exact ⟨fun _ => Or.inl hLess,
      fun _ => Nat.le_of_lt hValue⟩
  · unfold value
    constructor
    · intro hLe
      exact Or.inr ⟨rfl, Nat.le_of_add_le_add_left hLe⟩
    · rintro (hLess | ⟨_, hLe⟩)
      · exact absurd hLess (Nat.lt_irrefl a)
      · exact Nat.add_le_add_left hLe _
  · have hValue : value weight a' b' < value weight a b :=
      value_lt hLow' hMore
    constructor
    · intro hLe
      exact absurd hLe (Nat.not_le.mpr hValue)
    · rintro (hLess | ⟨hSame, _⟩)
      · exact absurd hLess (Nat.lt_asymm hMore)
      · exact absurd hSame (Nat.ne_of_gt hMore)

/- The same for a low digit that stands for other things in
an order of their own. -/
theorem value_le_iff_of_low
    {α : Type}
    [Preorder α]
    {x x' : α}
    (hLow : b < weight)
    (hLow' : b' < weight)
    (hOrder : b ≤ b' ↔ x ≤ x') :
    value weight a b ≤ value weight a' b' ↔
      toLex (a, x) ≤ toLex (a', x') := by
  rw [value_le_iff hLow hLow', Prod.Lex.toLex_le_toLex,
    Prod.Lex.toLex_le_toLex]
  dsimp only
  rw [hOrder]

end MixedRadix
