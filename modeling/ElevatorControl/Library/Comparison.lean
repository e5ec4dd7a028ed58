import Mathlib.Data.Prod.Lex

/-
  Comparison operators that a type defines by hand.

  Three operators form one order when exactly one of less,
  equal and greater holds, less is transitive, and unequal is
  not equal. The first two hold of any operators that compare
  a key in a linear order. Values that compare their first
  components, and the second ones when these are equal,
  compare the pair of the keys.

  Key definitions include:
    * `Comparison`
    * `Comparison.Consistent`
    * `Comparison.Compares`

  Key theorems include:
    * `Comparison.Compares.consistent_iff`
    * `Comparison.Compares.lex`
-/

------------------------------------------------------------
-- Operators
------------------------------------------------------------

/- The operators `==`, `!=` and `<` of a type. -/
structure Comparison (α : Type) where
  eq : α → α → Bool
  ne : α → α → Bool
  lt : α → α → Bool

namespace Comparison

variable {α β γ : Type}

/- Exactly one of the three holds. -/
def ExactlyOne
    (p q r : Prop) : Prop :=
  (p ∧ ¬ q ∧ ¬ r) ∨ (¬ p ∧ q ∧ ¬ r) ∨ (¬ p ∧ ¬ q ∧ r)

/- The operators form one order at these values. -/
structure Consistent
    (c : Comparison α)
    (x y z : α) : Prop where
  exactlyOne :
    ExactlyOne (c.lt x y = true) (c.eq x y = true)
      (c.lt y x = true)
  transitive :
    c.lt x y = true → c.lt y z = true → c.lt x z = true
  unequal : c.ne x y = true ↔ ¬ c.eq x y = true

/- Equality and less compare the keys of the values. -/
structure Compares
    [LinearOrder β]
    (c : Comparison α)
    (key : α → β) : Prop where
  eq_iff : ∀ x y, c.eq x y = true ↔ key x = key y
  lt_iff : ∀ x y, c.lt x y = true ↔ key x < key y

/- All three operators compare a key. -/
def on
    [LinearOrder β]
    (key : α → β) : Comparison α where
  eq x y := decide (key x = key y)
  ne x y := decide (key x ≠ key y)
  lt x y := decide (key x < key y)

------------------------------------------------------------
-- Orders
------------------------------------------------------------

section Orders

variable [LinearOrder β]
variable {c : Comparison α}
variable {key : α → β}
variable {x y z : α}

theorem Compares.exactlyOne
    (hKey : c.Compares key) :
    ExactlyOne (c.lt x y = true) (c.eq x y = true)
      (c.lt y x = true) := by
  rw [hKey.lt_iff, hKey.eq_iff, hKey.lt_iff]
  rcases lt_trichotomy (key x) (key y) with
    hLess | hSame | hMore
  · exact Or.inl ⟨hLess, ne_of_lt hLess, lt_asymm hLess⟩
  · exact Or.inr (Or.inl
      ⟨not_lt_of_ge (le_of_eq hSame.symm), hSame,
        not_lt_of_ge (le_of_eq hSame)⟩)
  · exact Or.inr (Or.inr
      ⟨lt_asymm hMore, ne_of_gt hMore, hMore⟩)

theorem Compares.transitive
    (hKey : c.Compares key)
    (hFirst : c.lt x y = true)
    (hSecond : c.lt y z = true) :
    c.lt x z = true := by
  rw [hKey.lt_iff] at hFirst hSecond ⊢
  exact lt_trans hFirst hSecond

/- When equality and less compare a key, only `!=` is left
to be checked. -/
theorem Compares.consistent_iff
    (hKey : c.Compares key) :
    c.Consistent x y z ↔
      (c.ne x y = true ↔ ¬ c.eq x y = true) := by
  constructor
  · exact Consistent.unequal
  · intro hUnequal
    exact
      { exactlyOne := hKey.exactlyOne
        transitive := hKey.transitive
        unequal := hUnequal }

theorem compares_on
    (key : α → β) :
    (on key).Compares key where
  eq_iff _ _ := decide_eq_true_iff
  lt_iff _ _ := decide_eq_true_iff

theorem ne_on :
    (on key).ne x y = true ↔ ¬ (on key).eq x y = true := by
  rw [(compares_on key).eq_iff]
  exact decide_eq_true_iff

/- Operators that compare a key form one order. -/
theorem consistent_on :
    (on key).Consistent x y z :=
  (compares_on key).consistent_iff.mpr ne_on

/-
  Comparing the first components, and the second ones when
  the first are equal, compares the pair of the keys.
-/
theorem Compares.lex
    {δ ε : Type}
    [LinearOrder γ]
    {d : Comparison δ}
    {e : Comparison ε}
    {key' : δ → γ}
    {fst : ε → α}
    {snd : ε → δ}
    (hFirst : c.Compares key)
    (hSecond : d.Compares key')
    (hEq : ∀ p q, e.eq p q =
      (c.eq (fst p) (fst q) && d.eq (snd p) (snd q)))
    (hLt : ∀ p q, e.lt p q =
      if c.eq (fst p) (fst q) then d.lt (snd p) (snd q)
      else c.lt (fst p) (fst q)) :
    e.Compares fun p =>
      toLex (key (fst p), key' (snd p)) where
  eq_iff p q := by
    rw [hEq, Bool.and_eq_true, hFirst.eq_iff, hSecond.eq_iff,
      toLex_inj, Prod.mk.injEq]
  lt_iff p q := by
    rw [hLt, Prod.Lex.toLex_lt_toLex]
    dsimp only
    by_cases hSame : c.eq (fst p) (fst q) = true
    · have hKeys : key (fst p) = key (fst q) :=
        (hFirst.eq_iff _ _).mp hSame
      rw [if_pos hSame, hSecond.lt_iff, hKeys]
      simp
    · have hKeys : key (fst p) ≠ key (fst q) := fun hKeys =>
        hSame ((hFirst.eq_iff _ _).mpr hKeys)
      rw [if_neg hSame, hFirst.lt_iff]
      simp [hKeys]

end Orders

end Comparison
