import ElevatorControl.Driver

/-
  The set of floors as a word of 64 bits, where bit
  `floor - minFloor` stands for `floor`.

  Every operation that takes a floor asserts that it is in
  range. `FloorSet.mem` is the membership the operations
  decide, without the assertion.

  Key definitions include:
    * `FloorSet`
    * `FloorSet.get`
    * `FloorSet.set`
    * `FloorSet.mem`
    * `FloorSet.insert`
    * `FloorSet.erase`
    * `FloorSet.Within`

  Key theorems include:
    * `FloorSet.get_eq_mem`
    * `FloorSet.set_eq`
    * `FloorSet.mem_insert`
    * `FloorSet.mem_erase`
    * `FloorSet.someLower_iff`
    * `FloorSet.someHigher_iff`
    * `FloorSet.consistent_eq`
-/

------------------------------------------------------------
-- Floor Sets
------------------------------------------------------------

namespace ElevatorControl

/- A set of floors in one machine word. -/
structure FloorSet where
  floors : BitVec 64
  deriving DecidableEq, Repr

namespace FloorSet

/- The empty set of the default constructor. -/
def empty : FloorSet := ⟨0#64⟩

/- The word with only the bit of `floor` set. -/
def bit
    (floor : Int)
    (d : BasicDriverInfo) : BitVec 64 :=
  1#64 <<< (floor - d.minFloor).toNat

/- The floor is one of the shaft. -/
def checkBounds
    (floor : Int)
    (d : BasicDriverInfo) :
    Except AssertionFailed Unit := do
  assert (d.minFloor ≤ floor)
    "out-of-bounds floor (minimun)"
  assert (floor ≤ d.maxFloor)
    "out-of-bounds floor (maximum)"

/- The bit of the floor is set. -/
def get
    (s : FloorSet)
    (floor : Int)
    (d : BasicDriverInfo) :
    Except AssertionFailed Bool := do
  checkBounds floor d
  return s.floors &&& bit floor d != 0#64

/- The updated set and the previous membership. -/
def set
    (s : FloorSet)
    (value : Bool)
    (floor : Int)
    (d : BasicDriverInfo) :
    Except AssertionFailed (FloorSet × Bool) := do
  let orig ← s.get floor d
  if value then
    return (⟨s.floors ||| bit floor d⟩, orig)
  else
    return (⟨s.floors &&& ~~~(bit floor d)⟩, orig)

/- The bit of a floor above is set. -/
def anyHigher
    (s : FloorSet)
    (floor : Int)
    (d : BasicDriverInfo) :
    Except AssertionFailed Bool := do
  checkBounds floor d
  return s.floors &&& (~~~(bit floor d - 1#64) <<< 1)
    != 0#64

/- The bit of a floor below is set. -/
def anyLower
    (s : FloorSet)
    (floor : Int)
    (d : BasicDriverInfo) :
    Except AssertionFailed Bool := do
  checkBounds floor d
  return s.floors &&& (bit floor d - 1#64) != 0#64

/- The bit of another floor is set. -/
def anyOther
    (s : FloorSet)
    (floor : Int)
    (d : BasicDriverInfo) :
    Except AssertionFailed Bool := do
  checkBounds floor d
  return s.floors &&& ~~~(bit floor d) != 0#64

/- No bit above the highest floor is set. -/
def consistent
    (s : FloorSet)
    (d : BasicDriverInfo) :
    Except AssertionFailed Bool := do
  return !(← s.anyHigher d.maxFloor d)

/- Some bit is set. -/
def hasAny
    (s : FloorSet) : Bool :=
  s.floors != 0#64

/- Floors in `b` that are not in `a`. -/
def hasAdditional
    (a b : FloorSet) : Bool :=
  (a.floors ^^^ b.floors) &&& b.floors != 0#64

/- Floors in one of the sets. -/
def union
    (a b : FloorSet) : FloorSet :=
  ⟨a.floors ||| b.floors⟩

/- The operator `|=`: the updated set and the result. -/
def unionAssign
    (s o : FloorSet) : FloorSet × FloorSet :=
  (⟨s.floors ||| o.floors⟩, ⟨s.floors ||| o.floors⟩)

------------------------------------------------------------
-- Membership
------------------------------------------------------------

/- The bit of `floor` is set. -/
def mem
    (s : FloorSet)
    (floor : Int)
    (d : BasicDriverInfo) : Bool :=
  s.floors.getLsbD (floor - d.minFloor).toNat

/- The set with `floor` added. -/
def insert
    (s : FloorSet)
    (floor : Int)
    (d : BasicDriverInfo) : FloorSet :=
  ⟨s.floors ||| bit floor d⟩

/- The set with `floor` removed. -/
def erase
    (s : FloorSet)
    (floor : Int)
    (d : BasicDriverInfo) : FloorSet :=
  ⟨s.floors &&& ~~~(bit floor d)⟩

variable {d : BasicDriverInfo}
variable {s t : FloorSet}
variable {f g : Int}

/- The bit of a floor is the only one set in its word. -/
theorem getLsbD_bit
    (k : Nat) :
    (bit f d).getLsbD k =
      (decide (k < 64) &&
        decide (k = (f - d.minFloor).toNat)) := by
  simp only [bit, BitVec.getLsbD_shiftLeft,
    BitVec.getLsbD_one]
  by_cases hk : k = (f - d.minFloor).toNat
  · subst hk
    simp
  · simp only [hk, decide_false, Bool.and_false]
    simp
    omega

/- Masking with one bit tests that bit. -/
theorem and_bit_ne_zero
    (w : BitVec 64) :
    (w &&& bit f d != 0#64) =
      w.getLsbD (f - d.minFloor).toNat := by
  rw [Bool.eq_iff_iff, bne_iff_ne, ne_eq]
  constructor
  · intro hNe
    by_contra hBit
    apply hNe
    apply BitVec.eq_of_getLsbD_eq
    intro k hk
    rw [BitVec.getLsbD_and, getLsbD_bit,
      BitVec.getLsbD_zero]
    by_cases hEq : k = (f - d.minFloor).toNat
    · subst hEq
      simp [Bool.eq_false_iff.mpr hBit]
    · simp [hEq]
  · intro hBit hZero
    have hLt : (f - d.minFloor).toNat < 64 :=
      BitVec.lt_of_getLsbD hBit
    have hAnd := congrArg
      (fun w => w.getLsbD (f - d.minFloor).toNat) hZero
    simp only [BitVec.getLsbD_and, getLsbD_bit, hBit,
      hLt, decide_true, Bool.and_true,
      BitVec.getLsbD_zero] at hAnd
    exact Bool.noConfusion hAnd

/- A checked read of a floor in range is membership. -/
theorem get_eq_mem
    (hRange : d.InRange f) :
    s.get f d = .ok (s.mem f d) := by
  simp only [get, checkBounds, assert_true hRange.1,
    assert_true hRange.2, mem, ← and_bit_ne_zero]
  rfl

/- A checked write to a floor in range. -/
theorem set_eq
    {value : Bool}
    (hRange : d.InRange f) :
    s.set value f d =
      .ok (if value then s.insert f d else s.erase f d,
        s.mem f d) := by
  simp only [set, get_eq_mem hRange, insert, erase]
  cases value with
  | true => rfl
  | false => rfl

/- Operations on a floor out of range abort. -/
theorem get_error
    (hRange : ¬ d.InRange f) :
    ∃ msg, s.get f d = .error ⟨msg, .generall⟩ := by
  unfold BasicDriverInfo.InRange at hRange
  simp only [get, checkBounds]
  by_cases hMin : d.minFloor ≤ f
  · have hMax : ¬ f ≤ d.maxFloor := by
      intro hMax
      exact hRange ⟨hMin, hMax⟩
    rw [assert_true hMin, assert_false hMax]
    exact ⟨_, rfl⟩
  · rw [assert_false hMin]
    exact ⟨_, rfl⟩

theorem set_error
    {value : Bool}
    (hRange : ¬ d.InRange f) :
    ∃ msg,
      s.set value f d = .error ⟨msg, .generall⟩ := by
  rcases get_error (s := s) hRange with ⟨msg, hGet⟩
  exact ⟨msg, by simp only [set, hGet]; rfl⟩

/- Floors in range have distinct bits. -/
theorem toNat_sub_eq_iff_of_inRange
    (hf : d.InRange f)
    (hg : d.InRange g) :
    (f - d.minFloor).toNat = (g - d.minFloor).toNat ↔
      f = g := by
  have hf' := hf.1
  have hg' := hg.1
  omega

/- With 64 floors or less every floor has a bit. -/
theorem index_lt_of_span
    (hSpan : d.maxFloor - d.minFloor ≤ 63)
    (hf : d.InRange f) :
    (f - d.minFloor).toNat < 64 := by
  have hMin := hf.1
  have hMax := hf.2
  omega

theorem mem_insert_of_span
    (hSpan : d.maxFloor - d.minFloor ≤ 63)
    (hf : d.InRange f)
    (hg : d.InRange g) :
    (s.insert f d).mem g d =
      (s.mem g d || decide (g = f)) := by
  have hLt := index_lt_of_span hSpan hg
  simp only [mem, insert, BitVec.getLsbD_or, getLsbD_bit,
    toNat_sub_eq_iff_of_inRange hg hf]
  simp [hLt]

theorem mem_erase_of_span
    (hSpan : d.maxFloor - d.minFloor ≤ 63)
    (hf : d.InRange f)
    (hg : d.InRange g) :
    (s.erase f d).mem g d =
      (s.mem g d && decide (g ≠ f)) := by
  have hLt := index_lt_of_span hSpan hg
  simp only [mem, erase, BitVec.getLsbD_and,
    BitVec.getLsbD_not, getLsbD_bit,
    toNat_sub_eq_iff_of_inRange hg hf]
  simp [hLt]

theorem mem_insert
    (S : Shaft)
    (hf : S.InRange f)
    (hg : S.InRange g) :
    (s.insert f S.toBasicDriverInfo).mem g
        S.toBasicDriverInfo =
      (s.mem g S.toBasicDriverInfo || decide (g = f)) :=
  mem_insert_of_span S.span hf hg

theorem mem_erase
    (S : Shaft)
    (hf : S.InRange f)
    (hg : S.InRange g) :
    (s.erase f S.toBasicDriverInfo).mem g
        S.toBasicDriverInfo =
      (s.mem g S.toBasicDriverInfo &&
        decide (g ≠ f)) :=
  mem_erase_of_span S.span hf hg

@[simp] theorem mem_union :
    (s.union t).mem f d = (s.mem f d || t.mem f d) := by
  simp [mem, union]

@[simp] theorem mem_empty :
    empty.mem f d = false := by
  simp [mem, empty]

/- A set with a member is not empty. -/
theorem hasAny_of_mem
    (hMem : s.mem f d = true) :
    s.hasAny = true := by
  rw [hasAny, bne_iff_ne, ne_eq]
  intro hZero
  rw [mem, hZero] at hMem
  simp at hMem

------------------------------------------------------------
-- Floors Above and Below
------------------------------------------------------------

/- No bit above the highest floor is set. -/
def Within
    (s : FloorSet)
    (d : BasicDriverInfo) : Prop :=
  ∀ k, s.floors.getLsbD k = true →
    k ≤ (d.maxFloor - d.minFloor).toNat

/- There is a floor of the set above `floor`. -/
def someHigher
    (s : FloorSet)
    (floor : Int)
    (d : BasicDriverInfo) : Bool :=
  s.floors &&& (~~~(bit floor d - 1#64) <<< 1) != 0#64

/- There is a floor of the set below `floor`. -/
def someLower
    (s : FloorSet)
    (floor : Int)
    (d : BasicDriverInfo) : Bool :=
  s.floors &&& (bit floor d - 1#64) != 0#64

theorem anyHigher_eq
    (hRange : d.InRange f) :
    s.anyHigher f d = .ok (s.someHigher f d) := by
  simp only [anyHigher, checkBounds, assert_true hRange.1,
    assert_true hRange.2, someHigher]
  rfl

theorem anyLower_eq
    (hRange : d.InRange f) :
    s.anyLower f d = .ok (s.someLower f d) := by
  simp only [anyLower, checkBounds, assert_true hRange.1,
    assert_true hRange.2, someLower]
  rfl

theorem and_ne_zero_iff
    (v w : BitVec 64) :
    (v &&& w != 0#64) = true ↔
      ∃ k, v.getLsbD k = true ∧ w.getLsbD k = true := by
  rw [bne_iff_ne, ne_eq]
  constructor
  · intro hNe
    by_contra hNone
    apply hNe
    apply BitVec.eq_of_getLsbD_eq
    intro k _
    rw [BitVec.getLsbD_and, BitVec.getLsbD_zero]
    by_contra hBoth
    apply hNone
    refine ⟨k, ?_⟩
    simpa using hBoth
  · rintro ⟨k, hv, hw⟩ hZero
    have hAnd := congrArg (fun w => w.getLsbD k) hZero
    simp [hv, hw] at hAnd

/- One less than the bit of a floor masks the floors below
it. -/
theorem getLsbD_bit_sub_one
    (hLt : (f - d.minFloor).toNat < 64)
    (k : Nat) :
    (bit f d - 1#64).getLsbD k =
      decide (k < (f - d.minFloor).toNat) := by
  have hWord : bit f d - 1#64 =
      BitVec.ofNat 64
        (2 ^ (f - d.minFloor).toNat - 1) := by
    apply BitVec.eq_of_toNat_eq
    have hPow : 2 ^ (f - d.minFloor).toNat < 2 ^ 64 :=
      Nat.pow_lt_pow_right (by omega) hLt
    have hPos : 0 < 2 ^ (f - d.minFloor).toNat :=
      Nat.two_pow_pos _
    simp only [bit, BitVec.toNat_sub,
      BitVec.toNat_shiftLeft, BitVec.toNat_ofNat,
      Nat.shiftLeft_eq]
    omega
  rw [hWord, BitVec.getLsbD_ofNat,
    Nat.testBit_two_pow_sub_one]
  by_cases hk : k < 64
  · simp [hk]
  · have hAbove : ¬ k < (f - d.minFloor).toNat := by omega
    simp [hk, hAbove]

/- The complement of this mask, moved by one, masks the
floors above it. -/
theorem getLsbD_above
    (hLt : (f - d.minFloor).toNat < 64)
    (k : Nat) :
    (~~~(bit f d - 1#64) <<< 1).getLsbD k = true ↔
      k < 64 ∧ (f - d.minFloor).toNat < k := by
  simp only [BitVec.getLsbD_shiftLeft, BitVec.getLsbD_not,
    getLsbD_bit_sub_one hLt, Bool.and_eq_true,
    Bool.not_eq_true', decide_eq_true_eq,
    decide_eq_false_iff_not]
  omega

/- A set without bits above the highest floor has members
only. -/
theorem exists_mem_of_getLsbD
    {k : Nat}
    (hOrdered : d.minFloor ≤ d.maxFloor)
    (hWithin : s.Within d)
    (hBit : s.floors.getLsbD k = true) :
    ∃ g, d.InRange g ∧ (g - d.minFloor).toNat = k ∧
      s.mem g d = true := by
  have hLe := hWithin k hBit
  have hIndex : (d.minFloor + k - d.minFloor).toNat = k := by
    omega
  refine ⟨d.minFloor + k, ⟨by omega, by omega⟩, hIndex, ?_⟩
  rw [mem, hIndex]
  exact hBit

theorem someLower_iff_of_span
    (hSpan : d.maxFloor - d.minFloor ≤ 63)
    (hf : d.InRange f) :
    s.someLower f d = true ↔
      ∃ g, d.InRange g ∧ g < f ∧ s.mem g d = true := by
  have hMin := hf.1
  have hMax := hf.2
  rw [someLower, and_ne_zero_iff]
  simp only [getLsbD_bit_sub_one
    (index_lt_of_span hSpan hf), decide_eq_true_eq]
  constructor
  · rintro ⟨k, hBit, hk⟩
    have hIndex :
        (d.minFloor + k - d.minFloor).toNat = k := by omega
    refine ⟨d.minFloor + k, ⟨by omega, by omega⟩, by omega,
      ?_⟩
    rw [mem, hIndex]
    exact hBit
  · rintro ⟨g, hg, hLt, hMem⟩
    have hgMin := hg.1
    exact ⟨_, hMem, by omega⟩

theorem someHigher_iff_of_span
    (hSpan : d.maxFloor - d.minFloor ≤ 63)
    (hf : d.InRange f)
    (hWithin : s.Within d) :
    s.someHigher f d = true ↔
      ∃ g, d.InRange g ∧ f < g ∧ s.mem g d = true := by
  have hMin := hf.1
  have hMax := hf.2
  rw [someHigher, and_ne_zero_iff]
  simp only [getLsbD_above (index_lt_of_span hSpan hf)]
  constructor
  · rintro ⟨k, hBit, hk⟩
    rcases exists_mem_of_getLsbD (by omega) hWithin hBit with
      ⟨g, hg, hIndex, hMem⟩
    exact ⟨g, hg, by omega, hMem⟩
  · rintro ⟨g, hg, hLt, hMem⟩
    have hgLt := index_lt_of_span hSpan hg
    exact ⟨_, hMem, hgLt, by omega⟩

theorem someLower_iff
    (S : Shaft)
    (hf : S.InRange f) :
    s.someLower f S.toBasicDriverInfo = true ↔
      ∃ g, S.InRange g ∧ g < f ∧
        s.mem g S.toBasicDriverInfo = true :=
  someLower_iff_of_span S.span hf

theorem someHigher_iff
    (S : Shaft)
    (hf : S.InRange f)
    (hWithin : s.Within S.toBasicDriverInfo) :
    s.someHigher f S.toBasicDriverInfo = true ↔
      ∃ g, S.InRange g ∧ f < g ∧
        s.mem g S.toBasicDriverInfo = true :=
  someHigher_iff_of_span S.span hf hWithin

/- A set is consistent when it has no bits above the highest
floor. -/
theorem consistent_eq_of_span
    (hOrdered : d.minFloor ≤ d.maxFloor)
    (hSpan : d.maxFloor - d.minFloor ≤ 63) :
    s.consistent d = .ok true ↔ s.Within d := by
  have hMax : d.InRange d.maxFloor :=
    ⟨hOrdered, Int.le_refl _⟩
  have hEq : s.consistent d =
      .ok (!s.someHigher d.maxFloor d) := by
    simp only [consistent, anyHigher_eq hMax]
    rfl
  rw [hEq]
  have hIff : (Except.ok (!s.someHigher d.maxFloor d) :
      Except AssertionFailed Bool) = .ok true ↔
        ¬ s.someHigher d.maxFloor d = true := by
    simp
  rw [hIff, someHigher, and_ne_zero_iff]
  simp only [getLsbD_above (index_lt_of_span hSpan hMax),
    Within, not_exists, not_and]
  constructor
  · intro hNone k hBit
    have hLt := BitVec.lt_of_getLsbD hBit
    have hAbove := hNone k hBit hLt
    omega
  · intro hWithin k hBit _
    have hLe := hWithin k hBit
    omega

theorem consistent_eq
    (S : Shaft) :
    s.consistent S.toBasicDriverInfo = .ok true ↔
      s.Within S.toBasicDriverInfo :=
  consistent_eq_of_span (Int.le_of_lt S.ordered) S.span

theorem within_empty :
    empty.Within d := by
  intro k hBit
  simp [empty] at hBit

theorem Within.insert_of_inRange
    (hf : d.InRange f)
    (hWithin : s.Within d) :
    (s.insert f d).Within d := by
  intro k hBit
  rw [FloorSet.insert, BitVec.getLsbD_or, getLsbD_bit,
    Bool.or_eq_true] at hBit
  rcases hBit with hOld | hNew
  · exact hWithin k hOld
  · have hMax := hf.2
    simp only [Bool.and_eq_true, decide_eq_true_eq] at hNew
    omega

theorem Within.insert
    (S : Shaft)
    (hf : S.InRange f)
    (hWithin : s.Within S.toBasicDriverInfo) :
    (s.insert f S.toBasicDriverInfo).Within
      S.toBasicDriverInfo :=
  Within.insert_of_inRange hf hWithin

theorem Within.erase
    (hWithin : s.Within d) :
    (s.erase f d).Within d := by
  intro k hBit
  rw [FloorSet.erase, BitVec.getLsbD_and,
    Bool.and_eq_true] at hBit
  exact hWithin k hBit.1

theorem Within.union
    (hs : s.Within d)
    (ht : t.Within d) :
    (s.union t).Within d := by
  intro k hBit
  rw [FloorSet.union, BitVec.getLsbD_or,
    Bool.or_eq_true] at hBit
  rcases hBit with hLeft | hRight
  · exact hs k hLeft
  · exact ht k hRight

/- A set without bits above the highest floor is not empty
when it has a member. -/
theorem hasAny_iff_of_ordered
    (hOrdered : d.minFloor ≤ d.maxFloor)
    (hWithin : s.Within d) :
    s.hasAny = true ↔
      ∃ g, d.InRange g ∧ s.mem g d = true := by
  constructor
  · intro hAny
    rw [hasAny, bne_iff_ne, ne_eq] at hAny
    by_contra hNone
    apply hAny
    apply BitVec.eq_of_getLsbD_eq
    intro k _
    rw [BitVec.getLsbD_zero]
    by_contra hBit
    rcases exists_mem_of_getLsbD hOrdered hWithin
      (Bool.not_eq_false _ ▸ hBit) with
      ⟨g, hg, _, hMem⟩
    exact hNone ⟨g, hg, hMem⟩
  · rintro ⟨g, _, hMem⟩
    exact hasAny_of_mem hMem

theorem hasAny_iff
    (S : Shaft)
    (hWithin : s.Within S.toBasicDriverInfo) :
    s.hasAny = true ↔
      ∃ g, S.InRange g ∧
        s.mem g S.toBasicDriverInfo = true :=
  hasAny_iff_of_ordered (Int.le_of_lt S.ordered) hWithin

end FloorSet

end ElevatorControl
