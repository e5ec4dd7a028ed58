import Mathlib.Data.Finset.Card
import ElevatorControl.FloorSet

/-
  Floor sets as finite sets of floors.

  With 64 floors or less, the operations on the machine word
  are those on the set of the floors whose bits are set. This
  holds up to the highest bit, where the masks of the floors
  above and below become empty or full.

  Key definitions include:
    * `FloorSet.members`
    * `FloorSet.Refines`

  Key theorems include:
    * `FloorSet.mem_members`
    * `FloorSet.eq_of_members`
    * `FloorSet.refines_members`
-/

------------------------------------------------------------
-- Members
------------------------------------------------------------

namespace ElevatorControl

namespace FloorSet

/- The floors of the set. -/
def members
    (d : BasicDriverInfo)
    (s : FloorSet) : Finset Int :=
  (d.floors.filter fun f => s.mem f d).toFinset

variable {d : BasicDriverInfo}
variable {s t : FloorSet}
variable {f : Int}

theorem mem_members :
    f ∈ s.members d ↔
      d.InRange f ∧ s.mem f d = true := by
  rw [members, List.mem_toFinset, List.mem_filter,
    BasicDriverInfo.mem_floors]

/- In range, membership is a bit. -/
theorem decide_mem_members
    (hf : d.InRange f) :
    decide (f ∈ s.members d) = s.mem f d := by
  rw [Bool.eq_iff_iff, decide_eq_true_eq, mem_members]
  exact and_iff_right hf

theorem members_insert
    (hSpan : d.maxFloor - d.minFloor ≤ 63)
    (hf : d.InRange f) :
    (s.insert f d).members d =
      Insert.insert f (s.members d) := by
  ext g
  rw [Finset.mem_insert, mem_members, mem_members]
  constructor
  · rintro ⟨hg, hMem⟩
    rw [mem_insert_of_span hSpan hf hg, Bool.or_eq_true,
      decide_eq_true_eq] at hMem
    rcases hMem with hOld | hNew
    · exact Or.inr ⟨hg, hOld⟩
    · exact Or.inl hNew
  · rintro (rfl | ⟨hg, hMem⟩)
    · refine ⟨hf, ?_⟩
      rw [mem_insert_of_span hSpan hf hf]
      simp
    · refine ⟨hg, ?_⟩
      rw [mem_insert_of_span hSpan hf hg, hMem]
      rfl

theorem members_erase_of_span
    (hSpan : d.maxFloor - d.minFloor ≤ 63)
    (hf : d.InRange f) :
    (s.erase f d).members d = (s.members d).erase f := by
  ext g
  rw [Finset.mem_erase, mem_members, mem_members]
  constructor
  · rintro ⟨hg, hMem⟩
    rw [mem_erase_of_span hSpan hf hg, Bool.and_eq_true,
      decide_eq_true_eq] at hMem
    exact ⟨hMem.2, hg, hMem.1⟩
  · rintro ⟨hOther, hg, hMem⟩
    refine ⟨hg, ?_⟩
    rw [mem_erase_of_span hSpan hf hg, hMem]
    simpa using hOther

theorem members_erase
    {S : Shaft}
    (hf : S.InRange f) :
    (s.erase f S.toBasicDriverInfo).members
        S.toBasicDriverInfo =
      (s.members S.toBasicDriverInfo).erase f :=
  members_erase_of_span S.span hf

theorem members_union :
    (s.union t).members d = s.members d ∪ t.members d := by
  ext g
  rw [Finset.mem_union, mem_members, mem_members,
    mem_members, mem_union, Bool.or_eq_true]
  exact and_or_left

/- Sets with no bits above the highest floor are equal when
their members are. -/
theorem eq_of_members
    (hOrdered : d.minFloor ≤ d.maxFloor)
    (hs : s.Within d)
    (ht : t.Within d)
    (hMembers : s.members d = t.members d) :
    s = t := by
  have hSub :
      ∀ u v : FloorSet, u.Within d →
        u.members d = v.members d →
        ∀ k, u.floors.getLsbD k = true →
          v.floors.getLsbD k = true := by
    intro u v hWithin hSame k hBit
    rcases exists_mem_of_getLsbD hOrdered hWithin hBit with
      ⟨g, hg, hIndex, hMem⟩
    have hOther : g ∈ v.members d := by
      rw [← hSame]
      exact mem_members.mpr ⟨hg, hMem⟩
    have hBit' := (mem_members.mp hOther).2
    rwa [mem, hIndex] at hBit'
  have hWord : s.floors = t.floors := by
    apply BitVec.eq_of_getLsbD_eq
    intro k _
    rw [Bool.eq_iff_iff]
    exact ⟨hSub s t hs hMembers k,
      hSub t s ht hMembers.symm k⟩
  rcases s with ⟨floors⟩
  rcases t with ⟨floors'⟩
  exact congrArg FloorSet.mk hWord

theorem members_empty :
    empty.members d = ∅ := by
  apply Finset.eq_empty_of_forall_notMem
  intro g hMem
  have hBit := (mem_members.mp hMem).2
  rw [mem_empty] at hBit
  cases hBit

/- A set within the shaft is empty when it has no members. -/
theorem eq_empty_of_members
    {S : Shaft}
    (hWithin : s.Within S.toBasicDriverInfo)
    (hNone : s.members S.toBasicDriverInfo = ∅) :
    s = empty :=
  eq_of_members (Int.le_of_lt S.ordered) hWithin
    within_empty (hNone.trans members_empty.symm)

------------------------------------------------------------
-- Refinement
------------------------------------------------------------

/- There is a floor of the set other than `floor`. -/
theorem anyOther_eq
    (hOrdered : d.minFloor ≤ d.maxFloor)
    (hs : s.Within d)
    (hf : d.InRange f) :
    s.anyOther f d =
      .ok (decide (∃ g ∈ s.members d, g ≠ f)) := by
  have hMask :
      (s.floors &&& ~~~(bit f d) != 0#64) =
        decide (∃ g ∈ s.members d, g ≠ f) := by
    rw [Bool.eq_iff_iff, decide_eq_true_eq, and_ne_zero_iff]
    constructor
    · rintro ⟨k, hBit, hOther⟩
      rcases exists_mem_of_getLsbD hOrdered hs hBit with
        ⟨g, hg, hIndex, hMem⟩
      refine ⟨g, mem_members.mpr ⟨hg, hMem⟩, ?_⟩
      rintro rfl
      have hLt := BitVec.lt_of_getLsbD hBit
      rw [BitVec.getLsbD_not, getLsbD_bit] at hOther
      simp [hLt, hIndex] at hOther
    · rintro ⟨g, hMember, hOther⟩
      rcases mem_members.mp hMember with ⟨hg, hMem⟩
      have hLt := BitVec.lt_of_getLsbD hMem
      refine ⟨_, hMem, ?_⟩
      rw [BitVec.getLsbD_not, getLsbD_bit]
      have hIndex :=
        mt (toNat_sub_eq_iff_of_inRange hg hf).mp hOther
      simp [hLt, hIndex]
  simp only [anyOther, checkBounds, assert_true hf.1,
    assert_true hf.2]
  exact congrArg Except.ok hMask

/- A bit has been added from the first set to the second. -/
theorem hasAdditional_eq
    (hOrdered : d.minFloor ≤ d.maxFloor)
    (ht : t.Within d) :
    hasAdditional s t =
      decide (∃ g ∈ t.members d, g ∉ s.members d) := by
  unfold hasAdditional
  rw [Bool.eq_iff_iff, decide_eq_true_eq, and_ne_zero_iff]
  constructor
  · rintro ⟨k, hChanged, hBit⟩
    rcases exists_mem_of_getLsbD hOrdered ht hBit with
      ⟨g, hg, hIndex, hMem⟩
    refine ⟨g, mem_members.mpr ⟨hg, hMem⟩, ?_⟩
    intro hOld
    have hBit' := (mem_members.mp hOld).2
    rw [mem, hIndex] at hBit'
    rw [BitVec.getLsbD_xor, hBit, hBit'] at hChanged
    cases hChanged
  · rintro ⟨g, hMember, hNew⟩
    rcases mem_members.mp hMember with ⟨hg, hMem⟩
    have hOld : s.mem g d = false := by
      rw [Bool.eq_false_iff]
      intro hOld
      exact hNew (mem_members.mpr ⟨hg, hOld⟩)
    refine ⟨_, ?_, hMem⟩
    rw [BitVec.getLsbD_xor]
    rw [mem] at hMem hOld
    rw [hMem, hOld]
    rfl

/-
  What the operations do to consistent sets `s` and `t` and a
  floor `f`, in terms of their members.
-/
structure Refines
    (d : BasicDriverInfo)
    (s t : FloorSet)
    (f : Int) : Prop where
  get : s.get f d = .ok (decide (f ∈ s.members d))
  set : ∀ value, ∃ s',
    s.set value f d =
        .ok (s', decide (f ∈ s.members d)) ∧
      s'.members d =
        (if value then Insert.insert f (s.members d)
          else (s.members d).erase f) ∧
      s'.consistent d = .ok true
  anyHigher : s.anyHigher f d =
    .ok (decide (∃ g ∈ s.members d, f < g))
  anyLower : s.anyLower f d =
    .ok (decide (∃ g ∈ s.members d, g < f))
  anyOther : s.anyOther f d =
    .ok (decide (∃ g ∈ s.members d, g ≠ f))
  union : (s.union t).members d =
      s.members d ∪ t.members d ∧
    (s.union t).consistent d = .ok true
  unionAssign : s.unionAssign t = (s.union t, s.union t)
  hasAny : s.hasAny = decide (s.members d).Nonempty
  hasAdditional : hasAdditional s t =
    decide (∃ g ∈ t.members d, g ∉ s.members d)

/-
  With up to 64 floors, every operation on consistent floor
  sets is the operation on their members, and leaves the sets
  consistent.
-/
theorem refines_members
    (hOrdered : 0 ≤ d.maxFloor - d.minFloor)
    (hSpan : d.maxFloor - d.minFloor ≤ 63)
    (hs : s.consistent d = .ok true)
    (ht : t.consistent d = .ok true)
    (hf : d.InRange f) :
    Refines d s t f := by
  have hFloors : d.minFloor ≤ d.maxFloor :=
    Int.sub_nonneg.mp hOrdered
  have hConsistent : ∀ u : FloorSet,
      u.consistent d = .ok true ↔ u.Within d :=
    fun _ => consistent_eq_of_span hFloors hSpan
  rw [hConsistent] at hs ht
  refine ⟨?_, ?_, ?_, ?_, anyOther_eq hFloors hs hf, ?_, rfl,
    ?_, hasAdditional_eq hFloors ht⟩
  · rw [get_eq_mem hf, decide_mem_members hf]
  · intro value
    rw [decide_mem_members hf, set_eq hf]
    cases value with
    | true =>
        exact ⟨_, rfl, members_insert hSpan hf,
          (hConsistent _).mpr (hs.insert_of_inRange hf)⟩
    | false =>
        exact ⟨_, rfl, members_erase_of_span hSpan hf,
          (hConsistent _).mpr hs.erase⟩
  · rw [anyHigher_eq hf]
    congr 1
    rw [Bool.eq_iff_iff, decide_eq_true_eq,
      someHigher_iff_of_span hSpan hf hs]
    simp only [mem_members, and_comm, and_left_comm]
  · rw [anyLower_eq hf]
    congr 1
    rw [Bool.eq_iff_iff, decide_eq_true_eq,
      someLower_iff_of_span hSpan hf]
    simp only [mem_members, and_comm, and_left_comm]
  · exact ⟨members_union, (hConsistent _).mpr (hs.union ht)⟩
  · rw [Bool.eq_iff_iff, decide_eq_true_eq,
      hasAny_iff_of_ordered hFloors hs]
    simp only [Finset.Nonempty, mem_members]

/- All 64 floors are in the set whose bits are all set. -/
theorem refines_members_full :
    Refines ⟨0, 63⟩ ⟨BitVec.allOnes 64⟩ empty 63 :=
  refines_members (by decide) (by decide) rfl rfl (by decide)

end FloorSet

end ElevatorControl
