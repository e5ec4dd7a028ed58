import Mathlib.Data.List.Basic
import Mathlib.Order.Lattice
import Mathlib.Tactic.Common

/-
  Binary heaps in arrays, with the smallest key at the root.

  `push` appends an element and sifts it up; `pop` moves the
  last element to the root and sifts it down. Both permute
  the elements and keep the order of the heap, and no element
  of an ordered heap has a smaller key than the root.

  Main declarations:
    * `BinaryHeap.push` and `BinaryHeap.pop`
    * `BinaryHeap.Ordered`
    * `BinaryHeap.push_perm` and `BinaryHeap.pop_perm`
    * `BinaryHeap.ordered_push` and `BinaryHeap.ordered_pop`
    * `BinaryHeap.root_le`
-/

------------------------------------------------------------
-- Operations
------------------------------------------------------------

namespace BinaryHeap

variable {α κ : Type}
variable [LinearOrder κ]

/- Swap an element with its parent while its key is
smaller. -/
def siftUp
    (key : α → κ)
    (a : Array α)
    (i : Nat)
    (hi : i < a.size) : Array α :=
  if h : 0 < i ∧ key a[i] < key a[(i - 1) / 2] then
    siftUp key (a.swap i ((i - 1) / 2)) ((i - 1) / 2)
      (by rw [Array.size_swap]; omega)
  else a
termination_by i

/- Add an element. -/
def push
    (key : α → κ)
    (a : Array α)
    (x : α) : Array α :=
  siftUp key (a.push x) a.size (by simp)

/- The child of `i` with the smaller key. -/
def smallerChild
    (key : α → κ)
    (a : Array α)
    (i : Nat)
    (hl : 2 * i + 1 < a.size) : Nat :=
  if h : 2 * i + 2 < a.size then
    if key a[2 * i + 2] < key a[2 * i + 1] then 2 * i + 2
    else 2 * i + 1
  else 2 * i + 1

theorem smallerChild_bounds
    {key : α → κ}
    {a : Array α}
    {i : Nat}
    (hl : 2 * i + 1 < a.size) :
    i < smallerChild key a i hl ∧
      smallerChild key a i hl < a.size ∧
      (smallerChild key a i hl - 1) / 2 = i := by
  unfold smallerChild
  split
  · split
    · omega
    · omega
  · omega

/- Swap an element with its smaller child while the child's
key is smaller. -/
def siftDown
    (key : α → κ)
    (a : Array α)
    (i : Nat) : Array α :=
  if hl : 2 * i + 1 < a.size then
    have hAfter : i < smallerChild key a i hl :=
      (smallerChild_bounds hl).1
    have hSize : smallerChild key a i hl < a.size :=
      (smallerChild_bounds hl).2.1
    if key a[smallerChild key a i hl] < key a[i] then
      siftDown key (a.swap i (smallerChild key a i hl))
        (smallerChild key a i hl)
    else a
  else a
termination_by a.size - i
decreasing_by
  rw [Array.size_swap]
  omega

/- Remove the root. -/
def pop
    (key : α → κ)
    (a : Array α) : Array α :=
  if h : 0 < a.size then
    siftDown key (a.swap 0 (a.size - 1)).pop 0
  else a

------------------------------------------------------------
-- Permutations
------------------------------------------------------------

variable {key : α → κ}

theorem siftUp_perm
    (a : Array α)
    (i : Nat)
    (hi : i < a.size) :
    (siftUp key a i hi).Perm a := by
  fun_induction siftUp key a i hi with
  | case1 a i hi h ih =>
      exact ih.trans (Array.swap_perm hi (by omega))
  | case2 a i hi h => exact Array.Perm.refl a

theorem siftDown_perm
    (a : Array α)
    (i : Nat) :
    (siftDown key a i).Perm a := by
  fun_induction siftDown key a i with
  | case1 a i hl hAfter hSize hLt ih =>
      exact ih.trans (Array.swap_perm (by omega) hSize)
  | case2 a i hl hAfter hSize hLe =>
      exact Array.Perm.refl a
  | case3 a i hl => exact Array.Perm.refl a

/- A push adds exactly its element. -/
theorem push_perm
    (a : Array α)
    (x : α) :
    (push key a x).toList.Perm (x :: a.toList) := by
  have hSift :
      (push key a x).toList.Perm (a.push x).toList :=
    (siftUp_perm _ _ _).toList
  rw [Array.toList_push] at hSift
  exact hSift.trans (List.perm_append_singleton x a.toList)

/- A pop removes exactly the root. -/
theorem pop_perm
    (a : Array α)
    (h : 0 < a.size) :
    a.toList.Perm (a[0] :: (pop key a).toList) := by
  have hSwapped :
      (a.swap 0 (a.size - 1)).toList.Perm a.toList :=
    (Array.swap_perm h (by omega)).toList
  have hSplit :
      (a.swap 0 (a.size - 1)).toList =
        (a.swap 0 (a.size - 1)).pop.toList ++ [a[0]] := by
    have hNe : (a.swap 0 (a.size - 1)).toList ≠ [] := by
      intro hNil
      have hLength := congrArg List.length hNil
      rw [Array.length_toList, Array.size_swap] at hLength
      exact Nat.ne_of_gt h hLength
    have hLast :
        (a.swap 0 (a.size - 1)).toList.getLast hNe =
          a[0] := by
      simp [List.getLast_eq_getElem]
    rw [Array.toList_pop, ← hLast,
      List.dropLast_concat_getLast hNe]
  have hSift :
      (pop key a).toList.Perm
        (a.swap 0 (a.size - 1)).pop.toList := by
    rw [pop, dif_pos h]
    exact (siftDown_perm _ _).toList
  rw [hSplit] at hSwapped
  calc
    a.toList.Perm
        ((a.swap 0 (a.size - 1)).pop.toList ++ [a[0]]) :=
      hSwapped.symm
    List.Perm _
        (a[0] :: (a.swap 0 (a.size - 1)).pop.toList) :=
      List.perm_append_singleton _ _
    List.Perm _ (a[0] :: (pop key a).toList) :=
      hSift.symm.cons _

------------------------------------------------------------
-- Order
------------------------------------------------------------

/- No element has a smaller key than its parent. -/
def Ordered
    (key : α → κ)
    (a : Array α) : Prop :=
  ∀ j, (hj : j < a.size) → 0 < j →
    key a[(j - 1) / 2] ≤ key a[j]

/- The root has the smallest key. -/
theorem root_le
    {a : Array α}
    (hOrdered : Ordered key a) :
    ∀ j, (hj : j < a.size) → key a[0] ≤ key a[j] := by
  intro j
  induction j using Nat.strongRecOn with
  | _ j ih =>
      intro hj
      by_cases hRoot : j = 0
      · subst hRoot
        exact le_refl _
      · have hParent :=
          ih ((j - 1) / 2) (by omega) (by omega)
        exact hParent.trans (hOrdered j hj (by omega))

/-
  The heap is ordered but for the element at `i`, which may
  be smaller than its parent.
-/
structure UpOrdered
    (key : α → κ)
    (a : Array α)
    (i : Nat) : Prop where
  except : ∀ j, (hj : j < a.size) → 0 < j → j ≠ i →
    key a[(j - 1) / 2] ≤ key a[j]
  grand : ∀ j, (hj : j < a.size) → 0 < j →
    (hParent : (j - 1) / 2 = i) → 0 < i →
      key a[(i - 1) / 2] ≤ key a[j]

theorem UpOrdered.swap
    {a : Array α}
    {i : Nat}
    (hUp : UpOrdered key a i)
    (hi : i < a.size)
    (hPos : 0 < i)
    (hLt : key a[i] < key a[(i - 1) / 2]) :
    UpOrdered key (a.swap i ((i - 1) / 2)) ((i - 1) / 2) := by
  have hExcept := hUp.except
  have hGrand := hUp.grand
  refine ⟨?_, ?_⟩
  · intro j hj hj0 hjp
    rw [Array.size_swap] at hj
    simp only [Array.getElem_swap]
    grind
  · intro j hj hj0 hjp hp0
    rw [Array.size_swap] at hj
    simp only [Array.getElem_swap]
    grind

theorem ordered_siftUp
    (a : Array α)
    (i : Nat)
    (hi : i < a.size)
    (hUp : UpOrdered key a i) :
    Ordered key (siftUp key a i hi) := by
  fun_induction siftUp key a i hi with
  | case1 a i hi h ih => exact ih (hUp.swap hi h.1 h.2)
  | case2 a i hi h =>
      intro j hj hj0
      by_cases hji : j = i
      · subst hji
        exact le_of_not_gt fun hLt => h ⟨hj0, hLt⟩
      · exact hUp.except j hj hj0 hji

/- A push keeps the heap ordered. -/
theorem ordered_push
    {a : Array α}
    (hOrdered : Ordered key a)
    (x : α) :
    Ordered key (push key a x) := by
  apply ordered_siftUp
  refine ⟨?_, ?_⟩
  · intro j hj hj0 hji
    rw [Array.size_push] at hj
    have hOld := hOrdered j (by omega) hj0
    simpa [Array.getElem_push, show j < a.size by omega,
      show (j - 1) / 2 < a.size by omega] using hOld
  · intro j hj hj0 hParent
    rw [Array.size_push] at hj
    omega

/-
  The heap is ordered but for the children of the element at
  `i`, which may be smaller than it.
-/
structure DownOrdered
    (key : α → κ)
    (a : Array α)
    (i : Nat) : Prop where
  except : ∀ j, (hj : j < a.size) → 0 < j →
    (j - 1) / 2 ≠ i → key a[(j - 1) / 2] ≤ key a[j]
  grand : ∀ j, (hj : j < a.size) → 0 < j →
    (hParent : (j - 1) / 2 = i) → 0 < i →
      key a[(i - 1) / 2] ≤ key a[j]

/- No child has a smaller key than the smaller child. -/
theorem smallerChild_le
    {a : Array α}
    {i : Nat}
    (hl : 2 * i + 1 < a.size)
    (hSize : smallerChild key a i hl < a.size) :
    ∀ j, (hj : j < a.size) → 0 < j → (j - 1) / 2 = i →
      key a[smallerChild key a i hl] ≤ key a[j] := by
  intro j hj hj0 hParent
  have hChild : j = 2 * i + 1 ∨ j = 2 * i + 2 := by omega
  unfold smallerChild
  grind

theorem DownOrdered.swap
    {a : Array α}
    {i : Nat}
    (hDown : DownOrdered key a i)
    (hl : 2 * i + 1 < a.size)
    (hSize : smallerChild key a i hl < a.size)
    (hLt : key a[smallerChild key a i hl] < key a[i]) :
    DownOrdered key (a.swap i (smallerChild key a i hl))
      (smallerChild key a i hl) := by
  have hExcept := hDown.except
  have hGrand := hDown.grand
  have hChild := smallerChild_le hl hSize
  have hBounds : i < smallerChild key a i hl ∧
      smallerChild key a i hl < a.size ∧
      (smallerChild key a i hl - 1) / 2 = i :=
    smallerChild_bounds hl
  generalize smallerChild key a i hl = c at *
  refine ⟨?_, ?_⟩
  · intro j hj hj0 hjp
    rw [Array.size_swap] at hj
    simp only [Array.getElem_swap]
    grind
  · intro j hj hj0 hjp hp0
    rw [Array.size_swap] at hj
    simp only [Array.getElem_swap]
    grind

theorem ordered_siftDown
    (a : Array α)
    (i : Nat)
    (hDown : DownOrdered key a i) :
    Ordered key (siftDown key a i) := by
  fun_induction siftDown key a i with
  | case1 a i hl hAfter hSize hLt ih =>
      exact ih (hDown.swap hl hSize hLt)
  | case2 a i hl hAfter hSize hLe =>
      intro j hj hj0
      by_cases hji : (j - 1) / 2 = i
      · subst hji
        exact (le_of_not_gt hLe).trans
          (smallerChild_le hl hSize j hj hj0 rfl)
      · exact hDown.except j hj hj0 hji
  | case3 a i hl =>
      intro j hj hj0
      exact hDown.except j hj hj0 (by omega)

/- A pop keeps the heap ordered. -/
theorem ordered_pop
    {a : Array α}
    (hOrdered : Ordered key a) :
    Ordered key (pop key a) := by
  unfold pop
  split
  · next h =>
      apply ordered_siftDown
      refine ⟨?_, ?_⟩
      · intro j hj hj0 hjp
        rw [Array.size_pop, Array.size_swap] at hj
        have hOld := hOrdered j (by omega) hj0
        simp only [Array.getElem_pop, Array.getElem_swap]
        grind
      · intro j hj hj0 hjp hPos
        omega
  · exact hOrdered

end BinaryHeap
