import Mathlib.Data.List.Basic

/-
  Lists in which certain elements are followed by others.

  `Followed p q l` says that after every element of `l` with
  `p` there is, further on in `l`, one with `q`. A queue is
  such a list: elements leave it at the head and enter it at
  the end, and both keep the property. A segment in the middle
  may be replaced by one that has an element with `q` if the
  old segment had one.

  Main declarations:
    * `Followed`
    * `Followed.append`
    * `Followed.splice`
-/

------------------------------------------------------------
-- Followed Elements
------------------------------------------------------------

variable {α : Type}
variable {p q : α → Prop}
variable {l m m' n : List α}

/- Every `p` of the list has a `q` after it. -/
def Followed
    (p q : α → Prop) : List α → Prop
  | [] => True
  | a :: l => (p a → ∃ b ∈ l, q b) ∧ Followed p q l

/- Nothing needs to be followed. -/
theorem followed_of_forall_not
    (hNone : ∀ a ∈ l, ¬ p a) :
    Followed p q l := by
  induction l with
  | nil => trivial
  | cons a l ih =>
      refine ⟨?_, ih fun b hb =>
        hNone b (List.mem_cons_of_mem a hb)⟩
      exact fun ha => absurd ha (hNone a List.mem_cons_self)

theorem Followed.append
    (hLeft : Followed p q l)
    (hRight : Followed p q m) :
    Followed p q (l ++ m) := by
  induction l with
  | nil => exact hRight
  | cons a l ih =>
      refine ⟨?_, ih hLeft.2⟩
      intro ha
      rcases hLeft.1 ha with ⟨b, hb, hq⟩
      exact ⟨b, List.mem_append_left m hb, hq⟩

/- What follows is not needed by what comes later. -/
theorem Followed.right
    (hList : Followed p q (l ++ m)) :
    Followed p q m := by
  induction l with
  | nil => exact hList
  | cons a l ih => exact ih hList.2

/- A segment without `q` may go, and one with `q` may be
replaced by another one with `q`. -/
theorem exists_splice
    (hSegment : (∃ b ∈ m, q b) → ∃ b ∈ m', q b)
    (hExists : ∃ b ∈ l ++ (m ++ n), q b) :
    ∃ b ∈ l ++ (m' ++ n), q b := by
  rcases hExists with ⟨b, hb, hq⟩
  rcases List.mem_append.mp hb with hl | hb
  · exact ⟨b, List.mem_append_left _ hl, hq⟩
  · rcases List.mem_append.mp hb with hm | hn
    · rcases hSegment ⟨b, hm, hq⟩ with ⟨b', hb', hq'⟩
      exact ⟨b', List.mem_append_right l
        (List.mem_append_left n hb'), hq'⟩
    · exact ⟨b, List.mem_append_right l
        (List.mem_append_right m' hn), hq⟩

theorem Followed.splice
    (hNew : ∀ a ∈ m', ¬ p a)
    (hSegment : (∃ b ∈ m, q b) → ∃ b ∈ m', q b)
    (hList : Followed p q (l ++ (m ++ n))) :
    Followed p q (l ++ (m' ++ n)) := by
  induction l with
  | nil =>
      exact (followed_of_forall_not hNew).append
        (Followed.right hList)
  | cons a l ih =>
      refine ⟨?_, ih hList.2⟩
      intro ha
      exact exists_splice hSegment (hList.1 ha)
