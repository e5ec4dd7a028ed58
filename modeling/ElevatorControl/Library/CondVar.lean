import Mathlib.Data.Fintype.Card

/-
  Condition variables with timed waits.

  A thread that waits has released the lock. It is woken by
  a notification, for no reason, or by its timeout, and is
  then about to take the lock again. A notification is
  pending from the moment it wakes a thread until this thread
  has taken the lock.

  Key definitions include:
    * `CondVar`
    * `CondVar.NotifyOne`
    * `CondVar.Wakes`
    * `CondVar.Covered`

  Key theorems include:
    * `CondVar.Covered.notify`
    * `CondVar.Covered.wakes`
    * `CondVar.Covered.resume`
-/

------------------------------------------------------------
-- Condition Variables
------------------------------------------------------------

/- What has woken a thread. -/
inductive Wake where
  | notified
  | spurious
  | timedOut
  deriving DecidableEq

/- Where a thread is with respect to a condition variable. -/
inductive WaitStatus where
  | running
  | blocked (timed : Bool)
  | woken (timed : Bool) (cause : Wake)
  deriving DecidableEq

/- The threads of a condition variable. -/
abbrev CondVar (Thread : Type) : Type :=
  Thread → WaitStatus

namespace CondVar

variable {Thread : Type} [DecidableEq Thread]

/- The thread has got the given status. -/
def put
    (c : CondVar Thread)
    (t : Thread)
    (status : WaitStatus) : CondVar Thread :=
  Function.update c t status

/- Notify some blocked thread, if there is one. -/
inductive NotifyOne
    (c : CondVar Thread) :
    CondVar Thread → Prop where
  | none
      (hNone : ∀ t timed, c t ≠ .blocked timed) :
      NotifyOne c c
  | some
      (t : Thread)
      (timed : Bool)
      (hBlocked : c t = .blocked timed) :
      NotifyOne c (c.put t (.woken timed .notified))

/- A thread wakes up without a notification. -/
inductive Wakes
    (c : CondVar Thread) :
    CondVar Thread → Prop where
  | spurious
      (t : Thread)
      (timed : Bool)
      (hBlocked : c t = .blocked timed) :
      Wakes c (c.put t (.woken timed .spurious))
  | timedOut
      (t : Thread)
      (hBlocked : c t = .blocked true) :
      Wakes c (c.put t (.woken true .timedOut))

/- A notification is pending for the thread. -/
def Notified
    (c : CondVar Thread)
    (t : Thread) : Prop :=
  c t = .woken false .notified ∨
    c t = .woken true .notified

instance
    (c : CondVar Thread) :
    DecidablePred c.Notified :=
  fun _ => inferInstanceAs (Decidable (_ ∨ _))

/- The number of pending notifications. -/
def pending
    [Fintype Thread]
    (c : CondVar Thread) : Nat :=
  (Finset.univ.filter c.Notified).card

/-
  While a thread is blocked, each of `n` items is covered by
  a pending notification.
-/
def Covered
    [Fintype Thread]
    (c : CondVar Thread)
    (n : Nat) : Prop :=
  (∃ t timed, c t = .blocked timed) → n ≤ c.pending

section Covered

variable {c c' : CondVar Thread}
variable {t : Thread}
variable {status : WaitStatus}
variable {n : Nat}

theorem put_self : c.put t status t = status := by
  simp [put]

theorem put_ne
    {u : Thread}
    (hNe : u ≠ t) :
    c.put t status u = c u := by
  simp [put, hNe]

omit [DecidableEq Thread] in
theorem not_notified_of_blocked
    {timed : Bool}
    (hBlocked : c t = .blocked timed) :
    ¬ c.Notified t := by
  unfold Notified
  rw [hBlocked]
  simp

/- A thread that does not block leaves only threads blocked
that were blocked before. -/
theorem blocked_of_put
    (hStatus : ∀ timed, status ≠ .blocked timed)
    (hBlocked : ∃ u timed,
      c.put t status u = .blocked timed) :
    ∃ u timed, c u = .blocked timed := by
  rcases hBlocked with ⟨u, timed, hu⟩
  by_cases hSame : u = t
  · subst hSame
    rw [put_self] at hu
    exact absurd hu (hStatus timed)
  · rw [put_ne hSame] at hu
    exact ⟨u, timed, hu⟩

variable [Fintype Thread]

/- One thread changes the count by at most one. -/
theorem pending_le_put :
    c.pending ≤ (c.put t status).pending + 1 := by
  have hSubset :
      Finset.univ.filter c.Notified ⊆
        insert t (Finset.univ.filter
          (c.put t status).Notified) := by
    intro u hu
    by_cases hSame : u = t
    · exact Finset.mem_insert.mpr (Or.inl hSame)
    · apply Finset.mem_insert_of_mem
      simp only [Finset.mem_filter, Finset.mem_univ,
        true_and] at hu ⊢
      unfold Notified at hu ⊢
      rw [put_ne hSame]
      exact hu
  calc
    c.pending ≤ (insert t (Finset.univ.filter
        (c.put t status).Notified)).card :=
      Finset.card_le_card hSubset
    _ ≤ (c.put t status).pending + 1 :=
      Finset.card_insert_le _ _

/- A thread that had no notification does not lower the
count. -/
theorem pending_le_put_of_not
    (hNot : ¬ c.Notified t) :
    c.pending ≤ (c.put t status).pending := by
  apply Finset.card_le_card
  intro u hu
  simp only [Finset.mem_filter, Finset.mem_univ,
    true_and] at hu ⊢
  have hNe : u ≠ t := by
    intro hSame
    exact hNot (hSame ▸ hu)
  unfold Notified at hu ⊢
  rw [put_ne hNe]
  exact hu

/- Notifying a blocked thread adds a notification. -/
theorem pending_notified
    {timed : Bool}
    (hBlocked : c t = .blocked timed) :
    (c.put t (.woken timed .notified)).pending =
      c.pending + 1 := by
  have hInsert :
      Finset.univ.filter
          (c.put t (.woken timed .notified)).Notified =
        insert t (Finset.univ.filter c.Notified) := by
    ext u
    simp only [Finset.mem_filter, Finset.mem_univ, true_and,
      Finset.mem_insert]
    by_cases hSame : u = t
    · subst hSame
      unfold Notified
      rw [put_self]
      cases timed with
      | false => simp
      | true => simp
    · unfold Notified
      rw [put_ne hSame]
      simp [hSame]
  unfold pending
  rw [hInsert]
  apply Finset.card_insert_of_notMem
  simp only [Finset.mem_filter, Finset.mem_univ, true_and]
  exact not_notified_of_blocked hBlocked

omit [DecidableEq Thread] in
/- Nothing is to be covered. -/
theorem covered_zero : c.Covered 0 :=
  fun _ => Nat.zero_le _

/- A new item with a notification of its own. -/
theorem Covered.notify
    (hCovered : c.Covered n)
    (hNotify : c.NotifyOne c') :
    c'.Covered (n + 1) := by
  cases hNotify with
  | none hNone =>
      rintro ⟨t, timed, hBlocked⟩
      exact absurd hBlocked (hNone t timed)
  | some t timed hBlocked =>
      intro _
      have hLe := hCovered ⟨t, timed, hBlocked⟩
      rw [pending_notified hBlocked]
      omega

/- Waking up without a notification uncovers nothing. -/
theorem Covered.wakes
    (hCovered : c.Covered n)
    (hWakes : c.Wakes c') :
    c'.Covered n := by
  cases hWakes with
  | spurious t timed hBlocked =>
      exact fun _ => (hCovered ⟨t, timed, hBlocked⟩).trans
        (pending_le_put_of_not
          (not_notified_of_blocked hBlocked))
  | timedOut t hBlocked =>
      exact fun _ => (hCovered ⟨t, true, hBlocked⟩).trans
        (pending_le_put_of_not
          (not_notified_of_blocked hBlocked))

/- A thread goes on and takes an item with it. -/
theorem Covered.resume
    (hCovered : c.Covered (n + 1)) :
    (c.put t .running).Covered n := by
  intro hBlocked
  have hBefore := blocked_of_put (fun _ => by simp) hBlocked
  have hLe := hCovered hBefore
  have hPut :
      c.pending ≤ (c.put t .running).pending + 1 :=
    pending_le_put
  omega

end Covered

end CondVar
