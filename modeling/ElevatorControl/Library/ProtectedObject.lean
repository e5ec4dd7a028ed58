import Mathlib.Data.Fintype.Card
import Mathlib.Data.List.Nodup

/-
  Protected objects in the sense of Ada.

  A call of an entry is executed if the barrier is open, and
  otherwise waits in the queue of the entry. Barriers and
  bodies may read how many calls wait in each queue. No call
  enters the object while a waiting one has an open barrier.

  Key definitions include:
    * `ProtectedType`
    * `ProtectedObject`
    * `ProtectedObject.Open`
    * `ProtectedObject.serve`
    * `ProtectedObject.Waiting`

  Key theorems include:
    * `ProtectedObject.Waiting.all_of_count`
    * `ProtectedObject.Waiting.enqueue`
    * `ProtectedObject.Waiting.serve`
    * `ProtectedObject.Waiting.cancel`
-/

------------------------------------------------------------
-- Protected Objects
------------------------------------------------------------

/- The barriers and the bodies of the entries. The function
gives the number of calls in each queue. -/
structure ProtectedType (Entry Data : Type) where
  barrier : Data → (Entry → Nat) → Entry → Bool
  body : Data → (Entry → Nat) → Entry → Data

/- The components of the object, and the callers that wait at
each entry. -/
structure ProtectedObject (Caller Entry Data : Type) where
  data : Data
  queue : Entry → List Caller

namespace ProtectedObject

variable {Caller Entry Data : Type}

/- The attribute `'Count` of each entry. -/
def count
    (p : ProtectedObject Caller Entry Data)
    (e : Entry) : Nat :=
  (p.queue e).length

/- A call that begins now is executed at once. -/
def Admits
    (T : ProtectedType Entry Data)
    (e : Entry)
    (p : ProtectedObject Caller Entry Data) : Prop :=
  T.barrier p.data p.count e = true

/- Some call waits behind an open barrier. -/
def Open
    (T : ProtectedType Entry Data)
    (e : Entry)
    (p : ProtectedObject Caller Entry Data) : Prop :=
  p.queue e ≠ [] ∧ p.Admits T e

instance
    (T : ProtectedType Entry Data)
    (e : Entry)
    (p : ProtectedObject Caller Entry Data) :
    Decidable (p.Admits T e) := by
  unfold Admits
  infer_instance

instance
    [DecidableEq Caller]
    (T : ProtectedType Entry Data)
    (e : Entry)
    (p : ProtectedObject Caller Entry Data) :
    Decidable (p.Open T e) := by
  unfold Open
  infer_instance

/- No call is about to be served, so that another action can
begin. -/
def Quiet
    (T : ProtectedType Entry Data)
    (p : ProtectedObject Caller Entry Data) : Prop :=
  ∀ e, ¬ p.Open T e

/- The body of the entry is executed. -/
def execute
    (T : ProtectedType Entry Data)
    (e : Entry)
    (p : ProtectedObject Caller Entry Data) :
    ProtectedObject Caller Entry Data :=
  { p with data := T.body p.data p.count e }

variable [DecidableEq Entry]

/- The caller joins the queue of the entry. -/
def enqueue
    (e : Entry)
    (c : Caller)
    (p : ProtectedObject Caller Entry Data) :
    ProtectedObject Caller Entry Data :=
  { p with
    queue := Function.update p.queue e (p.queue e ++ [c]) }

/- The caller leaves the queue of the entry. -/
def cancel
    [DecidableEq Caller]
    (e : Entry)
    (c : Caller)
    (p : ProtectedObject Caller Entry Data) :
    ProtectedObject Caller Entry Data :=
  { p with
    queue := Function.update p.queue e
      ((p.queue e).erase c) }

/- The first caller of the queue leaves it, and the body is
executed for it. -/
def serve
    (T : ProtectedType Entry Data)
    (e : Entry)
    (p : ProtectedObject Caller Entry Data) :
    ProtectedObject Caller Entry Data :=
  execute T e
    { p with
      queue := Function.update p.queue e
        (p.queue e).tail }

------------------------------------------------------------
-- Queues of Callers
------------------------------------------------------------

/-
  The callers that wait at the entry are those with the
  property, each with one call.
-/
structure Waiting
    (p : ProtectedObject Caller Entry Data)
    (e : Entry)
    (P : Caller → Prop) : Prop where
  nodup : (p.queue e).Nodup
  mem_iff : ∀ c, c ∈ p.queue e ↔ P c

section Waiting

variable {p p' : ProtectedObject Caller Entry Data}
variable {T : ProtectedType Entry Data}
variable {e f : Entry}
variable {c : Caller}
variable {P Q : Caller → Prop}

omit [DecidableEq Entry] in
/- The queue decides, whatever the data are. -/
theorem Waiting.congr
    (hWaiting : p.Waiting e P)
    (hQueue : p'.queue e = p.queue e)
    (hIff : ∀ c, Q c ↔ P c) :
    p'.Waiting e Q := by
  constructor
  · rw [hQueue]
    exact hWaiting.nodup
  · intro c
    rw [hQueue, hWaiting.mem_iff, hIff]

omit [DecidableEq Entry] in
/- There are no more calls than callers. -/
theorem Waiting.count_le
    [Fintype Caller]
    (hWaiting : p.Waiting e P) :
    p.count e ≤ Fintype.card Caller :=
  hWaiting.nodup.length_le_card

omit [DecidableEq Entry] in
/- When there are as many calls, every caller waits. -/
theorem Waiting.all_of_count
    [Fintype Caller]
    [DecidableEq Caller]
    (hWaiting : p.Waiting e P)
    (hCount : p.count e = Fintype.card Caller) :
    ∀ c, P c := by
  have hAll : (p.queue e).toFinset = Finset.univ := by
    apply Finset.eq_univ_of_card
    rw [List.toFinset_card_of_nodup hWaiting.nodup]
    exact hCount
  intro c
  rw [← hWaiting.mem_iff, ← List.mem_toFinset, hAll]
  exact Finset.mem_univ c

/- A caller that did not wait joins the queue. -/
theorem Waiting.enqueue
    (hWaiting : p.Waiting e P)
    (hNot : ¬ P c)
    (hIff : ∀ d, Q d ↔ P d ∨ d = c) :
    (p.enqueue e c).Waiting e Q := by
  have hNew : c ∉ p.queue e :=
    fun hMem => hNot ((hWaiting.mem_iff c).mp hMem)
  have hQueue : (p.enqueue e c).queue e =
      p.queue e ++ [c] := by
    unfold ProtectedObject.enqueue
    simp
  constructor
  · rw [hQueue]
    exact hWaiting.nodup.append (List.nodup_singleton c)
      (by simpa using hNew)
  · intro d
    rw [hQueue, List.mem_append, List.mem_singleton,
      hWaiting.mem_iff, hIff]

/- The caller that is served leaves the queue. -/
theorem Waiting.serve
    {rest : List Caller}
    (hWaiting : p.Waiting e P)
    (hQueue : p.queue e = c :: rest)
    (hIff : ∀ d, Q d ↔ P d ∧ d ≠ c) :
    (p.serve T e).Waiting e Q := by
  have hNodup := hWaiting.nodup
  have hTail : (p.serve T e).queue e = rest := by
    unfold ProtectedObject.serve execute
    simp [hQueue]
  rw [hQueue] at hNodup
  have hNot := (List.nodup_cons.mp hNodup).1
  constructor
  · rw [hTail]
    exact (List.nodup_cons.mp hNodup).2
  · intro d
    rw [hTail, hIff, ← hWaiting.mem_iff, hQueue,
      List.mem_cons]
    constructor
    · intro hMem
      refine ⟨Or.inr hMem, ?_⟩
      rintro rfl
      exact hNot hMem
    · rintro ⟨hSame | hMem, hNe⟩
      · exact absurd hSame hNe
      · exact hMem

/- The caller that gives up leaves the queue. -/
theorem Waiting.cancel
    [DecidableEq Caller]
    (hWaiting : p.Waiting e P)
    (hIff : ∀ d, Q d ↔ P d ∧ d ≠ c) :
    (p.cancel e c).Waiting e Q := by
  have hQueue : (p.cancel e c).queue e =
      (p.queue e).erase c := by
    unfold ProtectedObject.cancel
    simp
  constructor
  · rw [hQueue]
    exact hWaiting.nodup.erase c
  · intro d
    rw [hQueue, hWaiting.nodup.mem_erase_iff,
      hWaiting.mem_iff, hIff]
    exact And.comm

/- The queues of the other entries do not change. -/
theorem queue_enqueue_ne
    (hNe : f ≠ e) :
    (p.enqueue e c).queue f = p.queue f := by
  unfold ProtectedObject.enqueue
  simp [hNe]

theorem queue_serve_ne
    (hNe : f ≠ e) :
    (p.serve T e).queue f = p.queue f := by
  unfold ProtectedObject.serve execute
  simp [hNe]

theorem queue_cancel_ne
    [DecidableEq Caller]
    (hNe : f ≠ e) :
    (p.cancel e c).queue f = p.queue f := by
  unfold ProtectedObject.cancel
  simp [hNe]

end Waiting

end ProtectedObject
