import Mathlib.Logic.Function.Iterate
import ElevatorControl.Requests.RequestQueue

/-
  The nested loops that clean the queue, step by step.

  The first inner loop drops done requests from the top, the
  second one moves requests with a new deadline away from
  the top, and the outer loop goes on while one of them has
  found something to do. A moved request may bring a done one
  to the top, and a dropped one may bring a request with a
  new deadline to the top.

  The loops compute `RequestQueue.clean`.

  Key definitions include:
    * `CleaningLoop`
    * `CleaningLoop.step`
    * `RequestQueue.Normalised`

  Key theorems include:
    * `CleaningLoop.reaches_finished`
    * `CleaningLoop.normalises`
-/

------------------------------------------------------------
-- Loops
------------------------------------------------------------

namespace ElevatorControl

/- The condition that is evaluated next. -/
inductive CleaningPlace where
  | dropping
  | rescheduling
  | testing
  | finished
  deriving DecidableEq, Repr

/- The queue and the flag of the outer loop, together with
the requests that have been dropped. -/
structure CleaningLoop (τ : Type) where
  queue : RequestQueue τ
  dropped : List (Tagged τ)
  cleaned : Bool
  place : CleaningPlace

namespace CleaningLoop

variable {τ : Type}

/- One evaluation of a condition, with what it guards. -/
def step
    (s : CleaningLoop τ) : CleaningLoop τ :=
  match s.place with
  | .dropping =>
      match s.queue.top? with
      | some t =>
          if t.isDone then
            { s with
              queue := s.queue.pop
              dropped := s.dropped ++ [t]
              cleaned := false }
          else { s with place := .rescheduling }
      | none => { s with place := .rescheduling }
  | .rescheduling =>
      match s.queue.top? with
      | some t =>
          if t.isTweaked then
            { s with
              queue := s.queue.pop.push t.settle
              cleaned := false }
          else { s with place := .testing }
      | none => { s with place := .testing }
  | .testing =>
      if s.cleaned then { s with place := .finished }
      else { s with cleaned := true, place := .dropping }
  | .finished => s

/- The loops before the first step. -/
def start
    (q : RequestQueue τ) : CleaningLoop τ where
  queue := q
  dropped := []
  cleaned := true
  place := .dropping

/- Some number of steps leads from one state to the other. -/
def Reaches
    (s s' : CleaningLoop τ) : Prop :=
  ∃ n, step^[n] s = s'

section Reaches

variable {s s' s'' : CleaningLoop τ}

theorem Reaches.refl :
    Reaches s s :=
  ⟨0, rfl⟩

theorem Reaches.trans
    (hFirst : Reaches s s')
    (hSecond : Reaches s' s'') :
    Reaches s s'' := by
  rcases hFirst with ⟨m, rfl⟩
  rcases hSecond with ⟨n, rfl⟩
  exact ⟨n + m, Function.iterate_add_apply step n m s⟩

/- One step, and then some more. -/
theorem Reaches.head
    (hRest : Reaches s.step s') :
    Reaches s s' :=
  Reaches.trans ⟨1, rfl⟩ hRest

end Reaches

------------------------------------------------------------
-- Inner Loops
------------------------------------------------------------

section Loops

variable {q : RequestQueue τ}
variable {dropped : List (Tagged τ)}
variable {cleaned : Bool}

/- The first inner loop drops the done requests at the
top. -/
theorem reaches_dropDone :
    Reaches ⟨q, dropped, cleaned, .dropping⟩
      ⟨q.dropDone.1, dropped ++ q.dropDone.2,
        cleaned && q.dropDone.2.isEmpty, .rescheduling⟩ := by
  fun_induction RequestQueue.dropDone q
    generalizing dropped cleaned with
  | case1 q hTop =>
      apply Reaches.head
      simp only [step, hTop, List.append_nil, List.isEmpty_nil,
        Bool.and_true]
      exact Reaches.refl
  | case2 q t hTop hDone q' rest hRest ih =>
      apply Reaches.head
      simp only [step, hTop, hDone, if_true]
      have hNext := @ih (dropped ++ [t]) false
      rw [hRest] at hNext
      simpa using hNext
  | case3 q t hTop hDone =>
      apply Reaches.head
      simp only [step, hTop, hDone, Bool.false_eq_true,
        if_false, List.append_nil, List.isEmpty_nil,
        Bool.and_true]
      exact Reaches.refl

/- The second one moves the requests with a new deadline. -/
theorem reaches_reschedule :
    Reaches ⟨q, dropped, cleaned, .rescheduling⟩
      ⟨q.reschedule, dropped, cleaned && !q.topTweaked,
        .testing⟩ := by
  fun_induction RequestQueue.reschedule q
    generalizing cleaned with
  | case1 q hTop =>
      apply Reaches.head
      simp only [step, hTop, RequestQueue.topTweaked,
        Option.any_none, Bool.not_false, Bool.and_true]
      exact Reaches.refl
  | case2 q t hTop hTweak ih =>
      apply Reaches.head
      simp only [step, hTop, hTweak, if_true,
        RequestQueue.topTweaked, Option.any_some,
        Bool.not_true, Bool.and_false]
      have hNext := @ih false
      rw [Bool.false_and] at hNext
      exact hNext
  | case3 q t hTop hTweak =>
      apply Reaches.head
      simp only [step, hTop, hTweak, Bool.false_eq_true,
        if_false, RequestQueue.topTweaked, Option.any_some,
        Bool.not_false, Bool.and_true]
      exact Reaches.refl

/- One pass through both, up to the test of the outer
loop. -/
theorem reaches_pass :
    Reaches ⟨q, dropped, true, .dropping⟩
      ⟨q.dropDone.1.reschedule, dropped ++ q.dropDone.2,
        q.dropDone.2.isEmpty && !q.dropDone.1.topTweaked,
        .testing⟩ := by
  have hDrops := @reaches_dropDone τ q dropped true
  rw [Bool.true_and] at hDrops
  exact hDrops.trans reaches_reschedule

------------------------------------------------------------
-- Outer Loop
------------------------------------------------------------

/-
  The loops come to an end from every queue, and leave what
  `clean` computes.
-/
theorem reaches_finished :
    Reaches ⟨q, dropped, true, .dropping⟩
      ⟨q.clean.1, dropped ++ q.clean.2, true,
        .finished⟩ := by
  fun_induction RequestQueue.clean q generalizing dropped with
  | case1 q hDone =>
      apply reaches_pass.trans
      apply Reaches.head
      rw [hDone.1, hDone.2, List.isEmpty_iff.mp hDone.1]
      exact Reaches.refl
  | case2 q hWork q' rest hRest ih =>
      have hFound :
          (q.dropDone.2.isEmpty &&
            !q.dropDone.1.topTweaked) = false := by
        simpa using hWork
      apply reaches_pass.trans
      apply Reaches.head
      rw [hFound]
      have hNext := @ih (dropped ++ q.dropDone.2)
      rw [hRest, List.append_assoc] at hNext
      exact hNext

end Loops

end CleaningLoop

------------------------------------------------------------
-- Clean Queues
------------------------------------------------------------

namespace RequestQueue

variable {τ : Type}

/- The request is unchanged, or has exactly its new deadline
and no other one to come. -/
def KeptAs
    (t t' : Tagged τ) : Prop :=
  t' = t ∨
    ∃ d, t.request.tweakedDeadline = some d ∧
      t' = { t with
        request :=
          { t.request with
            deadline := d
            tweakedDeadline := none } }

/-
  What the loops make of a queue: its top is ready and due
  first, only done requests have been dropped, and all others
  are kept.
-/
structure Normalised
    (q q' : RequestQueue τ)
    (dropped : List (Tagged τ)) : Prop where
  top : q'.list = [] ∨
    ∃ t, q'.top? = some t ∧
      t.isDone = false ∧ t.isTweaked = false ∧
      ∀ u ∈ q'.list, t.deadline ≤ u.deadline
  contents : ∃ lost kept,
    q.list.Perm (lost ++ kept) ∧
      (∀ t ∈ lost, t.isDone = true) ∧
      List.Forall₂ KeptAs lost dropped ∧
      List.Forall₂ KeptAs kept q'.list

theorem Settled.keptAs
    {t t' : Tagged τ}
    (hSettled : Settled t t') :
    KeptAs t t' := by
  rcases hSettled with rfl | rfl
  · exact Or.inl rfl
  · unfold Tagged.settle
    cases hTweak : t.request.tweakedDeadline with
    | none => exact Or.inl rfl
    | some d => exact Or.inr ⟨d, hTweak, rfl⟩

/- A request that is dropped was done before it was given its
new deadline, too. -/
theorem isDone_of_settled
    {l l' : List (Tagged τ)}
    (hForall : List.Forall₂ Settled l l')
    (hDone : ∀ t ∈ l', t.isDone = true) :
    ∀ t ∈ l, t.isDone = true := by
  induction hForall with
  | nil => simp
  | cons hHead _ ih =>
      rw [List.forall_mem_cons] at hDone ⊢
      refine ⟨?_, ih hDone.2⟩
      rcases hHead with rfl | rfl
      · exact hDone.1
      · rw [← Tagged.isDone_settle]
        exact hDone.1

theorem clean_contents
    (q : RequestQueue τ) :
    ∃ lost kept,
      q.list.Perm (lost ++ kept) ∧
        List.Forall₂ Settled lost q.clean.2 ∧
        List.Forall₂ Settled kept q.clean.1.list := by
  rcases clean_settles q with ⟨m, hPerm, hForall⟩
  refine ⟨m.take q.clean.2.length, m.drop q.clean.2.length,
    ?_, ?_, ?_⟩
  · rw [List.take_append_drop]
    exact hPerm
  · exact List.forall₂_take_append m _ _ hForall
  · exact List.forall₂_drop_append m _ _ hForall

theorem normalised_clean
    (q : RequestQueue τ) :
    Normalised q q.clean.1 q.clean.2 where
  top := by
    rcases topReady_clean q with ⟨hDone, hTweaked⟩
    cases hTop : q.clean.1.top? with
    | none => exact Or.inl (list_eq_nil hTop)
    | some t =>
        right
        refine ⟨t, rfl, ?_, ?_, top_le hTop⟩
        · simpa [topDone, hTop] using hDone
        · simpa [topTweaked, hTop] using hTweaked
  contents := by
    rcases clean_contents q with
      ⟨lost, kept, hPerm, hLost, hKept⟩
    exact ⟨lost, kept, hPerm,
      isDone_of_settled hLost (isDone_of_clean q),
      hLost.imp fun _ _ => Settled.keptAs,
      hKept.imp fun _ _ => Settled.keptAs⟩

end RequestQueue

namespace CleaningLoop

/-
  From every queue the loops finish after some number of
  steps, and then the queue is normalised.
-/
theorem normalises
    {τ : Type}
    (q : RequestQueue τ) :
    ∃ n,
      (step^[n] (start q)).place = .finished ∧
        RequestQueue.Normalised q
          (step^[n] (start q)).queue
          (step^[n] (start q)).dropped := by
  have hReaches := @reaches_finished τ q []
  rcases hReaches with ⟨n, hRun⟩
  refine ⟨n, ?_⟩
  have hStart : step^[n] (start q) =
      ⟨q.clean.1, q.clean.2, true, .finished⟩ :=
    hRun
  rw [hStart]
  exact ⟨rfl, RequestQueue.normalised_clean q⟩

end CleaningLoop

end ElevatorControl
