import ElevatorControl.Library.TransitionSystem
import ElevatorControl.Requests.RequestQueue

/-
  One call of `waitForEarliestDeadline`, from any queue.

  The wait releases the lock, and requests are pushed and
  acknowledged before the waiter goes on. It is told whether
  its time is up: if so it leaves the loop without cleaning
  the queue again, and compares the top with the clock value
  it has read before it went to sleep.

  Key definitions include:
    * `WaitCall`
    * `WaitCall.pass`
    * `WaitCall.Step`
    * `WaitCall.RightRequest`

  Key theorems include:
    * `WaitCall.inv_of_step`
    * `WaitCall.returns_right_request`
-/

------------------------------------------------------------
-- Calls
------------------------------------------------------------

namespace ElevatorControl

/- What `wait_until` returns. Wake-ups for a notification or
for no reason are not told apart. -/
inductive CvStatus where
  | noTimeout
  | timeout
  deriving DecidableEq, Repr

/- Where the call is; `now` is the clock value it read before
it released the lock. -/
inductive WaitPlace (τ : Type) where
  | called (d0 : TimePoint)
  | blocked (d0 deadline now : TimePoint)
  | returned
      (result : Except AssertionFailed (Option (Tagged τ)))

/- The request that a call has returned, if any. -/
def WaitPlace.result
    {τ : Type} :
    WaitPlace τ → Option (Tagged τ)
  | .returned (.ok (some t)) => some t
  | _ => none

/- Only a call that has come back with a request has a
result. -/
theorem WaitPlace.result_eq_some
    {τ : Type}
    {place : WaitPlace τ}
    {t : Tagged τ} :
    place.result = some t ↔ place = .returned (.ok (some t)) := by
  constructor
  · intro hResult
    unfold result at hResult
    split at hResult
    · rw [Option.some.inj hResult]
    · cases hResult
  · rintro rfl
    rfl

/- The queue and the clock, with the call. -/
structure WaitCall (τ : Type) where
  queue : RequestQueue τ
  clock : TimePoint
  place : WaitPlace τ

namespace WaitCall

variable {τ : Type}

/- What comes after the loop. -/
def finish
    (now : TimePoint)
    (s : WaitCall τ) : WaitCall τ :=
  { s with
    queue := (s.queue.takeDue now).1
    place := .returned (s.queue.takeDue now).2 }

/- The cleaning loop. -/
def cleaned
    (s : WaitCall τ) : WaitCall τ :=
  { s with queue := s.queue.clean.1 }

/- One pass of the outer loop, up to the wait. -/
def pass
    (d0 : TimePoint)
    (s : WaitCall τ) : WaitCall τ :=
  let deadline := s.cleaned.queue.earliestDeadline d0
  if deadline ≤ s.clock then s.cleaned.finish s.clock
  else
    { s.cleaned with
      place := .blocked d0 deadline s.clock }

/- The end of the wait: the loop goes on unless the time is
up. -/
def wake
    (d0 now : TimePoint)
    (cvs : CvStatus)
    (s : WaitCall τ) : WaitCall τ :=
  match cvs with
  | .noTimeout => { s with place := .called d0 }
  | .timeout => s.finish now

/-
  The steps of the call and of the others. A request is
  pushed before its deadline, and acknowledged with any
  change and any new deadline.
-/
inductive Step :
    WaitCall τ → WaitCall τ → Prop where
  | tick
      (s : WaitCall τ)
      (clock : TimePoint)
      (hClock : s.clock ≤ clock) :
      Step s { s with clock := clock }
  | push
      (s : WaitCall τ)
      (t : Tagged τ)
      (hDeadline : s.clock < t.deadline) :
      Step s { s with queue := s.queue.push t }
  | ack
      (s : WaitCall τ)
      (change : StateChange)
      (newDeadlineDelta : MillisecondTime)
      (now : TimePoint) :
      Step s
        { s with
          queue := s.queue.ackRequest change
            newDeadlineDelta now }
  | pass
      (s : WaitCall τ)
      (d0 : TimePoint)
      (hCalled : s.place = .called d0) :
      Step s (s.pass d0)
  | wake
      (s : WaitCall τ)
      (d0 deadline now : TimePoint)
      (cvs : CvStatus)
      (hBlocked : s.place = .blocked d0 deadline now) :
      Step s (s.wake d0 now cvs)

/- The call has just been made, with any timeout. -/
def initial
    (queue : RequestQueue τ)
    (clock : TimePoint)
    (timeout : MillisecondTime) : WaitCall τ where
  queue := queue
  clock := clock
  place := .called (clock + milliseconds timeout)

/- The call from when it has been made, on any queue. -/
def system (τ : Type) : TransitionSystem (WaitCall τ) where
  Init s := ∃ queue clock timeout,
    s = initial queue clock timeout
  Step := Step

------------------------------------------------------------
-- Returned Requests
------------------------------------------------------------

/- The request is due and neither done nor about to get a new
deadline, and none that is left is due earlier. -/
def RightRequest
    (s : WaitCall τ)
    (t : Tagged τ) : Prop :=
  t.isDone = false ∧
    t.isTweaked = false ∧
    t.deadline ≤ s.clock ∧
    ∀ u ∈ s.queue.list, t.deadline ≤ u.deadline

/-
  While the call sleeps, everything in the queue is due after
  the clock value it has read. What it has returned stays
  right.
-/
def Inv
    (s : WaitCall τ) : Prop :=
  match s.place with
  | .called _ => True
  | .blocked _ _ now =>
      now ≤ s.clock ∧ ∀ t ∈ s.queue.list, now < t.deadline
  | .returned (.error _) => False
  | .returned (.ok none) => True
  | .returned (.ok (some t)) => s.RightRequest t

section Steps

variable {s s' : WaitCall τ}

theorem inv_tick
    {clock : TimePoint}
    (hInv : Inv s)
    (hClock : s.clock ≤ clock) :
    Inv { s with clock := clock } := by
  unfold Inv at hInv ⊢
  dsimp only at hInv ⊢
  split at hInv
  · trivial
  · exact ⟨le_trans hInv.1 hClock, hInv.2⟩
  · exact hInv
  · trivial
  · rcases hInv with ⟨hDone, hTweak, hDue, hLeast⟩
    exact ⟨hDone, hTweak, le_trans hDue hClock, hLeast⟩

/-
  The queue changes in any way that brings in no deadline
  which is not later than the clock.
-/
theorem inv_queue
    {queue : RequestQueue τ}
    (hInv : Inv s)
    (hLater : ∀ t ∈ queue.list,
      s.clock < t.deadline ∨
        ∃ u ∈ s.queue.list, u.deadline = t.deadline) :
    Inv { s with queue := queue } := by
  unfold Inv at hInv ⊢
  dsimp only at hInv ⊢
  split at hInv
  · trivial
  · refine ⟨hInv.1, ?_⟩
    intro t ht
    rcases hLater t ht with hNew | ⟨u, hu, hSame⟩
    · exact lt_of_le_of_lt hInv.1 hNew
    · rw [← hSame]
      exact hInv.2 u hu
  · exact hInv
  · trivial
  · rcases hInv with ⟨hDone, hTweak, hDue, hLeast⟩
    refine ⟨hDone, hTweak, hDue, ?_⟩
    intro v hv
    rcases hLater v hv with hNew | ⟨u, hu, hSame⟩
    · exact le_of_lt (lt_of_le_of_lt hDue hNew)
    · rw [← hSame]
      exact hLeast u hu

theorem inv_push
    {t : Tagged τ}
    (hInv : Inv s)
    (hDeadline : s.clock < t.deadline) :
    Inv { s with queue := s.queue.push t } := by
  apply inv_queue hInv
  intro u hu
  rcases List.mem_cons.mp
      (RequestQueue.push_perm.mem_iff.mp hu) with
    rfl | hOld
  · exact Or.inl hDeadline
  · exact Or.inr ⟨u, hOld, rfl⟩

/- Acknowledgements leave the stored deadlines alone. -/
theorem inv_ack
    {change : StateChange}
    {newDeadlineDelta : MillisecondTime}
    {now : TimePoint}
    (hInv : Inv s) :
    Inv { s with
      queue := s.queue.ackRequest change newDeadlineDelta
        now } := by
  apply inv_queue hInv
  intro t ht
  rw [RequestQueue.list_ackRequest] at ht
  rcases List.mem_map.mp ht with ⟨u, hu, rfl⟩
  exact Or.inr ⟨u, hu, Tagged.deadline_acknowledge.symm⟩

/- The top of a clean queue may be returned. -/
theorem inv_finish
    (hDone : s.queue.topDone = false)
    (hTweaked : s.queue.topTweaked = false) :
    Inv (s.finish s.clock) := by
  unfold finish
  rcases RequestQueue.takeDue_clean hTweaked s.clock with
    hNone | ⟨t, hTop, hDue, hSome⟩
  · rw [hNone]
    trivial
  · rw [hSome]
    refine ⟨?_, ?_, hDue, ?_⟩
    · simpa [RequestQueue.topDone, hTop] using hDone
    · simpa [RequestQueue.topTweaked, hTop] using hTweaked
    · intro u hu
      apply RequestQueue.top_le hTop
      exact (RequestQueue.pop_perm hTop).mem_iff.mpr
        (List.mem_cons_of_mem t hu)

theorem inv_pass
    (s : WaitCall τ)
    (d0 : TimePoint) :
    Inv (s.pass d0) := by
  have hReady := RequestQueue.topReady_clean s.queue
  unfold pass
  by_cases hDue :
      s.cleaned.queue.earliestDeadline d0 ≤ s.clock
  · rw [if_pos hDue]
    exact inv_finish (s := s.cleaned) hReady.1 hReady.2
  · rw [if_neg hDue]
    exact ⟨le_refl _,
      RequestQueue.lt_deadline_of_early hDue⟩

/- When its time is up, the call finds nothing that was due
when it went to sleep. -/
theorem inv_wake
    {d0 deadline now : TimePoint}
    (hInv : Inv s)
    (hBlocked : s.place = .blocked d0 deadline now)
    (cvs : CvStatus) :
    Inv (s.wake d0 now cvs) := by
  unfold Inv at hInv
  rw [hBlocked] at hInv
  cases cvs with
  | noTimeout => trivial
  | timeout =>
      unfold wake finish
      dsimp only
      rw [RequestQueue.takeDue_early hInv.2]
      trivial

theorem inv_of_step
    (hInv : Inv s)
    (hStep : Step s s') :
    Inv s' := by
  cases hStep with
  | tick clock hClock => exact inv_tick hInv hClock
  | push t hDeadline => exact inv_push hInv hDeadline
  | ack change newDeadlineDelta now => exact inv_ack hInv
  | pass d0 hCalled => exact inv_pass s d0
  | wake d0 deadline now cvs hBlocked =>
      exact inv_wake hInv hBlocked cvs

/-
  The assertion of the call never fails, and a request it
  returns is due, not done, without a new deadline, and not
  later than any that is left.
-/
theorem returns_right_request
    (hReach : (system τ).Reachable s) :
    (∀ e, s.place ≠ .returned (.error e)) ∧
      ∀ t, s.place = .returned (.ok (some t)) →
        s.RightRequest t := by
  have hInv : Inv s := by
    apply hReach.invariant
    · rintro _ ⟨queue, clock, timeout, rfl⟩
      trivial
    · exact fun _ _ hInv hStep => inv_of_step hInv hStep
  unfold Inv at hInv
  refine ⟨?_, ?_⟩
  · intro e hFailed
    rw [hFailed] at hInv
    exact hInv
  · intro t hReturned
    rw [hReturned] at hInv
    exact hInv

end Steps

/- A request for the lowest floor, due after 100
milliseconds. -/
def dueRequest : Tagged Unit :=
  ⟨(), Request.create ⟨.callToFloorAndGoUp, 0, 0⟩ 100 0⟩

/-
  The call sleeps, wakes up when the deadline has come, and
  returns the request.
-/
theorem returns_right_request_dueRequest :
    ∃ s, (system Unit).Reachable s ∧
      s.place = .returned (.ok (some dueRequest)) ∧
      s.RightRequest dueRequest := by
  have hClean :
      (RequestQueue.single dueRequest).clean =
        (.single dueRequest, []) :=
    RequestQueue.clean_single rfl
  have hInit : (system Unit).Reachable
      (initial (.single dueRequest) 0 300) :=
    TransitionSystem.Reachable.init ⟨_, _, _, rfl⟩
  have hSlept :
      (initial (.single dueRequest) 0 300).pass
          (milliseconds 300) =
        ⟨.single dueRequest, 0, .blocked (milliseconds 300)
          (milliseconds 100) 0⟩ := by
    unfold pass cleaned initial
    rw [hClean]
    rfl
  have hBlocked : (system Unit).Reachable _ :=
    hInit.step (Step.pass _ (milliseconds 300) rfl)
  rw [hSlept] at hBlocked
  have hTicked : (system Unit).Reachable _ :=
    hBlocked.step (Step.tick _ (milliseconds 100) (by decide))
  have hWoken : (system Unit).Reachable _ :=
    hTicked.step (Step.wake _ _ _ _ .noTimeout rfl)
  have hTaken : (system Unit).Reachable _ :=
    hWoken.step (Step.pass _ (milliseconds 300) rfl)
  have hReturned :
      (WaitCall.pass (milliseconds 300)
        (⟨.single dueRequest, milliseconds 100,
          .called (milliseconds 300)⟩ :
            WaitCall Unit)).place =
        .returned (.ok (some dueRequest)) := by
    unfold pass cleaned
    rw [hClean]
    rfl
  exact ⟨_, hTaken, hReturned,
    (returns_right_request hTaken).2 dueRequest hReturned⟩

end WaitCall

end ElevatorControl
