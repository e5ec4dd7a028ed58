import ElevatorControl.Requests.Waiting

/-
  The waiter of the request queue and its notifications.

  A push notifies the waiter when the request is due before
  the top of the queue. Acknowledgements never do: they leave
  the stored deadlines alone, and the new deadline of a
  request is put in place when the request is at the top. The
  waiter therefore oversleeps only when a request gets a new
  deadline that is earlier than its stored one.

  The new deadline is computed before the lock is taken, and
  meanwhile a request may be pushed whose deadline has been
  computed later.

  Key definitions include:
    * `Tagged.effectiveDeadline`
    * `Request.Outside`
    * `Sleeper`
    * `Sleeper.Step`
    * `Sleeper.WakesInTime`

  Key theorems include:
    * `Sleeper.inv_of_step`
    * `Sleeper.never_oversleeps`
    * `Sleeper.never_oversleeps_under_lock`
    * `Sleeper.oversleeps_of_ack`
-/

------------------------------------------------------------
-- Requests
------------------------------------------------------------

namespace ElevatorControl

namespace Tagged

variable {τ : Type}

/- The new deadline if there is one, else the stored one. -/
def effectiveDeadline
    (t : Tagged τ) : TimePoint :=
  t.request.tweakedDeadline.getD t.deadline

/- A request that is acknowledged gets the new deadline and
its period, if there are any, and no other one. -/
theorem acknowledge_deadlines
    (change : StateChange)
    (delta : MillisecondTime)
    (newDeadline : Option TimePoint)
    (t : Tagged τ) :
    ((t.acknowledge change delta
          newDeadline).request.tweakedDeadline =
        t.request.tweakedDeadline ∧
      (t.acknowledge change delta
          newDeadline).request.deadlineDelta =
        t.request.deadlineDelta) ∨
    (t.AckedBy change ∧ ∃ d, newDeadline = some d ∧
      (t.acknowledge change delta
          newDeadline).request.tweakedDeadline = some d ∧
      (t.acknowledge change delta
          newDeadline).request.deadlineDelta = delta) := by
  unfold acknowledge
  split
  · next hAcked =>
      cases newDeadline with
      | none => exact Or.inl ⟨rfl, rfl⟩
      | some d => exact Or.inr ⟨hAcked, d, rfl, rfl, rfl⟩
  · exact Or.inl ⟨rfl, rfl⟩

end Tagged

namespace Request

/-
  The requests that the code outside the queue can have at
  some time: their deadlines are private. They are made by
  the constructor or have been returned by the queue, and
  their public fields and their stored deadline may have been
  changed.
-/
inductive Outside
    (clock : TimePoint)
    (returned : List Request) : Request → Prop where
  | create
      (comm : Command)
      (deadline : MillisecondTime)
      (now : TimePoint)
      (hNow : now ≤ clock) :
      Outside clock returned (create comm deadline now)
  | returned
      (r : Request)
      (hReturned : r ∈ returned) :
      Outside clock returned r
  | assign
      (r : Request)
      (type : RequestType)
      (repeated : Int)
      (command : Command)
      (hOutside : Outside clock returned r) :
      Outside clock returned
        { r with
          type := type
          repeated := repeated
          command := command }
  | updateDeadline
      (r : Request)
      (now : TimePoint)
      (hNow : now ≤ clock)
      (hOutside : Outside clock returned r) :
      Outside clock returned (r.updateDeadline now)
  | updateDeadlineBy
      (r : Request)
      (deadline : MillisecondTime)
      (now : TimePoint)
      (hNow : now ≤ clock)
      (hOutside : Outside clock returned r) :
      Outside clock returned
        ({ r with deadlineDelta := deadline }.updateDeadline
          now)

/- The deadlines of the request lie at most one period ahead
of the clock. -/
structure Stamped
    (clock : TimePoint)
    (r : Request) : Prop where
  stored : r.deadline ≤ clock + milliseconds r.deadlineDelta
  tweaked : ∀ d, r.tweakedDeadline = some d →
    d ≤ clock + milliseconds r.deadlineDelta

section Outside

variable {clock clock' : TimePoint}
variable {returned : List Request}
variable {r : Request}

/- Outside the queue no request has a new deadline. -/
theorem Outside.not_tweaked
    (hReturned : ∀ r ∈ returned, r.tweakedDeadline = none)
    (hOutside : Outside clock returned r) :
    r.tweakedDeadline = none := by
  induction hOutside with
  | create comm deadline now hNow => rfl
  | returned r hMem => exact hReturned r hMem
  | assign r type repeated command hOutside ih => exact ih
  | updateDeadline r now hNow hOutside ih => exact ih
  | updateDeadlineBy r deadline now hNow hOutside ih =>
      exact ih

theorem Stamped.mono
    (hClock : clock ≤ clock')
    (hStamped : Stamped clock r) :
    Stamped clock' r where
  stored :=
    le_trans hStamped.stored (Int.add_le_add_right hClock _)
  tweaked d hTweak :=
    le_trans (hStamped.tweaked d hTweak)
      (Int.add_le_add_right hClock _)

/- A deadline that is computed now is stamped. -/
theorem stamped_of_now
    {now : TimePoint}
    (hNow : now ≤ clock)
    (hStored :
      r.deadline = now + milliseconds r.deadlineDelta)
    (hTweak : r.tweakedDeadline = none) :
    Stamped clock r where
  stored := by
    rw [hStored]
    exact Int.add_le_add_right hNow _
  tweaked d hSome := by
    rw [hTweak] at hSome
    cases hSome

theorem Outside.stamped
    (hReturned : ∀ r ∈ returned,
      r.tweakedDeadline = none ∧ Stamped clock r)
    (hOutside : Outside clock returned r) :
    Stamped clock r := by
  have hTweaks : ∀ r ∈ returned, r.tweakedDeadline = none :=
    fun r hMem => (hReturned r hMem).1
  induction hOutside with
  | create comm deadline now hNow =>
      exact stamped_of_now hNow rfl rfl
  | returned r hMem => exact (hReturned r hMem).2
  | assign r type repeated command hOutside ih =>
      exact ⟨ih.stored, ih.tweaked⟩
  | updateDeadline r now hNow hOutside ih =>
      have hTweak : r.tweakedDeadline = none :=
        hOutside.not_tweaked hTweaks
      exact stamped_of_now hNow rfl hTweak
  | updateDeadlineBy r deadline now hNow hOutside ih =>
      have hTweak : r.tweakedDeadline = none :=
        hOutside.not_tweaked hTweaks
      exact stamped_of_now hNow rfl hTweak

end Outside

end Request

------------------------------------------------------------
-- Sleepers
------------------------------------------------------------

/-
  The waiting thread and its current call. `notified` tells
  whether a notification has been issued since the call went
  to sleep.
-/
structure Sleeper (τ : Type) where
  call : WaitCall τ
  notified : Bool
  returned : List Request

namespace Sleeper

variable {τ : Type}

/- The call goes on, and perhaps goes to sleep. -/
def proceed
    (call : WaitCall τ)
    (s : Sleeper τ) : Sleeper τ where
  call := call
  notified := false
  returned := s.returned ++
    (call.place.result.map Tagged.request).toList

/- A push under the lock. -/
def push
    (t : Tagged τ)
    (s : Sleeper τ) : Sleeper τ :=
  { s with
    call.queue := s.call.queue.push t
    notified := s.notified || s.call.queue.pushSignals t }

/- An acknowledgement under the lock. -/
def ackRequest
    (change : StateChange)
    (newDeadlineDelta : MillisecondTime)
    (now : TimePoint)
    (s : Sleeper τ) : Sleeper τ :=
  { s with
    call.queue := s.call.queue.ackRequest change
      newDeadlineDelta now }

/-
  The steps of the waiter and of the other threads, whose
  acknowledgements all meet a condition. They come without a
  new deadline, or with a period no smaller than that of the
  requests they match. `now` is the clock value the
  acknowledgement has read before it took the lock.
-/
inductive Step
    (C : StateChange → MillisecondTime → TimePoint →
      WaitCall τ → Prop) :
    Sleeper τ → Sleeper τ → Prop where
  | tick
      (s : Sleeper τ)
      (clock : TimePoint)
      (hClock : s.call.clock ≤ clock) :
      Step C s { s with call.clock := clock }
  | push
      (s : Sleeper τ)
      (t : Tagged τ)
      (hOutside :
        t.request.Outside s.call.clock s.returned) :
      Step C s (s.push t)
  | ack
      (s : Sleeper τ)
      (change : StateChange)
      (newDeadlineDelta : MillisecondTime)
      (now : TimePoint)
      (hNow : now ≤ s.call.clock)
      (hDelta : newDeadlineDelta = 0 ∨
        ∀ t ∈ s.call.queue.list, t.AckedBy change →
          t.request.deadlineDelta ≤ newDeadlineDelta)
      (hCondition : C change newDeadlineDelta now s.call) :
      Step C s (s.ackRequest change newDeadlineDelta now)
  | call
      (s : Sleeper τ)
      (result : Except AssertionFailed (Option (Tagged τ)))
      (timeout : MillisecondTime)
      (now : TimePoint)
      (hReturned : s.call.place = .returned result)
      (hNow : now ≤ s.call.clock) :
      Step C s
        { s with
          call.place :=
            .called (now + milliseconds timeout) }
  | pass
      (s : Sleeper τ)
      (d0 : TimePoint)
      (hCalled : s.call.place = .called d0) :
      Step C s (s.proceed (s.call.pass d0))
  | wake
      (s : Sleeper τ)
      (d0 deadline now : TimePoint)
      (cvs : CvStatus)
      (hBlocked : s.call.place = .blocked d0 deadline now) :
      Step C s (s.proceed (s.call.wake d0 now cvs))

/- The queue is empty and nobody waits. -/
def initial
    (clock : TimePoint) : Sleeper τ where
  call := ⟨.empty, clock, .returned (.ok none)⟩
  notified := false
  returned := []

/- The waiter and the threads that push and acknowledge. -/
def system
    (τ : Type)
    (C : StateChange → MillisecondTime → TimePoint →
      WaitCall τ → Prop) :
    TransitionSystem (Sleeper τ) where
  Init s := ∃ clock, s = initial clock
  Step := Step C

/- Any acknowledgement. -/
def Anytime
    (_change : StateChange)
    (_newDeadlineDelta : MillisecondTime)
    (_now : TimePoint)
    (_s : WaitCall τ) : Prop :=
  True

/- No request gets a new deadline that is earlier than its
stored one. -/
def NotEarlier
    (change : StateChange)
    (newDeadlineDelta : MillisecondTime)
    (now : TimePoint)
    (s : WaitCall τ) : Prop :=
  newDeadlineDelta ≠ 0 →
    ∀ t ∈ s.queue.list, t.AckedBy change →
      t.deadline ≤ now + milliseconds newDeadlineDelta

/- The clock is read while the lock is held. -/
def UnderLock
    (_change : StateChange)
    (_newDeadlineDelta : MillisecondTime)
    (now : TimePoint)
    (s : WaitCall τ) : Prop :=
  now = s.clock

/-
  A waiter that is blocked does not wait beyond its timeout,
  nor, unless it has been notified, beyond the effective
  deadline of any request.
-/
def WakesInTime
    (s : Sleeper τ) : Prop :=
  ∀ d0 deadline now,
    s.call.place = .blocked d0 deadline now →
      deadline ≤ d0 ∧
        ∀ t ∈ s.call.queue.list,
          t.effectiveDeadline < deadline →
            s.notified = true

------------------------------------------------------------
-- Progress of a Call
------------------------------------------------------------

/-
  What the waiter does while it holds the lock: it settles
  requests and perhaps hands one out, and when it goes to
  sleep, no request is due before it wakes up.
-/
structure Progress
    (c c' : WaitCall τ) : Prop where
  clock : c'.clock = c.clock
  kept : ∀ t ∈ c'.queue.list,
    ∃ u ∈ c.queue.list, RequestQueue.Settled u t
  handed : ∀ t, c'.place = .returned (.ok (some t)) →
    t.isTweaked = false ∧
      ∃ u ∈ c.queue.list, RequestQueue.Settled u t
  asleep : ∀ d0 deadline now,
    c'.place = .blocked d0 deadline now →
      deadline ≤ d0 ∧
        ∀ t ∈ c'.queue.list, deadline ≤ t.deadline

section Progress

variable {c c' : WaitCall τ}

/- The top is taken from a queue that holds settled
requests. -/
theorem progress_finish
    {queue : RequestQueue τ}
    (hKept : ∀ t ∈ queue.list,
      ∃ u ∈ c.queue.list, RequestQueue.Settled u t)
    (now : TimePoint) :
    Progress c ({ c with queue := queue }.finish now) where
  clock := rfl
  kept t ht := hKept t ((queue.takeDue_mem now).1 t ht)
  handed t hPlace := by
    have hTaken : (queue.takeDue now).2 = .ok (some t) :=
      WaitPlace.returned.inj hPlace
    exact ⟨RequestQueue.isTweaked_of_taken hTaken,
      hKept t ((queue.takeDue_mem now).2 t hTaken)⟩
  asleep d0 deadline now' hPlace := by cases hPlace

/- Cleaning settles what it keeps. -/
theorem settled_of_clean
    (q : RequestQueue τ) :
    ∀ t ∈ q.clean.1.list,
      ∃ u ∈ q.list, RequestQueue.Settled u t := by
  intro t ht
  apply (RequestQueue.clean_settles q).origin
  exact List.mem_append_right _ ht

theorem progress_pass
    (c : WaitCall τ)
    (d0 : TimePoint) :
    Progress c (c.pass d0) := by
  unfold WaitCall.pass
  by_cases hDue :
      c.cleaned.queue.earliestDeadline d0 ≤ c.clock
  · rw [if_pos hDue]
    exact progress_finish (settled_of_clean c.queue) c.clock
  · rw [if_neg hDue]
    exact
      { clock := rfl
        kept := settled_of_clean c.queue
        handed := fun t hPlace => by cases hPlace
        asleep := fun d0' deadline now hPlace => by
          cases hPlace
          exact ⟨RequestQueue.earliestDeadline_le_extra,
            RequestQueue.earliestDeadline_le⟩ }

theorem progress_wake
    (c : WaitCall τ)
    (d0 now : TimePoint)
    (cvs : CvStatus) :
    Progress c (c.wake d0 now cvs) := by
  have hSame : ∀ t ∈ c.queue.list,
      ∃ u ∈ c.queue.list, RequestQueue.Settled u t :=
    fun t ht => ⟨t, ht, Or.inl rfl⟩
  cases cvs with
  | noTimeout =>
      exact
        { clock := rfl
          kept := hSame
          handed := fun t hPlace => by cases hPlace
          asleep := fun d0' deadline now hPlace => by
            cases hPlace }
  | timeout => exact progress_finish hSame now

end Progress

------------------------------------------------------------
-- Invariant
------------------------------------------------------------

/-
  New deadlines are not earlier than the stored ones, and a
  waiter that has not been notified waits for no longer than
  any stored deadline.
-/
structure Inv
    (s : Sleeper τ) : Prop where
  stamped : ∀ t ∈ s.call.queue.list,
    t.request.Stamped s.call.clock
  outside : ∀ r ∈ s.returned,
    r.tweakedDeadline = none ∧ r.Stamped s.call.clock
  later : ∀ t ∈ s.call.queue.list,
    t.deadline ≤ t.effectiveDeadline
  asleep : ∀ d0 deadline now,
    s.call.place = .blocked d0 deadline now →
      deadline ≤ d0 ∧
        (s.notified = false →
          ∀ t ∈ s.call.queue.list, deadline ≤ t.deadline)

section Steps

variable {s s' : Sleeper τ}

theorem inv_initial
    (clock : TimePoint) :
    Inv (initial clock : Sleeper τ) where
  stamped t ht := by cases ht
  outside r hr := by cases hr
  later t ht := by cases ht
  asleep d0 deadline now hPlace := by cases hPlace

/- Without a new deadline the stored one counts. -/
theorem effectiveDeadline_eq
    {t : Tagged τ}
    (hTweak : t.request.tweakedDeadline = none) :
    t.effectiveDeadline = t.deadline := by
  unfold Tagged.effectiveDeadline
  rw [hTweak]
  rfl

theorem not_tweaked_iff
    {t : Tagged τ} :
    t.isTweaked = false ↔
      t.request.tweakedDeadline = none := by
  unfold Tagged.isTweaked
  exact Option.isSome_eq_false_iff.trans
    Option.isNone_iff_eq_none

theorem inv_tick
    {clock : TimePoint}
    (hInv : Inv s)
    (hClock : s.call.clock ≤ clock) :
    Inv { s with call.clock := clock } where
  stamped t ht := (hInv.stamped t ht).mono hClock
  outside r hr :=
    ⟨(hInv.outside r hr).1, (hInv.outside r hr).2.mono hClock⟩
  later := hInv.later
  asleep := hInv.asleep

/- A push that does not notify brings in no deadline the
waiter would miss. -/
theorem inv_push
    {t : Tagged τ}
    (hInv : Inv s)
    (hOutside :
      t.request.Outside s.call.clock s.returned) :
    Inv (s.push t) where
  stamped u hu := by
    rcases List.mem_cons.mp
        (RequestQueue.push_perm.mem_iff.mp hu) with
      rfl | hOld
    · exact hOutside.stamped hInv.outside
    · exact hInv.stamped u hOld
  outside := hInv.outside
  later u hu := by
    rcases List.mem_cons.mp
        (RequestQueue.push_perm.mem_iff.mp hu) with
      rfl | hOld
    · have hTweak : u.request.tweakedDeadline = none :=
        hOutside.not_tweaked
          fun r hr => (hInv.outside r hr).1
      exact le_of_eq (effectiveDeadline_eq hTweak).symm
    · exact hInv.later u hOld
  asleep d0 deadline now hPlace := by
    rcases hInv.asleep d0 deadline now hPlace with
      ⟨hTimeout, hLate⟩
    refine ⟨hTimeout, ?_⟩
    intro hQuiet u hu
    rcases Bool.or_eq_false_iff.mp hQuiet with
      ⟨hBefore, hPush⟩
    rcases List.mem_cons.mp
        (RequestQueue.push_perm.mem_iff.mp hu) with
      rfl | hOld
    · rcases RequestQueue.exists_le_of_not_signals hPush with
        ⟨v, hv, hLe⟩
      exact le_trans (hLate hBefore v hv) hLe
    · exact hLate hBefore u hOld

/- What an acknowledgement makes of the requests. -/
theorem acked_of_mem
    {q : RequestQueue τ}
    {change : StateChange}
    {delta : MillisecondTime}
    {now : TimePoint}
    {u : Tagged τ}
    (hu : u ∈ (q.ackRequest change delta now).list) :
    ∃ t ∈ q.list, u.deadline = t.deadline ∧
      ((u.request.tweakedDeadline =
            t.request.tweakedDeadline ∧
          u.request.deadlineDelta =
            t.request.deadlineDelta) ∨
        (t.AckedBy change ∧ delta ≠ 0 ∧
          u.request.tweakedDeadline =
            some (now + milliseconds delta) ∧
          u.request.deadlineDelta = delta)) := by
  rw [RequestQueue.list_ackRequest] at hu
  rcases List.mem_map.mp hu with ⟨t, ht, rfl⟩
  refine ⟨t, ht, Tagged.deadline_acknowledge, ?_⟩
  rcases Tagged.acknowledge_deadlines change delta
      (if delta = 0 then none
        else some (now + milliseconds delta)) t with
    hSame | ⟨hAcked, d, hSome, hTweak, hPeriod⟩
  · exact Or.inl hSame
  · right
    split at hSome
    · cases hSome
    · next hDelta =>
        rw [hTweak]
        exact ⟨hAcked, hDelta, hSome.symm, hPeriod⟩

/- An acknowledgement that makes no deadline earlier cannot
make the waiter miss one. -/
theorem inv_ack
    {change : StateChange}
    {delta : MillisecondTime}
    {now : TimePoint}
    (hInv : Inv s)
    (hNow : now ≤ s.call.clock)
    (hDelta : delta = 0 ∨
      ∀ t ∈ s.call.queue.list, t.AckedBy change →
        t.request.deadlineDelta ≤ delta)
    (hNotEarlier : NotEarlier change delta now s.call) :
    Inv (s.ackRequest change delta now) where
  stamped u hu := by
    rcases acked_of_mem hu with
      ⟨t, ht, hStored, ⟨hTweak, hPeriod⟩ |
        ⟨hAcked, hSome, hTweak, hPeriod⟩⟩
    · have hStamped := hInv.stamped t ht
      constructor
      · rw [hPeriod]
        exact le_trans (le_of_eq hStored) hStamped.stored
      · rw [hTweak, hPeriod]
        exact hStamped.tweaked
    · have hGrows : t.request.deadlineDelta ≤ delta :=
        hDelta.resolve_left hSome t ht hAcked
      constructor
      · rw [hPeriod]
        calc
          u.request.deadline = t.request.deadline := hStored
          _ ≤ s.call.clock +
              milliseconds t.request.deadlineDelta :=
            (hInv.stamped t ht).stored
          _ ≤ s.call.clock + milliseconds delta :=
            Int.add_le_add_left (milliseconds_le hGrows) _
      · rw [hTweak, hPeriod]
        rintro d hd
        rw [← Option.some.inj hd]
        exact Int.add_le_add_right hNow _
  outside := hInv.outside
  later u hu := by
    rcases acked_of_mem hu with
      ⟨t, ht, hStored, ⟨hTweak, _⟩ |
        ⟨hAcked, hSome, hTweak, _⟩⟩
    · unfold Tagged.effectiveDeadline
      rw [hTweak, hStored]
      exact hInv.later t ht
    · unfold Tagged.effectiveDeadline
      rw [hTweak, hStored]
      exact hNotEarlier hSome t ht hAcked
  asleep d0 deadline now' hPlace := by
    rcases hInv.asleep d0 deadline now' hPlace with
      ⟨hTimeout, hLate⟩
    refine ⟨hTimeout, ?_⟩
    intro hQuiet u hu
    rcases acked_of_mem hu with ⟨t, ht, hStored, _⟩
    rw [hStored]
    exact hLate hQuiet t ht

/- A call that has been made is not asleep. -/
theorem inv_call
    {d0 : TimePoint}
    (hInv : Inv s) :
    Inv { s with call.place := .called d0 } where
  stamped := hInv.stamped
  outside := hInv.outside
  later := hInv.later
  asleep _ _ _ hPlace := by cases hPlace

/- What is settled has its effective deadline in place. -/
theorem settled_later
    {t u : Tagged τ}
    (hSettled : RequestQueue.Settled u t)
    (hLater : u.deadline ≤ u.effectiveDeadline) :
    t.deadline ≤ t.effectiveDeadline := by
  rcases hSettled with rfl | rfl
  · exact hLater
  · exact le_of_eq (effectiveDeadline_eq
      (not_tweaked_iff.mp Tagged.isTweaked_settle)).symm

theorem settled_stamped
    {clock : TimePoint}
    {t u : Tagged τ}
    (hSettled : RequestQueue.Settled u t)
    (hStamped : u.request.Stamped clock) :
    t.request.Stamped clock := by
  rcases hSettled with rfl | rfl
  · exact hStamped
  · unfold Tagged.settle
    split
    · exact hStamped
    · next d hTweak =>
        exact ⟨hStamped.tweaked d hTweak,
          fun _ hSome => by cases hSome⟩

theorem inv_proceed
    {c : WaitCall τ}
    (hInv : Inv s)
    (hProgress : Progress s.call c) :
    Inv (s.proceed c) where
  stamped t ht := by
    rcases hProgress.kept t ht with ⟨u, hu, hSettled⟩
    change t.request.Stamped c.clock
    rw [hProgress.clock]
    exact settled_stamped hSettled (hInv.stamped u hu)
  outside r hr := by
    change r.tweakedDeadline = none ∧ r.Stamped c.clock
    rw [hProgress.clock]
    rcases List.mem_append.mp hr with hOld | hNew
    · exact hInv.outside r hOld
    · rw [Option.mem_toList, Option.map_eq_some_iff] at hNew
      rcases hNew with ⟨t, hResult, rfl⟩
      rcases hProgress.handed t
          (WaitPlace.result_eq_some.mp hResult) with
        ⟨hTweak, u, hu, hSettled⟩
      exact ⟨not_tweaked_iff.mp hTweak,
        settled_stamped hSettled (hInv.stamped u hu)⟩
  later t ht := by
    rcases hProgress.kept t ht with ⟨u, hu, hSettled⟩
    exact settled_later hSettled (hInv.later u hu)
  asleep d0 deadline now hPlace := by
    rcases hProgress.asleep d0 deadline now hPlace with
      ⟨hTimeout, hLate⟩
    exact ⟨hTimeout, fun _ => hLate⟩

theorem inv_of_step
    (hInv : Inv s)
    (hStep : Step NotEarlier s s') :
    Inv s' := by
  cases hStep with
  | tick clock hClock => exact inv_tick hInv hClock
  | push t hOutside => exact inv_push hInv hOutside
  | ack change delta now hNow hDelta hNotEarlier =>
      exact inv_ack hInv hNow hDelta hNotEarlier
  | call result timeout now hReturned hNow =>
      exact inv_call hInv
  | pass d0 hCalled =>
      exact inv_proceed hInv (progress_pass s.call d0)
  | wake d0 deadline now cvs hBlocked =>
      exact inv_proceed hInv
        (progress_wake s.call d0 now cvs)

/- The waiter wakes in time while the invariant holds. -/
theorem Inv.wakesInTime
    (hInv : Inv s) :
    s.WakesInTime := by
  intro d0 deadline now hPlace
  rcases hInv.asleep d0 deadline now hPlace with
    ⟨hTimeout, hLate⟩
  refine ⟨hTimeout, ?_⟩
  intro t ht hEarly
  by_contra hQuiet
  have hStored : deadline ≤ t.deadline :=
    hLate (Bool.eq_false_iff.mpr hQuiet) t ht
  have hOrder : t.deadline ≤ t.effectiveDeadline :=
    hInv.later t ht
  exact absurd hEarly (not_lt.mpr (le_trans hStored hOrder))

/-
  In every run whose acknowledgements make no deadline
  earlier, the waiter never oversleeps.
-/
theorem never_oversleeps
    (hReach : (system τ NotEarlier).Reachable s) :
    s.WakesInTime := by
  apply Inv.wakesInTime
  apply hReach.invariant
  · rintro _ ⟨clock, rfl⟩
    exact inv_initial clock
  · exact fun _ _ hInv hStep => inv_of_step hInv hStep

/- Read under the lock, the clock is not before any moment
at which a deadline in the queue has been computed. -/
theorem notEarlier_of_underLock
    {change : StateChange}
    {delta : MillisecondTime}
    {now : TimePoint}
    (hInv : Inv s)
    (hDelta : delta = 0 ∨
      ∀ t ∈ s.call.queue.list, t.AckedBy change →
        t.request.deadlineDelta ≤ delta)
    (hLock : UnderLock change delta now s.call) :
    NotEarlier change delta now s.call := by
  intro hSome t ht hAcked
  have hGrows : t.request.deadlineDelta ≤ delta :=
    hDelta.resolve_left hSome t ht hAcked
  rw [show now = s.call.clock from hLock]
  calc
    t.deadline ≤ s.call.clock +
        milliseconds t.request.deadlineDelta :=
      (hInv.stamped t ht).stored
    _ ≤ s.call.clock + milliseconds delta :=
      Int.add_le_add_left (milliseconds_le hGrows) _

theorem Step.notEarlier
    (hInv : Inv s)
    (hStep : Step UnderLock s s') :
    Step NotEarlier s s' := by
  cases hStep with
  | tick clock hClock => exact .tick s clock hClock
  | push t hOutside => exact .push s t hOutside
  | ack change delta now hNow hDelta hLock =>
      exact .ack s change delta now hNow hDelta
        (notEarlier_of_underLock hInv hDelta hLock)
  | call result timeout now hReturned hNow =>
      exact .call s result timeout now hReturned hNow
  | pass d0 hCalled => exact .pass s d0 hCalled
  | wake d0 deadline now cvs hBlocked =>
      exact .wake s d0 deadline now cvs hBlocked

/- The waiter would never oversleep if acknowledgements read
the clock while they hold the lock. -/
theorem never_oversleeps_under_lock
    (hReach : (system τ UnderLock).Reachable s) :
    s.WakesInTime := by
  apply Inv.wakesInTime
  apply hReach.invariant
  · rintro _ ⟨clock, rfl⟩
    exact inv_initial clock
  · exact fun _ _ hInv hStep =>
      inv_of_step hInv (hStep.notEarlier hInv)

/- A new deadline before the end of the sleep is missed. -/
theorem oversleeps_of_ack
    {change : StateChange}
    {delta : MillisecondTime}
    {now d0 deadline now' : TimePoint}
    {t : Tagged τ}
    (hBlocked : s.call.place = .blocked d0 deadline now')
    (hQuiet : s.notified = false)
    (ht : t ∈ s.call.queue.list)
    (hAcked : t.AckedBy change)
    (hDelta : delta ≠ 0)
    (hEarly : now + milliseconds delta < deadline) :
    ¬ (s.ackRequest change delta now).WakesInTime := by
  intro hWakes
  rcases hWakes d0 deadline now' hBlocked with
    ⟨_, hNotified⟩
  have hMem : t.acknowledge change delta
      (some (now + milliseconds delta)) ∈
        (s.call.queue.ackRequest change delta now).list := by
    rw [RequestQueue.list_ackRequest, if_neg hDelta]
    exact List.mem_map_of_mem ht
  have hEffective : (t.acknowledge change delta
      (some (now + milliseconds delta))).effectiveDeadline =
        now + milliseconds delta := by
    unfold Tagged.AckedBy at hAcked
    unfold Tagged.effectiveDeadline Tagged.acknowledge
    rw [if_pos hAcked]
    rfl
  have hNew : s.notified = true := by
    apply hNotified _ hMem
    rw [hEffective]
    exact hEarly
  rw [hQuiet] at hNew
  cases hNew

end Steps

------------------------------------------------------------
-- A Request That Is Pushed Meanwhile
------------------------------------------------------------

/- A request from the lowest floor, due after a second. -/
def slowRequest : Tagged Unit :=
  ⟨(), Request.create ⟨.callToFloorAndGoUp, 0, 0⟩ 1000 0⟩

/- The waiter sleeps until the request is due. -/
def asleep : Sleeper Unit where
  call := ⟨.single slowRequest, 0,
    .blocked (milliseconds 2000) (milliseconds 1000) 0⟩
  notified := false
  returned := []

theorem asleep_reachable
    (C : StateChange → MillisecondTime → TimePoint →
      WaitCall Unit → Prop) :
    (system Unit C).Reachable asleep := by
  have hInit : (system Unit C).Reachable (initial 0) :=
    TransitionSystem.Reachable.init ⟨0, rfl⟩
  have hPushed : (system Unit C).Reachable _ :=
    hInit.step (Step.push _ slowRequest
      (Request.Outside.create _ 1000 0 (le_refl 0)))
  have hCalled : (system Unit C).Reachable _ :=
    hPushed.step (Step.call _ _ 2000 0 rfl (le_refl 0))
  have hClean :
      (RequestQueue.single slowRequest).clean =
        (.single slowRequest, []) :=
    RequestQueue.clean_single rfl
  have hPass :
      WaitCall.pass (milliseconds 2000)
        ⟨RequestQueue.empty.push slowRequest, 0,
          .called (milliseconds 2000)⟩ = asleep.call := by
    rw [RequestQueue.push_empty]
    unfold WaitCall.pass WaitCall.cleaned
    rw [hClean]
    rfl
  have hSlept : (system Unit C).Reachable
      (proceed
        (WaitCall.pass (milliseconds 2000)
          ⟨RequestQueue.empty.push slowRequest, 0,
            .called (milliseconds 2000)⟩) (initial 0)) :=
    hCalled.step (Step.pass _ _ rfl)
  rw [hPass] at hSlept
  exact hSlept

/- A request that is due before the other one. -/
def urgentRequest : Tagged Unit :=
  ⟨(), Request.create ⟨.callToFloorAndGoUp, 0, 1⟩ 100 0⟩

/- The waiter is notified of a request that is due
earlier. -/
theorem never_oversleeps_urgentRequest :
    ∃ s, (system Unit NotEarlier).Reachable s ∧
      s.call.place = asleep.call.place ∧
      s.notified = true ∧ s.WakesInTime := by
  have hPushed : (system Unit NotEarlier).Reachable
      (asleep.push urgentRequest) :=
    (asleep_reachable NotEarlier).step
      (Step.push _ urgentRequest
        (Request.Outside.create _ 100 0 (le_refl 0)))
  exact ⟨_, hPushed, rfl, rfl, never_oversleeps hPushed⟩

/- A request that is pushed after 905 milliseconds. -/
def laterRequest : Tagged Unit :=
  ⟨(), Request.create ⟨.callToFloorAndGoUp, 0, 1⟩ 100
    (milliseconds 905)⟩

/- Its elevator is going to serve it. -/
def goingToServe : StateChange where
  changeType := .goingToServeUp
  changeFloor := 1
  state := { ElevatorState.default with id := 0 }

/-
  While the waiter sleeps, an acknowledgement reads the clock
  after 895 milliseconds, a request is pushed after 905, and
  then the acknowledgement takes the lock. It gives the new
  request a deadline five milliseconds before the waiter
  wakes up, and nobody is notified.
-/
theorem laterRequest_oversleeps :
    ∃ s, (system Unit Anytime).Reachable s ∧
      ¬ s.WakesInTime := by
  have hTicked : (system Unit Anytime).Reachable _ :=
    (asleep_reachable Anytime).step
      (Step.tick _ (milliseconds 905) (by decide))
  have hPushed : (system Unit Anytime).Reachable _ :=
    hTicked.step (Step.push _ laterRequest
      (Request.Outside.create _ 100 (milliseconds 905)
        (le_refl _)))
  have hDelta : ∀ t ∈
      ((RequestQueue.single slowRequest).push
        laterRequest).list,
      t.AckedBy goingToServe →
        t.request.deadlineDelta ≤ 100 := by
    intro t ht hAcked
    rcases List.mem_cons.mp
        (RequestQueue.push_perm.mem_iff.mp ht) with
      rfl | hOld
    · exact le_refl _
    · have hSlow : t = slowRequest :=
        List.mem_singleton.mp hOld
      rw [hSlow] at hAcked
      exact absurd hAcked.2.2 (by decide)
  have hAcked : (system Unit Anytime).Reachable _ :=
    hPushed.step (Step.ack _ goingToServe 100
      (milliseconds 895) (by decide) (Or.inr hDelta) trivial)
  have hMem : laterRequest ∈
      ((RequestQueue.single slowRequest).push
        laterRequest).list :=
    RequestQueue.push_perm.mem_iff.mpr List.mem_cons_self
  have hWaits : laterRequest.AckedBy goingToServe :=
    ⟨rfl, rfl, rfl⟩
  exact ⟨_, hAcked, oversleeps_of_ack rfl rfl hMem hWaits
    (by decide) (by decide)⟩

end Sleeper

end ElevatorControl
