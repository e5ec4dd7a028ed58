import ElevatorControl.Requests.Waiting

/-
  Conservation of requests.

  Pushes, acknowledgements and the calls of the single waiter
  interleave at the granularity of the queue's lock: the wait
  releases the lock, and the waiter goes on when it is
  notified, wakes up for no reason, or times out. The tag of
  a request is the number of pushes before it.

  Key definitions include:
    * `QueueSystem`
    * `QueueSystem.Step`
    * `QueueSystem.Served`

  Key theorems include:
    * `QueueSystem.inv_of_step`
    * `QueueSystem.conservation`
-/

------------------------------------------------------------
-- Queue System
------------------------------------------------------------

namespace ElevatorControl

/- What has been processed under the lock. -/
inductive QueueEvent where
  | pushed (tag : Nat) (command : Command)
  | acked (change : StateChange)

/-
  The last call of the wait, with the queue and the clock,
  together with the history, the requests that calls have
  returned, and the requests the cleaning loop has dropped.
-/
structure QueueSystem extends WaitCall Nat where
  history : List QueueEvent
  returned : List (Tagged Nat)
  discarded : List (Tagged Nat)
  pushes : Nat

namespace QueueSystem

/- The call goes on, and perhaps returns a request. -/
def proceed
    (call : WaitCall Nat)
    (s : QueueSystem) : QueueSystem :=
  { s with
    toWaitCall := call
    returned := s.returned ++ call.place.result.toList }

/- The system after the loop of the wait. -/
def take
    (now : TimePoint)
    (s : QueueSystem) : QueueSystem :=
  s.proceed (s.toWaitCall.finish now)

/- The cleaning loop of the waiter. -/
def cleaned
    (s : QueueSystem) : QueueSystem :=
  { s with
    toWaitCall := s.toWaitCall.cleaned
    discarded := s.discarded ++ s.queue.clean.2 }

/- One pass of the outer loop of
`_waitForEarliestDeadline`. -/
def pass
    (d0 : TimePoint)
    (s : QueueSystem) : QueueSystem :=
  { s.proceed (s.toWaitCall.pass d0) with
    discarded := s.discarded ++ s.queue.clean.2 }

/- The steps of the callers and of the waiter. A request is
pushed before its deadline. -/
inductive Step :
    QueueSystem → QueueSystem → Prop where
  | tick
      (s : QueueSystem)
      (clock : TimePoint)
      (hClock : s.clock ≤ clock) :
      Step s { s with clock := clock }
  | push
      (s : QueueSystem)
      (x : CallDirection)
      (r : Request)
      (hType : r.type = .notAcknowledged)
      (hCall : r.command.commandType = x.call)
      (hDeadline : s.clock < r.deadline) :
      Step s
        { s with
          queue := s.queue.push ⟨s.pushes, r⟩
          history := s.history ++
            [.pushed s.pushes r.command]
          pushes := s.pushes + 1 }
  | ack
      (s : QueueSystem)
      (change : StateChange)
      (newDeadlineDelta : MillisecondTime)
      (now : TimePoint)
      (hNow : now ≤ s.clock) :
      Step s
        { s with
          queue := s.queue.ackRequest change
            newDeadlineDelta now
          history := s.history ++ [.acked change] }
  | call
      (s : QueueSystem)
      (result : Except AssertionFailed (Option (Tagged Nat)))
      (timeout : MillisecondTime)
      (now : TimePoint)
      (hReturned : s.place = .returned result)
      (hNow : now ≤ s.clock) :
      Step s
        { s with
          place := .called (now + milliseconds timeout) }
  | pass
      (s : QueueSystem)
      (d0 : TimePoint)
      (hCalled : s.place = .called d0) :
      Step s (s.pass d0)
  | wake
      (s : QueueSystem)
      (d0 deadline now : TimePoint)
      (hBlocked : s.place = .blocked d0 deadline now) :
      Step s { s with place := .called d0 }
  | expire
      (s : QueueSystem)
      (d0 deadline now : TimePoint)
      (hBlocked : s.place = .blocked d0 deadline now)
      (hExpired : deadline ≤ s.clock) :
      Step s (s.take now)

/- The system starts with an empty queue, and nobody
waits. -/
def initial
    (clock : TimePoint) : QueueSystem where
  queue := .empty
  clock := clock
  place := .returned (.ok none)
  history := []
  returned := []
  discarded := []
  pushes := 0

/- The queue system from an empty queue. -/
def system : TransitionSystem QueueSystem where
  Init s := ∃ clock, s = initial clock
  Step := Step

------------------------------------------------------------
-- Histories of Requests
------------------------------------------------------------

/- The change is of the given type and names the elevator
and the floor of the command. -/
def Matches
    (command : Command)
    (type : ChangeType)
    (change : StateChange) : Prop :=
  change.changeType = type ∧
    change.state.id = command.targetElevatorId ∧
    change.changeFloor = command.targetFloor

/-
  Since the push of the request, its elevator has reported
  that it is going to serve the call, and later that it has
  served it.
-/
def Served
    (history : List QueueEvent)
    (t : Tagged Nat) : Prop :=
  ∃ x going served,
    t.request.command.commandType = CallDirection.call x ∧
    Matches t.request.command x.goingToServe going ∧
    Matches t.request.command x.served served ∧
    List.Sublist
      [.pushed t.tag t.request.command, .acked going,
        .acked served] history

/- What the history tells about a request in the queue. -/
def Staged
    (history : List QueueEvent)
    (t : Tagged Nat) : Prop :=
  ∃ x, t.request.command.commandType =
      CallDirection.call x ∧
    match t.request.type with
    | .notAcknowledged =>
        List.Sublist
          [.pushed t.tag t.request.command] history
    | .notDone =>
        ∃ going,
          Matches t.request.command x.goingToServe going ∧
          List.Sublist
            [.pushed t.tag t.request.command, .acked going]
            history
    | .done => Served history t

section Histories

variable {history : List QueueEvent}
variable {t : Tagged Nat}

theorem Served.append
    (hServed : Served history t)
    (later : List QueueEvent) :
    Served (history ++ later) t := by
  rcases hServed with
    ⟨x, going, served, hCall, hGoing, hDone, hSub⟩
  exact ⟨x, going, served, hCall, hGoing, hDone,
    List.sublist_append_of_sublist_left hSub⟩

theorem Staged.append
    (hStaged : Staged history t)
    (later : List QueueEvent) :
    Staged (history ++ later) t := by
  rcases hStaged with ⟨x, hCall, hType⟩
  refine ⟨x, hCall, ?_⟩
  cases hKind : t.request.type with
  | notAcknowledged =>
      rw [hKind] at hType
      exact List.sublist_append_of_sublist_left hType
  | notDone =>
      rw [hKind] at hType
      rcases hType with ⟨going, hGoing, hSub⟩
      exact ⟨going, hGoing,
        List.sublist_append_of_sublist_left hSub⟩
  | done =>
      rw [hKind] at hType
      exact Served.append hType later

/- A new deadline does not touch the history. -/
theorem Staged.settle
    (hStaged : Staged history t) :
    Staged history t.settle := by
  unfold Tagged.settle
  split
  · exact hStaged
  · exact hStaged

theorem Served.of_done
    (hStaged : Staged history t)
    (hDone : t.isDone = true) :
    Served history t := by
  rcases hStaged with ⟨x, _, hType⟩
  have hKind : t.request.type = .done := by
    simpa [Tagged.isDone] using hDone
  rw [hKind] at hType
  exact hType

/-
  An acknowledgement moves a request it matches to the next
  stage, and leaves the others where they are.
-/
theorem Staged.acknowledge
    (hStaged : Staged history t)
    (change : StateChange)
    (delta : MillisecondTime)
    (newDeadline : Option TimePoint) :
    Staged (history ++ [.acked change])
      (t.acknowledge change delta newDeadline) := by
  unfold Tagged.acknowledge
  split
  · next hMatch =>
      rcases hMatch with ⟨hElevator, hTrigger, hFloor⟩
      rcases hStaged with ⟨x, hCall, hType⟩
      rw [Request.triggerType_eq hCall] at hTrigger
      refine ⟨x, hCall, ?_⟩
      cases hKind : t.request.type with
      | notAcknowledged =>
          rw [hKind] at hType hTrigger
          exact ⟨change,
            ⟨hTrigger.symm, hElevator.symm, hFloor.symm⟩,
            hType.append (List.Sublist.refl _)⟩
      | notDone =>
          rw [hKind] at hType hTrigger
          rcases hType with ⟨going, hGoing, hSub⟩
          exact ⟨x, going, change, hCall, hGoing,
            ⟨hTrigger.symm, hElevator.symm, hFloor.symm⟩,
            hSub.append (List.Sublist.refl _)⟩
      | done =>
          rw [hKind] at hType
          exact Served.append hType _
  · exact hStaged.append _

end Histories

------------------------------------------------------------
-- Invariant
------------------------------------------------------------

/- The tags of all requests, wherever they are. -/
def tags
    (s : QueueSystem) : List Nat :=
  (s.queue.list ++ s.returned ++ s.discarded).map Tagged.tag

/- Every push is in one place, and requests have the history
of their type. -/
structure Accounted
    (s : QueueSystem) : Prop where
  tags : s.tags.Perm (List.range s.pushes)
  staged : ∀ t ∈ s.queue.list, Staged s.history t
  served : ∀ t ∈ s.discarded, Served s.history t

/- All requests are accounted for, and the call keeps its
own invariant. -/
structure Inv
    (s : QueueSystem) : Prop where
  accounted : Accounted s
  call : s.toWaitCall.Inv

section Steps

variable {s s' : QueueSystem}

theorem accounted_initial
    (clock : TimePoint) :
    Accounted (initial clock) := by
  refine ⟨?_, ?_, ?_⟩
  · exact List.Perm.refl _
  · intro t ht
    cases ht
  · intro t ht
    cases ht

theorem accounted_push
    {x : CallDirection}
    {r : Request}
    (hAcc : Accounted s)
    (hType : r.type = .notAcknowledged)
    (hCall : r.command.commandType = x.call) :
    Accounted { s with
      queue := s.queue.push ⟨s.pushes, r⟩
      history := s.history ++
        [.pushed s.pushes r.command]
      pushes := s.pushes + 1 } := by
  have hPerm := RequestQueue.push_perm (q := s.queue)
    (t := ⟨s.pushes, r⟩)
  refine ⟨?_, ?_, ?_⟩
  · have hTags :=
      ((hPerm.append_right s.returned).append_right
        s.discarded).map Tagged.tag
    rw [List.range_succ]
    exact (hTags.trans (hAcc.tags.cons s.pushes)).trans
      (List.perm_append_singleton _ _).symm
  · intro t ht
    rcases List.mem_cons.mp (hPerm.mem_iff.mp ht) with
      rfl | ht
    · refine ⟨x, hCall, ?_⟩
      rw [hType]
      exact List.sublist_append_right _ _
    · exact (hAcc.staged t ht).append _
  · exact fun t ht => (hAcc.served t ht).append _

theorem accounted_ack
    {change : StateChange}
    {newDeadlineDelta : MillisecondTime}
    {now : TimePoint}
    (hAcc : Accounted s) :
    Accounted { s with
      queue := s.queue.ackRequest change newDeadlineDelta now
      history := s.history ++ [.acked change] } := by
  refine ⟨?_, ?_, ?_⟩
  · have hSame :
        ∀ l : List (Tagged Nat),
          (l.map (Tagged.acknowledge change newDeadlineDelta
            (if newDeadlineDelta = 0 then none
              else some (now +
                milliseconds newDeadlineDelta)))).map
            Tagged.tag = l.map Tagged.tag := by
      intro l
      rw [List.map_map]
      exact List.map_congr_left fun _ _ =>
        Tagged.tag_acknowledge
    have hTags := hAcc.tags
    simp only [QueueSystem.tags, List.map_append] at hTags
    simp only [QueueSystem.tags, List.map_append,
      RequestQueue.list_ackRequest, hSame]
    exact hTags
  · intro t ht
    simp only [RequestQueue.list_ackRequest,
      List.mem_map] at ht
    rcases ht with ⟨u, hu, rfl⟩
    exact (hAcc.staged u hu).acknowledge _ _ _
  · exact fun t ht => (hAcc.served t ht).append _

/- Every request that is left was there before, perhaps
with another deadline. -/
theorem staged_of_settles
    {history : List QueueEvent}
    {l l' : List (Tagged Nat)}
    (hSettles : RequestQueue.Settles l l')
    (hStaged : ∀ t ∈ l, Staged history t) :
    ∀ t ∈ l', Staged history t := by
  intro t ht
  rcases hSettles.origin t ht with ⟨u, hu, hSettled⟩
  have hBefore := hStaged u hu
  rcases hSettled with rfl | rfl
  · exact hBefore
  · exact hBefore.settle

/- Cleaning drops only requests that have been served. -/
theorem accounted_cleaned
    (hAcc : Accounted s) :
    Accounted s.cleaned := by
  have hSettles := RequestQueue.clean_settles s.queue
  have hStaged :=
    staged_of_settles hSettles hAcc.staged
  refine ⟨?_, ?_, ?_⟩
  · have hPerm := hSettles.map_perm Tagged.tag
      (fun _ => Tagged.tag_settle)
    have hTags := hAcc.tags
    simp only [QueueSystem.tags, List.map_append] at hTags
    simp only [QueueSystem.tags, cleaned, WaitCall.cleaned,
      List.map_append]
    rw [List.map_append] at hPerm
    rw [List.perm_iff_count] at hPerm hTags ⊢
    intro n
    have hQueue := hPerm n
    have hAll := hTags n
    simp only [List.count_append] at hQueue hAll ⊢
    omega
  · intro t ht
    exact hStaged t (List.mem_append_right _ ht)
  · intro t ht
    rcases List.mem_append.mp ht with hOld | hNew
    · exact hAcc.served t hOld
    · exact Served.of_done
        (hStaged t (List.mem_append_left _ hNew))
        (RequestQueue.isDone_of_clean s.queue t hNew)

/- A request that is taken is returned, unless it has got a
new deadline. -/
theorem accounted_take
    (hAcc : Accounted s)
    (hTweaked : s.queue.topTweaked = false)
    (now : TimePoint) :
    Accounted (s.take now) := by
  rcases RequestQueue.takeDue_clean hTweaked now
    with hNone | ⟨t, hTop, _, hSome⟩
  · have hTake :
        s.take now =
          { s with place := .returned (.ok none) } := by
      simp only [take, WaitCall.finish, hNone, proceed,
        WaitPlace.result, Option.toList_none, List.append_nil]
    rw [hTake]
    exact ⟨hAcc.tags, hAcc.staged, hAcc.served⟩
  · have hPerm := RequestQueue.pop_perm hTop
    have hTake :
        s.take now = { s with
          queue := s.queue.pop
          place := .returned (.ok (some t))
          returned := s.returned ++ [t] } := by
      simp only [take, WaitCall.finish, hSome, proceed,
        WaitPlace.result, Option.toList_some]
    rw [hTake]
    refine ⟨?_, ?_, hAcc.served⟩
    · have hTags := hAcc.tags
      simp only [QueueSystem.tags] at hTags ⊢
      apply List.Perm.trans _ hTags
      apply List.Perm.map
      apply List.Perm.append_right
      calc
        (s.queue.pop.list ++ (s.returned ++ [t])).Perm
            (s.queue.pop.list ++ (t :: s.returned)) :=
          (List.perm_append_singleton t
            s.returned).append_left _
        List.Perm _ (t :: (s.queue.pop.list ++ s.returned)) :=
          List.perm_middle
        List.Perm _ (s.queue.list ++ s.returned) :=
          hPerm.symm.append_right s.returned
    · intro u hu
      exact hAcc.staged u
        (hPerm.mem_iff.mpr (List.mem_cons_of_mem _ hu))

/- A pass cleans the queue, and then the call returns or goes
to sleep. -/
theorem pass_cases
    (s : QueueSystem)
    (d0 : TimePoint) :
    s.pass d0 = s.cleaned.take s.clock ∨
      ∃ deadline, s.pass d0 =
        { s.cleaned with
          place := .blocked d0 deadline s.clock } := by
  unfold pass WaitCall.pass
  by_cases hDue :
      s.toWaitCall.cleaned.queue.earliestDeadline d0 ≤ s.clock
  · rw [if_pos hDue]
    exact Or.inl rfl
  · rw [if_neg hDue]
    refine Or.inr
      ⟨s.cleaned.queue.earliestDeadline d0, ?_⟩
    simp only [proceed, WaitPlace.result, Option.toList_none,
      List.append_nil]
    rfl

theorem accounted_pass
    (hAcc : Accounted s)
    (d0 : TimePoint) :
    Accounted (s.pass d0) := by
  have hCleaned := accounted_cleaned hAcc
  have hReady := RequestQueue.topReady_clean s.queue
  rcases pass_cases s d0 with hTaken | ⟨deadline, hSleeps⟩
  · rw [hTaken]
    exact accounted_take hCleaned hReady.2 s.clock
  · rw [hSleeps]
    exact ⟨hCleaned.tags, hCleaned.staged, hCleaned.served⟩

/- After a timeout the waiter finds nothing that was due when
it began to wait. -/
theorem accounted_expire
    {d0 deadline now : TimePoint}
    (hInv : Inv s)
    (hBlocked : s.place = .blocked d0 deadline now) :
    Accounted (s.take now) := by
  have hCall := hInv.call
  unfold WaitCall.Inv at hCall
  rw [hBlocked] at hCall
  have hTake :
      s.take now =
        { s with place := .returned (.ok none) } := by
    simp only [take, WaitCall.finish,
      RequestQueue.takeDue_early hCall.2, proceed,
      WaitPlace.result, Option.toList_none, List.append_nil]
  rw [hTake]
  exact ⟨hInv.accounted.tags, hInv.accounted.staged,
    hInv.accounted.served⟩

theorem inv_of_step
    (hInv : Inv s)
    (hStep : Step s s') :
    Inv s' := by
  have hAcc := hInv.accounted
  cases hStep with
  | tick clock hClock =>
      exact ⟨⟨hAcc.tags, hAcc.staged, hAcc.served⟩,
        WaitCall.inv_tick hInv.call hClock⟩
  | push x r hType hCall hDeadline =>
      exact ⟨accounted_push hAcc hType hCall,
        WaitCall.inv_push hInv.call hDeadline⟩
  | ack change newDeadlineDelta now hNow =>
      exact ⟨accounted_ack hAcc, WaitCall.inv_ack hInv.call⟩
  | call result timeout now hReturned hNow =>
      exact ⟨⟨hAcc.tags, hAcc.staged, hAcc.served⟩, trivial⟩
  | pass d0 hCalled =>
      exact ⟨accounted_pass hAcc d0, WaitCall.inv_pass _ d0⟩
  | wake d0 deadline now hBlocked =>
      exact ⟨⟨hAcc.tags, hAcc.staged, hAcc.served⟩, trivial⟩
  | expire d0 deadline now hBlocked hExpired =>
      exact ⟨accounted_expire hInv hBlocked,
        WaitCall.inv_wake hInv.call hBlocked .timeout⟩

/-
  At every moment each pushed request is in exactly one
  place, once: in the queue, among the returned requests, or
  among the discarded ones. It is discarded only after its
  call has been acknowledged and then served.
-/
theorem conservation
    (hReach : system.Reachable s) :
    (∀ n < s.pushes,
      (s.queue.list.map Tagged.tag).count n +
        (s.returned.map Tagged.tag).count n +
        (s.discarded.map Tagged.tag).count n = 1) ∧
      ∀ t ∈ s.discarded, Served s.history t := by
  have hInv : Inv s := by
    apply hReach.invariant
    · rintro _ ⟨clock, rfl⟩
      exact ⟨accounted_initial clock, trivial⟩
    · exact fun _ _ hInv hStep => inv_of_step hInv hStep
  refine ⟨?_, hInv.accounted.served⟩
  intro n hn
  have hCount :=
    (List.perm_iff_count.mp hInv.accounted.tags) n
  rw [List.count_range, if_pos hn] at hCount
  simpa only [tags, List.map_append, List.count_append]
    using hCount

end Steps

/- A request for the lowest floor of elevator 0. -/
def firstRequest : Request :=
  Request.create ⟨.callToFloorAndGoUp, 0, 0⟩ 100 0

/- A request that has been pushed and acknowledged is in the
queue. -/
theorem conservation_firstRequest :
    ∃ s, system.Reachable s ∧ s.pushes = 1 ∧
      (s.queue.list.map Tagged.tag).count 0 +
        (s.returned.map Tagged.tag).count 0 +
        (s.discarded.map Tagged.tag).count 0 = 1 := by
  have hInit : system.Reachable (initial 0) :=
    TransitionSystem.Reachable.init ⟨0, rfl⟩
  have hPushed := hInit.step (Step.push (initial 0) .up
    firstRequest rfl rfl (by decide))
  have hAcked := hPushed.step (Step.ack _
    ⟨.goingToServeUp, 0, ElevatorState.default⟩ 30000 0
    (le_refl _))
  exact ⟨_, hAcked, rfl,
    (conservation hAcked).1 0 (by decide)⟩

end QueueSystem

end ElevatorControl
