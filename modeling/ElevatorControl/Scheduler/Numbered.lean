import ElevatorControl.Scheduler.Dispatch

/-
  What the steps of the scheduler's threads are, and the
  numbers of the requests.

  A request keeps the number of the state change it was made
  for, and no two requests that are queued or in hand have
  the same number. This holds of every run.

  Key definitions include:
    * `Dispatch.Transition`
    * `Dispatch.MayPush`
    * `Dispatch.Numbered`

  Key theorems include:
    * `Dispatch.transition_of_step`
    * `Dispatch.numbered_of_step`
-/

------------------------------------------------------------
-- Transitions
------------------------------------------------------------

namespace ElevatorControl

namespace Dispatch

open Scheduler

/- The steps that are possible, with their guards. -/
inductive Transition
    (bounds : BasicDriverInfo)
    (localElevId : Int) :
    Action → Dispatch → Dispatch → Prop where
  | tick
      {s : Dispatch}
      {clock : TimePoint}
      (hClock : s.clock ≤ clock) :
      Transition bounds localElevId (.tick clock) s
        { s with clock := clock }
  | dequeue
      {s : Dispatch}
      {update : StateChange}
      (hOps : s.schedOps = []) :
      Transition bounds localElevId (.dequeue update) s
        { s with
          updates := s.updates + 1
          schedOps := schedLoop localElevId update }
  | schedule
      {s : Dispatch}
      {read : TimePoint}
      {op : Op}
      {ops : List Op}
      (hOps : s.schedOps = op :: ops)
      (hRead : read ≤ s.clock) :
      Transition bounds localElevId (.schedule read) s
        (s.schedule bounds localElevId read op ops)
  | wait
      {s : Dispatch}
      {d0 : TimePoint}
      (hIdle : s.waiter = .idle)
      (hOps : s.reqOps = []) :
      Transition bounds localElevId (.wait d0) s
        { s with waiter := .called d0 }
  | pass
      {s : Dispatch}
      {d0 : TimePoint}
      (hCalled : s.waiter = .called d0) :
      Transition bounds localElevId .pass s (s.pass d0)
  | wake
      {s : Dispatch}
      {d0 deadline now : TimePoint}
      (hBlocked : s.waiter = .blocked d0 deadline now) :
      Transition bounds localElevId .wake s
        { s with waiter := .called d0 }
  | expire
      {s : Dispatch}
      {d0 deadline now : TimePoint}
      (hBlocked : s.waiter = .blocked d0 deadline now)
      (hExpired : deadline ≤ s.clock) :
      Transition bounds localElevId .expire s (s.take now)
  | check
      {s : Dispatch}
      {read : TimePoint}
      {op : Op}
      {ops : List Op}
      (hOps : s.reqOps = op :: ops)
      (hRead : read ≤ s.clock) :
      Transition bounds localElevId (.check read) s
        (s.check bounds localElevId read op ops)

theorem transition_of_step
    {bounds : BasicDriverInfo}
    {localElevId : Int}
    {a : Action}
    {s s' : Dispatch}
    (hStep : step bounds localElevId a s = some s') :
    Transition bounds localElevId a s s' := by
  cases a with
  | tick clock =>
      simp only [step] at hStep
      split at hStep
      · next hClock =>
          cases hStep
          exact .tick hClock
      · cases hStep
  | dequeue update =>
      simp only [step] at hStep
      split at hStep
      · next hOps =>
          cases hStep
          exact .dequeue hOps
      · cases hStep
  | schedule read =>
      simp only [step] at hStep
      split at hStep
      · next op ops hOps =>
          split at hStep
          · next hRead =>
              cases hStep
              exact .schedule hOps hRead
          · cases hStep
      · cases hStep
  | wait d0 =>
      simp only [step] at hStep
      split at hStep
      · next hIdle =>
          split at hStep
          · next hOps =>
              cases hStep
              exact .wait hIdle hOps
          · cases hStep
      · cases hStep
  | pass =>
      simp only [step] at hStep
      split at hStep
      · next d0 hCalled =>
          cases hStep
          exact .pass hCalled
      · cases hStep
  | wake =>
      simp only [step] at hStep
      split at hStep
      · next d0 deadline now hBlocked =>
          cases hStep
          exact .wake hBlocked
      · cases hStep
  | expire =>
      simp only [step] at hStep
      split at hStep
      · next d0 deadline now hBlocked =>
          split at hStep
          · next hExpired =>
              cases hStep
              exact .expire hBlocked hExpired
          · cases hStep
      · cases hStep
  | check read =>
      simp only [step] at hStep
      split at hStep
      · next op ops hOps =>
          split at hStep
          · next hRead =>
              cases hStep
              exact .check hOps hRead
          · cases hStep
      · cases hStep

------------------------------------------------------------
-- Numbers of Requests
------------------------------------------------------------

/- The operations may still push a request. -/
def MayPush
    (ops : List Op) : Prop :=
  ∃ op ∈ ops, (∃ r, op = .push r) ∨
    ∃ type floor, op = .optimalElevator type floor

theorem MayPush.cons
    {op : Op}
    {ops : List Op}
    (hMay : MayPush ops) :
    MayPush (op :: ops) := by
  rcases hMay with ⟨op', hOp', hKind⟩
  exact ⟨op', List.mem_cons_of_mem op hOp', hKind⟩

theorem not_mayPush_nil :
    ¬ MayPush [] := by
  rintro ⟨op, hOp, _⟩
  cases hOp

/- The last operation of a thread, when it only forwards. -/
theorem not_mayPush_forward
    {comm : Command} :
    ¬ MayPush [.forward comm] := by
  rintro ⟨op, hOp, hKind⟩
  rw [List.mem_singleton.mp hOp] at hKind
  rcases hKind with ⟨_, hPush⟩ | ⟨_, _, hChoose⟩
  · cases hPush
  · cases hChoose

/-
  The threads are at places of their programs, and numbers
  are in use once. The number of the last change is not in
  use while a request may still be pushed for it.
-/
structure Numbered
    (s : Dispatch) : Prop where
  schedules : Schedules s.schedOps
  resends : Resends s.held s.reqTag s.reqOps
  idle : s.reqOps ≠ [] → s.waiter = .idle
  nodup : (s.outstanding.map Tagged.tag).Nodup
  numbered : ∀ t ∈ s.outstanding, t.tag ≤ s.updates
  fresh : MayPush s.schedOps →
    ∀ t ∈ s.outstanding, t.tag < s.updates

section Numbers

variable {s s' : Dispatch}

theorem mem_outstanding
    {t : Tagged Nat} :
    t ∈ s.outstanding ↔
      t ∈ s.requests.list ∨ s.held = some t := by
  unfold outstanding
  rw [List.mem_append, Option.mem_toList]

theorem map_tag_acknowledge
    {change : StateChange}
    {delta : MillisecondTime}
    {newDeadline : Option TimePoint}
    (l : List (Tagged Nat)) :
    (l.map (Tagged.acknowledge change delta
      newDeadline)).map Tagged.tag = l.map Tagged.tag := by
  rw [List.map_map]
  exact List.map_congr_left fun _ _ => Tagged.tag_acknowledge

theorem numbered_initial
    (clock : TimePoint) :
    Numbered (initial clock) where
  schedules := .done
  resends := .done 0
  idle hBusy := absurd rfl hBusy
  nodup := List.nodup_nil
  numbered _ ht := by cases ht
  fresh hMay := absurd hMay not_mayPush_nil

/- Nothing is in hand while the waiter waits. -/
theorem Numbered.held_eq_none
    (hInv : Numbered s)
    (hOps : s.reqOps = []) :
    s.held = none := by
  have hResends := hInv.resends
  rw [hOps] at hResends
  generalize s.held = held at hResends
  generalize s.reqTag = tag at hResends
  cases hResends with
  | done tag => rfl

theorem Numbered.reqOps_eq_nil
    (hInv : Numbered s)
    (hWaits : s.waiter ≠ .idle) :
    s.reqOps = [] := by
  by_contra hBusy
  exact hWaits (hInv.idle hBusy)

/- The request in hand has the number that is kept for it,
and no other request has it. -/
theorem Numbered.held_apart
    {t u : Tagged Nat}
    (hInv : Numbered s)
    (hHeld : s.held = some t)
    (hMem : u ∈ s.requests.list) :
    u.tag ≠ t.tag := by
  have hNodup := hInv.nodup
  rw [outstanding, hHeld, Option.toList_some,
    List.map_append, List.nodup_append] at hNodup
  exact hNodup.2.2 _ (List.mem_map_of_mem hMem) _
    (List.mem_map_of_mem (List.mem_singleton_self t))

/-
  When requests keep their numbers or leave, the numbers stay
  apart. This covers every step that neither handles a new
  change nor pushes a new request.
-/
theorem Numbered.of_subperm
    (hInv : Numbered s)
    (hTags : (s'.outstanding.map Tagged.tag).Subperm
      (s.outstanding.map Tagged.tag))
    (hUpdates : s'.updates = s.updates)
    (hMay : MayPush s'.schedOps → MayPush s.schedOps)
    (hSchedules : Schedules s'.schedOps)
    (hResends : Resends s'.held s'.reqTag s'.reqOps)
    (hIdle : s'.reqOps ≠ [] → s'.waiter = .idle) :
    Numbered s' := by
  have hNumber : ∀ t ∈ s'.outstanding,
      ∃ u ∈ s.outstanding, u.tag = t.tag := by
    intro t ht
    exact List.mem_map.mp (hTags.subset
      (List.mem_map_of_mem (f := Tagged.tag) ht))
  refine ⟨hSchedules, hResends, hIdle, ?_, ?_, ?_⟩
  · rcases hTags with ⟨l, hPerm, hSub⟩
    exact hPerm.nodup_iff.mp (hInv.nodup.sublist hSub)
  · intro t ht
    rcases hNumber t ht with ⟨u, hu, hSame⟩
    rw [← hSame, hUpdates]
    exact hInv.numbered u hu
  · intro hPushes t ht
    rcases hNumber t ht with ⟨u, hu, hSame⟩
    rw [← hSame, hUpdates]
    exact hInv.fresh (hMay hPushes) u hu

/- A number that has not been used is new. -/
theorem numbered_dequeue
    {ops : List Op}
    (hInv : Numbered s)
    (hOps : Schedules ops) :
    Numbered { s with
      updates := s.updates + 1
      schedOps := ops } :=
  { hInv with
    schedules := hOps
    numbered := fun t ht =>
      Nat.le_succ_of_le (hInv.numbered t ht)
    fresh := fun _ t ht =>
      Nat.lt_succ_of_le (hInv.numbered t ht) }

/- `_schedLoop` goes on with other operations. -/
theorem numbered_schedOps
    {ops : List Op}
    (hInv : Numbered s)
    (hOps : Schedules ops)
    (hMay : MayPush ops → MayPush s.schedOps) :
    Numbered { s with schedOps := ops } :=
  { hInv with
    schedules := hOps
    fresh := fun hNow => hInv.fresh (hMay hNow) }

/- A new request has a number no other request has. -/
theorem numbered_push
    {r : Request}
    {comm : Command}
    (hInv : Numbered s)
    (hOps : s.schedOps = [.push r, .forward comm]) :
    Numbered { s with
      requests := s.requests.push ⟨s.updates, r⟩
      schedOps := [.forward comm] } := by
  have hFresh : ∀ t ∈ s.outstanding, t.tag < s.updates := by
    apply hInv.fresh
    rw [hOps]
    exact ⟨.push r, List.mem_cons_self, Or.inl ⟨r, rfl⟩⟩
  have hAll :
      ((s.requests.push ⟨s.updates, r⟩).list ++
        s.held.toList).Perm (⟨s.updates, r⟩ ::
          s.outstanding) :=
    RequestQueue.push_perm.append_right _
  exact { hInv with
    schedules := .forward comm .done
    nodup := by
      apply (hAll.map Tagged.tag).nodup_iff.mpr
      rw [List.map_cons, List.nodup_cons]
      refine ⟨?_, hInv.nodup⟩
      intro hUsed
      rcases List.mem_map.mp hUsed with ⟨t, ht, hTag⟩
      exact absurd hTag (Nat.ne_of_lt (hFresh t ht))
    numbered := by
      intro t ht
      rcases List.mem_cons.mp (hAll.mem_iff.mp ht) with
        rfl | hOld
      · exact Nat.le_refl _
      · exact hInv.numbered t hOld
    fresh := fun hMay => absurd hMay not_mayPush_forward }

/- Acknowledged requests keep their numbers. -/
theorem numbered_ack
    {change : StateChange}
    {delta : MillisecondTime}
    {now : TimePoint}
    (hInv : Numbered s) :
    Numbered { s with
      requests := s.requests.ackRequest change delta now
      history := s.history ++
        (s.servedBy change).map DispatchEvent.served
      schedOps := [] } := by
  apply hInv.of_subperm
  · apply List.Perm.subperm
    rw [outstanding, RequestQueue.list_ackRequest,
      List.map_append, map_tag_acknowledge,
      ← List.map_append]
    exact List.Perm.refl _
  · rfl
  · exact fun hMay => absurd hMay not_mayPush_nil
  · exact .done
  · exact hInv.resends
  · exact hInv.idle

/- What an operation of `_schedLoop` preserves. -/
theorem numbered_schedule
    {bounds : BasicDriverInfo}
    {localElevId : Int}
    {read : TimePoint}
    {op : Op}
    {ops : List Op}
    (hInv : Numbered s)
    (hOps : s.schedOps = op :: ops) :
    Numbered
      (s.schedule bounds localElevId read op ops) := by
  have hSchedules := hInv.schedules
  rw [hOps] at hSchedules
  have hProceed :
      Schedules ops →
        Numbered { s with schedOps := ops } := by
    intro hRest
    apply numbered_schedOps hInv hRest
    rw [hOps]
    exact MayPush.cons
  cases hSchedules with
  | update state hRest => exact { hProceed hRest with }
  | propagate update hRest => exact { hProceed hRest with }
  | forward comm hRest => exact { hProceed hRest with }
  | choose type floor =>
      rw [schedule_choose]
      cases optimalElevator bounds (nowAt read) type floor
          s.globalState.elevators with
      | error e =>
          exact numbered_schedOps hInv .done
            fun hMay => absurd hMay not_mayPush_nil
      | ok minId =>
          apply numbered_schedOps hInv (.push _ _ rfl)
          intro _
          rw [hOps]
          exact ⟨.optimalElevator type floor,
            List.mem_cons_self, Or.inr ⟨type, floor, rfl⟩⟩
  | push r comm hType => exact numbered_push hInv hOps
  | going change => exact numbered_ack hInv
  | served x change hServed => exact numbered_ack hInv

------------------------------------------------------------
-- Numbers in Hand
------------------------------------------------------------

/- `_reqCheckLoop` goes on with other operations. -/
theorem numbered_reqOps
    {ops : List Op}
    (hInv : Numbered s)
    (hBusy : s.reqOps ≠ [])
    (hOps : Resends s.held s.reqTag ops) :
    Numbered { s with reqOps := ops } :=
  { hInv with
    resends := hOps
    idle := fun _ => hInv.idle hBusy }

/- A request that is pushed back keeps its number. -/
theorem numbered_pushBack
    {t : Tagged Nat}
    {r : Request}
    {comm : Command}
    (hInv : Numbered s)
    (hBusy : s.reqOps ≠ [])
    (hHeld : s.held = some t)
    (hTag : s.reqTag = t.tag) :
    Numbered { s with
      requests := s.requests.push ⟨s.reqTag, r⟩
      held := none
      reqOps := [.forward comm] } := by
  apply hInv.of_subperm
  · apply List.Perm.subperm
    rw [outstanding, Option.toList_none, List.append_nil,
      outstanding, hHeld, Option.toList_some,
      List.map_append, List.map_singleton, ← hTag]
    exact (RequestQueue.push_perm.map Tagged.tag).trans
      (List.perm_append_singleton _ _).symm
  · rfl
  · exact id
  · exact hInv.schedules
  · exact .forward s.reqTag comm
  · exact fun _ => hInv.idle hBusy

/- A request that cannot be resent is lost. -/
theorem numbered_abandon
    (hInv : Numbered s) :
    Numbered { s with held := none, reqOps := [] } := by
  apply hInv.of_subperm
  · have hSub :
        (s.requests.list ++
          (none : Option (Tagged Nat)).toList).Sublist
            s.outstanding := by
      rw [Option.toList_none, List.append_nil]
      exact List.sublist_append_left _ _
    exact (hSub.map Tagged.tag).subperm
  · rfl
  · exact id
  · exact hInv.schedules
  · exact .done s.reqTag
  · exact fun hBusy => absurd rfl hBusy

/- What an operation of `_reqCheckLoop` preserves. -/
theorem numbered_check
    {bounds : BasicDriverInfo}
    {localElevId : Int}
    {read : TimePoint}
    {op : Op}
    {ops : List Op}
    (hInv : Numbered s)
    (hOps : s.reqOps = op :: ops) :
    Numbered (s.check bounds localElevId read op ops) := by
  have hBusy : s.reqOps ≠ [] := by
    rw [hOps]
    exact List.cons_ne_nil _ _
  have hResends := hInv.resends
  rw [hOps] at hResends
  generalize hHeld : s.held = held at hResends
  generalize hTag : s.reqTag = tag at hResends
  cases hResends with
  | resend t r =>
      have hNext :
          Resends s.held s.reqTag
            (resendRequest r read ++ []) := by
        rw [hHeld, hTag, List.append_nil]
        unfold resendRequest
        dsimp only
        split
        · exact .reschedule t _
        · exact .push t _ _
      exact numbered_reqOps hInv hBusy hNext
  | reschedule t r =>
      rw [check_reschedule]
      cases optimalElevator bounds (nowAt read)
          (requestButton r) r.command.targetFloor
          s.globalState.elevators with
      | error e => exact numbered_abandon hInv
      | ok minId =>
          apply numbered_reqOps hInv hBusy
          rw [hHeld, hTag]
          exact .push t _ _
  | push t r comm =>
      exact numbered_pushBack hInv hBusy hHeld hTag
  | forward tag comm =>
      have hProceed := numbered_abandon hInv
      rw [← hHeld] at hProceed
      unfold check execute heldAfter
      dsimp only
      exact { hProceed with }

------------------------------------------------------------
-- Numbers and the Waiter
------------------------------------------------------------

/- The waiter goes on; it is busy only when idle. -/
theorem numbered_waiter
    {waiter : Waiter}
    (hInv : Numbered s)
    (hOps : s.reqOps = []) :
    Numbered { s with waiter := waiter } :=
  { hInv with idle := fun hBusy => absurd hOps hBusy }

theorem numbered_cleaned
    (hInv : Numbered s) :
    Numbered s.cleaned := by
  apply hInv.of_subperm
  · have hPerm :=
      (RequestQueue.clean_settles s.requests).map_perm
        Tagged.tag (fun _ => Tagged.tag_settle)
    unfold outstanding
    rw [List.map_append, List.map_append]
    apply (List.subperm_append_right _).mpr
    rw [List.map_append] at hPerm
    exact (List.sublist_append_right _ _).subperm.trans
      hPerm.symm.subperm
  · rfl
  · exact id
  · exact hInv.schedules
  · exact hInv.resends
  · exact hInv.idle

/- A request may leave the queue. -/
theorem numbered_dropTop
    {t : Tagged Nat}
    (hInv : Numbered s)
    (hOps : s.reqOps = [])
    (hTop : s.requests.top? = some t) :
    Numbered { s with
      requests := s.requests.pop
      waiter := .idle } := by
  apply hInv.of_subperm
  · have hAll :
        (t :: (s.requests.pop.list ++ s.held.toList)).Perm
          s.outstanding :=
      ((RequestQueue.pop_perm hTop).append_right
        s.held.toList).symm
    have hFewer :=
      (List.sublist_cons_self t
        (s.requests.pop.list ++ s.held.toList)).map
          Tagged.tag
    exact hFewer.subperm.trans
      (hAll.map Tagged.tag).subperm
  · rfl
  · exact id
  · exact hInv.schedules
  · exact hInv.resends
  · exact fun hBusy => absurd hOps hBusy

/- A request that is taken out is in hand. -/
theorem numbered_takeTop
    {t : Tagged Nat}
    (hInv : Numbered s)
    (hOps : s.reqOps = [])
    (hTop : s.requests.top? = some t) :
    Numbered { s with
      requests := s.requests.pop
      waiter := .idle
      held := some t
      reqTag := t.tag
      reqOps := [.resend t.request] } := by
  apply hInv.of_subperm
  · have hAll :
        (s.requests.pop.list ++ [t]).Perm
          s.outstanding := by
      rw [outstanding, hInv.held_eq_none hOps,
        Option.toList_none, List.append_nil]
      exact (List.perm_append_singleton t _).trans
        (RequestQueue.pop_perm hTop).symm
    exact (hAll.map Tagged.tag).subperm
  · rfl
  · exact id
  · exact hInv.schedules
  · exact .resend t t.request
  · exact fun _ => rfl

/-
  What the end of the wait does: nothing is due, a request
  that is due is taken out, or the assertion drops it.
-/
theorem take_cases
    (s : Dispatch)
    (now : TimePoint) :
    s.take now = { s with waiter := .idle } ∨
      ∃ t, s.requests.top? = some t ∧ t.deadline ≤ now ∧
        ((t.isTweaked = false ∧
            s.take now =
              { s with
                requests := s.requests.pop
                waiter := .idle
                held := some t
                reqTag := t.tag
                reqOps := [.resend t.request] }) ∨
          (t.isTweaked = true ∧
            s.take now =
              { s with
                requests := s.requests.pop
                waiter := .idle })) := by
  unfold take
  rcases SchedulerState.take_cases s.toSchedulerState now with
    hNone | ⟨t, hTop, hDue, ⟨hTweak, hSome⟩ | ⟨hTweak, hFails⟩⟩
  · rw [hNone]
    exact Or.inl rfl
  · rw [hSome]
    exact Or.inr ⟨t, hTop, hDue, Or.inl ⟨hTweak, rfl⟩⟩
  · rw [hFails]
    exact Or.inr ⟨t, hTop, hDue, Or.inr ⟨hTweak, rfl⟩⟩

theorem numbered_take
    {now : TimePoint}
    (hInv : Numbered s)
    (hOps : s.reqOps = []) :
    Numbered (s.take now) := by
  rcases take_cases s now with
    hNone | ⟨t, hTop, _, ⟨_, hSome⟩ | ⟨_, hFails⟩⟩
  · rw [hNone]
    exact numbered_waiter hInv hOps
  · rw [hSome]
    exact numbered_takeTop hInv hOps hTop
  · rw [hFails]
    exact numbered_dropTop hInv hOps hTop

theorem numbered_pass
    {d0 : TimePoint}
    (hInv : Numbered s)
    (hOps : s.reqOps = []) :
    Numbered (s.pass d0) := by
  have hCleaned := numbered_cleaned hInv
  rw [pass_eq]
  split
  · exact numbered_take hCleaned hOps
  · exact numbered_waiter hCleaned hOps

------------------------------------------------------------
-- Numbers in Runs
------------------------------------------------------------

/- Every step keeps the numbers of requests apart. -/
theorem numbered_of_step
    {bounds : BasicDriverInfo}
    {localElevId : Int}
    {a : Action}
    (hInv : Numbered s)
    (hStep : step bounds localElevId a s = some s') :
    Numbered s' := by
  have hWaiting :
      s.waiter ≠ .idle → s.reqOps = [] :=
    hInv.reqOps_eq_nil
  cases transition_of_step hStep with
  | tick hClock => exact { hInv with }
  | @dequeue _ update hOps =>
      exact numbered_dequeue hInv
        (schedules_schedLoop localElevId update)
  | schedule hOps hRead => exact numbered_schedule hInv hOps
  | wait hIdle hOps => exact numbered_waiter hInv hOps
  | pass hCalled =>
      apply numbered_pass hInv
      apply hWaiting
      rw [hCalled]
      exact Waiter.noConfusion
  | wake hBlocked =>
      apply numbered_waiter hInv
      apply hWaiting
      rw [hBlocked]
      exact Waiter.noConfusion
  | expire hBlocked hExpired =>
      apply numbered_take hInv
      apply hWaiting
      rw [hBlocked]
      exact Waiter.noConfusion
  | check hOps hRead => exact numbered_check hInv hOps

end Numbers

end Dispatch

end ElevatorControl
