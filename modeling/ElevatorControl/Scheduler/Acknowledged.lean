import ElevatorControl.Scheduler.Numbered

/-
  What becomes of the acknowledgements of requests.

  The change that reports a call as served marks its request
  in the queue. A request that has been taken out because its
  deadline has passed is not marked, and neither is the copy
  that is sent again: the acknowledgement is lost.

  Key definitions include:
    * `Dispatch.NotForwardedAgain`
    * `Dispatch.Undisturbed`
    * `Dispatch.Inv`

  Key theorems include:
    * `Dispatch.inv_of_step`
    * `Dispatch.served_not_forwarded`
-/

------------------------------------------------------------
-- Invariant
------------------------------------------------------------

namespace ElevatorControl

namespace Dispatch

open Scheduler

/- After a request has been served, no command is forwarded
for it. -/
def NotForwardedAgain
    (history : List DispatchEvent) : Prop :=
  history.Pairwise fun earlier later =>
    ∀ tag comm, earlier = .served tag →
      later ≠ .forwarded tag comm

/- `_reqCheckLoop` has taken the request out, and has not
forwarded its command yet. -/
def Resending
    (tag : Nat)
    (s : Dispatch) : Prop :=
  s.reqOps ≠ [] ∧ s.reqTag = tag

/- No change is processed that serves the request
`_reqCheckLoop` is about to send again. -/
def Undisturbed
    (a : Action)
    (s : Dispatch) : Prop :=
  ∀ read change newDeadlineDelta ops,
    a = .schedule read →
    s.schedOps =
      .ackRequest change newDeadlineDelta :: ops →
    ∀ t ∈ s.outstanding, Serves change t.request →
      ¬ s.Resending t.tag

/-
  Numbers of requests are in use once, and the requests that
  have been served are done or gone. What is queued while the
  waiter is blocked is due after the clock value it has read,
  has got a new deadline, or is new.
-/
structure Inv
    (s : Dispatch) : Prop where
  schedules : Schedules s.schedOps
  resends : Resends s.held s.reqTag s.reqOps
  idle : s.reqOps ≠ [] → s.waiter = .idle
  nodup : (s.outstanding.map Tagged.tag).Nodup
  numbered : ∀ t ∈ s.outstanding, t.tag ≤ s.updates
  fresh : MayPush s.schedOps →
    ∀ t ∈ s.outstanding, t.tag < s.updates
  servedNumbered : ∀ k, .served k ∈ s.history →
    k ≤ s.updates
  unserved : s.schedOps ≠ [] →
    .served s.updates ∉ s.history
  done : ∀ t ∈ s.requests.list,
    .served t.tag ∈ s.history → t.isDone = true
  resending : ∀ k, s.Resending k → .served k ∉ s.history
  early : ∀ d0 deadline now,
    s.waiter = .blocked d0 deadline now →
      ∀ t ∈ s.requests.list, now < t.deadline ∨
        t.isTweaked = true ∨
        t.request.type = .notAcknowledged
  settled : NotForwardedAgain s.history

theorem notForwardedAgain_forwarded
    {history : List DispatchEvent}
    {tag : Nat}
    {comm : Command}
    (hBefore : NotForwardedAgain history)
    (hUnserved : .served tag ∉ history) :
    NotForwardedAgain
      (history ++ [.forwarded tag comm]) := by
  unfold NotForwardedAgain
  rw [List.pairwise_append]
  refine ⟨hBefore, List.pairwise_singleton _ _, ?_⟩
  intro earlier hEarlier later hLater k comm' hServed
  rw [List.mem_singleton.mp hLater]
  intro hSame
  have hTag : tag = k :=
    (DispatchEvent.forwarded.inj hSame).1
  rw [hServed, ← hTag] at hEarlier
  exact hUnserved hEarlier

theorem not_notForwardedAgain
    {history : List DispatchEvent}
    {k : Nat}
    {c : Command}
    (hSub :
      [.served k, .forwarded k c].Sublist history) :
    ¬ NotForwardedAgain history := by
  intro hSettled
  have hPair := List.rel_of_pairwise_cons
    (List.Pairwise.sublist hSub hSettled)
    List.mem_cons_self
  exact hPair k c rfl rfl

theorem notForwardedAgain_served
    {history : List DispatchEvent}
    (hBefore : NotForwardedAgain history)
    (tags : List Nat) :
    NotForwardedAgain
      (history ++ tags.map DispatchEvent.served) := by
  unfold NotForwardedAgain
  have hServed :
      ∀ e ∈ tags.map DispatchEvent.served, ∀ k comm,
        e ≠ .forwarded k comm := by
    intro e he k comm hForwarded
    rcases List.mem_map.mp he with ⟨n, _, rfl⟩
    cases hForwarded
  rw [List.pairwise_append]
  refine ⟨hBefore, ?_, ?_⟩
  · exact List.Pairwise.imp_of_mem
      (fun _ hLater _ k comm _ => hServed _ hLater k comm)
      (List.pairwise_of_forall fun _ _ => trivial)
  · exact fun _ _ later hLater k comm _ =>
      hServed later hLater k comm

section Steps

variable {s : Dispatch}

/- A served request is in the queue, and was not done. -/
theorem mem_servedBy
    {change : StateChange}
    {k : Nat}
    (hServed : k ∈ s.servedBy change) :
    ∃ t ∈ s.outstanding, t.tag = k ∧
      Serves change t.request := by
  rcases List.mem_map.mp hServed with ⟨t, ht, hTag⟩
  rcases List.mem_filter.mp ht with ⟨hMem, hServes⟩
  exact ⟨t, hMem, hTag, of_decide_eq_true hServes⟩

/- The request that is served is done afterwards. -/
theorem isDone_acknowledge
    {change : StateChange}
    {delta : MillisecondTime}
    {newDeadline : Option TimePoint}
    {t : Tagged Nat}
    (hServes : Serves change t.request) :
    (t.acknowledge change delta newDeadline).isDone =
      true := by
  rcases hServes with
    ⟨hType, x, hCall, hChange, hElevator, hFloor⟩
  have hTrigger :
      t.request.triggerType = change.changeType := by
    rw [Request.triggerType_eq hCall, hType, hChange]
    rfl
  unfold Tagged.acknowledge
  rw [if_pos ⟨hElevator.symm, hTrigger, hFloor.symm⟩]
  simp [Tagged.isDone, hType]

/- Acknowledging keeps done requests done. -/
theorem isDone_of_isDone
    {change : StateChange}
    {delta : MillisecondTime}
    {newDeadline : Option TimePoint}
    {t : Tagged Nat}
    (hDone : t.isDone = true) :
    (t.acknowledge change delta newDeadline).isDone =
      true := by
  have hType : t.request.type = .done := by
    simpa [Tagged.isDone] using hDone
  unfold Tagged.acknowledge
  split
  · simp [Tagged.isDone, hType]
  · exact hDone

theorem served_mem_forwarded
    {history : List DispatchEvent}
    {k tag : Nat}
    {comm : Command} :
    .served k ∈ history ++ [.forwarded tag comm] ↔
      .served k ∈ history := by
  simp

theorem served_mem_served
    {history : List DispatchEvent}
    {k : Nat}
    {tags : List Nat} :
    .served k ∈ history ++
        tags.map DispatchEvent.served ↔
      .served k ∈ history ∨ k ∈ tags := by
  simp

theorem Inv.toNumbered
    (hInv : Inv s) :
    Numbered s :=
  { hInv with }

theorem inv_initial
    (clock : TimePoint) :
    Inv (initial clock) :=
  { numbered_initial clock with
    servedNumbered := fun _ hk => by cases hk
    unserved := fun hBusy => absurd rfl hBusy
    done := fun _ ht => by cases ht
    resending := fun _ hResending =>
      absurd rfl hResending.1
    early := fun _ _ _ hBlocked =>
      Waiter.noConfusion hBlocked
    settled := List.Pairwise.nil }

/- A number that has not been used is new. -/
theorem inv_dequeue
    {ops : List Op}
    (hInv : Inv s)
    (hOps : Schedules ops) :
    Inv { s with
      updates := s.updates + 1
      schedOps := ops } :=
  { numbered_dequeue hInv.toNumbered hOps, hInv with
    servedNumbered := fun k hk =>
      Nat.le_succ_of_le (hInv.servedNumbered k hk)
    unserved := fun _ hServed =>
      Nat.not_succ_le_self _ (hInv.servedNumbered _ hServed) }

/- The waiter goes on in any way but blocking. -/
theorem inv_waiter
    {waiter : Waiter}
    (hInv : Inv s)
    (hFree : ∀ d0 deadline now,
      waiter ≠ .blocked d0 deadline now)
    (hIdle : s.reqOps ≠ [] → waiter = .idle) :
    Inv { s with waiter := waiter } :=
  { hInv with
    idle := hIdle
    early := fun d0 deadline now hBlocked =>
      absurd hBlocked (hFree d0 deadline now) }

/- `_schedLoop` goes on with other operations. -/
theorem inv_schedOps
    {ops : List Op}
    (hInv : Inv s)
    (hBusy : s.schedOps ≠ [])
    (hOps : Schedules ops)
    (hMay : MayPush ops → MayPush s.schedOps) :
    Inv { s with schedOps := ops } :=
  { numbered_schedOps hInv.toNumbered hOps hMay, hInv with
    unserved := fun _ => hInv.unserved hBusy }

/- `_reqCheckLoop` goes on with other operations. -/
theorem inv_reqOps
    {ops : List Op}
    (hInv : Inv s)
    (hBusy : s.reqOps ≠ [])
    (hOps : Resends s.held s.reqTag ops) :
    Inv { s with reqOps := ops } :=
  { numbered_reqOps hInv.toNumbered hBusy hOps, hInv with
    resending := fun k hResending =>
      hInv.resending k ⟨hBusy, hResending.2⟩ }

theorem inv_forwarded
    {tag : Nat}
    {comm : Command}
    {commands : CommandQueues Command}
    (hInv : Inv s)
    (hUnserved : .served tag ∉ s.history) :
    Inv { s with
      commands := commands
      history := s.history ++ [.forwarded tag comm] } :=
  { hInv with
    servedNumbered := fun k hk =>
      hInv.servedNumbered k (served_mem_forwarded.mp hk)
    unserved := fun hBusy hServed =>
      hInv.unserved hBusy (served_mem_forwarded.mp hServed)
    done := fun t ht hServed =>
      hInv.done t ht (served_mem_forwarded.mp hServed)
    resending := fun k hResending hServed =>
      hInv.resending k hResending
        (served_mem_forwarded.mp hServed)
    settled :=
      notForwardedAgain_forwarded hInv.settled hUnserved }

------------------------------------------------------------
-- Steps of the Scheduling Thread
------------------------------------------------------------

/- A new request has a number no other request has. -/
theorem inv_push
    {r : Request}
    {comm : Command}
    (hInv : Inv s)
    (hOps : s.schedOps = [.push r, .forward comm])
    (hType : r.type = .notAcknowledged) :
    Inv { s with
      requests := s.requests.push ⟨s.updates, r⟩
      schedOps := [.forward comm] } := by
  have hPerm := RequestQueue.push_perm (q := s.requests)
    (t := ⟨s.updates, r⟩)
  have hUnserved : .served s.updates ∉ s.history :=
    hInv.unserved (by rw [hOps]; exact List.cons_ne_nil _ _)
  exact { numbered_push hInv.toNumbered hOps, hInv with
    unserved := fun _ => hUnserved
    done := by
      intro t ht hServed
      rcases List.mem_cons.mp (hPerm.mem_iff.mp ht) with
        rfl | hOld
      · exact absurd hServed hUnserved
      · exact hInv.done t hOld hServed
    early := by
      intro d0 deadline now hBlocked t ht
      rcases List.mem_cons.mp (hPerm.mem_iff.mp ht) with
        rfl | hOld
      · exact Or.inr (Or.inr hType)
      · exact hInv.early d0 deadline now hBlocked t hOld }

/- Only a change of the first kind matches a new request. -/
theorem triggerType_ne_served
    {r : Request}
    (hType : r.type = .notAcknowledged)
    (x : CallDirection) :
    r.triggerType ≠ x.served := by
  unfold Request.triggerType
  rw [hType]
  split
  · cases x <;> decide
  · cases x <;> decide
  · cases x <;> decide

/- A request that is neither new nor has a new deadline is
not made by an acknowledgement. -/
theorem isTweaked_or_new_acknowledge
    {change : StateChange}
    {delta : MillisecondTime}
    {now : TimePoint}
    {t : Tagged Nat}
    (hKind : delta ≠ 0 ∨
      ∃ x, change.changeType = CallDirection.served x)
    (hBefore : t.isTweaked = true ∨
      t.request.type = .notAcknowledged) :
    let t' := t.acknowledge change delta
      (if delta = 0 then none
        else some (now + milliseconds delta))
    t'.isTweaked = true ∨
      t'.request.type = .notAcknowledged := by
  dsimp only
  unfold Tagged.acknowledge
  split
  · next hMatch =>
      left
      by_cases hDelta : delta = 0
      · rcases hBefore with hTweak | hNew
        · simpa [Tagged.isTweaked, hDelta] using hTweak
        · rcases hKind with hNonzero | ⟨x, hServed⟩
          · exact absurd hDelta hNonzero
          · have hTrigger := hMatch.2.1
            rw [hServed] at hTrigger
            exact absurd hTrigger
              (triggerType_ne_served hNew x)
      · simp [Tagged.isTweaked, hDelta]
  · exact hBefore

/-
  The requests the change serves are done, unless one of
  them has been taken out; the condition excludes that.
-/
theorem inv_ack
    {change : StateChange}
    {delta : MillisecondTime}
    {now : TimePoint}
    (hInv : Inv s)
    (hKind : delta ≠ 0 ∨
      ∃ x, change.changeType = CallDirection.served x)
    (hUndisturbed : ∀ t ∈ s.outstanding,
      Serves change t.request → ¬ s.Resending t.tag) :
    Inv { s with
      requests := s.requests.ackRequest change delta now
      history := s.history ++
        (s.servedBy change).map DispatchEvent.served
      schedOps := [] } := by
  exact { numbered_ack hInv.toNumbered, hInv with
    servedNumbered := by
      intro k hk
      rcases served_mem_served.mp hk with hOld | hNew
      · exact hInv.servedNumbered k hOld
      · rcases mem_servedBy hNew with ⟨t, ht, rfl, _⟩
        exact hInv.numbered t ht
    unserved := fun hBusy => absurd rfl hBusy
    done := by
      intro t ht hServed
      simp only [RequestQueue.list_ackRequest,
        List.mem_map] at ht
      rcases ht with ⟨u, hu, rfl⟩
      rw [Tagged.tag_acknowledge] at hServed
      rcases served_mem_served.mp hServed with hOld | hNew
      · exact isDone_of_isDone (hInv.done u hu hOld)
      · rcases mem_servedBy hNew with ⟨v, hv, hTag, hServes⟩
        -- No other request has the number.
        have hSame : v = u :=
          List.inj_on_of_nodup_map hInv.nodup hv
            (mem_outstanding.mpr (Or.inl hu)) hTag
        rw [hSame] at hServes
        exact isDone_acknowledge hServes
    resending := by
      intro k hResending hServed
      rcases served_mem_served.mp hServed with hOld | hNew
      · exact hInv.resending k hResending hOld
      · rcases mem_servedBy hNew with ⟨t, ht, rfl, hServes⟩
        exact hUndisturbed t ht hServes hResending
    early := by
      intro d0 deadline now' hBlocked t ht
      simp only [RequestQueue.list_ackRequest,
        List.mem_map] at ht
      rcases ht with ⟨u, hu, rfl⟩
      rw [Tagged.deadline_acknowledge]
      rcases hInv.early d0 deadline now' hBlocked u hu with
        hLater | hBefore
      · exact Or.inl hLater
      · exact Or.inr
          (isTweaked_or_new_acknowledge hKind hBefore)
    settled := notForwardedAgain_served hInv.settled _ }

/- What an operation of `_schedLoop` preserves. -/
theorem inv_schedule
    {bounds : BasicDriverInfo}
    {localElevId : Int}
    {read : TimePoint}
    {op : Op}
    {ops : List Op}
    (hInv : Inv s)
    (hOps : s.schedOps = op :: ops)
    (hUndisturbed : Undisturbed (.schedule read) s) :
    Inv (s.schedule bounds localElevId read op ops) := by
  have hBusy : s.schedOps ≠ [] := by
    rw [hOps]
    exact List.cons_ne_nil _ _
  have hSchedules := hInv.schedules
  rw [hOps] at hSchedules
  have hProceed :
      Schedules ops → Inv { s with schedOps := ops } := by
    intro hRest
    apply inv_schedOps hInv hBusy hRest
    rw [hOps]
    exact MayPush.cons
  cases hSchedules with
  | update state hRest => exact { hProceed hRest with }
  | propagate update hRest => exact { hProceed hRest with }
  | forward comm hRest =>
      exact inv_forwarded (hProceed hRest)
        (hInv.unserved hBusy)
  | choose type floor =>
      rw [schedule_choose]
      cases optimalElevator bounds (nowAt read) type floor
          s.globalState.elevators with
      | error e =>
          exact inv_schedOps hInv hBusy .done
            fun hMay => absurd hMay not_mayPush_nil
      | ok minId =>
          apply inv_schedOps hInv hBusy (.push _ _ rfl)
          intro _
          rw [hOps]
          exact ⟨.optimalElevator type floor,
            List.mem_cons_self, Or.inr ⟨type, floor, rfl⟩⟩
  | push r comm hType => exact inv_push hInv hOps hType
  | going change =>
      exact inv_ack hInv (Or.inl (by decide))
        (hUndisturbed read change _ _ rfl hOps)
  | served x change hServed =>
      exact inv_ack hInv (Or.inr ⟨x, hServed⟩)
        (hUndisturbed read change _ _ rfl hOps)

------------------------------------------------------------
-- Steps of the Checking Thread
------------------------------------------------------------

/- A request that is pushed back keeps its number. -/
theorem inv_pushBack
    {t : Tagged Nat}
    {r : Request}
    {comm : Command}
    (hInv : Inv s)
    (hOps : s.reqOps = [.push r, .forward comm])
    (hHeld : s.held = some t)
    (hTag : s.reqTag = t.tag) :
    Inv { s with
      requests := s.requests.push ⟨s.reqTag, r⟩
      held := none
      reqOps := [.forward comm] } := by
  have hPerm := RequestQueue.push_perm (q := s.requests)
    (t := ⟨s.reqTag, r⟩)
  have hBusy : s.reqOps ≠ [] := by
    rw [hOps]
    exact List.cons_ne_nil _ _
  exact { numbered_pushBack hInv.toNumbered hBusy hHeld
      hTag, hInv with
    done := by
      intro u hu hServed
      rcases List.mem_cons.mp (hPerm.mem_iff.mp hu) with
        rfl | hOld
      · exact absurd hServed
          (hInv.resending s.reqTag ⟨hBusy, rfl⟩)
      · exact hInv.done u hOld hServed
    resending := fun k hResending =>
      hInv.resending k ⟨hBusy, hResending.2⟩
    early := fun d0 deadline now hBlocked => by
      have hIdle : s.waiter = .idle := hInv.idle hBusy
      exact absurd (hIdle.symm.trans hBlocked)
        Waiter.noConfusion }

/- A request that cannot be resent is lost. -/
theorem inv_abandon
    (hInv : Inv s) :
    Inv { s with held := none, reqOps := [] } :=
  { numbered_abandon hInv.toNumbered, hInv with
    resending := fun _ hResending =>
      absurd rfl hResending.1 }

/- What an operation of `_reqCheckLoop` preserves. -/
theorem inv_check
    {bounds : BasicDriverInfo}
    {localElevId : Int}
    {read : TimePoint}
    {op : Op}
    {ops : List Op}
    (hInv : Inv s)
    (hOps : s.reqOps = op :: ops) :
    Inv (s.check bounds localElevId read op ops) := by
  have hBusy : s.reqOps ≠ [] := by
    rw [hOps]
    exact List.cons_ne_nil _ _
  have hResends := hInv.resends
  rw [hOps] at hResends
  generalize hHeld : s.held = held at hResends
  generalize hTag : s.reqTag = tag at hResends
  cases hResends with
  | resend t r =>
      have hNext :
          Resends s.held s.reqTag
            (resendRequest r read ++ []) := by
        rw [hHeld, hTag, List.append_nil]
        unfold resendRequest
        dsimp only
        split
        · exact .reschedule t _
        · exact .push t _ _
      exact inv_reqOps hInv hBusy hNext
  | reschedule t r =>
      rw [check_reschedule]
      cases optimalElevator bounds (nowAt read)
          (requestButton r) r.command.targetFloor
          s.globalState.elevators with
      | error e => exact inv_abandon hInv
      | ok minId =>
          apply inv_reqOps hInv hBusy
          rw [hHeld, hTag]
          exact .push t _ _
  | push t r comm => exact inv_pushBack hInv hOps hHeld hTag
  | forward tag comm =>
      have hUnserved : .served s.reqTag ∉ s.history :=
        hInv.resending s.reqTag ⟨hBusy, rfl⟩
      have hProceed :
          Inv { s with held := none, reqOps := [] } :=
        inv_abandon hInv
      have hForwarded :
          Inv (s.check bounds localElevId read
            (.forward comm) []) := by
        unfold check execute heldAfter
        dsimp only
        rw [hHeld]
        exact inv_forwarded hProceed hUnserved
      exact hForwarded

/- Cleaning keeps the numbers and the types. -/
theorem inv_cleaned
    (hInv : Inv s)
    (hFree : ∀ d0 deadline now,
      s.waiter ≠ .blocked d0 deadline now) :
    Inv s.cleaned := by
  have hSettles := RequestQueue.clean_settles s.requests
  exact { numbered_cleaned hInv.toNumbered, hInv with
    done := by
      intro t ht hServed
      rcases hSettles.origin t
        (List.mem_append_right _ ht) with ⟨u, hu, hSettled⟩
      rcases hSettled with rfl | rfl
      · exact hInv.done t hu hServed
      · rw [Tagged.tag_settle] at hServed
        rw [Tagged.isDone_settle]
        exact hInv.done u hu hServed
    early := fun d0 deadline now hBlocked =>
      absurd hBlocked (hFree d0 deadline now) }

/- A request may leave the queue. -/
theorem inv_dropTop
    {t : Tagged Nat}
    (hInv : Inv s)
    (hOps : s.reqOps = [])
    (hTop : s.requests.top? = some t) :
    Inv { s with
      requests := s.requests.pop
      waiter := .idle } := by
  have hPerm := RequestQueue.pop_perm hTop
  have hOld :
      ∀ u ∈ s.requests.pop.list, u ∈ s.requests.list :=
    fun u hu =>
      hPerm.mem_iff.mpr (List.mem_cons_of_mem t hu)
  exact { numbered_dropTop hInv.toNumbered hOps hTop,
      hInv with
    done := fun u hu => hInv.done u (hOld u hu)
    early := fun d0 deadline now hBlocked =>
      Waiter.noConfusion hBlocked }

/- A request that is taken out is in hand. It has not been
served, as it is not done. -/
theorem inv_takeTop
    {t : Tagged Nat}
    (hInv : Inv s)
    (hOps : s.reqOps = [])
    (hTop : s.requests.top? = some t)
    (hDone : t.isDone = false) :
    Inv { s with
      requests := s.requests.pop
      waiter := .idle
      held := some t
      reqTag := t.tag
      reqOps := [.resend t.request] } := by
  exact { numbered_takeTop hInv.toNumbered hOps hTop,
      inv_dropTop hInv hOps hTop with
    resending := by
      rintro k ⟨_, hTag⟩ hServed
      rw [← show t.tag = k from hTag] at hServed
      have hMust := hInv.done t
        (RequestQueue.mem_top hTop) hServed
      rw [hDone] at hMust
      cases hMust }

/- The wait returns a request that is not done. -/
theorem inv_take
    {now : TimePoint}
    (hInv : Inv s)
    (hOps : s.reqOps = [])
    (hTop : ∀ t, s.requests.top? = some t →
      t.deadline ≤ now → t.isTweaked = false →
      t.isDone = false) :
    Inv (s.take now) := by
  rcases take_cases s now with
    hNone | ⟨t, hFirst, hDue, ⟨hTweak, hSome⟩ | ⟨_, hFails⟩⟩
  · rw [hNone]
    exact inv_waiter hInv
      (fun _ _ _ => Waiter.noConfusion) (fun _ => rfl)
  · rw [hSome]
    exact inv_takeTop hInv hOps hFirst
      (hTop t hFirst hDue hTweak)
  · rw [hFails]
    exact inv_dropTop hInv hOps hFirst

theorem inv_pass
    {d0 : TimePoint}
    (hInv : Inv s)
    (hCalled : s.waiter = .called d0) :
    Inv (s.pass d0) := by
  have hFree :
      ∀ d0 deadline now,
        s.waiter ≠ .blocked d0 deadline now := by
    intro d0' deadline now hBlocked
    rw [hCalled] at hBlocked
    cases hBlocked
  have hOps : s.reqOps = [] := by
    apply hInv.toNumbered.reqOps_eq_nil
    rw [hCalled]
    exact Waiter.noConfusion
  have hCleaned : Inv s.cleaned := inv_cleaned hInv hFree
  have hReady := RequestQueue.topReady_clean s.requests
  rw [pass_eq]
  by_cases hDue :
      s.cleaned.requests.earliestDeadline d0 ≤ s.clock
  · rw [if_pos hDue]
    apply inv_take hCleaned hOps
    intro t hTop _ _
    have hDone := hReady.1
    rw [RequestQueue.topDone] at hDone
    change s.requests.clean.1.top? = some t at hTop
    simpa [hTop] using hDone
  · rw [if_neg hDue]
    exact { hCleaned with
      idle := fun hBusy => absurd hOps hBusy
      early := by
        intro d0' deadline now hBlocked t ht
        rcases Waiter.blocked.inj hBlocked with ⟨_, _, hNow⟩
        rw [← hNow]
        exact Or.inl
          (RequestQueue.lt_deadline_of_early hDue t ht) }

/-
  After a timeout the waiter takes the top without cleaning.
  A request that is done by then has a new deadline, so that
  the assertion drops it.
-/
theorem inv_expire
    {d0 deadline now : TimePoint}
    (hInv : Inv s)
    (hBlocked : s.waiter = .blocked d0 deadline now) :
    Inv (s.take now) := by
  have hOps : s.reqOps = [] := by
    apply hInv.toNumbered.reqOps_eq_nil
    rw [hBlocked]
    exact Waiter.noConfusion
  apply inv_take hInv hOps
  intro t hTop hDue hTweak
  rcases hInv.early d0 deadline now hBlocked t
      (RequestQueue.mem_top hTop) with
    hLater | hTweaked | hNew
  · exact absurd hDue (not_le.mpr hLater)
  · rw [hTweak] at hTweaked
    cases hTweaked
  · simp [Tagged.isDone, hNew]

------------------------------------------------------------
-- Runs
------------------------------------------------------------

theorem inv_of_step
    {bounds : BasicDriverInfo}
    {localElevId : Int}
    {a : Action}
    {s' : Dispatch}
    (hInv : Inv s)
    (hUndisturbed : Undisturbed a s)
    (hStep : step bounds localElevId a s = some s') :
    Inv s' := by
  cases transition_of_step hStep with
  | tick hClock => exact { hInv with }
  | @dequeue _ update hOps =>
      exact inv_dequeue hInv
        (schedules_schedLoop localElevId update)
  | schedule hOps hRead =>
      exact inv_schedule hInv hOps hUndisturbed
  | wait hIdle hOps =>
      exact inv_waiter hInv
        (fun _ _ _ => Waiter.noConfusion)
        (fun hBusy => absurd hOps hBusy)
  | pass hCalled => exact inv_pass hInv hCalled
  | wake hBlocked =>
      have hOps : s.reqOps = [] := by
        apply hInv.toNumbered.reqOps_eq_nil
        rw [hBlocked]
        exact Waiter.noConfusion
      exact inv_waiter hInv
        (fun _ _ _ => Waiter.noConfusion)
        (fun hBusy => absurd hOps hBusy)
  | expire hBlocked hExpired =>
      exact inv_expire hInv hBlocked
  | check hOps hRead => exact inv_check hInv hOps

end Steps

/-
  While no change is processed that serves a request
  `_reqCheckLoop` is about to send again, no command is
  forwarded for a request that has been served.
-/
theorem served_not_forwarded
    {bounds : BasicDriverInfo}
    {localElevId : Int}
    {s : Dispatch}
    (hReach :
      (system bounds localElevId Undisturbed).Reachable s) :
    NotForwardedAgain s.history := by
  have hInv : Inv s := by
    apply hReach.invariant
    · rintro _ ⟨clock, rfl⟩
      exact inv_initial clock
    · rintro s s' hInv ⟨a, hUndisturbed, hStep⟩
      exact inv_of_step hInv hUndisturbed hStep
  exact hInv.settled

------------------------------------------------------------
-- A Served Request
------------------------------------------------------------

/- The elevator 0 at the lowest floor of a shaft of four. -/
def atBottom
    (timestamp : MillisecondTime) : ElevatorState :=
  { ElevatorState.default with
    id := 0
    timestamp := timestamp
    lastFloor := 0 }

/- The floors from 0 to 3. -/
def fourFloors : BasicDriverInfo := ⟨0, 3⟩

/- The request for a call from the floor above. -/
def callRequest : Request :=
  Request.create ⟨.callToFloorAndGoUp, 0, 1⟩ 100 0

/- The button for going up is pressed above. -/
def callUp : StateChange :=
  ⟨.buttonUpPressed, 1, atBottom 0⟩

/- The elevator is going to serve the call. -/
def goingUp : StateChange :=
  ⟨.goingToServeUp, 1, atBottom 0⟩

/- The elevator has served the call. -/
def servedUp
    (timestamp : MillisecondTime) : StateChange :=
  ⟨.servedUp, 1, atBottom timestamp⟩

/- The request for the call has been pushed. -/
def pushed : Dispatch :=
  { initial 0 with
    globalState := GlobalState.empty.update (atBottom 0)
    requests := .single ⟨1, callRequest⟩
    commands := ⟨[⟨.turnOnLightUp, Command.anyId, 1⟩],
      [⟨.turnOnLightUp, Command.anyId, 1⟩]⟩
    stateUpdateOut := [callUp]
    updates := 1
    schedOps := [.forward callRequest.command]
    history :=
      [.forwarded 1 ⟨.turnOnLightUp, Command.anyId, 1⟩] }

/- Nothing is resent before the first wait has returned. -/
theorem Reachable.step_idle
    {s s' : Dispatch}
    (hReach :
      (system fourFloors 0 Undisturbed).Reachable s)
    (a : Action)
    (hIdle : s.reqOps = [])
    (hStep : step fourFloors 0 a s = some s') :
    (system fourFloors 0 Undisturbed).Reachable s' := by
  refine hReach.step ⟨a, ?_, hStep⟩
  intro _ _ _ _ _ _ _ _ _ hResending
  exact hResending.1 hIdle

theorem reachable_pushed :
    (system fourFloors 0 Undisturbed).Reachable pushed := by
  have hInit :
      (system fourFloors 0 Undisturbed).Reachable
        (initial 0) :=
    TransitionSystem.Reachable.init ⟨0, rfl⟩
  have hDequeued :=
    Reachable.step_idle hInit (.dequeue callUp) rfl rfl
  have hUpdated :=
    Reachable.step_idle hDequeued (.schedule 0) rfl rfl
  have hPropagated :=
    Reachable.step_idle hUpdated (.schedule 0) rfl rfl
  have hLit :=
    Reachable.step_idle hPropagated (.schedule 0) rfl rfl
  have hChosen :=
    Reachable.step_idle hLit (.schedule 0) rfl rfl
  have hPushed :
      { pushed with
        requests := RequestQueue.empty.push
          ⟨1, callRequest⟩ } = pushed := by
    rw [RequestQueue.push_empty]
    rfl
  exact Reachable.step_idle hChosen (.schedule 0) rfl
    (congrArg some hPushed)

/- The acknowledgement of the request has been processed. -/
def acknowledged : Dispatch :=
  { pushed with
    globalState :=
      (GlobalState.empty.update (atBottom 0)).update
        (atBottom 0)
    requests := .single
      (Tagged.acknowledge goingUp (30 * 1000)
        (some (milliseconds (30 * 1000)))
        ⟨1, callRequest⟩)
    commands := ⟨[⟨.turnOnLightUp, Command.anyId, 1⟩,
      callRequest.command],
      [⟨.turnOnLightUp, Command.anyId, 1⟩]⟩
    stateUpdateOut := [callUp, goingUp]
    updates := 2
    schedOps := []
    history :=
      [.forwarded 1 ⟨.turnOnLightUp, Command.anyId, 1⟩,
        .forwarded 1 callRequest.command] }

theorem reachable_acknowledged :
    (system fourFloors 0 Undisturbed).Reachable
      acknowledged := by
  have hForwarded := Reachable.step_idle reachable_pushed
    (.schedule 0) rfl rfl
  have hDequeued := Reachable.step_idle hForwarded
    (.dequeue goingUp) rfl rfl
  have hUpdated := Reachable.step_idle hDequeued
    (.schedule 0) rfl rfl
  have hPropagated := Reachable.step_idle hUpdated
    (.schedule 0) rfl rfl
  have hAcknowledged :
      { acknowledged with
        requests := pushed.requests.ackRequest goingUp
          (30 * 1000) 0 } = acknowledged := by
    have hMarked := RequestQueue.ackRequest_single goingUp
      (30 * 1000) 0 ⟨1, callRequest⟩
    unfold pushed
    rw [hMarked]
    rfl
  exact Reachable.step_idle hPropagated
    (.schedule 0) rfl (congrArg some hAcknowledged)

/- A request that is in the queue when it is served is not
sent again. -/
theorem served_not_forwarded_callUp :
    ∃ s, (system fourFloors 0 Undisturbed).Reachable s ∧
      .served 1 ∈ s.history ∧
      NotForwardedAgain s.history := by
  have hDequeued := Reachable.step_idle
    reachable_acknowledged (.dequeue (servedUp 0)) rfl rfl
  have hUpdated := Reachable.step_idle hDequeued
    (.schedule 0) rfl rfl
  have hPropagated := Reachable.step_idle hUpdated
    (.schedule 0) rfl rfl
  have hDarkened := Reachable.step_idle hPropagated
    (.schedule 0) rfl rfl
  have hServed := Reachable.step_idle hDarkened
    (.schedule 0) rfl rfl
  exact ⟨_, hServed, by decide,
    served_not_forwarded hServed⟩

/- The request the wait returns after the deadline. -/
def expired : Tagged Nat :=
  (Tagged.acknowledge goingUp (30 * 1000)
    (some (milliseconds (30 * 1000)))
    ⟨1, callRequest⟩).settle

/- The request has been taken out after 31 seconds. -/
def taken : Dispatch :=
  { acknowledged with
    clock := milliseconds 31000
    requests := .empty
    held := some expired
    reqTag := 1
    reqOps := [.resend expired.request] }

theorem reachable_taken :
    (system fourFloors 0 Undisturbed).Reachable taken := by
  have hTicked := Reachable.step_idle reachable_acknowledged
    (.tick (milliseconds 31000)) rfl rfl
  have hCalled := Reachable.step_idle hTicked
    (.wait (milliseconds 31100)) rfl rfl
  have hClean :
      acknowledged.requests.clean.1 = .single expired :=
    congrArg Prod.fst (RequestQueue.clean_single rfl)
  have hTaken :
      Dispatch.pass (milliseconds 31100)
        { acknowledged with
          clock := milliseconds 31000
          waiter := .called (milliseconds 31100) } =
        taken := by
    have hTake :
        (RequestQueue.single expired).takeDue
            (milliseconds 31000) =
          (.empty, .ok (some expired)) := by
      rw [← RequestQueue.pop_single expired]
      rfl
    rw [pass_eq]
    unfold cleaned SchedulerState.cleaned
    dsimp only
    rw [hClean, if_pos (by decide)]
    unfold take SchedulerState.take SchedulerState.proceed
      SchedulerState.call WaitCall.finish
    dsimp only
    rw [hTake]
    rfl
  exact Reachable.step_idle hCalled .pass rfl
    (congrArg some hTaken)

/-
  The request is served when it has been taken out. Its type
  is as before, and it is rescheduled and sent again.
-/
theorem resend_forwards_served :
    ∃ s, (system fourFloors 0 fun _ _ => True).Reachable s ∧
      ¬ NotForwardedAgain s.history := by
  have hTaken :
      (system fourFloors 0 fun _ _ => True).Reachable
        taken := by
    apply reachable_taken.mono
      (N := system fourFloors 0 fun _ _ => True)
    · exact fun _ hInit => hInit
    · rintro s s' ⟨a, _, hStep⟩
      exact ⟨a, trivial, hStep⟩
  have hDequeued := hTaken.step
    ⟨.dequeue (servedUp 31000), trivial, rfl⟩
  have hUpdated := hDequeued.step
    ⟨.schedule (milliseconds 31000), trivial, rfl⟩
  have hPropagated := hUpdated.step
    ⟨.schedule (milliseconds 31000), trivial, rfl⟩
  have hDarkened := hPropagated.step
    ⟨.schedule (milliseconds 31000), trivial, rfl⟩
  have hServed := hDarkened.step
    ⟨.schedule (milliseconds 31000), trivial, rfl⟩
  have hResent := hServed.step
    ⟨.check (milliseconds 31000), trivial, rfl⟩
  have hRescheduled := hResent.step
    ⟨.check (milliseconds 31000), trivial, rfl⟩
  have hPushed := hRescheduled.step
    ⟨.check (milliseconds 31000), trivial, rfl⟩
  have hForwarded := hPushed.step
    ⟨.check (milliseconds 31000), trivial, rfl⟩
  exact ⟨_, hForwarded,
    not_notForwardedAgain (k := 1)
      (c := callRequest.command) (by decide)⟩

end Dispatch

end ElevatorControl
