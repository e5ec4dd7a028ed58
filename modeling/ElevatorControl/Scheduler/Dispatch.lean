import ElevatorControl.Requests.Conservation
import ElevatorControl.Scheduler.Operations

/-
  The two threads of a scheduler in one run.

  `_schedLoop` handles the state changes of all elevators,
  which arrive in any order; `_reqCheckLoop` sends requests
  again whose deadlines have passed. A thread takes one
  operation on shared data in a step, and the steps
  interleave in any order.

  A request carries the number of the state change it was
  made for. The history records which requests have been
  served, and which have had a command forwarded.

  Key definitions include:
    * `Dispatch`
    * `Dispatch.execute`
    * `Dispatch.step`
    * `Dispatch.Schedules` and `Dispatch.Resends`

  Key theorems include:
    * `Dispatch.schedule_choose`
    * `Dispatch.check_reschedule`
    * `Dispatch.schedules_schedLoop`
-/

------------------------------------------------------------
-- Threads
------------------------------------------------------------

namespace ElevatorControl

/- What happens to requests. -/
inductive DispatchEvent where
  | served (tag : Nat)
  | forwarded (tag : Nat) (command : Command)
  deriving DecidableEq

/-
  `updates` counts the state changes `_schedLoop` has
  dequeued; while `schedOps` is not empty, the last one is
  being handled. `reqOps` is what `_reqCheckLoop` does with
  the request `reqTag`, which its wait has returned last.
  `held` is that request, as it was returned, until it is
  pushed back.
-/
structure Dispatch extends SchedulerState Nat where
  clock : TimePoint
  updates : Nat
  held : Option (Tagged Nat)
  reqTag : Nat
  history : List DispatchEvent

namespace Dispatch

open Scheduler

/- The requests in the queue, and the one that has been taken
out and not been pushed back. -/
def outstanding
    (s : Dispatch) : List (Tagged Nat) :=
  s.requests.list ++ s.held.toList

/- The change reports that the elevator has served the call
of a request that is not done. -/
def Serves
    (change : StateChange)
    (r : Request) : Prop :=
  r.type = .notDone ∧
    ∃ x, r.command.commandType = CallDirection.call x ∧
      QueueSystem.Matches r.command x.served change

instance
    (change : StateChange)
    (r : Request) :
    Decidable (Serves change r) :=
  decidable_of_iff
    (r.type = .notDone ∧
      ∃ x ∈ [CallDirection.up, CallDirection.down],
        r.command.commandType = x.call ∧
          change.changeType = x.served ∧
          change.state.id = r.command.targetElevatorId ∧
          change.changeFloor = r.command.targetFloor)
    (and_congr_right fun _ =>
      ⟨fun ⟨x, _, hx⟩ => ⟨x, hx⟩,
        fun ⟨x, hx⟩ => ⟨x, by cases x <;> decide, hx⟩⟩)

/- The numbers of the requests the change serves. -/
def servedBy
    (change : StateChange)
    (s : Dispatch) : List Nat :=
  (s.outstanding.filter fun t =>
    decide (Serves change t.request)).map Tagged.tag

/- Milliseconds of the steady clock. -/
def nowAt
    (clock : TimePoint) : MillisecondTime :=
  clock / 1000000

/- The history after an operation for the request `tag`. -/
def recorded
    (tag : Nat)
    (op : Op)
    (s : Dispatch) : List DispatchEvent :=
  match op with
  | .forward comm => s.history ++ [.forwarded tag comm]
  | .ackRequest change _ =>
      s.history ++
        (s.servedBy change).map DispatchEvent.served
  | _ => s.history

/- Carry out one operation for the request `tag`, and return
what comes after it. -/
def execute
    (bounds : BasicDriverInfo)
    (localElevId : Int)
    (clock : TimePoint)
    (tag : Nat)
    (op : Op)
    (s : Dispatch) : Except AssertionFailed
      (Dispatch × List Op) :=
  (s.toSchedulerState.execute bounds localElevId
      (nowAt clock) clock tag op).map fun r =>
    ({ s with
      toSchedulerState := r.1
      history := s.recorded tag op }, r.2)

------------------------------------------------------------
-- Steps
------------------------------------------------------------

/- `_schedLoop` carries out one operation. After a failed
assertion its restart wrapper enters it again. -/
def schedule
    (bounds : BasicDriverInfo)
    (localElevId : Int)
    (clock : TimePoint)
    (op : Op)
    (ops : List Op)
    (s : Dispatch) : Dispatch :=
  match s.execute bounds localElevId clock s.updates op with
  | .ok (t, next) => { t with schedOps := next ++ ops }
  | .error _ => { s with schedOps := [] }

/- The request in hand after an operation of
`_reqCheckLoop`. -/
def heldAfter
    (op : Op)
    (held : Option (Tagged Nat)) : Option (Tagged Nat) :=
  match op with
  | .push _ => none
  | _ => held

/- `_reqCheckLoop` carries out one operation. After a failed
assertion its restart wrapper enters it again. -/
def check
    (bounds : BasicDriverInfo)
    (localElevId : Int)
    (clock : TimePoint)
    (op : Op)
    (ops : List Op)
    (s : Dispatch) : Dispatch :=
  match s.execute bounds localElevId clock s.reqTag op with
  | .ok (t, next) =>
      { t with
        held := heldAfter op s.held
        reqOps := next ++ ops }
  | .error _ => { s with held := none, reqOps := [] }

section Choices

variable {bounds : BasicDriverInfo}
variable {localElevId : Int}
variable {clock : TimePoint}
variable {s : Dispatch}

/- A choice for a press is followed by the call of the
elevator that is chosen, or leaves nothing to do. -/
theorem schedule_choose
    {type : ButtonType}
    {floor : Int}
    {ops : List Op} :
    s.schedule bounds localElevId clock
        (.optimalElevator type floor) ops =
      match optimalElevator bounds (nowAt clock) type floor
          s.globalState.elevators with
      | .ok minId =>
          { s with
            schedOps :=
              callElevator type floor minId clock ++ ops }
      | .error _ => { s with schedOps := [] } := by
  unfold schedule execute
  rw [SchedulerState.execute_choose]
  cases optimalElevator bounds (nowAt clock) type floor
      s.globalState.elevators with
  | ok minId => rfl
  | error e => rfl

/- A choice for a request is followed by pushing it back, or
drops it. -/
theorem check_reschedule
    {r : Request}
    {ops : List Op} :
    s.check bounds localElevId clock (.reschedule r) ops =
      match optimalElevator bounds (nowAt clock)
          (requestButton r) r.command.targetFloor
          s.globalState.elevators with
      | .ok minId =>
          { s with
            reqOps :=
              pushAndForward (rescheduled r minId) clock ++
                ops }
      | .error _ => { s with held := none, reqOps := [] } := by
  unfold check execute
  rw [SchedulerState.execute_reschedule]
  cases optimalElevator bounds (nowAt clock)
      (requestButton r) r.command.targetFloor
      s.globalState.elevators with
  | ok minId => rfl
  | error e => rfl

end Choices

/- The operations of a resend come next. -/
theorem check_resend
    {bounds : BasicDriverInfo}
    {localElevId : Int}
    {clock : TimePoint}
    {r : Request}
    {ops : List Op}
    {s : Dispatch} :
    s.check bounds localElevId clock (.resend r) ops =
      { s with reqOps := resendRequest r clock ++ ops } :=
  rfl

/- A request that the wait has returned is in hand. -/
def hold
    (r : SchedulerState Nat × Option (Tagged Nat))
    (s : Dispatch) : Dispatch :=
  { s with
    toSchedulerState := r.1
    held := r.2.or s.held
    reqTag := (r.2.map Tagged.tag).getD s.reqTag }

/- The wait ends. -/
def take
    (clock : TimePoint)
    (s : Dispatch) : Dispatch :=
  s.hold (s.toSchedulerState.take clock)

/- The cleaning loop of the waiter. -/
def cleaned
    (s : Dispatch) : Dispatch :=
  { s with toSchedulerState := s.toSchedulerState.cleaned }

/- One pass of the waiter. -/
def pass
    (d0 : TimePoint)
    (s : Dispatch) : Dispatch :=
  s.hold (s.toSchedulerState.pass d0 s.clock)

/- A pass cleans the queue, and takes what is due or
blocks. -/
theorem pass_eq
    (d0 : TimePoint)
    (s : Dispatch) :
    s.pass d0 =
      if s.cleaned.requests.earliestDeadline d0 ≤ s.clock then
        s.cleaned.take s.clock
      else
        { s.cleaned with
          waiter := .blocked d0
            (s.cleaned.requests.earliestDeadline d0)
            s.clock } := by
  have hPass := SchedulerState.pass_eq d0 s.clock
    s.toSchedulerState
  by_cases hDue :
      s.cleaned.requests.earliestDeadline d0 ≤ s.clock
  · rw [if_pos hDue]
    exact congrArg (fun r => hold r s)
      (hPass.trans (if_pos hDue))
  · rw [if_neg hDue]
    exact congrArg (fun r => hold r s)
      (hPass.trans (if_neg hDue))

/- The steps of the clock and of the threads. An operation
uses a value it has read from the clock. -/
inductive Action where
  | tick (clock : TimePoint)
  | dequeue (update : StateChange)
  | schedule (read : TimePoint)
  | wait (d0 : TimePoint)
  | pass
  | wake
  | expire
  | check (read : TimePoint)

/- The state after an action, if it can be taken. -/
def step
    (bounds : BasicDriverInfo)
    (localElevId : Int)
    (a : Action)
    (s : Dispatch) : Option Dispatch :=
  match a with
  | .tick clock =>
      if s.clock ≤ clock then some { s with clock := clock }
      else none
  | .dequeue update =>
      if s.schedOps = [] then
        some { s with
          updates := s.updates + 1
          schedOps := schedLoop localElevId update }
      else none
  | .schedule read =>
      match s.schedOps with
      | op :: ops =>
          if read ≤ s.clock then
            some (s.schedule bounds localElevId read op ops)
          else none
      | [] => none
  | .wait d0 =>
      match s.waiter with
      | .idle =>
          if s.reqOps = [] then
            some { s with waiter := .called d0 }
          else none
      | _ => none
  | .pass =>
      match s.waiter with
      | .called d0 => some (s.pass d0)
      | _ => none
  | .wake =>
      match s.waiter with
      | .blocked d0 _ _ =>
          some { s with waiter := .called d0 }
      | _ => none
  | .expire =>
      match s.waiter with
      | .blocked _ deadline now =>
          if deadline ≤ s.clock then some (s.take now)
          else none
      | _ => none
  | .check read =>
      match s.reqOps with
      | op :: ops =>
          if read ≤ s.clock then
            some (s.check bounds localElevId read op ops)
          else none
      | [] => none

/- The scheduler when its threads have been started. -/
def initial
    (clock : TimePoint) : Dispatch where
  toSchedulerState := .initial Nat
  clock := clock
  updates := 0
  held := none
  reqTag := 0
  history := []

/- The runs whose actions all meet a condition. -/
def system
    (bounds : BasicDriverInfo)
    (localElevId : Int)
    (C : Action → Dispatch → Prop) :
    TransitionSystem Dispatch where
  Init s := ∃ clock, s = initial clock
  Step s s' := ∃ a, C a s ∧
    step bounds localElevId a s = some s'

------------------------------------------------------------
-- Remaining Operations
------------------------------------------------------------

/- What `_schedLoop` may still have to do for a change. -/
inductive Schedules : List Op → Prop where
  | done : Schedules []
  | update
      (state : ElevatorState)
      {ops : List Op}
      (hRest : Schedules ops) :
      Schedules (.update state :: ops)
  | propagate
      (update : StateChange)
      {ops : List Op}
      (hRest : Schedules ops) :
      Schedules (.propagate update :: ops)
  | forward
      (comm : Command)
      {ops : List Op}
      (hRest : Schedules ops) :
      Schedules (.forward comm :: ops)
  | choose
      (type : ButtonType)
      (floor : Int) :
      Schedules [.optimalElevator type floor]
  | push
      (r : Request)
      (comm : Command)
      (hType : r.type = .notAcknowledged) :
      Schedules [.push r, .forward comm]
  | going
      (change : StateChange) :
      Schedules [.ackRequest change (30 * 1000)]
  | served
      (x : CallDirection)
      (change : StateChange)
      (hServed : change.changeType = x.served) :
      Schedules [.ackRequest change 0]

/- What `_reqCheckLoop` may still have to do for a request,
and whether it is in hand. -/
inductive Resends :
    Option (Tagged Nat) → Nat → List Op → Prop where
  | done (tag : Nat) : Resends none tag []
  | resend
      (t : Tagged Nat)
      (r : Request) :
      Resends (some t) t.tag [.resend r]
  | reschedule
      (t : Tagged Nat)
      (r : Request) :
      Resends (some t) t.tag [.reschedule r]
  | push
      (t : Tagged Nat)
      (r : Request)
      (comm : Command) :
      Resends (some t) t.tag [.push r, .forward comm]
  | forward
      (tag : Nat)
      (comm : Command) :
      Resends none tag [.forward comm]

theorem schedules_handleButtonPress
    (localElevId updateElId : Int)
    (type : ButtonType)
    (floor : Int) :
    Schedules (handleButtonPress localElevId updateElId type
      floor) := by
  unfold handleButtonPress
  apply Schedules.forward
  split
  · exact Schedules.choose type floor
  · exact Schedules.done

theorem schedules_schedLoop
    (localElevId : Int)
    (update : StateChange) :
    Schedules (schedLoop localElevId update) := by
  have hChange :
      Schedules (handleChange localElevId update) := by
    unfold handleChange
    split
    case h_6 => exact schedules_handleButtonPress _ _ _ _
    case h_7 => exact schedules_handleButtonPress _ _ _ _
    case h_8 hType =>
      exact .forward _ (.served .down update hType)
    case h_9 hType =>
      exact .forward _ (.served .up update hType)
    case h_10 => exact .going update
    case h_11 => exact .going update
    all_goals exact Schedules.done
  unfold schedLoop
  apply Schedules.update
  split
  · exact Schedules.propagate update hChange
  · exact hChange

end Dispatch

end ElevatorControl
