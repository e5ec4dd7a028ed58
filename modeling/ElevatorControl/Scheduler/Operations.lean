import ElevatorControl.Requests.Waiting
import ElevatorControl.Scheduler.Basic

/-
  The data the two threads of a scheduler share, and what
  their operations do to it.

  `_schedLoop` and `_reqCheckLoop` take one operation on the
  shared data in a step. Requests carry tags, of any type,
  for what a model of the threads remembers of them.

  Key definitions include:
    * `SchedulerState`
    * `SchedulerState.execute`
    * `SchedulerState.proceed`
    * `SchedulerState.take`
    * `SchedulerState.pass`

  Key theorems include:
    * `SchedulerState.take_cases`
    * `SchedulerState.mem_reqOps_take`
-/

------------------------------------------------------------
-- Shared Data
------------------------------------------------------------

namespace ElevatorControl

/- Where the wait of the scheduler is; `now` is the clock
value it read before it released the lock. -/
inductive Waiter where
  | idle
  | called (d0 : TimePoint)
  | blocked (d0 deadline now : TimePoint)

/- The wait during a call. -/
def WaitPlace.waiter
    {τ : Type} :
    WaitPlace τ → Waiter
  | .called d0 => .called d0
  | .blocked d0 deadline now => .blocked d0 deadline now
  | .returned _ => .idle

/-
  `schedOps` is what `_schedLoop` still has to do for a
  change, and `reqOps` what `_reqCheckLoop` has to do for a
  request its wait has returned. `waiter` is that wait.
-/
structure SchedulerState (τ : Type) where
  globalState : GlobalState ElevatorState.id
  requests : RequestQueue τ
  commands : CommandQueues Command
  stateUpdateOut : List StateChange
  schedOps : List Scheduler.Op
  waiter : Waiter
  reqOps : List Scheduler.Op

namespace SchedulerState

open Scheduler

variable {τ : Type}

/- The scheduler when its threads have been started. -/
def initial (τ : Type) : SchedulerState τ where
  globalState := .empty
  requests := .empty
  commands := .empty
  stateUpdateOut := []
  schedOps := []
  waiter := .idle
  reqOps := []

------------------------------------------------------------
-- Operations
------------------------------------------------------------

/- Carry out one operation at the elevator with the id, and
return what comes after it. A request that is pushed gets the
tag. Choices fail when no elevator is alive. -/
def execute
    (bounds : BasicDriverInfo)
    (localElevId : Int)
    (now : MillisecondTime)
    (clock : TimePoint)
    (tag : τ)
    (op : Op)
    (s : SchedulerState τ) : Except AssertionFailed
      (SchedulerState τ × List Op) :=
  match op with
  | .update state =>
      .ok ({ s with
        globalState := s.globalState.update state }, [])
  | .propagate update =>
      .ok ({ s with
        stateUpdateOut := s.stateUpdateOut ++ [update] }, [])
  | .forward comm =>
      .ok ({ s with
        commands := s.commands.forwardToTargets
          Command.targetElevatorId localElevId comm }, [])
  | .optimalElevator type floor => do
      let minId ← optimalElevator bounds now type floor
        s.globalState.elevators
      return (s, callElevator type floor minId clock)
  | .resend r => .ok (s, resendRequest r clock)
  | .reschedule r => do
      let minId ← optimalElevator bounds now
        (requestButton r) r.command.targetFloor
        s.globalState.elevators
      return (s, pushAndForward (rescheduled r minId) clock)
  | .push r =>
      .ok ({ s with
        requests := s.requests.push ⟨tag, r⟩ }, [])
  | .ackRequest change newDeadlineDelta =>
      .ok ({ s with
        requests := s.requests.ackRequest change
          newDeadlineDelta clock }, [])

section Choices

variable {bounds : BasicDriverInfo}
variable {localElevId : Int}
variable {now : MillisecondTime}
variable {clock : TimePoint}
variable {tag : τ}
variable {s : SchedulerState τ}

/- A choice for a press is followed by the call of the
elevator that is chosen. -/
theorem execute_choose
    {type : ButtonType}
    {floor : Int} :
    s.execute bounds localElevId now clock tag
        (.optimalElevator type floor) =
      (optimalElevator bounds now type floor
        s.globalState.elevators).map fun minId =>
          (s, callElevator type floor minId clock) :=
  rfl

/- A choice for a request is followed by pushing it back. -/
theorem execute_reschedule
    {r : Request} :
    s.execute bounds localElevId now clock tag
        (.reschedule r) =
      (optimalElevator bounds now (requestButton r)
        r.command.targetFloor
        s.globalState.elevators).map fun minId =>
          (s, pushAndForward (rescheduled r minId) clock) :=
  rfl

end Choices

------------------------------------------------------------
-- Waiting
------------------------------------------------------------

/- The queue at the given time. -/
def call
    (clock : TimePoint)
    (s : SchedulerState τ) : WaitCall τ where
  queue := s.requests
  clock := clock
  place := .returned (.ok none)

/- The call goes on: a request that it returns is resent. -/
def proceed
    (s : SchedulerState τ)
    (call : WaitCall τ) :
    SchedulerState τ × Option (Tagged τ) :=
  ({ s with
    requests := call.queue
    waiter := call.place.waiter
    reqOps :=
      match call.place.result with
      | some t => [.resend t.request]
      | none => s.reqOps },
    call.place.result)

/- What comes after the loop of the wait. -/
def take
    (clock : TimePoint)
    (s : SchedulerState τ) :
    SchedulerState τ × Option (Tagged τ) :=
  s.proceed ((s.call clock).finish clock)

/- One pass of the outer loop of
`_waitForEarliestDeadline`. -/
def pass
    (d0 clock : TimePoint)
    (s : SchedulerState τ) :
    SchedulerState τ × Option (Tagged τ) :=
  s.proceed ((s.call clock).pass d0)

/- The cleaning loop of the waiter. -/
def cleaned
    (s : SchedulerState τ) : SchedulerState τ :=
  { s with requests := s.requests.clean.1 }

/- A pass takes what is due from the clean queue, or sleeps
until the earliest deadline. -/
theorem pass_eq
    (d0 clock : TimePoint)
    (s : SchedulerState τ) :
    s.pass d0 clock =
      if s.cleaned.requests.earliestDeadline d0 ≤ clock then
        s.cleaned.take clock
      else
        ({ s.cleaned with
          waiter := .blocked d0
            (s.cleaned.requests.earliestDeadline d0) clock },
          none) := by
  by_cases hDue :
      s.cleaned.requests.earliestDeadline d0 ≤ clock
  · rw [if_pos hDue]
    exact congrArg s.proceed (if_pos hDue)
  · rw [if_neg hDue]
    exact congrArg s.proceed (if_neg hDue)

/-
  What the end of the wait does: nothing is due, a request
  that is due is taken out, or the assertion drops it.
-/
theorem take_cases
    (s : SchedulerState τ)
    (clock : TimePoint) :
    s.take clock = ({ s with waiter := .idle }, none) ∨
      ∃ t, s.requests.top? = some t ∧ t.deadline ≤ clock ∧
        ((t.isTweaked = false ∧
            s.take clock =
              ({ s with
                requests := s.requests.pop
                waiter := .idle
                reqOps := [.resend t.request] }, some t)) ∨
          (t.isTweaked = true ∧
            s.take clock =
              ({ s with
                requests := s.requests.pop
                waiter := .idle }, none))) := by
  unfold take proceed WaitCall.finish call
  dsimp only
  rcases RequestQueue.takeDue_cases s.requests clock with
    hNone | ⟨t, hTop, hDue, ⟨hTweak, hSome⟩ | ⟨hTweak, e, hFails⟩⟩
  · rw [hNone]
    exact Or.inl rfl
  · rw [hSome]
    exact Or.inr ⟨t, hTop, hDue, Or.inl ⟨hTweak, rfl⟩⟩
  · rw [hFails]
    exact Or.inr ⟨t, hTop, hDue, Or.inr ⟨hTweak, rfl⟩⟩

/- A request that the wait returns is to be resent. -/
theorem reqOps_take
    {clock : TimePoint}
    {s : SchedulerState τ}
    {t : Tagged τ}
    (hTaken : (s.requests.takeDue clock).2 = .ok (some t)) :
    (s.take clock).1.reqOps = [.resend t.request] := by
  unfold take proceed WaitCall.finish call
  dsimp only
  rw [hTaken]
  rfl

/- What is to be done after the wait was to be done before,
or resends a request from the queue. -/
theorem mem_reqOps_take
    {clock : TimePoint}
    {s : SchedulerState τ}
    {op : Op}
    (hOp : op ∈ (s.take clock).1.reqOps) :
    op ∈ s.reqOps ∨
      ∃ t ∈ s.requests.list, op = .resend t.request := by
  rcases take_cases s clock with
    hNone | ⟨t, hTop, _, ⟨_, hSome⟩ | ⟨_, hFails⟩⟩
  · rw [hNone] at hOp
    exact Or.inl hOp
  · rw [hSome] at hOp
    exact Or.inr ⟨t, RequestQueue.mem_top hTop,
      List.mem_singleton.mp hOp⟩
  · rw [hFails] at hOp
    exact Or.inl hOp

end SchedulerState

end ElevatorControl
