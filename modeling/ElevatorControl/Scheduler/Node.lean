import ElevatorControl.Loop.HallLamps
import ElevatorControl.Scheduler.Operations

/-
  A node on its own: the control loop of its elevator and the
  two threads of its scheduler, with the queues between them.

  The elevator takes a whole iteration in one step. The
  threads of the scheduler take one operation on shared data
  in a step, and the steps interleave in any order. Commands
  for other nodes stay in their queue. The values that are
  read from the clocks are arbitrary, but for the age of the
  local state when an elevator is chosen.

  Key definitions include:
    * `Node`
    * `Node.executeAs`
    * `Node.Threads`
    * `Node.Step`
    * `Node.system`
-/

------------------------------------------------------------
-- Node
------------------------------------------------------------

namespace ElevatorControl

/-
  The state changes wait in the elevator's `outState`, and
  the commands for it in `commands.toLocal`. `handling` is the
  change `_schedLoop` has dequeued last; it is being handled
  while `schedOps` is not empty. `waiter` and `reqOps` are the
  wait of `_reqCheckLoop` and what it does afterwards.
-/
structure Node extends SchedulerState Unit where
  elevator : Loop
  handling : Option StateChange

namespace Node

open Scheduler

/- The id of the elevator of a node on its own. -/
def localElevId : Int := 0

/- The node with another state of its scheduler. -/
def withScheduler
    (scheduler : SchedulerState Unit)
    (s : Node) : Node :=
  { s with toSchedulerState := scheduler }

/- An operation of the node with the id. Commands for other
nodes go to the queue of the sender. -/
def executeAs
    (id : Int)
    (bounds : BasicDriverInfo)
    (now : MillisecondTime)
    (clock : TimePoint)
    (op : Op)
    (s : Node) : Except AssertionFailed (Node × List Op) :=
  (s.toSchedulerState.execute bounds id now clock () op).map
    fun r => (s.withScheduler r.1, r.2)

section Operations

variable {id : Int}
variable {d : BasicDriverInfo}
variable {now : MillisecondTime}
variable {clock : TimePoint}
variable {op : Op}
variable {next : List Op}
variable {s t : Node}

theorem executeAs_forward
    {comm : Command} :
    s.executeAs id d now clock (.forward comm) =
      .ok ({ s with
        commands := s.commands.forwardToTargets
          Command.targetElevatorId id comm }, []) :=
  rfl

/- Operations change the node by changing the state of its
scheduler. -/
theorem exists_of_executeAs
    (hExec : s.executeAs id d now clock op =
      .ok (t, next)) :
    ∃ scheduler,
      s.toSchedulerState.execute d id now clock () op =
          .ok (scheduler, next) ∧
        t = s.withScheduler scheduler := by
  unfold executeAs at hExec
  cases hDone :
      s.toSchedulerState.execute d id now clock () op with
  | error e =>
      rw [hDone] at hExec
      cases hExec
  | ok r =>
      rw [hDone] at hExec
      cases hExec
      exact ⟨r.1, rfl, rfl⟩

/- A choice for a press leaves the node as it is. -/
theorem exists_of_choose
    {type : ButtonType}
    {floor : Int}
    (hExec : s.executeAs id d now clock
      (.optimalElevator type floor) = .ok (t, next)) :
    t = s ∧ ∃ minId,
      optimalElevator d now type floor
          s.globalState.elevators = .ok minId ∧
        next = callElevator type floor minId clock := by
  rcases exists_of_executeAs hExec with
    ⟨scheduler, hDone, rfl⟩
  rw [SchedulerState.execute_choose] at hDone
  cases hBest : optimalElevator d now type floor
      s.globalState.elevators with
  | error e =>
      rw [hBest] at hDone
      cases hDone
  | ok minId =>
      rw [hBest] at hDone
      cases hDone
      exact ⟨rfl, minId, rfl, rfl⟩

/- So does a choice for a request. -/
theorem exists_of_reschedule
    {r : Request}
    (hExec : s.executeAs id d now clock (.reschedule r) =
      .ok (t, next)) :
    t = s ∧ ∃ minId,
      optimalElevator d now (requestButton r)
          r.command.targetFloor
          s.globalState.elevators = .ok minId ∧
        next = pushAndForward (rescheduled r minId)
          clock := by
  rcases exists_of_executeAs hExec with
    ⟨scheduler, hDone, rfl⟩
  rw [SchedulerState.execute_reschedule] at hDone
  cases hBest : optimalElevator d now (requestButton r)
      r.command.targetFloor s.globalState.elevators with
  | error e =>
      rw [hBest] at hDone
      cases hDone
  | ok minId =>
      rw [hBest] at hDone
      cases hDone
      exact ⟨rfl, minId, rfl, rfl⟩

/- An elevator that can be chosen is chosen. -/
theorem executeAs_choose
    {type : ButtonType}
    {floor minId : Int}
    (hBest : optimalElevator d now type floor
      s.globalState.elevators = .ok minId) :
    s.executeAs id d now clock
        (.optimalElevator type floor) =
      .ok (s, callElevator type floor minId clock) := by
  unfold executeAs
  rw [SchedulerState.execute_choose, hBest]
  rfl

theorem executeAs_reschedule
    {r : Request}
    {minId : Int}
    (hBest : optimalElevator d now (requestButton r)
      r.command.targetFloor
      s.globalState.elevators = .ok minId) :
    s.executeAs id d now clock (.reschedule r) =
      .ok (s,
        pushAndForward (rescheduled r minId) clock) := by
  unfold executeAs
  rw [SchedulerState.execute_reschedule, hBest]
  rfl

end Operations

/- The elevator takes its command after the buttons have been
polled. -/
def taken
    (d : BasicDriverInfo)
    (i : Inputs)
    (s : Node) : CommandQueues Command :=
  match Loop.pollButtons d i s.elevator with
  | .ok _ _ =>
      { s.commands with toLocal := s.commands.toLocal.tail }
  | .error _ _ => s.commands

/- The wait ends. -/
def take
    (clock : TimePoint)
    (s : Node) : Node :=
  s.withScheduler (s.toSchedulerState.take clock).1

/- The cleaning loop of the waiter. -/
def cleaned
    (s : Node) : Node :=
  s.withScheduler s.toSchedulerState.cleaned

/- One pass of the waiter. -/
def pass
    (d0 clock : TimePoint)
    (s : Node) : Node :=
  s.withScheduler (s.toSchedulerState.pass d0 clock).1

/- A pass cleans the queue, and takes what is due or
blocks. -/
theorem pass_eq
    (d0 clock : TimePoint)
    (s : Node) :
    s.pass d0 clock =
      if s.cleaned.requests.earliestDeadline d0 ≤ clock then
        s.cleaned.take clock
      else
        { s.cleaned with
          waiter := .blocked d0
            (s.cleaned.requests.earliestDeadline d0)
            clock } := by
  have hPass := SchedulerState.pass_eq d0 clock
    s.toSchedulerState
  by_cases hDue :
      s.cleaned.requests.earliestDeadline d0 ≤ clock
  · rw [if_pos hDue]
    exact congrArg (fun r => s.withScheduler r.1)
      (hPass.trans (if_pos hDue))
  · rw [if_neg hDue]
    exact congrArg (fun r => s.withScheduler r.1)
      (hPass.trans (if_neg hDue))

/- What a scheduler thread does in a step. -/
inductive Event where
  | executed (op : Op)
  | waited
  | failed

/- The end of a wait fails when the request that is due has
got a new deadline. -/
def expired
    (clock : TimePoint)
    (s : Node) : Event :=
  match (s.requests.takeDue clock).2 with
  | .ok _ => .waited
  | .error _ => .failed

/-
  One step of a scheduler thread of the node with the id. A
  thread that fails an assertion is entered again by its
  restart wrapper. `A` says which times an operation may read
  to tell the age of the states.
-/
inductive Threads
    (A : MillisecondTime → Node → Prop)
    (d : BasicDriverInfo)
    (id : Int) :
    Node → Event → Node → Prop where
  | schedule
      (s t : Node)
      (op : Op)
      (ops next : List Op)
      (now : MillisecondTime)
      (clock : TimePoint)
      (hOps : s.schedOps = op :: ops)
      (hTime : A now s)
      (hExec : s.executeAs id d now clock op =
        .ok (t, next)) :
      Threads A d id s (.executed op)
        { t with schedOps := next ++ ops }
  | scheduleFails
      (s : Node)
      (op : Op)
      (ops : List Op)
      (now : MillisecondTime)
      (clock : TimePoint)
      (e : AssertionFailed)
      (hOps : s.schedOps = op :: ops)
      (hTime : A now s)
      (hExec : s.executeAs id d now clock op = .error e) :
      Threads A d id s .failed { s with schedOps := [] }
  | wait
      (s : Node)
      (d0 : TimePoint)
      (hIdle : s.waiter = .idle)
      (hDone : s.reqOps = []) :
      Threads A d id s .waited { s with waiter := .called d0 }
  | pass
      (s : Node)
      (d0 clock : TimePoint)
      (hCalled : s.waiter = .called d0) :
      Threads A d id s .waited (s.pass d0 clock)
  | wake
      (s : Node)
      (d0 deadline now : TimePoint)
      (hBlocked : s.waiter = .blocked d0 deadline now) :
      Threads A d id s .waited { s with waiter := .called d0 }
  | expire
      (s : Node)
      (d0 deadline now : TimePoint)
      (hBlocked : s.waiter = .blocked d0 deadline now) :
      Threads A d id s (s.expired now) (s.take now)
  | check
      (s t : Node)
      (op : Op)
      (ops next : List Op)
      (now : MillisecondTime)
      (clock : TimePoint)
      (hOps : s.reqOps = op :: ops)
      (hTime : A now s)
      (hExec : s.executeAs id d now clock op =
        .ok (t, next)) :
      Threads A d id s (.executed op)
        { t with reqOps := next ++ ops }
  | checkFails
      (s : Node)
      (op : Op)
      (ops : List Op)
      (now : MillisecondTime)
      (clock : TimePoint)
      (e : AssertionFailed)
      (hOps : s.reqOps = op :: ops)
      (hTime : A now s)
      (hExec : s.executeAs id d now clock op = .error e) :
      Threads A d id s .failed { s with reqOps := [] }

/- The local state is young enough to be considered, as keep
alives guarantee. -/
def LocalAlive
    (now : MillisecondTime)
    (s : Node) : Prop :=
  ∀ e ∈ s.globalState.elevators, e.id = localElevId →
    now - e.timestamp ≤ deadThresh

/- One step of a node on its own. -/
inductive Step
    (d : BasicDriverInfo) :
    Node → Node → Prop where
  | elevator
      (s : Node)
      (i : Inputs)
      (t : Loop)
      (hCommand : i.tryDequeue = s.commands.toLocal.head?)
      (hSensed : i.Sensed d)
      (hClear : i.getObstruction = false)
      (hStep : Loop.Step d i s.elevator t) :
      Step d s
        { s with elevator := t, commands := s.taken d i }
  | dequeue
      (s : Node)
      (update : StateChange)
      (rest : List StateChange)
      (hIdle : s.schedOps = [])
      (hOut : s.elevator.outState = update :: rest) :
      Step d s
        { s with
          elevator := { s.elevator with outState := rest }
          handling := some update
          schedOps := schedLoop localElevId update }
  | threads
      (s t : Node)
      (event : Event)
      (hStep : Threads LocalAlive d localElevId s event t) :
      Step d s t

/- The node when the loop of its elevator has been entered
and its scheduler has been started. -/
def started
    (elevator : Loop) : Node where
  toSchedulerState := .initial Unit
  elevator := elevator
  handling := none

/- The node from when its elevator has entered the loop. -/
def system
    (d : BasicDriverInfo) : TransitionSystem Node where
  Init s := ∃ driver elevator,
    Loop.enter d (Loop.create d localElevId driver) =
      .ok () elevator ∧
    s = started elevator
  Step := Step d

end Node

end ElevatorControl
