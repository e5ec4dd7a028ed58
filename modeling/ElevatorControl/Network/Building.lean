import ElevatorControl.Loop.Reports
import ElevatorControl.Network.Delivery
import ElevatorControl.Scheduler.Node

/-
  All nodes of a building with the network between them.

  Every node runs the control loop of its elevator and the
  two threads of its scheduler, and the senders and receivers
  of its queues. Datagrams are never taken back: a receiver
  may read one late, several times, in any order, or never. A
  node may crash between two steps and start again, with a
  state that another node has sent it or without.

  The history lists what the elevators have reported, and no
  code looks at it.

  Key definitions include:
    * `Site`
    * `Building`
    * `Building.Acts`
    * `Building.Step`
    * `Building.Path`
    * `Building.system`
-/

------------------------------------------------------------
-- Sites
------------------------------------------------------------

namespace ElevatorControl

/-
  The elevators of a building. They serve the same floors,
  and their ids and floors are machine integers.
-/
structure Site (ι : Type) extends Cluster ι where
  shaft : Shaft
  top : shaft.maxFloor ≤ intMax
  id_nonneg : ∀ i, 0 ≤ id i
  id_lt : ∀ i, id i < Command.anyId

namespace Site

variable {ι : Type}

/- The bounds of the shaft. -/
def info
    (C : Site ι) : BasicDriverInfo :=
  C.shaft.toBasicDriverInfo

end Site

namespace Node

/- Nothing is known about the times that are read. -/
def AnyTime
    (_ : MillisecondTime)
    (_ : Node) : Prop :=
  True

end Node

------------------------------------------------------------
-- Buildings
------------------------------------------------------------

/-
  The nodes, every datagram that has been broadcast with the
  address of its sender, and every state that has been sent
  to a node that starts again.

  `history` is what all elevators have reported, `reported`
  what the elevator of a node has reported since the node
  was started, and `handled` which of these changes its
  scheduler has dequeued.
-/
structure Building (ι : Type) where
  node : ι → Node
  changes : List (IPv4Address × List UInt8)
  commands : List (IPv4Address × List UInt8)
  recoveries : List (ι × Wire.ElevatorState)
  history : List StateChange
  reported : ι → List StateChange
  handled : ι → List StateChange

namespace Building

variable {ι : Type}
variable [DecidableEq ι]

/- The node `i` is replaced. -/
def put
    (s : Building ι)
    (i : ι)
    (n : Node) : Building ι :=
  { s with node := Function.update s.node i n }

/- The elevator of `i` has carried out an iteration. -/
def iterated
    (C : Site ι)
    (s : Building ι)
    (i : ι)
    (inputs : Inputs)
    (t : Loop) : Building ι :=
  let new := Loop.fresh (s.node i).elevator.outState t
  { s.put i
      { s.node i with
        elevator := t
        commands := (s.node i).taken C.info inputs }
    with
      history := s.history ++ new
      reported := Function.update s.reported i
        (s.reported i ++ new) }

/- The scheduler of `i` has dequeued a change. -/
def dequeued
    (C : Site ι)
    (s : Building ι)
    (i : ι)
    (update : StateChange)
    (rest : List StateChange) : Building ι :=
  { s.put i
      { s.node i with
        elevator :=
          { (s.node i).elevator with outState := rest }
        handling := some update
        schedOps := Scheduler.schedLoop (C.id i) update }
    with
      handled := Function.update s.handled i
        (s.handled i ++
          if update.state.id = C.id i then [update]
          else []) }

/- The node `i` has been started again. -/
def started
    (s : Building ι)
    (i : ι)
    (n : Node) : Building ι :=
  { s.put i n with
    reported := Function.update s.reported i []
    handled := Function.update s.handled i [] }

/- A node that has entered its loop with a state it has been
sent. -/
def recovered
    (elevator : Loop)
    (state : ElevatorState) : Node :=
  { Node.started elevator with
    globalState := GlobalState.empty.update state }

/- What happens in a step. -/
inductive Action (ι : Type) where
  | iterate (i : ι) (inputs : Inputs)
  | start (i : ι)
  | thread (i : ι) (event : Node.Event)
  | assist (i j : ι)
  | other (i : ι)

/- The node that acts. -/
def Action.node : Action ι → ι
  | .iterate i _ => i
  | .start i => i
  | .thread i _ => i
  | .assist i _ => i
  | .other i => i

/- Senders and receivers run only if there is more than one
node. -/
inductive Acts
    [Fintype ι]
    (C : Site ι) :
    Building ι → Action ι → Building ι → Prop where
  | elevator
      (s : Building ι)
      (i : ι)
      (inputs : Inputs)
      (t : Loop)
      (hCommand : inputs.tryDequeue =
        (s.node i).commands.toLocal.head?)
      (hSensed : inputs.Sensed C.info)
      (hStep : Loop.Step C.info inputs
        (s.node i).elevator t) :
      Acts C s (.iterate i inputs) (s.iterated C i inputs t)
  | dequeue
      (s : Building ι)
      (i : ι)
      (update : StateChange)
      (rest : List StateChange)
      (hIdle : (s.node i).schedOps = [])
      (hOut : (s.node i).elevator.outState =
        update :: rest) :
      Acts C s (.other i) (s.dequeued C i update rest)
  | threads
      (s : Building ι)
      (i : ι)
      (n : Node)
      {event : Node.Event}
      (hStep : Node.Threads Node.AnyTime C.info (C.id i) (s.node i)
        event n) :
      Acts C s (.thread i event) (s.put i n)
  | sendChange
      (s : Building ι)
      (i : ι)
      (c : StateChange)
      (rest : List StateChange)
      (hNodes : 1 < Fintype.card ι)
      (hOut : (s.node i).stateUpdateOut = c :: rest) :
      Acts C s (.other i)
        { s.put i { s.node i with stateUpdateOut := rest }
          with changes := s.changes ++
            [(C.address i, QueueReceiver.changePacket c)] }
  | sendCommand
      (s : Building ι)
      (i : ι)
      (c : Command)
      (rest : List Command)
      (hNodes : 1 < Fintype.card ι)
      (hOut : (s.node i).commands.toRemote = c :: rest) :
      Acts C s (.other i)
        { s.put i
            { s.node i with
              commands :=
                { (s.node i).commands with
                  toRemote := rest } }
          with commands := s.commands ++
            [(C.address i, QueueReceiver.commandPacket c)] }
  | receiveChange
      (s : Building ι)
      (i : ι)
      (source : IPv4Address)
      (datagram : List UInt8)
      (now : MillisecondTime)
      (hNodes : 1 < Fintype.card ι)
      (hSent : (source, datagram) ∈ s.changes) :
      Acts C s (.other i) (s.put i
        { s.node i with
          elevator :=
            { (s.node i).elevator with
              outState := (s.node i).elevator.outState ++
                (QueueReceiver.stateChangesIn (C.id i) now
                  source datagram).toList } })
  | receiveCommand
      (s : Building ι)
      (i : ι)
      (source : IPv4Address)
      (datagram : List UInt8)
      (hNodes : 1 < Fintype.card ι)
      (hSent : (source, datagram) ∈ s.commands) :
      Acts C s (.other i) (s.put i
        { s.node i with
          commands :=
            { (s.node i).commands with
              toLocal := (s.node i).commands.toLocal ++
                (QueueReceiver.commandsToLocal (C.id i)
                  source datagram).toList } })
  | assist
      (s : Building ι)
      (i j : ι)
      (state : ElevatorState)
      (hNodes : 1 < Fintype.card ι)
      (hGet : (s.node i).globalState.get (C.id j) =
        .ok state) :
      Acts C s (.assist i j)
        { s with recoveries := s.recoveries ++
            [(j, (Wire.ofElevatorState state).received)] }
  | recover
      (s : Building ι)
      (i : ι)
      (w : Wire.ElevatorState)
      (state : ElevatorState)
      (driver : Driver)
      (t : Loop)
      (hNodes : 1 < Fintype.card ι)
      (hSent : (i, w) ∈ s.recoveries)
      (hRead : Wire.toElevatorState w = some state)
      (hEnter : Loop.enter C.info
        (Loop.recover state
          (Loop.create C.info (C.id i) driver)) =
            .ok () t) :
      Acts C s (.start i) (s.started i (recovered t state))
  | restart
      (s : Building ι)
      (i : ι)
      (driver : Driver)
      (t : Loop)
      (hEnter : Loop.enter C.info
        (Loop.create C.info (C.id i) driver) = .ok () t) :
      Acts C s (.start i) (s.started i (Node.started t))

/- Something happens in the building. -/
def Step
    [Fintype ι]
    (C : Site ι)
    (s s' : Building ι) : Prop :=
  ∃ action, Acts C s action s'

/- What happens one after the other from one state to
another. -/
inductive Path
    [Fintype ι]
    (C : Site ι)
    (s : Building ι) :
    List (Action ι) → Building ι → Prop where
  | refl : Path C s [] s
  | tail
      {actions : List (Action ι)}
      {action : Action ι}
      {t u : Building ι}
      (hPath : Path C s actions t)
      (hActs : Acts C t action u) :
      Path C s (actions ++ [action]) u

/- Every node has been started, and nothing has been sent. -/
structure Initial
    (C : Site ι)
    (s : Building ι) : Prop where
  nodes : ∀ i, ∃ driver t,
    Loop.enter C.info (Loop.create C.info (C.id i) driver) =
      .ok () t ∧
    s.node i = Node.started t
  changes : s.changes = []
  commands : s.commands = []
  recoveries : s.recoveries = []
  history : s.history = []
  reported : ∀ i, s.reported i = []
  handled : ∀ i, s.handled i = []

/- The building from the start of all nodes. -/
def system
    [Fintype ι]
    (C : Site ι) : TransitionSystem (Building ι) where
  Init := Initial C
  Step := Step C

theorem Path.reachable
    [Fintype ι]
    {C : Site ι}
    {s t : Building ι}
    {actions : List (Action ι)}
    (hPath : Path C s actions t)
    (hReach : (system C).Reachable s) :
    (system C).Reachable t := by
  induction hPath with
  | refl => exact hReach
  | tail _ hActs ih => exact ih.step ⟨_, hActs⟩

end Building

end ElevatorControl
