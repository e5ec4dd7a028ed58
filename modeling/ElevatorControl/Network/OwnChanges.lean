import ElevatorControl.Network.Provenance

/-
  What a scheduler gets of the changes its own elevator
  reports.

  A scheduler gets the changes of its own elevator from the
  queue they share, and those of the others from the network,
  whose receiver refuses changes of the own elevator. So no
  datagram makes a scheduler handle an own change twice, and
  none is lost while the node runs.

  Key definitions include:
    * `Building.own`
    * `Building.OwnOnce`

  Key theorems include:
    * `Building.ownOnce_of_step`
    * `Building.own_changes_once`
-/

------------------------------------------------------------
-- Threads
------------------------------------------------------------

namespace ElevatorControl

namespace Node

open Scheduler

variable {d : BasicDriverInfo}
variable {id : Int}
variable {n t : Node}

/- No operation of the scheduler touches the elevator. -/
theorem elevator_executeAs
    {now : MillisecondTime}
    {clock : TimePoint}
    {op : Op}
    {next : List Op}
    (hExec : n.executeAs id d now clock op =
      .ok (t, next)) :
    t.elevator = n.elevator := by
  rcases exists_of_executeAs hExec with ⟨_, _, rfl⟩
  rfl

theorem elevator_of_threads
    {event : Event}
    (hStep : Threads AnyTime d id n event t) :
    t.elevator = n.elevator := by
  cases hStep with
  | schedule t op ops next now clock hOps hTime hExec =>
      have hSame := elevator_executeAs hExec
      exact hSame
  | check t op ops next now clock hOps hTime hExec =>
      have hSame := elevator_executeAs hExec
      exact hSame
  | _ => rfl

end Node

------------------------------------------------------------
-- Own Changes
------------------------------------------------------------

namespace Building

variable {ι : Type}

/- The changes of the own elevator in a queue. -/
def own
    (id : Int)
    (queue : List StateChange) : List StateChange :=
  queue.filter fun c => decide (c.state.id = id)

theorem own_append
    {id : Int}
    {queue queue' : List StateChange} :
    own id (queue ++ queue') =
      own id queue ++ own id queue' :=
  List.filter_append queue queue'

theorem own_cons
    {id : Int}
    {c : StateChange}
    {queue : List StateChange} :
    own id (c :: queue) =
      (if c.state.id = id then [c] else []) ++
        own id queue := by
  unfold own
  rw [List.filter_cons]
  by_cases hOwn : c.state.id = id
  · rw [if_pos (decide_eq_true hOwn), if_pos hOwn]
    rfl
  · rw [if_neg hOwn, if_neg (by
      rw [decide_eq_true_eq]
      exact hOwn)]
    rfl

/-
  What the elevator of a node has reported since the node was
  started has been dequeued by its scheduler, in this order
  and each change once, or still waits in this order.
-/
def OwnOnce
    (C : Site ι)
    (s : Building ι) : Prop :=
  ∀ i, s.reported i =
    s.handled i ++
      own (C.id i) (s.node i).elevator.outState

section Once

variable [DecidableEq ι]
variable {C : Site ι}
variable {s s' : Building ι}
variable {i : ι}

/- A node that is replaced keeps its own changes. -/
theorem OwnOnce.put
    {n : Node}
    (hOnce : OwnOnce C s)
    (hOwn : own (C.id i) n.elevator.outState =
      own (C.id i) (s.node i).elevator.outState) :
    OwnOnce C (s.put i n) := by
  intro j
  change s.reported j = s.handled j ++
    own (C.id j) (Function.update s.node i n j).elevator.outState
  by_cases hSame : j = i
  · subst hSame
    rw [Function.update_self, hOwn]
    exact hOnce j
  · rw [Function.update_of_ne hSame]
    exact hOnce j

/- A node that starts has reported nothing. -/
theorem OwnOnce.started
    {n : Node}
    (hOnce : OwnOnce C s)
    (hOut : n.elevator.outState = []) :
    OwnOnce C (s.started i n) := by
  intro j
  change Function.update s.reported i [] j =
    Function.update s.handled i [] j ++
      own (C.id j)
        (Function.update s.node i n j).elevator.outState
  by_cases hSame : j = i
  · subst hSame
    rw [Function.update_self, Function.update_self,
      Function.update_self, hOut]
    rfl
  · rw [Function.update_of_ne hSame,
      Function.update_of_ne hSame,
      Function.update_of_ne hSame]
    exact hOnce j

/- An iteration reports own changes behind the others. -/
theorem ownOnce_of_elevator
    {inputs : Inputs}
    {t : Loop}
    (hInv : Inv C s)
    (hOnce : OwnOnce C s)
    (hCommand : inputs.tryDequeue =
      (s.node i).commands.toLocal.head?)
    (hSensed : inputs.Sensed C.info)
    (hStep : Loop.Step C.info inputs (s.node i).elevator t) :
    OwnOnce C (s.iterated C i inputs t) := by
  have hReporting := Loop.reporting_of_step hSensed
    (caused_of_head hInv hCommand).2
    (hInv.nodes i).reporting hStep
  let new := Loop.fresh (s.node i).elevator.outState t
  have hOut := Loop.Reporting.outState_eq hReporting
  have hNew : own (C.id i) new = new := by
    apply List.filter_eq_self.mpr
    intro c hc
    exact decide_eq_true (hReporting.own c hc)
  intro j
  change Function.update s.reported i
      (s.reported i ++ new) j = s.handled j ++
    own (C.id j)
      (Function.update s.node i _ j).elevator.outState
  by_cases hSame : j = i
  · subst hSame
    rw [Function.update_self, Function.update_self, hOut,
      own_append, hNew, ← List.append_assoc, ← hOnce j]
  · rw [Function.update_of_ne hSame,
      Function.update_of_ne hSame]
    exact hOnce j

/- The scheduler takes the first change, which is the own
one that has waited longest, or one of the others. -/
theorem ownOnce_of_dequeue
    {update : StateChange}
    {rest : List StateChange}
    (hOnce : OwnOnce C s)
    (hOut : (s.node i).elevator.outState = update :: rest) :
    OwnOnce C (s.dequeued C i update rest) := by
  intro j
  change s.reported j =
    Function.update s.handled i
      (s.handled i ++
        if update.state.id = C.id i then [update]
        else []) j ++
      own (C.id j)
        (Function.update s.node i _ j).elevator.outState
  by_cases hSame : j = i
  · subst hSame
    rw [Function.update_self, Function.update_self, hOnce j,
      hOut, own_cons, List.append_assoc]
  · rw [Function.update_of_ne hSame,
      Function.update_of_ne hSame]
    exact hOnce j

theorem ownOnce_of_step
    [Fintype ι]
    (hInv : Inv C s)
    (hOnce : OwnOnce C s)
    (hStep : Step C s s') :
    OwnOnce C s' := by
  rcases hStep with ⟨action, hActs⟩
  cases hActs with
  | elevator i inputs t hCommand hSensed hStep =>
      exact ownOnce_of_elevator hInv hOnce hCommand hSensed
        hStep
  | dequeue i update rest hIdle hOut =>
      exact ownOnce_of_dequeue hOnce hOut
  | threads i n hStep =>
      apply hOnce.put
      rw [Node.elevator_of_threads hStep]
  | sendChange i c rest hNodes hOut =>
      exact hOnce.put (n := { s.node i with
        stateUpdateOut := rest }) rfl
  | sendCommand i c rest hNodes hOut =>
      exact hOnce.put (n := { s.node i with
        commands :=
          { (s.node i).commands with toRemote := rest } }) rfl
  | receiveChange i source datagram now hNodes hSent =>
      apply hOnce.put
      have hOthers : own (C.id i)
          (QueueReceiver.stateChangesIn (C.id i) now source
            datagram).toList = [] := by
        apply List.filter_eq_nil_iff.mpr
        intro c hc
        rw [decide_eq_true_eq]
        exact (traced_stateChangesIn hInv hSent i c hc).2
      change own (C.id i)
          ((s.node i).elevator.outState ++ _) = _
      rw [own_append, hOthers, List.append_nil]
  | receiveCommand i source datagram hNodes hSent =>
      exact hOnce.put rfl
  | assist i j state hNodes hGet => exact hOnce
  | recover i w state driver t hNodes hSent hRead hEnter =>
      exact hOnce.started (Loop.outState_of_enter hEnter)
  | restart i driver t hEnter =>
      exact hOnce.started (Loop.outState_of_enter hEnter)

theorem ownOnce_of_reachable
    [Fintype ι]
    (hReach : (system C).Reachable s) :
    OwnOnce C s := by
  have hBoth : Inv C s ∧ OwnOnce C s := by
    apply hReach.invariant
    · intro t hInit
      refine ⟨inv_of_initial hInit, ?_⟩
      intro i
      rcases hInit.nodes i with ⟨driver, e, hEnter, hNode⟩
      rw [hInit.reported, hInit.handled, hNode]
      change [] = own (C.id i) e.outState
      rw [Loop.outState_of_enter hEnter]
      rfl
    · exact fun t t' hBoth hStep =>
        ⟨inv_of_step hBoth.1 hStep,
          ownOnce_of_step hBoth.1 hBoth.2 hStep⟩
  exact hBoth.2

/-
  In every run of the building a scheduler dequeues the
  changes its elevator has reported since the node was
  started in their order and each once, whatever the network
  repeats.
-/
theorem own_changes_once
    [Fintype ι]
    (hReach : (system C).Reachable s)
    (i : ι) :
    s.reported i = s.handled i ++
      own (C.id i) (s.node i).elevator.outState :=
  ownOnce_of_reachable hReach i

/- The press waits for the scheduler. -/
theorem own_changes_once_press :
    ∃ s : Building (Fin 2),
      (system twoElevators).Reachable s ∧
      s.reported 0 = s.handled 0 ++
        own 0 (s.node 0).elevator.outState := by
  rcases reachable_pressed with ⟨s, st, hReach, _⟩
  exact ⟨s, hReach, own_changes_once hReach 0⟩

end Once

end Building

end ElevatorControl
