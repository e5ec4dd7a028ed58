import ElevatorControl.Network.OwnChanges

/-
  Which own changes a scheduler has entered into its state.

  A scheduler enters a change as soon as it has dequeued it.
  Requests come from own presses, so a node that has any work
  with requests has entered an own change before.

  Key definitions include:
    * `Scheduler.Op.updated` and `Scheduler.Op.Works`
    * `Node.Settled`
    * `Building.Settles`

  Key theorems include:
    * `Node.settled_threads`
    * `Building.settles_of_reachable`
-/

------------------------------------------------------------
-- Operations
------------------------------------------------------------

namespace ElevatorControl

namespace Scheduler

/- The state an operation enters. -/
def Op.updated : Op → Option ElevatorState
  | .update state => some state
  | _ => none

/- The operation is part of the work with requests. -/
def Op.Works : Op → Prop
  | .optimalElevator _ _ => True
  | .resend _ => True
  | .reschedule _ => True
  | .push _ => True
  | _ => False

/- The own states that are still to be entered. -/
def ownUpdates
    (id : Int)
    (ops : List Op) : List ElevatorState :=
  (ops.filterMap Op.updated).filter fun e =>
    decide (e.id = id)

section Updates

variable {id : Int}
variable {op : Op}
variable {ops next : List Op}

theorem filterMap_updated_nil
    (hNone : ∀ op ∈ ops, op.updated = none) :
    ops.filterMap Op.updated = [] :=
  List.filterMap_eq_nil_iff.mpr hNone

theorem ownUpdates_nil
    (hNone : ∀ op ∈ ops, op.updated = none) :
    ownUpdates id ops = [] := by
  unfold ownUpdates
  rw [filterMap_updated_nil hNone]
  rfl

/- An operation that enters nothing has no share in it. -/
theorem ownUpdates_cons_of_none
    (hNone : op.updated = none) :
    ownUpdates id (op :: ops) = ownUpdates id ops := by
  unfold ownUpdates
  rw [List.filterMap_cons_none hNone]

theorem ownUpdates_append_of_none
    (hNone : ∀ op ∈ next, op.updated = none) :
    ownUpdates id (next ++ ops) = ownUpdates id ops := by
  unfold ownUpdates
  rw [List.filterMap_append, filterMap_updated_nil hNone,
    List.nil_append]

theorem ownUpdates_update
    {e : ElevatorState} :
    ownUpdates id (.update e :: ops) =
      (if e.id = id then [e] else []) ++
        ownUpdates id ops := by
  have hSome : (Op.update e :: ops).filterMap Op.updated =
      e :: ops.filterMap Op.updated :=
    List.filterMap_cons_some rfl
  unfold ownUpdates
  rw [hSome, List.filter_cons]
  by_cases hOwn : e.id = id
  · rw [if_pos (decide_eq_true hOwn), if_pos hOwn]
    rfl
  · rw [if_neg hOwn, if_neg (by
      rw [decide_eq_true_eq]
      exact hOwn)]
    rfl

/- Only the first operation for a change enters its state,
and only own changes make work. -/
theorem handleChange_ops
    {update : StateChange} :
    ∀ op ∈ handleChange id update,
      op.updated = none ∧
        (op.Works → update.state.id = id) := by
  have hNone : ∀ op ∈ ([] : List Op),
      op.updated = none ∧
        (op.Works → update.state.id = id) :=
    fun op hOp => absurd hOp List.not_mem_nil
  have hAck : ∀ delta, ∀ op ∈ [Op.ackRequest update delta],
      op.updated = none ∧
        (op.Works → update.state.id = id) := by
    intro delta op hOp
    rw [List.mem_singleton.mp hOp]
    exact ⟨rfl, False.elim⟩
  have hServe : ∀ comm, ∀ op ∈ [Op.forward comm,
        .ackRequest update 0],
      op.updated = none ∧
        (op.Works → update.state.id = id) := by
    intro comm op hOp
    rcases List.mem_cons.mp hOp with rfl | hRest
    · exact ⟨rfl, False.elim⟩
    · exact hAck 0 op hRest
  have hPress : ∀ type,
      ∀ op ∈ handleButtonPress id update.state.id type
          update.changeFloor,
        op.updated = none ∧
          (op.Works → update.state.id = id) := by
    intro type op hOp
    unfold handleButtonPress at hOp
    rcases List.mem_cons.mp hOp with rfl | hRest
    · exact ⟨rfl, False.elim⟩
    · split at hRest
      · next hOwn =>
          rw [List.mem_singleton.mp hRest]
          exact ⟨rfl, fun _ => hOwn⟩
      · exact absurd hRest List.not_mem_nil
  unfold handleChange
  cases update.changeType with
  | none => exact hNone
  | keepAlive => exact hNone
  | insideButtonPresed => exact hNone
  | buttonDownPressed => exact hPress .callDown
  | buttonUpPressed => exact hPress .callUp
  | goingToServeUp => exact hAck _
  | goingToServeDown => exact hAck _
  | served => exact hNone
  | servedUp => exact hServe _
  | servedDown => exact hServe _
  | otherChange => exact hNone

theorem schedLoop_tail_ops
    {update : StateChange} :
    ∀ op ∈ (schedLoop id update).tail,
      op.updated = none ∧
        (op.Works → update.state.id = id) := by
  unfold schedLoop
  intro op hOp
  rcases List.mem_append.mp hOp with hOwn | hRest
  · split at hOwn
    · rw [List.mem_singleton.mp hOwn]
      exact ⟨rfl, False.elim⟩
    · exact absurd hOwn List.not_mem_nil
  · exact handleChange_ops op hRest

theorem ownUpdates_schedLoop
    {update : StateChange} :
    ownUpdates id (schedLoop id update) =
      if update.state.id = id then [update.state]
      else [] := by
  have hTail : ownUpdates id (schedLoop id update).tail = [] :=
    ownUpdates_nil fun op hOp =>
      (schedLoop_tail_ops op hOp).1
  have hSplit : ownUpdates id (schedLoop id update) =
      (if update.state.id = id then [update.state] else []) ++
        ownUpdates id (schedLoop id update).tail :=
    ownUpdates_update
  rw [hSplit, hTail, List.append_nil]

theorem works_schedLoop
    {update : StateChange}
    (hOp : op ∈ schedLoop id update)
    (hWorks : op.Works) :
    update.state.id = id := by
  unfold schedLoop at hOp
  rcases List.mem_cons.mp hOp with rfl | hRest
  · exact hWorks.elim
  · exact (schedLoop_tail_ops op hRest).2 hWorks

end Updates

end Scheduler

------------------------------------------------------------
-- Settled Nodes
------------------------------------------------------------

namespace Node

open Scheduler

/-
  What an operation does to a node: only an update changes
  what is known, requests come from work, and so do further
  operations, which enter nothing.
-/
structure Executed
    (op : Op)
    (next : List Op)
    (n t : Node) : Prop where
  known : op.updated = none → t.globalState = n.globalState
  requests : ∀ Q : Prop, (op.Works → Q) →
    (∀ u ∈ n.requests.list, Q) → ∀ u ∈ t.requests.list, Q
  next : ∀ op' ∈ next, op'.updated = none ∧ op.Works
  schedOps : t.schedOps = n.schedOps
  reqOps : t.reqOps = n.reqOps

section Nodes

variable {d : BasicDriverInfo}
variable {id : Int}
variable {done pending : List StateChange}
variable {op : Op}
variable {ops next : List Op}
variable {n t : Node}

/- An operation that only has others done. -/
theorem executed_self
    (hNext : ∀ op' ∈ next, op'.updated = none)
    (hWorks : op.Works) :
    Executed op next n n where
  known _ := rfl
  requests _ _ hAll := hAll
  next op' hOp := ⟨hNext op' hOp, hWorks⟩
  schedOps := rfl
  reqOps := rfl

theorem updated_pushAndForward
    {r : Request}
    {clock : TimePoint} :
    ∀ op ∈ pushAndForward r clock, op.updated = none := by
  intro op hOp
  rcases List.mem_cons.mp hOp with rfl | hRest
  · rfl
  · rw [List.mem_singleton.mp hRest]
    rfl

theorem executed_executeAs
    {now : MillisecondTime}
    {clock : TimePoint}
    (hExec : n.executeAs id d now clock op =
      .ok (t, next)) :
    Executed op next n t := by
  have hNone : ∀ op' ∈ ([] : List Op),
      op'.updated = none ∧ op.Works :=
    fun op' hOp => absurd hOp List.not_mem_nil
  cases op with
  | update state =>
      cases hExec
      exact ⟨fun hSome => absurd hSome (Option.some_ne_none _),
        fun _ _ hAll => hAll, hNone, rfl, rfl⟩
  | propagate update =>
      cases hExec
      exact ⟨fun _ => rfl, fun _ _ hAll => hAll, hNone, rfl,
        rfl⟩
  | forward comm =>
      cases hExec
      exact ⟨fun _ => rfl, fun _ _ hAll => hAll, hNone, rfl,
        rfl⟩
  | optimalElevator type floor =>
      rcases exists_of_choose hExec with ⟨rfl, minId, _, rfl⟩
      have hWorks : Op.Works (.optimalElevator type floor) :=
        trivial
      apply executed_self _ hWorks
      intro op' hOp
      rcases List.mem_cons.mp hOp with rfl | hRest
      · rfl
      · rw [List.mem_singleton.mp hRest]
        rfl
  | resend r =>
      cases hExec
      have hWorks : Op.Works (.resend r) := trivial
      apply executed_self _ hWorks
      intro op' hOp
      unfold resendRequest at hOp
      dsimp only at hOp
      split at hOp
      · rw [List.mem_singleton.mp hOp]
        rfl
      · exact updated_pushAndForward op' hOp
  | reschedule r =>
      rcases exists_of_reschedule hExec with
        ⟨rfl, minId, _, rfl⟩
      have hWorks : Op.Works (.reschedule r) := trivial
      exact executed_self updated_pushAndForward hWorks
  | push r =>
      cases hExec
      exact ⟨fun _ => rfl,
        fun Q hWorks hAll =>
          RequestQueue.commands_push (P := fun _ => Q) hAll
            (hWorks trivial), hNone, rfl, rfl⟩
  | ackRequest change newDeadlineDelta =>
      cases hExec
      exact ⟨fun _ => rfl,
        fun Q _ hAll =>
          RequestQueue.commands_ackRequest (P := fun _ => Q)
            hAll, hNone, rfl, rfl⟩

/-
  The own changes `done` have been entered, the last of them
  is known, and `pending` are still to be entered. A node that
  has work has handled an own change.
-/
structure Settled
    (id : Int)
    (done pending : List StateChange)
    (n : Node) : Prop where
  own : ∀ c ∈ done, c.state.id = id
  updates : ownUpdates id n.schedOps =
    pending.map StateChange.state
  first : ∀ op ∈ n.schedOps.tail, op.updated = none
  known : ∀ c, done.getLast? = some c →
    c.state ∈ n.globalState.elevators
  sched : ∀ op ∈ n.schedOps, op.Works →
    done ++ pending ≠ []
  req : ∀ op ∈ n.reqOps, op.updated = none ∧ done ≠ []
  requests : ∀ u ∈ n.requests.list, done ≠ []

/- Once the state has been entered, nothing is pending. -/
theorem Settled.pending_nil
    (hSettled : Settled id done pending n)
    (hOps : n.schedOps = op :: ops)
    (hNone : op.updated = none) :
    pending = [] := by
  have hFirst := hSettled.first
  have hUpdates := hSettled.updates
  rw [hOps] at hFirst hUpdates
  have hTail : ownUpdates id ops = [] := ownUpdates_nil hFirst
  rw [ownUpdates_cons_of_none hNone, hTail] at hUpdates
  exact List.map_eq_nil_iff.mp hUpdates.symm

/- A thread that works does so for a change that has been
entered. -/
theorem Settled.done_ne_nil
    (hSettled : Settled id done pending n)
    (hWorks : op.Works)
    (hOps : n.schedOps = op :: ops ∨
      n.reqOps = op :: ops) :
    done ≠ [] := by
  rcases hOps with hSched | hReq
  · have hNone : op.updated = none := by
      cases op with
      | update state => exact hWorks.elim
      | _ => rfl
    have hPending := hSettled.pending_nil hSched hNone
    have hOp := hSettled.sched op
      (hSched ▸ List.mem_cons_self) hWorks
    rw [hPending, List.append_nil] at hOp
    exact hOp
  · exact (hSettled.req op (hReq ▸ List.mem_cons_self)).2

/- An own state is entered, or that of another elevator. -/
theorem Settled.update
    {state : ElevatorState}
    (hSettled : Settled id done pending n)
    (hOps : n.schedOps = .update state :: ops) :
    ∃ done' pending', done ++ pending = done' ++ pending' ∧
      Settled id done' pending'
        { n with
          globalState := n.globalState.update state
          schedOps := ops } := by
  have hFirst := hSettled.first
  have hUpdates := hSettled.updates
  have hSched := hSettled.sched
  rw [hOps] at hFirst hUpdates hSched
  have hTail : ownUpdates id ops = [] := ownUpdates_nil hFirst
  rw [ownUpdates_update, hTail, List.append_nil] at hUpdates
  have hRest : ∀ op ∈ ops.tail, op.updated = none :=
    fun op hOp => hFirst op (List.mem_of_mem_tail hOp)
  by_cases hOwn : state.id = id
  · rw [if_pos hOwn] at hUpdates
    rcases List.map_eq_cons_iff.mp hUpdates.symm with
      ⟨c, rest, rfl, hState, hNil⟩
    rw [List.map_eq_nil_iff.mp hNil] at hSched ⊢
    refine ⟨done ++ [c], [], (List.append_nil _).symm,
      ?_, hTail, hRest, ?_, ?_, ?_, ?_⟩
    · intro c' hc'
      rcases List.mem_append.mp hc' with hOld | hNew
      · exact hSettled.own c' hOld
      · rw [List.mem_singleton.mp hNew, hState]
        exact hOwn
    · intro c' hc'
      rw [List.getLast?_concat] at hc'
      cases hc'
      rw [hState]
      exact GlobalState.self_mem_update n.globalState state
    · intro op hOp hWorks
      rw [List.append_nil]
      exact hSched op (List.mem_cons_of_mem _ hOp) hWorks
    · exact fun op hOp =>
        ⟨(hSettled.req op hOp).1, List.append_ne_nil_of_right_ne_nil
          _ (List.cons_ne_nil c [])⟩
    · exact fun _ _ => List.append_ne_nil_of_right_ne_nil
        _ (List.cons_ne_nil c [])
  · rw [if_neg hOwn] at hUpdates
    refine ⟨done, pending, rfl, hSettled.own,
      hTail.trans hUpdates, hRest, ?_, ?_, hSettled.req,
      hSettled.requests⟩
    · intro c hc
      have hMem := hSettled.known c hc
      have hId := hSettled.own c (List.mem_of_getLast? hc)
      apply GlobalState.mem_update_iff.mpr
      refine Or.inr ⟨hMem, ?_⟩
      rw [hId]
      exact fun hSame => hOwn hSame.symm
    · exact fun op hOp =>
        hSched op (List.mem_cons_of_mem _ hOp)

theorem settled_take
    (clock : TimePoint)
    (hSettled : Settled id done pending n) :
    Settled id done pending (n.take clock) := by
  have hTake := RequestQueue.takeDue_mem n.requests clock
  refine { hSettled with req := ?_, requests := ?_ }
  · intro op hOp
    rcases SchedulerState.mem_reqOps_take hOp with
      hOld | ⟨u, hu, rfl⟩
    · exact hSettled.req op hOld
    · exact ⟨rfl, hSettled.requests u hu⟩
  · exact fun u hu => hSettled.requests u (hTake.1 u hu)

theorem settled_pass
    (d0 clock : TimePoint)
    (hSettled : Settled id done pending n) :
    Settled id done pending (n.pass d0 clock) := by
  have hCleaned : Settled id done pending n.cleaned :=
    { hSettled with
      requests := RequestQueue.commands_clean
        (P := fun _ => done ≠ []) hSettled.requests }
  rw [Node.pass_eq]
  split
  · exact settled_take clock hCleaned
  · exact { hCleaned with }

/- The thread of `_schedLoop` goes on. -/
theorem Settled.scheduled
    (hSettled : Settled id done [] n)
    (hOps : n.schedOps = op :: ops)
    (hNone : op.updated = none)
    (hDone : Executed op next n t) :
    Settled id done [] { t with schedOps := next ++ ops } := by
  have hFirst := hSettled.first
  have hSched := hSettled.sched
  rw [hOps] at hFirst hSched
  have hTail : ∀ op' ∈ ops, op'.updated = none := hFirst
  have hNext : ∀ op' ∈ next, op'.updated = none :=
    fun op' hOp => (hDone.next op' hOp).1
  refine ⟨hSettled.own, ?_, ?_, ?_, ?_, ?_, ?_⟩
  · change ownUpdates id (next ++ ops) = []
    rw [ownUpdates_append_of_none hNext]
    exact ownUpdates_nil hTail
  · intro op' hOp
    rcases List.mem_append.mp (List.mem_of_mem_tail hOp) with
      hNew | hOld
    · exact hNext op' hNew
    · exact hTail op' hOld
  · change ∀ c, done.getLast? = some c →
      c.state ∈ t.globalState.elevators
    rw [hDone.known hNone]
    exact hSettled.known
  · intro op' hOp hWorks
    rcases List.mem_append.mp hOp with hNew | hOld
    · exact hSched op List.mem_cons_self
        (hDone.next op' hNew).2
    · exact hSched op' (List.mem_cons_of_mem op hOld) hWorks
  · change ∀ op' ∈ t.reqOps, op'.updated = none ∧ done ≠ []
    rw [hDone.reqOps]
    exact hSettled.req
  · exact hDone.requests (done ≠ [])
      (fun hWorks =>
        hSettled.done_ne_nil hWorks (Or.inl hOps))
      hSettled.requests

/- The thread of `_reqCheckLoop` goes on. -/
theorem Settled.checked
    (hSettled : Settled id done pending n)
    (hOps : n.reqOps = op :: ops)
    (hDone : Executed op next n t) :
    Settled id done pending
      { t with reqOps := next ++ ops } := by
  have hReq := hSettled.req
  rw [hOps] at hReq
  have hOp := hReq op List.mem_cons_self
  refine ⟨hSettled.own, ?_, ?_, ?_, ?_, ?_, ?_⟩
  · change ownUpdates id t.schedOps = _
    rw [hDone.schedOps]
    exact hSettled.updates
  · change ∀ op' ∈ t.schedOps.tail, op'.updated = none
    rw [hDone.schedOps]
    exact hSettled.first
  · change ∀ c, done.getLast? = some c →
      c.state ∈ t.globalState.elevators
    rw [hDone.known hOp.1]
    exact hSettled.known
  · change ∀ op' ∈ t.schedOps, op'.Works →
      done ++ pending ≠ []
    rw [hDone.schedOps]
    exact hSettled.sched
  · intro op' hOp'
    rcases List.mem_append.mp hOp' with hNew | hOld
    · exact ⟨(hDone.next op' hNew).1, hOp.2⟩
    · exact hReq op' (List.mem_cons_of_mem op hOld)
  · exact hDone.requests (done ≠ []) (fun _ => hOp.2)
      hSettled.requests

/- Entering a state never fails. -/
theorem updated_of_error
    {now : MillisecondTime}
    {clock : TimePoint}
    {e : AssertionFailed}
    (hExec : n.executeAs id d now clock op = .error e) :
    op.updated = none := by
  cases op with
  | update state => cases hExec
  | _ => rfl

/- A step of a scheduler thread. -/
theorem settled_threads
    (hSettled : Settled id done pending n)
    {event : Event}
    (hStep : Threads AnyTime d id n event t) :
    ∃ done' pending', done ++ pending = done' ++ pending' ∧
      Settled id done' pending' t := by
  cases hStep with
  | schedule t op ops next now clock hOps hTime hExec =>
      cases hUpdated : op.updated with
      | some state =>
          cases op with
          | update state' =>
              cases hExec
              exact hSettled.update hOps
          | _ => cases hUpdated
      | none =>
          have hNil := hSettled.pending_nil hOps hUpdated
          subst hNil
          exact ⟨done, [], rfl, hSettled.scheduled hOps
            hUpdated (executed_executeAs hExec)⟩
  | scheduleFails op ops now clock e hOps hTime hExec =>
      have hNil := hSettled.pending_nil hOps
        (updated_of_error hExec)
      subst hNil
      refine ⟨done, [], rfl, { hSettled with
        updates := rfl, first := ?_, sched := ?_ }⟩
      · exact fun op hOp => absurd hOp List.not_mem_nil
      · exact fun op hOp => absurd hOp List.not_mem_nil
  | wait d0 hIdle hDone =>
      exact ⟨done, pending, rfl, { hSettled with }⟩
  | pass d0 clock hCalled =>
      exact ⟨done, pending, rfl, settled_pass _ _ hSettled⟩
  | wake d0 deadline now hBlocked =>
      exact ⟨done, pending, rfl, { hSettled with }⟩
  | expire d0 deadline now hBlocked =>
      exact ⟨done, pending, rfl, settled_take _ hSettled⟩
  | check t op ops next now clock hOps hTime hExec =>
      exact ⟨done, pending, rfl, hSettled.checked hOps
        (executed_executeAs hExec)⟩
  | checkFails op ops now clock e hOps hTime hExec =>
      exact ⟨done, pending, rfl, { hSettled with
        req := fun op hOp => absurd hOp List.not_mem_nil }⟩

end Nodes

end Node

------------------------------------------------------------
-- Buildings
------------------------------------------------------------

namespace Building

open Scheduler

variable {ι : Type}

/- Every scheduler has settled what it has dequeued. -/
def Settles
    (C : Site ι)
    (s : Building ι) : Prop :=
  ∀ i, ∃ done pending, s.handled i = done ++ pending ∧
    Node.Settled (C.id i) done pending (s.node i)

section Settles

variable [DecidableEq ι]
variable {C : Site ι}
variable {s s' : Building ι}
variable {i : ι}

theorem Settles.put
    {n : Node}
    (hSettles : Settles C s)
    (hNode : ∀ done pending,
      Node.Settled (C.id i) done pending (s.node i) →
      ∃ done' pending', done ++ pending = done' ++ pending' ∧
        Node.Settled (C.id i) done' pending' n) :
    Settles C (s.put i n) := by
  intro j
  change ∃ done pending, s.handled j = done ++ pending ∧
    Node.Settled (C.id j) done pending
      (Function.update s.node i n j)
  by_cases hSame : j = i
  · subst hSame
    rw [Function.update_self]
    rcases hSettles j with ⟨done, pending, hHandled, hOld⟩
    rcases hNode done pending hOld with
      ⟨done', pending', hSplit, hNew⟩
    exact ⟨done', pending', hHandled.trans hSplit, hNew⟩
  · rw [Function.update_of_ne hSame]
    exact hSettles j

/- Nothing has happened to the scheduler of the node. -/
theorem Settles.put_same
    {n : Node}
    (hSettles : Settles C s)
    (hNode : ∀ done pending,
      Node.Settled (C.id i) done pending (s.node i) →
        Node.Settled (C.id i) done pending n) :
    Settles C (s.put i n) :=
  hSettles.put fun done pending hOld =>
    ⟨done, pending, rfl, hNode done pending hOld⟩

/- A node that starts has handled nothing. -/
theorem settled_started
    {id : Int}
    {n : Node}
    (hSched : n.schedOps = [])
    (hReq : n.reqOps = [])
    (hRequests : n.requests = .empty) :
    Node.Settled id [] [] n := by
  refine ⟨?_, ?_, ?_, ?_, ?_, ?_, ?_⟩
  · exact fun c hc => absurd hc List.not_mem_nil
  · rw [hSched]
    rfl
  · rw [hSched]
    exact fun op hOp => absurd hOp List.not_mem_nil
  · intro c hc
    cases hc
  · rw [hSched]
    exact fun op hOp => absurd hOp List.not_mem_nil
  · rw [hReq]
    exact fun op hOp => absurd hOp List.not_mem_nil
  · rw [hRequests]
    exact fun u hu => absurd hu List.not_mem_nil

theorem Settles.started
    {n : Node}
    (hSettles : Settles C s)
    (hNode : Node.Settled (C.id i) [] [] n) :
    Settles C (s.started i n) := by
  intro j
  change ∃ done pending,
    Function.update s.handled i [] j = done ++ pending ∧
      Node.Settled (C.id j) done pending
        (Function.update s.node i n j)
  by_cases hSame : j = i
  · subst hSame
    rw [Function.update_self, Function.update_self]
    exact ⟨[], [], rfl, hNode⟩
  · rw [Function.update_of_ne hSame,
      Function.update_of_ne hSame]
    exact hSettles j

/- The scheduler takes the next change. -/
theorem settles_of_dequeue
    {update : StateChange}
    {rest : List StateChange}
    (hSettles : Settles C s)
    (hIdle : (s.node i).schedOps = []) :
    Settles C (s.dequeued C i update rest) := by
  intro j
  change ∃ done pending,
    Function.update s.handled i
      (s.handled i ++
        if update.state.id = C.id i then [update]
        else []) j = done ++ pending ∧
      Node.Settled (C.id j) done pending
        (Function.update s.node i _ j)
  by_cases hSame : j = i
  · subst hSame
    rw [Function.update_self, Function.update_self]
    rcases hSettles j with ⟨done, pending, hHandled, hOld⟩
    have hUpdates := hOld.updates
    rw [hIdle] at hUpdates
    have hNil : pending = [] :=
      List.map_eq_nil_iff.mp hUpdates.symm
    subst hNil
    rw [List.append_nil] at hHandled
    refine ⟨done, if update.state.id = C.id j then [update]
      else [], by rw [hHandled], { hOld with
        updates := ?_, first := ?_, sched := ?_ }⟩
    · rw [ownUpdates_schedLoop]
      split
      · rfl
      · rfl
    · exact fun op hOp => (schedLoop_tail_ops op hOp).1
    · intro op hOp hWorks
      rw [if_pos (works_schedLoop hOp hWorks)]
      exact List.append_ne_nil_of_right_ne_nil _
        (List.cons_ne_nil update [])
  · rw [Function.update_of_ne hSame,
      Function.update_of_ne hSame]
    exact hSettles j

theorem settles_of_step
    [Fintype ι]
    (hSettles : Settles C s)
    (hStep : Step C s s') :
    Settles C s' := by
  rcases hStep with ⟨action, hActs⟩
  cases hActs with
  | elevator i inputs t hCommand hSensed hStep =>
      have hSame := hSettles.put_same (i := i)
        (n := { s.node i with
          elevator := t
          commands := (s.node i).taken C.info inputs })
        fun _ _ hOld => { hOld with }
      exact hSame
  | dequeue i update rest hIdle hOut =>
      exact settles_of_dequeue hSettles hIdle
  | threads i n hStep =>
      exact hSettles.put fun _ _ hOld =>
        Node.settled_threads hOld hStep
  | sendChange i c rest hNodes hOut =>
      have hSame := hSettles.put_same (i := i)
        (n := { s.node i with stateUpdateOut := rest })
        fun _ _ hOld => { hOld with }
      exact hSame
  | sendCommand i c rest hNodes hOut =>
      have hSame := hSettles.put_same (i := i)
        (n := { s.node i with
          commands :=
            { (s.node i).commands with toRemote := rest } })
        fun _ _ hOld => { hOld with }
      exact hSame
  | receiveChange i source datagram now hNodes hSent =>
      exact hSettles.put_same fun _ _ hOld => { hOld with }
  | receiveCommand i source datagram hNodes hSent =>
      exact hSettles.put_same fun _ _ hOld => { hOld with }
  | assist i j state hNodes hGet => exact hSettles
  | recover i w state driver t hNodes hSent hRead hEnter =>
      exact hSettles.started (settled_started rfl rfl rfl)
  | restart i driver t hEnter =>
      exact hSettles.started (settled_started rfl rfl rfl)

/- In every run every scheduler has settled what it has
dequeued. -/
theorem settles_of_reachable
    [Fintype ι]
    (hReach : (system C).Reachable s) :
    Settles C s := by
  apply hReach.invariant
  · intro t hInit i
    rcases hInit.nodes i with ⟨driver, e, hEnter, hNode⟩
    rw [hInit.handled, hNode]
    exact ⟨[], [], rfl, settled_started rfl rfl rfl⟩
  · exact fun _ _ => settles_of_step

end Settles

end Building

end ElevatorControl
