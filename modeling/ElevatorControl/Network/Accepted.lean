import ElevatorControl.Network.Provenance

/-
  An accepted hall call is not forgotten.

  A node that has dequeued the press of one of its own buttons
  keeps a request for it until the elevator it has chosen has
  told that it goes there, and later that it has served the
  floor, whatever the network does to the packets. Only a node
  that starts again, or a thread of the scheduler that fails
  an assertion, forgets calls.

  Key definitions include:
    * `Node.Calling`
    * `Node.KeepsCall`
    * `Building.acked`

  Key theorems include:
    * `Node.keepsCall_threads`
    * `Building.keepsCall_of_acts`
    * `Building.accepted_call_kept`
-/

------------------------------------------------------------
-- Acknowledgements
------------------------------------------------------------

namespace ElevatorControl

/- The elevator with the id tells what it does at the floor. -/
def StateChange.Tells
    (type : ChangeType)
    (f id : Int)
    (c : StateChange) : Prop :=
  c.changeType = type ∧ c.changeFloor = f ∧ c.state.id = id

namespace Scheduler

/- The request an operation carries. -/
def Op.request : Op → Option Request
  | .resend r => some r
  | .reschedule r => some r
  | .push r => some r
  | _ => none

/- The change that an operation acknowledges requests for. -/
def Op.acked : Op → List StateChange
  | .ackRequest change _ => [change]
  | _ => []

/- A request that is sent again is carried on. -/
theorem resendRequest_carries
    (r : Request)
    (clock : TimePoint) :
    ∃ op ∈ resendRequest r clock, ∃ r',
      op.request = some r' ∧ r'.type = r.type ∧
        r'.command = r.command := by
  unfold resendRequest
  dsimp only
  split
  · exact ⟨_, List.mem_singleton_self _, _, rfl, rfl, rfl⟩
  · exact ⟨_, List.mem_cons_self, _, rfl, rfl, rfl⟩

end Scheduler

namespace RequestQueue

variable {τ : Type}

/- Every request is kept, perhaps with its new deadline in
place. -/
theorem Settles.destination
    {l l' : List (Tagged τ)}
    (hSettles : Settles l l') :
    ∀ t ∈ l, ∃ u ∈ l', Settled t u := by
  rcases hSettles with ⟨m, hPerm, hForall⟩
  have hDestination : ∀ t ∈ m, ∃ u ∈ l', Settled t u := by
    clear hPerm
    induction hForall with
    | nil => exact fun t ht => absurd ht List.not_mem_nil
    | cons hHead _ ih =>
        intro t ht
        rcases List.mem_cons.mp ht with rfl | ht
        · exact ⟨_, List.mem_cons_self, hHead⟩
        · rcases ih t ht with ⟨u, hu, hSettled⟩
          exact ⟨u, List.mem_cons_of_mem _ hu, hSettled⟩
  exact fun t ht => hDestination t (hPerm.mem_iff.mp ht)

/- Cleaning keeps what is not done. -/
theorem clean_keeps
    {q : RequestQueue τ}
    {t : Tagged τ}
    (hQueued : t ∈ q.list)
    (hNotDone : t.request.type ≠ .done) :
    ∃ u ∈ q.clean.1.list, u.request.type = t.request.type ∧
      u.request.command = t.request.command := by
  rcases (clean_settles q).destination t hQueued with
    ⟨u, hu, hSettled⟩
  have hSame : u.request.type = t.request.type ∧
      u.request.command = t.request.command := by
    rcases hSettled with hSame | hSame
    · rw [hSame]
      exact ⟨rfl, rfl⟩
    · rw [hSame]
      unfold Tagged.settle
      split
      · exact ⟨rfl, rfl⟩
      · exact ⟨rfl, rfl⟩
  refine ⟨u, ?_, hSame⟩
  rcases List.mem_append.mp hu with hDropped | hKept
  · have hDone := isDone_of_clean q u hDropped
    rw [Tagged.isDone, decide_eq_true_eq, hSame.1] at hDone
    exact absurd hDone hNotDone
  · exact hKept

end RequestQueue

namespace Node

open Scheduler

/- The changes a step of a thread acknowledges. -/
def Event.acked : Event → List StateChange
  | .executed op => op.acked
  | _ => []

/- What the threads of the scheduler still have to do. -/
def ops
    (s : Node) : List Op :=
  s.schedOps ++ s.reqOps

/- The request waits in the queue, or a thread carries it. -/
def Requested
    (r : Request)
    (s : Node) : Prop :=
  (∃ t ∈ s.requests.list, t.request = r) ∨
    ∃ op ∈ s.ops, op.request = some r

/- The node is about to choose an elevator for the call, or
has a request for it that is not done. -/
inductive Calling
    (x : CallDirection)
    (f : Int)
    (s : Node) : Prop where
  | choosing
      (hOp : .optimalElevator x.button f ∈ s.ops)
  | requested
      (r : Request)
      (hRequested : s.Requested r)
      (hPending : Pending x f r)

/- The elevator of the request has told that it goes there,
unless the request still waits for that. -/
def Promised
    (x : CallDirection)
    (f : Int)
    (acked : List StateChange)
    (r : Request) : Prop :=
  r.type = .notAcknowledged ∨
    ∃ c ∈ acked, c.Tells x.goingToServe f r.elevatorId

/- An elevator has told that it goes there, and later that it
has served the floor. -/
def Fulfilled
    (x : CallDirection)
    (f : Int)
    (acked : List StateChange) : Prop :=
  ∃ id first second, [first, second].Sublist acked ∧
    first.Tells x.goingToServe f id ∧
    second.Tells x.served f id

/- A call that is kept, with the changes that have been
acknowledged since it was accepted. -/
inductive KeepsCall
    (x : CallDirection)
    (f : Int)
    (acked : List StateChange)
    (s : Node) : Prop where
  | choosing
      (hOp : .optimalElevator x.button f ∈ s.ops)
  | requested
      (r : Request)
      (hRequested : s.Requested r)
      (hPending : Pending x f r)
      (hPromised : Promised x f acked r)

section Tracking

variable {x : CallDirection}
variable {f : Int}
variable {acked more : List StateChange}
variable {r r' : Request}
variable {n t u : Node}

theorem KeepsCall.calling
    (hKeeps : KeepsCall x f acked n) :
    n.Calling x f := by
  cases hKeeps with
  | choosing hOp => exact .choosing hOp
  | requested r hRequested hPending hPromised =>
      exact .requested r hRequested hPending

theorem Promised.mono
    (hPromised : Promised x f acked r) :
    Promised x f (acked ++ more) r := by
  rcases hPromised with hType | ⟨c, hc, hTells⟩
  · exact Or.inl hType
  · exact Or.inr ⟨c, List.mem_append_left more hc, hTells⟩

theorem Fulfilled.mono
    (hFulfilled : Fulfilled x f acked) :
    Fulfilled x f (acked ++ more) := by
  rcases hFulfilled with ⟨id, first, second, hBoth, hTold⟩
  exact ⟨id, first, second,
    hBoth.trans (List.sublist_append_left acked more), hTold⟩

theorem Pending.congr
    (hPending : Pending x f r)
    (hType : r'.type = r.type)
    (hCommand : r'.command = r.command) :
    Pending x f r' := by
  unfold Pending
  rw [hType, hCommand]
  exact hPending

theorem Promised.congr
    (hPromised : Promised x f acked r)
    (hType : r'.type = r.type)
    (hCommand : r'.command = r.command) :
    Promised x f acked r' := by
  unfold Promised Request.elevatorId
  rw [hType, hCommand]
  exact hPromised

/- What does not change the requests and the threads. -/
theorem KeepsCall.congr
    (hKeeps : KeepsCall x f acked n)
    (hQueue : t.requests = n.requests)
    (hOps : ∀ op ∈ n.ops, op ∈ t.ops) :
    KeepsCall x f (acked ++ more) t := by
  cases hKeeps with
  | choosing hOp => exact .choosing (hOps _ hOp)
  | requested r hRequested hPending hPromised =>
      refine .requested r ?_ hPending hPromised.mono
      unfold Requested
      rw [hQueue]
      rcases hRequested with hQueued | ⟨op, hOp, hCarried⟩
      · exact Or.inl hQueued
      · exact Or.inr ⟨op, hOps op hOp, hCarried⟩

/- An acknowledgement promises that the elevator goes there,
or fulfills the promise. -/
theorem acknowledged_cases
    {q : Tagged Unit}
    (hPending : Pending x f q.request)
    (hPromised : Promised x f acked q.request)
    (change : StateChange)
    (delta : MillisecondTime)
    (deadline : Option TimePoint) :
    (Pending x f
        (q.acknowledge change delta deadline).request ∧
      Promised x f (acked ++ [change])
        (q.acknowledge change delta deadline).request) ∨
      Fulfilled x f (acked ++ [change]) := by
  unfold Tagged.acknowledge
  split
  · next hMatches =>
      rcases hMatches with ⟨hId, hTrigger, hFloor⟩
      have hType := Request.triggerType_eq hPending.1
      rw [hTrigger] at hType
      have hAt : change.changeFloor = f :=
        hFloor.symm.trans hPending.2.1
      cases hState : q.request.type with
      | notAcknowledged =>
          rw [hState, if_pos rfl] at hType
          refine Or.inl ⟨⟨hPending.1, hPending.2.1, ?_⟩, ?_⟩
          · intro hDone
            cases hDone
          · exact Or.inr ⟨change, List.mem_append_right acked
              (List.mem_singleton_self change), hType, hAt,
              hId.symm⟩
      | notDone =>
          rw [hState, if_neg (by decide)] at hType
          rcases hPromised with hNew | ⟨c, hc, hTells⟩
          · rw [hState] at hNew
            cases hNew
          · exact Or.inr ⟨q.request.elevatorId, c, change,
              (List.singleton_sublist.mpr hc).append
                (List.Sublist.refl [change]),
              hTells, hType, hAt, hId.symm⟩
      | done => exact absurd hState hPending.2.2
  · exact Or.inl ⟨hPending, hPromised.mono⟩

------------------------------------------------------------
-- Operations
------------------------------------------------------------

variable {d : BasicDriverInfo}
variable {id : Int}
variable {op : Op}
variable {next : List Op}
variable {now : MillisecondTime}
variable {clock : TimePoint}

/- An operation leaves alone what the threads still have to
do, and where the waiter is. -/
theorem threads_executeAs
    (hExec : n.executeAs id d now clock op =
      .ok (t, next)) :
    t.schedOps = n.schedOps ∧ t.reqOps = n.reqOps ∧
      t.waiter = n.waiter := by
  cases op with
  | optimalElevator type floor =>
      rw [(exists_of_choose hExec).1]
      exact ⟨rfl, rfl, rfl⟩
  | reschedule r =>
      rw [(exists_of_reschedule hExec).1]
      exact ⟨rfl, rfl, rfl⟩
  | _ =>
      cases hExec
      exact ⟨rfl, rfl, rfl⟩

/- The choice of an elevator leads to a request. -/
theorem chosen_executeAs
    (hExec : n.executeAs id d now clock
      (.optimalElevator x.button f) = .ok (t, next)) :
    ∃ op ∈ next, ∃ r, op.request = some r ∧
      Pending x f r ∧ r.type = .notAcknowledged := by
  rcases exists_of_choose hExec with ⟨_, minId, _, rfl⟩
  unfold callElevator addAndForwardRequest
  rw [callType_eq]
  refine ⟨_, List.mem_cons_self, _, rfl,
    ⟨rfl, rfl, ?_⟩, rfl⟩
  intro hDone
  cases hDone

/- A request that an operation carries is carried on, or gets
into the queue. -/
theorem carried_executeAs
    (hExec : n.executeAs id d now clock op =
      .ok (t, next))
    (hCarried : op.request = some r)
    (hPending : Pending x f r)
    (hPromised : Promised x f acked r) :
    ∃ r', Pending x f r' ∧ Promised x f acked r' ∧
      ((∃ q ∈ t.requests.list, q.request = r') ∨
        ∃ op' ∈ next, op'.request = some r') := by
  cases op with
  | resend r₀ =>
      cases hCarried
      cases hExec
      rcases resendRequest_carries r clock with
        ⟨op', hOp, r', hNext, hType, hCommand⟩
      exact ⟨r', hPending.congr hType hCommand,
        hPromised.congr hType hCommand,
        Or.inr ⟨op', hOp, hNext⟩⟩
  | reschedule r₀ =>
      cases hCarried
      rcases exists_of_reschedule hExec with
        ⟨_, minId, _, rfl⟩
      refine ⟨(rescheduled r minId).updateDeadline clock,
        ⟨hPending.1, hPending.2.1, ?_⟩, Or.inl rfl,
        Or.inr ⟨_, List.mem_cons_self, rfl⟩⟩
      intro hDone
      cases hDone
  | push r₀ =>
      cases hCarried
      cases hExec
      exact ⟨r, hPending, hPromised, Or.inl
        ⟨⟨(), r⟩, RequestQueue.push_perm.mem_iff.mpr
          List.mem_cons_self, rfl⟩⟩
  | _ => cases hCarried

/- A request in the queue stays there, unless the operation
acknowledges it for the last time. -/
theorem queued_executeAs
    {q : Tagged Unit}
    (hExec : n.executeAs id d now clock op =
      .ok (t, next))
    (hQueued : q ∈ n.requests.list)
    (hPending : Pending x f q.request)
    (hPromised : Promised x f acked q.request) :
    (∃ q' ∈ t.requests.list, Pending x f q'.request ∧
        Promised x f (acked ++ op.acked) q'.request) ∨
      Fulfilled x f (acked ++ op.acked) := by
  cases op with
  | optimalElevator type floor =>
      rw [(exists_of_choose hExec).1]
      exact Or.inl ⟨q, hQueued, hPending, hPromised.mono⟩
  | reschedule r =>
      rw [(exists_of_reschedule hExec).1]
      exact Or.inl ⟨q, hQueued, hPending, hPromised.mono⟩
  | push r =>
      cases hExec
      exact Or.inl ⟨q, RequestQueue.push_perm.mem_iff.mpr
        (List.mem_cons_of_mem _ hQueued), hPending,
        hPromised.mono⟩
  | ackRequest change delta =>
      cases hExec
      rcases acknowledged_cases hPending hPromised change delta
          (if delta = 0 then none
            else some (clock + milliseconds delta)) with
        hKept | hFulfilled
      · refine Or.inl ⟨_, ?_, hKept.1, hKept.2⟩
        change _ ∈
          (n.requests.ackRequest change delta clock).list
        rw [RequestQueue.list_ackRequest]
        exact List.mem_map_of_mem hQueued
      · exact Or.inr hFulfilled
  | _ =>
      cases hExec
      exact Or.inl ⟨q, hQueued, hPending, hPromised.mono⟩

/- An operation keeps the call. -/
theorem keepsCall_executeAs
    (hExec : n.executeAs id d now clock op =
      .ok (t, next))
    (hKept : ∀ op' ∈ n.ops, op' = op ∨ op' ∈ u.ops)
    (hNext : ∀ op' ∈ next, op' ∈ u.ops)
    (hQueue : u.requests = t.requests)
    (hKeeps : KeepsCall x f acked n) :
    KeepsCall x f (acked ++ op.acked) u ∨
      Fulfilled x f (acked ++ op.acked) := by
  cases hKeeps with
  | choosing hOp =>
      rcases hKept _ hOp with rfl | hLater
      · rcases chosen_executeAs hExec with
          ⟨op', hOp', r, hCarried, hPending, hNew⟩
        exact Or.inl (.requested r
          (Or.inr ⟨op', hNext op' hOp', hCarried⟩) hPending
          (Or.inl hNew))
      · exact Or.inl (.choosing hLater)
  | requested r hRequested hPending hPromised =>
      rcases hRequested with
        ⟨q, hQueued, rfl⟩ | ⟨op', hOp, hCarried⟩
      · rcases queued_executeAs hExec hQueued hPending
          hPromised with
          ⟨q', hQueued', hPending', hPromised'⟩ | hFulfilled
        · refine Or.inl (.requested q'.request ?_ hPending'
            hPromised')
          unfold Requested
          rw [hQueue]
          exact Or.inl ⟨q', hQueued', rfl⟩
        · exact Or.inr hFulfilled
      · rcases hKept op' hOp with rfl | hLater
        · rcases carried_executeAs hExec hCarried hPending
            hPromised with ⟨r', hPending', hPromised', hAt⟩
          refine Or.inl (.requested r' ?_ hPending'
            hPromised'.mono)
          unfold Requested
          rw [hQueue]
          rcases hAt with hQueued | ⟨op'', hOp'', hCarried'⟩
          · exact Or.inl hQueued
          · exact Or.inr ⟨op'', hNext op'' hOp'', hCarried'⟩
        · exact Or.inl (.requested r
            (Or.inr ⟨op', hLater, hCarried⟩) hPending
            hPromised.mono)

------------------------------------------------------------
-- Waiting
------------------------------------------------------------

/- The request that is taken out is sent again. -/
theorem KeepsCall.take
    (hKeeps : KeepsCall x f acked n)
    (hDone : n.reqOps = [])
    (hEvent : n.expired clock ≠ .failed) :
    KeepsCall x f acked (n.take clock) := by
  have hOps : ∀ op ∈ n.ops, op ∈ (n.take clock).ops := by
    intro op hOp
    unfold ops at hOp
    rw [hDone, List.append_nil] at hOp
    exact List.mem_append_left _ hOp
  cases hKeeps with
  | choosing hOp => exact .choosing (hOps _ hOp)
  | requested r hRequested hPending hPromised =>
      refine .requested r ?_ hPending hPromised
      rcases hRequested with
        ⟨q, hQueued, hSame⟩ | ⟨op, hOp, hCarried⟩
      · rcases RequestQueue.takeDue_cases n.requests clock with
          hNone | ⟨top, hTop, hDue, ⟨hTweak, hSome⟩ |
            ⟨hTweak, e, hFails⟩⟩
        · refine Or.inl ⟨q, ?_, hSame⟩
          change q ∈ (n.requests.takeDue clock).1.list
          rw [hNone]
          exact hQueued
        · rcases List.mem_cons.mp
            ((RequestQueue.pop_perm hTop).mem_iff.mp hQueued)
            with hTaken | hLeft
          · refine Or.inr ⟨.resend q.request, ?_,
              congrArg some hSame⟩
            refine List.mem_append_right _ ?_
            change _ ∈ (n.toSchedulerState.take clock).1.reqOps
            rw [SchedulerState.reqOps_take
              (congrArg Prod.snd hSome), hTaken]
            exact List.mem_singleton_self _
          · refine Or.inl ⟨q, ?_, hSame⟩
            change q ∈ (n.requests.takeDue clock).1.list
            rw [hSome]
            exact hLeft
        · refine absurd ?_ hEvent
          unfold expired
          rw [hFails]
      · exact Or.inr ⟨op, hOps op hOp, hCarried⟩

/- Cleaning drops no request that is not done. -/
theorem KeepsCall.cleaned
    (hKeeps : KeepsCall x f acked n) :
    KeepsCall x f acked n.cleaned := by
  cases hKeeps with
  | choosing hOp => exact .choosing hOp
  | requested r hRequested hPending hPromised =>
      rcases hRequested with
        ⟨q, hQueued, hSame⟩ | ⟨op, hOp, hCarried⟩
      · rcases RequestQueue.clean_keeps hQueued
            (by rw [hSame]; exact hPending.2.2) with
          ⟨q', hQueued', hType, hCommand⟩
        rw [hSame] at hType hCommand
        exact .requested q'.request
          (Or.inl ⟨q', hQueued', rfl⟩)
          (hPending.congr hType hCommand)
          (hPromised.congr hType hCommand)
      · exact .requested r (Or.inr ⟨op, hOp, hCarried⟩)
          hPending hPromised

/- A pass of the waiter keeps the call. -/
theorem KeepsCall.pass
    {d0 : TimePoint}
    (hKeeps : KeepsCall x f acked n)
    (hDone : n.reqOps = []) :
    KeepsCall x f acked (n.pass d0 clock) := by
  have hReady : n.cleaned.requests.topTweaked = false :=
    (RequestQueue.topReady_clean n.requests).2
  have hEvent : n.cleaned.expired clock ≠ .failed := by
    unfold expired
    rcases RequestQueue.takeDue_clean hReady clock with
      hNone | ⟨top, -, -, hSome⟩
    · rw [hNone]
      exact fun hSame => Event.noConfusion hSame
    · rw [hSome]
      exact fun hSame => Event.noConfusion hSame
  have hCleaned := hKeeps.cleaned
  rw [Node.pass_eq]
  split
  · exact hCleaned.take hDone hEvent
  · cases hCleaned with
    | choosing hOp => exact .choosing hOp
    | requested r hRequested hPending hPromised =>
        exact .requested r hRequested hPending hPromised

/- The thread that waits has nothing else to do. -/
def Waits
    (s : Node) : Prop :=
  s.waiter = .idle ∨ s.reqOps = []

theorem waits_threads
    {event : Event}
    (hWaits : n.Waits)
    (hStep : Threads AnyTime d id n event t) :
    t.Waits := by
  cases hStep with
  | schedule t op ops next now clock hOps hTime hExec =>
      rcases threads_executeAs hExec with ⟨-, hReq, hWaiter⟩
      unfold Waits
      change t.waiter = .idle ∨ t.reqOps = []
      rw [hReq, hWaiter]
      exact hWaits
  | scheduleFails op ops now clock e hOps hTime hExec =>
      exact hWaits
  | wait d0 hIdle hDone => exact Or.inr hDone
  | pass d0 clock hCalled =>
      have hDone : n.reqOps = [] := by
        apply hWaits.resolve_left
        rw [hCalled]
        exact fun hSame => Waiter.noConfusion hSame
      rw [Node.pass_eq]
      split
      · exact Or.inl rfl
      · exact Or.inr hDone
  | wake d0 deadline now hBlocked =>
      refine Or.inr (hWaits.resolve_left ?_)
      rw [hBlocked]
      exact fun hSame => Waiter.noConfusion hSame
  | expire d0 deadline now hBlocked => exact Or.inl rfl
  | check t op ops next now clock hOps hTime hExec =>
      rcases threads_executeAs hExec with ⟨-, -, hWaiter⟩
      refine Or.inl (hWaiter.trans (hWaits.resolve_right ?_))
      rw [hOps]
      exact List.cons_ne_nil op ops
  | checkFails op ops now clock e hOps hTime hExec =>
      exact Or.inr rfl

/- A step of a scheduler thread that does not fail keeps the
call. -/
theorem keepsCall_threads
    {event : Event}
    (hWaits : n.Waits)
    (hStep : Threads AnyTime d id n event t)
    (hEvent : event ≠ .failed)
    (hKeeps : KeepsCall x f acked n) :
    KeepsCall x f (acked ++ event.acked) t ∨
      Fulfilled x f (acked ++ event.acked) := by
  cases hStep with
  | schedule t op ops next now clock hOps hTime hExec =>
      rcases threads_executeAs hExec with ⟨-, hReq, -⟩
      refine keepsCall_executeAs hExec ?_ ?_ rfl hKeeps
      · intro op' hOp
        unfold Node.ops at hOp ⊢
        rw [hOps] at hOp
        rcases List.mem_append.mp hOp with hSched | hOther
        · rcases List.mem_cons.mp hSched with hSame | hLater
          · exact Or.inl hSame
          · exact Or.inr (List.mem_append_left _
              (List.mem_append_right next hLater))
        · refine Or.inr (List.mem_append_right _ ?_)
          change op' ∈ t.reqOps
          rw [hReq]
          exact hOther
      · intro op' hOp
        exact List.mem_append_left _
          (List.mem_append_left ops hOp)
  | check t op ops next now clock hOps hTime hExec =>
      rcases threads_executeAs hExec with ⟨hSched, -, -⟩
      refine keepsCall_executeAs hExec ?_ ?_ rfl hKeeps
      · intro op' hOp
        unfold Node.ops at hOp ⊢
        rw [hOps] at hOp
        rcases List.mem_append.mp hOp with hOther | hReq
        · refine Or.inr (List.mem_append_left _ ?_)
          change op' ∈ t.schedOps
          rw [hSched]
          exact hOther
        · rcases List.mem_cons.mp hReq with hSame | hLater
          · exact Or.inl hSame
          · exact Or.inr (List.mem_append_right _
              (List.mem_append_right next hLater))
      · intro op' hOp
        exact List.mem_append_right _
          (List.mem_append_left ops hOp)
  | scheduleFails op ops now clock e hOps hTime hExec =>
      exact absurd rfl hEvent
  | checkFails op ops now clock e hOps hTime hExec =>
      exact absurd rfl hEvent
  | wait d0 hIdle hDone =>
      exact Or.inl (hKeeps.congr rfl fun op hOp => hOp)
  | wake d0 deadline now hBlocked =>
      exact Or.inl (hKeeps.congr rfl fun op hOp => hOp)
  | pass d0 clock hCalled =>
      have hDone : n.reqOps = [] := by
        apply hWaits.resolve_left
        rw [hCalled]
        exact fun hSame => Waiter.noConfusion hSame
      refine Or.inl ?_
      rw [show acked ++ Event.waited.acked = acked from
        List.append_nil acked]
      exact hKeeps.pass hDone
  | expire d0 deadline now hBlocked =>
      have hDone : n.reqOps = [] := by
        apply hWaits.resolve_left
        rw [hBlocked]
        exact fun hSame => Waiter.noConfusion hSame
      have hTaken := hKeeps.take hDone hEvent
      exact Or.inl (hTaken.congr rfl fun op hOp => hOp)

end Tracking

end Node

------------------------------------------------------------
-- Buildings
------------------------------------------------------------

namespace Building

open Node Scheduler

variable {ι : Type}
variable [DecidableEq ι]

/- The changes for which the scheduler of the node has
acknowledged requests, in their order. -/
def Action.acked
    (i : ι) : Action ι → List StateChange
  | .thread j event => if j = i then event.acked else []
  | _ => []

/- The changes the node has acknowledged during the actions,
in their order. -/
def acked
    (i : ι)
    (actions : List (Action ι)) : List StateChange :=
  actions.flatMap (Action.acked i)

section Buildings

variable [Fintype ι]
variable {C : Site ι}
variable {s s' t : Building ι}
variable {i : ι}
variable {action : Action ι}
variable {actions : List (Action ι)}
variable {x : CallDirection}
variable {f : Int}
variable {before : List StateChange}

/- A step that is not one of its threads, and no start,
leaves the scheduler of a node alone, or gives it a change
to handle. -/
theorem scheduler_of_acts
    (hActs : Acts C s action s')
    (hStart : action ≠ .start i)
    (hThread : ∀ event, action ≠ .thread i event) :
    (s'.node i).requests = (s.node i).requests ∧
      (s'.node i).reqOps = (s.node i).reqOps ∧
      (s'.node i).waiter = (s.node i).waiter ∧
      ((s'.node i).schedOps = (s.node i).schedOps ∨
        (s.node i).schedOps = []) := by
  have hPut : ∀ (j : ι) (n : Node),
      (j = i → n.requests = (s.node i).requests ∧
        n.reqOps = (s.node i).reqOps ∧
        n.waiter = (s.node i).waiter ∧
        (n.schedOps = (s.node i).schedOps ∨
          (s.node i).schedOps = [])) →
      (Function.update s.node j n i).requests =
          (s.node i).requests ∧
        (Function.update s.node j n i).reqOps =
          (s.node i).reqOps ∧
        (Function.update s.node j n i).waiter =
          (s.node i).waiter ∧
        ((Function.update s.node j n i).schedOps =
            (s.node i).schedOps ∨
          (s.node i).schedOps = []) := by
    intro j n hSame
    by_cases hNode : i = j
    · subst hNode
      rw [Function.update_self]
      exact hSame rfl
    · rw [Function.update_of_ne hNode]
      exact ⟨rfl, rfl, rfl, Or.inl rfl⟩
  cases hActs with
  | elevator j inputs t hCommand hSensed hStep =>
      apply hPut j
      rintro rfl
      exact ⟨rfl, rfl, rfl, Or.inl rfl⟩
  | dequeue j update rest hIdle hOut =>
      apply hPut j
      rintro rfl
      exact ⟨rfl, rfl, rfl, Or.inr hIdle⟩
  | threads j n hStep =>
      apply hPut j
      rintro rfl
      exact absurd rfl (hThread _)
  | sendChange j c rest hNodes hOut =>
      apply hPut j
      rintro rfl
      exact ⟨rfl, rfl, rfl, Or.inl rfl⟩
  | sendCommand j c rest hNodes hOut =>
      apply hPut j
      rintro rfl
      exact ⟨rfl, rfl, rfl, Or.inl rfl⟩
  | receiveChange j source datagram now hNodes hSent =>
      apply hPut j
      rintro rfl
      exact ⟨rfl, rfl, rfl, Or.inl rfl⟩
  | receiveCommand j source datagram hNodes hSent =>
      apply hPut j
      rintro rfl
      exact ⟨rfl, rfl, rfl, Or.inl rfl⟩
  | assist j k state hNodes hGet =>
      exact ⟨rfl, rfl, rfl, Or.inl rfl⟩
  | recover j w state driver t hNodes hSent hRead hEnter =>
      apply hPut j
      rintro rfl
      exact absurd rfl hStart
  | restart j driver t hEnter =>
      apply hPut j
      rintro rfl
      exact absurd rfl hStart

/- The thread of every node that waits has nothing else to
do. -/
theorem waits_of_acts
    (hWaits : ∀ i, (s.node i).Waits)
    (hActs : Acts C s action s')
    (i : ι) :
    (s'.node i).Waits := by
  have hStarted : ∀ (j : ι) (n : Node), n.waiter = .idle →
      (Function.update s.node j n i).Waits := by
    intro j n hIdle
    by_cases hNode : i = j
    · subst hNode
      rw [Function.update_self]
      exact Or.inl hIdle
    · rw [Function.update_of_ne hNode]
      exact hWaits i
  by_cases hThread : ∃ event, action = .thread i event
  · rcases hThread with ⟨event, rfl⟩
    cases hActs with
    | threads _ n hStep =>
        change (Function.update s.node i n i).Waits
        rw [Function.update_self]
        exact waits_threads (hWaits i) hStep
  · by_cases hStart : action = .start i
    · subst hStart
      cases hActs with
      | recover _ w state driver t hNodes hSent hRead hEnter =>
          exact hStarted i _ rfl
      | restart _ driver t hEnter => exact hStarted i _ rfl
    · rcases scheduler_of_acts hActs hStart
        (fun event hSame => hThread ⟨event, hSame⟩) with
        ⟨-, hReq, hWaiter, -⟩
      unfold Waits
      rw [hReq, hWaiter]
      exact hWaits i

theorem waits_of_reachable
    (hReach : (system C).Reachable s) :
    ∀ i, (s.node i).Waits := by
  refine TransitionSystem.Reachable.invariant
    (P := fun s : Building ι => ∀ i, (s.node i).Waits)
    ?_ ?_ hReach
  · intro s hInit i
    rcases hInit.nodes i with ⟨driver, t, -, hNode⟩
    rw [hNode]
    exact Or.inl rfl
  · intro s s' hWaits hStep
    rcases hStep with ⟨action, hActs⟩
    exact waits_of_acts hWaits hActs

/- A step in which the node neither starts nor fails keeps the
call. -/
theorem keepsCall_of_acts
    (hWaits : (s.node i).Waits)
    (hActs : Acts C s action s')
    (hStart : action ≠ .start i)
    (hFails : action ≠ .thread i .failed)
    (hKeeps : KeepsCall x f before (s.node i)) :
    KeepsCall x f (before ++ action.acked i) (s'.node i) ∨
      Fulfilled x f (before ++ action.acked i) := by
  by_cases hThread : ∃ event, action = .thread i event
  · rcases hThread with ⟨event, rfl⟩
    have hAcked : (Action.thread i event).acked i =
        event.acked := if_pos rfl
    have hEvent : event ≠ .failed := by
      rintro rfl
      exact hFails rfl
    rw [hAcked]
    cases hActs with
    | threads _ n hStep =>
        change Node.KeepsCall x f _
          (Function.update s.node i n i) ∨ _
        rw [Function.update_self]
        exact keepsCall_threads hWaits hStep hEvent hKeeps
  · rcases scheduler_of_acts hActs hStart
      (fun event hSame => hThread ⟨event, hSame⟩) with
      ⟨hQueue, hReq, -, hSched⟩
    refine Or.inl (hKeeps.congr hQueue ?_)
    intro op hOp
    unfold Node.ops at hOp ⊢
    rw [hReq]
    rcases hSched with hSame | hIdle
    · rw [hSame]
      exact hOp
    · rw [hIdle, List.nil_append] at hOp
      exact List.mem_append_right _ hOp

/- No report is forgotten. -/
theorem history_of_acts
    (hActs : Acts C s action s') :
    ∃ new, s'.history = s.history ++ new := by
  cases hActs with
  | elevator j inputs t hCommand hSensed hStep =>
      exact ⟨_, rfl⟩
  | _ => exact ⟨[], (List.append_nil _).symm⟩

/- What a thread carries out is what it had to do next. -/
theorem op_of_threads
    {d : BasicDriverInfo}
    {id : Int}
    {n n' : Node}
    {event : Event}
    {op : Op}
    (hStep : Threads AnyTime d id n event n')
    (hEvent : event = .executed op) :
    op ∈ n.schedOps ∨ op ∈ n.reqOps := by
  cases hStep with
  | schedule t op' ops next now clock hOps hExec =>
      cases hEvent
      rw [hOps]
      exact Or.inl List.mem_cons_self
  | check t op' ops next now clock hOps hExec =>
      cases hEvent
      rw [hOps]
      exact Or.inr List.mem_cons_self
  | expire d0 deadline now hBlocked =>
      unfold expired at hEvent
      split at hEvent
      · cases hEvent
      · cases hEvent
  | _ => cases hEvent

theorem exists_of_mem_acked
    {event : Event}
    {c : StateChange}
    (hAcked : c ∈ event.acked) :
    ∃ delta, event = .executed (.ackRequest c delta) := by
  cases event with
  | executed op =>
      cases op with
      | ackRequest change delta =>
          rw [List.mem_singleton.mp hAcked]
          exact ⟨delta, rfl⟩
      | _ => exact absurd hAcked List.not_mem_nil
  | waited => exact absurd hAcked List.not_mem_nil
  | failed => exact absurd hAcked List.not_mem_nil

/- Every change that is acknowledged has been reported. -/
theorem traced_acked
    {c : StateChange}
    (hInv : Inv C s)
    (hActs : Acts C s action s')
    (hAcked : c ∈ action.acked i) :
    Traced s.history c := by
  cases hActs with
  | threads j n hStep =>
      change c ∈ if j = i then _ else [] at hAcked
      split at hAcked
      · rcases exists_of_mem_acked hAcked with
          ⟨delta, hEvent⟩
        have hTraced : OpAccounted C s.history
            (.ackRequest c delta) := by
          rcases op_of_threads hStep hEvent with
            hSched | hReq
          · exact (hInv.nodes j).sched _ hSched
          · exact (hInv.nodes j).req _ hReq
        exact hTraced
      · exact absurd hAcked List.not_mem_nil
  | _ => exact absurd hAcked List.not_mem_nil

omit [Fintype ι] in
theorem acked_append
    (i : ι)
    (actions : List (Action ι))
    (action : Action ι) :
    acked i (actions ++ [action]) =
      acked i actions ++ action.acked i := by
  unfold acked
  rw [List.flatMap_append, List.flatMap_singleton]

theorem traced_of_path
    (hReach : (system C).Reachable s)
    (hPath : Path C s actions t) :
    ∀ c ∈ acked i actions, Traced t.history c := by
  induction hPath with
  | refl => exact fun c hc => absurd hc List.not_mem_nil
  | @tail actions action t u hPath hActs ih =>
      rcases history_of_acts hActs with ⟨new, hHistory⟩
      intro c hc
      rw [hHistory]
      apply Traced.mono
      rw [acked_append] at hc
      rcases List.mem_append.mp hc with hOld | hNew
      · exact ih c hOld
      · exact traced_acked
          (inv_of_reachable (hPath.reachable hReach)) hActs
          hNew

/- A call is kept as long as the node neither starts again
nor fails. -/
theorem keepsCall_of_path
    (hReach : (system C).Reachable s)
    (hPath : Path C s actions t)
    (hRuns : ∀ action ∈ actions,
      action ≠ .start i ∧ action ≠ .thread i .failed)
    (hKeeps : KeepsCall x f [] (s.node i)) :
    KeepsCall x f (acked i actions) (t.node i) ∨
      Fulfilled x f (acked i actions) := by
  induction hPath with
  | refl => exact Or.inl hKeeps
  | @tail actions action t u hPath hActs ih =>
      rcases hRuns action (List.mem_append_right actions
        (List.mem_singleton_self action)) with
        ⟨hStart, hFails⟩
      rw [acked_append]
      rcases ih fun action hMem => hRuns action
        (List.mem_append_left _ hMem) with
        hKept | hFulfilled
      · exact keepsCall_of_acts (waits_of_reachable
          (hPath.reachable hReach) i) hActs hStart hFails
          hKept
      · exact Or.inr hFulfilled.mono

omit [DecidableEq ι] [Fintype ι] in
/- The node chooses an elevator for an own press. -/
theorem keepsCall_press
    {update : StateChange}
    (hOwn : update.state.id = C.id i)
    (hPress : update.Presses x f)
    (hTaken : (s.node i).schedOps =
      schedLoop (C.id i) update) :
    KeepsCall x f [] (s.node i) := by
  refine .choosing (List.mem_append_left _ ?_)
  rw [hTaken]
  refine List.mem_cons_of_mem _ (List.mem_append_right _ ?_)
  rcases hPress with ⟨hType, hFloor⟩
  have hChoose : Op.optimalElevator x.button f ∈
      handleButtonPress (C.id i) update.state.id x.button
        f := by
    unfold handleButtonPress
    rw [if_pos hOwn]
    exact List.mem_cons_of_mem _ List.mem_cons_self
  unfold handleChange
  rw [hType, hFloor]
  cases x with
  | up => exact hChoose
  | down => exact hChoose

/-
  In every run of the building, a call that a node has accepted
  by dequeuing the press of one of its own buttons stays with
  the node until it has acknowledged, one after the other, that
  an elevator goes there and that it has served the floor, and
  the elevator has reported both.
-/
theorem accepted_call_kept
    {update : StateChange}
    (hReach : (system C).Reachable s)
    (hOwn : update.state.id = C.id i)
    (hPress : update.Presses x f)
    (hTaken : (s.node i).schedOps =
      schedLoop (C.id i) update)
    (hPath : Path C s actions t)
    (hRuns : ∀ action ∈ actions,
      action ≠ .start i ∧ action ≠ .thread i .failed) :
    (t.node i).Calling x f ∨
      ∃ id first second,
        [first, second].Sublist (acked i actions) ∧
        first.Tells x.goingToServe f id ∧
        second.Tells x.served f id ∧
        Traced t.history first ∧ Traced t.history second := by
  rcases keepsCall_of_path hReach hPath hRuns
    (keepsCall_press hOwn hPress hTaken) with
    hKept | ⟨id, first, second, hBoth, hFirst, hSecond⟩
  · exact Or.inl hKept.calling
  · have hTraced := traced_of_path (i := i) hReach hPath
    refine Or.inr ⟨id, first, second, hBoth, hFirst, hSecond,
      hTraced first ?_, hTraced second ?_⟩
    · exact hBoth.subset List.mem_cons_self
    · exact hBoth.subset
        (List.mem_cons_of_mem first List.mem_cons_self)

end Buildings

/- The lamp of the button has been lit, and an elevator is
about to be chosen. -/
theorem accepted_call_kept_press :
    ∃ (s t : Building (Fin 2)) (actions : List (Action (Fin 2)))
      (update : StateChange),
      (system twoElevators).Reachable s ∧
      update.Presses .down 1 ∧
      (s.node 0).schedOps =
        schedLoop (twoElevators.id 0) update ∧
      Path twoElevators s actions t ∧
      (t.node 0).Calling .down 1 := by
  rcases reachable_pressed with
    ⟨s, st, hReach, hOut, hId, hIdle, -⟩
  rcases acts_lights hOut hId hIdle with
    ⟨s₁, t, hTaken, hOps, hPath, -⟩
  have hReach₁ := hReach.step ⟨_, hTaken⟩
  have hPress : StateChange.Presses .down 1
      ⟨.buttonDownPressed, 1, st⟩ :=
    ⟨rfl, rfl⟩
  refine ⟨s₁, t, _, _, hReach₁, hPress, hOps, hPath, ?_⟩
  have hKept := accepted_call_kept hReach₁ hId hPress hOps
    hPath ?_
  · rcases hKept with hCalling | ⟨_, first, second, hBoth, -⟩
    · exact hCalling
    · exact absurd (hBoth.subset List.mem_cons_self)
        List.not_mem_nil
  · intro action hMem
    simp only [List.mem_cons, List.not_mem_nil,
      or_false] at hMem
    rcases hMem with rfl | rfl | rfl
    all_goals
      constructor
      · intro hSame
        cases hSame
      · intro hSame
        cases hSame

end Building

end ElevatorControl
