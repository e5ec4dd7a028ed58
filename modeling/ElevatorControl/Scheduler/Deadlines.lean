import ElevatorControl.Scheduler.Acknowledged

/-
  The deadlines of requests that have not been acknowledged.

  A new request has a deadline of 100 milliseconds, and an
  acknowledged one of 30 seconds. The period is kept apart
  from the type of the request, and a request that is
  reassigned to another elevator keeps its period.

  Stamps tell when a request was last made ready for a push,
  and whether it has been acknowledged since it was last
  assigned.

  Key definitions include:
    * `Dispatch.Stamp`
    * `Dispatch.stampsAfter`
    * `Dispatch.ShortDeadlines`
    * `Dispatch.KeepsAssignment`
    * `Dispatch.Timely`

  Key theorems include:
    * `Dispatch.timely_of_step`
    * `Dispatch.short_deadlines`
-/

------------------------------------------------------------
-- Stamps
------------------------------------------------------------

namespace ElevatorControl

namespace Dispatch

open Scheduler

/- When the deadline of a request has been set last, and
whether by an acknowledgement. -/
structure Stamp where
  updated : TimePoint
  acknowledged : Bool

/- The change acknowledges that the request is going to be
served. -/
def Acknowledges
    (change : StateChange)
    (r : Request) : Prop :=
  (change.changeType = .goingToServeUp ∨
      change.changeType = .goingToServeDown) ∧
    r.elevatorId = change.state.id ∧
    r.triggerType = change.changeType ∧
    r.triggerFloor = change.changeFloor

instance
    (change : StateChange)
    (r : Request) :
    Decidable (Acknowledges change r) := by
  unfold Acknowledges
  infer_instance

/-
  The stamps after an action. A choice of an elevator assigns
  a request, and a deadline is updated when a request is made
  ready for a push. The acknowledgement of a request counts
  when it is processed while the request is queued.
-/
def stampsAfter
    (a : Action)
    (s : Dispatch)
    (stamps : Nat → Stamp) : Nat → Stamp :=
  match a with
  | .schedule read =>
      match s.schedOps with
      | .optimalElevator _ _ :: _ =>
          Function.update stamps s.updates ⟨read, false⟩
      | .ackRequest change _ :: _ => fun k =>
          if ∃ t ∈ s.requests.list,
              t.tag = k ∧ Acknowledges change t.request then
            { stamps k with acknowledged := true }
          else stamps k
      | _ => stamps
  | .check read =>
      match s.reqOps with
      | .resend r :: _ =>
          match resendRequest r read with
          | .push _ :: _ =>
              Function.update stamps s.reqTag
                { stamps s.reqTag with updated := read }
          | _ => stamps
      | .reschedule _ :: _ =>
          Function.update stamps s.reqTag ⟨read, false⟩
      | _ => stamps
  | _ => stamps

/- The scheduler with the stamps of its requests. -/
structure Stamped where
  dispatch : Dispatch
  stamps : Nat → Stamp

/- The runs whose actions all meet a condition. -/
def stamped
    (bounds : BasicDriverInfo)
    (localElevId : Int)
    (C : Action → Dispatch → Prop) :
    TransitionSystem Stamped where
  Init s := ∃ clock,
    s = ⟨initial clock, fun _ => ⟨clock, false⟩⟩
  Step s s' := ∃ a, C a s.dispatch ∧
    step bounds localElevId a s.dispatch =
      some s'.dispatch ∧
    s'.stamps = stampsAfter a s.dispatch s.stamps

/- The request waits for the deadline of an acknowledged
one, or is going to. -/
def OnLongDeadline
    (stamp : Stamp)
    (t : Tagged Nat) : Prop :=
  t.request.deadlineDelta = 30 * 1000 ∨
    t.isTweaked = true ∨
    stamp.updated + milliseconds 100 < t.deadline

/-
  Requests without acknowledgement are on the short deadline,
  and those on the long one have been acknowledged since they
  were last assigned.
-/
structure ShortDeadlines
    (s : Stamped) : Prop where
  short : ∀ t ∈ s.dispatch.requests.list,
    t.request.type = .notAcknowledged →
      t.deadline ≤
        (s.stamps t.tag).updated + milliseconds 100
  long : ∀ t ∈ s.dispatch.requests.list,
    OnLongDeadline (s.stamps t.tag) t →
      (s.stamps t.tag).acknowledged = true

/- No request that has been acknowledged is reassigned. -/
def KeepsAssignment
    (bounds : BasicDriverInfo)
    (a : Action)
    (s : Dispatch) : Prop :=
  ∀ read r ops,
    a = .check read →
    s.reqOps = .reschedule r :: ops →
    r.type ≠ .notAcknowledged →
      ∀ minId,
        optimalElevator bounds (nowAt read)
            (requestButton r) r.command.targetFloor
            s.globalState.elevators ≠ .ok minId

------------------------------------------------------------
-- Invariant
------------------------------------------------------------

/- The period belongs to the type of the request. -/
structure Paired
    (stamp : Stamp)
    (r : Request) : Prop where
  short : r.type = .notAcknowledged →
    r.deadlineDelta = 100 ∧ r.tweakedDeadline = none
  long : r.type ≠ .notAcknowledged →
    stamp.acknowledged = true

/- A request that is queued, or about to be. -/
structure Timed
    (stamp : Stamp)
    (r : Request) : Prop extends Paired stamp r where
  deadline : r.type = .notAcknowledged →
    r.deadline = stamp.updated + milliseconds 100

/- The request an operation is about. -/
def Ready
    (stamp : Stamp) : Op → Prop
  | .resend r => Paired stamp r
  | .reschedule r => Paired stamp r
  | .push r => Timed stamp r
  | _ => True

/- A change comes with the period it gives to requests. -/
def Periodic : Op → Prop
  | .ackRequest change delta =>
      (delta = 30 * 1000 ∧
          (change.changeType = .goingToServeUp ∨
            change.changeType = .goingToServeDown)) ∨
        (delta = 0 ∧
          ∃ x, change.changeType = CallDirection.served x)
  | _ => True

/- The requests, wherever they are, have the deadlines that
their stamps tell. -/
structure Timely
    (s : Stamped) : Prop where
  numbered : Numbered s.dispatch
  queued : ∀ t ∈ s.dispatch.requests.list,
    Timed (s.stamps t.tag) t.request
  periodic : ∀ op ∈ s.dispatch.schedOps, Periodic op
  scheduled : ∀ r, .push r ∈ s.dispatch.schedOps →
    Timed (s.stamps s.dispatch.updates) r
  resent : ∀ op ∈ s.dispatch.reqOps,
    Ready (s.stamps s.dispatch.reqTag) op

section Steps

variable {s s' : Dispatch}
variable {σ : Nat → Stamp}
variable {stamp : Stamp}
variable {r : Request}

theorem Paired.acknowledge
    (hPaired : Paired stamp r) :
    Paired { stamp with acknowledged := true } r where
  short := hPaired.short
  long _ := rfl

theorem Timed.acknowledge
    (hTimed : Timed stamp r) :
    Timed { stamp with acknowledged := true } r where
  toPaired := hTimed.toPaired.acknowledge
  deadline := hTimed.deadline

theorem Ready.acknowledge
    {op : Op}
    (hReady : Ready stamp op) :
    Ready { stamp with acknowledged := true } op := by
  cases op with
  | resend r => exact Paired.acknowledge hReady
  | reschedule r => exact Paired.acknowledge hReady
  | push r => exact Timed.acknowledge hReady
  | _ => trivial

/- A new request has the short deadline. -/
theorem timed_create
    (comm : Command)
    (now : TimePoint) :
    Timed ⟨now, false⟩ (Request.create comm 100 now) where
  short _ := ⟨rfl, rfl⟩
  long hType := absurd rfl hType
  deadline _ := rfl

/- A request that is made ready for a push again keeps the
pairing of its period with its type. -/
theorem timed_updateDeadline
    {now : TimePoint}
    (hPaired : Paired stamp r) :
    Timed { stamp with updated := now }
      (r.updateDeadline now) where
  short := hPaired.short
  long := hPaired.long
  deadline hType := by
    have hDelta := (hPaired.short hType).1
    unfold Request.updateDeadline
    rw [hDelta]

/- A request with a new deadline has been acknowledged, so
that settling keeps its time. -/
theorem timed_settle
    {t : Tagged Nat}
    (hTimed : Timed stamp t.request) :
    Timed stamp t.settle.request := by
  by_cases hType : t.request.type = .notAcknowledged
  · have hTweak := (hTimed.short hType).2
    rw [Tagged.settle_eq (by simp [Tagged.isTweaked, hTweak])]
    exact hTimed
  · have hSame : t.settle.request.type = t.request.type := by
      unfold Tagged.settle
      split
      · rfl
      · rfl
    rw [← hSame] at hType
    exact {
      short := fun hNew => absurd hNew hType
      long := fun hLong => by
        rw [hSame] at hLong
        exact hTimed.long hLong
      deadline := fun hNew => absurd hNew hType }

------------------------------------------------------------
-- Steps of the Scheduling Thread
------------------------------------------------------------

theorem timely_initial
    (clock : TimePoint) :
    Timely ⟨initial clock, fun _ => ⟨clock, false⟩⟩ where
  numbered := numbered_initial clock
  queued _ ht := by cases ht
  periodic _ hOp := by cases hOp
  scheduled _ hOp := by cases hOp
  resent _ hOp := by cases hOp

/- What is done for a change pushes nothing yet, and its
acknowledgements have the periods of their types. -/
theorem periodic_schedLoop
    {localElevId : Int}
    {update : StateChange}
    {op : Op}
    (hOp : op ∈ schedLoop localElevId update) :
    Periodic op ∧ ∀ r, op ≠ .push r := by
  have hPress :
      ∀ type : ButtonType, ∀ floor : Int,
        op ∈ handleButtonPress localElevId update.state.id
          type floor →
        Periodic op ∧ ∀ r, op ≠ .push r := by
    intro type floor hMem
    unfold handleButtonPress at hMem
    rcases List.mem_cons.mp hMem with rfl | hLater
    · exact ⟨trivial, by simp⟩
    · split at hLater
      · rw [List.mem_singleton.mp hLater]
        exact ⟨trivial, by simp⟩
      · cases hLater
  have hServed :
      ∀ x : CallDirection, ∀ comm : Command,
        update.changeType = x.served →
        op ∈ [Op.forward comm, Op.ackRequest update 0] →
        Periodic op ∧ ∀ r, op ≠ .push r := by
    intro x comm hType hMem
    rcases List.mem_cons.mp hMem with rfl | hLater
    · exact ⟨trivial, by simp⟩
    · rw [List.mem_singleton.mp hLater]
      exact ⟨Or.inr ⟨rfl, x, hType⟩, by simp⟩
  have hGoing :
      (update.changeType = .goingToServeUp ∨
        update.changeType = .goingToServeDown) →
      op ∈ [Op.ackRequest update (30 * 1000)] →
      Periodic op ∧ ∀ r, op ≠ .push r := by
    intro hType hMem
    rw [List.mem_singleton.mp hMem]
    exact ⟨Or.inl ⟨rfl, hType⟩, by simp⟩
  have hChange :
      op ∈ handleChange localElevId update →
        Periodic op ∧ ∀ r, op ≠ .push r := by
    intro hMem
    unfold handleChange at hMem
    split at hMem
    case h_6 => exact hPress _ _ hMem
    case h_7 => exact hPress _ _ hMem
    case h_8 hType => exact hServed .down _ hType hMem
    case h_9 hType => exact hServed .up _ hType hMem
    case h_10 hType => exact hGoing (Or.inl hType) hMem
    case h_11 hType => exact hGoing (Or.inr hType) hMem
    all_goals cases hMem
  unfold schedLoop at hOp
  rcases List.mem_cons.mp hOp with rfl | hLater
  · exact ⟨trivial, by simp⟩
  · rcases List.mem_append.mp hLater with hOut | hLast
    · split at hOut
      · rw [List.mem_singleton.mp hOut]
        exact ⟨trivial, by simp⟩
      · cases hOut
    · exact hChange hLast

/- The stamp of another request does not matter for the one
in hand. -/
theorem Timely.resent_update
    {k : Nat}
    {v : Stamp}
    (hInv : Timely ⟨s, σ⟩)
    (hApart : ∀ t, s.held = some t → t.tag ≠ k) :
    ∀ op ∈ s.reqOps,
      Ready (Function.update σ k v s.reqTag) op := by
  intro op hOp
  have hReady : Ready (σ s.reqTag) op := hInv.resent op hOp
  have hResends : Resends s.held s.reqTag s.reqOps :=
    hInv.numbered.resends
  by_cases hTag : s.reqTag = k
  · -- Only the command is still to be forwarded.
    generalize hHeld : s.held = held at hResends
    generalize hNumber : s.reqTag = tag at hResends
    generalize hOps : s.reqOps = ops at hResends
    rw [hOps] at hOp
    cases hResends with
    | done => cases hOp
    | resend t r =>
        exact absurd (hNumber.symm.trans hTag)
          (hApart t hHeld)
    | reschedule t r =>
        exact absurd (hNumber.symm.trans hTag)
          (hApart t hHeld)
    | push t r comm =>
        exact absurd (hNumber.symm.trans hTag)
          (hApart t hHeld)
    | forward tag comm =>
        rw [List.mem_singleton.mp hOp]
        trivial
  · rw [Function.update_of_ne hTag]
    exact hReady

/- Requests are marked by the change that acknowledges
them. -/
theorem timed_ack
    {change : StateChange}
    {delta : MillisecondTime}
    {newDeadline : Option TimePoint}
    {t : Tagged Nat}
    (hTimed : Timed stamp t.request)
    (hPeriodic : Periodic (.ackRequest change delta))
    (hStamp : ¬ Acknowledges change t.request ∨
      stamp.acknowledged = true) :
    Timed stamp
      (t.acknowledge change delta newDeadline).request := by
  by_cases hMatch : t.AckedBy change
  · have hKnown : stamp.acknowledged = true := by
      by_cases hType : t.request.type = .notAcknowledged
      · rcases hPeriodic with ⟨_, hGoing⟩ | ⟨_, x, hServed⟩
        · rcases hStamp with hNot | hKnown
          · exact absurd ⟨hGoing, hMatch⟩ hNot
          · exact hKnown
        · have hTrigger := hMatch.2.1
          rw [hServed] at hTrigger
          exact absurd hTrigger
            (triggerType_ne_served hType x)
      · exact hTimed.long hType
    have hMarked :
        (t.acknowledge change delta
          newDeadline).request.type ≠ .notAcknowledged :=
      hMatch.type_ne
    exact {
      short := fun hNew => absurd hNew hMarked
      long := fun _ => hKnown
      deadline := fun hNew => absurd hNew hMarked }
  · unfold Tagged.AckedBy at hMatch
    unfold Tagged.acknowledge
    rw [if_neg hMatch]
    exact hTimed

theorem timely_ack
    {change : StateChange}
    {delta : MillisecondTime}
    {read : TimePoint}
    (hInv : Timely ⟨s, σ⟩)
    (hOps : s.schedOps = [.ackRequest change delta]) :
    Timely ⟨{ s with
        requests := s.requests.ackRequest change delta read
        history := s.history ++
          (s.servedBy change).map DispatchEvent.served
        schedOps := [] },
      stampsAfter (.schedule read) s σ⟩ := by
  have hPeriodic : Periodic (.ackRequest change delta) :=
    hInv.periodic _ (by
      rw [hOps]
      exact List.mem_singleton_self _)
  have hStamps : ∀ k,
      stampsAfter (.schedule read) s σ k =
        if ∃ t ∈ s.requests.list,
            t.tag = k ∧ Acknowledges change t.request then
          { σ k with acknowledged := true }
        else σ k := by
    intro k
    simp only [stampsAfter, hOps]
  refine ⟨numbered_ack hInv.numbered, ?_, ?_, ?_, ?_⟩
  · intro t ht
    simp only [RequestQueue.list_ackRequest,
      List.mem_map] at ht
    rcases ht with ⟨u, hu, rfl⟩
    have hTimed : Timed (σ u.tag) u.request :=
      hInv.queued u hu
    rw [Tagged.tag_acknowledge]
    change Timed (stampsAfter (.schedule read) s σ u.tag) _
    rw [hStamps]
    split
    · exact timed_ack hTimed.acknowledge hPeriodic
        (Or.inr rfl)
    · next hNone =>
        apply timed_ack hTimed hPeriodic
        exact Or.inl fun hAck => hNone ⟨u, hu, rfl, hAck⟩
  · intro op hOp
    cases hOp
  · intro op hOp
    cases hOp
  · intro op hOp
    have hReady : Ready (σ s.reqTag) op :=
      hInv.resent op hOp
    change Ready (stampsAfter (.schedule read) s σ
      s.reqTag) op
    rw [hStamps]
    split
    · exact hReady.acknowledge
    · exact hReady

/- A new request is assigned when its elevator is chosen. -/
theorem timely_choose
    {type : ButtonType}
    {floor : Int}
    (minId : Int)
    (read : TimePoint)
    (hInv : Timely ⟨s, σ⟩)
    (hOps : s.schedOps = [.optimalElevator type floor])
    (hNumbered : Numbered { s with
      schedOps := callElevator type floor minId read }) :
    Timely ⟨{ s with
        schedOps := callElevator type floor minId read },
      stampsAfter (.schedule read) s σ⟩ := by
  have hStamps :
      stampsAfter (.schedule read) s σ =
        Function.update σ s.updates ⟨read, false⟩ := by
    simp only [stampsAfter, hOps]
  have hFresh : ∀ t ∈ s.outstanding, t.tag < s.updates := by
    apply hInv.numbered.fresh
    change MayPush s.schedOps
    rw [hOps]
    exact ⟨_, List.mem_singleton_self _,
      Or.inr ⟨type, floor, rfl⟩⟩
  have hNew :
      ∀ op ∈ callElevator type floor minId read,
        Periodic op ∧
          ∀ r, op = .push r → Timed ⟨read, false⟩ r := by
    intro op hOp
    rcases List.mem_cons.mp hOp with rfl | hLast
    · refine ⟨trivial, ?_⟩
      intro r hPush
      cases hPush
      exact timed_create _ read
    · rw [List.mem_singleton.mp hLast]
      exact ⟨trivial, by simp⟩
  rw [hStamps]
  refine ⟨hNumbered, ?_, ?_, ?_, ?_⟩
  · intro t ht
    have hOther : t.tag ≠ s.updates :=
      Nat.ne_of_lt (hFresh t (mem_outstanding.mpr
        (Or.inl ht)))
    change Timed (Function.update σ s.updates _ t.tag) _
    rw [Function.update_of_ne hOther]
    exact hInv.queued t ht
  · exact fun op hOp => (hNew op hOp).1
  · intro r hOp
    change Timed (Function.update σ s.updates _ s.updates) r
    rw [Function.update_self]
    exact (hNew _ hOp).2 r rfl
  · apply hInv.resent_update
    intro t hHeld
    exact Nat.ne_of_lt (hFresh t (mem_outstanding.mpr
      (Or.inr hHeld)))

/- `_schedLoop` goes on with fewer operations. -/
theorem timely_proceed
    {op : Op}
    {ops : List Op}
    (hInv : Timely ⟨s, σ⟩)
    (hOps : s.schedOps = op :: ops)
    (hNumbered : Numbered { s with schedOps := ops }) :
    Timely ⟨{ s with schedOps := ops }, σ⟩ where
  numbered := hNumbered
  queued := hInv.queued
  periodic op' hOp' := by
    apply hInv.periodic
    change op' ∈ s.schedOps
    rw [hOps]
    exact List.mem_cons_of_mem op hOp'
  scheduled r hPush := by
    apply hInv.scheduled
    change Op.push r ∈ s.schedOps
    rw [hOps]
    exact List.mem_cons_of_mem op hPush
  resent := hInv.resent

theorem timely_schedule
    {bounds : BasicDriverInfo}
    {localElevId : Int}
    {read : TimePoint}
    {op : Op}
    {ops : List Op}
    (hInv : Timely ⟨s, σ⟩)
    (hOps : s.schedOps = op :: ops) :
    Timely ⟨s.schedule bounds localElevId read op ops,
      stampsAfter (.schedule read) s σ⟩ := by
  have hNumbered :
      Numbered (s.schedule bounds localElevId read op ops) :=
    numbered_schedule hInv.numbered hOps
  have hSchedules : Schedules s.schedOps :=
    hInv.numbered.schedules
  rw [hOps] at hSchedules
  cases hSchedules with
  | update state hRest =>
      have hProceed := timely_proceed hInv hOps
        { hNumbered with }
      simp only [stampsAfter, hOps]
      exact { hProceed with numbered := hNumbered }
  | propagate update hRest =>
      have hProceed := timely_proceed hInv hOps
        { hNumbered with }
      simp only [stampsAfter, hOps]
      exact { hProceed with numbered := hNumbered }
  | forward comm hRest =>
      have hProceed := timely_proceed hInv hOps
        { hNumbered with }
      simp only [stampsAfter, hOps]
      exact { hProceed with numbered := hNumbered }
  | choose type floor =>
      rw [schedule_choose] at hNumbered ⊢
      cases hChoice : optimalElevator bounds (nowAt read) type
          floor s.globalState.elevators with
      | error e =>
          rw [hChoice] at hNumbered
          -- The number of the change is not used.
          have hDropped := timely_choose 0 read hInv hOps
            (numbered_schedOps hInv.numbered
              (.push _ _ rfl) fun _ => ⟨_, by
                rw [hOps]
                exact List.mem_singleton_self _,
                Or.inr ⟨type, floor, rfl⟩⟩)
          exact { hDropped with
            numbered := hNumbered
            periodic := fun _ hOp => by cases hOp
            scheduled := fun _ hOp => by cases hOp }
      | ok minId =>
          rw [hChoice] at hNumbered
          exact timely_choose _ read hInv hOps hNumbered
  | push r comm hType =>
      have hNew : Timed (σ s.updates) r :=
        hInv.scheduled r (by
          change Op.push r ∈ s.schedOps
          rw [hOps]
          exact List.mem_cons_self)
      have hProceed := timely_proceed hInv hOps
        (numbered_schedOps hInv.numbered (.forward comm .done)
          fun hMay => absurd hMay not_mayPush_forward)
      simp only [stampsAfter, hOps]
      exact { hProceed with
        numbered := hNumbered
        queued := by
          intro t ht
          rcases List.mem_cons.mp
              (RequestQueue.push_perm.mem_iff.mp ht) with
            rfl | hOld
          · exact hNew
          · exact hInv.queued t hOld }
  | going change => exact timely_ack hInv hOps
  | served x change hServed => exact timely_ack hInv hOps

------------------------------------------------------------
-- Steps of the Checking Thread
------------------------------------------------------------

/- The stamp of the request in hand does not matter for the
other requests. -/
theorem Timely.restamp
    {t : Tagged Nat}
    (hInv : Timely ⟨s, σ⟩)
    (hHeld : s.held = some t)
    (hTag : s.reqTag = t.tag)
    (v : Stamp) :
    (∀ u ∈ s.requests.list,
      Timed (Function.update σ s.reqTag v u.tag)
        u.request) ∧
      ∀ r, .push r ∈ s.schedOps →
        Timed (Function.update σ s.reqTag v s.updates) r := by
  refine ⟨?_, ?_⟩
  · intro u hu
    have hOther : u.tag ≠ s.reqTag := by
      rw [hTag]
      exact hInv.numbered.held_apart hHeld hu
    rw [Function.update_of_ne hOther]
    exact hInv.queued u hu
  · intro r hPush
    -- A new request has a number of its own.
    have hOther : s.updates ≠ s.reqTag := by
      have hLess := hInv.numbered.fresh
        ⟨_, hPush, Or.inl ⟨r, rfl⟩⟩ t
        (mem_outstanding.mpr (Or.inr hHeld))
      rw [hTag]
      exact (Nat.ne_of_lt hLess).symm
    rw [Function.update_of_ne hOther]
    exact hInv.scheduled r hPush

/- A request is made ready for a push. -/
theorem timely_pushAndForward
    {t : Tagged Nat}
    {read : TimePoint}
    (hInv : Timely ⟨s, σ⟩)
    (hHeld : s.held = some t)
    (hTag : s.reqTag = t.tag)
    (hPaired : Paired stamp r)
    (hNumbered : Numbered { s with
      reqOps := pushAndForward r read }) :
    Timely ⟨{ s with reqOps := pushAndForward r read },
      Function.update σ s.reqTag
        { stamp with updated := read }⟩ := by
  rcases hInv.restamp hHeld hTag
    { stamp with updated := read } with
    ⟨hQueued, hScheduled⟩
  refine ⟨hNumbered, hQueued, hInv.periodic, hScheduled, ?_⟩
  intro op hOp
  change Ready (Function.update σ s.reqTag _ s.reqTag) op
  rw [Function.update_self]
  rcases List.mem_cons.mp hOp with rfl | hLast
  · exact timed_updateDeadline hPaired
  · rw [List.mem_singleton.mp hLast]
    trivial

/- A request that cannot be reassigned is dropped. -/
theorem timely_abandon
    {t : Tagged Nat}
    (hInv : Timely ⟨s, σ⟩)
    (hHeld : s.held = some t)
    (hTag : s.reqTag = t.tag)
    (v : Stamp) :
    Timely ⟨{ s with held := none, reqOps := [] },
      Function.update σ s.reqTag v⟩ := by
  rcases hInv.restamp hHeld hTag v with
    ⟨hQueued, hScheduled⟩
  refine ⟨numbered_abandon hInv.numbered, hQueued,
    hInv.periodic, hScheduled, ?_⟩
  intro op hOp
  cases hOp

theorem timely_resend
    {t : Tagged Nat}
    {read : TimePoint}
    (hInv : Timely ⟨s, σ⟩)
    (hOps : s.reqOps = [.resend r])
    (hHeld : s.held = some t)
    (hTag : s.reqTag = t.tag)
    (hNumbered : Numbered { s with
      reqOps := resendRequest r read }) :
    Timely ⟨{ s with reqOps := resendRequest r read },
      stampsAfter (.check read) s σ⟩ := by
  have hPaired : Paired (σ s.reqTag) r :=
    hInv.resent (.resend r) (by
      change Op.resend r ∈ s.reqOps
      rw [hOps]
      exact List.mem_singleton_self _)
  have hCounted :
      Paired (σ s.reqTag)
        { r with repeated := r.repeated + 1 } :=
    ⟨hPaired.short, hPaired.long⟩
  simp only [stampsAfter, hOps]
  by_cases hAgain :
      r.repeated + 1 > 3 ∨ r.type = .notDone
  · have hNext : resendRequest r read =
        [.reschedule
          { r with repeated := r.repeated + 1 }] :=
      if_pos hAgain
    rw [hNext] at hNumbered ⊢
    exact { hInv with
      numbered := hNumbered
      resent := fun op hOp => by
        rw [List.mem_singleton.mp hOp]
        exact hCounted }
  · have hNext : resendRequest r read =
        pushAndForward
          { r with repeated := r.repeated + 1 } read :=
      if_neg hAgain
    rw [hNext] at hNumbered ⊢
    exact timely_pushAndForward hInv hHeld hTag hCounted
      hNumbered

/-
  A request is reassigned. The condition makes sure that it
  is still on the short period.
-/
theorem timely_reschedule
    {t : Tagged Nat}
    {minId : Int}
    {read : TimePoint}
    (hInv : Timely ⟨s, σ⟩)
    (hOps : s.reqOps = [.reschedule r])
    (hHeld : s.held = some t)
    (hTag : s.reqTag = t.tag)
    (hType : r.type = .notAcknowledged)
    (hNumbered : Numbered { s with
      reqOps := pushAndForward (rescheduled r minId)
        read }) :
    Timely ⟨{ s with
        reqOps := pushAndForward (rescheduled r minId) read },
      stampsAfter (.check read) s σ⟩ := by
  have hPaired : Paired (σ s.reqTag) r :=
    hInv.resent (.reschedule r) (by
      change Op.reschedule r ∈ s.reqOps
      rw [hOps]
      exact List.mem_singleton_self _)
  have hAssigned :
      Paired ⟨read, false⟩ (rescheduled r minId) :=
    ⟨fun _ => hPaired.short hType,
      fun hLong => absurd rfl hLong⟩
  simp only [stampsAfter, hOps]
  exact timely_pushAndForward hInv hHeld hTag hAssigned
    hNumbered

theorem timely_check
    {bounds : BasicDriverInfo}
    {localElevId : Int}
    {read : TimePoint}
    {op : Op}
    {ops : List Op}
    (hInv : Timely ⟨s, σ⟩)
    (hOps : s.reqOps = op :: ops)
    (hKeeps : KeepsAssignment bounds (.check read) s) :
    Timely ⟨s.check bounds localElevId read op ops,
      stampsAfter (.check read) s σ⟩ := by
  have hNumbered :
      Numbered (s.check bounds localElevId read op ops) :=
    numbered_check hInv.numbered hOps
  have hResends : Resends s.held s.reqTag s.reqOps :=
    hInv.numbered.resends
  rw [hOps] at hResends
  generalize hHeld : s.held = held at hResends
  generalize hTag : s.reqTag = tag at hResends
  cases hResends with
  | resend t r =>
      rw [check_resend, List.append_nil] at hNumbered ⊢
      exact timely_resend hInv hOps hHeld hTag hNumbered
  | reschedule t r =>
      cases hChoice : optimalElevator bounds (nowAt read)
          (requestButton r) r.command.targetFloor
          s.globalState.elevators with
      | error e =>
          have hDropped :=
            timely_abandon hInv hHeld hTag ⟨read, false⟩
          rw [check_reschedule, hChoice]
          simp only [stampsAfter, hOps]
          exact hDropped
      | ok minId =>
          have hType : r.type = .notAcknowledged := by
            by_contra hLong
            exact hKeeps read r [] rfl hOps hLong minId
              hChoice
          rw [check_reschedule, hChoice] at hNumbered ⊢
          exact timely_reschedule hInv hOps hHeld hTag hType
            hNumbered
  | push t r comm =>
      have hReady : Timed (σ s.reqTag) r :=
        hInv.resent (.push r) (by
          change Op.push r ∈ s.reqOps
          rw [hOps]
          exact List.mem_cons_self)
      simp only [stampsAfter, hOps]
      refine ⟨hNumbered, ?_, hInv.periodic, hInv.scheduled,
        ?_⟩
      · intro u hu
        rcases List.mem_cons.mp
            (RequestQueue.push_perm.mem_iff.mp hu) with
          rfl | hOld
        · exact hReady
        · exact hInv.queued u hOld
      · intro op hOp
        rw [List.mem_singleton.mp hOp]
        trivial
  | forward tag comm =>
      simp only [stampsAfter, hOps]
      refine ⟨hNumbered, hInv.queued, hInv.periodic,
        hInv.scheduled, ?_⟩
      intro op hOp
      cases hOp

------------------------------------------------------------
-- Steps of the Waiter
------------------------------------------------------------

theorem timely_cleaned
    (hInv : Timely ⟨s, σ⟩) :
    Timely ⟨s.cleaned, σ⟩ := by
  refine ⟨numbered_cleaned hInv.numbered, ?_, hInv.periodic,
    hInv.scheduled, hInv.resent⟩
  intro t ht
  rcases (RequestQueue.clean_settles s.requests).origin t
    (List.mem_append_right _ ht) with ⟨u, hu, hSettled⟩
  have hTimed : Timed (σ u.tag) u.request :=
    hInv.queued u hu
  rcases hSettled with rfl | rfl
  · exact hTimed
  · rw [Tagged.tag_settle]
    exact timed_settle hTimed

/- The request that is taken out is still paired. -/
theorem timely_take
    {now : TimePoint}
    (hInv : Timely ⟨s, σ⟩)
    (hOps : s.reqOps = []) :
    Timely ⟨s.take now, σ⟩ := by
  have hNumbered : Numbered (s.take now) :=
    numbered_take hInv.numbered hOps
  rcases take_cases s now with
    hNone | ⟨t, hTop, _, hTaken⟩
  · rw [hNone] at hNumbered ⊢
    exact { hInv with numbered := hNumbered }
  · have hRest : ∀ u ∈ s.requests.pop.list,
        Timed (σ u.tag) u.request := by
      intro u hu
      apply hInv.queued
      exact (RequestQueue.pop_perm hTop).mem_iff.mpr
        (List.mem_cons_of_mem t hu)
    rcases hTaken with ⟨_, hSome⟩ | ⟨_, hFails⟩
    · rw [hSome] at hNumbered ⊢
      refine ⟨hNumbered, hRest, hInv.periodic,
        hInv.scheduled, ?_⟩
      intro op hOp
      rw [List.mem_singleton.mp hOp]
      exact (hInv.queued t
        (RequestQueue.mem_top hTop)).toPaired
    · rw [hFails] at hNumbered ⊢
      exact { hInv with
        numbered := hNumbered
        queued := hRest }

theorem timely_pass
    {d0 : TimePoint}
    (hInv : Timely ⟨s, σ⟩)
    (hOps : s.reqOps = []) :
    Timely ⟨s.pass d0, σ⟩ := by
  have hCleaned := timely_cleaned hInv
  rw [pass_eq]
  split
  · exact timely_take hCleaned hOps
  · exact { hCleaned with
      numbered := numbered_waiter hCleaned.numbered hOps }

------------------------------------------------------------
-- Runs
------------------------------------------------------------

theorem timely_of_step
    {bounds : BasicDriverInfo}
    {localElevId : Int}
    {a : Action}
    (hInv : Timely ⟨s, σ⟩)
    (hKeeps : KeepsAssignment bounds a s)
    (hStep : step bounds localElevId a s = some s') :
    Timely ⟨s', stampsAfter a s σ⟩ := by
  have hNumbered := numbered_of_step hInv.numbered hStep
  have hWaiting : s.waiter ≠ .idle → s.reqOps = [] :=
    hInv.numbered.reqOps_eq_nil
  cases transition_of_step hStep with
  | tick hClock => exact { hInv with numbered := hNumbered }
  | dequeue hOps =>
      exact {
        numbered := hNumbered
        queued := hInv.queued
        periodic := fun _ hOp => (periodic_schedLoop hOp).1
        scheduled := fun r hPush =>
          absurd rfl ((periodic_schedLoop hPush).2 r)
        resent := hInv.resent }
  | schedule hOps hRead => exact timely_schedule hInv hOps
  | wait hIdle hOps =>
      exact { hInv with numbered := hNumbered }
  | pass hCalled =>
      apply timely_pass hInv
      apply hWaiting
      rw [hCalled]
      exact Waiter.noConfusion
  | wake hBlocked =>
      exact { hInv with numbered := hNumbered }
  | expire hBlocked hExpired =>
      apply timely_take hInv
      apply hWaiting
      rw [hBlocked]
      exact Waiter.noConfusion
  | check hOps hRead => exact timely_check hInv hOps hKeeps

end Steps

/-
  While no request that has been acknowledged is reassigned,
  requests without acknowledgement are on the short deadline,
  and only acknowledged ones on the long one.
-/
theorem short_deadlines
    {bounds : BasicDriverInfo}
    {localElevId : Int}
    {s : Stamped}
    (hReach :
      (stamped bounds localElevId
        (KeepsAssignment bounds)).Reachable s) :
    ShortDeadlines s := by
  have hInv : Timely s := by
    apply hReach.invariant
    · rintro _ ⟨clock, rfl⟩
      exact timely_initial clock
    · rintro s s' hInv ⟨a, hKeeps, hStep, hStamps⟩
      have hNext := timely_of_step hInv hKeeps hStep
      rw [← hStamps] at hNext
      exact hNext
  refine ⟨?_, ?_⟩
  · intro t ht hType
    exact Int.le_of_eq ((hInv.queued t ht).deadline hType)
  · intro t ht hLong
    by_contra hNot
    have hTimed := hInv.queued t ht
    have hType : t.request.type = .notAcknowledged := by
      by_contra hLong'
      exact hNot (hTimed.long hLong')
    rcases hTimed.short hType with ⟨hDelta, hTweak⟩
    rcases hLong with hPeriod | hTweaked | hLate
    · rw [hDelta] at hPeriod
      exact absurd hPeriod (by decide)
    · simp [Tagged.isTweaked, hTweak] at hTweaked
    · exact absurd hLate
        (Int.not_lt.mpr (Int.le_of_eq (hTimed.deadline hType)))

------------------------------------------------------------
-- An Acknowledged Request
------------------------------------------------------------

/- An action takes the stamps with it. -/
theorem stamped_step
    {bounds : BasicDriverInfo}
    {localElevId : Int}
    {C : Action → Dispatch → Prop}
    {s s' : Dispatch}
    {σ : Nat → Stamp}
    (hReach : (stamped bounds localElevId C).Reachable ⟨s, σ⟩)
    (a : Action)
    (hMeets : C a s)
    (hStep : step bounds localElevId a s = some s') :
    (stamped bounds localElevId C).Reachable
      ⟨s', stampsAfter a s σ⟩ :=
  hReach.step ⟨a, hMeets, hStep, rfl⟩

/- Every run of the scheduler has stamps. -/
theorem Reachable.stamped
    {bounds : BasicDriverInfo}
    {localElevId : Int}
    {C : Action → Dispatch → Prop}
    {s : Dispatch}
    (hReach : (system bounds localElevId C).Reachable s) :
    ∃ σ, (stamped bounds localElevId C).Reachable ⟨s, σ⟩ := by
  apply hReach.invariant
    (P := fun s => ∃ σ,
      (Dispatch.stamped bounds localElevId C).Reachable
        ⟨s, σ⟩)
  · rintro _ ⟨clock, rfl⟩
    exact ⟨_, TransitionSystem.Reachable.init ⟨clock, rfl⟩⟩
  · rintro s s' ⟨σ, hStamped⟩ ⟨a, hMeets, hStep⟩
    exact ⟨_, stamped_step hStamped a hMeets hStep⟩

/- The request for a call is queued on the short deadline. -/
theorem short_deadlines_callUp :
    ∃ s,
      (Dispatch.stamped fourFloors 0
        (KeepsAssignment fourFloors)).Reachable s ∧
      s.dispatch.requests.list = [⟨1, callRequest⟩] ∧
      ShortDeadlines s := by
  have hIdle :
      ∀ s : Dispatch, ∀ a, s.reqOps = [] →
        KeepsAssignment fourFloors a s := by
    intro s a hOps read r ops _ hBusy
    rw [hOps] at hBusy
    cases hBusy
  have hInit :
      (Dispatch.stamped fourFloors 0
        (KeepsAssignment fourFloors)).Reachable
          ⟨initial 0, fun _ => ⟨0, false⟩⟩ :=
    TransitionSystem.Reachable.init ⟨0, rfl⟩
  have hDequeued := stamped_step hInit
    (.dequeue callUp) (hIdle _ _ rfl) rfl
  have hUpdated := stamped_step hDequeued
    (.schedule 0) (hIdle _ _ rfl) rfl
  have hPropagated := stamped_step hUpdated
    (.schedule 0) (hIdle _ _ rfl) rfl
  have hLit := stamped_step hPropagated
    (.schedule 0) (hIdle _ _ rfl) rfl
  have hChosen := stamped_step hLit
    (.schedule 0) (hIdle _ _ rfl) rfl
  have hPushed := stamped_step hChosen
    (.schedule 0) (hIdle _ _ rfl) rfl
  refine ⟨_, hPushed, ?_, short_deadlines hPushed⟩
  change (RequestQueue.empty.push ⟨1, callRequest⟩).list = _
  rw [RequestQueue.push_empty]
  rfl

/- The request as it is pushed after its reassignment. -/
def reassigned : Request :=
  Request.updateDeadline (milliseconds 31000)
    (rescheduled { expired.request with repeated := 1 } 0)

/-
  A request that is acknowledged but not served is reassigned
  after 30 seconds. It is then without acknowledgement, and
  its new deadline is 30 seconds away again.
-/
theorem reassigned_on_long_deadline :
    ∃ s,
      (Dispatch.stamped fourFloors 0
        fun _ _ => True).Reachable s ∧
      ¬ ShortDeadlines s := by
  have hTaken :
      (system fourFloors 0 fun _ _ => True).Reachable
        taken := by
    apply reachable_taken.mono
      (N := system fourFloors 0 fun _ _ => True)
    · exact fun _ hInit => hInit
    · rintro s s' ⟨a, _, hStep⟩
      exact ⟨a, trivial, hStep⟩
  -- The elevator reports once more, so that it is alive.
  have hDequeued := hTaken.step
    ⟨.dequeue ⟨.keepAlive, 0, atBottom 31000⟩, trivial, rfl⟩
  have hUpdated := hDequeued.step
    ⟨.schedule (milliseconds 31000), trivial, rfl⟩
  rcases Reachable.stamped hUpdated with ⟨σ, hStamped⟩
  have hResent := stamped_step hStamped
    (.check (milliseconds 31000)) trivial rfl
  have hRescheduled := stamped_step hResent
    (.check (milliseconds 31000)) trivial rfl
  have hPushed := stamped_step hRescheduled
    (.check (milliseconds 31000)) trivial rfl
  refine ⟨_, hPushed, ?_⟩
  intro hShort
  have hMem : ⟨1, reassigned⟩ ∈
      (RequestQueue.empty.push ⟨1, reassigned⟩).list :=
    RequestQueue.push_perm.mem_iff.mpr List.mem_cons_self
  have hDeadline : reassigned.deadline ≤
      milliseconds 31000 + milliseconds 100 :=
    hShort.short ⟨1, reassigned⟩ hMem rfl
  exact absurd hDeadline (by decide)

end Dispatch

end ElevatorControl
