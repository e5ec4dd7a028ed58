import ElevatorControl.Library.Followed
import ElevatorControl.Scheduler.Node

/-
  A hall lamp that is lit on a node on its own has a live
  obligation.

  The commands that wait for the elevator and the operations
  that `_schedLoop` still has to carry out form one stream. A
  forwarded command moves from the operations to the queue
  and keeps its place in the stream, and every command that
  lights a lamp is followed by what leads to the call.

  Key definitions include:
    * `Node.Obliged`
    * `Node.stream`
    * `Node.Inv`

  Key theorems include:
    * `Node.inv_of_step`
    * `Node.lamp_obliged`
-/

------------------------------------------------------------
-- Obligations
------------------------------------------------------------

namespace ElevatorControl

namespace Node

open Scheduler

/- The command concerns the hall button: it switches the
lamp, or it calls the elevator. -/
def Concerns
    (x : CallDirection)
    (f : Int)
    (c : Command) : Prop :=
  c.targetFloor = f ∧
    (c.commandType = x.turnOn ∨ c.commandType = x.turnOff ∨
      c.commandType = x.call)

/- The request is for the hall button and is not done. -/
def Pending
    (x : CallDirection)
    (f : Int)
    (r : Request) : Prop :=
  r.command.commandType = x.call ∧
    r.command.targetFloor = f ∧ r.type ≠ .done

/- What keeps a hall button alive whose lamp is lit. -/
inductive Obliged
    (d : BasicDriverInfo)
    (x : CallDirection)
    (f : Int)
    (s : Node) : Prop where
  | reported
      (c : StateChange)
      (hQueued : c ∈ s.elevator.outState)
      (hPress : c.Presses x f)
  | handled
      (c : StateChange)
      (hHandling : s.handling = some c)
      (hBusy : s.schedOps ≠ [])
      (hPress : c.Presses x f)
  | commanded
      (c : Command)
      (hQueued : c ∈ s.commands.toLocal)
      (hConcerns : Concerns x f c)
  | forwarded
      (c : Command)
      (ops : List Op)
      (hNext : s.schedOps = .forward c :: ops ∨
        s.reqOps = .forward c :: ops)
      (hConcerns : Concerns x f c)
  | requested
      (t : Tagged Unit)
      (hQueued : t ∈ s.requests.list)
      (hPending : Pending x f t.request)
  | resent
      (r : Request)
      (ops : List Op)
      (hNext : s.reqOps = .resend r :: ops ∨
        s.reqOps = .reschedule r :: ops ∨
        s.reqOps = .push r :: ops)
      (hPending : Pending x f r)
  | called
      (hCalled : Loop.called d x f s.elevator = true)

------------------------------------------------------------
-- Stream of Commands
------------------------------------------------------------

/- The operation lights the hall lamp. -/
def Lights
    (x : CallDirection)
    (f : Int) : Op → Prop
  | .forward c =>
      c.commandType = x.turnOn ∧ c.targetFloor = f
  | _ => False

/- The operation calls the elevator of the node for the hall
button, or chooses the elevator to be called. -/
def Owes
    (x : CallDirection)
    (f : Int) : Op → Prop
  | .forward c =>
      c.commandType = x.call ∧ c.targetFloor = f ∧
        (c.targetElevatorId = Command.anyId ∨
          c.targetElevatorId = localElevId)
  | .optimalElevator type floor =>
      type = x.button ∧ floor = f
  | _ => False

/- The commands for the elevator, and after them what the
scheduler does next. -/
def stream
    (s : Node) : List Op :=
  s.commands.toLocal.map Op.forward ++ s.schedOps

/- A call is on its way. -/
def Owed
    (x : CallDirection)
    (f : Int)
    (s : Node) : Prop :=
  ∃ op ∈ s.stream, Owes x f op

/- Every command that lights a lamp is followed by a call. -/
def LightsFollowed
    (s : Node) : Prop :=
  ∀ x f, Followed (Lights x f) (Owes x f) s.stream

/- The stream of `s'` keeps what is owed and followed in the
stream of `s`. -/
def Carries
    (s s' : Node) : Prop :=
  (LightsFollowed s → LightsFollowed s') ∧
    ∀ x f, Owed x f s → Owed x f s'

section Streams

variable {s s' : Node}
variable {op : Op}
variable {ops next : List Op}

theorem Carries.of_stream
    (hStream : s'.stream = s.stream) :
    Carries s s' := by
  unfold Carries LightsFollowed Owed
  rw [hStream]
  exact ⟨fun hFollowed => hFollowed, fun _ _ hOwed => hOwed⟩

/- An operation is replaced by operations that light no lamp
and owe what it owed. -/
theorem Carries.of_ops
    (hOps : s.schedOps = op :: ops)
    (hOps' : s'.schedOps = next ++ ops)
    (hQueue : s'.commands.toLocal = s.commands.toLocal)
    (hDark : ∀ op' ∈ next, ∀ x f, ¬ Lights x f op')
    (hOwes : ∀ x f, Owes x f op →
      ∃ op' ∈ next, Owes x f op') :
    Carries s s' := by
  have hSegment : ∀ x f,
      (∃ b ∈ [op], Owes x f b) →
        ∃ b ∈ next, Owes x f b := by
    rintro x f ⟨b, hb, hb'⟩
    rw [List.mem_singleton.mp hb] at hb'
    exact hOwes x f hb'
  have hOld :
      s.stream =
        s.commands.toLocal.map Op.forward ++
          ([op] ++ ops) := by
    rw [stream, hOps]
    rfl
  have hNew :
      s'.stream =
        s.commands.toLocal.map Op.forward ++
          (next ++ ops) := by
    rw [stream, hOps', hQueue]
  unfold Carries LightsFollowed Owed
  rw [hOld, hNew]
  refine ⟨?_, ?_⟩
  · intro hFollowed x f
    exact (hFollowed x f).splice
      (fun op' hMem => hDark op' hMem x f) (hSegment x f)
  · exact fun x f => exists_splice (hSegment x f)

/- A command that lights no lamp enters the queue. -/
theorem Carries.of_enqueue
    {c : Command}
    (hOps : s'.schedOps = s.schedOps)
    (hQueue : s'.commands.toLocal =
      s.commands.toLocal ++ [c])
    (hDark : ∀ x f, ¬ Lights x f (.forward c)) :
    Carries s s' := by
  have hSegment : ∀ x f,
      (∃ b ∈ ([] : List Op), Owes x f b) →
        ∃ b ∈ [Op.forward c], Owes x f b := by
    rintro x f ⟨b, hb, _⟩
    exact absurd hb List.not_mem_nil
  have hNew :
      s'.stream =
        s.commands.toLocal.map Op.forward ++
          ([Op.forward c] ++ s.schedOps) := by
    rw [stream, hOps, hQueue, List.map_append,
      List.append_assoc]
    rfl
  unfold Carries LightsFollowed Owed
  rw [hNew]
  refine ⟨?_, ?_⟩
  · intro hFollowed x f
    apply Followed.splice _ (hSegment x f) (hFollowed x f)
    intro op' hMem
    rw [List.mem_singleton.mp hMem]
    exact hDark x f
  · exact fun x f => exists_splice (hSegment x f)

end Streams

------------------------------------------------------------
-- Invariant
------------------------------------------------------------

/- A state of the node's own elevator. -/
structure Reliable
    (d : BasicDriverInfo)
    (e : ElevatorState) : Prop where
  own : e.id = localElevId
  lastFloor : d.InRange e.lastFloor

/- The command is a call. -/
def Calls
    (c : Command) : Prop :=
  ∃ x : CallDirection, c.commandType = x.call

/- What `_schedLoop` may have to do. -/
def SchedOp
    (d : BasicDriverInfo) : Op → Prop
  | .update state => Reliable d state
  | .optimalElevator type floor =>
      (∃ x : CallDirection, type = x.button) ∧
        d.InRange floor
  | .push r => Calls r.command
  | .resend _ => False
  | .reschedule _ => False
  | _ => True

/- What `_reqCheckLoop` may have to do. -/
def ReqOp : Op → Prop
  | .forward c => Calls c
  | .resend r => Calls r.command
  | .reschedule r => Calls r.command
  | .push r => Calls r.command
  | _ => False

/- The elevator, the scheduler and the requests fit, and
every hall lamp that is lit is answered. -/
structure Inv
    (S : Shaft)
    (s : Node) : Prop where
  sound : Loop.Sound S.toBasicDriverInfo localElevId
    s.elevator
  known : ∀ e ∈ s.globalState.elevators,
    Reliable S.toBasicDriverInfo e
  learned : s.schedOps = [] ∨
    s.globalState.elevators ≠ [] ∨
    ∃ state ops, s.schedOps = .update state :: ops
  sched : ∀ op ∈ s.schedOps, SchedOp S.toBasicDriverInfo op
  req : ∀ op ∈ s.reqOps, ReqOp op
  calls : ∀ t ∈ s.requests.list, Calls t.request.command
  pressed : ∀ op ∈ s.schedOps, ∀ x f, Owes x f op →
    ∃ c, s.handling = some c ∧ c.Presses x f
  followed : LightsFollowed s
  answered : ∀ x f, S.InRange f →
    Loop.Answered S.toBasicDriverInfo x f (Owed x f s)
      s.elevator

section Steps

variable {S : Shaft}
variable {s t : Node}
variable {op : Op}
variable {ops next : List Op}

theorem inv_started
    {driver : Driver}
    {elevator : Loop}
    (hEnter :
      Loop.enter S.toBasicDriverInfo
        (Loop.create S.toBasicDriverInfo localElevId
          driver) = .ok () elevator) :
    Inv S (started elevator) := by
  have hOrdered := Int.le_of_lt S.ordered
  have hCreated :
      Loop.Sound S.toBasicDriverInfo localElevId
        (Loop.create S.toBasicDriverInfo localElevId
          driver) := by
    refine ⟨rfl, ⟨Int.le_refl _, hOrdered⟩, ?_⟩
    exact fun c hc => absurd hc List.not_mem_nil
  have hHeld : ∀ x f, S.InRange f →
      Loop.Held S.toBasicDriverInfo localElevId x f
        (Owed x f (started elevator)) elevator :=
    fun x f hf => Loop.held_of_enter hf hCreated hEnter
  exact
    { sound := (hHeld .up S.minFloor
        ⟨Int.le_refl _, hOrdered⟩).sound
      known := fun e he => absurd he List.not_mem_nil
      learned := Or.inl rfl
      sched := fun op hOp => absurd hOp List.not_mem_nil
      req := fun op hOp => absurd hOp List.not_mem_nil
      calls := fun t ht => absurd ht List.not_mem_nil
      pressed := fun op hOp => absurd hOp List.not_mem_nil
      followed := fun _ _ => trivial
      answered := fun x f hf => (hHeld x f hf).answered }

/- What changes nothing of the elevator and carries the
stream keeps lamps answered. -/
theorem Inv.answered_of_carries
    (hInv : Inv S s)
    (hElevator : t.elevator = s.elevator)
    (hCarries : Carries s t) :
    ∀ x f, S.InRange f →
      Loop.Answered S.toBasicDriverInfo x f (Owed x f t)
        t.elevator := by
  intro x f hf
  rw [hElevator]
  exact ((⟨hInv.sound, hInv.answered x f hf⟩ :
    Loop.Held S.toBasicDriverInfo localElevId x f
      (Owed x f s) s.elevator).mono
        (hCarries.2 x f)).answered

------------------------------------------------------------
-- Steps of the Scheduler
------------------------------------------------------------

/- What an operation of `_schedLoop` does that keeps the
invariant. -/
theorem Inv.scheduled
    (hInv : Inv S s)
    (hOps : s.schedOps = op :: ops)
    (hElevator : t.elevator = s.elevator)
    (hHandling : t.handling = s.handling)
    (hReq : t.reqOps = s.reqOps)
    (hKnown : ∀ e ∈ t.globalState.elevators,
      Reliable S.toBasicDriverInfo e)
    (hLearned : t.globalState.elevators ≠ [])
    (hCalls : ∀ r ∈ t.requests.list, Calls r.request.command)
    (hSched : ∀ op' ∈ next,
      SchedOp S.toBasicDriverInfo op')
    (hOwes : ∀ op' ∈ next, ∀ x f,
      Owes x f op' → Owes x f op)
    (hCarries : Carries s { t with schedOps := next ++ ops }) :
    Inv S { t with schedOps := next ++ ops } where
  sound := by
    change Loop.Sound S.toBasicDriverInfo localElevId
      t.elevator
    rw [hElevator]
    exact hInv.sound
  known := hKnown
  learned := Or.inr (Or.inl hLearned)
  sched := by
    intro op' hOp'
    rcases List.mem_append.mp hOp' with hNext | hRest
    · exact hSched op' hNext
    · apply hInv.sched
      rw [hOps]
      exact List.mem_cons_of_mem op hRest
  req := by
    change ∀ op ∈ t.reqOps, ReqOp op
    rw [hReq]
    exact hInv.req
  calls := hCalls
  pressed := by
    intro op' hOp' x f hOwed
    change ∃ c, t.handling = some c ∧ c.Presses x f
    rw [hHandling]
    rcases List.mem_append.mp hOp' with hNext | hRest
    · apply hInv.pressed op _ x f (hOwes op' hNext x f hOwed)
      rw [hOps]
      exact List.mem_cons_self
    · apply hInv.pressed op' _ x f hOwed
      rw [hOps]
      exact List.mem_cons_of_mem op hRest
  followed := hCarries.1 hInv.followed
  answered := hInv.answered_of_carries hElevator hCarries

/- Once the first operation is not an update, the node knows
the state of its elevator. -/
theorem Inv.nonempty
    (hInv : Inv S s)
    (hOps : s.schedOps = op :: ops)
    (hOther : ∀ state, op ≠ .update state) :
    s.globalState.elevators ≠ [] := by
  rcases hInv.learned with hIdle | hKnown | hUpdate
  · rw [hOps] at hIdle
    cases hIdle
  · exact hKnown
  · rcases hUpdate with ⟨state, ops', hFirst⟩
    rw [hOps] at hFirst
    exact absurd (List.cons.inj hFirst).1 (hOther state)

/- The choice falls on the node's own elevator. -/
theorem Inv.chooses
    {type : ButtonType}
    {floor : Int}
    {now : MillisecondTime}
    (hInv : Inv S s)
    (hFloor : S.InRange floor)
    (hKnown : s.globalState.elevators ≠ [])
    (hAlive : s.LocalAlive now) :
    optimalElevator S.toBasicDriverInfo now type floor
      s.globalState.elevators = .ok localElevId := by
  rcases List.exists_mem_of_ne_nil _ hKnown with ⟨e₀, he₀⟩
  have hReliable := hInv.known e₀ he₀
  have hIds : ∀ e ∈ s.globalState.elevators, 0 ≤ e.id := by
    intro e he
    rw [(hInv.known e he).own]
    exact Int.le_refl _
  rcases optimalElevator_min he₀
    (hAlive e₀ he₀ hReliable.own)
    (distance_lt_intMax S.span hFloor hReliable.lastFloor)
    hIds with
    ⟨e, he, _, hChosen, _⟩
  rw [hChosen, (hInv.known e he).own]

theorem button_injective
    {x y : CallDirection}
    (hSame : x.button = y.button) :
    x = y := by
  cases x <;> cases y <;> first | rfl | cases hSame

theorem call_ne_turnOn
    (x y : CallDirection) :
    x.call ≠ y.turnOn := by
  cases x <;> cases y <;> exact CommandType.noConfusion

/- The command that calls an elevator for a hall button. -/
theorem callType_eq
    (x : CallDirection) :
    (if x.button = .callUp then CommandType.callToFloorAndGoUp
      else .callToFloorAndGoDown) = x.call := by
  cases x with
  | up => rfl
  | down => rfl

theorem call_injective
    {x y : CallDirection}
    (hSame : x.call = y.call) :
    x = y := by
  cases x <;> cases y <;> first | rfl | cases hSame

/- A call lights no lamp of its own. -/
theorem not_lights_of_calls
    {c : Command}
    (hCalls : Calls c)
    (x : CallDirection)
    (f : Int) :
    ¬ Lights x f (.forward c) := by
  rintro ⟨hType, _⟩
  rcases hCalls with ⟨y, hCall⟩
  rw [hCall] at hType
  exact call_ne_turnOn y x hType

/- What an operation that vanishes carries. -/
theorem Carries.of_done
    (hOps : s.schedOps = op :: ops)
    (hQueue : t.commands.toLocal = s.commands.toLocal)
    (hOwes : ∀ x f, ¬ Owes x f op) :
    Carries s { t with schedOps := [] ++ ops } := by
  refine Carries.of_ops hOps rfl hQueue ?_ ?_
  · exact fun op' hMem => absurd hMem List.not_mem_nil
  · exact fun x f hOwed => absurd hOwed (hOwes x f)

theorem Carries.of_forward
    {c : Command}
    (hOps : s.schedOps = .forward c :: ops) :
    Carries s { s with
      commands := s.commands.forwardToTargets
        Command.targetElevatorId localElevId c
      schedOps := [] ++ ops } := by
  by_cases hLocal : c.targetElevatorId = Command.anyId ∨
      c.targetElevatorId = localElevId
  · apply Carries.of_stream
    rw [stream, stream, hOps,
      CommandQueues.toLocal_forwardToTargets,
      if_pos hLocal, List.map_append, List.append_assoc]
    rfl
  · apply Carries.of_ops hOps rfl
    · rw [CommandQueues.toLocal_forwardToTargets,
        if_neg hLocal]
    · exact fun op' hMem => absurd hMem List.not_mem_nil
    · rintro x f ⟨_, _, hTarget⟩
      exact absurd hTarget hLocal

/- Pushing and acknowledging keep the commands of the
requests. -/
theorem calls_push
    {q : RequestQueue Unit}
    {r : Request}
    (hCalls : ∀ t ∈ q.list, Calls t.request.command)
    (hRequest : Calls r.command) :
    ∀ t ∈ (q.push ⟨(), r⟩).list, Calls t.request.command :=
  RequestQueue.commands_push hCalls hRequest

theorem calls_ackRequest
    {q : RequestQueue Unit}
    {change : StateChange}
    {delta : MillisecondTime}
    {clock : TimePoint}
    (hCalls : ∀ t ∈ q.list, Calls t.request.command) :
    ∀ t ∈ (q.ackRequest change delta clock).list,
      Calls t.request.command :=
  RequestQueue.commands_ackRequest hCalls

/- The call that an optimal elevator has been found for is
handled by its command. -/
theorem inv_callElevator
    {y : CallDirection}
    {floor : Int}
    (hInv : Inv S s)
    (hOps : s.schedOps =
      .optimalElevator y.button floor :: ops)
    (clock : TimePoint) :
    Inv S
      { s with
        schedOps :=
          callElevator y.button floor localElevId clock ++
            ops } := by
  have hKnown := hInv.nonempty hOps fun _ => Op.noConfusion
  unfold callElevator addAndForwardRequest
  rw [callType_eq]
  refine hInv.scheduled hOps rfl rfl rfl hInv.known
    hKnown hInv.calls ?_ ?_ ?_
  · intro op' hMem
    rcases List.mem_cons.mp hMem with rfl | hMem
    · exact ⟨y, rfl⟩
    · rw [List.mem_singleton.mp hMem]
      trivial
  · intro op' hMem x f hOwed
    rcases List.mem_cons.mp hMem with rfl | hMem
    · exact hOwed.elim
    · rw [List.mem_singleton.mp hMem] at hOwed
      rcases hOwed with ⟨hType, hHere, _⟩
      exact ⟨congrArg CallDirection.button
        (call_injective hType), hHere⟩
  · refine Carries.of_ops hOps rfl rfl ?_ ?_
    · intro op' hMem x f
      rcases List.mem_cons.mp hMem with rfl | hMem
      · exact fun hLights => hLights
      · rw [List.mem_singleton.mp hMem]
        exact not_lights_of_calls ⟨y, rfl⟩ x f
    · rintro x f ⟨hType, rfl⟩
      rw [button_injective hType]
      exact ⟨_, List.mem_cons_of_mem _
        (List.mem_singleton_self _), rfl, rfl,
        Or.inr rfl⟩

/- One operation of `_schedLoop` keeps the invariant. -/
theorem inv_of_schedule
    {now : MillisecondTime}
    {clock : TimePoint}
    (hInv : Inv S s)
    (hOps : s.schedOps = op :: ops)
    (hAlive : s.LocalAlive now)
    (hExec : s.executeAs localElevId S.toBasicDriverInfo now
      clock op =
      .ok (t, next)) :
    Inv S { t with schedOps := next ++ ops } := by
  have hOp : SchedOp S.toBasicDriverInfo op := by
    apply hInv.sched
    rw [hOps]
    exact List.mem_cons_self
  have hNone : ∀ (P : Op → Prop), ∀ op' ∈ ([] : List Op),
      P op' :=
    fun P op' hMem => absurd hMem List.not_mem_nil
  cases op with
  | update state =>
      cases hExec
      refine hInv.scheduled hOps rfl rfl rfl ?_
        (List.ne_nil_of_mem
          (GlobalState.self_mem_update s.globalState state))
        hInv.calls (hNone _) (hNone _)
        (Carries.of_done hOps rfl fun _ _ hOwed => hOwed)
      intro e he
      rcases GlobalState.mem_update he with rfl | hOld
      · exact hOp
      · exact hInv.known e hOld
  | propagate update =>
      cases hExec
      exact hInv.scheduled hOps rfl rfl rfl hInv.known
        (hInv.nonempty hOps fun _ => Op.noConfusion)
        hInv.calls (hNone _) (hNone _)
        (Carries.of_done hOps rfl fun _ _ hOwed => hOwed)
  | forward c =>
      cases hExec
      exact hInv.scheduled hOps rfl rfl rfl hInv.known
        (hInv.nonempty hOps fun _ => Op.noConfusion)
        hInv.calls (hNone _) (hNone _)
        (Carries.of_forward hOps)
  | optimalElevator type floor =>
      rcases hOp with ⟨⟨y, rfl⟩, hFloor⟩
      have hKnown :=
        hInv.nonempty hOps fun _ => Op.noConfusion
      have hChosen :
          optimalElevator S.toBasicDriverInfo now y.button
            floor s.globalState.elevators =
              .ok localElevId :=
        hInv.chooses hFloor hKnown hAlive
      rw [executeAs_choose hChosen] at hExec
      cases hExec
      exact inv_callElevator hInv hOps clock
  | resend r => exact hOp.elim
  | reschedule r => exact hOp.elim
  | push r =>
      cases hExec
      exact hInv.scheduled hOps rfl rfl rfl hInv.known
        (hInv.nonempty hOps fun _ => Op.noConfusion)
        (calls_push hInv.calls hOp) (hNone _) (hNone _)
        (Carries.of_done hOps rfl fun _ _ hOwed => hOwed)
  | ackRequest change newDeadlineDelta =>
      cases hExec
      exact hInv.scheduled hOps rfl rfl rfl hInv.known
        (hInv.nonempty hOps fun _ => Op.noConfusion)
        (calls_ackRequest hInv.calls) (hNone _) (hNone _)
        (Carries.of_done hOps rfl fun _ _ hOwed => hOwed)

/- `_schedLoop` never fails an assertion. -/
theorem Inv.schedule_never_fails
    {now : MillisecondTime}
    {clock : TimePoint}
    {e : AssertionFailed}
    (hInv : Inv S s)
    (hOps : s.schedOps = op :: ops)
    (hAlive : s.LocalAlive now)
    (hExec : s.executeAs localElevId S.toBasicDriverInfo now
      clock op =
      .error e) :
    False := by
  have hOp : SchedOp S.toBasicDriverInfo op := by
    apply hInv.sched
    rw [hOps]
    exact List.mem_cons_self
  cases op with
  | optimalElevator type floor =>
      rcases hOp with ⟨_, hFloor⟩
      have hChosen :
          optimalElevator S.toBasicDriverInfo now type
            floor s.globalState.elevators =
              .ok localElevId :=
        hInv.chooses hFloor
          (hInv.nonempty hOps fun _ => Op.noConfusion) hAlive
      rw [executeAs_choose hChosen] at hExec
      cases hExec
  | reschedule r => exact hOp.elim
  | update state => cases hExec
  | propagate update => cases hExec
  | forward c => cases hExec
  | resend r => cases hExec
  | push r => cases hExec
  | ackRequest change newDeadlineDelta => cases hExec

------------------------------------------------------------
-- Steps of the Request Check
------------------------------------------------------------

/- What a step of `_reqCheckLoop` does that keeps the
invariant. -/
theorem Inv.checked
    (hInv : Inv S s)
    (hElevator : t.elevator = s.elevator)
    (hGlobal : t.globalState = s.globalState)
    (hHandling : t.handling = s.handling)
    (hSched : t.schedOps = s.schedOps)
    (hReq : ∀ op ∈ t.reqOps, ReqOp op)
    (hCalls : ∀ r ∈ t.requests.list, Calls r.request.command)
    (hCarries : Carries s t) :
    Inv S t where
  sound := by
    rw [hElevator]
    exact hInv.sound
  known := by
    rw [hGlobal]
    exact hInv.known
  learned := by
    rw [hSched, hGlobal]
    exact hInv.learned
  sched := by
    rw [hSched]
    exact hInv.sched
  req := hReq
  calls := hCalls
  pressed := by
    rw [hSched, hHandling]
    exact hInv.pressed
  followed := hCarries.1 hInv.followed
  answered := hInv.answered_of_carries hElevator hCarries

/- A request that is sent again keeps its command's type. -/
theorem reqOp_pushAndForward
    {r : Request}
    {clock : TimePoint}
    (hCalls : Calls r.command) :
    ∀ op ∈ pushAndForward r clock, ReqOp op := by
  intro op hOp
  rcases List.mem_cons.mp hOp with rfl | hOp
  · exact hCalls
  · rw [List.mem_singleton.mp hOp]
    exact hCalls

theorem reqOp_resendRequest
    {r : Request}
    {clock : TimePoint}
    (hCalls : Calls r.command) :
    ∀ op ∈ resendRequest r clock, ReqOp op := by
  unfold resendRequest
  dsimp only
  split
  · intro op hOp
    rw [List.mem_singleton.mp hOp]
    exact hCalls
  · exact reqOp_pushAndForward hCalls

/- One operation of `_reqCheckLoop` keeps the invariant. -/
theorem inv_of_check
    {now : MillisecondTime}
    {clock : TimePoint}
    (hInv : Inv S s)
    (hOps : s.reqOps = op :: ops)
    (hExec : s.executeAs localElevId S.toBasicDriverInfo now
      clock op =
      .ok (t, next)) :
    Inv S { t with reqOps := next ++ ops } := by
  have hOp : ReqOp op := by
    apply hInv.req
    rw [hOps]
    exact List.mem_cons_self
  have hRest : ∀ op' ∈ ops, ReqOp op' := by
    intro op' hMem
    apply hInv.req
    rw [hOps]
    exact List.mem_cons_of_mem op hMem
  have hAll : ∀ next : List Op, (∀ op' ∈ next, ReqOp op') →
      ∀ op' ∈ next ++ ops, ReqOp op' := by
    intro next hNext op' hMem
    rcases List.mem_append.mp hMem with hMem | hMem
    · exact hNext op' hMem
    · exact hRest op' hMem
  cases op with
  | update state => exact hOp.elim
  | propagate update => exact hOp.elim
  | optimalElevator type floor => exact hOp.elim
  | ackRequest change newDeadlineDelta => exact hOp.elim
  | forward c =>
      cases hExec
      refine hInv.checked rfl rfl rfl rfl hRest hInv.calls ?_
      by_cases hLocal :
          c.targetElevatorId = Command.anyId ∨
            c.targetElevatorId = localElevId
      · refine Carries.of_enqueue rfl ?_
          (not_lights_of_calls hOp)
        exact CommandQueues.toLocal_forwardToTargets.trans
          (if_pos hLocal)
      · apply Carries.of_stream
        change (s.commands.forwardToTargets
          Command.targetElevatorId localElevId
          c).toLocal.map Op.forward ++ s.schedOps = s.stream
        rw [stream, CommandQueues.toLocal_forwardToTargets,
          if_neg hLocal]
  | resend r =>
      cases hExec
      exact hInv.checked rfl rfl rfl rfl
        (hAll _ (reqOp_resendRequest hOp)) hInv.calls
        (Carries.of_stream rfl)
  | reschedule r =>
      rcases exists_of_reschedule hExec with
        ⟨rfl, minId, _, rfl⟩
      exact hInv.checked rfl rfl rfl rfl
        (hAll _ (reqOp_pushAndForward hOp)) hInv.calls
        (Carries.of_stream rfl)
  | push r =>
      cases hExec
      exact hInv.checked rfl rfl rfl rfl hRest
        (calls_push hInv.calls hOp) (Carries.of_stream rfl)

/- Cleaning keeps the commands of the requests it keeps. -/
theorem calls_clean
    {q : RequestQueue Unit}
    (hCalls : ∀ t ∈ q.list, Calls t.request.command) :
    ∀ t ∈ q.clean.1.list, Calls t.request.command :=
  RequestQueue.commands_clean hCalls

/- The request that is taken was in the queue. -/
theorem inv_take
    (clock : TimePoint)
    (hInv : Inv S s) :
    Inv S (s.take clock) := by
  have hTake := RequestQueue.takeDue_mem s.requests clock
  refine hInv.checked rfl rfl rfl rfl ?_ ?_
    (Carries.of_stream rfl)
  · intro op hOp
    rcases SchedulerState.mem_reqOps_take hOp with
      hOld | ⟨t, ht, rfl⟩
    · exact hInv.req op hOld
    · exact hInv.calls t ht
  · exact fun t ht => hInv.calls t (hTake.1 t ht)

theorem inv_pass
    (d0 clock : TimePoint)
    (hInv : Inv S s) :
    Inv S (s.pass d0 clock) := by
  have hCleaned : Inv S s.cleaned :=
    hInv.checked rfl rfl rfl rfl hInv.req
      (calls_clean hInv.calls) (Carries.of_stream rfl)
  rw [pass_eq]
  split
  · exact inv_take clock hCleaned
  · exact hCleaned.checked rfl rfl rfl rfl hCleaned.req
      hCleaned.calls (Carries.of_stream rfl)

------------------------------------------------------------
-- Steps of the Queues
------------------------------------------------------------

theorem handleButtonPress_eq
    {id floor : Int}
    (x : CallDirection)
    (hOwn : id = localElevId) :
    handleButtonPress localElevId id x.button floor =
      [.forward ⟨x.turnOn, Command.anyId, floor⟩,
        .optimalElevator x.button floor] := by
  unfold handleButtonPress
  rw [if_pos hOwn]
  cases x with
  | up => rfl
  | down => rfl

/-
  A press of a hall button lights the lamp and chooses an
  elevator. What other changes lead to neither lights a lamp
  nor owes a call.
-/
theorem handleChange_cases
    {d : BasicDriverInfo}
    {c : StateChange}
    (hOwn : c.state.id = localElevId) :
    (∃ x : CallDirection, c.changeType = x.pressed ∧
      handleChange localElevId c =
        [.forward ⟨x.turnOn, Command.anyId, c.changeFloor⟩,
          .optimalElevator x.button c.changeFloor]) ∨
    ((∀ x : CallDirection, c.changeType ≠ x.pressed) ∧
      ∀ op ∈ handleChange localElevId c,
        SchedOp d op ∧
          ∀ x f, ¬ Lights x f op ∧ ¬ Owes x f op) := by
  have hAck : ∀ (delta : MillisecondTime),
      SchedOp d (.ackRequest c delta) ∧
        ∀ x f, ¬ Lights x f (.ackRequest c delta) ∧
          ¬ Owes x f (.ackRequest c delta) :=
    fun delta => ⟨trivial, fun _ _ =>
      ⟨fun hLights => hLights, fun hOwed => hOwed⟩⟩
  have hTurnOff : ∀ (z : CallDirection),
      SchedOp d (.forward
          ⟨z.turnOff, localElevId, c.changeFloor⟩) ∧
        ∀ x f,
          ¬ Lights x f (.forward
            ⟨z.turnOff, localElevId, c.changeFloor⟩) ∧
          ¬ Owes x f (.forward
            ⟨z.turnOff, localElevId, c.changeFloor⟩) := by
    intro z
    refine ⟨trivial, ?_⟩
    intro x f
    refine ⟨?_, ?_⟩
    · rintro ⟨hType, _⟩
      cases x <;> cases z <;> cases hType
    · rintro ⟨hType, _⟩
      cases x <;> cases z <;> cases hType
  have hTwo : ∀ (z : CallDirection),
      ∀ op ∈ [Op.forward
          ⟨z.turnOff, localElevId, c.changeFloor⟩,
          .ackRequest c 0],
        SchedOp d op ∧
          ∀ x f, ¬ Lights x f op ∧ ¬ Owes x f op := by
    intro z op hOp
    rcases List.mem_cons.mp hOp with rfl | hOp
    · exact hTurnOff z
    · rw [List.mem_singleton.mp hOp]
      exact hAck 0
  have hOther : ∀ type : ChangeType,
      type ≠ .buttonUpPressed → type ≠ .buttonDownPressed →
        ∀ x : CallDirection, type ≠ x.pressed := by
    intro type hUp hDown x
    cases x with
    | up => exact hUp
    | down => exact hDown
  unfold handleChange
  cases hType : c.changeType with
  | buttonUpPressed =>
      exact Or.inl ⟨.up, rfl, handleButtonPress_eq .up hOwn⟩
  | buttonDownPressed =>
      exact Or.inl
        ⟨.down, rfl, handleButtonPress_eq .down hOwn⟩
  | servedUp =>
      exact Or.inr ⟨hOther _ ChangeType.noConfusion
        ChangeType.noConfusion, hTwo .up⟩
  | servedDown =>
      exact Or.inr ⟨hOther _ ChangeType.noConfusion
        ChangeType.noConfusion, hTwo .down⟩
  | goingToServeUp =>
      refine Or.inr ⟨hOther _ ChangeType.noConfusion
        ChangeType.noConfusion, ?_⟩
      intro op hOp
      rw [List.mem_singleton.mp hOp]
      exact hAck _
  | goingToServeDown =>
      refine Or.inr ⟨hOther _ ChangeType.noConfusion
        ChangeType.noConfusion, ?_⟩
      intro op hOp
      rw [List.mem_singleton.mp hOp]
      exact hAck _
  | none | keepAlive | otherChange | insideButtonPresed
  | served =>
      exact Or.inr ⟨hOther _ ChangeType.noConfusion
        ChangeType.noConfusion,
        fun op hOp => absurd hOp List.not_mem_nil⟩

theorem pressed_injective
    {x y : CallDirection}
    (hSame : x.pressed = y.pressed) :
    x = y := by
  cases x <;> cases y <;> first | rfl | cases hSame

/- What `_schedLoop` has to do for a change of its own
elevator. -/
theorem schedLoop_spec
    {d : BasicDriverInfo}
    {c : StateChange}
    (hGenuine : c.Genuine d localElevId) :
    (∀ op ∈ schedLoop localElevId c, SchedOp d op) ∧
      (∀ x f, Followed (Lights x f) (Owes x f)
        (schedLoop localElevId c)) ∧
      ∀ x f, (∃ op ∈ schedLoop localElevId c,
        Owes x f op) ↔ c.Presses x f := by
  have hList :
      schedLoop localElevId c =
        [.update c.state, .propagate c] ++
          handleChange localElevId c := by
    unfold schedLoop
    rw [if_pos hGenuine.origin]
    rfl
  have hUpdate : SchedOp d (.update c.state) :=
    ⟨hGenuine.origin, hGenuine.lastFloor⟩
  have hDark : ∀ x f, ∀ op ∈ [Op.update c.state,
      .propagate c], ¬ Lights x f op ∧ ¬ Owes x f op := by
    intro x f op hOp
    rcases List.mem_cons.mp hOp with rfl | hOp
    · exact ⟨fun hLights => hLights, fun hOwed => hOwed⟩
    · rw [List.mem_singleton.mp hOp]
      exact ⟨fun hLights => hLights, fun hOwed => hOwed⟩
  have hFirst : ∀ op ∈ [Op.update c.state, .propagate c],
      SchedOp d op := by
    intro op hOp
    rcases List.mem_cons.mp hOp with rfl | hOp
    · exact hUpdate
    · rw [List.mem_singleton.mp hOp]
      trivial
  have hHead : ∀ x f, Followed (Lights x f) (Owes x f)
      [Op.update c.state, .propagate c] :=
    fun x f => followed_of_forall_not
      fun op hOp => (hDark x f op hOp).1
  rw [hList]
  rcases handleChange_cases (d := d) hGenuine.origin with
    ⟨y, hPressed, hOps⟩ | ⟨hOther, hOps⟩
  · have hFloor := hGenuine.pressed y hPressed
    rw [hOps]
    refine ⟨?_, ?_, ?_⟩
    · intro op hOp
      rcases List.mem_append.mp hOp with hOp | hOp
      · exact hFirst op hOp
      · rcases List.mem_cons.mp hOp with rfl | hOp
        · trivial
        · rw [List.mem_singleton.mp hOp]
          exact ⟨⟨y, rfl⟩, hFloor⟩
    · intro x f
      apply (hHead x f).append
      refine ⟨?_, followed_of_forall_not ?_⟩
      · rintro ⟨hType, hHere⟩
        refine ⟨_, List.mem_singleton_self _, ?_, hHere⟩
        cases x <;> cases y <;> first | rfl | cases hType
      · intro op hOp
        rw [List.mem_singleton.mp hOp]
        exact fun hLights => hLights
    · intro x f
      constructor
      · rintro ⟨op, hOp, hOwed⟩
        rcases List.mem_append.mp hOp with hOp | hOp
        · exact absurd hOwed (hDark x f op hOp).2
        · rcases List.mem_cons.mp hOp with rfl | hOp
          · rcases hOwed with ⟨hType, _⟩
            cases x <;> cases y <;> cases hType
          · rw [List.mem_singleton.mp hOp] at hOwed
            rcases hOwed with ⟨hType, hHere⟩
            rw [button_injective hType] at hPressed
            exact ⟨hPressed, hHere⟩
      · rintro ⟨hType, hHere⟩
        have hSame : y = x :=
          pressed_injective (hPressed.symm.trans hType)
        refine ⟨.optimalElevator y.button c.changeFloor,
          by simp, ?_, hHere⟩
        rw [hSame]
  · refine ⟨?_, ?_, ?_⟩
    · intro op hOp
      rcases List.mem_append.mp hOp with hOp | hOp
      · exact hFirst op hOp
      · exact (hOps op hOp).1
    · intro x f
      apply (hHead x f).append
      exact followed_of_forall_not
        fun op hOp => ((hOps op hOp).2 x f).1
    · intro x f
      constructor
      · rintro ⟨op, hOp, hOwed⟩
        rcases List.mem_append.mp hOp with hOp | hOp
        · exact absurd hOwed (hDark x f op hOp).2
        · exact absurd hOwed ((hOps op hOp).2 x f).2
      · rintro ⟨hType, _⟩
        exact absurd hType (hOther x)

/- A change that is dequeued turns from reported to owed. -/
theorem inv_of_dequeue
    {c : StateChange}
    {rest : List StateChange}
    (hInv : Inv S s)
    (hIdle : s.schedOps = [])
    (hOut : s.elevator.outState = c :: rest) :
    Inv S { s with
      elevator := { s.elevator with outState := rest }
      handling := some c
      schedOps := schedLoop localElevId c } := by
  have hGenuine :
      c.Genuine S.toBasicDriverInfo localElevId := by
    apply hInv.sound.genuine
    rw [hOut]
    exact List.mem_cons_self
  have hSpec := schedLoop_spec hGenuine
  have hStream :
      s.stream = s.commands.toLocal.map Op.forward := by
    rw [stream, hIdle, List.append_nil]
  exact
    { sound :=
        { self := hInv.sound.self
          lastFloor := hInv.sound.lastFloor
          genuine := by
            intro c' hc'
            apply hInv.sound.genuine
            rw [hOut]
            exact List.mem_cons_of_mem c hc' }
      known := hInv.known
      learned := Or.inr (Or.inr ⟨_, _, rfl⟩)
      sched := hSpec.1
      req := hInv.req
      calls := hInv.calls
      pressed := by
        intro op hOp x f hOwed
        exact ⟨c, rfl, (hSpec.2.2 x f).mp ⟨op, hOp, hOwed⟩⟩
      followed := by
        intro x f
        have hOld := hInv.followed x f
        rw [hStream] at hOld
        exact hOld.append (hSpec.2.1 x f)
      answered := by
        intro x f hf hLit
        rcases hInv.answered x f hf hLit with
          hCalled | hReported | hOwed
        · exact Or.inl hCalled
        · rcases hReported with ⟨c', hc', hPress⟩
          rw [hOut] at hc'
          rcases List.mem_cons.mp hc' with rfl | hRest
          · right
            right
            rcases (hSpec.2.2 x f).mpr hPress with
              ⟨op, hOp, hOwed⟩
            exact ⟨op, List.mem_append_right _ hOp, hOwed⟩
          · exact Or.inr (Or.inl ⟨c', hRest, hPress⟩)
        · right
          right
          rcases hOwed with ⟨op, hOp, hOwed⟩
          rw [hStream] at hOp
          exact ⟨op, List.mem_append_left _ hOp, hOwed⟩ }

/- An iteration that completes has taken its command. -/
theorem taken_of_ok
    {d : BasicDriverInfo}
    {i : Inputs}
    {e : Loop}
    (hRun : Loop.loopBody d i s.elevator = .ok () e) :
    (s.taken d i).toLocal = s.commands.toLocal.tail := by
  unfold taken
  cases hPoll : Loop.pollButtons d i s.elevator with
  | ok u t => rfl
  | error e' t =>
      have hError :
          Loop.loopBody d i s.elevator = .error e' t := by
        simp only [Loop.loopBody, Loop.approach, bind,
          EStateM.bind, hPoll]
      rw [hRun] at hError
      cases hError

theorem taken_cases
    (d : BasicDriverInfo)
    (i : Inputs)
    (s : Node) :
    (s.taken d i).toLocal = s.commands.toLocal ∨
      (s.taken d i).toLocal = s.commands.toLocal.tail := by
  unfold taken
  split
  · exact Or.inr rfl
  · exact Or.inl rfl

/- The stream without the command that is taken. -/
theorem lightsFollowed_taken
    {i : Inputs}
    {e : Loop}
    {d : BasicDriverInfo}
    (hFollowed : LightsFollowed s) :
    LightsFollowed { s with
      elevator := e
      commands := s.taken d i } := by
  intro x f
  have hOld := hFollowed x f
  unfold stream at hOld ⊢
  rcases taken_cases d i s with hSame | hTail
  · change Followed _ _ ((s.taken d i).toLocal.map _ ++ _)
    rw [hSame]
    exact hOld
  · change Followed _ _ ((s.taken d i).toLocal.map _ ++ _)
    rw [hTail]
    cases hQueue : s.commands.toLocal with
    | nil =>
        rw [hQueue] at hOld
        exact hOld
    | cons c rest =>
        rw [hQueue] at hOld
        exact hOld.2

/- A call that is owed is accepted with the first command, or
owed by a later one. -/
theorem owed_of_taken
    {i : Inputs}
    {x : CallDirection}
    {f : Int}
    (hCommand : i.tryDequeue = s.commands.toLocal.head?)
    (hOwed : Owed x f s) :
    (∃ op ∈ s.commands.toLocal.tail.map Op.forward ++
        s.schedOps, Owes x f op) ∨
      i.accepts x f = true := by
  rcases hOwed with ⟨op, hOp, hOwes⟩
  cases hQueue : s.commands.toLocal with
  | nil =>
      rw [stream, hQueue] at hOp
      exact Or.inl ⟨op, hOp, hOwes⟩
  | cons c rest =>
      rw [stream, hQueue] at hOp
      rcases List.mem_cons.mp hOp with rfl | hOp
      · right
        rw [hQueue] at hCommand
        unfold Inputs.accepts
        rw [hCommand]
        exact decide_eq_true ⟨hOwes.1, hOwes.2.1⟩
      · exact Or.inl ⟨op, hOp, hOwes⟩

/- The light of a call is switched on by a command that is
followed by the call. -/
theorem owes_of_light
    {i : Inputs}
    {x : CallDirection}
    {f : Int}
    {c : Command}
    (hInv : Inv S s)
    (hCommand : i.tryDequeue = s.commands.toLocal.head?)
    (hc : i.tryDequeue = some c)
    (hType : c.commandType = x.turnOn)
    (hFloor : c.targetFloor = f) :
    ∃ op ∈ s.commands.toLocal.tail.map Op.forward ++
      s.schedOps, Owes x f op := by
  have hOld := hInv.followed x f
  rw [hCommand] at hc
  cases hQueue : s.commands.toLocal with
  | nil =>
      rw [hQueue] at hc
      cases hc
  | cons c' rest =>
      rw [hQueue] at hc
      rw [← Option.some.inj hc] at hType hFloor
      rw [stream, hQueue] at hOld
      exact hOld.1 ⟨hType, hFloor⟩

/- An iteration takes the first command of the stream. -/
theorem inv_of_elevator
    {i : Inputs}
    {e : Loop}
    (hInv : Inv S s)
    (hCommand : i.tryDequeue = s.commands.toLocal.head?)
    (hSensed : i.Sensed S.toBasicDriverInfo)
    (hClear : i.getObstruction = false)
    (hStep : Loop.Step S.toBasicDriverInfo i s.elevator e) :
    Inv S { s with
      elevator := e
      commands := s.taken S.toBasicDriverInfo i } := by
  have hBase : S.InRange S.minFloor :=
    ⟨Int.le_refl _, Int.le_of_lt S.ordered⟩
  have hBefore : ∀ x f, S.InRange f →
      Loop.Held S.toBasicDriverInfo localElevId x f
        (Owed x f s) s.elevator :=
    fun x f hf => ⟨hInv.sound, hInv.answered x f hf⟩
  have hAfter : ∀ x f, S.InRange f →
      Loop.Held S.toBasicDriverInfo localElevId x f
        (Owed x f { s with
          elevator := e
          commands := s.taken S.toBasicDriverInfo i }) e := by
    intro x f hf
    cases hStep with
    | iterate hRun =>
        have hTail := taken_of_ok (s := s) hRun
        have hWp := Loop.wp_loopBody_held hf hSensed hClear
          (owed_of_taken hCommand)
          (fun _ => owes_of_light hInv hCommand)
          (hBefore x f hf)
        apply (Exec.wp_ok hWp hRun).mono
        rintro ⟨op, hOp, hOwes⟩
        refine ⟨op, ?_, hOwes⟩
        rw [stream]
        change op ∈ (s.taken S.toBasicDriverInfo
          i).toLocal.map Op.forward ++ s.schedOps
        rw [hTail]
        exact hOp
    | restart e' t hRun hTag hEnter =>
        have hAny :
            Owed x f s → True ∨ i.accepts x f = true :=
          fun _ => Or.inl trivial
        have hWp := Loop.wp_loopBody_held hf hSensed hClear
          hAny (fun _ _ _ _ => trivial) (hBefore x f hf)
        have hSound := Exec.wp_error hWp hRun
        have hHalted :
            Loop.Sound S.toBasicDriverInfo localElevId
              (Loop.halted t) := by
          apply Loop.Sound.congr _ hSound
          rfl
        exact Loop.held_of_enter hf hHalted hEnter
  exact
    { sound := (hAfter .up _ hBase).sound
      known := hInv.known
      learned := hInv.learned
      sched := hInv.sched
      req := hInv.req
      calls := hInv.calls
      pressed := hInv.pressed
      followed := lightsFollowed_taken hInv.followed
      answered := fun x f hf => (hAfter x f hf).answered }

------------------------------------------------------------
-- Runs
------------------------------------------------------------

/- A step of a thread of the scheduler. -/
theorem inv_of_threads
    {event : Event}
    (hInv : Inv S s)
    (hStep : Threads LocalAlive S.toBasicDriverInfo
      localElevId s event t) :
    Inv S t := by
  cases hStep with
  | schedule t op ops next now clock hOps hAlive hExec =>
      exact inv_of_schedule hInv hOps hAlive hExec
  | scheduleFails op ops now clock e hOps hAlive hExec =>
      exact (hInv.schedule_never_fails hOps hAlive
        hExec).elim
  | wait d0 hIdle hDone =>
      exact hInv.checked rfl rfl rfl rfl hInv.req hInv.calls
        (Carries.of_stream rfl)
  | pass d0 clock hCalled => exact inv_pass d0 clock hInv
  | wake d0 deadline now hBlocked =>
      exact hInv.checked rfl rfl rfl rfl hInv.req hInv.calls
        (Carries.of_stream rfl)
  | expire d0 deadline now hBlocked =>
      exact inv_take now hInv
  | check t op ops next now clock hOps hAlive hExec =>
      exact inv_of_check hInv hOps hExec
  | checkFails op ops now clock e hOps hAlive hExec =>
      refine hInv.checked rfl rfl rfl rfl ?_ hInv.calls
        (Carries.of_stream rfl)
      exact fun op' hMem => absurd hMem List.not_mem_nil

theorem inv_of_step
    {s' : Node}
    (hInv : Inv S s)
    (hStep : Step S.toBasicDriverInfo s s') :
    Inv S s' := by
  cases hStep with
  | elevator i e hCommand hSensed hClear hStep =>
      exact inv_of_elevator hInv hCommand hSensed hClear hStep
  | dequeue c rest hIdle hOut =>
      exact inv_of_dequeue hInv hIdle hOut
  | threads t event hStep =>
      exact inv_of_threads hInv hStep

theorem inv_of_reachable
    (hReach : (system S.toBasicDriverInfo).Reachable s) :
    Inv S s := by
  apply hReach.invariant
  · rintro _ ⟨driver, elevator, hEnter, rfl⟩
    exact inv_started hEnter
  · exact fun _ _ hInv hStep => inv_of_step hInv hStep

/- What is owed on the stream is a live obligation. -/
theorem Inv.obliged_of_owed
    {x : CallDirection}
    {f : Int}
    (hInv : Inv S s)
    (hOwed : Owed x f s) :
    Obliged S.toBasicDriverInfo x f s := by
  rcases hOwed with ⟨op, hOp, hOwes⟩
  rcases List.mem_append.mp hOp with hQueued | hNext
  · rcases List.mem_map.mp hQueued with ⟨c, hc, rfl⟩
    exact Obliged.commanded c hc
      ⟨hOwes.2.1, Or.inr (Or.inr hOwes.1)⟩
  · rcases hInv.pressed op hNext x f hOwes with
      ⟨c, hHandling, hPress⟩
    exact Obliged.handled c hHandling
      (List.ne_nil_of_mem hNext) hPress

/-
  On a node on its own, a hall button whose lamp is lit has a
  live obligation.
-/
theorem lamp_obliged
    {x : CallDirection}
    {f : Int}
    (hReach : (system S.toBasicDriverInfo).Reachable s)
    (hButton : (⟨x.button, f⟩ : Button) ∈
      Loop.genFloorButtons S.toBasicDriverInfo)
    (hLit : Loop.lit x f s.elevator = true) :
    Obliged S.toBasicDriverInfo x f s := by
  have hInv := inv_of_reachable hReach
  have hf : S.InRange f :=
    Loop.inRange_of_mem_genFloorButtons hButton
  rcases hInv.answered x f hf hLit with
    hCalled | hReported | hOwed
  · exact Obliged.called hCalled
  · rcases hReported with ⟨c, hc, hPress⟩
    exact Obliged.reported c hc hPress
  · exact hInv.obliged_of_owed hOwed

end Steps

/- Somebody presses the hall button of the upper floor. -/
def firstPress : Inputs where
  getButtonSignal b := decide (b = ⟨.callDown, 1⟩)
  getStop := false
  getObstruction := false
  tryDequeue := none
  getFloor _ := intMin
  now _ := 0

theorem firstPress_run :
    ∃ e e' : Loop,
      Loop.enter Loop.twoFloors.toBasicDriverInfo
        (Loop.create Loop.twoFloors.toBasicDriverInfo
          localElevId Loop.darkDriver) = .ok () e ∧
      Loop.loopBody Loop.twoFloors.toBasicDriverInfo
        firstPress e = .ok () e' ∧
      Loop.lit .down 1 e' = true :=
  ⟨_, _, rfl, rfl, rfl⟩

/- After the press the lamp is lit and has an obligation. -/
theorem lamp_obliged_firstPress :
    ∃ s, (system Loop.twoFloors.toBasicDriverInfo).Reachable
        s ∧
      Loop.lit .down 1 s.elevator = true ∧
      Obliged Loop.twoFloors.toBasicDriverInfo .down 1 s := by
  rcases firstPress_run with ⟨e, e', hEnter, hRun, hLit⟩
  have hInit :
      (system Loop.twoFloors.toBasicDriverInfo).Reachable
        (started e) :=
    TransitionSystem.Reachable.init
      ⟨Loop.darkDriver, e, hEnter, rfl⟩
  have hReach := hInit.step (Step.elevator (started e)
    firstPress e' rfl (fun _ => Or.inl rfl) rfl
    (Loop.Step.iterate hRun))
  have hButton :
      (⟨CallDirection.down.button, 1⟩ : Button) ∈
        Loop.genFloorButtons
          Loop.twoFloors.toBasicDriverInfo := by
    decide
  exact ⟨_, hReach, hLit,
    lamp_obliged hReach hButton hLit⟩

end Node

end ElevatorControl
