import ElevatorControl.Scheduler.Acknowledged

/-
  What is left of an update when no elevator can be chosen.

  The assertion of `_optimalElevator` leaves the operation it
  fails in, and the restart wrapper enters the loop again.
  `_resendRequest` has taken its request out of the queue by
  then, and `_handleButtonPress` has already sent the command
  for the light.

  A light that is turned on is harmless only when an earlier
  press of the button still has its request.

  Key definitions include:
    * `Dispatch.FailsToChoose`
    * `Dispatch.Requested`
    * `Dispatch.LosesNothing`
    * `Dispatch.Announced`

  Key theorems include:
    * `Dispatch.announced_of_step`
    * `Dispatch.check_loses` and `Dispatch.schedule_loses`
    * `Dispatch.losesNothing_iff`
-/

------------------------------------------------------------
-- Failing Choices
------------------------------------------------------------

namespace ElevatorControl

namespace Dispatch

open Scheduler

/- Runs from any knowledge about the elevators. -/
def knowing
    (bounds : BasicDriverInfo)
    (localElevId : Int) : TransitionSystem Dispatch where
  Init s := ∃ clock globalState,
    s = { initial clock with globalState := globalState }
  Step s s' := ∃ a, step bounds localElevId a s = some s'

/- Runs that start with no knowledge are among them. -/
theorem knowing_of_system
    {bounds : BasicDriverInfo}
    {localElevId : Int}
    {C : Action → Dispatch → Prop}
    {s : Dispatch}
    (hReach : (system bounds localElevId C).Reachable s) :
    (knowing bounds localElevId).Reachable s := by
  apply hReach.mono (N := knowing bounds localElevId)
  · rintro _ ⟨clock, rfl⟩
    exact ⟨clock, .empty, rfl⟩
  · rintro s s' ⟨a, _, hStep⟩
    exact ⟨a, hStep⟩

/- The next operation of a thread chooses an elevator, and
the assertion of `_optimalElevator` fails. -/
inductive FailsToChoose
    (bounds : BasicDriverInfo) :
    Action → Dispatch → Prop where
  | resend
      {s : Dispatch}
      {read : TimePoint}
      {r : Request}
      {ops : List Op}
      {e : AssertionFailed}
      (hOps : s.reqOps = .reschedule r :: ops)
      (hFails :
        optimalElevator bounds (nowAt read)
          (requestButton r) r.command.targetFloor
          s.globalState.elevators = .error e) :
      FailsToChoose bounds (.check read) s
  | press
      {s : Dispatch}
      {read : TimePoint}
      {type : ButtonType}
      {floor : Int}
      {ops : List Op}
      {e : AssertionFailed}
      (hOps : s.schedOps = .optimalElevator type floor :: ops)
      (hFails :
        optimalElevator bounds (nowAt read) type floor
          s.globalState.elevators = .error e) :
      FailsToChoose bounds (.schedule read) s

/- The command that sets up the light of a button. -/
def lightOn
    (type : ButtonType)
    (floor : Int) : Command :=
  ⟨if type = .callUp then .turnOnLightUp
    else .turnOnLightDown, Command.anyId, floor⟩

/- There is a request for the call of a button at a floor:
one that is not done is in the queue, or has been taken out
to be pushed again. -/
def Requested
    (type : ButtonType)
    (floor : Int)
    (s : Dispatch) : Prop :=
  ∃ t ∈ s.outstanding,
    t.request.type ≠ .done ∧
      t.request.command.commandType =
        (if type = .callUp then .callToFloorAndGoUp
          else .callToFloorAndGoDown) ∧
      t.request.command.targetFloor = floor

/-
  What is expected after a failed choice. The request that
  was to be resent is in the queue again. A light is not
  turned on at a floor without a request for that floor and
  direction.
-/
def LosesNothing
    (a : Action)
    (s s' : Dispatch) : Prop :=
  match a with
  | .check _ => ∃ t ∈ s'.requests.list, t.tag = s.reqTag
  | .schedule _ =>
      ∀ type floor ops,
        s.schedOps = .optimalElevator type floor :: ops →
        lightOn type floor ∈ s'.commands.toLocal →
          Requested type floor s'
  | _ => True

/- The request in hand is dropped. -/
theorem check_of_fails
    {bounds : BasicDriverInfo}
    {localElevId : Int}
    {s : Dispatch}
    {read : TimePoint}
    {r : Request}
    {ops : List Op}
    {e : AssertionFailed}
    (hFails :
      optimalElevator bounds (nowAt read) (requestButton r)
        r.command.targetFloor s.globalState.elevators =
          .error e) :
    s.check bounds localElevId read (.reschedule r) ops =
      { s with held := none, reqOps := [] } := by
  rw [check_reschedule, hFails]

/- What is left to do for the press is dropped. -/
theorem schedule_of_fails
    {bounds : BasicDriverInfo}
    {localElevId : Int}
    {s : Dispatch}
    {read : TimePoint}
    {type : ButtonType}
    {floor : Int}
    {ops : List Op}
    {e : AssertionFailed}
    (hFails :
      optimalElevator bounds (nowAt read) type floor
        s.globalState.elevators = .error e) :
    s.schedule bounds localElevId read
        (.optimalElevator type floor) ops =
      { s with schedOps := [] } := by
  rw [schedule_choose, hFails]

------------------------------------------------------------
-- Lights of Presses
------------------------------------------------------------

/- The light is turned on before an elevator is chosen. -/
def Announced
    (s : Dispatch) : Prop :=
  ∀ type floor,
    .optimalElevator type floor ∈ s.schedOps →
      .forward (lightOn type floor) ∈ s.schedOps ∨
        lightOn type floor ∈ s.commands.toLocal

section Lights

variable {bounds : BasicDriverInfo}
variable {localElevId : Int}
variable {s s' : Dispatch}

theorem announced_initial
    (clock : TimePoint) :
    Announced (initial clock) := by
  intro type floor hOp
  cases hOp

/- An elevator is chosen only after a press. -/
theorem announced_schedLoop
    {update : StateChange}
    {type : ButtonType}
    {floor : Int}
    (hOp : .optimalElevator type floor ∈
      schedLoop localElevId update) :
    .forward (lightOn type floor) ∈
      schedLoop localElevId update := by
  have hPress :
      ∀ type' : ButtonType, ∀ floor' : Int,
        .optimalElevator type floor ∈
          handleButtonPress localElevId update.state.id type'
            floor' →
        .forward (lightOn type floor) ∈
          handleButtonPress localElevId update.state.id type'
            floor' := by
    intro type' floor' hChoose
    unfold handleButtonPress at hChoose ⊢
    rcases List.mem_cons.mp hChoose with hHead | hLater
    · cases hHead
    · split at hLater
      · cases List.mem_singleton.mp hLater
        exact List.mem_cons_self
      · cases hLater
  have hChange :
      .optimalElevator type floor ∈
          handleChange localElevId update →
        .forward (lightOn type floor) ∈
          handleChange localElevId update := by
    unfold handleChange
    intro hChoose
    split at hChoose
    case h_6 => exact hPress _ _ hChoose
    case h_7 => exact hPress _ _ hChoose
    all_goals simp at hChoose
  unfold schedLoop at hOp ⊢
  rcases List.mem_cons.mp hOp with hHead | hLater
  · cases hHead
  · apply List.mem_cons_of_mem
    rcases List.mem_append.mp hLater with hOut | hLast
    · split at hOut
      · cases List.mem_singleton.mp hOut
      · cases hOut
    · exact List.mem_append_right _ (hChange hLast)

/- Forwarding keeps the commands that are queued. -/
theorem mem_toLocal_forwardToTargets
    {q : CommandQueues Command}
    {c comm : Command}
    (hMem : c ∈ q.toLocal) :
    c ∈ (q.forwardToTargets Command.targetElevatorId
      localElevId comm).toLocal := by
  rw [CommandQueues.toLocal_forwardToTargets]
  split
  · exact List.mem_append_left _ hMem
  · exact hMem

theorem lightOn_mem_forwardToTargets
    {q : CommandQueues Command}
    {type : ButtonType}
    {floor : Int} :
    lightOn type floor ∈
      (q.forwardToTargets Command.targetElevatorId
        localElevId (lightOn type floor)).toLocal := by
  have hAny :
      (lightOn type floor).targetElevatorId =
        Command.anyId := rfl
  rw [CommandQueues.toLocal_forwardToTargets,
    if_pos (Or.inl hAny)]
  exact List.mem_append_right _ (List.mem_singleton_self _)

/- The lights stay announced while operations are carried
out that choose nothing. -/
theorem Announced.proceed
    {op : Op}
    {ops : List Op}
    (hInv : Announced s)
    (hOps : s.schedOps = op :: ops)
    (hLit : ∀ type floor,
      op = .forward (lightOn type floor) →
        lightOn type floor ∈ s'.commands.toLocal)
    (hKept : ∀ c ∈ s.commands.toLocal,
      c ∈ s'.commands.toLocal)
    (hRest : s'.schedOps = ops) :
    Announced s' := by
  intro type floor hChoose
  rw [hRest] at hChoose ⊢
  have hBefore := hInv type floor (by
    rw [hOps]
    exact List.mem_cons_of_mem op hChoose)
  rcases hBefore with hAhead | hQueued
  · rw [hOps] at hAhead
    rcases List.mem_cons.mp hAhead with hHead | hLater
    · exact Or.inr (hLit type floor hHead.symm)
    · exact Or.inl hLater
  · exact Or.inr (hKept _ hQueued)

/- No choice is left to be made. -/
theorem announced_of_chosen
    (hChosen : ∀ type floor,
      .optimalElevator type floor ∉ s.schedOps) :
    Announced s :=
  fun type floor hChoose =>
    absurd hChoose (hChosen type floor)

theorem announced_schedule
    {read : TimePoint}
    {op : Op}
    {ops : List Op}
    (hInv : Announced s)
    (hSchedules : Schedules s.schedOps)
    (hOps : s.schedOps = op :: ops) :
    Announced
      (s.schedule bounds localElevId read op ops) := by
  rw [hOps] at hSchedules
  cases hSchedules with
  | update state hRest =>
      exact hInv.proceed hOps (by simp)
        (fun _ hMem => hMem) rfl
  | propagate update hRest =>
      exact hInv.proceed hOps (by simp)
        (fun _ hMem => hMem) rfl
  | forward comm hRest =>
      apply hInv.proceed hOps
      · intro type floor hForward
        cases hForward
        exact lightOn_mem_forwardToTargets
      · exact fun _ => mem_toLocal_forwardToTargets
      · rfl
  | choose type floor =>
      rw [schedule_choose]
      cases optimalElevator bounds (nowAt read) type floor
          s.globalState.elevators with
      | error e => exact announced_of_chosen (by simp)
      | ok minId =>
          apply announced_of_chosen
          simp [Bind.bind, Except.bind, Pure.pure,
            Except.pure, callElevator, addAndForwardRequest]
  | push r comm hType =>
      exact hInv.proceed hOps (by simp)
        (fun _ hMem => hMem) rfl
  | going change =>
      exact hInv.proceed hOps (by simp)
        (fun _ hMem => hMem) rfl
  | served x change hServed =>
      exact hInv.proceed hOps (by simp)
        (fun _ hMem => hMem) rfl

/- Operations that neither touch what `_schedLoop` has to do
nor take commands out keep the lights announced. -/
theorem Announced.keep
    (hInv : Announced s)
    (hOps : s'.schedOps = s.schedOps)
    (hKept : ∀ c ∈ s.commands.toLocal,
      c ∈ s'.commands.toLocal) :
    Announced s' := by
  intro type floor hChoose
  rw [hOps] at hChoose ⊢
  exact (hInv type floor hChoose).imp_right (hKept _)

/- `_reqCheckLoop` leaves the other thread's work alone. -/
theorem check_frame
    (read : TimePoint)
    (op : Op)
    (ops : List Op) :
    (s.check bounds localElevId read op ops).schedOps =
        s.schedOps ∧
      ∀ c ∈ s.commands.toLocal,
        c ∈ (s.check bounds localElevId read op
          ops).commands.toLocal := by
  cases op with
  | forward comm =>
      exact ⟨rfl, fun _ => mem_toLocal_forwardToTargets⟩
  | optimalElevator type floor =>
      unfold check execute SchedulerState.execute
      dsimp only
      cases optimalElevator bounds (nowAt read) type floor
          s.globalState.elevators with
      | error e => exact ⟨rfl, fun _ hMem => hMem⟩
      | ok minId => exact ⟨rfl, fun _ hMem => hMem⟩
  | reschedule r =>
      rw [check_reschedule]
      cases optimalElevator bounds (nowAt read)
          (requestButton r) r.command.targetFloor
          s.globalState.elevators with
      | error e => exact ⟨rfl, fun _ hMem => hMem⟩
      | ok minId => exact ⟨rfl, fun _ hMem => hMem⟩
  | update state => exact ⟨rfl, fun _ hMem => hMem⟩
  | propagate update => exact ⟨rfl, fun _ hMem => hMem⟩
  | resend r => exact ⟨rfl, fun _ hMem => hMem⟩
  | push r => exact ⟨rfl, fun _ hMem => hMem⟩
  | ackRequest change delta =>
      exact ⟨rfl, fun _ hMem => hMem⟩

/- The end of the wait touches only the queue and the
waiter's own data. -/
theorem take_frame
    (s : Dispatch)
    (now : TimePoint) :
    (s.take now).schedOps = s.schedOps ∧
      (s.take now).commands = s.commands := by
  rcases take_cases s now with
    hNone | ⟨t, _, _, ⟨_, hSome⟩ | ⟨_, hFails⟩⟩
  · rw [hNone]
    exact ⟨rfl, rfl⟩
  · rw [hSome]
    exact ⟨rfl, rfl⟩
  · rw [hFails]
    exact ⟨rfl, rfl⟩

theorem Announced.take
    {now : TimePoint}
    (hInv : Announced s) :
    Announced (s.take now) := by
  rcases take_frame s now with ⟨hOps, hCommands⟩
  refine hInv.keep hOps ?_
  rw [hCommands]
  exact fun _ hMem => hMem

theorem announced_of_step
    {a : Action}
    (hNumbered : Numbered s)
    (hInv : Announced s)
    (hStep : step bounds localElevId a s = some s') :
    Announced s' := by
  cases transition_of_step hStep with
  | tick hClock => exact hInv
  | dequeue hOps =>
      exact fun _ _ hChoose =>
        Or.inl (announced_schedLoop hChoose)
  | schedule hOps hRead =>
      exact announced_schedule hInv hNumbered.schedules hOps
  | wait hIdle hOps => exact hInv
  | pass hCalled =>
      have hCleaned : Announced s.cleaned := hInv
      rw [pass_eq]
      split
      · exact hCleaned.take
      · exact hInv
  | wake hBlocked => exact hInv
  | expire hBlocked hExpired => exact hInv.take
  | @check _ read op ops hOps hRead =>
      rcases check_frame read op ops with ⟨hSame, hKept⟩
      exact hInv.keep hSame hKept

end Lights

------------------------------------------------------------
-- Losses
------------------------------------------------------------

section Failures

variable {bounds : BasicDriverInfo}
variable {localElevId : Int}
variable {s s' : Dispatch}

/- In every run requests have numbers of their own, and
lights are announced. -/
theorem numbered_announced_of_reachable
    (hReach : (knowing bounds localElevId).Reachable s) :
    Numbered s ∧ Announced s := by
  apply hReach.invariant
    (P := fun s => Numbered s ∧ Announced s)
  · rintro _ ⟨clock, globalState, rfl⟩
    exact ⟨{ numbered_initial clock with },
      announced_initial clock⟩
  · rintro s s' ⟨hNumbered, hAnnounced⟩ ⟨a, hStep⟩
    exact ⟨numbered_of_step hNumbered hStep,
      announced_of_step hNumbered hAnnounced hStep⟩

/- No request in the queue has the number of the one that has
been taken out to be rescheduled. -/
theorem Numbered.reqTag_apart
    {r : Request}
    {ops : List Op}
    {t : Tagged Nat}
    (hInv : Numbered s)
    (hOps : s.reqOps = .reschedule r :: ops)
    (hMem : t ∈ s.requests.list) :
    t.tag ≠ s.reqTag := by
  have hResends := hInv.resends
  rw [hOps] at hResends
  generalize hHeld : s.held = held at hResends
  generalize hNumber : s.reqTag = tag at hResends ⊢
  cases hResends with
  | reschedule u r => exact hInv.held_apart hHeld hMem

/- The request that was to be resent is in no queue after a
failed choice: the operation leaves the queue as it is. -/
theorem check_loses
    {read : TimePoint}
    {r : Request}
    {ops : List Op}
    {e : AssertionFailed}
    (hInv : Numbered s)
    (hOps : s.reqOps = .reschedule r :: ops)
    (hFails :
      optimalElevator bounds (nowAt read) (requestButton r)
        r.command.targetFloor s.globalState.elevators =
          .error e)
    (hStep :
      step bounds localElevId (.check read) s = some s') :
    ¬ LosesNothing (.check read) s s' := by
  rintro ⟨t, ht, hTag⟩
  have hSame : s'.requests = s.requests := by
    cases transition_of_step hStep with
    | @check _ _ op' ops' hOps' hRead =>
        cases hOps.symm.trans hOps'
        rw [check_of_fails hFails]
  rw [hSame] at ht
  exact hInv.reqTag_apart hOps ht hTag

/- The light of a press is on the way when the choice is made
for it. -/
theorem Announced.lit
    {type : ButtonType}
    {floor : Int}
    {ops : List Op}
    (hInv : Announced s)
    (hSchedules : Schedules s.schedOps)
    (hOps : s.schedOps = .optimalElevator type floor :: ops) :
    lightOn type floor ∈ s.commands.toLocal := by
  have hChoose :
      .optimalElevator type floor ∈ s.schedOps := by
    rw [hOps]
    exact List.mem_cons_self
  rcases hInv type floor hChoose with hAhead | hQueued
  · rw [hOps] at hSchedules hAhead
    cases hSchedules with
    | choose type floor =>
        cases List.mem_singleton.mp hAhead
  · exact hQueued

/- A failed choice for a press neither takes its light back
nor pushes a request. What is left is what earlier presses
have left. -/
theorem schedule_loses
    {read : TimePoint}
    {type : ButtonType}
    {floor : Int}
    {ops : List Op}
    {e : AssertionFailed}
    (hLit : lightOn type floor ∈ s.commands.toLocal)
    (hOps : s.schedOps = .optimalElevator type floor :: ops)
    (hFails :
      optimalElevator bounds (nowAt read) type floor
        s.globalState.elevators = .error e)
    (hStep :
      step bounds localElevId (.schedule read) s = some s') :
    LosesNothing (.schedule read) s s' ↔
      Requested type floor s := by
  have hAfter : s' = { s with schedOps := [] } := by
    cases transition_of_step hStep with
    | @schedule _ _ op' ops' hOps' hRead =>
        cases hOps.symm.trans hOps'
        exact schedule_of_fails hFails
  rw [hAfter]
  constructor
  · intro hNothing
    exact hNothing type floor ops hOps hLit
  · intro hRequested type' floor' ops' hOps' _
    cases hOps.symm.trans hOps'
    exact hRequested

/-
  What a failed choice loses. The request in hand is always
  lost. A press loses nothing exactly when a request for its
  floor and direction was there before.
-/
theorem losesNothing_iff
    {a : Action}
    (hReach : (knowing bounds localElevId).Reachable s)
    (hFails : FailsToChoose bounds a s)
    (hStep : step bounds localElevId a s = some s') :
    LosesNothing a s s' ↔
      ∃ read type floor ops,
        a = .schedule read ∧
          s.schedOps = .optimalElevator type floor :: ops ∧
          Requested type floor s := by
  rcases numbered_announced_of_reachable hReach with
    ⟨hNumbered, hAnnounced⟩
  cases hFails with
  | @resend _ read r ops e hOps hFails =>
      have hLoses := check_loses hNumbered hOps hFails hStep
      constructor
      · intro hNothing
        exact absurd hNothing hLoses
      · rintro ⟨_, _, _, _, hOther, _⟩
        cases hOther
  | @press _ read type floor ops e hOps hFails =>
      have hLit :=
        hAnnounced.lit hNumbered.schedules hOps
      rw [schedule_loses hLit hOps hFails hStep]
      constructor
      · intro hRequested
        exact ⟨read, type, floor, ops, rfl, hOps, hRequested⟩
      · rintro ⟨_, _, _, _, _, hOps', hRequested⟩
        cases hOps.symm.trans hOps'
        exact hRequested

end Failures

/-
  The elevator at the lowest floor has last been heard of at
  time 0. The button is pressed again after five seconds,
  and no elevator is found for this press. The request of the
  first press is still there.
-/
theorem losesNothing_pressedAgain :
    ∃ s s',
      (knowing fourFloors 0).Reachable s ∧
        FailsToChoose fourFloors
          (.schedule (milliseconds 5000)) s ∧
        step fourFloors 0 (.schedule (milliseconds 5000))
          s = some s' ∧
        LosesNothing (.schedule (milliseconds 5000))
          s s' := by
  have hPushed := knowing_of_system reachable_pushed
  have hForwarded := hPushed.step ⟨.schedule 0, rfl⟩
  have hTicked := hForwarded.step
    ⟨.tick (milliseconds 5000), rfl⟩
  have hDequeued := hTicked.step ⟨.dequeue callUp, rfl⟩
  have hUpdated := hDequeued.step
    ⟨.schedule (milliseconds 5000), rfl⟩
  have hPropagated := hUpdated.step
    ⟨.schedule (milliseconds 5000), rfl⟩
  have hLit := hPropagated.step
    ⟨.schedule (milliseconds 5000), rfl⟩
  refine ⟨_, _, hLit, .press rfl rfl, rfl,
    (losesNothing_iff hLit (.press rfl rfl) rfl).mpr
      ⟨_, _, _, _, rfl, rfl, ?_⟩⟩
  exact ⟨⟨1, callRequest⟩,
    List.mem_singleton_self _, by decide, rfl, rfl⟩

/- The same press without an earlier one lights the button
and leaves no request. -/
example :
    ∃ s s',
      (knowing fourFloors 0).Reachable s ∧
        FailsToChoose fourFloors
          (.schedule (milliseconds 5000)) s ∧
        step fourFloors 0 (.schedule (milliseconds 5000))
          s = some s' ∧
        ¬ LosesNothing (.schedule (milliseconds 5000))
          s s' := by
  have hInit : (knowing fourFloors 0).Reachable
      (initial (milliseconds 5000)) :=
    TransitionSystem.Reachable.init ⟨_, .empty, rfl⟩
  have hDequeued := hInit.step ⟨.dequeue callUp, rfl⟩
  have hUpdated := hDequeued.step
    ⟨.schedule (milliseconds 5000), rfl⟩
  have hPropagated := hUpdated.step
    ⟨.schedule (milliseconds 5000), rfl⟩
  have hLit := hPropagated.step
    ⟨.schedule (milliseconds 5000), rfl⟩
  refine ⟨_, _, hLit, .press rfl rfl, rfl, ?_⟩
  intro hNothing
  rcases hNothing .callUp 1 [] rfl
    (List.mem_singleton_self _) with ⟨t, ht, _⟩
  cases ht

/-
  The request of a press has been acknowledged, and is taken
  out when it has not been served for 30 seconds. No elevator
  has been heard of since, and the request is gone.
-/
theorem expired_request_lost :
    ∃ s s',
      (knowing fourFloors 0).Reachable s ∧
        FailsToChoose fourFloors
          (.check (milliseconds 31000)) s ∧
        step fourFloors 0 (.check (milliseconds 31000)) s =
          some s' ∧
        ¬ LosesNothing (.check (milliseconds 31000)) s s' := by
  have hTaken := knowing_of_system reachable_taken
  have hResent := hTaken.step
    ⟨.check (milliseconds 31000), rfl⟩
  refine ⟨_, _, hResent, .resend rfl rfl, rfl, ?_⟩
  rintro ⟨t, ht, _⟩
  cases ht

end Dispatch

end ElevatorControl
