import ElevatorControl.Loop.Basic
import ElevatorControl.Requests.RequestQueue
import ElevatorControl.Scheduler.GlobalState
import ElevatorControl.Scheduler.Queues

/-
  The scheduler of one node.

  Both threads of the scheduler are given by the operations
  on shared data that they carry out one after the other.
  `schedLoop` lists the operations for one state change, and
  `resendRequest` those for one request whose deadline has
  passed. An operation that chooses an elevator determines the
  operations that come after it.

  Key definitions include:
    * `Scheduler.optimalElevator`
    * `Scheduler.Op`
    * `Scheduler.handleButtonPress`
    * `Scheduler.schedLoop`
    * `Scheduler.resendRequest`

  Key theorems include:
    * `Scheduler.optimalElevator_min`
-/

------------------------------------------------------------
-- Choosing an Elevator
------------------------------------------------------------

namespace ElevatorControl

namespace Scheduler

/- The age from which a state counts as outdated, which is
`keepAlive * 1.2`. -/
def outdatedThresh : MillisecondTime :=
  Loop.keepAlive * 12 / 10

/- The age from which an elevator is most likely dead. -/
def deadThresh : MillisecondTime :=
  Loop.keepAlive * 3

/- A busy elevator that comes by the floor in the direction
of the call, or that turns there. -/
def comesBy
    (bounds : BasicDriverInfo)
    (type : ButtonType)
    (floor : Int)
    (state : ElevatorState) : Prop :=
  (state.direction = .up ∧
      ((type = .callUp ∧ floor > state.lastFloor) ∨
        floor = bounds.maxFloor)) ∨
    (state.direction = .down ∧
      ((type = .callDown ∧ floor < state.lastFloor) ∨
        floor = bounds.minFloor))

instance
    (bounds : BasicDriverInfo)
    (type : ButtonType)
    (floor : Int)
    (state : ElevatorState) :
    Decidable (comesBy bounds type floor state) := by
  unfold comesBy
  infer_instance

/- The distance of an elevator with its penalizations. -/
def distance
    (bounds : BasicDriverInfo)
    (now : MillisecondTime)
    (type : ButtonType)
    (floor : Int)
    (state : ElevatorState) : Int :=
  let span := bounds.maxFloor - bounds.minFloor
  (state.lastFloor - floor).natAbs +
    (if now - state.timestamp > outdatedThresh then 10 * span
      else 0) +
    (if state.stopped then 10 * span else 0) +
    (if comesBy bounds type floor state then span + 1
      else if state.direction ≠ .none then 2 * (span + 1)
      else 0)

/- One pass of the loop over the elevators, which keeps the
least distance and the id it belongs to. -/
def considerElevator
    (bounds : BasicDriverInfo)
    (now : MillisecondTime)
    (type : ButtonType)
    (floor : Int)
    (best : Int × Int)
    (state : ElevatorState) : Int × Int :=
  if now - state.timestamp > deadThresh then best
  else if distance bounds now type floor state < best.1 then
    (distance bounds now type floor state, state.id)
  else best

/- The elevator with the least distance of those that are
alive, if there is one. -/
def optimalElevator
    (bounds : BasicDriverInfo)
    (now : MillisecondTime)
    (type : ButtonType)
    (floor : Int)
    (elevators : List ElevatorState) :
    Except AssertionFailed Int := do
  let (_minDistance, minId) :=
    elevators.foldl
      (considerElevator bounds now type floor)
      (intMax, intMin)
  assert (0 ≤ minId) "no minimal distance found"
  return minId

section Optimal

variable {bounds : BasicDriverInfo}
variable {now : MillisecondTime}
variable {type : ButtonType}
variable {floor : Int}

/-
  The loop ends with the least distance: either no elevator
  that is alive beats the one it started with, or it is the
  distance of an elevator that is alive.
-/
theorem foldl_considerElevator
    (elevators : List ElevatorState)
    (best : Int × Int) :
    let best' := elevators.foldl
      (considerElevator bounds now type floor) best
    (∀ e ∈ elevators, now - e.timestamp ≤ deadThresh →
      best'.1 ≤ distance bounds now type floor e) ∧
    best'.1 ≤ best.1 ∧
    (best' = best ∨
      ∃ e ∈ elevators, now - e.timestamp ≤ deadThresh ∧
        best' = (distance bounds now type floor e, e.id)) := by
  induction elevators generalizing best with
  | nil => simp
  | cons e elevators ih =>
      have hRest :=
        ih (considerElevator bounds now type floor best e)
      dsimp only at hRest ⊢
      rw [List.foldl_cons]
      rcases hRest with ⟨hLeast, hLe, hFrom⟩
      have hStep :
          (now - e.timestamp ≤ deadThresh →
            (considerElevator bounds now type floor best
              e).1 ≤ distance bounds now type floor e) ∧
          (considerElevator bounds now type floor best
            e).1 ≤ best.1 ∧
          (considerElevator bounds now type floor best e =
              best ∨
            (now - e.timestamp ≤ deadThresh ∧
              considerElevator bounds now type floor best e =
                (distance bounds now type floor e,
                  e.id))) := by
        unfold considerElevator
        split_ifs with hDead hCloser
        · exact ⟨fun hAlive => absurd hDead
            (Int.not_lt.mpr hAlive), Int.le_refl _,
            Or.inl rfl⟩
        · exact ⟨fun _ => Int.le_refl _,
            Int.le_of_lt hCloser,
            Or.inr ⟨Int.not_lt.mp hDead, rfl⟩⟩
        · exact ⟨fun _ => Int.not_lt.mp hCloser,
            Int.le_refl _, Or.inl rfl⟩
      rcases hStep with ⟨hOwn, hKept, hOrigin⟩
      refine ⟨?_, Int.le_trans hLe hKept, ?_⟩
      · intro e' he' hAlive
        rcases List.mem_cons.mp he' with rfl | he'
        · exact Int.le_trans hLe (hOwn hAlive)
        · exact hLeast e' he' hAlive
      · rcases hFrom with hSame | ⟨e', he', hNew⟩
        · rw [hSame]
          rcases hOrigin with hOld | ⟨hAlive, hNew⟩
          · exact Or.inl hOld
          · exact Or.inr
              ⟨e, List.mem_cons_self, hAlive, hNew⟩
        · exact Or.inr
            ⟨e', List.mem_cons_of_mem e he', hNew⟩

/-
  When some elevator that is alive is in reach, the chosen
  one is alive, and none that is alive has a smaller
  distance.
-/
theorem optimalElevator_min
    {elevators : List ElevatorState}
    {e₀ : ElevatorState}
    (hMem : e₀ ∈ elevators)
    (hAlive : now - e₀.timestamp ≤ deadThresh)
    (hReach : distance bounds now type floor e₀ < intMax)
    (hIds : ∀ e ∈ elevators, 0 ≤ e.id) :
    ∃ e ∈ elevators, now - e.timestamp ≤ deadThresh ∧
      optimalElevator bounds now type floor elevators =
        .ok e.id ∧
      ∀ e' ∈ elevators, now - e'.timestamp ≤ deadThresh →
        distance bounds now type floor e ≤
          distance bounds now type floor e' := by
  rcases @foldl_considerElevator bounds now type floor
    elevators (intMax, intMin) with ⟨hLeast, _, hFrom⟩
  rcases hFrom with hNone | ⟨e, he, hOld, hBest⟩
  · have hFar := hLeast e₀ hMem hAlive
    rw [hNone] at hFar
    exact absurd hReach (Int.not_lt.mpr hFar)
  · refine ⟨e, he, hOld, ?_, ?_⟩
    · unfold optimalElevator
      rw [hBest]
      dsimp only
      rw [assert_true (hIds e he)]
      rfl
    · intro e' he' hAlive'
      have hLe := hLeast e' he' hAlive'
      rw [hBest] at hLe
      exact hLe

/- The elevator that is chosen is one of the elevators. -/
theorem optimalElevator_mem
    {elevators : List ElevatorState}
    {minId : Int}
    (hChosen : optimalElevator bounds now type floor
      elevators = .ok minId) :
    ∃ e ∈ elevators, e.id = minId := by
  rcases @foldl_considerElevator bounds now type floor
    elevators (intMax, intMin) with ⟨_, _, hFrom⟩
  unfold optimalElevator at hChosen
  rcases hFrom with hNone | ⟨e, he, _, hBest⟩
  · rw [hNone] at hChosen
    cases hChosen
  · rw [hBest] at hChosen
    dsimp only at hChosen
    by_cases hId : 0 ≤ e.id
    · rw [assert_true hId] at hChosen
      exact ⟨e, he, Except.ok.inj hChosen⟩
    · rw [assert_false hId] at hChosen
      cases hChosen

/- Every floor of a shaft of at most 64 floors is in
reach. -/
theorem distance_lt_intMax
    {e : ElevatorState}
    (hSpan : bounds.maxFloor - bounds.minFloor ≤ 63)
    (hFloor : bounds.InRange floor)
    (hLast : bounds.InRange e.lastFloor) :
    distance bounds now type floor e < intMax := by
  rcases hFloor with ⟨hLow, hHigh⟩
  rcases hLast with ⟨hLow', hHigh'⟩
  unfold distance intMax
  dsimp only
  split_ifs <;> omega

end Optimal

------------------------------------------------------------
-- Operations of the Threads
------------------------------------------------------------

/- The operations of a scheduler thread on shared data. -/
inductive Op where
  | update (state : ElevatorState)
  | propagate (update : StateChange)
  | forward (comm : Command)
  | optimalElevator (type : ButtonType) (floor : Int)
  | resend (r : Request)
  | reschedule (r : Request)
  | push (r : Request)
  | ackRequest
      (change : StateChange)
      (newDeadlineDelta : MillisecondTime)
  deriving DecidableEq

/- Remember the request, and send its command. -/
def addAndForwardRequest
    (comm : Command)
    (now : TimePoint) : List Op :=
  [.push (Request.create comm 100 now), .forward comm]

/- What `_handleButtonPress` does with the elevator it has
chosen. -/
def callElevator
    (type : ButtonType)
    (floor minId : Int)
    (now : TimePoint) : List Op :=
  addAndForwardRequest
    ⟨if type = .callUp then .callToFloorAndGoUp
      else .callToFloorAndGoDown, minId, floor⟩ now

/- First setup lights; each elevator schedules changes
originating from it. -/
def handleButtonPress
    (localElevId updateElId : Int)
    (type : ButtonType)
    (floor : Int) : List Op :=
  .forward
      ⟨if type = .callUp then .turnOnLightUp
        else .turnOnLightDown, Command.anyId, floor⟩ ::
    if updateElId = localElevId then
      [.optimalElevator type floor]
    else []

/- The `switch` of `_schedLoop`. -/
def handleChange
    (localElevId : Int)
    (update : StateChange) : List Op :=
  match update.changeType with
  | .none | .keepAlive | .otherChange
  | .insideButtonPresed | .served => []
  | .buttonUpPressed =>
      handleButtonPress localElevId update.state.id .callUp
        update.changeFloor
  | .buttonDownPressed =>
      handleButtonPress localElevId update.state.id .callDown
        update.changeFloor
  | .servedDown =>
      [.forward ⟨.turnOffLightDown, localElevId,
        update.changeFloor⟩, .ackRequest update 0]
  | .servedUp =>
      [.forward ⟨.turnOffLightUp, localElevId,
        update.changeFloor⟩, .ackRequest update 0]
  | .goingToServeUp | .goingToServeDown =>
      [.ackRequest update (30 * 1000)]

/- One pass of `_schedLoop` for a dequeued update. -/
def schedLoop
    (localElevId : Int)
    (update : StateChange) : List Op :=
  .update update.state ::
    ((if update.state.id = localElevId then
        [.propagate update] else []) ++
      handleChange localElevId update)

/- The end of `_resendRequest`. -/
def pushAndForward
    (r : Request)
    (now : TimePoint) : List Op :=
  [.push (r.updateDeadline now), .forward r.command]

/- Count the repetition, and reschedule a request that has
been repeated too often or that is not done. -/
def resendRequest
    (r : Request)
    (now : TimePoint) : List Op :=
  let r := { r with repeated := r.repeated + 1 }
  if r.repeated > 3 ∨ r.type = .notDone then
    [.reschedule r]
  else pushAndForward r now

/- The request for the elevator it is rescheduled to. -/
def rescheduled
    (r : Request)
    (minId : Int) : Request :=
  { r with
    command.targetElevatorId := minId
    type := .notAcknowledged }

/- The button that belongs to a request. -/
def requestButton
    (r : Request) : ButtonType :=
  if r.command.commandType = .callToFloorAndGoUp then
    .callUp
  else .callDown

end Scheduler

end ElevatorControl
