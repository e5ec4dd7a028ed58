import ElevatorControl.Loop.HallCalls
import ElevatorControl.Loop.HallLamps
import ElevatorControl.Loop.Published

/-
  The assertions an iteration can run into.

  A consistent state passes `assertConsistency`. When the
  sensor reads floors of the shaft or none, and commands name
  floors of the shaft and are meant for the elevator, every
  operation of an iteration succeeds on consistent states,
  but for one: doors that close by timeout clear the calls of
  the floor the sensor reads, whether it reads one or not.

  Key definitions include:
    * `Loop.Consistent`
    * `Inputs.Addressed`
    * `Loop.ClosesBlind`

  Key theorems include:
    * `Loop.succeeds_approach`
    * `Loop.wp_react_blind`
    * `Loop.completes_iff`
-/

------------------------------------------------------------
-- Consistent States
------------------------------------------------------------

namespace ElevatorControl

/- A command names a floor of the shaft, and is meant for the
elevator `id`. -/
def Inputs.Addressed
    (d : BasicDriverInfo)
    (id : Int)
    (i : Inputs) : Prop :=
  ∀ c, i.tryDequeue = some c →
    d.InRange c.targetFloor ∧
      (c.targetElevatorId = id ∨
        c.targetElevatorId = Command.anyId)

namespace Loop

open Exec Car

/- The published state of the elevator `id` passes the
assertions about it. -/
structure Consistent
    (d : BasicDriverInfo)
    (id : Int)
    (s : Loop) : Prop where
  self : s.elevState.id = id
  nonneg : 0 ≤ id
  lastFloor : d.InRange s.elevState.lastFloor
  inside : s.elevState.insideButtons.Within d
  calls : ∀ x, (s.elevState.calls x).Within d

/- What consistency depends on. -/
structure Record where
  id : Int
  lastFloor : Int
  insideButtons : FloorSet
  upButtons : FloorSet
  downButtons : FloorSet

/- The part of the state the consistency depends on. -/
def record
    (s : Loop) : Record where
  id := s.elevState.id
  lastFloor := s.elevState.lastFloor
  insideButtons := s.elevState.insideButtons
  upButtons := s.elevState.upButtons
  downButtons := s.elevState.downButtons

/- The program, started in a consistent state, ends in one
and fails no assertion. -/
def Succeeds
    {α : Type}
    (d : BasicDriverInfo)
    (id : Int)
    (x : LoopM α) : Prop :=
  Preserves (Consistent d id) (fun _ => False) x

section Consistency

variable {S : Shaft}
variable {i : Inputs}
variable {id : Int}
variable {f : Int}
variable {s t : Loop}

theorem Consistent.congr
    {d : BasicDriverInfo}
    (hRecord : t.record = s.record)
    (hConsistent : Consistent d id s) :
    Consistent d id t where
  self :=
    (congrArg Record.id hRecord).trans hConsistent.self
  nonneg := hConsistent.nonneg
  lastFloor := by
    have hFloor := congrArg Record.lastFloor hRecord
    change t.elevState.lastFloor = s.elevState.lastFloor
      at hFloor
    rw [hFloor]
    exact hConsistent.lastFloor
  inside := by
    have hInside := congrArg Record.insideButtons hRecord
    change t.elevState.insideButtons =
      s.elevState.insideButtons at hInside
    rw [hInside]
    exact hConsistent.inside
  calls := by
    intro x
    have hCalls :
        t.elevState.calls x = s.elevState.calls x := by
      cases x with
      | up => exact congrArg Record.upButtons hRecord
      | down => exact congrArg Record.downButtons hRecord
    rw [hCalls]
    exact hConsistent.calls x

------------------------------------------------------------
-- Single Operations
------------------------------------------------------------

theorem succeeds_of_modify
    {g : Loop → Loop}
    (hRecord : ∀ s, (g s).record = s.record) :
    Succeeds S.toBasicDriverInfo id (modify g) :=
  preserves_modify fun s hConsistent =>
    hConsistent.congr (hRecord s)

theorem succeeds_emitStateChange
    (type : ChangeType)
    (floor : Int)
    (now : MillisecondTime) :
    Succeeds S.toBasicDriverInfo id
      (emitStateChange type floor now) :=
  succeeds_of_modify fun _ => rfl

theorem succeeds_check
    {α : Type}
    {y : Except AssertionFailed α}
    {a : α}
    (hOk : y = .ok a) :
    Succeeds S.toBasicDriverInfo id (check y) := by
  subst hOk
  exact fun _ hConsistent => hConsistent

theorem succeeds_setButtonLamp
    (type : ButtonType)
    (value : Bool)
    (hf : S.InRange f) :
    Succeeds S.toBasicDriverInfo id
      (callDriver (Driver.setButtonLamp S.toBasicDriverInfo
        ⟨type, f⟩ value)) := by
  intro s hConsistent
  have hRange : S.InRange (Button.mk type f).floor := hf
  rw [wp_callDriver_ok (Driver.setButtonLamp_eq hRange)]
  apply Consistent.congr _ hConsistent
  rfl

theorem Consistent.withInside
    {inside : FloorSet}
    (hWithin : inside.Within S.toBasicDriverInfo)
    (hConsistent : Consistent S.toBasicDriverInfo id s) :
    Consistent S.toBasicDriverInfo id
      { s with elevState.insideButtons := inside } where
  self := hConsistent.self
  nonneg := hConsistent.nonneg
  lastFloor := hConsistent.lastFloor
  inside := hWithin
  calls x := by
    cases x with
    | up => exact hConsistent.calls .up
    | down => exact hConsistent.calls .down

theorem succeeds_setInside
    (value : Bool)
    (hf : S.InRange f) :
    Succeeds S.toBasicDriverInfo id
      (setInside S.toBasicDriverInfo value f) := by
  intro s hConsistent
  simp only [setInside, wp_bind, wp_get, FloorSet.set_eq hf,
    wp_check_ok, wp_modify]
  apply hConsistent.withInside
  cases value with
  | true => exact hConsistent.inside.insert S hf
  | false => exact hConsistent.inside.erase

theorem succeeds_setButtonLampAndFlag
    (type : ButtonType)
    (value : Bool)
    (hf : S.InRange f) :
    Succeeds S.toBasicDriverInfo id
      (setButtonLampAndFlag S.toBasicDriverInfo ⟨type, f⟩
        value) := by
  unfold setButtonLampAndFlag
  apply Preserves.bind (succeeds_setButtonLamp type value hf)
  intro _
  exact preserves_when fun _ => succeeds_setInside value hf

theorem Consistent.withCalls
    {x : CallDirection}
    {calls : FloorSet}
    (hWithin : calls.Within S.toBasicDriverInfo)
    (hConsistent : Consistent S.toBasicDriverInfo id s) :
    Consistent S.toBasicDriverInfo id
      (Loop.withCalls x calls s) where
  self := by
    cases x with
    | up => exact hConsistent.self
    | down => exact hConsistent.self
  nonneg := hConsistent.nonneg
  lastFloor := by
    cases x with
    | up => exact hConsistent.lastFloor
    | down => exact hConsistent.lastFloor
  inside := by
    cases x with
    | up => exact hConsistent.inside
    | down => exact hConsistent.inside
  calls y := by
    rw [calls_withCalls]
    split
    · exact hWithin
    · exact hConsistent.calls y

theorem succeeds_setCall
    (x : CallDirection)
    (value : Bool)
    (hf : S.InRange f) :
    Succeeds S.toBasicDriverInfo id
      (setCall S.toBasicDriverInfo x value f) := by
  intro s hConsistent
  rw [wp_setCall hf]
  apply hConsistent.withCalls
  cases value with
  | true => exact (hConsistent.calls x).insert S hf
  | false => exact (hConsistent.calls x).erase

theorem Consistent.read
    {reading : Int}
    (hReading : reading = intMin ∨ S.InRange reading)
    (hConsistent : Consistent S.toBasicDriverInfo id s) :
    Consistent S.toBasicDriverInfo id
      (floorUpdated reading s) where
  self := hConsistent.self
  nonneg := hConsistent.nonneg
  lastFloor := by
    change S.InRange
      (if reading ≠ intMin then reading
        else s.elevState.lastFloor)
    split
    · next hFloor => exact hReading.resolve_left hFloor
    · exact hConsistent.lastFloor
  inside := hConsistent.inside
  calls x := by
    cases x with
    | up => exact hConsistent.calls .up
    | down => exact hConsistent.calls .down

theorem succeeds_updateAndGetFloor
    {reading : Int}
    (hReading : reading = intMin ∨ S.InRange reading) :
    Succeeds S.toBasicDriverInfo id
      (updateAndGetFloor reading) := by
  unfold updateAndGetFloor
  apply Preserves.bind
  · exact preserves_modify fun _ hConsistent =>
      hConsistent.read hReading
  · exact fun _ => preserves_pure _

theorem succeeds_stopElevator :
    Succeeds S.toBasicDriverInfo id stopElevator :=
  succeeds_of_modify fun _ => rfl

theorem succeeds_startElevator
    {direction : Direction}
    {reading : Int}
    (hReading : reading = intMin ∨ S.InRange reading) :
    Succeeds S.toBasicDriverInfo id
      (startElevator S.toBasicDriverInfo direction
        reading) := by
  intro s hConsistent
  rw [wp_startElevator]
  apply Consistent.congr _ (hConsistent.read hReading)
  rfl

------------------------------------------------------------
-- Polling
------------------------------------------------------------

theorem assertConsistency_ok
    (hConsistent : Consistent S.toBasicDriverInfo id s) :
    s.elevState.assertConsistency S.toBasicDriverInfo =
      .ok () := by
  have hId : 0 ≤ s.elevState.id := by
    rw [hConsistent.self]
    exact hConsistent.nonneg
  have hSet : ∀ set : FloorSet,
      set.Within S.toBasicDriverInfo →
      set.consistent S.toBasicDriverInfo = .ok true :=
    fun _ hWithin => (FloorSet.consistent_eq S).mpr hWithin
  have hInside := hSet _ hConsistent.inside
  have hUp := hSet _ (hConsistent.calls .up)
  have hDown := hSet _ (hConsistent.calls .down)
  simp only [ElevatorState.calls] at hUp hDown
  simp only [ElevatorState.assertConsistency,
    assert_true hId, hInside, hUp, hDown,
    assert_true hConsistent.lastFloor.1, bind, Except.bind,
    assert_true]

theorem succeeds_assertConsistency :
    Succeeds S.toBasicDriverInfo id
      (assertConsistency S.toBasicDriverInfo) := by
  intro s hConsistent
  unfold assertConsistency
  simp only [wp_bind, wp_get, assert_true S.ordered,
    assertConsistency_ok hConsistent, wp_check_ok,
    assert_true hConsistent.lastFloor.1,
    assert_true hConsistent.lastFloor.2]
  exact hConsistent

theorem getButtonLamp_ok
    {v : Driver}
    {type : ButtonType}
    (hf : S.InRange f) :
    v.getButtonLamp S.toBasicDriverInfo ⟨type, f⟩ =
      .ok (v.buttonLamp ⟨type, f⟩) := by
  have hRange : S.InRange (Button.mk type f).floor := hf
  simp only [Driver.getButtonLamp, Driver.lamp_eq hRange]
  rfl

theorem succeeds_newPress
    (type : ButtonType)
    (hf : S.InRange f) :
    Succeeds S.toBasicDriverInfo id
      (newPress S.toBasicDriverInfo i ⟨type, f⟩) := by
  unfold newPress
  apply Preserves.bind
    (succeeds_setButtonLampAndFlag type true hf)
  intro _
  apply Preserves.bind
  · exact preserves_when fun _ => succeeds_setInside true hf
  · exact fun _ => succeeds_emitStateChange _ _ _

theorem succeeds_holdInside
    (hf : S.InRange f) :
    Succeeds S.toBasicDriverInfo id
      (holdInside S.toBasicDriverInfo f) := by
  intro s hConsistent
  simp only [holdInside, wp_bind, wp_get,
    FloorSet.set_eq hf, wp_check_ok, wp_modify]
  apply Consistent.congr _ hConsistent
  rfl

theorem succeeds_handleButtons :
    Succeeds S.toBasicDriverInfo id
      (handleButtons S.toBasicDriverInfo i) := by
  unfold handleButtons
  apply preserves_forM
  rintro ⟨type, f⟩ hb
  have hf : S.InRange f := inRange_of_mem_genFloorButtons hb
  have hRange : S.InRange (Button.mk type f).floor := hf
  unfold handleButton
  apply Preserves.bind (succeeds_check
    (Driver.button_eq hRange))
  intro _
  apply preserves_when
  intro _
  apply Preserves.bind preserves_get
  intro s
  apply Preserves.bind
    (succeeds_check (getButtonLamp_ok hf))
  intro lit
  apply Preserves.bind
  · exact preserves_when fun _ => succeeds_newPress type hf
  · exact fun _ => preserves_when fun _ =>
      succeeds_holdInside hf

theorem succeeds_handleStop
    (hSensed : i.Sensed S.toBasicDriverInfo) :
    Succeeds S.toBasicDriverInfo id
      (handleStop S.toBasicDriverInfo i) := by
  have hReport :
      Succeeds S.toBasicDriverInfo id (do
        let floor ← updateAndGetFloor
          (i.getFloor .stopButton)
        emitStateChange .otherChange floor
          (i.now .stopButton)) := by
    apply Preserves.bind
      (succeeds_updateAndGetFloor (hSensed .stopButton))
    exact fun floor => succeeds_emitStateChange _ _ _
  unfold handleStop
  apply Preserves.bind
  · exact succeeds_of_modify fun _ => rfl
  · intro _
    apply Preserves.bind preserves_get
    intro s
    apply preserves_when
    intro _
    apply Preserves.bind
    · exact succeeds_of_modify fun _ => rfl
    · intro _
      apply Preserves.bind preserves_get
      intro t
      apply preserves_ite
      · unfold stopPressed
        apply Preserves.bind succeeds_stopElevator
        intro _
        apply Preserves.bind
        · exact succeeds_of_modify fun _ => rfl
        · exact fun _ => hReport
      · unfold resumePressed
        apply Preserves.bind preserves_get
        intro t'
        apply Preserves.bind
          (succeeds_startElevator (hSensed .resume))
        intro _
        apply Preserves.bind
        · exact succeeds_of_modify fun _ => rfl
        · exact fun _ => hReport

theorem succeeds_pollButtons
    (hSensed : i.Sensed S.toBasicDriverInfo) :
    Succeeds S.toBasicDriverInfo id
      (pollButtons S.toBasicDriverInfo i) := by
  unfold pollButtons
  apply Preserves.bind
  · exact succeeds_of_modify fun _ => rfl
  · intro _
    apply Preserves.bind succeeds_assertConsistency
    intro _
    apply Preserves.bind succeeds_handleButtons
    exact fun _ => succeeds_handleStop hSensed

------------------------------------------------------------
-- Commands and Sensing
------------------------------------------------------------

theorem succeeds_handleObstruction :
    Succeeds S.toBasicDriverInfo id
      (handleObstruction S.toBasicDriverInfo i) := by
  unfold handleObstruction
  apply preserves_when
  intro _ s hConsistent
  rcases Driver.shutdown_ok (d := S.toBasicDriverInfo)
    (v := s.driver) with ⟨v, hShutdown, _⟩
  rw [wp_callDriver_ok hShutdown]
  apply Consistent.congr _ hConsistent
  rfl

theorem succeeds_acceptCall
    (x : CallDirection)
    (hf : S.InRange f) :
    Succeeds S.toBasicDriverInfo id
      (acceptCall S.toBasicDriverInfo i x f) := by
  unfold acceptCall
  apply Preserves.bind (succeeds_setCall x true hf)
  intro _
  apply Preserves.bind (succeeds_setButtonLamp _ true hf)
  exact fun _ => succeeds_emitStateChange _ _ _

theorem succeeds_handleCommand
    (hAddressed : i.Addressed S.toBasicDriverInfo id) :
    Succeeds S.toBasicDriverInfo id
      (handleCommand S.toBasicDriverInfo i) := by
  unfold handleCommand
  cases hCommand : i.tryDequeue with
  | none => exact preserves_pure _
  | some command =>
      rcases hAddressed command hCommand with
        ⟨hFloor, hTarget⟩
      intro s hConsistent
      have hMeant :
          command.targetElevatorId = s.elevState.id ∨
            command.targetElevatorId = Command.anyId := by
        rw [hConsistent.self]
        exact hTarget
      simp only [wp_bind, wp_get, assert_true hMeant,
        wp_check_ok]
      have hExecute :
          Succeeds S.toBasicDriverInfo id
            (executeCommand S.toBasicDriverInfo i
              command) := by
        unfold executeCommand
        cases command.commandType with
        | empty => exact preserves_pure _
        | callToFloorAndGoUp =>
            exact succeeds_acceptCall .up hFloor
        | callToFloorAndGoDown =>
            exact succeeds_acceptCall .down hFloor
        | turnOnLightUp =>
            exact succeeds_setButtonLamp _ true hFloor
        | turnOffLightUp =>
            exact succeeds_setButtonLamp _ false hFloor
        | turnOnLightDown =>
            exact succeeds_setButtonLamp _ true hFloor
        | turnOffLightDown =>
            exact succeeds_setButtonLamp _ false hFloor
      exact hExecute s hConsistent

theorem succeeds_pollCommands
    (hAddressed : i.Addressed S.toBasicDriverInfo id) :
    Succeeds S.toBasicDriverInfo id
      (pollCommands S.toBasicDriverInfo i) := by
  unfold pollCommands
  apply Preserves.bind succeeds_handleObstruction
  exact fun _ => succeeds_handleCommand hAddressed

theorem succeeds_reportFloor
    {currentFloor : Int}
    (hFloor : currentFloor = intMin ∨
      S.InRange currentFloor) :
    Succeeds S.toBasicDriverInfo id
      (reportFloor S.toBasicDriverInfo i currentFloor) := by
  unfold reportFloor
  apply Preserves.bind
  · apply preserves_when
    intro hKnown s hConsistent
    have hRange := hFloor.resolve_left hKnown
    rw [wp_callDriver_ok
      (Driver.setFloorIndicator_eq hRange)]
    apply Consistent.congr _ hConsistent
    rfl
  · intro _
    apply Preserves.bind preserves_get
    intro s
    exact preserves_when fun _ =>
      succeeds_emitStateChange _ _ _

theorem succeeds_senseFloor
    (hSensed : i.Sensed S.toBasicDriverInfo) :
    Succeeds S.toBasicDriverInfo id
      (senseFloor S.toBasicDriverInfo i) := by
  unfold senseFloor updateAndGetFloor
  simp only [bind_assoc, pure_bind]
  apply Preserves.bind
  · exact preserves_modify fun _ hConsistent =>
      hConsistent.read (hSensed .loop)
  · intro _
    apply Preserves.bind
    · unfold safetyStops
      apply Preserves.bind preserves_get
      intro s
      apply Preserves.bind
      · exact preserves_when fun _ => succeeds_stopElevator
      · intro _
        apply Preserves.bind preserves_get
        intro t
        exact preserves_when fun _ => succeeds_stopElevator
    · intro _
      apply Preserves.bind
        (succeeds_reportFloor (hSensed .loop))
      exact fun _ => preserves_pure _

/- No assertion fails before the local state. -/
theorem succeeds_approach
    (hSensed : i.Sensed S.toBasicDriverInfo)
    (hAddressed : i.Addressed S.toBasicDriverInfo id) :
    Succeeds S.toBasicDriverInfo id
      (approach S.toBasicDriverInfo i) := by
  unfold approach
  apply Preserves.bind (succeeds_pollButtons hSensed)
  intro _
  apply Preserves.bind (succeeds_pollCommands hAddressed)
  exact fun _ => succeeds_senseFloor hSensed

------------------------------------------------------------
-- Decisions
------------------------------------------------------------

/- The decision of `_shouldStop` at a floor in range. -/
def stopsAt
    (d : BasicDriverInfo)
    (s : ElevatorState)
    (f : Int) : Bool :=
  s.insideButtons.mem f d ||
    match s.direction with
    | .up =>
        s.upButtons.mem f d ||
          (!(allButtons s).someHigher f d &&
            (allButtons s).mem f d)
    | .down =>
        s.downButtons.mem f d ||
          (!(allButtons s).someLower f d &&
            (allButtons s).mem f d)
    | .none =>
        (decide (f = d.minFloor) && (allButtons s).mem f d) ||
          (decide (f = d.maxFloor) && (allButtons s).mem f d)

theorem shouldStop_eq
    {d : BasicDriverInfo}
    {e : ElevatorState}
    (hf : d.InRange f) :
    shouldStop d e f = .ok (stopsAt d e f) := by
  unfold shouldStop stopsAt
  simp only [FloorSet.get_eq_mem hf,
    FloorSet.anyHigher_eq hf, FloorSet.anyLower_eq hf, bind,
    Except.bind]
  cases e.insideButtons.mem f d with
  | true => rfl
  | false =>
      cases e.direction with
      | none => rfl
      | up => rfl
      | down => rfl

/- An inside request lies in the direction. -/
def liesAhead
    (d : BasicDriverInfo)
    (s : ElevatorState) : Direction → Bool
  | .down => s.insideButtons.someLower s.lastFloor d
  | .up => s.insideButtons.someHigher s.lastFloor d
  | .none => false

theorem priorityFloorsInDirection_eq
    {d : BasicDriverInfo}
    {e : ElevatorState}
    (hFloor : d.InRange e.lastFloor)
    (direction : Direction) :
    priorityFloorsInDirection d e direction =
      .ok (liesAhead d e direction) := by
  cases direction with
  | none => rfl
  | up => exact FloorSet.anyHigher_eq hFloor
  | down => exact FloorSet.anyLower_eq hFloor

theorem inRange_directionButton
    {e : ElevatorState}
    {x : CallDirection}
    (hFloor : S.InRange e.lastFloor)
    (hButton : directionButton S.toBasicDriverInfo e =
      some (x, f)) :
    S.InRange f := by
  have hOrdered := S.ordered
  unfold directionButton at hButton
  split at hButton
  · cases hButton
    exact ⟨Int.le_of_lt hOrdered, Int.le_refl _⟩
  · split at hButton
    · cases hButton
      exact ⟨Int.le_refl _, Int.le_of_lt hOrdered⟩
    · split at hButton
      · cases hButton
      · cases hButton
        exact hFloor
      · cases hButton
        exact hFloor

------------------------------------------------------------
-- Reacting
------------------------------------------------------------

theorem succeeds_serveFloor
    (hf : S.InRange f) :
    Succeeds S.toBasicDriverInfo id
      (serveFloor S.toBasicDriverInfo i f) := by
  unfold serveFloor
  apply Preserves.bind
    (succeeds_setButtonLampAndFlag _ false hf)
  intro _
  apply Preserves.bind
  · exact succeeds_of_modify fun _ => rfl
  · intro _
    apply Preserves.bind succeeds_stopElevator
    intro _
    apply Preserves.bind (succeeds_setInside false hf)
    exact fun _ => succeeds_emitStateChange _ _ _

theorem succeeds_clearDirectionButtonLamp
    (now : MillisecondTime) :
    Succeeds S.toBasicDriverInfo id
      (clearDirectionButtonLamp S.toBasicDriverInfo now) := by
  intro s hConsistent
  unfold clearDirectionButtonLamp
  simp only [wp_bind, wp_get]
  cases hButton :
      directionButton S.toBasicDriverInfo s.elevState with
  | none => exact hConsistent
  | some target =>
      rcases target with ⟨x, f⟩
      have hf := inRange_directionButton
        hConsistent.lastFloor hButton
      have hClear :
          Succeeds S.toBasicDriverInfo id (do
            let wasSet ← setCall S.toBasicDriverInfo x
              false f
            when wasSet (emitStateChange x.served f now)
            callDriver (Driver.setButtonLamp
              S.toBasicDriverInfo ⟨x.button, f⟩ false)) := by
        apply Preserves.bind (succeeds_setCall x false hf)
        intro wasSet
        apply Preserves.bind
        · exact preserves_when fun _ =>
            succeeds_emitStateChange _ _ _
        · exact fun _ => succeeds_setButtonLamp _ false hf
      exact hClear s hConsistent

theorem succeeds_startForRequests
    (hSensed : i.Sensed S.toBasicDriverInfo) :
    Succeeds S.toBasicDriverInfo id
      (startForRequests S.toBasicDriverInfo i) := by
  intro s hConsistent
  unfold startForRequests
  simp only [wp_bind, wp_get, wp_ite, wp_check_ok,
    priorityFloorsInDirection_eq hConsistent.lastFloor]
  split
  · exact succeeds_startElevator (hSensed .depart) s
      hConsistent
  · exact succeeds_startElevator (hSensed .depart) s
      hConsistent

theorem succeeds_depart
    (hSensed : i.Sensed S.toBasicDriverInfo)
    (currentFloor : Int) :
    Succeeds S.toBasicDriverInfo id
      (depart S.toBasicDriverInfo i currentFloor) := by
  unfold depart
  apply Preserves.bind preserves_get
  intro s
  apply Preserves.bind
  · apply preserves_when
    intro _
    apply Preserves.bind (succeeds_startForRequests hSensed)
    exact fun _ => succeeds_emitStateChange _ _ _
  · exact fun _ => succeeds_clearDirectionButtonLamp _

theorem succeeds_handleNormal
    {currentFloor : Int}
    (hSensed : i.Sensed S.toBasicDriverInfo)
    (hFloor : currentFloor = intMin ∨
      S.InRange currentFloor) :
    Succeeds S.toBasicDriverInfo id
      (handleNormal S.toBasicDriverInfo i
        currentFloor) := by
  unfold handleNormal
  apply Preserves.bind preserves_get
  intro s
  by_cases hKnown : currentFloor ≠ intMin
  · have hf := hFloor.resolve_left hKnown
    have hArrives :
        arrives S.toBasicDriverInfo s.elevState
            currentFloor =
          .ok (stopsAt S.toBasicDriverInfo s.elevState
            currentFloor) := by
      rw [arrives, if_pos hKnown, shouldStop_eq hf]
    apply Preserves.bind (succeeds_check hArrives)
    intro arrived
    apply preserves_ite
    · exact succeeds_serveFloor hf
    · exact preserves_when fun _ => succeeds_depart hSensed _
  · have hArrives :
        arrives S.toBasicDriverInfo s.elevState
          currentFloor = .ok false := by
      rw [arrives, if_neg hKnown]
    -- without a floor the car does not arrive
    intro t hConsistent
    simp only [wp_bind, hArrives, wp_check_ok,
      Bool.false_eq_true, if_false]
    exact preserves_when
      (fun _ => succeeds_depart hSensed _) t hConsistent

theorem succeeds_closeByTimeout
    (hf : S.InRange f) :
    Succeeds S.toBasicDriverInfo id
      (closeByTimeout S.toBasicDriverInfo i f) := by
  unfold closeByTimeout
  apply Preserves.bind (succeeds_setCall .down false hf)
  intro _
  apply Preserves.bind (succeeds_setCall .up false hf)
  intro _
  apply Preserves.bind (succeeds_setButtonLamp _ false hf)
  intro _
  apply Preserves.bind (succeeds_setButtonLamp _ false hf)
  intro _
  apply Preserves.bind (succeeds_emitStateChange _ _ _)
  exact fun _ => succeeds_emitStateChange _ _ _

theorem not_inRange_intMin :
    ¬ S.InRange intMin := by
  have hSentinel := S.sentinel
  exact fun hRange => absurd hRange.1 (by omega)

/- The doors close on an unknown floor. -/
theorem closeByTimeout_fails
    (hConsistent : Consistent S.toBasicDriverInfo id s) :
    wp (closeByTimeout S.toBasicDriverInfo i intMin)
      (fun _ _ => False)
      (fun _ t => Consistent S.toBasicDriverInfo id t)
      s := by
  unfold closeByTimeout
  rw [wp_bind]
  apply wp_setCall_error not_inRange_intMin
  exact fun _ => hConsistent

theorem Consistent.doorShut
    (hConsistent : Consistent S.toBasicDriverInfo id s) :
    Consistent S.toBasicDriverInfo id (Loop.doorShut s) := by
  apply Consistent.congr _ hConsistent
  rfl

/- The doors close by timeout while the sensor reads no
floor. -/
def TimesOutBlind
    (i : Inputs)
    (currentFloor : Int)
    (s : Loop) : Prop :=
  s.state = .waitingForInButton ∧ doorTimeout i s = true ∧
    currentFloor = intMin

/- An assertion fails there, and nowhere else. -/
theorem wp_handleState_blind
    {currentFloor : Int}
    (hSensed : i.Sensed S.toBasicDriverInfo)
    (hFloor : currentFloor = intMin ∨
      S.InRange currentFloor)
    (hConsistent : Consistent S.toBasicDriverInfo id s) :
    wp (handleState S.toBasicDriverInfo i currentFloor)
      (fun _ t => Consistent S.toBasicDriverInfo id t ∧
        ¬ TimesOutBlind i currentFloor s)
      (fun _ t => Consistent S.toBasicDriverInfo id t ∧
        TimesOutBlind i currentFloor s) s := by
  unfold handleState
  simp only [wp_bind, wp_get]
  have hOther :
      ∀ x : LoopM Unit,
        Succeeds S.toBasicDriverInfo id x →
        ¬ TimesOutBlind i currentFloor s →
        wp x
          (fun _ t => Consistent S.toBasicDriverInfo id t ∧
            ¬ TimesOutBlind i currentFloor s)
          (fun _ t => Consistent S.toBasicDriverInfo id t ∧
            TimesOutBlind i currentFloor s) s := by
    intro x hx hSees
    apply wp_mono _ _ (hx s hConsistent)
    · exact fun _ t hConsistent' => ⟨hConsistent', hSees⟩
    · exact fun _ _ hFalse => False.elim hFalse
  cases hState : s.state with
  | normal =>
      apply hOther _ (succeeds_handleNormal hSensed hFloor)
      rintro ⟨hWaiting, _⟩
      rw [hState] at hWaiting
      cases hWaiting
  | stopped =>
      apply hOther _ (preserves_pure _)
      rintro ⟨hWaiting, _⟩
      rw [hState] at hWaiting
      cases hWaiting
  | waitingForInButton =>
      have hShut := hConsistent.doorShut
      unfold handleWaiting
      simp only [wp_bind, wp_get, wp_when]
      split
      · simp only [wp_modify, wp_ite]
        apply wp_mono _ (fun _ _ hFalse => False.elim hFalse)
          (succeeds_emitStateChange _ _ _ _ hShut)
        intro _ t hConsistent'
        split
        · next hTimeout =>
            rcases hFloor with hBlind | hf
            · subst hBlind
              apply wp_mono _ _
                (closeByTimeout_fails hConsistent')
              · exact fun _ _ hFalse => False.elim hFalse
              · exact fun _ _ hKept =>
                  ⟨hKept, hState, hTimeout, rfl⟩
            · apply wp_mono _ _
                (succeeds_closeByTimeout hf t hConsistent')
              · rintro _ _ hKept
                refine ⟨hKept, ?_⟩
                rintro ⟨_, _, rfl⟩
                exact not_inRange_intMin hf
              · exact fun _ _ hFalse => False.elim hFalse
        · next hTimeout =>
            apply wp_mono _ _
              (succeeds_clearDirectionButtonLamp _ t
                hConsistent')
            · exact fun _ _ hKept =>
                ⟨hKept, fun hBlind => hTimeout hBlind.2.1⟩
            · exact fun _ _ hFalse => False.elim hFalse
      · next hStays =>
          refine ⟨hConsistent, ?_⟩
          rintro ⟨_, hTimeout, _⟩
          exact hStays (Or.inr hTimeout)

theorem succeeds_finishCycle
    (currentFloor : Int) :
    Succeeds S.toBasicDriverInfo id
      (finishCycle i currentFloor) := by
  unfold finishCycle
  apply Preserves.bind preserves_get
  intro s
  apply Preserves.bind
  · exact preserves_when fun _ =>
      succeeds_emitStateChange _ _ _
  · exact fun _ => succeeds_of_modify fun _ => rfl

theorem wp_react_blind
    {currentFloor : Int}
    (hSensed : i.Sensed S.toBasicDriverInfo)
    (hFloor : currentFloor = intMin ∨
      S.InRange currentFloor)
    (hConsistent : Consistent S.toBasicDriverInfo id s) :
    wp (react S.toBasicDriverInfo i currentFloor)
      (fun _ t => Consistent S.toBasicDriverInfo id t ∧
        ¬ TimesOutBlind i currentFloor s)
      (fun _ t => Consistent S.toBasicDriverInfo id t ∧
        TimesOutBlind i currentFloor s) s := by
  unfold react
  rw [wp_bind]
  apply wp_mono _ (fun _ _ hE => hE)
    (wp_handleState_blind hSensed hFloor hConsistent)
  rintro _ t ⟨hConsistent', hSees⟩
  apply wp_mono _ _
    (succeeds_finishCycle currentFloor t hConsistent')
  · exact fun _ _ hKept => ⟨hKept, hSees⟩
  · exact fun _ _ hFalse => False.elim hFalse

------------------------------------------------------------
-- Iterations
------------------------------------------------------------

/- The doors have been open since before the iteration, the
stop button is not pressed, and the doors time out while the
sensor reads no floor. -/
def ClosesBlind
    (i : Inputs)
    (s : Loop) : Prop :=
  s.state = .waitingForInButton ∧ ¬ StopPressed i s ∧
    doorTimeout i s = true ∧ i.getFloor .loop = intMin

theorem keeps_doorWaitingStarted_approach
    {d : BasicDriverInfo} :
    Keeps doorWaitingStarted (approach d i) := by
  apply Keeps.of_preserves
  intro v
  have hCalls :
      CallStable (fun s => s.doorWaitingStarted = v) :=
    { report := fun _ _ _ _ hStarted => hStarted
      floor := fun _ _ hStarted => hStarted
      halt := fun _ hStarted => hStarted
      depart := fun _ _ _ _ hStarted => hStarted
      indicator := fun _ _ _ hStarted => hStarted
      hallLamp := fun _ _ _ _ hStarted => hStarted
      calls := fun x _ _ hStarted => by
        cases x with
        | up => exact hStarted
        | down => exact hStarted }
  have hPanel :
      PanelStable (fun s => s.doorWaitingStarted = v) :=
    { lamp := fun _ _ _ hStarted => hStarted
      inside := fun _ _ hStarted => hStarted
      held := fun _ _ hStarted => hStarted }
  have hStop :
      StopStable (fun s => s.doorWaitingStarted = v) :=
    { begin := fun _ hStarted => hStarted
      sample := fun _ _ hStarted => hStarted
      toggle := fun _ _ hStarted => hStarted
      state := fun _ _ hStarted => hStarted }
  exact stable_approach hCalls d i hPanel hStop
    fun _ _ hStarted => hStarted

/- Before the local state only the stop button changes it. -/
theorem wp_approach_state
    {d : BasicDriverInfo}
    (s : Loop) :
    wp (approach d i)
      (fun _ t => t.state =
        if StopPressed i s then
          if s.driver.stopLamp then .normal else .stopped
        else s.state)
      (fun _ _ => True) s := by
  unfold approach
  simp only [wp_bind]
  apply wp_mono _ (fun _ _ _ => trivial)
    (wp_pollButtons_toggled s)
  intro _ s₁ hToggled
  apply wp_mono _ (fun _ _ _ => trivial)
    (refines_pollCommands d i s₁)
  intro _ s₂ hCommanded
  have hState₂ : s₂.car.state = s₁.car.state := by
    generalize s₂.car = c at hCommanded
    cases hCommanded with
    | ignored => rfl
    | obstructed hObstruction => rfl
  apply wp_mono _ (fun _ _ _ => trivial)
    (refines_senseFloor d i s₂)
  intro _ s₃ hCar₃
  have hState₃ : s₃.car.state = s₁.car.state := by
    rw [hCar₃, ← hState₂]
    unfold sensed safetyStop
    split
    · rfl
    · rfl
  change s₃.car.state = _
  rw [hState₃]
  cases hToggled with
  | ignored hPressed hCar hSigns =>
      rw [hCar, if_neg hPressed]
      rfl
  | stopped hPressed hDark hCar hSigns =>
      rw [hCar, if_pos hPressed, hDark]
      rfl
  | resumed c hPressed hLit hStarts hCar hSigns =>
      rw [hCar, if_pos hPressed, hLit]
      rfl

/- The local state times out blind where the iteration does. -/
theorem wp_approach_blind
    {d : BasicDriverInfo}
    (s : Loop) :
    wp (approach d i)
      (fun currentFloor t => currentFloor = i.getFloor .loop ∧
        (TimesOutBlind i currentFloor t ↔ ClosesBlind i s))
      (fun _ _ => True) s := by
  apply wp_mono _ (fun _ _ _ => trivial)
    (wp_and (wp_and (wp_approach_state s)
      (keeps_doorWaitingStarted_approach s))
      (refines_approach d i s))
  rintro currentFloor t
    ⟨⟨hState, hStarted⟩, hCurrent, _⟩
  refine ⟨hCurrent, ?_⟩
  have hTimeout : doorTimeout i t = doorTimeout i s := by
    unfold doorTimeout
    rw [hStarted]
  unfold TimesOutBlind ClosesBlind
  rw [hState, hTimeout, hCurrent]
  by_cases hPressed : StopPressed i s
  · rw [if_pos hPressed]
    cases s.driver.stopLamp <;> simp [hPressed]
  · simp [hPressed]

/- An iteration fails an assertion where the doors close
blind, and nowhere else. -/
theorem wp_loopBody_blind
    (hSensed : i.Sensed S.toBasicDriverInfo)
    (hAddressed : i.Addressed S.toBasicDriverInfo id)
    (hConsistent : Consistent S.toBasicDriverInfo id s) :
    wp (loopBody S.toBasicDriverInfo i)
      (fun _ t => Consistent S.toBasicDriverInfo id t ∧
        ¬ ClosesBlind i s)
      (fun _ t => Consistent S.toBasicDriverInfo id t ∧
        ClosesBlind i s) s := by
  unfold loopBody
  rw [wp_bind]
  apply wp_mono _ _ (wp_and (wp_approach_blind s)
    (succeeds_approach hSensed hAddressed s hConsistent))
  · rintro currentFloor t
      ⟨⟨hCurrent, hBlind⟩, hConsistent'⟩
    rw [← hBlind]
    apply wp_react_blind hSensed _ hConsistent'
    rw [hCurrent]
    exact hSensed .loop
  · rintro _ _ ⟨_, hFalse⟩
    exact False.elim hFalse

------------------------------------------------------------
-- Runs
------------------------------------------------------------

/- Entering the loop keeps the state consistent. -/
theorem consistent_of_enter
    (hConsistent : Consistent S.toBasicDriverInfo id s)
    (hEnter : enter S.toBasicDriverInfo s = .ok () t) :
    Consistent S.toBasicDriverInfo id t := by
  have hFloors :
      Succeeds S.toBasicDriverInfo id
        ((S.toBasicDriverInfo.floors).forM
          (initializeFloor S.toBasicDriverInfo)) := by
    apply preserves_forM
    intro f hFloor
    have hf : S.InRange f :=
      BasicDriverInfo.mem_floors.mp hFloor
    unfold initializeFloor
    apply Preserves.bind preserves_get
    intro s₁
    apply Preserves.bind
      (succeeds_check (getButtonLamp_ok hf))
    intro lit
    apply Preserves.bind (preserves_when fun _ =>
      succeeds_setInside true hf)
    intro _
    apply Preserves.bind preserves_get
    intro s₂
    apply Preserves.bind
      (succeeds_check (FloorSet.get_eq_mem hf))
    intro inside
    apply Preserves.bind (preserves_when fun _ =>
      succeeds_setButtonLamp _ true hf)
    intro _
    apply Preserves.bind preserves_get
    intro s₃
    apply Preserves.bind
      (succeeds_check (FloorSet.get_eq_mem hf))
    intro up
    apply Preserves.bind (succeeds_setButtonLamp _ up hf)
    intro _
    apply Preserves.bind
      (succeeds_check (FloorSet.get_eq_mem hf))
    exact fun down => succeeds_setButtonLamp _ down hf
  have hFlag :
      ∀ (c : Prop) [Decidable c] (g : Loop → Loop),
        (∀ s, (g s).record = s.record) →
        Succeeds S.toBasicDriverInfo id
          (when c (modify g)) :=
    fun c _ g hg => preserves_when fun _ =>
      succeeds_of_modify hg
  have hSucceeds :
      Succeeds S.toBasicDriverInfo id
        (enter S.toBasicDriverInfo) := by
    unfold enter initializeElevator
    apply Preserves.bind
    · exact succeeds_of_modify fun _ => rfl
    intro _
    apply Preserves.bind
    · apply Preserves.bind hFloors
      intro _
      apply Preserves.bind preserves_get
      intro s₁
      apply Preserves.bind
      · exact hFlag _ _ fun _ => rfl
      · exact fun _ => hFlag _ _ fun _ => rfl
    · intro _
      apply Preserves.bind preserves_get
      intro s₁
      exact hFlag _ _ fun _ => rfl
  have hOk := wp_ok (hSucceeds s hConsistent) hEnter
  exact hOk

/-
  The loop has just been entered by a fresh elevator, or by
  one recovered from a state that passes the assertions and
  whose last floor is not above the highest one.
-/
inductive StartedConsistent
    (d : BasicDriverInfo)
    (id : Int)
    (s : Loop) : Prop where
  | fresh
      (driver : Driver)
      (hId : 0 ≤ id)
      (hEnter : enter d (create d id driver) = .ok () s)
  | recovered
      (id' : Int)
      (driver : Driver)
      (state : ElevatorState)
      (hId : state.id = id)
      (hChecked : state.assertConsistency d = .ok ())
      (hFloor : state.lastFloor ≤ d.maxFloor)
      (hEnter :
        enter d (recover state (create d id' driver)) =
          .ok () s)

/- The runs from such starts, with what the sensor and the
scheduler can send. -/
def checkedSystem
    (d : BasicDriverInfo)
    (id : Int) : TransitionSystem Loop where
  Init := StartedConsistent d id
  Step s s' := ∃ i, i.Sensed d ∧ i.Addressed d id ∧
    Step d i s s'

theorem eq_ok_of_bind
    {α β : Type}
    {x : Except AssertionFailed α}
    {g : α → Except AssertionFailed β}
    {b : β}
    (hBind : (x >>= g) = .ok b) :
    ∃ a, x = .ok a ∧ g a = .ok b := by
  cases x with
  | ok a => exact ⟨a, rfl, hBind⟩
  | error e => cases hBind

theorem of_assert_ok
    {cond : Prop}
    [Decidable cond]
    {msg : String}
    (hOk : assert cond msg = .ok ()) :
    cond := by
  by_contra hCond
  rw [assert_false hCond] at hOk
  cases hOk

/- What `assertConsistency` has checked. -/
theorem checked_of_assertConsistency
    {e : ElevatorState}
    (hChecked :
      e.assertConsistency S.toBasicDriverInfo = .ok ()) :
    0 ≤ e.id ∧ S.minFloor ≤ e.lastFloor ∧
      e.insideButtons.Within S.toBasicDriverInfo ∧
      ∀ x, (e.calls x).Within S.toBasicDriverInfo := by
  have hSet : ∀ (set : FloorSet) (b : Bool) (msg : String),
      set.consistent S.toBasicDriverInfo = .ok b →
      assert (b = true) msg = .ok () →
      set.Within S.toBasicDriverInfo := by
    intro set b msg hConsistent hTrue
    rw [of_assert_ok hTrue] at hConsistent
    exact (FloorSet.consistent_eq S).mp hConsistent
  unfold ElevatorState.assertConsistency at hChecked
  rcases eq_ok_of_bind hChecked with ⟨_, hId, hChecked⟩
  rcases eq_ok_of_bind hChecked with
    ⟨inside, hInside, hChecked⟩
  rcases eq_ok_of_bind hChecked with ⟨_, hInside', hChecked⟩
  rcases eq_ok_of_bind hChecked with ⟨up, hUp, hChecked⟩
  rcases eq_ok_of_bind hChecked with ⟨_, hUp', hChecked⟩
  rcases eq_ok_of_bind hChecked with ⟨down, hDown, hChecked⟩
  rcases eq_ok_of_bind hChecked with ⟨_, hDown', hFloor⟩
  refine ⟨of_assert_ok hId, of_assert_ok hFloor,
    hSet _ _ _ hInside hInside', ?_⟩
  intro x
  cases x with
  | up => exact hSet _ _ _ hUp hUp'
  | down => exact hSet _ _ _ hDown hDown'

theorem consistent_of_started
    (hStarted : StartedConsistent S.toBasicDriverInfo id s) :
    Consistent S.toBasicDriverInfo id s := by
  have hOrdered := S.ordered
  cases hStarted with
  | fresh driver hId hEnter =>
      apply consistent_of_enter _ hEnter
      refine ⟨rfl, hId, ?_, FloorSet.within_empty, ?_⟩
      · exact ⟨Int.le_refl _, Int.le_of_lt hOrdered⟩
      · intro x
        cases x with
        | up => exact FloorSet.within_empty
        | down => exact FloorSet.within_empty
  | recovered id' driver state hId hChecked hFloor hEnter =>
      rcases checked_of_assertConsistency hChecked with
        ⟨hNonneg, hMin, hInside, hCalls⟩
      apply consistent_of_enter _ hEnter
      refine ⟨hId, hId ▸ hNonneg, ⟨hMin, hFloor⟩, hInside, ?_⟩
      intro x
      cases x with
      | up => exact hCalls .up
      | down => exact hCalls .down

theorem consistent_of_step
    (hSensed : i.Sensed S.toBasicDriverInfo)
    (hAddressed : i.Addressed S.toBasicDriverInfo id)
    (hConsistent : Consistent S.toBasicDriverInfo id s)
    (hStep : Step S.toBasicDriverInfo i s t) :
    Consistent S.toBasicDriverInfo id t := by
  have hBody :=
    wp_loopBody_blind hSensed hAddressed hConsistent
  cases hStep with
  | iterate hRun =>
      have hOk := wp_ok hBody hRun
      exact hOk.1
  | restart e u hRun hTag hEnter =>
      have hError := wp_error hBody hRun
      apply consistent_of_enter _ hEnter
      apply Consistent.congr _ hError.1
      rfl

/- Every state of such a run is consistent. -/
theorem consistent_of_reachable
    (hReach :
      (checkedSystem S.toBasicDriverInfo id).Reachable s) :
    Consistent S.toBasicDriverInfo id s := by
  apply hReach.invariant
  · exact fun _ hStarted => consistent_of_started hStarted
  · rintro t t' hConsistent
      ⟨i, hSensed, hAddressed, hStep⟩
    exact consistent_of_step hSensed hAddressed hConsistent
      hStep

theorem completes_iff_of_consistent
    (hSensed : i.Sensed S.toBasicDriverInfo)
    (hAddressed : i.Addressed S.toBasicDriverInfo id)
    (hConsistent : Consistent S.toBasicDriverInfo id s) :
    Completes S.toBasicDriverInfo i s ↔ ¬ ClosesBlind i s := by
  have hBody :=
    wp_loopBody_blind hSensed hAddressed hConsistent
  unfold wp at hBody
  cases hRun : loopBody S.toBasicDriverInfo i s with
  | ok u s' =>
      simp only [hRun] at hBody
      exact iff_of_true ⟨s', hRun⟩ hBody.2
  | error e s' =>
      simp only [hRun] at hBody
      apply iff_of_false _ (not_not_intro hBody.2)
      rintro ⟨t, hOk⟩
      rw [hRun] at hOk
      cases hOk

/-
  In every run, an iteration fails no assertion exactly when
  it does not close the doors by timeout while the sensor
  reads no floor.
-/
theorem completes_iff
    (hReach :
      (checkedSystem S.toBasicDriverInfo id).Reachable s)
    (hSensed : i.Sensed S.toBasicDriverInfo)
    (hAddressed : i.Addressed S.toBasicDriverInfo id) :
    Completes S.toBasicDriverInfo i s ↔ ¬ ClosesBlind i s :=
  completes_iff_of_consistent hSensed hAddressed
    (consistent_of_reachable hReach)

end Consistency

------------------------------------------------------------
-- Lost Floor
------------------------------------------------------------

/- An elevator with a rider for the floor it stands at. -/
def riderInside : ElevatorState :=
  { ElevatorState.default with
    id := 0
    lastFloor := 0
    insideButtons := ⟨1#64⟩ }

/- The sensor reads the lowest floor. -/
def atFloor : Inputs :=
  { idle with getFloor := fun _ => 0 }

/- The phases of the iteration that opens the doors. -/
theorem atFloor_phases :
    ∃ s s₁ s₂ s₃ s₄ : Loop,
      enter twoFloors.toBasicDriverInfo
        (recover riderInside
          (create twoFloors.toBasicDriverInfo 0
            darkDriver)) = .ok () s ∧
      pollButtons twoFloors.toBasicDriverInfo atFloor s =
        .ok () s₁ ∧
      pollCommands twoFloors.toBasicDriverInfo atFloor
        s₁ = .ok () s₂ ∧
      senseFloor twoFloors.toBasicDriverInfo atFloor s₂ =
        .ok 0 s₃ ∧
      react twoFloors.toBasicDriverInfo atFloor 0 s₃ =
        .ok () s₄ ∧
      s₄.state = .waitingForInButton ∧
      s₄.doorWaitingStarted = 0 ∧
      s.elevState.insideButtons.mem 0
        twoFloors.toBasicDriverInfo = true ∧
      s₄.elevState.insideButtons.mem 0
        twoFloors.toBasicDriverInfo = false :=
  ⟨_, _, _, _, _, rfl, rfl, rfl, rfl, rfl, rfl, rfl, rfl,
    rfl⟩

theorem sensed_of_const
    {d : BasicDriverInfo}
    {i : Inputs}
    {reading : Int}
    (hConst : ∀ r, i.getFloor r = reading)
    (hReading : reading = intMin ∨ d.InRange reading) :
    i.Sensed d := by
  intro r
  rw [hConst]
  exact hReading

theorem addressed_of_none
    {d : BasicDriverInfo}
    {id : Int}
    {i : Inputs}
    (hNone : i.tryDequeue = none) :
    i.Addressed d id := by
  intro c hCommand
  rw [hNone] at hCommand
  cases hCommand

/- A car that waits with open doors since the clock read
zero. -/
theorem exists_waiting :
    ∃ s, (checkedSystem
        twoFloors.toBasicDriverInfo 0).Reachable s ∧
      s.state = .waitingForInButton ∧
      s.doorWaitingStarted = 0 := by
  rcases atFloor_phases with
    ⟨s, s₁, s₂, s₃, s₄, hEnter, hPoll, hCommand, hSense,
      hReact, hState, hStarted, _⟩
  have hRun := loopBody_of_phases hPoll hCommand hSense hReact
  have hInit : (checkedSystem
      twoFloors.toBasicDriverInfo 0).Reachable s :=
    TransitionSystem.Reachable.init
      (StartedConsistent.recovered 0 darkDriver riderInside
        rfl rfl (by decide) hEnter)
  have hReach := hInit.step ⟨atFloor,
    sensed_of_const (fun _ => rfl) (Or.inr (by decide)),
    addressed_of_none rfl, Step.iterate hRun⟩
  exact ⟨s₄, hReach, hState, hStarted⟩

/- The doors stay open while the sensor reads no floor. -/
theorem completes_iff_idle :
    ∃ s, (checkedSystem
        twoFloors.toBasicDriverInfo 0).Reachable s ∧
      s.state = .waitingForInButton ∧
      Completes twoFloors.toBasicDriverInfo idle s := by
  rcases exists_waiting with ⟨s, hReach, hState, hStarted⟩
  refine ⟨s, hReach, hState, ?_⟩
  rw [completes_iff hReach
    (sensed_of_const (fun _ => rfl) (Or.inl rfl))
    (addressed_of_none rfl)]
  rintro ⟨_, _, hTimeout, _⟩
  rw [doorTimeout, hStarted] at hTimeout
  exact absurd hTimeout (by decide)

/- The doors time out while the sensor reads no floor. -/
def lateIdle : Inputs :=
  { idle with now := fun _ => 6000 }

/- An iteration of a run fails an assertion. -/
theorem lateIdle_fails :
    ∃ s, (checkedSystem
        twoFloors.toBasicDriverInfo 0).Reachable s ∧
      lateIdle.Sensed twoFloors.toBasicDriverInfo ∧
      lateIdle.Addressed twoFloors.toBasicDriverInfo 0 ∧
      ¬ Completes twoFloors.toBasicDriverInfo lateIdle s := by
  rcases exists_waiting with ⟨s, hReach, hState, hStarted⟩
  have hSensed :
      lateIdle.Sensed twoFloors.toBasicDriverInfo :=
    sensed_of_const (fun _ => rfl) (Or.inl rfl)
  have hAddressed :
      lateIdle.Addressed twoFloors.toBasicDriverInfo 0 :=
    addressed_of_none rfl
  refine ⟨s, hReach, hSensed, hAddressed, ?_⟩
  rw [completes_iff_of_consistent hSensed hAddressed
    (consistent_of_reachable hReach)]
  apply not_not_intro
  refine ⟨hState, ?_, ?_, rfl⟩
  · rintro ⟨hStop, _⟩
    exact Bool.noConfusion hStop
  · rw [doorTimeout, hStarted]
    decide

end Loop

end ElevatorControl
