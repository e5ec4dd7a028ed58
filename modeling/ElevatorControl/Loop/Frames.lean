import ElevatorControl.Loop.Operations

/-
  What the phases of an iteration leave alone.

  The structures list the updates that the phases are made
  of. A predicate that is stable under them is kept by the
  phases, whether they complete or fail; a projection is kept
  when each of its values is.

  Key definitions include:
    * `Loop.Stable`
    * `Loop.MotionStable`
    * `Loop.CallStable`
    * `Loop.PanelStable`
    * `Loop.DoorStable`
    * `Loop.StopStable`

  Key theorems include:
    * `Loop.stable_pollButtons`
    * `Loop.stable_handleCommand`
    * `Loop.stable_senseFloor`
    * `Loop.stable_react`
-/

------------------------------------------------------------
-- Stable Predicates
------------------------------------------------------------

namespace ElevatorControl

namespace Loop

open Exec

/- The state with one lamp switched. -/
def lampSet
    (btn : Button)
    (value : Bool)
    (s : Loop) : Loop :=
  { s with
    driver := { s.driver with
      buttonLamp :=
        Function.update s.driver.buttonLamp btn value } }

/- The program keeps the predicate. -/
def Stable
    {α : Type}
    (I : Loop → Prop)
    (x : LoopM α) : Prop :=
  Preserves I I x

/- A predicate that the movement of the car keeps. -/
structure MotionStable
    (I : Loop → Prop) : Prop where
  report : ∀ s type floor now, I s →
    I (emitted type floor now s)
  floor : ∀ s reading, I s → I (floorUpdated reading s)
  halt : ∀ s, I s → I (halted s)
  depart : ∀ d direction reading s, I s →
    I (departed d direction reading s)
  indicator : ∀ s first second, I s → I { s with
    driver := { s.driver with
      floorInd1 := first
      floorInd2 := second } }

/- A predicate that hall calls and their lamps keep, too. -/
structure CallStable
    (I : Loop → Prop) : Prop extends MotionStable I where
  hallLamp : ∀ s (x : CallDirection) f value, I s →
    I (lampSet ⟨x.button, f⟩ value s)
  calls : ∀ x calls s, I s → I (withCalls x calls s)

/- A predicate that inside buttons and lamps keep. -/
structure PanelStable
    (I : Loop → Prop) : Prop where
  lamp : ∀ s btn value, I s → I (lampSet btn value s)
  inside : ∀ s buttons, I s →
    I { s with elevState.insideButtons := buttons }
  held : ∀ s buttons, I s →
    I { s with inFloorButtons := buttons }

/- A predicate that the doors and the end of an iteration
keep. -/
structure DoorStable
    (I : Loop → Prop) : Prop where
  opened : ∀ s now, I s → I { s with
    driver := s.driver.setDoorOpenLamp true
    elevState.doorOpen := true
    state := .waitingForInButton
    doorWaitingStarted := now }
  shut : ∀ s, I s → I (doorShut s)
  finish : ∀ s floor, I s → I { s with prevFloor := floor }

/- A predicate that the start of an iteration and the stop
button itself keep. -/
structure StopStable
    (I : Loop → Prop) : Prop where
  begin : ∀ s, I s → I { s with
    inFloorButtonsLast := s.inFloorButtons
    inFloorButtons := .empty
    stopLast := s.stopNow }
  sample : ∀ s pressed, I s → I { s with stopNow := pressed }
  toggle : ∀ s value, I s → I { s with
    elevState.stopped := value
    driver := s.driver.setStopLamp value }
  state : ∀ s state, I s → I { s with state := state }

section Single

variable {I : Loop → Prop}

theorem stable_check
    {α : Type}
    (x : Except AssertionFailed α) :
    Stable I (check x) := by
  intro s hInv
  apply (keeps_check (π := fun s => s) x).wp
  · rintro _ _ rfl
    exact hInv
  · rintro _ _ rfl
    exact hInv

theorem stable_setButtonLamp
    (d : BasicDriverInfo)
    (btn : Button)
    (value : Bool)
    (hLamp : ∀ s, I s → I (lampSet btn value s)) :
    Stable I (callDriver
      (Driver.setButtonLamp d btn value)) := by
  intro s hInv
  by_cases hRange : d.InRange btn.floor
  · rw [wp_callDriver_ok (Driver.setButtonLamp_eq hRange)]
    exact hLamp s hInv
  · have hError :
        ∃ msg, Driver.setButtonLamp d btn value s.driver =
          .error ⟨msg, .generall⟩ :=
      Driver.setButtonLamp_error hRange
    rcases hError with ⟨msg, hError⟩
    rw [wp_callDriver_error hError]
    exact hInv

theorem stable_setInside
    (d : BasicDriverInfo)
    (value : Bool)
    (floor : Int)
    (hInside : ∀ s buttons, I s →
      I { s with elevState.insideButtons := buttons }) :
    Stable I (setInside d value floor) := by
  unfold setInside
  apply Preserves.bind preserves_get
  intro s
  apply Preserves.bind (stable_check _)
  intro r
  exact preserves_modify fun s hInv => hInside s r.1 hInv

end Single

------------------------------------------------------------
-- Motion
------------------------------------------------------------

section Motion

variable {I : Loop → Prop}
variable (hI : MotionStable I)
variable (d : BasicDriverInfo)
variable (i : Inputs)

include hI

theorem stable_emitStateChange
    (type : ChangeType)
    (floor : Int)
    (now : MillisecondTime) :
    Stable I (emitStateChange type floor now) :=
  preserves_modify fun s => hI.report s type floor now

theorem stable_updateAndGetFloor
    (reading : Int) :
    Stable I (updateAndGetFloor reading) := by
  unfold updateAndGetFloor
  apply Preserves.bind
  · exact preserves_modify fun s => hI.floor s reading
  · exact fun _ => preserves_pure _

theorem stable_stopElevator :
    Stable I stopElevator :=
  preserves_modify hI.halt

theorem stable_startElevator
    (direction : Direction)
    (reading : Int) :
    Stable I (startElevator d direction reading) := by
  intro s hInv
  rw [wp_startElevator]
  exact hI.depart d direction reading s hInv

theorem stable_setFloorIndicator
    (floor : Int) :
    Stable I (callDriver
      (Driver.setFloorIndicator d floor)) := by
  intro s hInv
  by_cases hRange : d.InRange floor
  · rw [wp_callDriver_ok
      (Driver.setFloorIndicator_eq hRange)]
    exact hI.indicator s _ _ hInv
  · rcases Driver.setFloorIndicator_error (v := s.driver)
      hRange with ⟨msg, hError⟩
    rw [wp_callDriver_error hError]
    exact hInv

theorem stable_senseFloor :
    Stable I (senseFloor d i) := by
  unfold senseFloor safetyStops reportFloor
  apply Preserves.bind (stable_updateAndGetFloor hI _)
  intro currentFloor
  apply Preserves.bind
  · apply Preserves.bind preserves_get
    intro s
    apply Preserves.bind
    · exact preserves_when fun _ => stable_stopElevator hI
    · intro _
      apply Preserves.bind preserves_get
      intro t
      exact preserves_when fun _ => stable_stopElevator hI
  · intro _
    apply Preserves.bind
    · apply Preserves.bind
      · exact preserves_when fun _ =>
          stable_setFloorIndicator hI d currentFloor
      · intro _
        apply Preserves.bind preserves_get
        intro s
        exact preserves_when fun _ =>
          stable_emitStateChange hI _ _ _
    · exact fun _ => preserves_pure _

theorem stable_startForRequests :
    Stable I (startForRequests d i) := by
  unfold startForRequests
  apply Preserves.bind preserves_get
  intro s
  apply Preserves.bind (stable_check _)
  intro priority
  apply preserves_ite
  · exact stable_startElevator hI d _ _
  · exact stable_startElevator hI d _ _

theorem stable_stopPressed
    (hState : ∀ s state, I s → I { s with state := state }) :
    Stable I (stopPressed i) := by
  unfold stopPressed
  apply Preserves.bind (stable_stopElevator hI)
  intro _
  apply Preserves.bind
  · exact preserves_modify fun s => hState s .stopped
  · intro _
    apply Preserves.bind (stable_updateAndGetFloor hI _)
    exact fun _ => stable_emitStateChange hI _ _ _

theorem stable_resumePressed
    (hState : ∀ s state, I s → I { s with state := state }) :
    Stable I (resumePressed d i) := by
  unfold resumePressed
  apply Preserves.bind preserves_get
  intro s
  apply Preserves.bind (stable_startElevator hI d _ _)
  intro _
  apply Preserves.bind
  · exact preserves_modify fun s => hState s .normal
  · intro _
    apply Preserves.bind (stable_updateAndGetFloor hI _)
    exact fun _ => stable_emitStateChange hI _ _ _

theorem stable_handleStop
    (hStop : StopStable I) :
    Stable I (handleStop d i) := by
  unfold handleStop
  apply Preserves.bind
  · exact preserves_modify fun s => hStop.sample s _
  · intro _
    apply Preserves.bind preserves_get
    intro s
    apply preserves_when
    intro _
    apply Preserves.bind
    · exact preserves_modify fun s => hStop.toggle s _
    · intro _
      apply Preserves.bind preserves_get
      intro t
      apply preserves_ite
      · exact stable_stopPressed hI i hStop.state
      · exact stable_resumePressed hI d i hStop.state

theorem stable_finishCycle
    (hDoors : DoorStable I)
    (currentFloor : Int) :
    Stable I (finishCycle i currentFloor) := by
  unfold finishCycle
  apply Preserves.bind preserves_get
  intro s
  apply Preserves.bind
  · exact preserves_when fun _ =>
      stable_emitStateChange hI _ _ _
  · exact fun _ => preserves_modify fun s =>
      hDoors.finish s _

end Motion

------------------------------------------------------------
-- Panel
------------------------------------------------------------

section Panel

variable {I : Loop → Prop}
variable (hI : MotionStable I)
variable (hPanel : PanelStable I)
variable (d : BasicDriverInfo)
variable (i : Inputs)

include hI hPanel

omit hI in
theorem stable_setButtonLampAndFlag
    (btn : Button)
    (value : Bool) :
    Stable I (setButtonLampAndFlag d btn value) := by
  unfold setButtonLampAndFlag
  apply Preserves.bind (stable_setButtonLamp d btn value
    fun s => hPanel.lamp s btn value)
  intro _
  exact preserves_when fun _ =>
    stable_setInside d value btn.floor hPanel.inside

theorem stable_handleButtons :
    Stable I (handleButtons d i) := by
  unfold handleButtons
  apply preserves_forM
  intro b _
  unfold handleButton
  apply Preserves.bind (stable_check _)
  intro _
  apply preserves_when
  intro _
  apply Preserves.bind preserves_get
  intro s
  apply Preserves.bind (stable_check _)
  intro lit
  apply Preserves.bind
  · apply preserves_when
    intro _
    unfold newPress
    apply Preserves.bind
      (stable_setButtonLampAndFlag hPanel d b true)
    intro _
    apply Preserves.bind
    · exact preserves_when fun _ =>
        stable_setInside d true b.floor hPanel.inside
    · exact fun _ => stable_emitStateChange hI _ _ _
  · intro _
    apply preserves_when
    intro _
    unfold holdInside
    apply Preserves.bind preserves_get
    intro s
    apply Preserves.bind (stable_check _)
    exact fun r => preserves_modify fun s =>
      hPanel.held s r.1

theorem stable_pollButtons
    (hStop : StopStable I) :
    Stable I (pollButtons d i) := by
  unfold pollButtons assertConsistency
  apply Preserves.bind
  · exact preserves_modify hStop.begin
  · intro _
    apply Preserves.bind
    · apply Preserves.bind preserves_get
      intro s
      apply Preserves.bind (stable_check _)
      intro _
      apply Preserves.bind (stable_check _)
      intro _
      apply Preserves.bind (stable_check _)
      exact fun _ => stable_check _
    · intro _
      apply Preserves.bind
        (stable_handleButtons hI hPanel d i)
      exact fun _ => stable_handleStop hI d i hStop

theorem stable_serveFloor
    (hDoors : DoorStable I)
    (currentFloor : Int) :
    Stable I (serveFloor d i currentFloor) := by
  unfold serveFloor
  apply Preserves.bind
    (stable_setButtonLampAndFlag hPanel d _ false)
  intro _
  apply Preserves.bind
  · exact preserves_modify fun s => hDoors.opened s _
  · intro _
    apply Preserves.bind (stable_stopElevator hI)
    intro _
    apply Preserves.bind
      (stable_setInside d false _ hPanel.inside)
    exact fun _ => stable_emitStateChange hI _ _ _

end Panel

------------------------------------------------------------
-- Calls
------------------------------------------------------------

section Calls

variable {I : Loop → Prop}
variable (hI : CallStable I)
variable (d : BasicDriverInfo)
variable (i : Inputs)

include hI

theorem stable_setCall
    (x : CallDirection)
    (value : Bool)
    (floor : Int) :
    Stable I (setCall d x value floor) := by
  unfold setCall
  apply Preserves.bind preserves_get
  intro s
  apply Preserves.bind (stable_check _)
  intro r
  apply Preserves.bind
  · exact preserves_modify fun s => hI.calls x r.1 s
  · exact fun _ => preserves_pure _

theorem stable_setHallLamp
    (x : CallDirection)
    (floor : Int)
    (value : Bool) :
    Stable I (callDriver
      (Driver.setButtonLamp d ⟨x.button, floor⟩ value)) :=
  stable_setButtonLamp d _ value
    fun s => hI.hallLamp s x floor value

theorem stable_acceptCall
    (x : CallDirection)
    (floor : Int) :
    Stable I (acceptCall d i x floor) := by
  unfold acceptCall
  apply Preserves.bind (stable_setCall hI d x true floor)
  intro _
  apply Preserves.bind (stable_setHallLamp hI d x floor true)
  intro _
  exact stable_emitStateChange hI.toMotionStable _ floor _

theorem stable_executeCommand
    (command : Command) :
    Stable I (executeCommand d i command) := by
  unfold executeCommand
  cases command.commandType with
  | empty => exact preserves_pure _
  | callToFloorAndGoUp =>
      exact stable_acceptCall hI d i .up _
  | callToFloorAndGoDown =>
      exact stable_acceptCall hI d i .down _
  | turnOnLightUp => exact stable_setHallLamp hI d .up _ true
  | turnOffLightUp =>
      exact stable_setHallLamp hI d .up _ false
  | turnOnLightDown =>
      exact stable_setHallLamp hI d .down _ true
  | turnOffLightDown =>
      exact stable_setHallLamp hI d .down _ false

theorem stable_handleCommand :
    Stable I (handleCommand d i) := by
  unfold handleCommand
  cases i.tryDequeue with
  | none => exact preserves_pure _
  | some command =>
      apply Preserves.bind preserves_get
      intro s
      apply Preserves.bind (stable_check _)
      intro _
      exact stable_executeCommand hI d i command

/- Before the local state, an obstruction may leave any
driver behind. -/
theorem stable_approach
    (hPanel : PanelStable I)
    (hStop : StopStable I)
    (hDriver : ∀ s v, I s → I { s with driver := v }) :
    Stable I (approach d i) := by
  unfold approach pollCommands handleObstruction
  apply Preserves.bind (stable_pollButtons
    hI.toMotionStable hPanel d i hStop)
  intro _
  apply Preserves.bind
  · apply Preserves.bind
    · apply preserves_when
      intro _ s hInv
      rcases Driver.shutdown_ok (d := d) (v := s.driver)
        with ⟨v, hShutdown, _⟩
      rw [wp_callDriver_ok hShutdown]
      exact hDriver s v hInv
    · exact fun _ => stable_handleCommand hI d i
  · exact fun _ => stable_senseFloor hI.toMotionStable d i

theorem stable_clearDirectionButtonLamp
    (now : MillisecondTime) :
    Stable I (clearDirectionButtonLamp d now) := by
  unfold clearDirectionButtonLamp
  apply Preserves.bind preserves_get
  intro s
  cases directionButton d s.elevState with
  | none => exact preserves_pure _
  | some target =>
      apply Preserves.bind (stable_setCall hI d _ false _)
      intro wasSet
      apply Preserves.bind
      · exact preserves_when fun _ =>
          stable_emitStateChange hI.toMotionStable _ _ now
      · exact fun _ => stable_setHallLamp hI d _ _ false

theorem stable_depart
    (currentFloor : Int) :
    Stable I (depart d i currentFloor) := by
  unfold depart
  apply Preserves.bind preserves_get
  intro s
  apply Preserves.bind
  · apply preserves_when
    intro _
    apply Preserves.bind
      (stable_startForRequests hI.toMotionStable d i)
    exact fun _ =>
      stable_emitStateChange hI.toMotionStable _ _ _
  · exact fun _ => stable_clearDirectionButtonLamp hI d _

theorem stable_closeByTimeout
    (currentFloor : Int) :
    Stable I (closeByTimeout d i currentFloor) := by
  unfold closeByTimeout
  apply Preserves.bind (stable_setCall hI d .down false _)
  intro _
  apply Preserves.bind (stable_setCall hI d .up false _)
  intro _
  apply Preserves.bind (stable_setHallLamp hI d .up _ false)
  intro _
  apply Preserves.bind (stable_setHallLamp hI d .down _ false)
  intro _
  apply Preserves.bind
    (stable_emitStateChange hI.toMotionStable _ _ _)
  exact fun _ =>
    stable_emitStateChange hI.toMotionStable _ _ _

theorem stable_handleWaiting
    (hDoors : DoorStable I)
    (currentFloor : Int) :
    Stable I (handleWaiting d i currentFloor) := by
  unfold handleWaiting
  apply Preserves.bind preserves_get
  intro s
  apply preserves_when
  intro _
  apply Preserves.bind
  · exact preserves_modify hDoors.shut
  · intro _
    apply Preserves.bind
      (stable_emitStateChange hI.toMotionStable _ _ _)
    intro _
    apply preserves_ite
    · exact stable_closeByTimeout hI d i _
    · exact stable_clearDirectionButtonLamp hI d _

theorem stable_react
    (hPanel : PanelStable I)
    (hDoors : DoorStable I)
    (currentFloor : Int) :
    Stable I (react d i currentFloor) := by
  unfold react handleState
  apply Preserves.bind
  · apply Preserves.bind preserves_get
    intro s
    cases s.state with
    | normal =>
        unfold handleNormal
        apply Preserves.bind preserves_get
        intro s
        apply Preserves.bind (stable_check _)
        intro arrived
        apply preserves_ite
        · exact stable_serveFloor hI.toMotionStable hPanel d
            i hDoors _
        · exact preserves_when fun _ =>
            stable_depart hI d i _
    | waitingForInButton =>
        exact stable_handleWaiting hI d i hDoors _
    | stopped => exact preserves_pure _
  · exact fun _ =>
      stable_finishCycle hI.toMotionStable i hDoors _

end Calls

end Loop

end ElevatorControl
