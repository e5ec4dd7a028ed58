import ElevatorControl.Loop.Reports

/-
  The times of the changes an iteration reports.

  An iteration reads the clock where it reports a change, and
  once more at its end: when the last change is too old by
  then, the iteration reports that the elevator is alive.

  Key definitions include:
    * `Loop.StampStable`
    * `Loop.Stamped`

  Key theorems include:
    * `Loop.stable_loopBody_stamps`
    * `Loop.stamped_of_step`
    * `Loop.lastStateUpdate_of_loopBody`
-/

------------------------------------------------------------
-- Stable Predicates
------------------------------------------------------------

namespace ElevatorControl

namespace Loop

open Exec

/- The reported changes and the time of the last report. -/
def stamps
    (s : Loop) : List StateChange × MillisecondTime :=
  (s.outState, s.lastStateUpdate)

/- A predicate on what has been reported that is kept when a
change is reported with the time of one of the readings. -/
structure StampStable
    (i : Inputs)
    (I : Loop → Prop) : Prop where
  view : ∀ s t : Loop, t.stamps = s.stamps → I s → I t
  report : ∀ s type floor r, I s →
    I (emitted type floor (i.now r) s)

section Stable

variable {I : Loop → Prop}
variable {d : BasicDriverInfo}
variable {i : Inputs}
variable (hI : StampStable i I)

include hI

theorem stable_unreported
    {α : Type}
    {x : LoopM α}
    (hx : Keeps stamps x) :
    Stable I x :=
  hx.preserves (fun s t => hI.view s t) fun _ hInv => hInv

theorem stable_modify_stamps
    {g : Loop → Loop}
    (hg : ∀ s, (g s).stamps = s.stamps) :
    Stable I (modify g : LoopM Unit) :=
  stable_unreported hI (keeps_modify hg)

theorem stable_emit_stamps
    (type : ChangeType)
    (floor : Int)
    (r : ClockRead) :
    Stable I (emitStateChange type floor (i.now r)) :=
  preserves_modify fun s => hI.report s type floor r

theorem stable_callDriver_stamps
    (f : Driver → Except AssertionFailed Driver) :
    Stable I (callDriver f) :=
  stable_unreported hI (keeps_callDriver fun _ _ _ => rfl)

theorem stable_setInside_stamps
    (value : Bool)
    (floor : Int) :
    Stable I (setInside d value floor) :=
  stable_unreported hI
    (keeps_setInside (fun _ _ => rfl) d value floor)

theorem stable_lampAndFlag_stamps
    (btn : Button)
    (value : Bool) :
    Stable I (setButtonLampAndFlag d btn value) :=
  stable_unreported hI (keeps_setButtonLampAndFlag
    (fun _ _ => rfl) (fun _ _ => rfl) d btn value)

theorem stable_setCall_stamps
    (x : CallDirection)
    (value : Bool)
    (floor : Int) :
    Stable I (setCall d x value floor) := by
  unfold setCall
  apply Preserves.bind preserves_get
  intro s
  apply Preserves.bind (stable_check _)
  intro r
  apply Preserves.bind
  · apply stable_modify_stamps hI
    intro s
    cases x with
    | up => rfl
    | down => rfl
  · exact fun _ => preserves_pure _

theorem stable_start_stamps
    (direction : Direction)
    (reading : Int) :
    Stable I (startElevator d direction reading) := by
  apply stable_unreported hI
  intro s
  rw [wp_startElevator]
  rfl

theorem stable_read_stamps
    (reading : Int) :
    Stable I (updateAndGetFloor reading) := by
  unfold updateAndGetFloor
  apply Preserves.bind
  · exact stable_modify_stamps hI fun _ => rfl
  · exact fun _ => preserves_pure _

theorem stable_stop_stamps :
    Stable I stopElevator :=
  stable_modify_stamps hI fun _ => rfl

------------------------------------------------------------
-- Phases
------------------------------------------------------------

theorem stable_handleButtons_stamps :
    Stable I (handleButtons d i) := by
  unfold handleButtons
  apply preserves_forM
  intro b _
  unfold handleButton
  apply Preserves.bind (stable_check _)
  intro _
  apply preserves_when
  intro _
  apply Preserves.bind preserves_get
  intro s
  apply Preserves.bind (stable_check _)
  intro lit
  apply Preserves.bind
  · apply preserves_when
    intro _
    unfold newPress
    apply Preserves.bind (stable_lampAndFlag_stamps hI b true)
    intro _
    apply Preserves.bind
    · exact preserves_when fun _ =>
        stable_setInside_stamps hI true b.floor
    · exact fun _ => stable_emit_stamps hI _ _ (.press b)
  · intro _
    apply preserves_when
    intro _
    unfold holdInside
    apply Preserves.bind preserves_get
    intro s
    apply Preserves.bind (stable_check _)
    exact fun r => stable_modify_stamps hI fun _ => rfl

theorem stable_handleStop_stamps :
    Stable I (handleStop d i) := by
  unfold handleStop
  apply Preserves.bind
  · exact stable_modify_stamps hI fun _ => rfl
  · intro _
    apply Preserves.bind preserves_get
    intro s
    apply preserves_when
    intro _
    apply Preserves.bind
    · exact stable_modify_stamps hI fun _ => rfl
    · intro _
      apply Preserves.bind preserves_get
      intro t
      apply preserves_ite
      · unfold stopPressed
        apply Preserves.bind (stable_stop_stamps hI)
        intro _
        apply Preserves.bind
        · exact stable_modify_stamps hI fun _ => rfl
        · intro _
          apply Preserves.bind (stable_read_stamps hI _)
          exact fun _ =>
            stable_emit_stamps hI _ _ .stopButton
      · unfold resumePressed
        apply Preserves.bind preserves_get
        intro u
        apply Preserves.bind (stable_start_stamps hI _ _)
        intro _
        apply Preserves.bind
        · exact stable_modify_stamps hI fun _ => rfl
        · intro _
          apply Preserves.bind (stable_read_stamps hI _)
          exact fun _ =>
            stable_emit_stamps hI _ _ .stopButton

theorem stable_pollButtons_stamps :
    Stable I (pollButtons d i) := by
  unfold pollButtons
  apply Preserves.bind
  · exact stable_modify_stamps hI fun _ => rfl
  · intro _
    apply Preserves.bind stable_assertConsistency
    intro _
    apply Preserves.bind (stable_handleButtons_stamps hI)
    exact fun _ => stable_handleStop_stamps hI

theorem stable_acceptCall_stamps
    (x : CallDirection)
    (floor : Int) :
    Stable I (acceptCall d i x floor) := by
  unfold acceptCall
  apply Preserves.bind (stable_setCall_stamps hI x true floor)
  intro _
  apply Preserves.bind (stable_callDriver_stamps hI _)
  exact fun _ => stable_emit_stamps hI _ _ .command

theorem stable_handleCommand_stamps :
    Stable I (handleCommand d i) := by
  unfold handleCommand
  cases i.tryDequeue with
  | none => exact preserves_pure _
  | some command =>
      apply Preserves.bind preserves_get
      intro s
      apply Preserves.bind (stable_check _)
      intro _
      unfold executeCommand
      cases command.commandType with
      | empty => exact preserves_pure _
      | callToFloorAndGoUp =>
          exact stable_acceptCall_stamps hI .up _
      | callToFloorAndGoDown =>
          exact stable_acceptCall_stamps hI .down _
      | turnOnLightUp => exact stable_callDriver_stamps hI _
      | turnOffLightUp => exact stable_callDriver_stamps hI _
      | turnOnLightDown => exact stable_callDriver_stamps hI _
      | turnOffLightDown =>
          exact stable_callDriver_stamps hI _

theorem stable_senseFloor_stamps :
    Stable I (senseFloor d i) := by
  unfold senseFloor
  apply Preserves.bind (stable_read_stamps hI _)
  intro currentFloor
  apply Preserves.bind
  · unfold safetyStops
    apply Preserves.bind preserves_get
    intro s
    apply Preserves.bind
    · exact preserves_when fun _ => stable_stop_stamps hI
    · intro _
      apply Preserves.bind preserves_get
      intro t
      exact preserves_when fun _ => stable_stop_stamps hI
  · intro _
    apply Preserves.bind
    · unfold reportFloor
      apply Preserves.bind
      · exact preserves_when fun _ =>
          stable_callDriver_stamps hI _
      · intro _
        apply Preserves.bind preserves_get
        intro s
        exact preserves_when fun _ =>
          stable_emit_stamps hI _ _ .floorChange
    · exact fun _ => preserves_pure _

theorem stable_approach_stamps :
    Stable I (approach d i) := by
  unfold approach pollCommands handleObstruction
  apply Preserves.bind (stable_pollButtons_stamps hI)
  intro _
  apply Preserves.bind
  · apply Preserves.bind
    · exact preserves_when fun _ =>
        stable_callDriver_stamps hI _
    · exact fun _ => stable_handleCommand_stamps hI
  · exact fun _ => stable_senseFloor_stamps hI

theorem stable_serveFloor_stamps
    (currentFloor : Int) :
    Stable I (serveFloor d i currentFloor) := by
  unfold serveFloor
  apply Preserves.bind (stable_lampAndFlag_stamps hI _ false)
  intro _
  apply Preserves.bind
  · exact stable_modify_stamps hI fun _ => rfl
  · intro _
    apply Preserves.bind (stable_stop_stamps hI)
    intro _
    apply Preserves.bind (stable_setInside_stamps hI false _)
    exact fun _ => stable_emit_stamps hI _ _ .served

theorem stable_clearDirection_stamps :
    Stable I (clearDirectionButtonLamp d
      (i.now .directionServed)) := by
  unfold clearDirectionButtonLamp
  apply Preserves.bind preserves_get
  intro s
  cases directionButton d s.elevState with
  | none => exact preserves_pure _
  | some target =>
      apply Preserves.bind (stable_setCall_stamps hI _ false _)
      intro wasSet
      apply Preserves.bind
      · exact preserves_when fun _ =>
          stable_emit_stamps hI _ _ .directionServed
      · exact fun _ => stable_callDriver_stamps hI _

theorem stable_depart_stamps
    (currentFloor : Int) :
    Stable I (depart d i currentFloor) := by
  unfold depart
  apply Preserves.bind preserves_get
  intro s
  apply Preserves.bind
  · apply preserves_when
    intro _
    apply Preserves.bind
    · unfold startForRequests
      apply Preserves.bind preserves_get
      intro t
      apply Preserves.bind (stable_check _)
      intro priority
      apply preserves_ite
      · exact stable_start_stamps hI _ _
      · exact stable_start_stamps hI _ _
    · exact fun _ => stable_emit_stamps hI _ _ .departed
  · exact fun _ => stable_clearDirection_stamps hI

theorem stable_handleWaiting_stamps
    (currentFloor : Int) :
    Stable I (handleWaiting d i currentFloor) := by
  unfold handleWaiting
  apply Preserves.bind preserves_get
  intro s
  apply preserves_when
  intro _
  apply Preserves.bind
  · exact stable_modify_stamps hI fun _ => rfl
  · intro _
    apply Preserves.bind
      (stable_emit_stamps hI _ _ .doorClosed)
    intro _
    apply preserves_ite
    · unfold closeByTimeout
      apply Preserves.bind
        (stable_setCall_stamps hI .down false _)
      intro _
      apply Preserves.bind
        (stable_setCall_stamps hI .up false _)
      intro _
      apply Preserves.bind (stable_callDriver_stamps hI _)
      intro _
      apply Preserves.bind (stable_callDriver_stamps hI _)
      intro _
      apply Preserves.bind
        (stable_emit_stamps hI _ _ .timeoutServedUp)
      exact fun _ =>
        stable_emit_stamps hI _ _ .timeoutServedDown
    · exact stable_clearDirection_stamps hI

theorem stable_react_stamps
    (currentFloor : Int) :
    Stable I (react d i currentFloor) := by
  unfold react handleState
  apply Preserves.bind
  · apply Preserves.bind preserves_get
    intro s
    cases s.state with
    | normal =>
        unfold handleNormal
        apply Preserves.bind preserves_get
        intro t
        apply Preserves.bind (stable_check _)
        intro arrived
        apply preserves_ite
        · exact stable_serveFloor_stamps hI _
        · exact preserves_when fun _ =>
            stable_depart_stamps hI _
    | waitingForInButton =>
        exact stable_handleWaiting_stamps hI _
    | stopped => exact preserves_pure _
  · intro _
    unfold finishCycle
    apply Preserves.bind preserves_get
    intro s
    apply Preserves.bind
    · exact preserves_when fun _ =>
        stable_emit_stamps hI _ _ .keepAlive
    · exact fun _ => stable_modify_stamps hI fun _ => rfl

/- An iteration keeps what its reports keep, whether it
completes or not. -/
theorem stable_loopBody_stamps :
    Stable I (loopBody d i) := by
  unfold loopBody
  apply Preserves.bind (stable_approach_stamps hI)
  exact fun _ => stable_react_stamps hI _

end Stable

------------------------------------------------------------
-- Stamps
------------------------------------------------------------

/- What has been reported since the queue was `old` has been
stamped between the two times, and the last report is the
last change. -/
structure Stamped
    (lo hi last : MillisecondTime)
    (old : List StateChange)
    (s : Loop) : Prop where
  grows : old <+: s.outState
  within : ∀ c ∈ fresh old s,
    lo ≤ c.state.timestamp ∧ c.state.timestamp ≤ hi
  latest : s.lastStateUpdate =
    ((fresh old s).getLast?.map
      fun c => c.state.timestamp).getD last

section Stamps

variable {d : BasicDriverInfo}
variable {i : Inputs}
variable {lo hi last : MillisecondTime}
variable {old : List StateChange}
variable {s t : Loop}

theorem Stamped.congr
    (hSame : t.stamps = s.stamps)
    (hStamped : Stamped lo hi last old s) :
    Stamped lo hi last old t := by
  rcases Prod.mk.inj hSame with ⟨hOut, hLast⟩
  have hFresh : fresh old t = fresh old s := by
    unfold fresh
    rw [hOut]
  refine ⟨?_, ?_, ?_⟩
  · rw [hOut]
    exact hStamped.grows
  · rw [hFresh]
    exact hStamped.within
  · rw [hLast, hFresh]
    exact hStamped.latest

/- Between two iterations nothing has been reported. -/
theorem stamped_self
    (lo hi : MillisecondTime)
    (s : Loop) :
    Stamped lo hi s.lastStateUpdate s.outState s := by
  have hNone : fresh s.outState s = [] := List.drop_length
  refine ⟨List.prefix_refl _, ?_, ?_⟩
  · rw [hNone]
    exact fun c hc => absurd hc List.not_mem_nil
  · rw [hNone]
    rfl

theorem stampStable_stamped
    (hNow : ∀ r, lo ≤ i.now r ∧ i.now r ≤ hi) :
    StampStable i (Stamped lo hi last old) where
  view _ _ := Stamped.congr
  report s type floor r hStamped := by
    have hFresh :=
      fresh_emitted type floor (i.now r) hStamped.grows
    refine ⟨hStamped.grows.trans (List.prefix_append _ _),
      ?_, ?_⟩
    · rw [hFresh]
      intro c hc
      rcases List.mem_append.mp hc with hOld | hNew
      · exact hStamped.within c hOld
      · rw [List.mem_singleton.mp hNew]
        exact hNow r
    · rw [hFresh, List.getLast?_concat]
      rfl

/- Entering the loop reports nothing. -/
theorem keeps_stamps_enter :
    Keeps stamps (enter d) := by
  unfold enter
  apply Keeps.bind
  · exact keeps_modify fun _ => rfl
  · intro _
    apply Keeps.bind
    · exact keeps_initializeElevator (fun _ _ => rfl)
        (fun _ _ => rfl) (fun _ _ => rfl) (fun _ _ => rfl) d
    · intro _
      apply Keeps.bind keeps_get
      intro s
      exact keeps_when fun _ => keeps_modify fun _ => rfl

/- One step of the loop, with a restart or without. -/
theorem stamped_of_step
    (hNow : ∀ r, lo ≤ i.now r ∧ i.now r ≤ hi)
    (hStep : Step d i s t) :
    Stamped lo hi s.lastStateUpdate s.outState t := by
  have hBody := stable_loopBody_stamps (d := d)
    (stampStable_stamped hNow) s (stamped_self lo hi s)
  cases hStep with
  | iterate hRun =>
      have hOk := wp_ok hBody hRun
      exact hOk
  | restart e u hRun hTag hEnter =>
      have hError := wp_error hBody hRun
      have hEntered := wp_ok (keeps_stamps_enter (halted u))
        hEnter
      have hSame : t.stamps = u.stamps := hEntered
      exact hError.congr hSame

/- At the end of an iteration that completes the last change
is not too old. -/
theorem lastStateUpdate_of_loopBody
    (hNow : ∀ r, lo ≤ i.now r)
    (hRun : loopBody d i s = .ok () t) :
    lo < t.lastStateUpdate + keepAlive := by
  have hFinish : ∀ (currentFloor : Int) (s : Loop),
      wp (finishCycle i currentFloor)
        (fun _ s' => lo < s'.lastStateUpdate + keepAlive)
        (fun _ _ => True) s := by
    intro currentFloor s
    have hArith : ∀ a b : Int,
        (a ≤ b → a < b + 500) := by
      omega
    have hTest := hNow .keepAliveTest
    have hSent := hNow .keepAlive
    unfold finishCycle emitStateChange
    simp only [wp_bind, wp_get, wp_when, wp_modify]
    split
    · exact hArith _ _ hSent
    · next hRecent =>
        exact Int.lt_of_le_of_lt hTest (Int.not_le.mp hRecent)
  have hWp : wp (loopBody d i)
      (fun _ s' => lo < s'.lastStateUpdate + keepAlive)
      (fun _ _ => True) s := by
    unfold loopBody react
    apply wp_bind_of_forall
    · intro currentFloor s'
      apply wp_bind_of_forall
      · exact fun _ s' => hFinish currentFloor s'
      · exact fun _ _ => trivial
    · exact fun _ _ => trivial
  have hOk := wp_ok hWp hRun
  exact hOk

end Stamps

end Loop

end ElevatorControl
