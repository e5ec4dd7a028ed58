import ElevatorControl.Loop.Frames
import ElevatorControl.Loop.Motion

/-
  What the phases of an iteration do to the accepted hall
  calls of a shaft.

  Calls are set by commands only. They are cleared in two
  places: when the doors have been open for too long, and by
  `_clearDirectionButtonLamp`, which the loop reaches when it
  leaves a floor and when a new inside press shuts the doors.

  Key definitions include:
    * `Loop.called`
    * `Inputs.accepts`
    * `Loop.Leaves`

  Key theorems include:
    * `Loop.wp_approach_calls`
    * `Loop.wp_react_calls`
-/

------------------------------------------------------------
-- Accepted Calls
------------------------------------------------------------

namespace ElevatorControl

/- The iteration dequeues a call for floor `f` in direction
`x`. -/
def Inputs.accepts
    (i : Inputs)
    (x : CallDirection)
    (f : Int) : Bool :=
  match i.tryDequeue with
  | none => false
  | some c =>
      decide (c.commandType = x.call ∧ c.targetFloor = f)

namespace Loop

open Exec Car

/- The elevator has accepted the call and not cleared it. -/
def called
    (d : BasicDriverInfo)
    (x : CallDirection)
    (f : Int)
    (s : Loop) : Bool :=
  (s.elevState.calls x).mem f d

/- The hall calls as one projection of the state. -/
def allCalls
    (s : Loop) : CallDirection → FloorSet :=
  s.elevState.calls

section Frames

variable {d : BasicDriverInfo}
variable {i : Inputs}
variable {s s' : Loop}

theorem called_congr
    (hCalls : s'.allCalls = s.allCalls)
    (x : CallDirection)
    (f : Int) :
    called d x f s' = called d x f s := by
  unfold called
  exact congrArg (fun calls => (calls x).mem f d) hCalls

@[simp] theorem allCalls_floorUpdated
    {reading : Int} :
    (floorUpdated reading s).allCalls = s.allCalls := by
  funext x
  cases x with
  | up => rfl
  | down => rfl

@[simp] theorem allCalls_halted :
    (halted s).allCalls = s.allCalls := by
  funext x
  cases x with
  | up => rfl
  | down => rfl

@[simp] theorem allCalls_departed
    {direction : Direction}
    {reading : Int} :
    (departed d direction reading s).allCalls =
      s.allCalls := by
  funext x
  exact calls_departed x

@[simp] theorem allCalls_emitted
    {type : ChangeType}
    {floor : Int}
    {now : MillisecondTime} :
    (emitted type floor now s).allCalls = s.allCalls :=
  rfl

@[simp] theorem elevState_emitted
    {type : ChangeType}
    {floor : Int}
    {now : MillisecondTime} :
    (emitted type floor now s).elevState = s.elevState :=
  rfl

theorem allCalls_withInside
    {buttons : FloorSet} :
    ({ s with elevState.insideButtons := buttons } :
      Loop).allCalls = s.allCalls := by
  funext x
  cases x with
  | up => rfl
  | down => rfl

theorem motionStable_allCalls
    (v : CallDirection → FloorSet) :
    MotionStable (fun s => s.allCalls = v) where
  report _ _ _ _ hCalls := hCalls
  floor _ _ hCalls := allCalls_floorUpdated.trans hCalls
  halt _ hCalls := allCalls_halted.trans hCalls
  depart _ _ _ _ hCalls := allCalls_departed.trans hCalls
  indicator _ _ _ hCalls := hCalls

theorem panelStable_allCalls
    (v : CallDirection → FloorSet) :
    PanelStable (fun s => s.allCalls = v) where
  lamp _ _ _ hCalls := hCalls
  inside _ _ hCalls := allCalls_withInside.trans hCalls
  held _ _ hCalls := hCalls

theorem allCalls_opened
    {now : MillisecondTime} :
    ({ s with
      driver := s.driver.setDoorOpenLamp true
      elevState.doorOpen := true
      state := .waitingForInButton
      doorWaitingStarted := now } : Loop).allCalls =
      s.allCalls := by
  funext x
  cases x with
  | up => rfl
  | down => rfl

theorem allCalls_doorShut :
    (doorShut s).allCalls = s.allCalls := by
  funext x
  cases x with
  | up => rfl
  | down => rfl

theorem allCalls_toggled
    {value : Bool} :
    ({ s with
      elevState.stopped := value
      driver := s.driver.setStopLamp value } :
        Loop).allCalls = s.allCalls := by
  funext x
  cases x with
  | up => rfl
  | down => rfl

theorem doorStable_allCalls
    (v : CallDirection → FloorSet) :
    DoorStable (fun s => s.allCalls = v) where
  opened _ _ hCalls := allCalls_opened.trans hCalls
  shut _ hCalls := allCalls_doorShut.trans hCalls
  finish _ _ hCalls := hCalls

theorem stopStable_allCalls
    (v : CallDirection → FloorSet) :
    StopStable (fun s => s.allCalls = v) where
  begin _ hCalls := hCalls
  sample _ _ hCalls := hCalls
  toggle _ _ hCalls := allCalls_toggled.trans hCalls
  state _ _ hCalls := hCalls

theorem keeps_allCalls_pollButtons :
    Keeps allCalls (pollButtons d i) :=
  Keeps.of_preserves fun v =>
    stable_pollButtons (motionStable_allCalls v)
      (panelStable_allCalls v) d i (stopStable_allCalls v)

theorem keeps_allCalls_senseFloor :
    Keeps allCalls (senseFloor d i) :=
  Keeps.of_preserves fun v =>
    stable_senseFloor (motionStable_allCalls v) d i

theorem keeps_allCalls_serveFloor
    (currentFloor : Int) :
    Keeps allCalls (serveFloor d i currentFloor) :=
  Keeps.of_preserves fun v =>
    stable_serveFloor (motionStable_allCalls v)
      (panelStable_allCalls v) d i (doorStable_allCalls v)
      currentFloor

theorem keeps_allCalls_setButtonLamp
    (btn : Button)
    (state : Bool) :
    Keeps allCalls (callDriver
      (Driver.setButtonLamp d btn state)) :=
  keeps_setButtonLamp (fun _ _ => rfl) d btn state

theorem keeps_allCalls_emitStateChange
    (type : ChangeType)
    (floor : Int)
    (now : MillisecondTime) :
    Keeps allCalls (emitStateChange type floor now) :=
  keeps_modify fun _ => rfl

theorem keeps_allCalls_handleObstruction :
    Keeps allCalls (handleObstruction d i) := by
  unfold handleObstruction
  apply keeps_when
  intro _
  exact keeps_callDriver fun _ _ _ => rfl

end Frames

------------------------------------------------------------
-- Setting and Clearing Calls
------------------------------------------------------------

section Calls

variable {S : Shaft}
variable {i : Inputs}
variable {x y : CallDirection}
variable {f g : Int}
variable {s : Loop}

theorem wp_setCall
    {d : BasicDriverInfo}
    {Q : Bool → Loop → Prop}
    {E : AssertionFailed → Loop → Prop}
    {value : Bool}
    (hRange : d.InRange f) :
    wp (setCall d x value f) Q E s ↔
      Q (called d x f s) (withCalls x
        (if value then (s.elevState.calls x).insert f d
          else (s.elevState.calls x).erase f d) s) := by
  simp only [setCall, wp_bind, wp_get,
    FloorSet.set_eq hRange, wp_check_ok, wp_modify, wp_pure,
    called]

theorem wp_setCall_error
    {d : BasicDriverInfo}
    {Q : Bool → Loop → Prop}
    {E : AssertionFailed → Loop → Prop}
    {value : Bool}
    (hRange : ¬ d.InRange f)
    (hE : ∀ e, E e s) :
    wp (setCall d x value f) Q E s := by
  have hError :
      ∃ msg, (s.elevState.calls x).set value f d =
        .error ⟨msg, .generall⟩ :=
    FloorSet.set_error hRange
  rcases hError with ⟨msg, hError⟩
  simp only [setCall, wp_bind, wp_get, hError,
    wp_check_error]
  exact hE _

theorem calls_withCalls
    (calls : FloorSet) :
    (withCalls x calls s).elevState.calls y =
      if y = x then calls else s.elevState.calls y := by
  cases x <;> cases y <;> rfl

/- Accepting a call adds it and no other. -/
theorem called_insert
    (hf : S.InRange f)
    (hg : S.InRange g) :
    called S.toBasicDriverInfo y g (withCalls x
      ((s.elevState.calls x).insert f
        S.toBasicDriverInfo) s) =
      (called S.toBasicDriverInfo y g s ||
        decide (y = x ∧ g = f)) := by
  unfold called
  rw [calls_withCalls]
  by_cases hx : y = x
  · subst hx
    simp [FloorSet.mem_insert S hf hg]
  · simp [hx]

/- Clearing a call removes it and no other. -/
theorem called_erase
    (hf : S.InRange f)
    (hg : S.InRange g) :
    called S.toBasicDriverInfo y g (withCalls x
      ((s.elevState.calls x).erase f
        S.toBasicDriverInfo) s) =
      (called S.toBasicDriverInfo y g s &&
        decide (¬ (y = x ∧ g = f))) := by
  unfold called
  rw [calls_withCalls]
  by_cases hx : y = x
  · subst hx
    simp [FloorSet.mem_erase S hf hg]
  · simp [hx]

/- A call that is pending is a request. -/
theorem hasAny_of_called
    {d : BasicDriverInfo}
    (hCalled : called d x f s = true) :
    (allButtons s.elevState).hasAny = true := by
  apply FloorSet.hasAny_of_mem (f := f) (d := d)
  cases x with
  | up =>
      have hMem : s.elevState.upButtons.mem f d = true :=
        hCalled
      simp [allButtons, hMem]
  | down =>
      have hMem : s.elevState.downButtons.mem f d = true :=
        hCalled
      simp [allButtons, hMem]

------------------------------------------------------------
-- Before the Local State
------------------------------------------------------------

/- Every call is pending that was pending or is accepted. -/
def Accepted
    (d : BasicDriverInfo)
    (accepts : CallDirection → Int → Bool)
    (s s' : Loop) : Prop :=
  ∀ x f, d.InRange f →
    called d x f s' = (called d x f s || accepts x f)

/- No call is cleared. -/
def NoneCleared
    (d : BasicDriverInfo)
    (s s' : Loop) : Prop :=
  ∀ x f, d.InRange f → called d x f s = true →
    called d x f s' = true

theorem NoneCleared.of_allCalls
    {d : BasicDriverInfo}
    {s' : Loop}
    (hCalls : s'.allCalls = s.allCalls) :
    NoneCleared d s s' := by
  intro x f _ hCalled
  rw [called_congr hCalls]
  exact hCalled

theorem NoneCleared.of_accepted
    {d : BasicDriverInfo}
    {accepts : CallDirection → Int → Bool}
    {s' : Loop}
    (hAccepted : Accepted d accepts s s') :
    NoneCleared d s s' := by
  intro x f hf hCalled
  rw [hAccepted x f hf, hCalled]
  rfl

theorem wp_acceptCall_calls
    (y : CallDirection)
    (g : Int)
    (s : Loop) :
    wp (acceptCall S.toBasicDriverInfo i y g)
      (fun _ s' => Accepted S.toBasicDriverInfo
        (fun x f => decide (x = y ∧ f = g)) s s')
      (fun _ s' => NoneCleared S.toBasicDriverInfo s s')
      s := by
  unfold acceptCall
  rw [wp_bind]
  by_cases hg : S.InRange g
  · rw [wp_setCall hg]
    have hLamp :
        Keeps allCalls (do
          callDriver (Driver.setButtonLamp
            S.toBasicDriverInfo ⟨y.button, g⟩ true)
          emitStateChange y.goingToServe g
            (i.now .command)) := by
      apply Keeps.bind (keeps_allCalls_setButtonLamp _ true)
      exact fun _ => keeps_allCalls_emitStateChange _ _ _
    have hAccepted :
        ∀ s' : Loop,
          s'.allCalls = (withCalls y
            ((s.elevState.calls y).insert g
              S.toBasicDriverInfo) s).allCalls →
          Accepted S.toBasicDriverInfo
            (fun x f => decide (x = y ∧ f = g)) s s' := by
      intro s' hCalls x f hf
      rw [called_congr hCalls]
      exact called_insert hg hf
    apply hLamp.wp
    · exact fun _ s' hCalls => hAccepted s' hCalls
    · exact fun _ s' hCalls =>
        NoneCleared.of_accepted (hAccepted s' hCalls)
  · apply wp_setCall_error hg
    exact fun _ => NoneCleared.of_allCalls rfl

/- A command for a lamp accepts no call. -/
theorem wp_lampCommand_calls
    {btn : Button}
    {state : Bool}
    {accepts : CallDirection → Int → Bool}
    (hNone : ∀ x f, accepts x f = false)
    (s : Loop) :
    wp (callDriver (Driver.setButtonLamp
        S.toBasicDriverInfo btn state))
      (fun _ s' =>
        Accepted S.toBasicDriverInfo accepts s s')
      (fun _ s' => NoneCleared S.toBasicDriverInfo s s')
      s := by
  apply (keeps_allCalls_setButtonLamp btn state).wp
  · intro _ s' hCalls x f _
    rw [called_congr hCalls, hNone]
    simp
  · exact fun _ s' hCalls => NoneCleared.of_allCalls hCalls

theorem wp_handleCommand_calls
    (s : Loop) :
    wp (handleCommand S.toBasicDriverInfo i)
      (fun _ s' =>
        Accepted S.toBasicDriverInfo i.accepts s s')
      (fun _ s' => NoneCleared S.toBasicDriverInfo s s')
      s := by
  unfold handleCommand
  cases hCommand : i.tryDequeue with
  | none =>
      intro x f _
      simp [Inputs.accepts, hCommand]
  | some c =>
      rcases c with ⟨type, id, g⟩
      have hAccepts :
          i.accepts =
            fun x f => decide (type = x.call ∧ g = f) := by
        funext x f
        simp [Inputs.accepts, hCommand]
      rw [hAccepts]
      simp only [wp_bind, wp_get]
      have hCheck : Keeps (fun s : Loop => s)
          (check (assert
            (id = s.elevState.id ∨ id = Command.anyId)
            "command to other elevator")) :=
        keeps_check _
      apply hCheck.wp
      · intro _ s₁ hSame
        subst hSame
        unfold executeCommand
        cases type with
        | empty =>
            intro x f _
            cases x <;> simp [CallDirection.call]
        | callToFloorAndGoUp =>
            apply wp_mono _ (fun _ _ hE => hE)
              (wp_acceptCall_calls .up g s₁)
            intro _ s₂ hAccepted x f hf
            rw [hAccepted x f hf]
            cases x <;>
              simp [CallDirection.call, eq_comm]
        | callToFloorAndGoDown =>
            apply wp_mono _ (fun _ _ hE => hE)
              (wp_acceptCall_calls .down g s₁)
            intro _ s₂ hAccepted x f hf
            rw [hAccepted x f hf]
            cases x <;>
              simp [CallDirection.call, eq_comm]
        | turnOnLightUp =>
            apply wp_lampCommand_calls
            intro x f
            cases x <;> simp [CallDirection.call]
        | turnOffLightUp =>
            apply wp_lampCommand_calls
            intro x f
            cases x <;> simp [CallDirection.call]
        | turnOnLightDown =>
            apply wp_lampCommand_calls
            intro x f
            cases x <;> simp [CallDirection.call]
        | turnOffLightDown =>
            apply wp_lampCommand_calls
            intro x f
            cases x <;> simp [CallDirection.call]
      · intro _ s₁ hSame
        subst hSame
        exact NoneCleared.of_allCalls rfl

/- Before the local state, only commands touch the calls. -/
theorem wp_approach_calls
    (s : Loop) :
    wp (approach S.toBasicDriverInfo i)
      (fun _ s' =>
        Accepted S.toBasicDriverInfo i.accepts s s')
      (fun _ s' => NoneCleared S.toBasicDriverInfo s s')
      s := by
  unfold approach pollCommands
  simp only [wp_bind]
  apply keeps_allCalls_pollButtons.wp
  · intro _ s₁ hCalls₁
    apply keeps_allCalls_handleObstruction.wp
    · intro _ s₂ hCalls₂
      have hCalls : s₂.allCalls = s.allCalls :=
        hCalls₂.trans hCalls₁
      apply wp_mono _ _ (wp_handleCommand_calls s₂)
      · intro _ s₃ hAccepted
        have hFrom :
            Accepted S.toBasicDriverInfo i.accepts s
              s₃ := by
          intro x f hf
          rw [hAccepted x f hf, called_congr hCalls]
        apply keeps_allCalls_senseFloor.wp
        · intro _ s₄ hCalls₄ x f hf
          rw [called_congr hCalls₄]
          exact hFrom x f hf
        · intro _ s₄ hCalls₄ x f hf hCalled
          rw [called_congr hCalls₄]
          exact NoneCleared.of_accepted hFrom x f hf hCalled
      · intro _ s₃ hKept x f hf hCalled
        apply hKept x f hf
        rw [called_congr hCalls]
        exact hCalled
    · exact fun _ s₂ hCalls₂ =>
        NoneCleared.of_allCalls (hCalls₂.trans hCalls₁)
  · exact fun _ s₁ hCalls₁ =>
      NoneCleared.of_allCalls hCalls₁

------------------------------------------------------------
-- Leaving a Caller
------------------------------------------------------------

/- The state in which a car without direction departs. -/
def departing
    (d : BasicDriverInfo)
    (i : Inputs)
    (priority : Bool)
    (s : Loop) : Loop :=
  departed d (if priority then s.previousDirection else .none)
    (i.getFloor .depart) s

/-
  The local state makes the loop clear the call `(x, f)`
  through `_clearDirectionButtonLamp`: either the car stands
  still with closed doors, has no reason to stop where it is
  and departs, or a new inside press shuts the doors.
-/
inductive Leaves
    (d : BasicDriverInfo)
    (i : Inputs)
    (s : Loop)
    (x : CallDirection)
    (f : Int) : Prop where
  | departs
      (priority : Bool)
      (hState : s.state = .normal)
      (hArrives :
        arrives d s.elevState (i.getFloor .loop) =
          .ok false)
      (hDirection : s.elevState.direction = .none)
      (hRequests : (allButtons s.elevState).hasAny = true)
      (hPriority :
        priorityFloorsInDirection d s.elevState
          s.previousDirection = .ok priority)
      (hButton :
        directionButton d
          (departing d i priority s).elevState =
            some (x, f))
  | shuts
      (hState : s.state = .waitingForInButton)
      (hPress :
        FloorSet.hasAdditional s.inFloorButtonsLast
          s.inFloorButtons = true)
      (hTimeout : doorTimeout i s = false)
      (hButton :
        directionButton d s.elevState = some (x, f))

/- The car stands at `f` with its doors open. -/
def WaitsAt
    (i : Inputs)
    (s : Loop)
    (f : Int) : Prop :=
  s.state = .waitingForInButton ∧ i.getFloor .loop = f

/-
  Calls are cleared where the car waits and where it leaves;
  where it leaves they are always cleared.
-/
structure Cleared
    (d : BasicDriverInfo)
    (i : Inputs)
    (s s' : Loop) : Prop where
  kept : ∀ x f, d.InRange f → called d x f s = true →
    ¬ WaitsAt i s f → ¬ Leaves d i s x f →
      called d x f s' = true
  left : ∀ x f, d.InRange f → Leaves d i s x f →
    called d x f s' = false

/- A failed assertion leaves nobody. -/
structure NoneLeft
    (d : BasicDriverInfo)
    (i : Inputs)
    (s s' : Loop) : Prop where
  kept : NoneCleared d s s'
  left : ∀ x f, d.InRange f → ¬ Leaves d i s x f

theorem Cleared.of_allCalls
    {d : BasicDriverInfo}
    {s' : Loop}
    (hCalls : s'.allCalls = s.allCalls)
    (hLeft : ∀ x f, ¬ Leaves d i s x f) :
    Cleared d i s s' where
  kept x f hf hCalled _ _ :=
    NoneCleared.of_allCalls hCalls x f hf hCalled
  left x f _ hLeaves := absurd hLeaves (hLeft x f)

theorem NoneLeft.of_allCalls
    {d : BasicDriverInfo}
    {s' : Loop}
    (hCalls : s'.allCalls = s.allCalls)
    (hLeft : ∀ x f, ¬ Leaves d i s x f) :
    NoneLeft d i s s' where
  kept := NoneCleared.of_allCalls hCalls
  left x f _ := hLeft x f

/- The direction button is the only call that is cleared. -/
theorem wp_clearDirectionButtonLamp_calls
    (now : MillisecondTime)
    (s : Loop) :
    wp (clearDirectionButtonLamp S.toBasicDriverInfo now)
      (fun _ s' => ∀ x f, S.InRange f →
        (directionButton S.toBasicDriverInfo
            s.elevState ≠ some (x, f) →
          called S.toBasicDriverInfo x f s' =
            called S.toBasicDriverInfo x f s) ∧
        (directionButton S.toBasicDriverInfo
            s.elevState = some (x, f) →
          called S.toBasicDriverInfo x f s' = false))
      (fun _ s' => s'.allCalls = s.allCalls ∧
        ∀ x f, S.InRange f →
          directionButton S.toBasicDriverInfo
            s.elevState ≠ some (x, f))
      s := by
  unfold clearDirectionButtonLamp
  simp only [wp_bind, wp_get]
  cases hButton : directionButton S.toBasicDriverInfo
      s.elevState with
  | none => simp
  | some target =>
      rcases target with ⟨y, g⟩
      simp only [wp_bind]
      by_cases hg : S.InRange g
      · rw [wp_setCall hg]
        have hErased :
            ∀ s' : Loop,
              s'.allCalls = (withCalls y
                ((s.elevState.calls y).erase g
                  S.toBasicDriverInfo) s).allCalls →
              ∀ x f, S.InRange f →
                (some (y, g) ≠ some (x, f) →
                  called S.toBasicDriverInfo x f s' =
                    called S.toBasicDriverInfo x f s) ∧
                (some (y, g) = some (x, f) →
                  called S.toBasicDriverInfo x f s' =
                    false) := by
          intro s' hCalls x f hf
          rw [called_congr hCalls, called_erase hg hf]
          refine ⟨?_, ?_⟩
          · intro hOther
            have hNe : ¬ (x = y ∧ f = g) := by
              rintro ⟨rfl, rfl⟩
              exact hOther rfl
            simp [hNe]
          · intro hSame
            rcases Prod.mk.inj (Option.some.inj hSame) with
              ⟨rfl, rfl⟩
            simp
        have hLamp :
            S.InRange (Button.mk y.button g).floor := hg
        simp only [wp_when, emitStateChange, wp_modify]
        split
        · rw [wp_callDriver_ok
            (Driver.setButtonLamp_eq hLamp)]
          exact hErased _ rfl
        · rw [wp_callDriver_ok
            (Driver.setButtonLamp_eq hLamp)]
          exact hErased _ rfl
      · apply wp_setCall_error hg
        intro _
        refine ⟨rfl, ?_⟩
        intro x f hf hSame
        rcases Prod.mk.inj (Option.some.inj hSame) with
          ⟨_, hFloor⟩
        rw [hFloor] at hg
        exact hg hf

theorem not_leaves_of_state
    {d : BasicDriverInfo}
    (hNormal : s.state ≠ .normal)
    (hWaiting : s.state ≠ .waitingForInButton) :
    ¬ Leaves d i s x f := by
  intro hLeaves
  cases hLeaves with
  | departs priority hState =>
      exact hNormal hState
  | shuts hState =>
      exact hWaiting hState

/- In the normal state the car leaves when it departs. -/
theorem leaves_normal_iff
    {d : BasicDriverInfo}
    (hState : s.state = .normal) :
    Leaves d i s x f ↔
      arrives d s.elevState (i.getFloor .loop) =
          .ok false ∧
        s.elevState.direction = .none ∧
        (allButtons s.elevState).hasAny = true ∧
        ∃ priority,
          priorityFloorsInDirection d s.elevState
              s.previousDirection = .ok priority ∧
            directionButton d
              (departing d i priority s).elevState =
                some (x, f) := by
  constructor
  · intro hLeaves
    cases hLeaves with
    | departs priority _ hArrives hDirection hRequests
        hPriority hButton =>
        exact ⟨hArrives, hDirection, hRequests, priority,
          hPriority, hButton⟩
    | shuts hWaiting =>
        rw [hState] at hWaiting
        cases hWaiting
  · rintro ⟨hArrives, hDirection, hRequests, priority,
      hPriority, hButton⟩
    exact Leaves.departs priority hState hArrives
      hDirection hRequests hPriority hButton

/- In the waiting state it leaves when the doors shut. -/
theorem leaves_waiting_iff
    {d : BasicDriverInfo}
    (hState : s.state = .waitingForInButton) :
    Leaves d i s x f ↔
      FloorSet.hasAdditional s.inFloorButtonsLast
          s.inFloorButtons = true ∧
        doorTimeout i s = false ∧
        directionButton d s.elevState = some (x, f) := by
  constructor
  · intro hLeaves
    cases hLeaves with
    | departs priority hNormal =>
        rw [hState] at hNormal
        cases hNormal
    | shuts _ hPress hTimeout hButton =>
        exact ⟨hPress, hTimeout, hButton⟩
  · rintro ⟨hPress, hTimeout, hButton⟩
    exact Leaves.shuts hState hPress hTimeout hButton

@[simp] theorem allCalls_departing
    {d : BasicDriverInfo}
    {priority : Bool} :
    (departing d i priority s).allCalls = s.allCalls :=
  allCalls_departed

/- Both starts of a departure are one departure. -/
theorem wp_startFor
    {d : BasicDriverInfo}
    {Q : Unit → Loop → Prop}
    {E : AssertionFailed → Loop → Prop}
    {priority : Bool} :
    wp (if priority = true then
        startElevator d s.previousDirection
          (i.getFloor .depart)
      else startElevator d .none (i.getFloor .depart))
      Q E s ↔ Q () (departing d i priority s) := by
  cases priority with
  | true => simp [departing]
  | false => simp [departing]

theorem wp_depart_calls
    (s : Loop)
    (hState : s.state = .normal)
    (hArrives :
      arrives S.toBasicDriverInfo s.elevState
        (i.getFloor .loop) = .ok false)
    (hDirection : s.elevState.direction = .none)
    (currentFloor : Int) :
    wp (depart S.toBasicDriverInfo i currentFloor)
      (fun _ s' => Cleared S.toBasicDriverInfo i s s')
      (fun _ s' => NoneLeft S.toBasicDriverInfo i s s')
      s := by
  have hClear :=
    wp_clearDirectionButtonLamp_calls (S := S)
      (i.now .directionServed)
  unfold depart startForRequests emitStateChange
  simp only [wp_bind, wp_get, wp_when, wp_modify]
  by_cases hRequests :
      (allButtons s.elevState).hasAny = true
  · rw [if_pos hRequests]
    cases hPriority :
        priorityFloorsInDirection S.toBasicDriverInfo
          s.elevState s.previousDirection with
    | error e =>
        rw [wp_check_error]
        apply NoneLeft.of_allCalls rfl
        intro x f hLeaves
        rcases (leaves_normal_iff hState).mp hLeaves with
          ⟨_, _, _, priority, hOk, _⟩
        rw [hPriority] at hOk
        cases hOk
    | ok priority =>
        have hDeparts :
            ∀ x f, Leaves S.toBasicDriverInfo i s x f ↔
              directionButton S.toBasicDriverInfo
                (departing S.toBasicDriverInfo i priority
                  s).elevState = some (x, f) := by
          intro x f
          constructor
          · intro hLeaves
            rcases (leaves_normal_iff hState).mp hLeaves with
              ⟨_, _, _, priority', hOk, hButton⟩
            rw [hPriority] at hOk
            rw [Except.ok.inj hOk]
            exact hButton
          · exact fun hButton => Leaves.departs priority
              hState hArrives hDirection hRequests hPriority
              hButton
        rw [wp_check_ok, wp_startFor]
        apply wp_mono _ _ (hClear _)
        · intro _ s' hCleared
          refine ⟨?_, ?_⟩
          · intro x f hf hCalled _ hStays
            rw [hDeparts] at hStays
            rw [(hCleared x f hf).1 hStays,
              called_congr allCalls_emitted,
              called_congr allCalls_departing, hCalled]
          · intro x f hf hLeaves
            rw [hDeparts] at hLeaves
            exact (hCleared x f hf).2 hLeaves
        · rintro _ s' ⟨hCalls, hOther⟩
          refine ⟨NoneCleared.of_allCalls ?_, ?_⟩
          · rw [hCalls, allCalls_emitted,
              allCalls_departing]
          · intro x f hf hLeaves
            rw [hDeparts] at hLeaves
            exact hOther x f hf hLeaves
  · rw [if_neg hRequests]
    have hNone :
        ∀ x f, called S.toBasicDriverInfo x f s = false := by
      intro x f
      by_contra hCalled
      apply hRequests
      exact hasAny_of_called (by simpa using hCalled)
    have hStays :
        ∀ x f, ¬ Leaves S.toBasicDriverInfo i s x f := by
      intro x f hLeaves
      rcases (leaves_normal_iff hState).mp hLeaves with
        ⟨_, _, hAny, _⟩
      exact hRequests hAny
    apply wp_mono _ _ (hClear s)
    · intro _ s' hCleared
      refine ⟨?_, ?_⟩
      · intro x f hf hCalled
        rw [hNone x f] at hCalled
        cases hCalled
      · exact fun x f _ hLeaves =>
          absurd hLeaves (hStays x f)
    · rintro _ s' ⟨hCalls, _⟩
      exact NoneLeft.of_allCalls hCalls hStays

theorem wp_handleNormal_calls
    (s : Loop)
    (hState : s.state = .normal) :
    wp (handleNormal S.toBasicDriverInfo i
        (i.getFloor .loop))
      (fun _ s' => Cleared S.toBasicDriverInfo i s s')
      (fun _ s' => NoneLeft S.toBasicDriverInfo i s s')
      s := by
  have hStays :
      arrives S.toBasicDriverInfo s.elevState
          (i.getFloor .loop) ≠ .ok false →
        ∀ x f, ¬ Leaves S.toBasicDriverInfo i s x f := by
    intro hArrives x f hLeaves
    exact hArrives ((leaves_normal_iff hState).mp hLeaves).1
  unfold handleNormal
  simp only [wp_bind, wp_get]
  cases hArrives :
      arrives S.toBasicDriverInfo s.elevState
        (i.getFloor .loop) with
  | error e =>
      rw [wp_check_error]
      apply NoneLeft.of_allCalls rfl
      apply hStays
      simp [hArrives]
  | ok arrived =>
      rw [wp_check_ok]
      cases arrived with
      | true =>
          have hServes :
              ∀ x f,
                ¬ Leaves S.toBasicDriverInfo i s x f := by
            apply hStays
            simp [hArrives]
          apply (keeps_allCalls_serveFloor _).wp
          · exact fun _ _ hCalls =>
              Cleared.of_allCalls hCalls hServes
          · exact fun _ _ hCalls =>
              NoneLeft.of_allCalls hCalls hServes
      | false =>
          simp only [Bool.false_eq_true, if_false, wp_when]
          split
          · next hDirection =>
              exact wp_depart_calls s hState hArrives
                hDirection _
          · next hMoving =>
              apply Cleared.of_allCalls rfl
              intro x f hLeaves
              rcases (leaves_normal_iff hState).mp hLeaves
                with ⟨_, hStands, _⟩
              exact hMoving hStands

/- The timeout clears the calls of the sensed floor. -/
theorem wp_closeByTimeout_calls
    (currentFloor : Int)
    (s : Loop) :
    wp (closeByTimeout S.toBasicDriverInfo i currentFloor)
      (fun _ s' => ∀ x f, S.InRange f → f ≠ currentFloor →
        called S.toBasicDriverInfo x f s' =
          called S.toBasicDriverInfo x f s)
      (fun _ s' => s'.allCalls = s.allCalls)
      s := by
  unfold closeByTimeout
  by_cases hRange : S.InRange currentFloor
  · have hUp :
        S.InRange (Button.mk .callUp currentFloor).floor :=
      hRange
    have hDown :
        S.InRange
          (Button.mk .callDown currentFloor).floor :=
      hRange
    simp only [wp_bind, wp_setCall hRange,
      Bool.false_eq_true, if_false, emitStateChange,
      wp_modify]
    rw [wp_callDriver_ok (Driver.setButtonLamp_eq hUp),
      wp_callDriver_ok (Driver.setButtonLamp_eq hDown)]
    intro x f hf hOther
    have hErased :
        ∀ (y : CallDirection) (s : Loop),
          called S.toBasicDriverInfo x f (withCalls y
            ((s.elevState.calls y).erase currentFloor
              S.toBasicDriverInfo) s) =
          called S.toBasicDriverInfo x f s := by
      intro y s
      rw [called_erase hRange hf]
      simp [hOther]
    exact (hErased .up _).trans (hErased .down s)
  · rw [wp_bind]
    apply wp_setCall_error hRange
    exact fun _ => rfl

theorem wp_handleWaiting_calls
    (s : Loop)
    (hState : s.state = .waitingForInButton) :
    wp (handleWaiting S.toBasicDriverInfo i
        (i.getFloor .loop))
      (fun _ s' => Cleared S.toBasicDriverInfo i s s')
      (fun _ s' => NoneLeft S.toBasicDriverInfo i s s')
      s := by
  unfold handleWaiting emitStateChange
  simp only [wp_bind, wp_get, wp_when, wp_modify, wp_ite]
  cases hTimeout : doorTimeout i s with
  | true =>
      have hStays :
          ∀ x f, ¬ Leaves S.toBasicDriverInfo i s x f := by
        intro x f hLeaves
        rw [leaves_waiting_iff hState, hTimeout] at hLeaves
        cases hLeaves.2.1
      simp only [or_true, if_true]
      apply wp_mono _ _ (wp_closeByTimeout_calls _ _)
      · intro _ s' hOthers
        refine ⟨?_, fun x f _ hLeaves =>
          absurd hLeaves (hStays x f)⟩
        intro x f hf hCalled hElsewhere _
        have hNe : f ≠ i.getFloor .loop := by
          intro hHere
          exact hElsewhere ⟨hState, hHere.symm⟩
        rw [hOthers x f hf hNe]
        exact hCalled
      · exact fun _ s' hCalls =>
          NoneLeft.of_allCalls hCalls hStays
  | false =>
      simp only [Bool.false_eq_true, or_false, if_false]
      split
      · next hPress =>
          apply wp_mono _ _
            (wp_clearDirectionButtonLamp_calls _ _)
          · intro _ s' hCleared
            refine ⟨?_, ?_⟩
            · intro x f hf hCalled _ hStays
              have hOther :
                  directionButton S.toBasicDriverInfo
                    s.elevState ≠ some (x, f) := by
                intro hButton
                exact hStays (Leaves.shuts hState hPress
                  hTimeout hButton)
              exact ((hCleared x f hf).1 hOther).trans
                hCalled
            · intro x f hf hLeaves
              rcases (leaves_waiting_iff hState).mp hLeaves
                with ⟨_, _, hButton⟩
              exact (hCleared x f hf).2 hButton
          · rintro _ s' ⟨hCalls, hOther⟩
            refine ⟨NoneCleared.of_allCalls hCalls, ?_⟩
            intro x f hf hLeaves
            rcases (leaves_waiting_iff hState).mp hLeaves
              with ⟨_, _, hButton⟩
            exact hOther x f hf hButton
      · next hQuiet =>
          apply Cleared.of_allCalls rfl
          intro x f hLeaves
          rw [leaves_waiting_iff hState] at hLeaves
          exact hQuiet hLeaves.1

theorem wp_handleState_calls
    (s : Loop) :
    wp (handleState S.toBasicDriverInfo i
        (i.getFloor .loop))
      (fun _ s' => Cleared S.toBasicDriverInfo i s s')
      (fun _ s' => NoneLeft S.toBasicDriverInfo i s s')
      s := by
  unfold handleState
  simp only [wp_bind, wp_get]
  cases hState : s.state with
  | normal => exact wp_handleNormal_calls s hState
  | waitingForInButton =>
      exact wp_handleWaiting_calls s hState
  | stopped =>
      apply Cleared.of_allCalls rfl
      intro x f
      apply not_leaves_of_state
      · simp [hState]
      · simp [hState]

/- After the local state, calls are cleared only where the
car waits and where it leaves. -/
theorem wp_react_calls
    (s : Loop) :
    wp (react S.toBasicDriverInfo i (i.getFloor .loop))
      (fun _ s' => Cleared S.toBasicDriverInfo i s s')
      (fun _ s' => NoneLeft S.toBasicDriverInfo i s s')
      s := by
  unfold react
  rw [wp_bind]
  apply wp_mono _ (fun _ _ hE => hE)
    (wp_handleState_calls s)
  intro _ s₁ hCleared
  have hFinish :
      wp (finishCycle i (i.getFloor .loop))
        (fun _ s' => s'.allCalls = s₁.allCalls)
        (fun _ _ => False) s₁ := by
    unfold finishCycle emitStateChange
    simp only [wp_bind, wp_get, wp_when, wp_modify]
    split
    · rfl
    · rfl
  apply wp_mono _ (fun _ _ hE => hE.elim) hFinish
  intro _ s₂ hCalls
  refine ⟨?_, ?_⟩
  · intro x f hf hCalled hElsewhere hStays
    rw [called_congr hCalls]
    exact hCleared.kept x f hf hCalled hElsewhere hStays
  · intro x f hf hLeaves
    rw [called_congr hCalls]
    exact hCleared.left x f hf hLeaves

end Calls

end Loop

end ElevatorControl
