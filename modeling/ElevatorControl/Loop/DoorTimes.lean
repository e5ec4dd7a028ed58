import ElevatorControl.FloorSetMembers
import ElevatorControl.Loop.Doors
import ElevatorControl.Loop.HallLamps

/-
  How long the doors stay open.

  The doors that have been opened at a floor are shut by a
  press of an inside button that was not held before, or when
  they have been open for the threshold. A resume and an
  obstruction shut them at once. Doors that were open when the
  loop was entered have no timer.

  Key definitions include:
    * `Inputs.HoldsInside`
    * `Loop.LocalAfter`
    * `Loop.Run.ShutBy`

  Key theorems include:
    * `Loop.doorStep_of_loopBody`
    * `Loop.localAfter_of_react`
    * `Loop.Run.shutBy_of_dark`
-/

------------------------------------------------------------
-- Held Buttons
------------------------------------------------------------

namespace ElevatorControl

/- The inside button of the floor is held. -/
def Inputs.HoldsInside
    (d : BasicDriverInfo)
    (i : Inputs)
    (f : Int) : Prop :=
  d.InRange f ∧ i.getButtonSignal ⟨.targetFloor, f⟩ = true

namespace Loop

open Exec Car

/- The inside buttons of this iteration and the last. -/
def heldButtons
    (s : Loop) : FloorSet × FloorSet :=
  (s.inFloorButtonsLast, s.inFloorButtons)

section Held

variable {S : Shaft}
variable {d : BasicDriverInfo}
variable {i : Inputs}
variable {currentFloor : Int}
variable {s t : Loop}

theorem callStable_heldButtons
    (v : FloorSet × FloorSet) :
    CallStable (fun s => s.heldButtons = v) where
  report _ _ _ _ hHeld := hHeld
  floor _ _ hHeld := hHeld
  halt _ hHeld := hHeld
  depart _ _ _ _ hHeld := hHeld
  indicator _ _ _ hHeld := hHeld
  hallLamp _ _ _ _ hHeld := hHeld
  calls x _ _ hHeld := by
    cases x with
    | up => exact hHeld
    | down => exact hHeld

theorem doorStable_heldButtons
    (v : FloorSet × FloorSet) :
    DoorStable (fun s => s.heldButtons = v) where
  opened _ _ hHeld := hHeld
  shut _ hHeld := hHeld
  finish _ _ hHeld := hHeld

theorem keeps_heldButtons_newPress
    (b : Button) :
    Keeps heldButtons (newPress d i b) := by
  unfold newPress emitStateChange
  apply Keeps.bind (keeps_setButtonLampAndFlag
    (fun _ _ => rfl) (fun _ _ => rfl) d b true)
  intro _
  apply Keeps.bind
  · exact keeps_when fun _ =>
      keeps_setInside (fun _ _ => rfl) d true b.floor
  · exact fun _ => keeps_modify fun _ => rfl

theorem keeps_heldButtons_handleStop :
    Keeps heldButtons (handleStop d i) := by
  apply Keeps.of_preserves
  intro v
  have hCalls := (callStable_heldButtons v).toMotionStable
  unfold handleStop toggleStop
  apply Preserves.bind
  · exact preserves_modify fun _ hHeld => hHeld
  · intro _
    apply Preserves.bind preserves_get
    intro s
    apply preserves_when
    intro _
    apply Preserves.bind
    · exact preserves_modify fun _ hHeld => hHeld
    · intro _
      apply Preserves.bind preserves_get
      intro t
      apply preserves_ite
      · exact stable_stopPressed hCalls i
          fun _ _ hHeld => hHeld
      · exact stable_resumePressed hCalls d i
          fun _ _ hHeld => hHeld

theorem keeps_heldButtons_pollCommands :
    Keeps heldButtons (pollCommands d i) := by
  apply Keeps.of_preserves
  intro v
  unfold pollCommands handleObstruction
  apply Preserves.bind
  · apply preserves_when
    intro _ s hHeld
    rcases Driver.shutdown_ok (d := d) (v := s.driver)
      with ⟨w, hShutdown, -⟩
    rw [wp_callDriver_ok hShutdown]
    exact hHeld
  · exact fun _ =>
      stable_handleCommand (callStable_heldButtons v) d i

theorem keeps_heldButtons_senseFloor :
    Keeps heldButtons (senseFloor d i) :=
  Keeps.of_preserves fun v =>
    stable_senseFloor
      (callStable_heldButtons v).toMotionStable d i

/- The local state does not touch the held buttons. -/
theorem keeps_heldButtons_react :
    Keeps heldButtons (react d i currentFloor) := by
  apply Keeps.of_preserves
  intro v
  have hCalls := callStable_heldButtons v
  have hServe : Keeps heldButtons
      (serveFloor d i currentFloor) := by
    unfold serveFloor emitStateChange stopElevator
    apply Keeps.bind (keeps_setButtonLampAndFlag
      (fun _ _ => rfl) (fun _ _ => rfl) d _ false)
    intro _
    apply Keeps.bind
    · exact keeps_modify fun _ => rfl
    · intro _
      apply Keeps.bind
      · exact keeps_modify fun _ => rfl
      · intro _
        apply Keeps.bind (keeps_setInside (fun _ _ => rfl) d
          false currentFloor)
        exact fun _ => keeps_modify fun _ => rfl
  unfold react handleState
  apply Preserves.bind
  · apply Preserves.bind preserves_get
    intro s
    cases s.state with
    | normal =>
        unfold handleNormal
        apply Preserves.bind preserves_get
        intro s
        apply Preserves.bind (stable_check _)
        intro arrived
        apply preserves_ite
        · intro s hHeld
          rw [← hHeld]
          exact hServe s
        · exact preserves_when fun _ =>
            stable_depart hCalls d i _
    | waitingForInButton =>
        exact stable_handleWaiting hCalls d i
          (doorStable_heldButtons v) _
    | stopped => exact preserves_pure _
  · exact fun _ =>
      stable_finishCycle hCalls.toMotionStable i
        (doorStable_heldButtons v) _

/- The set holds the floors of the polled buttons that are
inside buttons and held. -/
structure Collects
    (S : Shaft)
    (i : Inputs)
    (last : FloorSet)
    (polled : List Button)
    (t : Loop) : Prop where
  last : t.inFloorButtonsLast = last
  within : t.inFloorButtons.Within S.toBasicDriverInfo
  members : ∀ f, f ∈ t.inFloorButtons.members
      S.toBasicDriverInfo ↔
    ⟨.targetFloor, f⟩ ∈ polled ∧
      i.HoldsInside S.toBasicDriverInfo f

theorem Collects.of_heldButtons
    {last : FloorSet}
    {polled : List Button}
    (hCollects : Collects S i last polled s)
    (hSame : t.heldButtons = s.heldButtons) :
    Collects S i last polled t := by
  have hLast : t.inFloorButtonsLast = s.inFloorButtonsLast :=
    congrArg Prod.fst hSame
  have hNow : t.inFloorButtons = s.inFloorButtons :=
    congrArg Prod.snd hSame
  refine ⟨hLast.trans hCollects.last, ?_, ?_⟩
  · rw [hNow]
    exact hCollects.within
  · rw [hNow]
    exact hCollects.members

/- A button that adds no floor has been polled. -/
theorem Collects.skip
    {last : FloorSet}
    {polled : List Button}
    {b : Button}
    (hCollects : Collects S i last polled s)
    (hSkip : ∀ f, b = ⟨.targetFloor, f⟩ →
      ¬ i.HoldsInside S.toBasicDriverInfo f) :
    Collects S i last (polled ++ [b]) s := by
  refine { hCollects with members := ?_ }
  intro f
  rw [hCollects.members f, List.mem_append,
    List.mem_singleton, or_and_right]
  constructor
  · exact Or.inl
  · intro hMember
    rcases hMember with hOld | ⟨hSame, hHolds⟩
    · exact hOld
    · exact absurd hHolds (hSkip f hSame.symm)

/- A held inside button has been polled. -/
theorem Collects.hold
    {last : FloorSet}
    {polled : List Button}
    {f : Int}
    (hCollects : Collects S i last polled s)
    (hHolds : i.HoldsInside S.toBasicDriverInfo f) :
    wp (holdInside S.toBasicDriverInfo f)
      (fun _ t =>
        Collects S i last (polled ++ [⟨.targetFloor, f⟩]) t)
      (fun _ _ => True) s := by
  unfold holdInside
  simp only [wp_bind, wp_get]
  rw [FloorSet.set_eq hHolds.1]
  refine ⟨hCollects.last,
    hCollects.within.insert_of_inRange hHolds.1, ?_⟩
  intro g
  change g ∈ (s.inFloorButtons.insert f _).members _ ↔ _
  rw [FloorSet.members_insert S.span hHolds.1,
    Finset.mem_insert, hCollects.members g, List.mem_append,
    List.mem_singleton, or_and_right, or_comm]
  apply or_congr_right
  constructor
  · rintro rfl
    exact ⟨rfl, hHolds⟩
  · rintro ⟨hSame, -⟩
    cases hSame
    rfl

/- Polling a button collects it. -/
theorem Collects.poll
    {last : FloorSet}
    {polled : List Button}
    {b : Button}
    (hCollects : Collects S i last polled s)
    (hRange : S.InRange b.floor) :
    wp (handleButton S.toBasicDriverInfo i b)
      (fun _ t => Collects S i last (polled ++ [b]) t)
      (fun _ _ => True) s := by
  unfold handleButton
  simp only [wp_bind, Driver.button_eq hRange, wp_check_ok]
  rw [wp_when]
  split
  · next hSignal =>
      simp only [wp_bind, wp_get]
      have hLamp : Keeps heldButtons (check
          (s.driver.getButtonLamp S.toBasicDriverInfo b)) :=
        keeps_check _
      apply hLamp.wp _ fun _ _ _ => trivial
      intro lit s₁ hSame₁
      have hPress : Keeps heldButtons
          (when (!lit) (newPress S.toBasicDriverInfo i b)) :=
        keeps_when fun _ => keeps_heldButtons_newPress b
      apply hPress.wp _ fun _ _ _ => trivial
      intro _ s₂ hSame₂
      have hCollects₂ :=
        hCollects.of_heldButtons (hSame₂.trans hSame₁)
      rw [wp_when]
      split
      · next hType =>
          rcases b with ⟨type, f⟩
          change type = .targetFloor at hType
          rw [hType] at hSignal ⊢
          exact hCollects₂.hold ⟨hRange, hSignal⟩
      · next hType =>
          apply hCollects₂.skip
          intro f hSame
          rw [hSame] at hType
          exact absurd rfl hType
  · next hSignal =>
      apply hCollects.skip
      intro f hSame hHolds
      rw [hSame] at hSignal
      exact hSignal hHolds.2

theorem Collects.pollAll
    {last : FloorSet} :
    ∀ (buttons polled : List Button) (s : Loop),
      (∀ b ∈ buttons, S.InRange b.floor) →
      Collects S i last polled s →
      wp (buttons.forM (handleButton S.toBasicDriverInfo i))
        (fun _ t => Collects S i last (polled ++ buttons) t)
        (fun _ _ => True) s
  | [], polled, s, _, hCollects => by
      rw [List.append_nil]
      exact hCollects
  | b :: buttons, polled, s, hRange, hCollects => by
      change wp (handleButton S.toBasicDriverInfo i b >>=
        fun _ => buttons.forM
          (handleButton S.toBasicDriverInfo i)) _ _ s
      rw [wp_bind]
      apply wp_mono _ (fun _ _ _ => trivial)
        (hCollects.poll (hRange b List.mem_cons_self))
      intro _ t hPolled
      have hRest := Collects.pollAll buttons (polled ++ [b]) t
        (fun b' hb => hRange b' (List.mem_cons_of_mem b hb))
        hPolled
      rw [List.append_assoc] at hRest
      exact hRest

/- When the local state is handled, the buttons of the last
iteration and those of this one are known. -/
structure Holds
    (S : Shaft)
    (i : Inputs)
    (last : FloorSet)
    (t : Loop) : Prop where
  last : t.inFloorButtonsLast = last
  within : t.inFloorButtons.Within S.toBasicDriverInfo
  members : ∀ f, f ∈ t.inFloorButtons.members
      S.toBasicDriverInfo ↔
    i.HoldsInside S.toBasicDriverInfo f

theorem Collects.holds
    {last : FloorSet}
    (hCollects : Collects S i last
      (genFloorButtons S.toBasicDriverInfo) s)
    (hSame : t.heldButtons = s.heldButtons) :
    Holds S i last t := by
  have hCollects' := hCollects.of_heldButtons hSame
  refine ⟨hCollects'.last, hCollects'.within, ?_⟩
  intro f
  rw [hCollects'.members f]
  exact and_iff_right_of_imp fun hHolds =>
    targetFloor_mem_genFloorButtons hHolds.1

theorem holds_of_approach :
    wp (approach S.toBasicDriverInfo i)
      (fun _ t => Holds S i s.inFloorButtons t)
      (fun _ _ => True) s := by
  have hConsistent : Keeps heldButtons
      (assertConsistency S.toBasicDriverInfo) :=
    keeps_assertConsistency _
  unfold approach pollButtons beginCycle
  simp only [wp_bind, wp_modify]
  apply hConsistent.wp _ fun _ _ _ => trivial
  intro _ s₁ hSame₁
  have hCollects : Collects S i s.inFloorButtons [] s₁ := by
    refine ⟨congrArg Prod.fst hSame₁, ?_, ?_⟩
    · rw [show s₁.inFloorButtons = .empty from
        congrArg Prod.snd hSame₁]
      exact FloorSet.within_empty
    · intro f
      rw [show s₁.inFloorButtons = .empty from
        congrArg Prod.snd hSame₁, FloorSet.members_empty]
      exact iff_of_false (Finset.notMem_empty f)
        fun hMember => List.not_mem_nil hMember.1
  apply wp_mono _ (fun _ _ _ => trivial)
    (hCollects.pollAll (genFloorButtons S.toBasicDriverInfo)
      [] s₁ fun b hb => inRange_of_mem_genFloorButtons hb)
  intro _ s₂ hPolled
  apply keeps_heldButtons_handleStop.wp _ fun _ _ _ => trivial
  intro _ s₃ hSame₃
  apply keeps_heldButtons_pollCommands.wp _
    fun _ _ _ => trivial
  intro _ s₄ hSame₄
  apply keeps_heldButtons_senseFloor.wp _ fun _ _ _ => trivial
  intro currentFloor s₅ hSame₅
  exact hPolled.holds
    (hSame₅.trans (hSame₄.trans hSame₃))

/- The doors close early for an inside button that is held
and was not. -/
theorem Holds.hasAdditional_iff
    {last : FloorSet}
    (hHolds : Holds S i last t) :
    FloorSet.hasAdditional t.inFloorButtonsLast
        t.inFloorButtons = true ↔
      ∃ f, i.HoldsInside S.toBasicDriverInfo f ∧
        f ∉ last.members S.toBasicDriverInfo := by
  rw [FloorSet.hasAdditional_eq (Int.le_of_lt S.ordered)
    hHolds.within, decide_eq_true_eq, hHolds.last]
  constructor
  · intro hNew
    rcases hNew with ⟨f, hNow, hOld⟩
    exact ⟨f, (hHolds.members f).mp hNow, hOld⟩
  · intro hNew
    rcases hNew with ⟨f, hNow, hOld⟩
    exact ⟨f, (hHolds.members f).mpr hNow, hOld⟩

end Held

------------------------------------------------------------
-- Local State and Timer
------------------------------------------------------------

/- The local state, and the start of the door timer. -/
def waiting
    (s : Loop) : LocalState × MillisecondTime :=
  (s.state, s.doorWaitingStarted)

/- What the handling of the local state makes of it. -/
structure LocalAfter
    (d : BasicDriverInfo)
    (i : Inputs)
    (currentFloor : Int)
    (t u : Loop) : Prop where
  opened : Opens d currentFloor t →
    u.waiting = (.waitingForInButton, i.now .doorOpened)
  shut : Closes i t →
    u.waiting = (.normal, t.doorWaitingStarted)
  kept : ¬ Opens d currentFloor t → ¬ Closes i t →
    u.waiting = t.waiting

section Local

variable {d : BasicDriverInfo}
variable {i : Inputs}
variable {currentFloor : Int}
variable {s t u : Loop}

theorem callStable_waiting
    (v : LocalState × MillisecondTime) :
    CallStable (fun s => s.waiting = v) where
  report _ _ _ _ hWaiting := hWaiting
  floor _ _ hWaiting := hWaiting
  halt _ hWaiting := hWaiting
  depart _ _ _ _ hWaiting := hWaiting
  indicator _ _ _ hWaiting := hWaiting
  hallLamp _ _ _ _ hWaiting := hWaiting
  calls x _ _ hWaiting := by
    cases x with
    | up => exact hWaiting
    | down => exact hWaiting

theorem keeps_waiting_finishCycle :
    Keeps waiting (finishCycle i currentFloor) := by
  unfold finishCycle emitStateChange
  apply Keeps.bind keeps_get
  intro s
  apply Keeps.bind
  · exact keeps_when fun _ => keeps_modify fun _ => rfl
  · exact fun _ => keeps_modify fun _ => rfl

theorem waiting_of_serveFloor :
    wp (serveFloor d i currentFloor)
      (fun _ u => u.waiting =
        (.waitingForInButton, i.now .doorOpened))
      (fun _ _ => True) t := by
  unfold serveFloor stopElevator emitStateChange
  apply wp_bind_of_forall _ fun _ _ => trivial
  intro _ s₁
  simp only [wp_bind, wp_modify]
  have hInside :
      Keeps waiting (setInside d false currentFloor) :=
    keeps_setInside (fun _ _ => rfl) d false currentFloor
  apply hInside.wp
  · exact fun _ _ hWaiting => hWaiting
  · exact fun _ _ _ => trivial

theorem localAfter_of_handleNormal
    (hState : t.state = .normal) :
    wp (handleNormal d i currentFloor)
      (fun _ u => LocalAfter d i currentFloor t u)
      (fun _ _ => True) t := by
  have hOpen : ¬ Closes i t := not_closes_normal hState
  unfold handleNormal
  simp only [wp_bind, wp_get]
  cases hArrives : arrives d t.elevState currentFloor with
  | error e => exact trivial
  | ok arrived =>
      rw [wp_check_ok]
      cases arrived with
      | true =>
          have hOpens : Opens d currentFloor t :=
            ⟨hState, hArrives⟩
          apply wp_mono _ (fun _ _ _ => trivial)
            waiting_of_serveFloor
          intro _ u hWaiting
          exact
            { opened := fun _ => hWaiting
              shut := fun hCloses => absurd hCloses hOpen
              kept := fun hNot => absurd hOpens hNot }
      | false =>
          have hPasses : ¬ Opens d currentFloor t := by
            intro hOpens
            rw [hOpens.2] at hArrives
            cases hArrives
          have hDepart : Keeps waiting
              (when (t.elevState.direction = .none)
                (depart d i currentFloor)) :=
            keeps_when fun _ => Keeps.of_preserves fun v =>
              stable_depart (callStable_waiting v) d i
                currentFloor
          rw [wp_ite, if_neg Bool.false_ne_true]
          apply hDepart.wp _ fun _ _ _ => trivial
          intro _ u hWaiting
          exact
            { opened := fun hOpens => absurd hOpens hPasses
              shut := fun hCloses => absurd hCloses hOpen
              kept := fun _ _ => hWaiting }

theorem localAfter_of_handleWaiting
    (hState : t.state = .waitingForInButton) :
    wp (handleWaiting d i currentFloor)
      (fun _ u => LocalAfter d i currentFloor t u)
      (fun _ _ => True) t := by
  have hPasses : ¬ Opens d currentFloor t := fun hOpens =>
    LocalState.noConfusion (hState.symm.trans hOpens.1)
  unfold handleWaiting emitStateChange
  simp only [wp_bind, wp_get, wp_when, wp_modify]
  split
  · next hCloses =>
      have hShut : ∀ u : Loop,
          u.waiting = (.normal, t.doorWaitingStarted) →
            LocalAfter d i currentFloor t u := by
        intro u hWaiting
        exact
          { opened := fun hOpens => absurd hOpens hPasses
            shut := fun _ => hWaiting
            kept := fun _ hNot =>
              absurd ⟨hState, hCloses⟩ hNot }
      have hTimeout :
          Keeps waiting (closeByTimeout d i currentFloor) :=
        Keeps.of_preserves fun v =>
          stable_closeByTimeout (callStable_waiting v) d i
            currentFloor
      have hPress : Keeps waiting (clearDirectionButtonLamp d
          (i.now .directionServed)) :=
        Keeps.of_preserves fun v =>
          stable_clearDirectionButtonLamp
            (callStable_waiting v) d _
      rw [wp_ite]
      split
      · apply hTimeout.wp _ fun _ _ _ => trivial
        exact fun _ u hWaiting => hShut u hWaiting
      · apply hPress.wp _ fun _ _ _ => trivial
        exact fun _ u hWaiting => hShut u hWaiting
  · next hOpen =>
      exact
        { opened := fun hOpens => absurd hOpens hPasses
          shut := fun hCloses => absurd hCloses.2 hOpen
          kept := fun _ _ => rfl }

theorem localAfter_of_react :
    wp (react d i currentFloor)
      (fun _ u => LocalAfter d i currentFloor t u)
      (fun _ _ => True) t := by
  have hHandles :
      wp (handleState d i currentFloor)
        (fun _ u => LocalAfter d i currentFloor t u)
        (fun _ _ => True) t := by
    unfold handleState
    rw [wp_bind, wp_get]
    cases hState : t.state with
    | normal => exact localAfter_of_handleNormal hState
    | waitingForInButton =>
        exact localAfter_of_handleWaiting hState
    | stopped =>
        refine ⟨?_, ?_, fun _ _ => rfl⟩
        · intro hOpens
          cases hState.symm.trans hOpens.1
        · intro hCloses
          cases hState.symm.trans hCloses.1
  unfold react
  rw [wp_bind]
  apply wp_mono _ (fun _ _ _ => trivial) hHandles
  intro _ u hAfter
  apply keeps_waiting_finishCycle.wp _ fun _ _ _ => trivial
  intro _ v hSame
  exact
    { opened := fun hOpens =>
        hSame.trans (hAfter.opened hOpens)
      shut := fun hCloses => hSame.trans (hAfter.shut hCloses)
      kept := fun hPasses hOpen =>
        hSame.trans (hAfter.kept hPasses hOpen) }

end Local

------------------------------------------------------------
-- Iterations
------------------------------------------------------------

/-
  What an iteration makes of the doors: the state `t` in
  which its local state is handled, and the state `u` it ends
  in.
-/
structure DoorStep
    (S : Shaft)
    (i : Inputs)
    (s : Loop)
    (currentFloor : Int)
    (t u : Loop) : Prop where
  approach : Loop.approach S.toBasicDriverInfo i s =
    .ok currentFloor t
  state : t.state =
    if StopPressed i s then
      if s.driver.stopLamp then .normal else .stopped
    else s.state
  started : t.doorWaitingStarted = s.doorWaitingStarted
  holds : Holds S i s.inFloorButtons t
  lamp : t.driver.doorOpenLamp = true ↔
    s.driver.doorOpenLamp = true ∧
      ¬ Resumes i s ∧ ¬ i.getObstruction = true
  doors : DoorsAfter S.toBasicDriverInfo i currentFloor t u
  waits : LocalAfter S.toBasicDriverInfo i currentFloor t u
  held : u.heldButtons = t.heldButtons

/- A completed iteration is an approach and the local
state. -/
theorem doorStep_of_loopBody
    {S : Shaft}
    {i : Inputs}
    {s u : Loop}
    (hRun : loopBody S.toBasicDriverInfo i s = .ok () u) :
    ∃ currentFloor t, DoorStep S i s currentFloor t u := by
  have hWp :
      wp (loopBody S.toBasicDriverInfo i)
        (fun _ u => ∃ currentFloor t,
          DoorStep S i s currentFloor t u)
        (fun _ _ => True) s := by
    unfold loopBody
    rw [wp_bind]
    apply wp_mono _ (fun _ _ _ => trivial)
      (wp_and (wp_run _ s) (wp_and (wp_approach_state s)
        (wp_and (keeps_doorWaitingStarted_approach s)
          (wp_and holds_of_approach doors_of_approach))))
    intro currentFloor t hApproach
    rcases hApproach with
      ⟨hApproach, hState, hStarted, hHolds, hDoors⟩
    apply wp_mono _ (fun _ _ _ => trivial)
      (wp_and doors_of_react (wp_and localAfter_of_react
        (keeps_heldButtons_react t)))
    intro _ u hReact
    rcases hReact with ⟨hDoorsAfter, hWaits, hHeld⟩
    exact ⟨currentFloor, t, hApproach, hState, hStarted,
      hHolds, hDoors.2, hDoorsAfter, hWaits, hHeld⟩
  have hOk := wp_ok hWp hRun
  exact hOk

section Step

variable {S : Shaft}
variable {i : Inputs}
variable {currentFloor : Int}
variable {s t u : Loop}

theorem DoorStep.of_waiting
    (hStep : DoorStep S i s currentFloor t u)
    (hWaiting : t.state = .waitingForInButton) :
    s.state = .waitingForInButton := by
  have hState := hStep.state
  rw [hWaiting] at hState
  split at hState
  · split at hState
    · cases hState
    · cases hState
  · exact hState.symm

theorem DoorStep.of_normal
    (hStep : DoorStep S i s currentFloor t u)
    (hNormal : t.state = .normal) :
    Resumes i s ∨ s.state = .normal := by
  have hState := hStep.state
  rw [hNormal] at hState
  split at hState
  · next hPressed =>
      split at hState
      · next hLit => exact Or.inl ⟨hPressed, hLit⟩
      · cases hState
  · exact Or.inr hState.symm

/- The doors wait because they have been opened, or still. -/
theorem DoorStep.waits_cases
    (hStep : DoorStep S i s currentFloor t u)
    (hWaiting : u.state = .waitingForInButton) :
    Opens S.toBasicDriverInfo currentFloor t ∧
        u.doorWaitingStarted = i.now .doorOpened ∨
      s.state = .waitingForInButton ∧
        u.doorWaitingStarted = s.doorWaitingStarted := by
  by_cases hOpens : Opens S.toBasicDriverInfo currentFloor t
  · exact Or.inl ⟨hOpens,
      congrArg Prod.snd (hStep.waits.opened hOpens)⟩
  · by_cases hCloses : Closes i t
    · have hShut : u.state = .normal :=
        congrArg Prod.fst (hStep.waits.shut hCloses)
      cases hShut.symm.trans hWaiting
    · have hKept := hStep.waits.kept hOpens hCloses
      have hState : u.state = t.state :=
        congrArg Prod.fst hKept
      have hStarted :
          u.doorWaitingStarted = t.doorWaitingStarted :=
        congrArg Prod.snd hKept
      exact Or.inr
        ⟨hStep.of_waiting (hState.symm.trans hWaiting),
          hStarted.trans hStep.started⟩

/- Open doors in the local state `Normal` have been so
before. -/
theorem DoorStep.lit_before
    (hStep : DoorStep S i s currentFloor t u)
    (hNormal : u.state = .normal)
    (hLit : u.driver.doorOpenLamp = true) :
    s.state = .normal ∧ s.driver.doorOpenLamp = true := by
  have hPasses :
      ¬ Opens S.toBasicDriverInfo currentFloor t := by
    intro hOpens
    have hWaiting : u.state = .waitingForInButton :=
      congrArg Prod.fst (hStep.waits.opened hOpens)
    cases hNormal.symm.trans hWaiting
  have hOpen : ¬ Closes i t := by
    intro hCloses
    have hDark : u.driver.doorOpenLamp = false :=
      congrArg Prod.snd (hStep.doors.shut hCloses)
    cases hLit.symm.trans hDark
  have hStays :
      ¬ SetsOff S.toBasicDriverInfo currentFloor t := by
    intro hLeft
    have hDark : u.driver.doorOpenLamp = false :=
      congrArg Prod.snd (hStep.doors.left hLeft)
    cases hLit.symm.trans hDark
  have hSame : u.driver.doorOpenLamp =
      t.driver.doorOpenLamp :=
    congrArg Prod.snd (hStep.doors.kept hPasses hOpen hStays)
  have hState : u.state = t.state :=
    congrArg Prod.fst (hStep.waits.kept hPasses hOpen)
  rcases hStep.lamp.mp (hSame.symm.trans hLit) with
    ⟨hLitBefore, hNotResumed, -⟩
  rcases hStep.of_normal (hState.symm.trans hNormal) with
    hResumed | hNormalBefore
  · exact absurd hResumed hNotResumed
  · exact ⟨hNormalBefore, hLitBefore⟩

/- What shuts the doors in an iteration. -/
theorem DoorStep.dark_cases
    (hStep : DoorStep S i s currentFloor t u)
    (hLit : s.driver.doorOpenLamp = true)
    (hDark : u.driver.doorOpenLamp = false) :
    Resumes i s ∨ i.getObstruction = true ∨ Closes i t ∨
      SetsOff S.toBasicDriverInfo currentFloor t := by
  by_contra hNone
  simp only [not_or] at hNone
  rcases hNone with
    ⟨hNotResumed, hClear, hOpen, hStays⟩
  have hLit₁ : t.driver.doorOpenLamp = true :=
    hStep.lamp.mpr ⟨hLit, hNotResumed, hClear⟩
  have hLit₂ : u.driver.doorOpenLamp = true := by
    by_cases hOpens :
        Opens S.toBasicDriverInfo currentFloor t
    · exact congrArg Prod.snd (hStep.doors.opened hOpens)
    · have hSame : u.driver.doorOpenLamp =
          t.driver.doorOpenLamp :=
        congrArg Prod.snd
          (hStep.doors.kept hOpens hOpen hStays)
      exact hSame.trans hLit₁
  cases hDark.symm.trans hLit₂

end Step

------------------------------------------------------------
-- Runs
------------------------------------------------------------

/- Entering the loop forgets the held buttons. -/
theorem inFloorButtons_of_enter
    {d : BasicDriverInfo}
    {s s' : Loop}
    (hEnter : enter d s = .ok () s') :
    s'.inFloorButtons = .empty := by
  have hKeeps : Keeps inFloorButtons (initializeElevator d) :=
    keeps_initializeElevator (fun _ _ => rfl)
      (fun _ _ => rfl) (fun _ _ => rfl) (fun _ _ => rfl) d
  have hWp :
      wp (enter d) (fun _ s' => s'.inFloorButtons = .empty)
        (fun _ _ => True) s := by
    unfold enter
    simp only [wp_bind, wp_modify]
    apply hKeeps.wp _ fun _ _ _ => trivial
    intro _ t hSame
    simp only [wp_get, wp_when, wp_modify]
    split
    · exact hSame
    · exact hSame
  have hOk := wp_ok hWp hEnter
  exact hOk

namespace Run

section Timed

variable {d : BasicDriverInfo}
variable (run : Run d)

/- The inside button of the floor was held in the last
iteration since the loop was entered. -/
def HeldBefore : Nat → Int → Prop
  | 0, _ => False
  | n + 1, f =>
      Completes d (run.input n) (run.state n) ∧
        (run.input n).HoldsInside d f

/- The iteration opens the doors. -/
def OpensDoors
    (n : Nat) : Prop :=
  Completes d (run.input n) (run.state n) ∧
    ∃ currentFloor t,
      approach d (run.input n) (run.state n) =
          .ok currentFloor t ∧
        Opens d currentFloor t

/- The car leaves for its requests. -/
def Leaves
    (n : Nat) : Prop :=
  ∃ currentFloor t,
    approach d (run.input n) (run.state n) =
        .ok currentFloor t ∧
      SetsOff d currentFloor t

/-
  What shuts the doors in an iteration: a resume, an
  obstruction, an inside button that was not held before, the
  end of the time for which they have been open, or a
  departure of a car whose doors have been open since it was
  taken over.
-/
inductive ShutBy
    (n : Nat) : Prop where
  | resume
      (hResumes : Resumes (run.input n) (run.state n))
  | obstruction
      (hObstruction : (run.input n).getObstruction = true)
  | press
      (f : Int)
      (hNow : (run.input n).HoldsInside d f)
      (hBefore : ¬ run.HeldBefore n f)
  | timeout
      (m : Nat)
      (hBefore : m < n)
      (hOpens : run.OpensDoors m)
      (hWaits : ∀ k, m < k → k ≤ n →
        (run.state k).state = .waitingForInButton)
      (hLate :
        (run.input m).now .doorOpened + waitThreshold <
          (run.input n).now .doorTimeout)
  | leftOpen
      (m : Nat)
      (hBefore : m ≤ n)
      (hEntered : run.Entered m)
      (hLit : ∀ k, m ≤ k → k ≤ n →
        (run.state k).driver.doorOpenLamp = true)
      (hLeaves : run.Leaves n)

/- What the loop's variables say about the past. -/
structure Remembers
    (n : Nat) : Prop where
  held : ∀ f,
    f ∈ (run.state n).inFloorButtons.members d ↔
      run.HeldBefore n f
  waiting : (run.state n).state = .waitingForInButton →
    ∃ m < n, run.OpensDoors m ∧
      (run.state n).doorWaitingStarted =
        (run.input m).now .doorOpened ∧
      ∀ k, m < k → k ≤ n →
        (run.state k).state = .waitingForInButton
  normal : (run.state n).state = .normal →
    (run.state n).driver.doorOpenLamp = true →
      ∃ m ≤ n, run.Entered m ∧
        ∀ k, m ≤ k → k ≤ n →
          (run.state k).driver.doorOpenLamp = true

end Timed

variable {S : Shaft}
variable {run : Run S.toBasicDriverInfo}
variable {n : Nat}

/- The loop has been entered from some state. -/
theorem exists_enter
    {d : BasicDriverInfo}
    {run : Run d}
    (hn : n ≤ run.length)
    (hEntered : run.Entered n) :
    ∃ s, enter d s = .ok () (run.state n) := by
  cases n with
  | zero =>
      cases run.started with
      | fresh id driver hEnter => exact ⟨_, hEnter⟩
      | recovered id driver state hEnter => exact ⟨_, hEnter⟩
  | succ n =>
      cases run.next n hn with
      | iterate hRun => exact absurd ⟨_, hRun⟩ hEntered
      | restart e t _ _ hEnter => exact ⟨_, hEnter⟩

theorem remembers_of_entered
    (hn : n ≤ run.length)
    (hEntered : run.Entered n) :
    run.Remembers n := by
  rcases exists_enter hn hEntered with ⟨s, hEnter⟩
  refine ⟨?_, ?_, ?_⟩
  · intro f
    rw [inFloorButtons_of_enter hEnter, FloorSet.members_empty]
    refine iff_of_false (Finset.notMem_empty f) ?_
    cases n with
    | zero => exact id
    | succ n => exact fun hHeld => hEntered hHeld.1
  · intro hWaiting
    exact absurd hWaiting (car_of_enter hEnter).2
  · intro hNormal hLit
    refine ⟨n, Nat.le_refl n, hEntered, ?_⟩
    intro k hLow hHigh
    rw [Nat.le_antisymm hHigh hLow]
    exact hLit

/- A completed iteration remembers what it has done. -/
theorem remembers_succ
    (hn : n < run.length)
    (hCompletes : Completes S.toBasicDriverInfo
      (run.input n) (run.state n))
    (hRemembers : run.Remembers n) :
    run.Remembers (n + 1) := by
  rcases doorStep_of_loopBody
    (loopBody_of_completes hn hCompletes) with
    ⟨currentFloor, t, hStep⟩
  refine ⟨?_, ?_, ?_⟩
  · intro f
    have hHeld : (run.state (n + 1)).inFloorButtons =
        t.inFloorButtons :=
      congrArg Prod.snd hStep.held
    rw [hHeld, hStep.holds.members f]
    exact (and_iff_right hCompletes).symm
  · intro hWaiting
    rcases hStep.waits_cases hWaiting with
      ⟨hOpens, hStarted⟩ | ⟨hBefore, hStarted⟩
    · refine ⟨n, Nat.lt_succ_self n,
        ⟨hCompletes, currentFloor, t, hStep.approach, hOpens⟩,
        hStarted, ?_⟩
      intro k hLow hHigh
      rw [Nat.le_antisymm hHigh hLow]
      exact hWaiting
    · rcases hRemembers.waiting hBefore with
        ⟨m, hm, hOpened, hTimer, hSince⟩
      refine ⟨m, Nat.lt_succ_of_lt hm, hOpened,
        hStarted.trans hTimer, ?_⟩
      intro k hLow hHigh
      rcases Nat.le_succ_iff.mp hHigh with hOld | hNew
      · exact hSince k hLow hOld
      · rw [hNew]
        exact hWaiting
  · intro hNormal hLit
    rcases hStep.lit_before hNormal hLit with
      ⟨hNormalBefore, hLitBefore⟩
    rcases hRemembers.normal hNormalBefore hLitBefore with
      ⟨m, hm, hEntered, hSince⟩
    refine ⟨m, Nat.le_succ_of_le hm, hEntered, ?_⟩
    intro k hLow hHigh
    rcases Nat.le_succ_iff.mp hHigh with hOld | hNew
    · exact hSince k hLow hOld
    · rw [hNew]
      exact hLit

theorem remembers
    (hn : n ≤ run.length) :
    run.Remembers n := by
  induction n with
  | zero => exact remembers_of_entered hn trivial
  | succ n ih =>
      by_cases hCompletes : Completes S.toBasicDriverInfo
          (run.input n) (run.state n)
      · exact remembers_succ hn hCompletes
          (ih (Nat.le_of_succ_le hn))
      · exact remembers_of_entered hn hCompletes

/-
  In every run, an iteration in which the door-open lamp goes
  out has a cause: doors that have been opened at a floor are
  open for the whole threshold, unless an inside button is
  pressed, the car resumes, or the sensor is obstructed.
-/
theorem shutBy_of_dark
    (hn : n < run.length)
    (hCompletes : Completes S.toBasicDriverInfo
      (run.input n) (run.state n))
    (hLit : (run.state n).driver.doorOpenLamp = true)
    (hDark :
      (run.state (n + 1)).driver.doorOpenLamp = false) :
    run.ShutBy n := by
  have hRemembers := remembers (Nat.le_of_lt hn)
  rcases doorStep_of_loopBody
    (loopBody_of_completes hn hCompletes) with
    ⟨currentFloor, t, hStep⟩
  by_cases hResumes : Resumes (run.input n) (run.state n)
  · exact .resume hResumes
  rcases hStep.dark_cases hLit hDark with
    hResumed | hObstruction | hCloses | hLeft
  · exact absurd hResumed hResumes
  · exact .obstruction hObstruction
  · rcases hCloses with ⟨hWaiting, hPress | hTimeout⟩
    · rcases hStep.holds.hasAdditional_iff.mp hPress with
        ⟨f, hNow, hNew⟩
      refine .press f hNow fun hBefore => hNew ?_
      exact (hRemembers.held f).mpr hBefore
    · rcases hRemembers.waiting (hStep.of_waiting hWaiting)
        with ⟨m, hm, hOpens, hTimer, hSince⟩
      refine .timeout m hm hOpens hSince ?_
      have hLate := of_decide_eq_true hTimeout
      rw [hStep.started, hTimer] at hLate
      exact hLate
  · rcases hStep.of_normal hLeft.1 with hResumed | hNormal
    · exact absurd hResumed hResumes
    · rcases hRemembers.normal hNormal hLit with
        ⟨m, hm, hEntered, hSince⟩
      exact .leftOpen m hm hEntered hSince
        ⟨currentFloor, t, hStep.approach, hLeft⟩

end Run

/- The car is still at the floor after six seconds. -/
def lateAtFloor : Inputs :=
  { atFloor with now := fun _ => 6000 }

theorem lateAtFloor_iterations :
    ∃ s t u,
      enter twoFloors.toBasicDriverInfo
        (recover riderInside
          (create twoFloors.toBasicDriverInfo 0
            darkDriver)) = .ok () s ∧
      loopBody twoFloors.toBasicDriverInfo atFloor s =
        .ok () t ∧
      loopBody twoFloors.toBasicDriverInfo lateAtFloor t =
        .ok () u ∧
      t.driver.doorOpenLamp = true ∧
      u.driver.doorOpenLamp = false := by
  have hRun : ∃ s t,
      enter twoFloors.toBasicDriverInfo
        (recover riderInside
          (create twoFloors.toBasicDriverInfo 0
            darkDriver)) = .ok () s ∧
      loopBody twoFloors.toBasicDriverInfo atFloor s =
        .ok () t ∧
      wp (loopBody twoFloors.toBasicDriverInfo lateAtFloor)
        (fun _ u => t.driver.doorOpenLamp = true ∧
          u.driver.doorOpenLamp = false)
        (fun _ _ => False) t := by
    apply exists_iteration
    decide +kernel
  rcases hRun with ⟨s, t, hEnter, hFirst, hSecond⟩
  rcases exists_of_wp hSecond with ⟨_, u, hOk, hLit, hDark⟩
  exact ⟨s, t, u, hEnter, hFirst, hOk, hLit, hDark⟩

/- The doors that the first iteration opens are shut in the
second. -/
theorem shutBy_of_dark_lateAtFloor :
    ∃ run : Run twoFloors.toBasicDriverInfo,
      (run.state 1).driver.doorOpenLamp = true ∧
      (run.state 2).driver.doorOpenLamp = false ∧
      run.ShutBy 1 := by
  rcases lateAtFloor_iterations with
    ⟨s, t, u, hEnter, hFirst, hSecond, hLit, hDark⟩
  have hNext : ∀ n < 2,
      Step twoFloors.toBasicDriverInfo
        (if n = 0 then atFloor else lateAtFloor)
        (if n = 0 then s else if n = 1 then t else u)
        (if n + 1 = 0 then s
          else if n + 1 = 1 then t else u) := by
    intro n hn
    rcases Nat.le_one_iff_eq_zero_or_eq_one.mp
      (Nat.le_of_lt_succ hn) with rfl | rfl
    · exact Step.iterate hFirst
    · exact Step.iterate hSecond
  let run : Run twoFloors.toBasicDriverInfo :=
    ⟨fun n => if n = 0 then s else if n = 1 then t else u,
      fun n => if n = 0 then atFloor else lateAtFloor, 2,
      .recovered 0 darkDriver riderInside hEnter, hNext⟩
  have hCompletes : Completes twoFloors.toBasicDriverInfo
      (run.input 1) (run.state 1) :=
    ⟨u, hSecond⟩
  have hLast : 1 < run.length := Nat.one_lt_two
  exact ⟨run, hLit, hDark,
    Run.shutBy_of_dark hLast hCompletes hLit hDark⟩

end Loop

end ElevatorControl
