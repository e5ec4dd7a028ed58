import ElevatorControl.Loop.Departures

/-
  The published door state and the door-open lamp.

  Opening the doors, and closing them when the car has waited,
  writes the flag and the lamp together. A start of the car
  and a shutdown of the driver switch the lamp off and leave
  the flag. Entering the loop sets the flag for a lamp that
  is lit, and leaves it set for one that is not.

  Key definitions include:
    * `Loop.DoorsAgree`
    * `Loop.WritesDoors`
    * `Loop.ShutsLamp`
    * `Loop.Run.KeepsDoors`

  Key theorems include:
    * `Loop.doors_of_approach`
    * `Loop.doors_of_loopBody`
    * `Loop.Run.doorsAgree_iff`
-/

------------------------------------------------------------
-- Flag and Lamp
------------------------------------------------------------

namespace ElevatorControl

namespace Loop

open Exec Car

/- The published flag is set if and only if the lamp is
lit. -/
def DoorsAgree
    (s : Loop) : Prop :=
  s.elevState.doorOpen = true ↔ s.driver.doorOpenLamp = true

/- The stop button is pressed while the stop lamp is lit. -/
def Resumes
    (i : Inputs)
    (s : Loop) : Prop :=
  StopPressed i s ∧ s.driver.stopLamp = true

/- The car stops at the floor and opens its doors. -/
def Opens
    (d : BasicDriverInfo)
    (currentFloor : Int)
    (t : Loop) : Prop :=
  t.state = .normal ∧
    arrives d t.elevState currentFloor = .ok true

/- The doors close after a new inside press, or because they
have been open for too long. -/
def Closes
    (i : Inputs)
    (t : Loop) : Prop :=
  t.state = .waitingForInButton ∧
    (FloorSet.hasAdditional t.inFloorButtonsLast
        t.inFloorButtons = true ∨
      doorTimeout i t = true)

/- The car stands still, and leaves for its requests. -/
def SetsOff
    (d : BasicDriverInfo)
    (currentFloor : Int)
    (t : Loop) : Prop :=
  t.state = .normal ∧
    arrives d t.elevState currentFloor = .ok false ∧
    t.elevState.direction = .none ∧
    (allButtons t.elevState).hasAny = true

/- The iteration opens the doors, or closes them after it has
waited. -/
def WritesDoors
    (d : BasicDriverInfo)
    (i : Inputs)
    (s : Loop) : Prop :=
  ∃ currentFloor t,
    approach d i s = .ok currentFloor t ∧
      (Opens d currentFloor t ∨ Closes i t)

/- The iteration starts the car, or shuts the driver down. -/
def ShutsLamp
    (d : BasicDriverInfo)
    (i : Inputs)
    (s : Loop) : Prop :=
  Resumes i s ∨ i.getObstruction = true ∨
    ∃ currentFloor t,
      approach d i s = .ok currentFloor t ∧
        SetsOff d currentFloor t

------------------------------------------------------------
-- Approach
------------------------------------------------------------

section Approach

variable {d : BasicDriverInfo}
variable {i : Inputs}
variable {s t : Loop}

theorem callStable_doorOpen
    (v : Bool) :
    CallStable (fun s => s.elevState.doorOpen = v) where
  report _ _ _ _ hFlag := hFlag
  floor _ _ hFlag := hFlag
  halt _ hFlag := hFlag
  depart _ _ _ _ hFlag := hFlag
  indicator _ _ _ hFlag := hFlag
  hallLamp _ _ _ _ hFlag := hFlag
  calls x _ _ hFlag := by
    cases x with
    | up => exact hFlag
    | down => exact hFlag

theorem panelStable_doorOpen
    (v : Bool) :
    PanelStable (fun s => s.elevState.doorOpen = v) where
  lamp _ _ _ hFlag := hFlag
  inside _ _ hFlag := hFlag
  held _ _ hFlag := hFlag

theorem stopStable_doorOpen
    (v : Bool) :
    StopStable (fun s => s.elevState.doorOpen = v) where
  begin _ hFlag := hFlag
  sample _ _ hFlag := hFlag
  toggle _ _ hFlag := hFlag
  state _ _ hFlag := hFlag

/- Nothing before the local state writes the flag. -/
theorem keeps_doorOpen_approach :
    Keeps (fun s => s.elevState.doorOpen) (approach d i) :=
  Keeps.of_preserves fun v =>
    stable_approach (callStable_doorOpen v) d i
      (panelStable_doorOpen v) (stopStable_doorOpen v)
      fun _ _ hFlag => hFlag

/- A resume switches the lamp off. -/
theorem lamp_of_toggled
    (hToggled : Toggled d i s t) :
    t.driver.doorOpenLamp = true ↔
      s.driver.doorOpenLamp = true ∧ ¬ Resumes i s := by
  have hLamp : t.driver.doorOpenLamp = t.car.doorOpenLamp :=
    rfl
  rw [hLamp]
  cases hToggled with
  | ignored hPressed hCar hSigns =>
      rw [hCar]
      exact (and_iff_left fun hResumes =>
        hPressed hResumes.1).symm
  | stopped hPressed hDark hCar hSigns =>
      rw [hCar]
      refine (and_iff_left fun hResumes => ?_).symm
      exact Bool.false_ne_true (hDark.symm.trans hResumes.2)
  | resumed c hPressed hLit hStarts hCar hSigns =>
      rw [hCar]
      cases hStarts
      exact iff_of_false Bool.false_ne_true
        fun hKept => hKept.2 ⟨hPressed, hLit⟩

/- So does an obstruction. -/
theorem lamp_of_pollCommands :
    wp (pollCommands d i)
      (fun _ t => t.driver.doorOpenLamp = true ↔
        s.driver.doorOpenLamp = true ∧
          ¬ i.getObstruction = true)
      (fun _ _ => True) s := by
  have hCommand : ∀ t, wp (handleCommand d i)
      (fun _ u => u.driver.doorOpenLamp =
        t.driver.doorOpenLamp)
      (fun _ _ => True) t := by
    intro t
    apply wp_mono _ (fun _ _ _ => trivial)
      (keeps_car_handleCommand d i t)
    exact fun _ _ hCar => congrArg Car.doorOpenLamp hCar
  unfold pollCommands handleObstruction
  rw [wp_bind, wp_when]
  split
  · next hObstruction =>
      rcases Driver.shutdown_ok (d := d) (v := s.driver)
        with ⟨v, hShutdown, _, hDoor, _⟩
      rw [wp_callDriver_ok hShutdown]
      apply wp_mono _ (fun _ _ _ => trivial) (hCommand _)
      intro _ u hLamp
      rw [hLamp]
      refine iff_of_false ?_ fun hKept => hKept.2 hObstruction
      rw [hDoor]
      exact Bool.false_ne_true
  · next hClear =>
      apply wp_mono _ (fun _ _ _ => trivial) (hCommand _)
      intro _ u hLamp
      rw [hLamp]
      exact (and_iff_left hClear).symm

/- Before the local state the flag is kept, and the lamp is
switched off by a resume or an obstruction. -/
theorem doors_of_approach :
    wp (approach d i)
      (fun _ t =>
        t.elevState.doorOpen = s.elevState.doorOpen ∧
          (t.driver.doorOpenLamp = true ↔
            s.driver.doorOpenLamp = true ∧
              ¬ Resumes i s ∧ ¬ i.getObstruction = true))
      (fun _ _ => True) s := by
  have hLamp :
      wp (approach d i)
        (fun _ t => t.driver.doorOpenLamp = true ↔
          s.driver.doorOpenLamp = true ∧
            ¬ Resumes i s ∧ ¬ i.getObstruction = true)
        (fun _ _ => True) s := by
    unfold approach
    simp only [wp_bind]
    apply wp_mono _ (fun _ _ _ => trivial)
      (wp_pollButtons_toggled s)
    intro _ s₁ hToggled
    have hFirst := lamp_of_toggled hToggled
    apply wp_mono _ (fun _ _ _ => trivial)
      lamp_of_pollCommands
    intro _ s₂ hSecond
    apply wp_mono _ (fun _ _ _ => trivial)
      (refines_senseFloor d i s₂)
    intro _ s₃ hCar
    have hThird :
        s₃.driver.doorOpenLamp = s₂.driver.doorOpenLamp := by
      change s₃.car.doorOpenLamp = _
      rw [hCar]
      unfold sensed safetyStop
      split
      · rfl
      · rfl
    rw [hThird, hSecond, hFirst, and_assoc]
  apply wp_mono _ (fun _ _ _ => trivial)
    (wp_and (keeps_doorOpen_approach s) hLamp)
  exact fun _ _ hDoors => hDoors

end Approach

------------------------------------------------------------
-- Reaction
------------------------------------------------------------

section Reaction

variable {d : BasicDriverInfo}
variable {i : Inputs}
variable {currentFloor : Int}
variable {s t : Loop}

/- The published flag of the doors, and their lamp. -/
def doors
    (s : Loop) : Bool × Bool :=
  (s.elevState.doorOpen, s.driver.doorOpenLamp)

/- What keeps the flag and the car keeps the doors. -/
theorem keeps_doors
    {α : Type}
    {x : LoopM α}
    (hFlag : Keeps (fun s => s.elevState.doorOpen) x)
    (hCar : Keeps car x) :
    Keeps doors x := by
  intro s
  have hBoth : ∀ t : Loop,
      t.elevState.doorOpen = s.elevState.doorOpen ∧
        t.car = s.car →
      t.doors = s.doors := by
    rintro t ⟨hSame, hCar⟩
    exact Prod.ext hSame (congrArg Car.doorOpenLamp hCar)
  apply wp_mono _ _ (wp_and (hFlag s) (hCar s))
  · exact fun _ t => hBoth t
  · exact fun _ t => hBoth t

theorem keeps_doors_clearDirectionButtonLamp
    (now : MillisecondTime) :
    Keeps doors (clearDirectionButtonLamp d now) :=
  keeps_doors
    (Keeps.of_preserves fun v =>
      stable_clearDirectionButtonLamp (callStable_doorOpen v)
        d now)
    (keeps_car_clearDirectionButtonLamp now)

theorem keeps_doors_closeByTimeout :
    Keeps doors (closeByTimeout d i currentFloor) :=
  keeps_doors
    (Keeps.of_preserves fun v =>
      stable_closeByTimeout (callStable_doorOpen v) d i
        currentFloor)
    (keeps_car_closeByTimeout d i currentFloor)

theorem keeps_doors_finishCycle :
    Keeps doors (finishCycle i currentFloor) := by
  unfold finishCycle emitStateChange
  apply Keeps.bind keeps_get
  intro s
  apply Keeps.bind
  · exact keeps_when fun _ => keeps_modify fun _ => rfl
  · exact fun _ => keeps_modify fun _ => rfl

theorem doors_of_serveFloor :
    wp (serveFloor d i currentFloor)
      (fun _ u => u.doors = (true, true))
      (fun _ _ => True) t := by
  unfold serveFloor stopElevator emitStateChange
  apply wp_bind_of_forall _ fun _ _ => trivial
  intro _ s₁
  simp only [wp_bind, wp_modify]
  have hInside :
      Keeps doors (setInside d false currentFloor) :=
    keeps_setInside (fun _ _ => rfl) d false currentFloor
  apply hInside.wp
  · exact fun _ _ hDoors => hDoors
  · exact fun _ _ _ => trivial

/- A car that leaves switches the lamp off. -/
theorem doors_of_depart
    (hRequests : (allButtons t.elevState).hasAny = true) :
    wp (depart d i currentFloor)
      (fun _ u => u.doors = (t.elevState.doorOpen, false))
      (fun _ _ => True) t := by
  have hStarts :
      wp (startForRequests d i)
        (fun _ u => u.doors = (t.elevState.doorOpen, false))
        (fun _ _ => True) t := by
    unfold startForRequests
    simp only [wp_bind, wp_get]
    have hPriority : Keeps (fun s => s)
        (check (priorityFloorsInDirection d t.elevState
          t.previousDirection)) :=
      keeps_check _
    apply hPriority.wp
    · rintro priority _ rfl
      simp only [wp_ite, wp_startElevator]
      split
      · rfl
      · rfl
    · exact fun _ _ _ => trivial
  unfold depart emitStateChange
  simp only [wp_bind, wp_get, wp_when, wp_modify,
    if_pos hRequests]
  apply wp_mono _ (fun _ _ _ => trivial) hStarts
  intro _ s₁ hLeft
  apply (keeps_doors_clearDirectionButtonLamp _).wp
  · exact fun _ _ hDoors => hDoors.trans hLeft
  · exact fun _ _ _ => trivial

/- A car that has nowhere to go keeps its doors. -/
theorem doors_of_rest
    (hRequests : (allButtons t.elevState).hasAny = false) :
    wp (depart d i currentFloor)
      (fun _ u => u.doors = t.doors)
      (fun _ _ => True) t := by
  unfold depart
  simp only [wp_bind, wp_get, wp_when, hRequests,
    Bool.false_eq_true, if_false]
  apply (keeps_doors_clearDirectionButtonLamp _).wp
  · exact fun _ _ hDoors => hDoors
  · exact fun _ _ _ => trivial

/- What the local state makes of the doors. -/
structure DoorsAfter
    (d : BasicDriverInfo)
    (i : Inputs)
    (currentFloor : Int)
    (t u : Loop) : Prop where
  opened : Opens d currentFloor t → u.doors = (true, true)
  shut : Closes i t → u.doors = (false, false)
  left : SetsOff d currentFloor t →
    u.doors = (t.elevState.doorOpen, false)
  kept : ¬ Opens d currentFloor t → ¬ Closes i t →
    ¬ SetsOff d currentFloor t → u.doors = t.doors

/- An iteration that neither writes the doors nor leaves
keeps them. -/
theorem DoorsAfter.of_kept
    {u : Loop}
    (hPasses : ¬ Opens d currentFloor t)
    (hOpen : ¬ Closes i t)
    (hStays : ¬ SetsOff d currentFloor t)
    (hDoors : u.doors = t.doors) :
    DoorsAfter d i currentFloor t u where
  opened hOpens := absurd hOpens hPasses
  shut hCloses := absurd hCloses hOpen
  left hLeft := absurd hLeft hStays
  kept _ _ _ := hDoors

/- In the normal state the doors are not closed. -/
theorem not_closes_normal
    (hState : t.state = .normal) :
    ¬ Closes i t := by
  rintro ⟨hWaiting, _⟩
  rw [hState] at hWaiting
  cases hWaiting

/- The car stands still at a floor where it does not stop. -/
theorem doors_of_standing
    (hState : t.state = .normal)
    (hArrives :
      arrives d t.elevState currentFloor = .ok false)
    (hDirection : t.elevState.direction = .none) :
    wp (depart d i currentFloor)
      (fun _ u => DoorsAfter d i currentFloor t u)
      (fun _ _ => True) t := by
  have hOpen : ¬ Closes i t := not_closes_normal hState
  have hPasses : ¬ Opens d currentFloor t := by
    rintro ⟨_, hOpens⟩
    rw [hArrives] at hOpens
    cases hOpens
  cases hRequests : (allButtons t.elevState).hasAny with
  | true =>
      have hLeft : SetsOff d currentFloor t :=
        ⟨hState, hArrives, hDirection, hRequests⟩
      apply wp_mono _ (fun _ _ _ => trivial)
        (doors_of_depart hRequests)
      intro _ u hDoors
      exact
        { opened := fun hOpens => absurd hOpens hPasses
          shut := fun hCloses => absurd hCloses hOpen
          left := fun _ => hDoors
          kept := fun _ _ hNot => absurd hLeft hNot }
  | false =>
      have hStays : ¬ SetsOff d currentFloor t := by
        rintro ⟨_, _, _, hAny⟩
        rw [hRequests] at hAny
        cases hAny
      apply wp_mono _ (fun _ _ _ => trivial)
        (doors_of_rest hRequests)
      exact fun _ u hDoors =>
        DoorsAfter.of_kept hPasses hOpen hStays hDoors

theorem doors_of_handleNormal
    (hState : t.state = .normal) :
    wp (handleNormal d i currentFloor)
      (fun _ u => DoorsAfter d i currentFloor t u)
      (fun _ _ => True) t := by
  have hOpen : ¬ Closes i t := not_closes_normal hState
  unfold handleNormal
  simp only [wp_bind, wp_get]
  cases hArrives : arrives d t.elevState currentFloor with
  | error e => exact trivial
  | ok arrived =>
      rw [wp_check_ok]
      cases arrived with
      | true =>
          have hOpens : Opens d currentFloor t :=
            ⟨hState, hArrives⟩
          have hStays : ¬ SetsOff d currentFloor t := by
            rintro ⟨_, hPasses, _⟩
            rw [hArrives] at hPasses
            cases hPasses
          apply wp_mono _ (fun _ _ _ => trivial)
            doors_of_serveFloor
          intro _ u hDoors
          exact
            { opened := fun _ => hDoors
              shut := fun hCloses => absurd hCloses hOpen
              left := fun hLeft => absurd hLeft hStays
              kept := fun hNot => absurd hOpens hNot }
      | false =>
          rw [wp_ite, if_neg Bool.false_ne_true, wp_when]
          split
          · next hDirection =>
              exact doors_of_standing hState hArrives
                hDirection
          · next hMoves =>
              have hPasses : ¬ Opens d currentFloor t := by
                rintro ⟨_, hOpens⟩
                rw [hArrives] at hOpens
                cases hOpens
              exact DoorsAfter.of_kept hPasses hOpen
                (fun hLeft => hMoves hLeft.2.2.1) rfl

theorem doors_of_handleWaiting
    (hState : t.state = .waitingForInButton) :
    wp (handleWaiting d i currentFloor)
      (fun _ u => DoorsAfter d i currentFloor t u)
      (fun _ _ => True) t := by
  have hPasses : ¬ Opens d currentFloor t := fun hOpens =>
    LocalState.noConfusion (hState.symm.trans hOpens.1)
  have hStays : ¬ SetsOff d currentFloor t := fun hLeft =>
    LocalState.noConfusion (hState.symm.trans hLeft.1)
  unfold handleWaiting emitStateChange
  simp only [wp_bind, wp_get, wp_when, wp_modify]
  split
  · next hCloses =>
      have hShut : ∀ u : Loop, u.doors = (false, false) →
          DoorsAfter d i currentFloor t u := by
        intro u hDoors
        exact
          { opened := fun hOpens => absurd hOpens hPasses
            shut := fun _ => hDoors
            left := fun hLeft => absurd hLeft hStays
            kept := fun _ hNot =>
              absurd ⟨hState, hCloses⟩ hNot }
      rw [wp_ite]
      split
      · apply keeps_doors_closeByTimeout.wp
        · exact fun _ u hDoors => hShut u hDoors
        · exact fun _ _ _ => trivial
      · apply (keeps_doors_clearDirectionButtonLamp _).wp
        · exact fun _ u hDoors => hShut u hDoors
        · exact fun _ _ _ => trivial
  · next hOpen =>
      exact DoorsAfter.of_kept hPasses
        (fun hCloses => hOpen hCloses.2) hStays rfl

theorem doors_of_react :
    wp (react d i currentFloor)
      (fun _ u => DoorsAfter d i currentFloor t u)
      (fun _ _ => True) t := by
  have hHandles :
      wp (handleState d i currentFloor)
        (fun _ u => DoorsAfter d i currentFloor t u)
        (fun _ _ => True) t := by
    unfold handleState
    rw [wp_bind, wp_get]
    cases hState : t.state with
    | normal => exact doors_of_handleNormal hState
    | waitingForInButton =>
        exact doors_of_handleWaiting hState
    | stopped =>
        have hNot : ∀ state : LocalState, state ≠ .stopped →
            t.state ≠ state := by
          rintro state hOther rfl
          exact hOther hState
        exact DoorsAfter.of_kept
          (fun hOpens => hNot .normal (by decide) hOpens.1)
          (fun hCloses =>
            hNot .waitingForInButton (by decide) hCloses.1)
          (fun hLeft => hNot .normal (by decide) hLeft.1)
          rfl
  unfold react
  rw [wp_bind]
  apply wp_mono _ (fun _ _ _ => trivial) hHandles
  intro _ u hAfter
  apply keeps_doors_finishCycle.wp
  · intro _ v hDoors
    exact
      { opened := fun hOpens =>
          hDoors.trans (hAfter.opened hOpens)
        shut := fun hCloses =>
          hDoors.trans (hAfter.shut hCloses)
        left := fun hLeft =>
          hDoors.trans (hAfter.left hLeft)
        kept := fun hPasses hOpen hStays =>
          hDoors.trans (hAfter.kept hPasses hOpen hStays) }
  · exact fun _ _ _ => trivial

/- What the state before the local state says of the whole
iteration. -/
theorem writesDoors_iff
    (hApproach : approach d i s = .ok currentFloor t) :
    WritesDoors d i s ↔ Opens d currentFloor t ∨ Closes i t := by
  constructor
  · rintro ⟨_, _, hOther, hWrites⟩
    rw [hApproach] at hOther
    cases hOther
    exact hWrites
  · exact fun hWrites =>
      ⟨currentFloor, t, hApproach, hWrites⟩

theorem shutsLamp_iff
    (hApproach : approach d i s = .ok currentFloor t) :
    ShutsLamp d i s ↔
      Resumes i s ∨ i.getObstruction = true ∨
        SetsOff d currentFloor t := by
  unfold ShutsLamp
  apply or_congr_right
  apply or_congr_right
  constructor
  · rintro ⟨_, _, hOther, hSets⟩
    rw [hApproach] at hOther
    cases hOther
    exact hSets
  · exact fun hSets => ⟨currentFloor, t, hApproach, hSets⟩

/- A completed iteration is an approach and the local
state. -/
theorem doorsAfter_of_loopBody
    {u : Loop}
    (hRun : loopBody d i s = .ok () u) :
    ∃ currentFloor t,
      approach d i s = .ok currentFloor t ∧
        (t.elevState.doorOpen = s.elevState.doorOpen ∧
          (t.driver.doorOpenLamp = true ↔
            s.driver.doorOpenLamp = true ∧
              ¬ Resumes i s ∧ ¬ i.getObstruction = true)) ∧
        DoorsAfter d i currentFloor t u := by
  have hWp :
      wp (loopBody d i)
        (fun _ u => ∃ currentFloor t,
          approach d i s = .ok currentFloor t ∧
            (t.elevState.doorOpen = s.elevState.doorOpen ∧
              (t.driver.doorOpenLamp = true ↔
                s.driver.doorOpenLamp = true ∧
                  ¬ Resumes i s ∧
                  ¬ i.getObstruction = true)) ∧
            DoorsAfter d i currentFloor t u)
        (fun _ _ => True) s := by
    unfold loopBody
    rw [wp_bind]
    apply wp_mono _ (fun _ _ _ => trivial)
      (wp_and (wp_run _ s) doors_of_approach)
    rintro currentFloor t ⟨hApproach, hDoors⟩
    apply wp_mono _ (fun _ _ _ => trivial) doors_of_react
    exact fun _ u hAfter =>
      ⟨currentFloor, t, hApproach, hDoors, hAfter⟩
  have hOk := wp_ok hWp hRun
  exact hOk

/-
  What a completed iteration makes of the doors. It writes
  both the flag and the lamp, or it keeps the flag and
  switches the lamp off in a start or a shutdown.
-/
theorem doors_of_loopBody
    (hRun : loopBody d i s = .ok () t) :
    (WritesDoors d i s → DoorsAgree t) ∧
      (¬ WritesDoors d i s →
        t.elevState.doorOpen = s.elevState.doorOpen ∧
          (t.driver.doorOpenLamp = true ↔
            s.driver.doorOpenLamp = true ∧
              ¬ ShutsLamp d i s)) := by
  rcases doorsAfter_of_loopBody hRun with
    ⟨currentFloor, t₁, hApproach, ⟨hFlag, hLamp⟩, hAfter⟩
  rw [writesDoors_iff hApproach, shutsLamp_iff hApproach]
  constructor
  · rintro (hOpens | hCloses)
    · have hDoors := hAfter.opened hOpens
      exact iff_of_true (congrArg Prod.fst hDoors)
        (congrArg Prod.snd hDoors)
    · have hDoors := hAfter.shut hCloses
      refine iff_of_false ?_ ?_
      · exact (congrArg Prod.fst hDoors).trans_ne
          Bool.false_ne_true
      · exact (congrArg Prod.snd hDoors).trans_ne
          Bool.false_ne_true
  · intro hNot
    rcases not_or.mp hNot with ⟨hPasses, hOpen⟩
    by_cases hLeft : SetsOff d currentFloor t₁
    · have hDoors := hAfter.left hLeft
      refine ⟨(congrArg Prod.fst hDoors).trans hFlag, ?_⟩
      refine iff_of_false ?_ fun hKept =>
        hKept.2 (Or.inr (Or.inr hLeft))
      exact (congrArg Prod.snd hDoors).trans_ne
        Bool.false_ne_true
    · have hDoors := hAfter.kept hPasses hOpen hLeft
      have hSame : t.driver.doorOpenLamp =
          t₁.driver.doorOpenLamp :=
        congrArg Prod.snd hDoors
      refine ⟨(congrArg Prod.fst hDoors).trans hFlag, ?_⟩
      rw [hSame, hLamp, not_or, not_or, and_iff_left hLeft]

end Reaction

------------------------------------------------------------
-- Runs
------------------------------------------------------------

/- Entering the loop sets the flag for a lamp that is lit. -/
theorem doorOpen_of_enter
    {d : BasicDriverInfo}
    {s s' : Loop}
    (hEnter : enter d s = .ok () s')
    (hLit : s'.driver.doorOpenLamp = true) :
    s'.elevState.doorOpen = true := by
  have hShown :
      wp (initializeElevator d)
        (fun _ t => t.driver.doorOpenLamp = true →
          t.elevState.doorOpen = true)
        (fun _ _ => True) (freshLocals s) := by
    unfold initializeElevator
    apply wp_bind_of_forall _ fun _ _ => trivial
    intro _ s₁
    simp only [wp_bind, wp_get, wp_when, wp_modify]
    split
    all_goals
      split
      · exact fun _ => trivial
      · next hDark => exact fun hLit => absurd hLit hDark
  have hWp :
      wp (enter d)
        (fun _ t => t.driver.doorOpenLamp = true →
          t.elevState.doorOpen = true)
        (fun _ _ => True) s := by
    unfold enter
    simp only [wp_bind, wp_modify]
    apply wp_mono _ (fun _ _ _ => trivial) hShown
    intro _ t hFlag
    simp only [wp_get, wp_when, wp_modify]
    split
    · exact hFlag
    · exact hFlag
  have hOk := wp_ok hWp hEnter
  exact hOk hLit

namespace Run

variable {d : BasicDriverInfo}
variable (run : Run d)

/- The flag and the lamp agree at the end of every
iteration. -/
def DoorsAgreeAtEnds : Prop :=
  ∀ n < run.length,
    Completes d (run.input n) (run.state n) →
      DoorsAgree (run.state (n + 1))

/- The loop has just been entered, for the first time or
after a restart. -/
def Entered : Nat → Prop
  | 0 => True
  | n + 1 => ¬ Completes d (run.input n) (run.state n)

/-
  Unless it writes them both anyway, no iteration starts with
  a flag that is set for a dark lamp when the loop has been
  entered, and none starts the car or shuts the driver down
  while the flag is set.
-/
def KeepsDoors : Prop :=
  ∀ n < run.length,
    Completes d (run.input n) (run.state n) →
    ¬ WritesDoors d (run.input n) (run.state n) →
      (run.Entered n →
        (run.state n).elevState.doorOpen = true →
          (run.state n).driver.doorOpenLamp = true) ∧
      (ShutsLamp d (run.input n) (run.state n) →
        (run.state n).elevState.doorOpen = false)

variable {run}
variable {n : Nat}

theorem loopBody_of_completes
    (hn : n < run.length)
    (hCompletes : Completes d (run.input n) (run.state n)) :
    loopBody d (run.input n) (run.state n) =
      .ok () (run.state (n + 1)) := by
  rcases hCompletes with ⟨s', hOk⟩
  cases run.next n hn with
  | iterate hRun => exact hRun
  | restart e t hRun _ _ =>
      rw [hOk] at hRun
      cases hRun

theorem doorOpen_of_entered
    (hn : n ≤ run.length)
    (hEntered : run.Entered n)
    (hLit : (run.state n).driver.doorOpenLamp = true) :
    (run.state n).elevState.doorOpen = true := by
  cases n with
  | zero =>
      cases run.started with
      | fresh id driver hEnter =>
          exact doorOpen_of_enter hEnter hLit
      | recovered id driver state hEnter =>
          exact doorOpen_of_enter hEnter hLit
  | succ n =>
      cases run.next n hn with
      | iterate hRun => exact absurd ⟨_, hRun⟩ hEntered
      | restart e t _ _ hEnter =>
          exact doorOpen_of_enter hEnter hLit

/- An iteration keeps the agreement if it meets the
condition. -/
theorem doorsAgree_succ
    (hKeeps : run.KeepsDoors)
    (hn : n < run.length)
    (hCompletes : Completes d (run.input n) (run.state n))
    (hAgree : ¬ run.Entered n → DoorsAgree (run.state n)) :
    DoorsAgree (run.state (n + 1)) := by
  rcases doors_of_loopBody
    (loopBody_of_completes hn hCompletes) with
    ⟨hWrites, hOther⟩
  by_cases hWritten :
      WritesDoors d (run.input n) (run.state n)
  · exact hWrites hWritten
  · rcases hOther hWritten with ⟨hFlag, hLamp⟩
    rcases hKeeps n hn hCompletes hWritten with
      ⟨hStart, hShut⟩
    have hBefore : DoorsAgree (run.state n) := by
      by_cases hEntered : run.Entered n
      · exact ⟨hStart hEntered,
          doorOpen_of_entered (Nat.le_of_lt hn) hEntered⟩
      · exact hAgree hEntered
    unfold DoorsAgree at hBefore ⊢
    rw [hLamp, hFlag, ← hBefore]
    refine (and_iff_left_of_imp fun hOpen hShuts => ?_).symm
    exact Bool.false_ne_true
      ((hShut hShuts).symm.trans hOpen)

/-
  In a run the published flag agrees with the lamp at the end
  of every iteration exactly if all iterations meet the
  condition.
-/
theorem doorsAgree_iff
    (run : Run d) :
    run.DoorsAgreeAtEnds ↔ run.KeepsDoors := by
  constructor
  · intro hAgrees n hn hCompletes hWritten
    have hAfter := hAgrees n hn hCompletes
    rcases (doors_of_loopBody
      (loopBody_of_completes hn hCompletes)).2 hWritten with
      ⟨hFlag, hLamp⟩
    unfold DoorsAgree at hAfter
    rw [hLamp, hFlag] at hAfter
    constructor
    · exact fun _ hOpen => (hAfter.mp hOpen).1
    · intro hShuts
      by_contra hOpen
      exact (hAfter.mp (Bool.not_eq_false _ ▸ hOpen)).2
        hShuts
  · intro hKeeps n
    induction n with
    | zero =>
        intro hn hCompletes
        exact doorsAgree_succ hKeeps hn hCompletes
          fun hNot => absurd trivial hNot
    | succ n ih =>
        intro hn hCompletes
        apply doorsAgree_succ hKeeps hn hCompletes
        intro hNot
        exact ih (Nat.lt_of_succ_lt hn) (not_not.mp hNot)

end Run

------------------------------------------------------------
-- A Resume with Open Doors
------------------------------------------------------------

/- The stop lamp and the door-open lamp are lit. -/
def openDriver : Driver :=
  { litDriver with doorOpenLamp := true }

/- The stop button is pressed. -/
def stopButton : Inputs :=
  { idle with getStop := true }

/- The first iteration of a loop. -/
theorem exists_iteration
    {d : BasicDriverInfo}
    {i : Inputs}
    {s₀ : Loop}
    {P : Loop → Prop}
    (hRun :
      wp (enter d)
        (fun _ s =>
          wp (loopBody d i) (fun _ t => P t)
            (fun _ _ => False) s)
        (fun _ _ => False) s₀) :
    ∃ s t, enter d s₀ = .ok () s ∧
      loopBody d i s = .ok () t ∧ P t := by
  rcases exists_of_wp hRun with ⟨_, s, hEnter, hBody⟩
  rcases exists_of_wp hBody with ⟨_, t, hOk, hP⟩
  exact ⟨s, t, hEnter, hOk, hP⟩

theorem stopButton_iteration :
    ∃ s t,
      enter twoFloors.toBasicDriverInfo
        (create twoFloors.toBasicDriverInfo 0 openDriver) =
          .ok () s ∧
      loopBody twoFloors.toBasicDriverInfo stopButton s =
        .ok () t ∧
      t.elevState.doorOpen = true ∧
      t.driver.doorOpenLamp = false := by
  apply exists_iteration
  decide +kernel

/-
  The loop is entered by an elevator that has been stopped
  with open doors. When the stop button is pressed, the car
  starts with the lamp dark, and publishes open doors.
-/
theorem stopButton_publishes_open :
    ∃ run : Run twoFloors.toBasicDriverInfo,
      ¬ run.DoorsAgreeAtEnds := by
  rcases stopButton_iteration with
    ⟨s, t, hEnter, hOk, hOpen, hDark⟩
  refine ⟨⟨fun n => if n = 0 then s else t,
    fun _ => stopButton, 1, .fresh 0 openDriver hEnter,
    ?_⟩, ?_⟩
  · intro n hn
    rw [Nat.lt_one_iff.mp hn]
    exact Step.iterate hOk
  · intro hAgrees
    have hAgree : DoorsAgree t :=
      hAgrees 0 Nat.zero_lt_one ⟨t, hOk⟩
    have hLit := hAgree.mp hOpen
    rw [hDark] at hLit
    cases hLit

end Loop

end ElevatorControl
