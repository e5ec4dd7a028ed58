import ElevatorControl.Loop.Outlook

/-
  Where the car departs to.

  The motor is switched on when the stop button is pressed
  again, and when a car that stands still has requests. The
  direction is the one the end floors impose, the one the
  caller asks for, or the one the requests decide. Only the
  last of these looks at the requests, and it goes up when
  they are all at the floor the car leaves.

  Priority departures lead towards the inside request they
  are made for. The other starts lead towards work exactly
  if their outlook has some.

  Key definitions include:
    * `Loop.TowardsWork`
    * `Loop.HasWork`
    * `Outlook.HasWork`
    * `Loop.MotorStart`
    * `Loop.SeesWork`
    * `Loop.Run`

  Key theorems include:
    * `Loop.towardsWork_iff`
    * `Outlook.Shows.hasWork_iff`
    * `Loop.staysOff_loopBody`
    * `Loop.departure_hasWork_iff`
    * `Loop.Run.departsForWork_of_seesWork`
-/

------------------------------------------------------------
-- Work
------------------------------------------------------------

namespace ElevatorControl

namespace Loop

open Exec

/- The floor has a pending request. -/
def Pending
    (d : BasicDriverInfo)
    (s : ElevatorState)
    (f : Int) : Prop :=
  d.InRange f ∧
    (s.insideButtons.mem f d = true ∨
      s.upButtons.mem f d = true ∨
      s.downButtons.mem f d = true)

/- A request lies above the last floor. -/
def PendingAbove
    (d : BasicDriverInfo)
    (s : ElevatorState) : Prop :=
  ∃ f, Pending d s f ∧ s.lastFloor < f

/- A request lies below the last floor. -/
def PendingBelow
    (d : BasicDriverInfo)
    (s : ElevatorState) : Prop :=
  ∃ f, Pending d s f ∧ f < s.lastFloor

/- A request lies strictly beyond the last floor in the
direction of the motor. -/
def TowardsWork
    (d : BasicDriverInfo)
    (s : Loop) : Prop :=
  match s.driver.motor with
  | .up => PendingAbove d s.elevState
  | .down => PendingBelow d s.elevState
  | .none => False

/-
  What a start needs, from a published state with the floor
  the sensor has read and the direction the caller asks for.
  An imposed direction needs a request there. A free start
  needs a request above, or a floor to serve that is not the
  last one.
-/
def HasWork
    (d : BasicDriverInfo)
    (s : ElevatorState) : Prop :=
  match endFloorDirection d s with
  | .up => PendingAbove d s
  | .down => PendingBelow d s
  | .none =>
      PendingAbove d s ∨
        ∃ f, d.InRange f ∧
          (floorsToServe s).mem f d = true ∧
          f ≠ s.lastFloor

section Work

variable {d : BasicDriverInfo}
variable {e : ElevatorState}
variable {f : Int}

theorem pending_iff :
    Pending d e f ↔
      d.InRange f ∧ (allButtons e).mem f d = true := by
  unfold Pending allButtons
  rw [FloorSet.mem_union, FloorSet.mem_union,
    Bool.or_eq_true, Bool.or_eq_true, or_assoc]

/- The floors that decide a direction have requests. -/
theorem pending_of_floorsToServe
    (hRange : d.InRange f)
    (hServe : (floorsToServe e).mem f d = true) :
    Pending d e f := by
  unfold floorsToServe at hServe
  split at hServe
  · exact ⟨hRange, Or.inl hServe⟩
  · exact pending_iff.mpr ⟨hRange, hServe⟩

theorem exists_above_iff :
    0 < d.floors.countP (servesAbove d e) ↔
      ∃ f, d.InRange f ∧
        (floorsToServe e).mem f d = true ∧
        e.lastFloor < f := by
  rw [List.countP_pos_iff]
  simp only [servesAbove, Bool.and_eq_true,
    decide_eq_true_eq, BasicDriverInfo.mem_floors, gt_iff_lt]

theorem exists_below_iff :
    0 < d.floors.countP (servesBelow d e) ↔
      ∃ f, d.InRange f ∧
        (floorsToServe e).mem f d = true ∧
        f < e.lastFloor := by
  rw [List.countP_pos_iff]
  simp only [servesBelow, Bool.and_eq_true,
    decide_eq_true_eq, BasicDriverInfo.mem_floors]

/- What the majority of the floors to serve means. -/
theorem majority_cases
    (d : BasicDriverInfo)
    (e : ElevatorState) :
    (majority d e = .up ∧
        d.floors.countP (servesBelow d e) ≤
          d.floors.countP (servesAbove d e)) ∨
      (majority d e = .down ∧
        d.floors.countP (servesAbove d e) <
          d.floors.countP (servesBelow d e)) := by
  unfold majority
  rw [optimalDirection_counts]
  by_cases hMore :
      d.floors.countP (servesAbove d e) ≥
        d.floors.countP (servesBelow d e)
  · rw [if_pos hMore]
    exact Or.inl ⟨rfl, hMore⟩
  · rw [if_neg hMore]
    exact Or.inr ⟨rfl, Nat.lt_of_not_le hMore⟩

/-
  The majority goes up without a floor to serve above the
  last one only if there is none below, either.
-/
theorem majority_towards_iff :
    (match majority d e with
      | .up => PendingAbove d e
      | .down => PendingBelow d e
      | .none => False) ↔
      PendingAbove d e ∨
        ∃ f, d.InRange f ∧
          (floorsToServe e).mem f d = true ∧
          f ≠ e.lastFloor := by
  rcases majority_cases d e with
    ⟨hUp, hCounts⟩ | ⟨hDown, hCounts⟩
  · rw [hUp]
    constructor
    · exact Or.inl
    · rintro (hAbove | ⟨f, hRange, hServe, hOther⟩)
      · exact hAbove
      · have hSome : ∃ f, d.InRange f ∧
            (floorsToServe e).mem f d = true ∧
            e.lastFloor < f := by
          rcases Int.lt_or_gt_of_ne hOther with hLow | hHigh
          · have hBelow :=
              exists_below_iff.mpr ⟨f, hRange, hServe, hLow⟩
            exact exists_above_iff.mp
              (Nat.lt_of_lt_of_le hBelow hCounts)
          · exact ⟨f, hRange, hServe, hHigh⟩
        rcases hSome with ⟨g, hRange, hServe, hHigh⟩
        exact ⟨g, pending_of_floorsToServe hRange hServe,
          hHigh⟩
  · rw [hDown]
    rcases exists_below_iff.mp (Nat.zero_lt_of_lt hCounts)
      with ⟨f, hRange, hServe, hLow⟩
    exact iff_of_true
      ⟨f, pending_of_floorsToServe hRange hServe, hLow⟩
      (Or.inr ⟨f, hRange, hServe, Int.ne_of_lt hLow⟩)

/- A start leaves towards work exactly if it has work. -/
theorem towardsWork_iff
    {direction : Direction}
    {reading : Int}
    {s : Loop} :
    TowardsWork d (departed d direction reading s) ↔
      HasWork d (startState direction reading s) := by
  unfold TowardsWork
  rw [motor_departed]
  change
    (match startDirection d
        (startState direction reading s) with
      | .up => PendingAbove d (startState direction reading s)
      | .down =>
          PendingBelow d (startState direction reading s)
      | .none => False) ↔ _
  unfold startDirection HasWork
  cases hEnd :
      endFloorDirection d (startState direction reading s) with
  | none =>
      rw [if_pos rfl]
      exact majority_towards_iff
  | up => exact Iff.rfl
  | down => exact Iff.rfl

end Work

end Loop

------------------------------------------------------------
-- Work in an Outlook
------------------------------------------------------------

namespace Outlook

open Loop

/-
  The request draws a start from a floor that imposes no
  direction: it lies in the direction asked for, or it is one
  of the floors that decide a free start, or lies above.
-/
def Draws
    (d : BasicDriverInfo)
    (o : Outlook)
    (f : Int) : Prop :=
  match o.direction with
  | .up => o.floor < f
  | .down => f < o.floor
  | .none => o.serves d f = true ∨ o.floor < f

/- A request for another floor draws the car. -/
def HasWork
    (d : BasicDriverInfo)
    (o : Outlook) : Prop :=
  ∃ f, d.InRange f ∧ o.pending f = true ∧ f ≠ o.floor ∧
    (o.floor = d.minFloor ∨ o.floor = d.maxFloor ∨
      o.Draws d f)

section Work

variable {S : Shaft}
variable {e : ElevatorState}
variable {o : Outlook}

theorem Shows.pending_iff
    {f : Int}
    (hShows : Shows S.toBasicDriverInfo e o) :
    Pending S.toBasicDriverInfo e f ↔
      S.InRange f ∧ o.pending f = true := by
  rw [Loop.pending_iff]
  apply and_congr_right
  intro hf
  rw [hShows.pending f hf]

/- The requests above the floor are those of the outlook. -/
theorem Shows.pendingAbove_iff
    (hShows : Shows S.toBasicDriverInfo e o) :
    PendingAbove S.toBasicDriverInfo e ↔
      ∃ f, S.InRange f ∧ o.pending f = true ∧
        o.floor < f := by
  unfold PendingAbove
  simp only [hShows.pending_iff, hShows.floor, and_assoc]

theorem Shows.pendingBelow_iff
    (hShows : Shows S.toBasicDriverInfo e o) :
    PendingBelow S.toBasicDriverInfo e ↔
      ∃ f, S.InRange f ∧ o.pending f = true ∧
        f < o.floor := by
  unfold PendingBelow
  simp only [hShows.pending_iff, hShows.floor, and_assoc]

/- A state has work exactly if its outlook has. -/
theorem Shows.hasWork_iff
    (hShows : Shows S.toBasicDriverInfo e o) :
    Loop.HasWork S.toBasicDriverInfo e ↔
      o.HasWork S.toBasicDriverInfo := by
  have hOrdered := S.ordered
  unfold Loop.HasWork HasWork endFloorDirection
  rw [hShows.floor, hShows.direction]
  by_cases hMin : o.floor = S.minFloor
  · rw [if_pos hMin]
    dsimp only
    rw [hShows.pendingAbove_iff]
    constructor
    · rintro ⟨f, hf, hPending, hHigh⟩
      exact ⟨f, hf, hPending, Int.ne_of_gt hHigh,
        Or.inl hMin⟩
    · rintro ⟨f, hf, hPending, hNe, _⟩
      have hBottom := hf.1
      exact ⟨f, hf, hPending, by omega⟩
  · rw [if_neg hMin]
    by_cases hMax : o.floor = S.maxFloor
    · rw [if_pos hMax]
      dsimp only
      rw [hShows.pendingBelow_iff]
      constructor
      · rintro ⟨f, hf, hPending, hLow⟩
        exact ⟨f, hf, hPending, Int.ne_of_lt hLow,
          Or.inr (Or.inl hMax)⟩
      · rintro ⟨f, hf, hPending, hNe, _⟩
        have hTop := hf.2
        exact ⟨f, hf, hPending, by omega⟩
    · rw [if_neg hMax]
      simp only [hMin, hMax, false_or]
      unfold Draws
      cases o.direction with
      | up =>
          dsimp only
          rw [hShows.pendingAbove_iff]
          constructor
          · rintro ⟨f, hf, hPending, hHigh⟩
            exact ⟨f, hf, hPending, Int.ne_of_gt hHigh,
              hHigh⟩
          · rintro ⟨f, hf, hPending, _, hHigh⟩
            exact ⟨f, hf, hPending, hHigh⟩
      | down =>
          dsimp only
          rw [hShows.pendingBelow_iff]
          constructor
          · rintro ⟨f, hf, hPending, hLow⟩
            exact ⟨f, hf, hPending, Int.ne_of_lt hLow, hLow⟩
          · rintro ⟨f, hf, hPending, _, hLow⟩
            exact ⟨f, hf, hPending, hLow⟩
      | none =>
          dsimp only
          rw [hShows.pendingAbove_iff]
          constructor
          · rintro (⟨f, hf, hPending, hHigh⟩ |
              ⟨f, hf, hServe, hNe⟩)
            · exact ⟨f, hf, hPending, Int.ne_of_gt hHigh,
                Or.inr hHigh⟩
            · have hPending :=
                pending_of_floorsToServe hf hServe
              rw [hShows.pending_iff] at hPending
              rw [hShows.mem_floorsToServe hf] at hServe
              exact ⟨f, hf, hPending.2, hNe, Or.inl hServe⟩
          · rintro ⟨f, hf, hPending, hNe, hServe | hHigh⟩
            · rw [← hShows.mem_floorsToServe hf] at hServe
              exact Or.inr ⟨f, hf, hServe, hNe⟩
            · exact Or.inl ⟨f, hf, hPending, hHigh⟩

end Work

end Outlook

------------------------------------------------------------
-- Starts of the Motor
------------------------------------------------------------

namespace Loop

open Exec

/-
  A call of `_startElevator` in an iteration: the state in
  which it is called, the direction it is asked for, and what
  it reads from the sensor. The iteration may fail an
  assertion after it.
-/
inductive MotorStart
    (d : BasicDriverInfo)
    (i : Inputs)
    (s : Loop) : Loop → Direction → Int → Prop where
  | resume
      {t u : Loop}
      (hPolled :
        (do
          beginCycle
          assertConsistency d
          handleButtons d i : LoopM Unit) s = .ok () t)
      (hPressed : i.getStop = true ∧ i.getStop ≠ t.stopLast)
      (hToggled :
        (do
          modify fun s => { s with stopNow := i.getStop }
          toggleStop : LoopM Unit) t = .ok () u)
      (hMoves : ¬ u.elevState.stopped) :
      MotorStart d i s u u.previousDirection
        (i.getFloor .resume)
  | depart
      {t : Loop}
      {currentFloor : Int}
      {priority : Bool}
      (hApproach : approach d i s = .ok currentFloor t)
      (hState : t.state = .normal)
      (hArrives :
        arrives d t.elevState currentFloor = .ok false)
      (hDirection : t.elevState.direction = .none)
      (hRequests : (allButtons t.elevState).hasAny = true)
      (hPriority :
        priorityFloorsInDirection d t.elevState
          t.previousDirection = .ok priority) :
      MotorStart d i s t
        (if priority then t.previousDirection else .none)
        (i.getFloor .depart)

/- The motor is not switched on. -/
def StaysOff
    (s s' : Loop) : Prop :=
  s'.driver.motor = .none ∨
    s'.driver.motor = s.driver.motor

section Starts

variable {d : BasicDriverInfo}
variable {i : Inputs}
variable {s t : Loop}

theorem StaysOff.of_car
    (hCar : t.car = s.car) :
    StaysOff s t :=
  Or.inr (congrArg Car.motor hCar)

theorem StaysOff.trans
    {u : Loop}
    (hFirst : StaysOff s t)
    (hSecond : StaysOff t u) :
    StaysOff s u := by
  rcases hSecond with hOff | hSame
  · exact Or.inl hOff
  · unfold StaysOff
    rw [hSame]
    exact hFirst

theorem staysOff_pollButtons
    (hNone : ∀ t direction reading,
      ¬ MotorStart d i s t direction reading) :
    wp (pollButtons d i) (fun _ t => StaysOff s t)
      (fun _ t => StaysOff s t) s := by
  have hPanel : Keeps car
      (do
        beginCycle
        assertConsistency d
        handleButtons d i : LoopM Unit) := by
    have hBegin : Keeps car beginCycle :=
      keeps_modify fun _ => rfl
    apply Keeps.bind hBegin
    intro _
    apply Keeps.bind (keeps_assertConsistency d)
    exact fun _ => keeps_handleButtons ignoresPanel_car d i
  have hSplit : pollButtons d i =
      ((do
        beginCycle
        assertConsistency d
        handleButtons d i : LoopM Unit) >>=
          fun _ => handleStop d i) := by
    simp only [pollButtons, bind_assoc]
  rw [hSplit, wp_bind]
  apply wp_mono _ _ (wp_and (wp_run _ s) (hPanel s))
  · rintro _ t ⟨hPolled, hCar⟩
    unfold handleStop
    simp only [wp_bind, wp_modify, wp_get, wp_when]
    split
    · next hPressed =>
        unfold toggleStop
        simp only [wp_modify, wp_ite]
        split
        · apply wp_mono _ _ (moves_stopPressed i _)
          all_goals
            intro _ u hMove
            exact Or.inl (congrArg Car.motor hMove)
        · next hMoves =>
            exact absurd
              (MotorStart.resume hPolled hPressed rfl hMoves)
              (hNone _ _ _)
    · exact StaysOff.of_car hCar
  · exact fun _ _ h => StaysOff.of_car h.2

/- Between the stop button and the local state the motor can
only be stopped. -/
theorem staysOff_approach
    (hNone : ∀ t direction reading,
      ¬ MotorStart d i s t direction reading) :
    wp (approach d i) (fun _ t => StaysOff s t)
      (fun _ t => StaysOff s t) s := by
  have hCommands : ∀ t, wp (pollCommands d i)
      (fun _ t' => StaysOff t t') (fun _ t' => StaysOff t t')
      t := by
    intro t
    apply wp_mono _ _ (refines_pollCommands d i t)
    all_goals
      intro _ t' hMove
      generalize hCar : t'.car = c at hMove
      cases hMove with
      | ignored => exact StaysOff.of_car hCar
      | obstructed _ => exact Or.inl (congrArg Car.motor hCar)
  have hSenses : ∀ t, wp (senseFloor d i)
      (fun _ t' => StaysOff t t') (fun _ t' => StaysOff t t')
      t := by
    intro t
    apply wp_mono _ _ (refines_senseFloor d i t)
    all_goals
      intro _ t' hMove
      have hMotor := congrArg Car.motor hMove
      unfold Car.sensed Car.safetyStop at hMotor
      split at hMotor
      · exact Or.inl hMotor
      · exact Or.inr hMotor
  unfold approach
  simp only [wp_bind]
  apply wp_mono _ (fun _ _ hOff => hOff)
    (staysOff_pollButtons hNone)
  intro _ s₁ hPolled
  apply wp_mono _ (fun _ _ hOff => hPolled.trans hOff)
    (hCommands s₁)
  intro _ s₂ hCommanded
  apply wp_mono _ _ (hSenses s₂)
  all_goals
    exact fun _ _ hOff =>
      (hPolled.trans hCommanded).trans hOff

theorem staysOff_handleNormal
    {currentFloor : Int}
    (hNone : ∀ t direction reading,
      ¬ MotorStart d i s t direction reading)
    (hApproach : approach d i s = .ok currentFloor t)
    (hState : t.state = .normal) :
    wp (handleNormal d i currentFloor)
      (fun _ u => StaysOff t u) (fun _ u => StaysOff t u)
      t := by
  unfold handleNormal
  simp only [wp_bind, wp_get]
  cases hArrives : arrives d t.elevState currentFloor with
  | error e => exact Or.inr rfl
  | ok arrived =>
      rw [wp_check_ok]
      cases arrived with
      | true =>
          apply wp_mono _ _ (moves_serveFloor d i _ t)
          all_goals
            rintro _ u (hCar | hCar)
            · exact StaysOff.of_car hCar
            · exact Or.inl (congrArg Car.motor hCar)
      | false =>
          rw [wp_ite, if_neg Bool.false_ne_true, wp_when]
          split
          · next hDirection =>
              unfold depart startForRequests
              simp only [wp_bind, wp_get, wp_when]
              split
              · next hRequests =>
                  cases hPriority :
                      priorityFloorsInDirection d t.elevState
                        t.previousDirection with
                  | error e => exact Or.inr rfl
                  | ok priority =>
                      exact absurd
                        (MotorStart.depart hApproach hState
                          hArrives hDirection hRequests
                          hPriority)
                        (hNone _ _ _)
              · apply wp_mono _ _
                  (keeps_car_clearDirectionButtonLamp _ t)
                all_goals
                  exact fun _ _ hCar => StaysOff.of_car hCar
          · exact Or.inr rfl

/-
  These are all starts: an iteration without one does not
  switch the motor on.
-/
theorem staysOff_loopBody
    (hNone : ∀ t direction reading,
      ¬ MotorStart d i s t direction reading) :
    wp (loopBody d i) (fun _ s' => StaysOff s s')
      (fun _ s' => StaysOff s s') s := by
  unfold loopBody
  rw [wp_bind]
  apply wp_mono _ (fun _ _ hOff => hOff.2)
    (wp_and (wp_run _ s) (staysOff_approach hNone))
  rintro currentFloor t ⟨hApproach, hOff⟩
  have hState : wp (handleState d i currentFloor)
      (fun _ u => StaysOff t u) (fun _ u => StaysOff t u)
      t := by
    unfold handleState
    rw [wp_bind, wp_get]
    cases hState : t.state with
    | normal =>
        exact staysOff_handleNormal hNone hApproach hState
    | waitingForInButton =>
        apply wp_mono _ _
          (refines_handleWaiting d i currentFloor t hState)
        all_goals
          intro _ u hMove
          generalize hCar : u.car = c at hMove
          cases hMove with
          | rested => exact StaysOff.of_car hCar
          | served hNormal =>
              exact absurd (hState.symm.trans hNormal)
                (by decide)
          | left _ hNormal _ _ =>
              exact absurd (hState.symm.trans hNormal)
                (by decide)
          | shut _ => exact Or.inr (congrArg Car.motor hCar)
    | stopped => exact Or.inr rfl
  unfold react
  rw [wp_bind]
  apply wp_mono _ (fun _ _ hLast => hOff.trans hLast) hState
  intro _ u hLast
  apply wp_mono _ _ (keeps_car_finishCycle i currentFloor u)
  all_goals
    exact fun _ _ hCar =>
      (hOff.trans hLast).trans (StaysOff.of_car hCar)

end Starts

------------------------------------------------------------
-- Departures
------------------------------------------------------------

section Departures

variable {S : Shaft}
variable {i : Inputs}
variable {currentFloor : Int}
variable {e : ElevatorState}
variable {s t : Loop}

/- An end floor imposes the direction of all other floors. -/
theorem endFloorDirection_cases
    (S : Shaft)
    (e : ElevatorState) :
    (e.lastFloor = S.minFloor ∧
        endFloorDirection S.toBasicDriverInfo e = .up) ∨
      (e.lastFloor = S.maxFloor ∧
        endFloorDirection S.toBasicDriverInfo e = .down) ∨
      endFloorDirection S.toBasicDriverInfo e =
        e.direction := by
  have hOrdered := S.ordered
  unfold endFloorDirection
  by_cases hMin : e.lastFloor = S.minFloor
  · exact Or.inl ⟨hMin, if_pos hMin⟩
  · rw [if_neg hMin]
    by_cases hMax : e.lastFloor = S.maxFloor
    · exact Or.inr (Or.inl ⟨hMax, if_pos hMax⟩)
    · exact Or.inr (Or.inr (if_neg hMax))

/- Work is a request from another floor than the last one. -/
theorem HasWork.elsewhere
    {d : BasicDriverInfo}
    (hWork : HasWork d e) :
    ∃ f, Pending d e f ∧ f ≠ e.lastFloor := by
  unfold HasWork at hWork
  split at hWork
  · rcases hWork with ⟨f, hPending, hHigh⟩
    exact ⟨f, hPending, Int.ne_of_gt hHigh⟩
  · rcases hWork with ⟨f, hPending, hLow⟩
    exact ⟨f, hPending, Int.ne_of_lt hLow⟩
  · rcases hWork with
      ⟨f, hPending, hHigh⟩ | ⟨f, hf, hServe, hNe⟩
    · exact ⟨f, hPending, Int.ne_of_gt hHigh⟩
    · exact ⟨f, pending_of_floorsToServe hf hServe, hNe⟩

/-
  An inside request in the direction the caller asks for is
  work, also where an end floor imposes one.
-/
theorem hasWork_of_priority
    {direction : Direction}
    (hFloor : S.InRange e.lastFloor)
    (hWithin : e.insideButtons.Within S.toBasicDriverInfo)
    (hAhead :
      liesAhead S.toBasicDriverInfo e direction = true) :
    HasWork S.toBasicDriverInfo
      { e with direction := direction } := by
  unfold HasWork
  cases direction with
  | none => cases hAhead
  | up =>
      rcases (FloorSet.someHigher_iff S hFloor hWithin).mp
        hAhead with ⟨f, hf, hHigh, hMem⟩
      have hAbove : PendingAbove S.toBasicDriverInfo
          { e with direction := .up } :=
        ⟨f, ⟨hf, Or.inl hMem⟩, hHigh⟩
      rcases endFloorDirection_cases S
        { e with direction := .up } with
        ⟨_, hUp⟩ | ⟨hMax, _⟩ | hUp
      · rw [hUp]
        exact hAbove
      · have hTop : f ≤ S.maxFloor := hf.2
        exact absurd (hMax ▸ hHigh) (Int.not_lt.mpr hTop)
      · rw [hUp]
        exact hAbove
  | down =>
      rcases (FloorSet.someLower_iff S hFloor).mp hAhead with
        ⟨f, hf, hLow, hMem⟩
      have hBelow : PendingBelow S.toBasicDriverInfo
          { e with direction := .down } :=
        ⟨f, ⟨hf, Or.inl hMem⟩, hLow⟩
      rcases endFloorDirection_cases S
        { e with direction := .down } with
        ⟨hMin, _⟩ | ⟨_, hDown⟩ | hDown
      · have hBottom : S.minFloor ≤ f := hf.1
        exact absurd (hMin ▸ hLow) (Int.not_lt.mpr hBottom)
      · rw [hDown]
        exact hBelow
      · rw [hDown]
        exact hBelow

/-
  A free start from a floor without inside request has work
  unless all requests are at this floor.
-/
theorem hasWork_free_iff
    (hWithin : e.insideButtons.Within S.toBasicDriverInfo)
    (hOther :
      e.insideButtons.mem e.lastFloor S.toBasicDriverInfo =
        false) :
    HasWork S.toBasicDriverInfo
        { e with direction := .none } ↔
      ∃ f, Pending S.toBasicDriverInfo e f ∧
        f ≠ e.lastFloor := by
  constructor
  · exact HasWork.elsewhere
  · rintro ⟨f, hPending, hNe⟩
    unfold HasWork
    rcases endFloorDirection_cases S
      { e with direction := .none } with
      ⟨hMin, hUp⟩ | ⟨hMax, hDown⟩ | hFree
    · rw [hUp]
      have hBottom : e.lastFloor ≤ f :=
        Int.le_trans (Int.le_of_eq hMin) hPending.1.1
      exact ⟨f, hPending,
        Int.lt_iff_le_and_ne.mpr ⟨hBottom, hNe.symm⟩⟩
    · rw [hDown]
      have hTop : f ≤ e.lastFloor :=
        Int.le_trans hPending.1.2 (Int.le_of_eq hMax.symm)
      exact ⟨f, hPending,
        Int.lt_iff_le_and_ne.mpr ⟨hTop, hNe⟩⟩
    · rw [hFree]
      right
      cases hAny : e.insideButtons.hasAny with
      | true =>
          rcases (FloorSet.hasAny_iff S hWithin).mp hAny with
            ⟨g, hg, hMem⟩
          refine ⟨g, hg, ?_, ?_⟩
          · simp only [floorsToServe, hAny, if_true]
            exact hMem
          · rintro rfl
            exact absurd (hOther.symm.trans hMem)
              Bool.false_ne_true
      | false =>
          refine ⟨f, hPending.1, ?_, hNe⟩
          simp only [floorsToServe, hAny, Bool.false_eq_true,
            if_false]
          exact (pending_iff.mp hPending).2

/- Reading the last floor again, or none, sets only the
direction. -/
theorem startState_of_steady
    {direction : Direction}
    {reading : Int}
    (hSteady : reading = intMin ∨
      reading = s.elevState.lastFloor) :
    startState direction reading s =
      { s.elevState with direction := direction } := by
  have hSame :
      (if reading ≠ intMin then reading
        else s.elevState.lastFloor) =
        s.elevState.lastFloor := by
    rcases hSteady with hNone | hRead
    · exact if_neg (not_not_intro hNone)
    · rw [hRead]
      exact ite_self _
  unfold startState floorUpdated
  dsimp only
  rw [hSame]

/-
  A departure from a floor the sensor knows, and goes on to
  read or loses, has work unless all requests are at this
  floor.
-/
theorem departure_hasWork_iff
    {priority : Bool}
    (hApproach :
      approach S.toBasicDriverInfo i s = .ok currentFloor t)
    (hKnown : i.getFloor .loop ≠ intMin)
    (hSteady : i.getFloor .depart = intMin ∨
      i.getFloor .depart = i.getFloor .loop)
    (hArrives :
      arrives S.toBasicDriverInfo t.elevState
        (i.getFloor .loop) = .ok false)
    (hPriority :
      priorityFloorsInDirection S.toBasicDriverInfo
        t.elevState t.previousDirection = .ok priority) :
    HasWork S.toBasicDriverInfo
        (startState
          (if priority then t.previousDirection else .none)
          (i.getFloor .depart) t) ↔
      ∃ f, Pending S.toBasicDriverInfo t.elevState f ∧
        f ≠ t.elevState.lastFloor := by
  have hInformed : Informed S.toBasicDriverInfo i s t := by
    have hOk := wp_ok (wp_approach_informed s) hApproach
    exact hOk
  have hWithin := hInformed.within
  have hLast := lastFloor_of_approach hApproach hKnown
  have hFloor : S.InRange t.elevState.lastFloor := by
    rw [hLast]
    exact hInformed.sensed hKnown
  rw [startState_of_steady (by rwa [hLast])]
  cases priority with
  | true =>
      have hAhead : liesAhead S.toBasicDriverInfo t.elevState
          t.previousDirection = true := by
        rw [priorityFloorsInDirection_eq hFloor] at hPriority
        exact Except.ok.inj hPriority
      have hWork : HasWork S.toBasicDriverInfo
          { t.elevState with
            direction := t.previousDirection } :=
        hasWork_of_priority hFloor hWithin hAhead
      exact iff_of_true hWork hWork.elsewhere
  | false =>
      apply hasWork_free_iff hWithin
      rw [arrives, if_pos hKnown, ← hLast,
        shouldStop_eq hFloor] at hArrives
      have hStops := Except.ok.inj hArrives
      unfold stopsAt at hStops
      exact (Bool.or_eq_false_iff.mp hStops).1

end Departures

------------------------------------------------------------
-- Starts from Given States
------------------------------------------------------------

/- What a car that is started again by the stop button
departs from: the buttons have been polled, and the command
is still to come. -/
def resumption
    (d : BasicDriverInfo)
    (i : Inputs)
    (s : Loop) : Outlook where
  floor :=
    Car.floorAfter (i.getFloor .resume) s.elevState.lastFloor
  direction := s.previousDirection
  inside := asksInside d i s
  pending f :=
    asksInside d i s f || called d .up f s ||
      called d .down f s

/-
  The starts of an iteration have work. A car that is started
  by the stop button is drawn by a request. An idle car needs
  a request for another floor when it departs from a floor
  that the loop has read, and none when it departs for an
  inside request in its last direction; from a floor that it
  has not read, or that the sensor tells as it departs, it is
  drawn by a request. So is a car that overshoots and departs
  from another floor than the end floor.
-/
structure SeesWork
    (d : BasicDriverInfo)
    (i : Inputs)
    (s : Loop) : Prop where
  resumes : StopPressed i s → s.driver.stopLamp = true →
    (resumption d i s).HasWork d
  departs : Idle i s → ¬ StopsHere d i s →
    (∃ f, d.InRange f ∧ asks d i s f = true) →
    i.getFloor .loop ≠ intMin →
    leftFloor i s = seenFloor i s →
    priorityAhead d i s = false →
      ∃ f, d.InRange f ∧ asks d i s f = true ∧
        f ≠ i.getFloor .loop
  drifts : Idle i s → ¬ StopsHere d i s →
    (∃ f, d.InRange f ∧ asks d i s f = true) →
    leftFloor i s ≠ seenFloor i s ∨
        i.getFloor .loop = intMin ∧
          priorityAhead d i s = false →
      (departure d i s).HasWork d
  jumps : Overshoots d i s →
    (∃ f, d.InRange f ∧ asks d i s f = true) →
    leftFloor i s ≠ seenFloor i s →
      (jump d i s).HasWork d

section Given

variable {S : Shaft}
variable {i : Inputs}
variable {s t u : Loop}
variable {currentFloor : Int}

/- What polling the buttons leaves as it is. -/
theorem ignoresPanel_stopPanel_calls :
    IgnoresPanel (fun s =>
      (s.stopPanel, s.previousDirection, s.allCalls)) where
  lamp _ _ := rfl
  inside s buttons := by
    have hCalls :
        ({ s with elevState.insideButtons := buttons } :
          Loop).allCalls = s.allCalls :=
      allCalls_withInside
    rw [hCalls]
    rfl
  held _ _ := rfl
  report _ _ _ _ := rfl

/- The state in which the stop button is handled. -/
theorem wp_polled
    (s : Loop) :
    wp (do
        beginCycle
        assertConsistency S.toBasicDriverInfo
        handleButtons S.toBasicDriverInfo i : LoopM Unit)
      (fun _ t =>
        (t.stopPanel, t.previousDirection, t.allCalls) =
          ({ s.stopPanel with stopLast := s.stopNow },
            s.previousDirection, s.allCalls) ∧
        t.elevState.insideButtons.Within
          S.toBasicDriverInfo ∧
        ∀ f, S.InRange f →
          requested S.toBasicDriverInfo f t =
            asksInside S.toBasicDriverInfo i s f)
      (fun _ _ => True) s := by
  unfold beginCycle
  simp only [wp_bind, wp_modify]
  apply wp_mono _ (fun _ _ _ => trivial)
    (wp_assertConsistency_checked _)
  rintro _ s₁ ⟨rfl, _, hWithin, _⟩
  apply wp_mono _ (fun _ _ _ => trivial)
    (wp_and
      (keeps_handleButtons ignoresPanel_stopPanel_calls
        S.toBasicDriverInfo i _)
      (wp_handleButtons_polls (genFloorButtons _) _
        fun b hb => inRange_of_mem_genFloorButtons hb))
  rintro _ t ⟨hSame, hPolls⟩
  exact ⟨hSame, hPolls.within hWithin,
    fun f hf => hPolls.requested_eq hf⟩

/- A car that is started by the stop button shows the
requests before the command. -/
theorem shows_resumption
    (hPolled :
      (do
        beginCycle
        assertConsistency S.toBasicDriverInfo
        handleButtons S.toBasicDriverInfo i : LoopM Unit) s =
          .ok () t)
    (hToggled :
      (do
        modify fun s => { s with stopNow := i.getStop }
        toggleStop : LoopM Unit) t = .ok () u) :
    Outlook.Shows S.toBasicDriverInfo
      (startState u.previousDirection (i.getFloor .resume) u)
      (resumption S.toBasicDriverInfo i s) := by
  have hOk := wp_ok (wp_polled s) hPolled
  rcases hOk with ⟨hSame, hWithin, hInside⟩
  have hCalls : t.allCalls = s.allCalls :=
    congrArg (fun v => v.2.2) hSame
  have hPrevious :
      t.previousDirection = s.previousDirection :=
    congrArg (fun v => v.2.1) hSame
  have hLast :
      t.elevState.lastFloor = s.elevState.lastFloor :=
    congrArg (fun v => v.1.car.lastFloor) hSame
  cases hToggled
  refine ⟨?_, hPrevious, ?_, ?_, hWithin⟩
  · change Car.floorAfter (i.getFloor .resume)
      t.elevState.lastFloor = _
    rw [hLast]
    rfl
  · exact hInside
  · intro f hf
    have hUp : t.elevState.upButtons.mem f
        S.toBasicDriverInfo = _ :=
      called_congr hCalls .up f
    have hDown : t.elevState.downButtons.mem f
        S.toBasicDriverInfo = _ :=
      called_congr hCalls .down f
    have hRider : t.elevState.insideButtons.mem f
        S.toBasicDriverInfo = _ :=
      hInside f hf
    change (allButtons t.elevState).mem f
      S.toBasicDriverInfo = _
    unfold allButtons
    rw [FloorSet.mem_union, FloorSet.mem_union, hUp, hDown,
      hRider]
    rfl

/- A car is started where the stop lamp has been lit. -/
theorem stopPressed_of_resume
    (hPolled :
      (do
        beginCycle
        assertConsistency S.toBasicDriverInfo
        handleButtons S.toBasicDriverInfo i : LoopM Unit) s =
          .ok () t)
    (hPressed : i.getStop = true ∧ i.getStop ≠ t.stopLast)
    (hToggled :
      (do
        modify fun s => { s with stopNow := i.getStop }
        toggleStop : LoopM Unit) t = .ok () u)
    (hMoves : ¬ u.elevState.stopped) :
    StopPressed i s ∧ s.driver.stopLamp = true := by
  have hOk := wp_ok (wp_polled s) hPolled
  have hPanel := congrArg (fun v => v.1) hOk.1
  have hLast : t.stopLast = s.stopNow :=
    congrArg StopPanel.stopLast hPanel
  have hLamp : t.driver.stopLamp = s.driver.stopLamp :=
    congrArg (fun v : StopPanel => v.stopSigns.2) hPanel
  cases hToggled
  refine ⟨⟨hPressed.1, ?_⟩, ?_⟩
  · have hNe := hPressed.2
    rw [hPressed.1, hLast] at hNe
    simpa using hNe.symm
  · rw [← hLamp]
    simpa using hMoves

/- A departure that leaves the last floor as it is reads this
floor or none. -/
theorem steady_of_leftFloor
    (hSteady : leftFloor i s = seenFloor i s) :
    i.getFloor .depart = intMin ∨
      i.getFloor .depart = seenFloor i s := by
  unfold leftFloor Car.floorAfter at hSteady
  split at hSteady
  · exact Or.inr hSteady
  · next hNone => exact Or.inl (not_not.mp hNone)

/- A priority departure leads towards the inside request. -/
theorem hasWork_of_ahead
    {priority : Bool}
    (hInformed : Informed S.toBasicDriverInfo i s t)
    (hFloor : t.elevState.lastFloor = seenFloor i s)
    (hPrevious : t.previousDirection = s.previousDirection)
    (hPriority :
      priorityFloorsInDirection S.toBasicDriverInfo
        t.elevState t.previousDirection = .ok priority)
    (hAhead : priorityAhead S.toBasicDriverInfo i s = true)
    (hSteady : leftFloor i s = seenFloor i s) :
    HasWork S.toBasicDriverInfo
      (startState
        (if priority then t.previousDirection else .none)
        (i.getFloor .depart) t) := by
  have hTrue : priority = true :=
    (hInformed.priority_eq hFloor hPrevious
      hPriority).trans hAhead
  have hRange : S.InRange t.elevState.lastFloor := by
    rw [hFloor]
    exact inRange_seenFloor hInformed
  have hRead := steady_of_leftFloor hSteady
  rw [← hFloor] at hRead
  subst hTrue
  rw [startState_of_steady hRead, if_pos rfl]
  apply hasWork_of_priority hRange hInformed.within
  rw [priorityFloorsInDirection_eq hRange] at hPriority
  exact Except.ok.inj hPriority

/- A departure from the floor the loop has read has work
when another floor has a request. -/
theorem hasWork_of_elsewhere
    {priority : Bool}
    (hApproach :
      approach S.toBasicDriverInfo i s = .ok currentFloor t)
    (hKnown : i.getFloor .loop ≠ intMin)
    (hSteady : leftFloor i s = seenFloor i s)
    (hArrives :
      arrives S.toBasicDriverInfo t.elevState
        (i.getFloor .loop) = .ok false)
    (hPriority :
      priorityFloorsInDirection S.toBasicDriverInfo
        t.elevState t.previousDirection = .ok priority)
    (hElse : ∃ f, S.InRange f ∧
      asks S.toBasicDriverInfo i s f = true ∧
        f ≠ i.getFloor .loop) :
    HasWork S.toBasicDriverInfo
      (startState
        (if priority then t.previousDirection else .none)
        (i.getFloor .depart) t) := by
  have hInformed : Informed S.toBasicDriverInfo i s t := by
    have hOk := wp_ok (wp_approach_informed s) hApproach
    exact hOk
  have hRead := steady_of_leftFloor hSteady
  rw [show seenFloor i s = i.getFloor .loop from
    if_pos hKnown] at hRead
  rw [departure_hasWork_iff hApproach hKnown hRead hArrives
    hPriority, lastFloor_of_approach hApproach hKnown]
  rcases hElse with ⟨f, hf, hAsks, hOther⟩
  refine ⟨f, pending_iff.mpr ⟨hf, ?_⟩, hOther⟩
  rw [hInformed.mem_allButtons hf]
  exact hAsks

/- A car that overshoots has requests for other floors
only. -/
theorem Overshoots.elsewhere
    {d : BasicDriverInfo}
    (hOver : Overshoots d i s)
    (hSome : ∃ f, d.InRange f ∧ asks d i s f = true) :
    ∃ f, d.InRange f ∧ asks d i s f = true ∧
      f ≠ i.getFloor .loop := by
  rcases hSome with ⟨f, hf, hAsks⟩
  refine ⟨f, hf, hAsks, ?_⟩
  rintro rfl
  rw [hOver.2.2] at hAsks
  cases hAsks

/- Where the starts of an iteration have work, the motor is
started towards it. -/
theorem SeesWork.hasWork
    {direction : Direction}
    {reading : Int}
    (hSees : SeesWork S.toBasicDriverInfo i s)
    (hStart : MotorStart S.toBasicDriverInfo i s t direction
      reading) :
    HasWork S.toBasicDriverInfo
      (startState direction reading t) := by
  cases hStart with
  | resume hPolled hPressed hToggled hMoves =>
      rcases stopPressed_of_resume hPolled hPressed hToggled
        hMoves with ⟨hNew, hLit⟩
      exact (shows_resumption hPolled hToggled).hasWork_iff.mpr
        (hSees.resumes hNew hLit)
  | depart hApproach hState hArrives hDirection hRequests
      hPriority =>
      rcases approach_ok hApproach with ⟨hCurrent, _, _⟩
      rw [hCurrent] at hArrives
      have hInformed :
          Informed S.toBasicDriverInfo i s t := by
        have hOk := wp_ok (wp_approach_informed s) hApproach
        exact hOk
      have hShut :=
        hInformed.not_stopsHere hDirection hArrives
      have hSome := hInformed.exists_asks hRequests
      rcases standing_cases hApproach hState hDirection with
        ⟨hIdle, hFloor, hPrevious⟩ | ⟨hMoved, hEnd, hFloor⟩
      · have hShows := shows_departure hInformed hFloor
          hPrevious hPriority
        by_cases hSteady : leftFloor i s = seenFloor i s
        · cases hAhead : priorityAhead S.toBasicDriverInfo
            i s with
          | true =>
              exact hasWork_of_ahead hInformed hFloor
                hPrevious hPriority hAhead hSteady
          | false =>
              by_cases hKnown : i.getFloor .loop = intMin
              · exact hShows.hasWork_iff.mpr
                  (hSees.drifts hIdle hShut hSome
                    (Or.inr ⟨hKnown, hAhead⟩))
              · exact hasWork_of_elsewhere hApproach hKnown
                  hSteady hArrives hPriority
                  (hSees.departs hIdle hShut hSome hKnown
                    hSteady hAhead)
        · exact hShows.hasWork_iff.mpr
            (hSees.drifts hIdle hShut hSome
              (Or.inl hSteady))
      · have hFloors : i.getFloor .loop = S.minFloor ∨
            i.getFloor .loop = S.maxFloor :=
          hEnd.symm.imp And.left And.left
        have hOver :=
          overshoots_of_end hMoved hFloors hShut
        by_cases hSteady : leftFloor i s = seenFloor i s
        · exact hasWork_of_elsewhere hApproach
            (known_of_end hFloors) hSteady hArrives hPriority
            (hOver.elsewhere hSome)
        · exact (shows_jump hInformed hEnd hFloor
            hPriority).hasWork_iff.mpr
              (hSees.jumps hOver hSome hSteady)

end Given

------------------------------------------------------------
-- Runs
------------------------------------------------------------

/-
  A run of the control loop, restarts included. After
  `length` iterations it is in the next one, which may end in
  any way.
-/
structure Run
    (d : BasicDriverInfo) where
  state : Nat → Loop
  input : Nat → Inputs
  length : Nat
  started : Started d (state 0)
  next : ∀ n < length,
    Step d (input n) (state n) (state (n + 1))

namespace Run

variable {d : BasicDriverInfo}

/-
  Whenever `_startElevator` switches the motor on, the car
  leaves towards a pending request; an iteration that does
  not call it leaves the motor off or as it was.
-/
def DepartsForWork
    (run : Run d) : Prop :=
  ∀ n ≤ run.length,
    (∀ t direction reading,
      MotorStart d (run.input n) (run.state n)
          t direction reading →
        ∀ t', startElevator d direction reading t =
            .ok () t' →
          TowardsWork d t') ∧
    ((∀ t direction reading,
        ¬ MotorStart d (run.input n) (run.state n)
          t direction reading) →
      StaysOff (run.state n)
        (finished d (run.input n) (run.state n)))

/- A run whose starts have work never departs away from
it. -/
theorem departsForWork_of_seesWork
    {S : Shaft}
    (run : Run S.toBasicDriverInfo)
    (hSees : ∀ n ≤ run.length,
      SeesWork S.toBasicDriverInfo (run.input n)
        (run.state n)) :
    run.DepartsForWork := by
  intro n hn
  refine ⟨?_, ?_⟩
  · intro t direction reading hStart t' hRun
    rw [startElevator_eq] at hRun
    cases hRun
    exact towardsWork_iff.mpr ((hSees n hn).hasWork hStart)
  · intro hNone
    have hOff := staysOff_loopBody hNone
    unfold wp at hOff
    unfold finished
    cases hRun : loopBody S.toBasicDriverInfo (run.input n)
        (run.state n) with
    | ok u s' =>
        simp only [hRun] at hOff
        exact hOff
    | error e s' =>
        simp only [hRun] at hOff
        exact hOff

end Run

------------------------------------------------------------
-- A Call from the Floor of the Car
------------------------------------------------------------

/- A shaft with three floors. -/
def threeFloors : Shaft where
  minFloor := 0
  maxFloor := 2
  ordered := by decide
  span := by decide
  sentinel := intMin_lt_zero

/- The car stands at the inner floor, from which the call
comes. -/
def callHere : Inputs :=
  { idle with
    tryDequeue := some ⟨.callToFloorAndGoUp, 0, 1⟩
    getFloor := fun _ => 1 }

/- What the car publishes when it is about to depart. -/
def calledHere : ElevatorState :=
  { ElevatorState.default with
    id := 0
    lastFloor := 1
    upButtons := ⟨2#64⟩ }

/- A first iteration that reaches its local state. -/
theorem exists_approach
    {d : BasicDriverInfo}
    {i : Inputs}
    {s₀ : Loop}
    {P : Int → Loop → Prop}
    (hRun :
      wp (enter d)
        (fun _ s => wp (approach d i) P (fun _ _ => False) s)
        (fun _ _ => False) s₀) :
    ∃ s t currentFloor,
      enter d s₀ = .ok () s ∧
        approach d i s = .ok currentFloor t ∧
        P currentFloor t := by
  rcases exists_of_wp hRun with ⟨_, s, hEnter, hApproach⟩
  rcases exists_of_wp hApproach with
    ⟨currentFloor, t, hOk, hP⟩
  exact ⟨s, t, currentFloor, hEnter, hOk, hP⟩

theorem callHere_approach :
    ∃ s t currentFloor,
      enter threeFloors.toBasicDriverInfo
        (create threeFloors.toBasicDriverInfo 0
          darkDriver) = .ok () s ∧
      approach threeFloors.toBasicDriverInfo callHere s =
        .ok currentFloor t ∧
      currentFloor = 1 ∧
      t.state = .normal ∧
      t.previousDirection = .none ∧
      t.elevState = calledHere := by
  apply exists_approach
  decide +kernel

/-
  The sensor has read an inner floor, and the only request is
  from there. The car leaves upwards.
-/
theorem callHere_departs_up :
    ∃ run : Run threeFloors.toBasicDriverInfo,
      ¬ run.DepartsForWork := by
  rcases callHere_approach with
    ⟨s, t, _, hEnter, hApproach, rfl, hState, hPrevious,
      hElev⟩
  have hArrives :
      arrives threeFloors.toBasicDriverInfo t.elevState 1 =
        .ok false := by
    rw [hElev]
    rfl
  have hAny : (allButtons t.elevState).hasAny = true := by
    rw [hElev]
    rfl
  have hPriority :
      priorityFloorsInDirection threeFloors.toBasicDriverInfo
        t.elevState t.previousDirection = .ok false := by
    rw [hPrevious]
    rfl
  have hStart :
      MotorStart threeFloors.toBasicDriverInfo callHere s t
        .none 1 :=
    MotorStart.depart hApproach hState hArrives
      (congrArg ElevatorState.direction hElev) hAny hPriority
  refine ⟨⟨fun _ => s, fun _ => callHere, 0,
    .fresh 0 darkDriver hEnter,
    fun _ hLess => absurd hLess (Nat.not_lt_zero _)⟩, ?_⟩
  intro hDeparts
  have hTowards := (hDeparts 0 (Nat.le_refl 0)).1 _ _ _
    hStart _ (startElevator_eq _ _ _ _)
  have hUp : (departed threeFloors.toBasicDriverInfo .none 1
      t).driver.motor = .up := by
    rw [motor_departed]
    change startDirection threeFloors.toBasicDriverInfo
      { t.elevState with
        direction := .none
        lastFloor := 1 } = .up
    rw [hElev]
    rfl
  unfold TowardsWork at hTowards
  rw [hUp] at hTowards
  rcases hTowards with ⟨f, hPending, hHigh⟩
  -- The floor above has no request.
  have hTop : f = 2 := by
    have hLast : (1 : Int) < f := hHigh
    have hRange : f ≤ 2 := hPending.1.2
    omega
  subst hTop
  have hNone : (allButtons t.elevState).mem 2
      threeFloors.toBasicDriverInfo = false := by
    rw [hElev]
    rfl
  have hSome : (allButtons t.elevState).mem 2
      threeFloors.toBasicDriverInfo = true :=
    (pending_iff.mp hPending).2
  rw [hNone] at hSome
  cases hSome

/- A rider at the lowest floor wants to the highest one. -/
def riderUp : Inputs :=
  { idle with
    getButtonSignal := fun b => decide (b = ⟨.targetFloor, 2⟩)
    getFloor := fun _ => 0 }

/- A fresh car that takes a rider up leaves towards its
work. -/
theorem departsForWork_riderUp :
    ∃ run : Run threeFloors.toBasicDriverInfo,
      (finished threeFloors.toBasicDriverInfo (run.input 0)
        (run.state 0)).driver.motor = .up ∧
      run.DepartsForWork := by
  have hWp :
      wp (enter threeFloors.toBasicDriverInfo)
        (fun _ s =>
          (s.elevState.direction = .none ∧
            insideLit 2 s = false) ∧
          wp (loopBody threeFloors.toBasicDriverInfo riderUp)
            (fun _ s' => s'.driver.motor = .up)
            (fun _ _ => False) s)
        (fun _ _ => False)
        (create threeFloors.toBasicDriverInfo 0
          darkDriver) := by
    decide +kernel
  rcases exists_of_wp hWp with
    ⟨_, s, hEnter, ⟨hStands, hDark⟩, hBody⟩
  rcases exists_of_wp hBody with ⟨_, s', hRun, hMotor⟩
  refine ⟨⟨fun _ => s, fun _ => riderUp, 0,
    .fresh 0 darkDriver hEnter,
    fun _ hLess => absurd hLess (Nat.not_lt_zero _)⟩, ?_, ?_⟩
  · rw [finished_of_ok hRun]
    exact hMotor
  · apply Run.departsForWork_of_seesWork
    intro n _
    exact
      { resumes := fun hPressed => by cases hPressed.1
        departs := fun _ _ _ _ _ _ => by
          have hAsks : asksInside threeFloors.toBasicDriverInfo
              riderUp s 2 = true := by
            unfold asksInside
            rw [hDark]
            exact Bool.or_true _
          have hOther : (2 : Int) ≠ 0 := by decide
          refine ⟨2, by decide, ?_, hOther⟩
          exact Bool.or_eq_true_iff.mpr (Or.inl hAsks)
        drifts := fun _ _ _ hDrifts => by
          rcases hDrifts with hMoved | ⟨hBlind, _⟩
          · exact absurd rfl hMoved
          · have hZero : (0 : Int) = intMin := hBlind
            exact absurd hZero (by decide)
        jumps := fun hOver => by
          rcases hOver.1 with hMoves | hPressed
          · exact absurd hStands hMoves
          · cases hPressed.1 }

end Loop

end ElevatorControl
