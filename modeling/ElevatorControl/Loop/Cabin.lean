import ElevatorControl.FloorSetMembers
import ElevatorControl.Loop.InsideLamps

/-
  The car with its requests, while nobody presses a button.

  A cabin is the car together with the floors it has been
  asked to serve, as finite sets, and the time its doors were
  opened. An iteration without presses, commands, stop button
  and obstruction acts on the cabin as one of six steps: it
  serves a floor, rides on, departs, rests, waits with open
  doors, or closes them.

  Key definitions include:
    * `Cabin`
    * `Cabin.Step`
    * `Inputs.Quiet`
    * `Loop.cabin`

  Key theorems include:
    * `Loop.refines_quiet`
-/

------------------------------------------------------------
-- Cabins
------------------------------------------------------------

namespace ElevatorControl

/- A car with its requests; the doors were opened at
`started`. -/
structure Cabin where
  car : Car
  inside : Finset Int
  calls : CallDirection → Finset Int
  started : MillisecondTime

namespace Cabin

open Car

/- There is a request for the floor. -/
def Wanted
    (c : Cabin)
    (f : Int) : Prop :=
  f ∈ c.inside ∨ ∃ x, f ∈ c.calls x

/- A floor with a request is passed only by a car that has
another request ahead, or one without a direction between
the end floors. -/
def Passes
    (d : BasicDriverInfo)
    (c : Cabin)
    (direction : Direction)
    (f : Int) : Prop :=
  c.Wanted f →
    match direction with
    | .up => ∃ g, f < g ∧ c.Wanted g
    | .down => ∃ g, g < f ∧ c.Wanted g
    | .none => f ≠ d.minFloor ∧ f ≠ d.maxFloor

/- What the local state does to the cabin while nothing is
pressed. -/
inductive React
    (d : BasicDriverInfo)
    (reading : Int)
    (now : ClockRead → MillisecondTime)
    (c : Cabin) : Cabin → Prop where
  | serve
      (hState : c.car.state = .normal)
      (hFloor : d.InRange reading)
      (hWanted : c.Wanted reading) :
      React d reading now c
        { c with
          car :=
            { c.car.halt with
              doorOpenLamp := true
              state := .waitingForInButton }
          inside := c.inside.erase reading
          started := now .doorOpened }
  | ride
      (hState : c.car.state = .normal)
      (hMoves : c.car.direction ≠ .none)
      (hPasses : d.InRange reading →
        c.Passes d c.car.direction reading) :
      React d reading now c c
  | depart
      (car : Car)
      (calls : CallDirection → Finset Int)
      (hState : c.car.state = .normal)
      (hStands : c.car.direction = .none)
      (hPasses : d.InRange reading →
        c.Passes d .none reading)
      (hStarts : Starts d reading c.car car)
      (hCalls : ∀ x, calls x ⊆ c.calls x) :
      React d reading now c
        { c with
          car := car
          calls := calls }
  | rest
      (hState : c.car.state = .normal)
      (hStands : c.car.direction = .none)
      (hNone : ∀ f, ¬ c.Wanted f) :
      React d reading now c c
  | wait
      (hState : c.car.state = .waitingForInButton)
      (hEarly : now .doorTimeout ≤
        c.started + Loop.waitThreshold) :
      React d reading now c c
  | close
      (hState : c.car.state = .waitingForInButton)
      (hFloor : d.InRange reading)
      (hLate : c.started + Loop.waitThreshold <
        now .doorTimeout) :
      React d reading now c
        { c with
          car :=
            { c.car with
              doorOpenLamp := false
              state := .normal }
          calls := fun x => (c.calls x).erase reading }

/- What an iteration does to the cabin while nothing is
pressed. -/
def Step
    (d : BasicDriverInfo)
    (reading : Int)
    (now : ClockRead → MillisecondTime)
    (c c' : Cabin) : Prop :=
  React d reading now
    { c with car := c.car.sensed d reading } c'

end Cabin

------------------------------------------------------------
-- Quiet Inputs
------------------------------------------------------------

/- No button is pressed, no command arrives, and nothing
obstructs the car. -/
structure Inputs.Quiet
    (i : Inputs) : Prop where
  buttons : ∀ b, i.getButtonSignal b = false
  stop : i.getStop = false
  clear : i.getObstruction = false
  commands : i.tryDequeue = none

namespace Loop

open Exec Car

/- The requests of a loop state, and what decides whether the
doors close. -/
structure Errand where
  insideButtons : FloorSet
  upButtons : FloorSet
  downButtons : FloorSet
  started : MillisecondTime
  held : FloorSet

/- The part of the state the errand is about. -/
def errand
    (s : Loop) : Errand where
  insideButtons := s.elevState.insideButtons
  upButtons := s.elevState.upButtons
  downButtons := s.elevState.downButtons
  started := s.doorWaitingStarted
  held := s.inFloorButtons

/- The hall calls in one direction. -/
def Errand.calls
    (e : Errand) : CallDirection → FloorSet
  | .up => e.upButtons
  | .down => e.downButtons

/- The cabin with the requests as sets of floors. -/
def Errand.cabin
    (d : BasicDriverInfo)
    (car : Car)
    (e : Errand) : Cabin where
  car := car
  inside := e.insideButtons.members d
  calls x := (e.calls x).members d
  started := e.started

/- The cabin of a loop state. -/
def cabin
    (d : BasicDriverInfo)
    (s : Loop) : Cabin :=
  s.errand.cabin d s.car

section Quiet

variable {d : BasicDriverInfo}
variable {i : Inputs}
variable {s t : Loop}

theorem motionStable_errand
    (e : Errand) :
    MotionStable (fun s => s.errand = e) where
  report _ _ _ _ hSame := hSame
  floor _ _ hSame := hSame
  halt _ hSame := hSame
  depart _ _ _ _ hSame := hSame
  indicator _ _ _ hSame := hSame

theorem keeps_errand_senseFloor :
    Keeps errand (senseFloor d i) :=
  Keeps.of_preserves fun e =>
    stable_senseFloor (motionStable_errand e) d i

/- The state when no button is held. -/
def polled
    (s : Loop) : Loop :=
  { s with
    inFloorButtonsLast := s.inFloorButtons
    inFloorButtons := .empty
    stopLast := s.stopNow
    stopNow := false }

/- Polling buttons that nobody presses changes nothing. -/
theorem keeps_handleButtons_quiet
    (hQuiet : i.Quiet) :
    Keeps (fun s => s) (handleButtons d i) := by
  unfold handleButtons handleButton
  apply keeps_forM
  intro b _
  apply Keeps.bind (keeps_check _)
  intro _
  apply keeps_when
  intro hPressed
  rw [hQuiet.buttons b] at hPressed
  cases hPressed

theorem wp_pollButtons_quiet
    (hQuiet : i.Quiet)
    (s : Loop) :
    wp (pollButtons d i) (fun _ t => t = s.polled)
      (fun _ _ => True) s := by
  unfold pollButtons beginCycle handleStop
  simp only [wp_bind, wp_modify]
  apply Keeps.wp (keeps_assertConsistency
    (π := fun s => s) d) _ (fun _ _ _ => trivial)
  rintro _ _ rfl
  apply Keeps.wp (keeps_handleButtons_quiet hQuiet) _
    (fun _ _ _ => trivial)
  rintro _ _ rfl
  simp only [wp_get, wp_when, hQuiet.stop]
  rfl

theorem wp_approach_quiet
    (hQuiet : i.Quiet)
    (s : Loop) :
    wp (approach d i)
      (fun currentFloor t =>
        currentFloor = i.getFloor .loop ∧
        t.car = s.car.sensed d (i.getFloor .loop) ∧
        t.errand = { s.errand with held := .empty })
      (fun _ _ => True) s := by
  have hReading :
      wp (approach d i)
        (fun currentFloor _ =>
          currentFloor = i.getFloor .loop)
        (fun _ _ => True) s := by
    apply wp_mono _ (fun _ _ _ => trivial)
      (refines_approach d i s)
    exact fun _ _ hApproached => hApproached.1
  have hSensed :
      wp (approach d i)
        (fun _ t =>
          t.car = s.car.sensed d (i.getFloor .loop) ∧
          t.errand = { s.errand with held := .empty })
        (fun _ _ => True) s := by
    unfold approach pollCommands handleObstruction
      handleCommand
    simp only [wp_bind, hQuiet.commands, wp_when, wp_pure,
      hQuiet.clear, Bool.false_eq_true, if_false]
    apply wp_mono _ (fun _ _ _ => trivial)
      (wp_pollButtons_quiet hQuiet s)
    rintro _ _ rfl
    apply wp_mono _ (fun _ _ _ => trivial)
      (wp_and (refines_senseFloor d i s.polled)
        (keeps_errand_senseFloor s.polled))
    exact fun _ _ hSensed => hSensed
  exact wp_mono (fun _ _ hBoth => hBoth)
    (fun _ _ _ => trivial) (wp_and hReading hSensed)

end Quiet

------------------------------------------------------------
-- Reacting
------------------------------------------------------------

section Reacting

variable {S : Shaft}
variable {i : Inputs}
variable {id : Int}
variable {f : Int}
variable {s : Loop}

theorem wanted_iff
    {d : BasicDriverInfo} :
    (s.cabin d).Wanted f ↔
      d.InRange f ∧
        (allButtons s.elevState).mem f d = true := by
  have hCalls :
      (∃ x, f ∈ (s.cabin d).calls x) ↔
        f ∈ s.elevState.upButtons.members d ∨
          f ∈ s.elevState.downButtons.members d := by
    constructor
    · rintro ⟨x, hMember⟩
      cases x with
      | up => exact Or.inl hMember
      | down => exact Or.inr hMember
    · rintro (hUp | hDown)
      · exact ⟨.up, hUp⟩
      · exact ⟨.down, hDown⟩
  have hInside :
      f ∈ (s.cabin d).inside ↔
        f ∈ s.elevState.insideButtons.members d := Iff.rfl
  rw [Cabin.Wanted, hCalls, hInside]
  simp only [FloorSet.mem_members, allButtons,
    FloorSet.mem_union, Bool.or_eq_true]
  constructor
  · rintro (⟨hf, hMem⟩ | ⟨hf, hMem⟩ | ⟨hf, hMem⟩)
    · exact ⟨hf, Or.inl (Or.inl hMem)⟩
    · exact ⟨hf, Or.inl (Or.inr hMem)⟩
    · exact ⟨hf, Or.inr hMem⟩
  · rintro ⟨hf, (hMem | hMem) | hMem⟩
    · exact Or.inl ⟨hf, hMem⟩
    · exact Or.inr (Or.inl ⟨hf, hMem⟩)
    · exact Or.inr (Or.inr ⟨hf, hMem⟩)

/- The car stops only where there is a request. -/
theorem wanted_of_stopsAt
    {d : BasicDriverInfo}
    (hf : d.InRange f)
    (hStops : stopsAt d s.elevState f = true) :
    (s.cabin d).Wanted f := by
  rw [wanted_iff]
  refine ⟨hf, ?_⟩
  unfold stopsAt at hStops
  rw [Bool.or_eq_true] at hStops
  rcases hStops with hInside | hCalled
  · simp [allButtons, hInside]
  · cases hDirection : s.elevState.direction with
    | none =>
        simp only [hDirection, Bool.or_eq_true,
          Bool.and_eq_true] at hCalled
        rcases hCalled with hMin | hMax
        · exact hMin.2
        · exact hMax.2
    | up =>
        simp only [hDirection, Bool.or_eq_true,
          Bool.and_eq_true] at hCalled
        rcases hCalled with hUp | hLast
        · simp [allButtons, hUp]
        · exact hLast.2
    | down =>
        simp only [hDirection, Bool.or_eq_true,
          Bool.and_eq_true] at hCalled
        rcases hCalled with hDown | hLast
        · simp [allButtons, hDown]
        · exact hLast.2

theorem within_allButtons
    (hConsistent : Consistent S.toBasicDriverInfo id s) :
    (allButtons s.elevState).Within S.toBasicDriverInfo :=
  (hConsistent.inside.union (hConsistent.calls .up)).union
    (hConsistent.calls .down)

/- Where it does not stop, it may pass. -/
theorem passes_of_not_stopsAt
    (hf : S.InRange f)
    (hConsistent : Consistent S.toBasicDriverInfo id s)
    (hPasses :
      stopsAt S.toBasicDriverInfo s.elevState f = false) :
    (s.cabin S.toBasicDriverInfo).Passes
      S.toBasicDriverInfo s.elevState.direction f := by
  intro hWanted
  have hMem := (wanted_iff.mp hWanted).2
  unfold stopsAt at hPasses
  rw [Bool.or_eq_false_iff] at hPasses
  rcases hPasses with ⟨_, hPasses⟩
  cases hDirection : s.elevState.direction with
  | none =>
      rw [hDirection] at hPasses
      simp [hMem] at hPasses
      exact hPasses
  | up =>
      rw [hDirection] at hPasses
      simp only [hMem, Bool.and_true, Bool.or_eq_false_iff,
        Bool.not_eq_false'] at hPasses
      rcases (FloorSet.someHigher_iff S hf
        (within_allButtons hConsistent)).mp hPasses.2 with
        ⟨g, hg, hAbove, hRequest⟩
      exact ⟨g, hAbove, wanted_iff.mpr ⟨hg, hRequest⟩⟩
  | down =>
      rw [hDirection] at hPasses
      simp only [hMem, Bool.and_true, Bool.or_eq_false_iff,
        Bool.not_eq_false'] at hPasses
      rcases (FloorSet.someLower_iff S hf).mp hPasses.2 with
        ⟨g, hg, hBelow, hRequest⟩
      exact ⟨g, hBelow, wanted_iff.mpr ⟨hg, hRequest⟩⟩

/- Serving a floor removes its inside request. -/
theorem wp_serveFloor_cabin
    {c : Cabin}
    (hf : S.InRange f)
    (hCabin : s.cabin S.toBasicDriverInfo = c) :
    wp (serveFloor S.toBasicDriverInfo i f)
      (fun _ t => t.cabin S.toBasicDriverInfo =
        { c with
          car :=
            { c.car.halt with
              doorOpenLamp := true
              state := .waitingForInButton }
          inside := c.inside.erase f
          started := i.now .doorOpened })
      (fun _ _ => True) s := by
  have hInside :
      ((s.elevState.insideButtons.erase f
          S.toBasicDriverInfo).erase f
            S.toBasicDriverInfo).members
          S.toBasicDriverInfo =
        c.inside.erase f := by
    rw [FloorSet.members_erase hf, FloorSet.members_erase hf,
      Finset.erase_idem, ← hCabin]
    rfl
  unfold serveFloor stopElevator emitStateChange
  simp only [wp_bind, wp_modify]
  rw [wp_setButtonLampAndFlag_inside hf, wp_setInside hf]
  rw [← hInside, ← hCabin]
  have hHalted := car_halted (s :=
    { lampSet ⟨.targetFloor, f⟩ false s with
      driver :=
        (lampSet ⟨.targetFloor, f⟩ false
          s).driver.setDoorOpenLamp true
      elevState.doorOpen := true
      state := .waitingForInButton
      doorWaitingStarted := i.now .doorOpened })
  exact congrArg (fun car => Cabin.mk car _ _ _) hHalted

theorem keeps_cabin_emitStateChange
    {d : BasicDriverInfo}
    (type : ChangeType)
    (floor : Int)
    (now : MillisecondTime) :
    Keeps (cabin d) (emitStateChange type floor now) :=
  keeps_modify fun _ => rfl

theorem keeps_cabin_setButtonLamp
    {d : BasicDriverInfo}
    (btn : Button)
    (value : Bool) :
    Keeps (cabin d) (callDriver
      (Driver.setButtonLamp d btn value)) :=
  keeps_setButtonLamp (fun _ _ => rfl) d btn value

@[simp] theorem calls_cabin
    {d : BasicDriverInfo}
    (x : CallDirection) :
    (s.cabin d).calls x =
      (s.elevState.calls x).members d := by
  cases x with
  | up => rfl
  | down => rfl

/- Clearing a call removes it from its set. -/
theorem wp_setCall_cabin
    {x : CallDirection}
    {c : Cabin}
    (hf : S.InRange f)
    (hCabin : s.cabin S.toBasicDriverInfo = c) :
    wp (setCall S.toBasicDriverInfo x false f)
      (fun _ t => t.cabin S.toBasicDriverInfo =
        { c with
          calls := Function.update c.calls x
            ((c.calls x).erase f) })
      (fun _ _ => True) s := by
  rw [wp_setCall hf]
  have hCar :
      (withCalls x ((s.elevState.calls x).erase f
        S.toBasicDriverInfo) s).car = c.car := by
    rw [car_withCalls, ← hCabin]
    rfl
  have hCalls :
      (fun y => ((withCalls x ((s.elevState.calls x).erase f
          S.toBasicDriverInfo) s).elevState.calls y).members
          S.toBasicDriverInfo) =
        Function.update c.calls x
          ((c.calls x).erase f) := by
    funext y
    rw [calls_withCalls, ← hCabin]
    by_cases hSame : y = x
    · subst hSame
      simp [FloorSet.members_erase hf]
    · simp [hSame]
  rw [← hCalls, ← hCar, ← hCabin]
  cases x with
  | up =>
      refine congrArg (fun calls => Cabin.mk _ _ calls _) ?_
      funext y
      cases y <;> rfl
  | down =>
      refine congrArg (fun calls => Cabin.mk _ _ calls _) ?_
      funext y
      cases y <;> rfl

/- Clearing the lamp of the direction may remove a call. -/
theorem wp_clearDirectionButtonLamp_cabin
    {c : Cabin}
    (hCabin : s.cabin S.toBasicDriverInfo = c)
    (hConsistent : Consistent S.toBasicDriverInfo id s)
    (now : MillisecondTime) :
    wp (clearDirectionButtonLamp S.toBasicDriverInfo now)
      (fun _ t => ∃ calls, (∀ x, calls x ⊆ c.calls x) ∧
        t.cabin S.toBasicDriverInfo =
          { c with calls := calls })
      (fun _ _ => True) s := by
  unfold clearDirectionButtonLamp
  simp only [wp_bind, wp_get]
  cases hButton :
      directionButton S.toBasicDriverInfo s.elevState with
  | none => exact ⟨c.calls, fun _ => subset_rfl, hCabin⟩
  | some target =>
      rcases target with ⟨x, f⟩
      have hf := inRange_directionButton
        hConsistent.lastFloor hButton
      simp only [wp_bind]
      apply wp_mono _ (fun _ _ _ => trivial)
        (wp_setCall_cabin (x := x) hf hCabin)
      intro wasSet t hCleared
      have hReport :
          Keeps (cabin S.toBasicDriverInfo)
            (when wasSet
              (emitStateChange x.served f now)) :=
        keeps_when fun _ =>
          keeps_cabin_emitStateChange _ _ _
      apply hReport.wp _ (fun _ _ _ => trivial)
      intro _ u hKept
      apply (keeps_cabin_setButtonLamp _ false).wp _
        (fun _ _ _ => trivial)
      intro _ v hKept'
      refine ⟨_, ?_,
        hKept'.trans (hKept.trans hCleared)⟩
      intro y
      by_cases hSame : y = x
      · subst hSame
        rw [Function.update_self]
        exact Finset.erase_subset _ _
      · rw [Function.update_of_ne hSame]

/- A start moves the car, and may then remove a call. -/
theorem wp_departed_cabin
    {c : Cabin}
    (hSensed : i.Sensed S.toBasicDriverInfo)
    (hCabin : s.cabin S.toBasicDriverInfo = c)
    (hConsistent : Consistent S.toBasicDriverInfo id s)
    (direction : Direction)
    (currentFloor : Int) :
    wp (clearDirectionButtonLamp S.toBasicDriverInfo
        (i.now .directionServed))
      (fun _ t => ∃ car calls,
        Starts S.toBasicDriverInfo (i.getFloor .depart)
          c.car car ∧
        (∀ x, calls x ⊆ c.calls x) ∧
        t.cabin S.toBasicDriverInfo =
          { c with
            car := car
            calls := calls })
      (fun _ _ => True)
      (emitted .otherChange currentFloor (i.now .departed)
        (departed S.toBasicDriverInfo direction
          (i.getFloor .depart) s)) := by
  have hGone :
      Consistent S.toBasicDriverInfo id
        (departed S.toBasicDriverInfo direction
          (i.getFloor .depart) s) := by
    have hSucceeds :
        Succeeds S.toBasicDriverInfo id
          (startElevator S.toBasicDriverInfo direction
            (i.getFloor .depart)) :=
      succeeds_startElevator (hSensed .depart)
    have hStart := hSucceeds s hConsistent
    rwa [wp_startElevator] at hStart
  have hEmitted :
      Consistent S.toBasicDriverInfo id
        (emitted .otherChange currentFloor
          (i.now .departed)
          (departed S.toBasicDriverInfo direction
            (i.getFloor .depart) s)) := by
    apply Consistent.congr _ hGone
    rfl
  apply wp_mono _ (fun _ _ _ => trivial)
    (wp_clearDirectionButtonLamp_cabin rfl hEmitted _)
  rintro _ t ⟨calls, hCalls, hKept⟩
  refine ⟨(departed S.toBasicDriverInfo direction
    (i.getFloor .depart) s).car, calls, ?_, ?_, ?_⟩
  · rw [← hCabin]
    exact starts_departed direction _
  · intro x
    rw [← hCabin]
    exact hCalls x
  · rw [hKept, ← hCabin]
    rfl

/- A car with requests departs. -/
theorem wp_depart_cabin
    {c : Cabin}
    (hSensed : i.Sensed S.toBasicDriverInfo)
    (hCabin : s.cabin S.toBasicDriverInfo = c)
    (hConsistent : Consistent S.toBasicDriverInfo id s)
    (hAny : (allButtons s.elevState).hasAny = true)
    (currentFloor : Int) :
    wp (depart S.toBasicDriverInfo i currentFloor)
      (fun _ t => ∃ car calls,
        Starts S.toBasicDriverInfo (i.getFloor .depart)
          c.car car ∧
        (∀ x, calls x ⊆ c.calls x) ∧
        t.cabin S.toBasicDriverInfo =
          { c with
            car := car
            calls := calls })
      (fun _ _ => True) s := by
  unfold depart startForRequests emitStateChange
  simp only [wp_bind, wp_get, wp_when, wp_modify, hAny,
    if_true, wp_ite, wp_startElevator]
  apply (keeps_check (π := fun s => s) _).wp _
    (fun _ _ _ => trivial)
  rintro priority _ rfl
  split
  · exact wp_departed_cabin hSensed hCabin hConsistent _ _
  · exact wp_departed_cabin hSensed hCabin hConsistent _ _

/- Without requests there is nothing to depart for. -/
theorem wp_depart_rest
    {c : Cabin}
    (hCabin : s.cabin S.toBasicDriverInfo = c)
    (hConsistent : Consistent S.toBasicDriverInfo id s)
    (hNone : ∀ f, ¬ c.Wanted f)
    (currentFloor : Int) :
    wp (depart S.toBasicDriverInfo i currentFloor)
      (fun _ t => t.cabin S.toBasicDriverInfo = c)
      (fun _ _ => True) s := by
  have hAny : ¬ (allButtons s.elevState).hasAny = true := by
    rw [FloorSet.hasAny_iff S (within_allButtons hConsistent)]
    rintro ⟨g, hg, hMem⟩
    rw [← hCabin] at hNone
    exact hNone g (wanted_iff.mpr ⟨hg, hMem⟩)
  unfold depart
  simp only [wp_bind, wp_get, wp_when, hAny, if_false,
    Bool.false_eq_true]
  apply wp_mono _ (fun _ _ _ => trivial)
    (wp_clearDirectionButtonLamp_cabin hCabin hConsistent _)
  rintro _ t ⟨calls, hCalls, hKept⟩
  have hEmpty : ∀ x, c.calls x = ∅ := by
    intro x
    apply Finset.eq_empty_of_forall_notMem
    exact fun f hMember => hNone f (Or.inr ⟨x, hMember⟩)
  have hSame : calls = c.calls := by
    funext x
    have hSub := hCalls x
    rw [hEmpty x, Finset.subset_empty] at hSub
    rw [hEmpty x, hSub]
  rw [hKept, hSame]

/- Away from the floor it stops at, the car goes on. -/
theorem wp_goesOn_cabin
    {c : Cabin}
    {reading : Int}
    (hSensed : i.Sensed S.toBasicDriverInfo)
    (hDepart : i.getFloor .depart = reading)
    (hCabin : s.cabin S.toBasicDriverInfo = c)
    (hConsistent : Consistent S.toBasicDriverInfo id s)
    (hState : s.state = .normal)
    (hGoes : S.InRange reading →
      stopsAt S.toBasicDriverInfo s.elevState reading =
        false) :
    wp (when (s.elevState.direction = .none)
        (depart S.toBasicDriverInfo i reading))
      (fun _ t => Cabin.React S.toBasicDriverInfo reading
        i.now c (t.cabin S.toBasicDriverInfo))
      (fun _ _ => True) s := by
  have hNormal : c.car.state = .normal := by
    rw [← hCabin]
    exact hState
  have hDirection :
      c.car.direction = s.elevState.direction := by
    rw [← hCabin]
    rfl
  have hPasses :
      S.InRange reading →
        c.Passes S.toBasicDriverInfo
          s.elevState.direction reading := by
    intro hf
    rw [← hCabin]
    exact passes_of_not_stopsAt hf hConsistent (hGoes hf)
  rw [wp_when]
  split
  · next hStands =>
      rw [hStands] at hPasses hDirection
      by_cases hNone : ∀ f, ¬ c.Wanted f
      · apply wp_mono _ (fun _ _ _ => trivial)
          (wp_depart_rest hCabin hConsistent hNone reading)
        intro _ t hKept
        rw [hKept]
        exact .rest hNormal hDirection hNone
      · rcases not_forall_not.mp hNone with ⟨f, hWanted⟩
        rw [← hCabin] at hWanted
        have hAny := FloorSet.hasAny_of_mem
          (wanted_iff.mp hWanted).2
        apply wp_mono _ (fun _ _ _ => trivial)
          (wp_depart_cabin hSensed hCabin hConsistent
            hAny reading)
        rintro _ t ⟨car, calls, hStarts, hCalls, hLeft⟩
        rw [hDepart] at hStarts
        rw [hLeft]
        exact .depart car calls hNormal hDirection hPasses
          hStarts hCalls
  · next hMoves =>
      rw [← hDirection] at hMoves hPasses
      rw [hCabin]
      exact .ride hNormal hMoves hPasses

theorem wp_handleNormal_cabin
    {c : Cabin}
    {reading : Int}
    (hSensed : i.Sensed S.toBasicDriverInfo)
    (hReading : reading = intMin ∨ S.InRange reading)
    (hDepart : i.getFloor .depart = reading)
    (hCabin : s.cabin S.toBasicDriverInfo = c)
    (hConsistent : Consistent S.toBasicDriverInfo id s)
    (hState : s.state = .normal) :
    wp (handleNormal S.toBasicDriverInfo i reading)
      (fun _ t => Cabin.React S.toBasicDriverInfo reading
        i.now c (t.cabin S.toBasicDriverInfo))
      (fun _ _ => True) s := by
  have hNormal : c.car.state = .normal := by
    rw [← hCabin]
    exact hState
  unfold handleNormal
  simp only [wp_bind, wp_get]
  rcases hReading with hBlind | hf
  · have hArrives :
        arrives S.toBasicDriverInfo s.elevState reading =
          .ok false := by
      rw [arrives, if_neg (not_not_intro hBlind)]
    simp only [hArrives, wp_check_ok, Bool.false_eq_true,
      if_false]
    apply wp_goesOn_cabin hSensed hDepart hCabin hConsistent
      hState
    intro hRange
    rw [hBlind] at hRange
    exact absurd hRange not_inRange_intMin
  · have hKnown : reading ≠ intMin := by
      rintro rfl
      exact not_inRange_intMin hf
    have hArrives :
        arrives S.toBasicDriverInfo s.elevState reading =
          .ok (stopsAt S.toBasicDriverInfo s.elevState
            reading) := by
      rw [arrives, if_pos hKnown, shouldStop_eq hf]
    simp only [hArrives, wp_check_ok, wp_ite]
    split
    · next hStops =>
        apply wp_mono _ (fun _ _ _ => trivial)
          (wp_serveFloor_cabin hf hCabin)
        intro _ t hServed
        rw [hServed]
        apply Cabin.React.serve hNormal hf
        rw [← hCabin]
        exact wanted_of_stopsAt hf hStops
    · next hPasses =>
        exact wp_goesOn_cabin hSensed hDepart hCabin
          hConsistent hState fun _ => by simpa using hPasses

/- Both hall calls of the floor are removed. -/
theorem wp_closeByTimeout_cabin
    {c : Cabin}
    (hf : S.InRange f)
    (hCabin : s.cabin S.toBasicDriverInfo = c) :
    wp (closeByTimeout S.toBasicDriverInfo i f)
      (fun _ t => t.cabin S.toBasicDriverInfo =
        { c with
          calls := fun x => (c.calls x).erase f })
      (fun _ _ => True) s := by
  have hBoth :
      Function.update
          (Function.update c.calls .down
            ((c.calls .down).erase f)) .up
          ((c.calls .up).erase f) =
        fun x => (c.calls x).erase f := by
    funext x
    cases x with
    | up => rfl
    | down => rfl
  unfold closeByTimeout
  simp only [wp_bind]
  apply wp_mono _ (fun _ _ _ => trivial)
    (wp_setCall_cabin (x := .down) hf hCabin)
  intro _ s₁ hDown
  apply wp_mono _ (fun _ _ _ => trivial)
    (wp_setCall_cabin (x := .up) hf hDown)
  intro _ s₂ hUp
  apply (keeps_cabin_setButtonLamp _ false).wp _
    (fun _ _ _ => trivial)
  intro _ s₃ hKept₃
  apply (keeps_cabin_setButtonLamp _ false).wp _
    (fun _ _ _ => trivial)
  intro _ s₄ hKept₄
  apply (keeps_cabin_emitStateChange
    (d := S.toBasicDriverInfo) _ _ _).wp _
    (fun _ _ _ => trivial)
  intro _ s₅ hKept₅
  apply (keeps_cabin_emitStateChange
    (d := S.toBasicDriverInfo) _ _ _).wp _
    (fun _ _ _ => trivial)
  intro _ s₆ hKept₆
  rw [hKept₆, hKept₅, hKept₄, hKept₃]
  exact hUp.trans (congrArg
    (fun calls => Cabin.mk c.car c.inside calls c.started)
    hBoth)

/- No button is held, so that the doors close by timeout
only. -/
theorem wp_handleWaiting_cabin
    {c : Cabin}
    (hf : S.InRange f)
    (hHeld : s.inFloorButtons = .empty)
    (hCabin : s.cabin S.toBasicDriverInfo = c)
    (hState : s.state = .waitingForInButton) :
    wp (handleWaiting S.toBasicDriverInfo i f)
      (fun _ t => Cabin.React S.toBasicDriverInfo f
        i.now c (t.cabin S.toBasicDriverInfo))
      (fun _ _ => True) s := by
  have hWaiting : c.car.state = .waitingForInButton := by
    rw [← hCabin]
    exact hState
  have hStarted : c.started = s.doorWaitingStarted := by
    rw [← hCabin]
    rfl
  have hNoPress :
      FloorSet.hasAdditional s.inFloorButtonsLast
        s.inFloorButtons = false := by
    rw [hHeld]
    simp [FloorSet.hasAdditional, FloorSet.empty]
  unfold handleWaiting emitStateChange
  simp only [wp_bind, wp_get, wp_when, wp_modify, wp_ite,
    hNoPress, Bool.false_eq_true, false_or]
  by_cases hTimeout : doorTimeout i s = true
  · rw [if_pos hTimeout, if_pos hTimeout]
    have hShut :
        (emitted .otherChange f (i.now .doorClosed)
          s.doorShut).cabin S.toBasicDriverInfo =
        { c with
          car :=
            { c.car with
              doorOpenLamp := false
              state := .normal } } := by
      rw [← hCabin]
      rfl
    apply wp_mono _ (fun _ _ _ => trivial)
      (wp_closeByTimeout_cabin hf hShut)
    intro _ t hClosed
    rw [hClosed]
    apply Cabin.React.close hWaiting hf
    rw [hStarted]
    simpa [doorTimeout] using hTimeout
  · rw [if_neg hTimeout, hCabin]
    apply Cabin.React.wait hWaiting
    rw [hStarted]
    simpa [doorTimeout] using hTimeout

------------------------------------------------------------
-- Quiet Iterations
------------------------------------------------------------

theorem keeps_cabin_finishCycle
    {d : BasicDriverInfo}
    (currentFloor : Int) :
    Keeps (cabin d) (finishCycle i currentFloor) := by
  unfold finishCycle
  apply Keeps.bind keeps_get
  intro s
  apply Keeps.bind
  · exact keeps_when fun _ =>
      keeps_cabin_emitStateChange _ _ _
  · exact fun _ => keeps_modify fun _ => rfl

/-
  An iteration without presses, commands, stop button and
  obstruction is a step of the cabin.
-/
theorem refines_quiet
    {reading : Int}
    (hQuiet : i.Quiet)
    (hSensor : ∀ r, i.getFloor r = reading)
    (hReading : reading = intMin ∨ S.InRange reading)
    (hConsistent : Consistent S.toBasicDriverInfo id s)
    (hState : s.state = .normal ∨
      s.state = .waitingForInButton ∧ S.InRange reading) :
    wp (loopBody S.toBasicDriverInfo i)
      (fun _ t => Cabin.Step S.toBasicDriverInfo reading
        i.now (s.cabin S.toBasicDriverInfo)
        (t.cabin S.toBasicDriverInfo))
      (fun _ _ => True) s := by
  have hSensed : i.Sensed S.toBasicDriverInfo := by
    intro r
    rw [hSensor r]
    exact hReading
  have hAddressed :
      i.Addressed S.toBasicDriverInfo id := by
    intro c hCommand
    rw [hQuiet.commands] at hCommand
    cases hCommand
  unfold loopBody react
  simp only [wp_bind]
  apply wp_mono _ (fun _ _ _ => trivial)
    (wp_and (wp_approach_quiet hQuiet s)
      (succeeds_approach hSensed hAddressed s hConsistent))
  rintro currentFloor t
    ⟨⟨hCurrent, hCar, hErrand⟩, hConsistent'⟩
  rw [hSensor .loop] at hCurrent hCar
  have hCabin :
      t.cabin S.toBasicDriverInfo =
        { s.cabin S.toBasicDriverInfo with
          car := (s.cabin S.toBasicDriverInfo).car.sensed
            S.toBasicDriverInfo reading } := by
    unfold cabin
    rw [hErrand, hCar]
    rfl
  have hSame : t.state = s.state := by
    have hKept : t.car.state = s.car.state := by
      rw [hCar]
      unfold sensed safetyStop
      split
      · rfl
      · rfl
    exact hKept
  have hHeld : t.inFloorButtons = .empty :=
    congrArg Errand.held hErrand
  have hHandled :
      wp (handleState S.toBasicDriverInfo i currentFloor)
        (fun _ u => Cabin.Step S.toBasicDriverInfo reading
          i.now (s.cabin S.toBasicDriverInfo)
          (u.cabin S.toBasicDriverInfo))
        (fun _ _ => True) t := by
    rw [hCurrent]
    unfold handleState
    simp only [wp_bind, wp_get]
    rcases hState with hNormal | ⟨hWaiting, hf⟩
    · rw [hNormal] at hSame
      simp only [hSame]
      exact wp_handleNormal_cabin hSensed hReading
        (hSensor .depart) hCabin hConsistent' hSame
    · rw [hWaiting] at hSame
      simp only [hSame]
      exact wp_handleWaiting_cabin hf hHeld hCabin hSame
  apply wp_mono _ (fun _ _ _ => trivial) hHandled
  intro _ u hStep
  apply (keeps_cabin_finishCycle
    (d := S.toBasicDriverInfo) currentFloor).wp _
    (fun _ _ _ => trivial)
  intro _ v hKept
  rw [hKept]
  exact hStep

end Reacting

end Loop

end ElevatorControl
