import ElevatorControl.Loop.Motion

/-
  The car in its shaft.

  The position of the car is counted in half floors. The
  sensor reports a floor exactly at its position and nothing
  between the floors. Between two reads of the sensor at the
  end of command handling the car drifts by at most one half
  floor, in the direction the motor is running at that time.
  The safety stop that follows the read takes effect with it.

  `Ride` interleaves the phases of the loop with the drift of
  the car. A phase that fails an assertion leaves the motor
  as it is until the deferred stop has run.

  Key definitions include:
    * `Ride`
    * `Ride.Step`
    * `Ride.system`
    * `Ride.Fits`

  Key theorems include:
    * `Ride.inv_of_step`
    * `Ride.within_shaft`
-/

------------------------------------------------------------
-- Rides
------------------------------------------------------------

namespace ElevatorControl

/- How far an iteration has come. -/
inductive Phase where
  | top
  | polled
  | commanded
  | sensed (currentFloor : Int)
  | failed (e : AssertionFailed)

/-
  The loop and the car in its shaft. `mark` is the position
  at the last sensor read after command handling.
-/
structure Ride where
  loop : Loop
  mark : Int
  position : Int
  phase : Phase

namespace Ride

open Loop

/- The sensor knows the floor only right at it. -/
def sensor
    (position : Int) : Int :=
  if position % 2 = 0 then position / 2 else intMin

/- The car drifts once between two reads, with the motor. -/
inductive Drift
    (motor : Direction)
    (mark position : Int) : Int → Prop where
  | stays :
      Drift motor mark position position
  | up
      (hMark : position = mark)
      (hMotor : motor = .up) :
      Drift motor mark position (position + 1)
  | down
      (hMark : position = mark)
      (hMotor : motor = .down) :
      Drift motor mark position (position - 1)

/- A phase of the loop ends, or fails an assertion. -/
inductive Ends
    {α : Type}
    (x : LoopM α)
    (s : Loop)
    (next : α → Phase) : Phase → Loop → Prop where
  | completed
      (a : α)
      (s' : Loop)
      (hRun : x s = .ok a s') :
      Ends x s next (next a) s'
  | failed
      (e : AssertionFailed)
      (t : Loop)
      (hRun : x s = .error e t) :
      Ends x s next (.failed e) t

/-
  One step of a ride: the car drifts, or the loop runs its
  next phase. Polling may read the sensor twice, and the car
  may drift between a start and the second read.
-/
inductive Step
    (d : BasicDriverInfo) : Ride → Ride → Prop where
  | drift
      (s : Loop)
      (mark position position' : Int)
      (phase : Phase)
      (hDrift :
        Drift s.driver.motor mark position position') :
      Step d ⟨s, mark, position, phase⟩
        ⟨s, mark, position', phase⟩
  | poll
      (i : Inputs)
      (s s' : Loop)
      (mark position position' : Int)
      (phase : Phase)
      (hResume : i.getFloor .resume = sensor position)
      (hEnds : Ends (pollButtons d i) s
        (fun _ => .polled) phase s')
      (hDrift :
        Drift s'.driver.motor mark position position')
      (hStop : i.getFloor .stopButton = sensor position') :
      Step d ⟨s, mark, position, .top⟩
        ⟨s', mark, position', phase⟩
  | command
      (i : Inputs)
      (s s' : Loop)
      (mark position : Int)
      (phase : Phase)
      (hRange : ∀ c, i.tryDequeue = some c →
        d.InRange c.targetFloor)
      (hEnds : Ends (pollCommands d i) s
        (fun _ => .commanded) phase s') :
      Step d ⟨s, mark, position, .polled⟩
        ⟨s', mark, position, phase⟩
  | sense
      (i : Inputs)
      (s s' : Loop)
      (mark position : Int)
      (phase : Phase)
      (hSense : i.getFloor .loop = sensor position)
      (hEnds : Ends (senseFloor d i) s .sensed phase s') :
      Step d ⟨s, mark, position, .commanded⟩
        ⟨s', position, position, phase⟩
  | react
      (i : Inputs)
      (s s' : Loop)
      (mark position currentFloor : Int)
      (phase : Phase)
      (hDepart : i.getFloor .depart = sensor position)
      (hEnds : Ends (react d i currentFloor) s
        (fun _ => .top) phase s') :
      Step d ⟨s, mark, position, .sensed currentFloor⟩
        ⟨s', mark, position, phase⟩
  | restart
      (e : AssertionFailed)
      (s s' : Loop)
      (mark position : Int)
      (hTag : e.tag = .generall)
      (hEnter : enter d (halted s) = .ok () s') :
      Step d ⟨s, mark, position, .failed e⟩
        ⟨s', mark, position, .top⟩

/- The loop starts anywhere in the shaft, with any floor in
range as its last one. -/
inductive Init
    (d : BasicDriverInfo) : Ride → Prop where
  | intro
      (s : Loop)
      (position : Int)
      (hStarted : Started d s)
      (hFloor : d.InRange s.elevState.lastFloor)
      (hLow : 2 * d.minFloor ≤ position)
      (hHigh : position ≤ 2 * d.maxFloor) :
      Init d ⟨s, position, position, .top⟩

/- The loop of an elevator and the car it moves. -/
def system
    (d : BasicDriverInfo) : TransitionSystem Ride where
  Init := Init d
  Step := Step d

------------------------------------------------------------
-- Fitting Cars
------------------------------------------------------------

open Car

/-
  The car is in the shaft, knows some floor of it, and will
  still be in it after drifting to the next read.
-/
structure Fits
    (d : BasicDriverInfo)
    (mark position : Int)
    (c : Car) : Prop where
  low : 2 * d.minFloor ≤ position
  high : position ≤ 2 * d.maxFloor
  floor : d.InRange c.lastFloor
  drives : c.motor ≠ .none → c.motor = c.direction
  top : position = mark → c.motor = .up →
    position < 2 * d.maxFloor
  bottom : position = mark → c.motor = .down →
    2 * d.minFloor < position

section Fits

variable {S : Shaft}
variable {mark position : Int}
variable {c c' : Car}

/- In the shaft the sensor only reports floors of it. -/
theorem inRange_floorAfter
    (hFits : Fits S.toBasicDriverInfo mark position c) :
    S.InRange
      (floorAfter (sensor position) c.lastFloor) := by
  have hLow := hFits.low
  have hHigh := hFits.high
  unfold floorAfter sensor
  by_cases hEven : position % 2 = 0
  · rw [if_pos hEven]
    split
    · exact ⟨by omega, by omega⟩
    · exact hFits.floor
  · rw [if_neg hEven]
    simpa using hFits.floor

/- A car at the top reads the highest floor. -/
theorem floorAfter_top
    (hPosition : position = 2 * S.maxFloor) :
    floorAfter (sensor position) c.lastFloor =
      S.maxFloor := by
  have hOrdered := S.ordered
  have hSentinel := S.sentinel
  have hReading : sensor position = S.maxFloor := by
    unfold sensor
    rw [if_pos (by omega)]
    omega
  rw [hReading]
  exact if_pos (by omega)

/- A car at the bottom reads the lowest floor. -/
theorem floorAfter_bottom
    (hPosition : position = 2 * S.minFloor) :
    floorAfter (sensor position) c.lastFloor =
      S.minFloor := by
  have hSentinel := S.sentinel
  have hReading : sensor position = S.minFloor := by
    unfold sensor
    rw [if_pos (by omega)]
    omega
  rw [hReading]
  exact if_pos (by omega)

theorem Fits.read
    (hFits : Fits S.toBasicDriverInfo mark position c) :
    Fits S.toBasicDriverInfo mark position
      (c.read (sensor position)) :=
  { hFits with floor := inRange_floorAfter hFits }

/- A car whose motor is off fits where it is. -/
theorem Fits.off
    (hFits : Fits S.toBasicDriverInfo mark position c)
    (hFloor : c'.lastFloor = c.lastFloor)
    (hMotor : c'.motor = .none) :
    Fits S.toBasicDriverInfo mark position c' where
  low := hFits.low
  high := hFits.high
  floor := by
    rw [hFloor]
    exact hFits.floor
  drives hMoving := absurd hMotor hMoving
  top _ hUp := by
    rw [hMotor] at hUp
    cases hUp
  bottom _ hDown := by
    rw [hMotor] at hDown
    cases hDown

/- Doors and local states do not move the car. -/
theorem Fits.congr
    (hFits : Fits S.toBasicDriverInfo mark position c)
    (hFloor : c'.lastFloor = c.lastFloor)
    (hMotor : c'.motor = c.motor)
    (hDirection : c'.direction = c.direction) :
    Fits S.toBasicDriverInfo mark position c' where
  low := hFits.low
  high := hFits.high
  floor := by
    rw [hFloor]
    exact hFits.floor
  drives := by
    rw [hMotor, hDirection]
    exact hFits.drives
  top := by
    rw [hMotor]
    exact hFits.top
  bottom := by
    rw [hMotor]
    exact hFits.bottom

/- A start at an end of the shaft leads away from it. -/
theorem Fits.starts
    (hFits : Fits S.toBasicDriverInfo mark position c)
    (hStarts :
      Starts S.toBasicDriverInfo (sensor position) c c') :
    Fits S.toBasicDriverInfo mark position c' := by
  have hLow := hFits.low
  have hHigh := hFits.high
  cases hStarts with
  | intro dir hSome hMin hMax =>
      refine ⟨hLow, hHigh, inRange_floorAfter hFits,
        fun _ => rfl, ?_, ?_⟩
      · intro _ hUp
        by_contra hTop
        have hPosition : position = 2 * S.maxFloor := by
          omega
        have hDown :=
          hMax S.ordered (floorAfter_top hPosition)
        change dir = .up at hUp
        rw [hUp] at hDown
        cases hDown
      · intro _ hDown
        by_contra hBottom
        have hPosition : position = 2 * S.minFloor := by
          omega
        have hUp := hMin (floorAfter_bottom hPosition)
        change dir = .down at hDown
        rw [hDown] at hUp
        cases hUp

/- The drift of a car that fits ends in the shaft. -/
theorem Fits.drift
    {position' : Int}
    (hFits : Fits S.toBasicDriverInfo mark position c)
    (hDrift : Drift c.motor mark position position') :
    Fits S.toBasicDriverInfo mark position' c := by
  have hLow := hFits.low
  have hHigh := hFits.high
  cases hDrift with
  | stays => exact hFits
  | up hMark hMotor =>
      have hTop := hFits.top hMark hMotor
      refine ⟨by omega, by omega, hFits.floor,
        hFits.drives, ?_, ?_⟩
      · intro hSame
        omega
      · intro hSame
        omega
  | down hMark hMotor =>
      have hBottom := hFits.bottom hMark hMotor
      refine ⟨by omega, by omega, hFits.floor,
        hFits.drives, ?_, ?_⟩
      · intro hSame
        omega
      · intro hSame
        omega

theorem Fits.polled
    {i : Inputs}
    {position' : Int}
    (hFits : Fits S.toBasicDriverInfo mark position c)
    (hMove : Polled S.toBasicDriverInfo i c c')
    (hResume : i.getFloor .resume = sensor position)
    (hDrift : Drift c'.motor mark position position')
    (hStop : i.getFloor .stopButton = sensor position') :
    Fits S.toBasicDriverInfo mark position' c' := by
  cases hMove with
  | ignored => exact hFits.drift hDrift
  | stopped =>
      have hHalted :
          Fits S.toBasicDriverInfo mark position
            { c.halt with state := .stopped } :=
        hFits.off rfl rfl
      rw [hStop]
      exact (hHalted.drift hDrift).read
  | resumed c₁ hStarts =>
      rw [hResume] at hStarts
      have hResumed :
          Fits S.toBasicDriverInfo mark position
            { c₁ with state := .normal } :=
        (hFits.starts hStarts).congr rfl rfl rfl
      rw [hStop]
      exact (hResumed.drift hDrift).read

theorem Fits.commanded
    {i : Inputs}
    (hFits : Fits S.toBasicDriverInfo mark position c)
    (hMove : Commanded i c c') :
    Fits S.toBasicDriverInfo mark position c' := by
  cases hMove with
  | ignored => exact hFits
  | obstructed hObstruction => exact hFits.off rfl rfl

/- The safety stop makes the car fit at the next read. -/
theorem Fits.sensed
    (hFits : Fits S.toBasicDriverInfo mark position c) :
    Fits S.toBasicDriverInfo position position
      (c.sensed S.toBasicDriverInfo (sensor position)) := by
  have hRead := hFits.read
  have hLow := hFits.low
  have hHigh := hFits.high
  unfold Car.sensed safetyStop
  split
  · exact ⟨hLow, hHigh, hRead.floor,
      fun hMoving => absurd rfl hMoving,
      fun _ hUp => Direction.noConfusion hUp,
      fun _ hDown => Direction.noConfusion hDown⟩
  · next hPasses =>
      rcases not_or.mp hPasses with ⟨hPassTop, hPassBottom⟩
      refine ⟨hLow, hHigh, hRead.floor, hRead.drives,
        ?_, ?_⟩
      · intro _ hUp
        by_contra hTop
        have hPosition : position = 2 * S.maxFloor := by
          omega
        apply hPassTop
        refine ⟨?_, ?_⟩
        · rw [hPosition, sensor, if_pos (by omega)]
          omega
        · rw [← hRead.drives (by simp [hUp])]
          exact hUp
      · intro _ hDown
        by_contra hBottom
        have hPosition : position = 2 * S.minFloor := by
          omega
        apply hPassBottom
        refine ⟨?_, ?_⟩
        · rw [hPosition, sensor, if_pos (by omega)]
          omega
        · rw [← hRead.drives (by simp [hDown])]
          exact hDown

theorem Fits.reacted
    {i : Inputs}
    (hFits : Fits S.toBasicDriverInfo mark position c)
    (hDepart : i.getFloor .depart = sensor position)
    (hMove : Reacted S.toBasicDriverInfo i c c') :
    Fits S.toBasicDriverInfo mark position c' := by
  cases hMove with
  | rested => exact hFits
  | served hState => exact hFits.off rfl rfl
  | left _ hState hDirection hStarts =>
      rw [hDepart] at hStarts
      exact hFits.starts hStarts
  | shut hState => exact hFits.congr rfl rfl rfl

end Fits

------------------------------------------------------------
-- Rides Within the Shaft
------------------------------------------------------------

section Within

variable {S : Shaft}

/- A phase moves the car whether it ends or fails. -/
theorem Ends.moves
    {α : Type}
    {x : LoopM α}
    {R : Car → Car → Prop}
    {s s' : Loop}
    {next : α → Phase}
    {phase : Phase}
    (hMoves : Moves R x)
    (hEnds : Ends x s next phase s') :
    R s.car s'.car := by
  cases hEnds with
  | completed a s' hRun =>
      have hMove := Exec.wp_ok (hMoves s) hRun
      exact hMove
  | failed e t hRun =>
      have hMove := Exec.wp_error (hMoves s) hRun
      exact hMove

/- The car of a ride fits at its position. -/
def Inv
    (d : BasicDriverInfo)
    (r : Ride) : Prop :=
  Fits d r.mark r.position r.loop.car

theorem inv_of_init
    {r : Ride}
    (hInit : Init S.toBasicDriverInfo r) :
    Inv S.toBasicDriverInfo r := by
  cases hInit with
  | intro s position hStarted hFloor hLow hHigh =>
      have hMotor : s.car.motor = .none :=
        motor_of_started hStarted
      refine ⟨hLow, hHigh, hFloor, ?_, ?_, ?_⟩
      · exact fun hMoving => absurd hMotor hMoving
      · intro _ hUp
        rw [hMotor] at hUp
        cases hUp
      · intro _ hDown
        rw [hMotor] at hDown
        cases hDown

theorem inv_of_step
    {r r' : Ride}
    (hInv : Inv S.toBasicDriverInfo r)
    (hStep : Step S.toBasicDriverInfo r r') :
    Inv S.toBasicDriverInfo r' := by
  cases hStep with
  | drift s mark position position' phase hDrift =>
      exact Fits.drift hInv hDrift
  | poll i s s' mark position position' phase hResume hEnds
      hDrift hStop =>
      have hMove := hEnds.moves (refines_pollButtons _ i)
      exact Fits.polled hInv hMove hResume hDrift hStop
  | command i s s' mark position phase hRange hEnds =>
      have hMove := hEnds.moves (refines_pollCommands _ i)
      exact Fits.commanded hInv hMove
  | sense i s s' mark position phase hSense hEnds =>
      have hCar := hEnds.moves (refines_senseFloor _ i)
      unfold Inv
      rw [hCar, hSense]
      exact Fits.sensed hInv
  | react i s s' mark position currentFloor phase hDepart
      hEnds =>
      have hMove :=
        hEnds.moves (refines_react _ i currentFloor)
      exact Fits.reacted hInv hDepart hMove
  | restart e s s' mark position hTag hEnter =>
      -- the deferred stop has cut the motor
      have hCar := (car_of_enter hEnter).1
      rw [car_halted] at hCar
      apply Fits.off hInv
      · rw [hCar]
        rfl
      · rw [hCar]
        rfl

/- The car never overruns its shaft. -/
theorem within_shaft
    {r : Ride}
    (hReach :
      (system S.toBasicDriverInfo).Reachable r) :
    2 * S.minFloor ≤ r.position ∧
      r.position ≤ 2 * S.maxFloor := by
  have hInv : Inv S.toBasicDriverInfo r := by
    apply hReach.invariant
    · exact fun _ hInit => inv_of_init hInit
    · exact fun _ _ hInv hStep => inv_of_step hInv hStep
  exact ⟨hInv.low, hInv.high⟩

/- A ride that drifts to the top of its shaft. -/
theorem within_shaft_firstCall :
    ∃ r, (system twoFloors.toBasicDriverInfo).Reachable r ∧
      r.position = 2 ∧
      2 * twoFloors.minFloor ≤ r.position ∧
      r.position ≤ 2 * twoFloors.maxFloor := by
  rcases firstCall_phases with
    ⟨s, s₁, s₂, s₃, s₄, hEnter, hPoll, hCommand, hSense,
      hReact, hStart, hCar, _⟩
  have hInit :
      (system twoFloors.toBasicDriverInfo).Reachable
        ⟨s, 1, 1, .top⟩ := by
    have hFloor : s.elevState.lastFloor = 0 :=
      congrArg Car.lastFloor hStart
    apply TransitionSystem.Reachable.init
    apply Init.intro
    · exact Started.fresh 0 darkDriver hEnter
    · rw [hFloor]
      decide
    · decide
    · decide
  have hPolled := hInit.step (Step.poll firstCall s s₁ 1 1 1
    .polled rfl (Ends.completed () s₁ hPoll) Drift.stays rfl)
  have hCommanded := hPolled.step (Step.command firstCall s₁
    s₂ 1 1 .commanded (by
      intro c hc
      rw [← Option.some.inj hc]
      decide) (Ends.completed () s₂ hCommand))
  have hSensed := hCommanded.step (Step.sense firstCall s₂
    s₃ 1 1 (.sensed intMin) rfl
    (Ends.completed intMin s₃ hSense))
  have hReacted := hSensed.step (Step.react firstCall s₃ s₄
    1 1 intMin .top rfl (Ends.completed () s₄ hReact))
  have hMotor : s₄.driver.motor = .up :=
    congrArg Car.motor hCar
  have hTop := hReacted.step (Step.drift s₄ 1 1 2 .top
    (Drift.up rfl hMotor))
  exact ⟨_, hTop, rfl, within_shaft hTop⟩

end Within

end Ride

end ElevatorControl
