import ElevatorControl.Library.Iteration
import ElevatorControl.Loop.Cabin
import ElevatorControl.Loop.Ride

/-
  A quiet system drains.

  The loop is closed with an ideal car, which moves by one
  half floor in each iteration and whose sensor knows the
  floors exactly. While nobody presses a button, the requests
  only become fewer. Between two of them the car closes its
  doors, departs, and rides to the next request: perhaps to
  the end of the shaft first, where it turns.

  Key definitions include:
    * `Cabin.Fit`
    * `Cabin.rank`
    * `Closed`
    * `Closed.next`

  Key theorems include:
    * `Cabin.Fit.step`
    * `Cabin.rank_falls`
    * `Closed.drains`
-/

------------------------------------------------------------
-- Cabins in the Shaft
------------------------------------------------------------

namespace ElevatorControl

namespace Cabin

open Car Ride

/- The position after an iteration that ends with the
motor. -/
def moved
    (motor : Direction)
    (position : Int) : Int :=
  match motor with
  | .none => position
  | .up => position + 1
  | .down => position - 1

/-
  The car is in the shaft with its motor running in its
  direction, and stands at a floor while its doors are open;
  the requests are for floors of the shaft.
-/
structure Fit
    (S : Shaft)
    (position : Int)
    (c : Cabin) : Prop where
  low : 2 * S.minFloor ≤ position
  high : position ≤ 2 * S.maxFloor
  floor : S.InRange c.car.lastFloor
  drives : c.car.motor = c.car.direction
  state : c.car.state = .normal ∨
    c.car.state = .waitingForInButton ∧
      c.car.motor = .none ∧ position % 2 = 0
  wanted : ∀ f, c.Wanted f → S.InRange f

section Fit

variable {S : Shaft}
variable {position : Int}
variable {now : ClockRead → MillisecondTime}
variable {c c' : Cabin}

/- The sensor reads a floor of the shaft right at it. -/
theorem inRange_sensor_iff
    (hLow : 2 * S.minFloor ≤ position)
    (hHigh : position ≤ 2 * S.maxFloor) :
    S.InRange (sensor position) ↔ position % 2 = 0 := by
  have hSentinel := S.sentinel
  unfold sensor
  constructor
  · intro hRange
    by_contra hOdd
    rw [if_neg hOdd] at hRange
    exact Loop.not_inRange_intMin hRange
  · intro hEven
    rw [if_pos hEven]
    exact ⟨by omega, by omega⟩

theorem sensor_eq
    (hEven : position % 2 = 0) :
    sensor position = position / 2 :=
  if_pos hEven

/- The car fits at its position after the sensor read. -/
theorem Fit.sensed
    (hFit : Fit S position c) :
    Fits S.toBasicDriverInfo position position
      (c.car.sensed S.toBasicDriverInfo
        (sensor position)) := by
  have hFits :
      Fits S.toBasicDriverInfo (position + 1) position
        c.car := by
    refine ⟨hFit.low, hFit.high, hFit.floor,
      fun _ => hFit.drives, ?_, ?_⟩
    · intro hSame
      omega
    · intro hSame
      omega
  exact hFits.sensed

/- While it waits, the car stands at a floor. -/
theorem Fit.stands
    (hFit : Fit S position c)
    (hWaiting : c.car.state = .waitingForInButton) :
    c.car.motor = .none ∧ position % 2 = 0 := by
  rcases hFit.state with hNormal | ⟨_, hStands⟩
  · rw [hNormal] at hWaiting
    cases hWaiting
  · exact hStands

/- A car that fits is in the shaft after it has moved. -/
theorem in_shaft_moved
    {car : Car}
    (hFits :
      Fits S.toBasicDriverInfo position position car) :
    2 * S.minFloor ≤ moved car.motor position ∧
      moved car.motor position ≤ 2 * S.maxFloor := by
  have hLow := hFits.low
  have hHigh := hFits.high
  unfold moved
  cases hMotor : car.motor with
  | none => exact ⟨hLow, hHigh⟩
  | up =>
      have hTop := hFits.top rfl hMotor
      dsimp only
      omega
  | down =>
      have hBottom := hFits.bottom rfl hMotor
      dsimp only
      omega

/- The motor still runs in the direction of the car. -/
theorem drives_sensed
    {car : Car}
    (hDrives : car.motor = car.direction)
    (d : BasicDriverInfo)
    (reading : Int) :
    (car.sensed d reading).motor =
      (car.sensed d reading).direction := by
  rcases sensed_cases d reading car with hRead | ⟨hHalt, _⟩
  · rw [hRead]
    exact hDrives
  · rw [hHalt]
    rfl

/- A car that stands still does not start by itself. -/
theorem motor_sensed
    {car : Car}
    (hStands : car.motor = .none)
    (d : BasicDriverInfo)
    (reading : Int) :
    (car.sensed d reading).motor = .none := by
  rcases sensed_cases d reading car with hRead | ⟨hHalt, _⟩
  · rw [hRead]
    exact hStands
  · rw [hHalt]
    rfl

theorem Wanted.mono
    {f : Int}
    (hInside : c'.inside ⊆ c.inside)
    (hCalls : ∀ x, c'.calls x ⊆ c.calls x)
    (hWanted : c'.Wanted f) :
    c.Wanted f := by
  rcases hWanted with hMember | ⟨x, hMember⟩
  · exact Or.inl (hInside hMember)
  · exact Or.inr ⟨x, hCalls x hMember⟩

/- A start runs the motor in its direction. -/
theorem drives_starts
    {d : BasicDriverInfo}
    {reading : Int}
    {car car' : Car}
    (hStarts : Starts d reading car car') :
    car'.motor = car'.direction ∧
      car'.direction ≠ .none ∧ car'.state = car.state := by
  cases hStarts with
  | intro dir hSome hMin hMax => exact ⟨rfl, hSome, rfl⟩

/- What a step does to the requests. -/
theorem requests_of_step
    {d : BasicDriverInfo}
    {reading : Int}
    (hStep : Step d reading now c c') :
    c'.inside ⊆ c.inside ∧
      ∀ x, c'.calls x ⊆ c.calls x := by
  cases hStep with
  | serve hState hFloor hWanted =>
      exact ⟨Finset.erase_subset _ _, fun _ => subset_rfl⟩
  | ride => exact ⟨subset_rfl, fun _ => subset_rfl⟩
  | depart car calls hState hStands hPasses hStarts
      hCalls => exact ⟨subset_rfl, hCalls⟩
  | rest => exact ⟨subset_rfl, fun _ => subset_rfl⟩
  | wait => exact ⟨subset_rfl, fun _ => subset_rfl⟩
  | close hState hFloor hLate =>
      exact ⟨subset_rfl, fun _ => Finset.erase_subset _ _⟩

/- The car still fits after a step and the movement that
follows. -/
theorem Fit.step
    (hFit : Fit S position c)
    (hStep : Step S.toBasicDriverInfo (sensor position) now
      c c') :
    Fit S (moved c'.car.motor position) c' := by
  have hSensed := hFit.sensed
  have hDrives := drives_sensed hFit.drives
    S.toBasicDriverInfo (sensor position)
  have hState := state_sensed S.toBasicDriverInfo
    (sensor position) c.car
  rcases requests_of_step hStep with ⟨hInside, hCalls⟩
  have hWanted : ∀ f, c'.Wanted f → S.InRange f :=
    fun f hf => hFit.wanted f (hf.mono hInside hCalls)
  -- what is left to show is about the car
  have hOf :
      ∀ car : Car, c'.car = car →
        Fits S.toBasicDriverInfo position position car →
        car.motor = car.direction →
        (car.state = .normal ∨
          car.state = .waitingForInButton ∧
            car.motor = .none ∧ position % 2 = 0) →
        Fit S (moved c'.car.motor position) c' := by
    rintro car rfl hFits hDrives' hState'
    rcases in_shaft_moved hFits with ⟨hLow, hHigh⟩
    refine ⟨hLow, hHigh, hFits.floor, hDrives', ?_, hWanted⟩
    rcases hState' with hNormal | ⟨hWaiting, hStands, hFloor⟩
    · exact Or.inl hNormal
    · right
      refine ⟨hWaiting, hStands, ?_⟩
      rw [hStands]
      exact hFloor
  cases hStep with
  | serve hNormal hFloor hRequest =>
      apply hOf _ rfl
      · exact hSensed.off rfl rfl
      · rfl
      · exact Or.inr ⟨rfl, rfl,
          (inRange_sensor_iff hFit.low hFit.high).mp hFloor⟩
  | ride hNormal hMoves hPasses =>
      exact hOf _ rfl hSensed hDrives (Or.inl hNormal)
  | depart car calls hNormal hStands hPasses hStarts
      hFewer =>
      rcases drives_starts hStarts with
        ⟨hDrives', _, hSame⟩
      apply hOf _ rfl
      · exact hSensed.starts hStarts
      · exact hDrives'
      · exact Or.inl (hSame.trans hNormal)
  | rest hNormal hStands hNone =>
      exact hOf _ rfl hSensed hDrives (Or.inl hNormal)
  | wait hWaiting hEarly =>
      rcases hFit.stands (hState.symm.trans hWaiting) with
        ⟨hStands, hFloor⟩
      exact hOf _ rfl hSensed hDrives (Or.inr ⟨hWaiting,
        motor_sensed hStands _ _, hFloor⟩)
  | close hWaiting hFloor hLate =>
      apply hOf _ rfl
      · exact hSensed.congr rfl rfl rfl
      · exact hDrives
      · exact Or.inl rfl

end Fit

------------------------------------------------------------
-- Ranks
------------------------------------------------------------

/- How many requests there are. -/
def load
    (c : Cabin) : Nat :=
  c.inside.card + (c.calls .up).card + (c.calls .down).card

/- A request lies ahead of the moving car, or where it is. -/
def Ahead
    (position : Int)
    (c : Cabin) : Prop :=
  ∃ f, c.Wanted f ∧
    match c.car.direction with
    | .up => position ≤ 2 * f
    | .down => 2 * f ≤ position
    | .none => False

open Classical in
/- How far the car has to go at most: to the end of the shaft
it moves to, and all the way back unless a request lies
ahead. -/
noncomputable def distance
    (S : Shaft)
    (position : Int)
    (c : Cabin) : Nat :=
  let way :=
    match c.car.direction with
    | .up => 2 * S.maxFloor - position
    | .down => position - 2 * S.minFloor
    | .none => 0
  (way + if c.Ahead position then 0
    else 2 * (S.maxFloor - S.minFloor)).toNat

/- A hall call is pending where the car is. -/
def Called
    (position : Int)
    (c : Cabin) : Prop :=
  ∃ x, position / 2 ∈ c.calls x

open Classical in
/-
  The stages between two requests, counted down: the doors
  are open, the car stands with its doors closed, it moves,
  and the doors are open for a hall call, which is removed
  when they close.
-/
noncomputable def stage
    (position : Int)
    (c : Cabin) : Nat :=
  match c.car.state with
  | .normal => if c.car.direction = .none then 2 else 1
  | .waitingForInButton => if c.Called position then 0 else 3
  | .stopped => 0

/- For how long the doors stay open at most. -/
def remaining
    (now : ClockRead → MillisecondTime)
    (c : Cabin) : Nat :=
  (c.started + Loop.waitThreshold + 1 -
    now .doorTimeout).toNat

/- What is left to do within the stage. -/
noncomputable def effort
    (S : Shaft)
    (now : ClockRead → MillisecondTime)
    (position : Int)
    (c : Cabin) : Nat :=
  match c.car.state with
  | .waitingForInButton => c.remaining now
  | _ => c.distance S position

/- What is left to do: the requests, then the stages of the
next one, then the way or the time. -/
noncomputable def rank
    (S : Shaft)
    (now : ClockRead → MillisecondTime)
    (position : Int)
    (c : Cabin) : ℕ ×ₗ ℕ ×ₗ ℕ :=
  toLex (c.load,
    toLex (c.stage position, c.effort S now position))

section Rank

variable {S : Shaft}
variable {position : Int}
variable {now now' : ClockRead → MillisecondTime}
variable {c c' : Cabin}

theorem load_le
    (hInside : c'.inside ⊆ c.inside)
    (hCalls : ∀ x, c'.calls x ⊆ c.calls x) :
    c'.load ≤ c.load := by
  have hCard := Finset.card_le_card hInside
  have hUp := Finset.card_le_card (hCalls .up)
  have hDown := Finset.card_le_card (hCalls .down)
  unfold load
  omega

/- The load is zero when nothing is requested. -/
theorem load_eq_zero :
    c.load = 0 ↔ ∀ f, ¬ c.Wanted f := by
  constructor
  · intro hLoad
    have hNone :
        c.inside.card = 0 ∧ (c.calls .up).card = 0 ∧
          (c.calls .down).card = 0 := by
      unfold load at hLoad
      omega
    simp only [Finset.card_eq_zero] at hNone
    rcases hNone with ⟨hInside, hUp, hDown⟩
    rintro f (hMember | ⟨x, hMember⟩)
    · rw [hInside] at hMember
      exact Finset.notMem_empty f hMember
    · cases x with
      | up =>
          rw [hUp] at hMember
          exact Finset.notMem_empty f hMember
      | down =>
          rw [hDown] at hMember
          exact Finset.notMem_empty f hMember
  · intro hNone
    have hInside : c.inside = ∅ :=
      Finset.eq_empty_of_forall_notMem fun f hMember =>
        hNone f (Or.inl hMember)
    have hCalls : ∀ x, c.calls x = ∅ := fun x =>
      Finset.eq_empty_of_forall_notMem fun f hMember =>
        hNone f (Or.inr ⟨x, hMember⟩)
    unfold load
    rw [hInside, hCalls, hCalls]
    rfl

/- There is a request while the load is not zero. -/
theorem exists_wanted
    (hLoad : c.load ≠ 0) :
    ∃ f, c.Wanted f := by
  rw [Ne, load_eq_zero] at hLoad
  exact not_forall_not.mp hLoad

/- The load falls when a call is removed. -/
theorem load_lt_of_called
    {f : Int}
    {x : CallDirection}
    (hInside : c'.inside ⊆ c.inside)
    (hCalls : ∀ y, c'.calls y = (c.calls y).erase f)
    (hCalled : f ∈ c.calls x) :
    c'.load < c.load := by
  have hCard := Finset.card_le_card hInside
  have hErased : ∀ y,
      (c'.calls y).card ≤ (c.calls y).card := by
    intro y
    rw [hCalls y]
    exact Finset.card_erase_le
  have hLost : (c'.calls x).card < (c.calls x).card := by
    rw [hCalls x]
    exact Finset.card_erase_lt_of_mem hCalled
  have hUp := hErased .up
  have hDown := hErased .down
  unfold load
  cases x with
  | up => omega
  | down => omega

theorem load_lt_of_inside
    {f : Int}
    (hMember : f ∈ c.inside)
    (hInside : c'.inside = c.inside.erase f)
    (hCalls : c'.calls = c.calls) :
    c'.load < c.load := by
  have hLost := Finset.card_erase_lt_of_mem hMember
  unfold load
  rw [hInside, hCalls]
  omega

theorem stage_of_moving
    (hState : c.car.state = .normal)
    (hMoves : c.car.direction ≠ .none) :
    c.stage position = 1 := by
  simp [stage, hState, hMoves]

theorem stage_of_standing
    (hState : c.car.state = .normal)
    (hStands : c.car.direction = .none) :
    c.stage position = 2 := by
  simp [stage, hState, hStands]

theorem effort_of_normal
    (hState : c.car.state = .normal) :
    c.effort S now position = c.distance S position := by
  simp [effort, hState]

/- The request that lies ahead stays ahead until the car has
come to it, and there another one must be further ahead. -/
theorem Ahead.moved
    {d : BasicDriverInfo}
    {direction : Direction}
    (hAhead : c.Ahead position)
    (hSame : c.car.direction = direction)
    (hSame' : c'.car.direction = direction)
    (hWanted : ∀ f, c.Wanted f → c'.Wanted f)
    (hPasses : ∀ f, position = 2 * f →
      c.Passes d direction f) :
    c'.Ahead (moved direction position) := by
  rcases hAhead with ⟨f, hf, hPlace⟩
  rw [hSame] at hPlace
  -- the request itself, or another one behind it
  have hFurther :
      ∃ g, c.Wanted g ∧
        match direction with
        | .up => position + 1 ≤ 2 * g
        | .down => 2 * g ≤ position - 1
        | .none => False := by
    by_cases hHere : position = 2 * f
    · have hMore := hPasses f hHere hf
      cases direction with
      | none => exact absurd hPlace id
      | up =>
          rcases hMore with ⟨g, hAbove, hg⟩
          exact ⟨g, hg, by dsimp only; omega⟩
      | down =>
          rcases hMore with ⟨g, hBelow, hg⟩
          exact ⟨g, hg, by dsimp only; omega⟩
    · refine ⟨f, hf, ?_⟩
      cases direction with
      | none => exact hPlace
      | up =>
          dsimp only at hPlace ⊢
          omega
      | down =>
          dsimp only at hPlace ⊢
          omega
  rcases hFurther with ⟨g, hg, hPlace'⟩
  refine ⟨g, hWanted g hg, ?_⟩
  rw [hSame']
  cases direction with
  | none => exact hPlace'
  | up => exact hPlace'
  | down => exact hPlace'

/- The floor the car is at is the one the sensor reads. -/
theorem Fit.at_floor
    {f : Int}
    (hFit : Fit S position c)
    (hHere : position = 2 * f) :
    S.InRange (sensor position) ∧ sensor position = f := by
  have hEven : position % 2 = 0 := by omega
  refine ⟨(inRange_sensor_iff hFit.low hFit.high).mpr hEven,
    ?_⟩
  rw [sensor_eq hEven]
  omega

/- Riding on brings the car closer. -/
theorem distance_ride
    (hFit : Fit S position c)
    (hCar : c'.car = c.car.sensed S.toBasicDriverInfo
      (sensor position))
    (hWanted : ∀ f, c.Wanted f → c'.Wanted f)
    (hMoves : c'.car.direction ≠ .none)
    (hPasses : S.InRange (sensor position) →
      c.Passes S.toBasicDriverInfo c'.car.direction
        (sensor position)) :
    c'.distance S (moved c'.car.motor position) <
      c.distance S position := by
  have hFits := hFit.sensed
  have hDrives := drives_sensed hFit.drives
    S.toBasicDriverInfo (sensor position)
  rw [← hCar] at hFits hDrives
  have hSame : c'.car.direction = c.car.direction := by
    rcases sensed_cases S.toBasicDriverInfo
      (sensor position) c.car with hRead | ⟨hHalt, _⟩
    · rw [hCar, hRead]
      rfl
    · rw [hCar, hHalt] at hMoves
      exact absurd rfl hMoves
  have hOn :
      c.Ahead position →
        c'.Ahead (moved c'.car.direction position) := by
    intro hAhead
    apply hAhead.moved hSame.symm rfl hWanted
    intro f hHere
    rcases hFit.at_floor hHere with ⟨hFloor, hReading⟩
    rw [hReading] at hFloor hPasses
    exact hPasses hFloor
  rw [hDrives]
  have hSpan := S.ordered
  have hEnds :
      (c'.car.direction = .up → position < 2 * S.maxFloor) ∧
        (c'.car.direction = .down →
          2 * S.minFloor < position) :=
    ⟨fun hUp => hFits.top rfl (hDrives.trans hUp),
      fun hDown => hFits.bottom rfl (hDrives.trans hDown)⟩
  unfold distance
  rw [← hSame]
  -- the way to the end shrinks by one
  have hWay :
      ∀ turns turns' : Int, turns' ≤ turns → 0 ≤ turns' →
        ((match c'.car.direction with
          | .up => 2 * S.maxFloor -
              moved c'.car.direction position
          | .down => moved c'.car.direction position -
              2 * S.minFloor
          | .none => 0) + turns').toNat <
        ((match c'.car.direction with
          | .up => 2 * S.maxFloor - position
          | .down => position - 2 * S.minFloor
          | .none => 0) + turns).toNat := by
    intro turns turns' hTurns hNonneg
    cases hDirection : c'.car.direction with
    | none => exact absurd hDirection hMoves
    | up =>
        have hTop := hEnds.1 hDirection
        simp only [moved]
        omega
    | down =>
        have hBottom := hEnds.2 hDirection
        simp only [moved]
        omega
  apply hWay
  · by_cases hAhead : c.Ahead position
    · rw [if_pos hAhead, if_pos (hOn hAhead)]
    · rw [if_neg hAhead]
      split
      · omega
      · exact Int.le_refl _
  · split
    · exact Int.le_refl _
    · omega

/- Nothing is requested at an end that the car leaves. -/
theorem Fit.free_end
    {f : Int}
    (hFit : Fit S position c)
    (hPasses : S.InRange (sensor position) →
      c.Passes S.toBasicDriverInfo .none (sensor position))
    (hReading : sensor position = f)
    (hEnd : f = S.minFloor ∨ f = S.maxFloor) :
    position = 2 * f ∧ ¬ c.Wanted f := by
  have hOrdered := S.ordered
  have hRange : S.InRange f := by
    rcases hEnd with rfl | rfl
    · exact ⟨Int.le_refl _, Int.le_of_lt hOrdered⟩
    · exact ⟨Int.le_of_lt hOrdered, Int.le_refl _⟩
  rw [hReading] at hPasses
  constructor
  · rw [← hReading] at hRange
    have hEven :=
      (inRange_sensor_iff hFit.low hFit.high).mp hRange
    have hHere := sensor_eq hEven
    omega
  · intro hWanted
    rcases hPasses hRange hWanted with ⟨hMin, hMax⟩
    exact hEnd.elim hMin hMax

/- A car that turns at an end has a request ahead. -/
theorem distance_turn
    {car : Car}
    (hFit : Fit S position c)
    (hEnd :
      (sensor position = S.maxFloor ∧
          c.car.direction = .up) ∨
        (sensor position = S.minFloor ∧
          c.car.direction = .down))
    (hStarts : Starts S.toBasicDriverInfo
      (sensor position) car c'.car)
    (hPasses : S.InRange (sensor position) →
      c.Passes S.toBasicDriverInfo .none (sensor position))
    (hFewer : ∀ f, c'.Wanted f → c.Wanted f)
    (hSome : ∃ f, c'.Wanted f) :
    c'.distance S (moved c'.car.motor position) <
      c.distance S position := by
  have hSpan := S.ordered
  have hMotor := (drives_starts hStarts).1
  rcases hSome with ⟨g, hg⟩
  have hRequest := hFewer g hg
  rcases hEnd with ⟨hReading, hUp⟩ | ⟨hReading, hDown⟩
  · rcases hFit.free_end hPasses hReading (Or.inr rfl) with
      ⟨hTop, hFree⟩
    have hBehind : ∀ f, c.Wanted f → f < S.maxFloor := by
      intro f hf
      apply lt_of_le_of_ne (hFit.wanted f hf).2
      rintro rfl
      exact hFree hf
    have hTurns : c'.car.direction = .down := by
      have hAfter := floorAfter_top (c := car) hTop
      generalize c'.car = car' at hStarts
      cases hStarts with
      | intro dir hNonzero hMin hMax => exact hMax hSpan hAfter
    have hAway : ¬ c.Ahead position := by
      rintro ⟨f, hf, hLies⟩
      simp only [hUp] at hLies
      have hLess := hBehind f hf
      omega
    have hNear : c'.Ahead (position - 1) := by
      refine ⟨g, hg, ?_⟩
      have hLess := hBehind g hRequest
      simp only [hTurns]
      omega
    rw [hMotor, hTurns]
    unfold distance moved
    simp only [hTurns, hUp]
    rw [if_neg hAway, if_pos hNear]
    omega
  · rcases hFit.free_end hPasses hReading (Or.inl rfl) with
      ⟨hBottom, hFree⟩
    have hBehind : ∀ f, c.Wanted f → S.minFloor < f := by
      intro f hf
      apply lt_of_le_of_ne (hFit.wanted f hf).1
      rintro rfl
      exact hFree hf
    have hTurns : c'.car.direction = .up := by
      have hAfter := floorAfter_bottom (c := car) hBottom
      generalize c'.car = car' at hStarts
      cases hStarts with
      | intro dir hNonzero hMin hMax => exact hMin hAfter
    have hAway : ¬ c.Ahead position := by
      rintro ⟨f, hf, hLies⟩
      simp only [hDown] at hLies
      have hLess := hBehind f hf
      omega
    have hNear : c'.Ahead (position + 1) := by
      refine ⟨g, hg, ?_⟩
      have hLess := hBehind g hRequest
      simp only [hTurns]
      omega
    rw [hMotor, hTurns]
    unfold distance moved
    simp only [hTurns, hDown]
    rw [if_neg hAway, if_pos hNear]
    omega

theorem stage_of_open
    (hState : c.car.state = .waitingForInButton)
    (hCalled : c.Called position) :
    c.stage position = 0 := by
  simp [stage, hState, hCalled]

theorem stage_of_idle
    (hState : c.car.state = .waitingForInButton)
    (hFree : ¬ c.Called position) :
    c.stage position = 3 := by
  simp [stage, hState, hFree]

theorem stage_pos
    (hState : c.car.state = .normal) :
    0 < c.stage position := by
  by_cases hStands : c.car.direction = .none
  · rw [stage_of_standing hState hStands]
    decide
  · rw [stage_of_moving hState hStands]
    decide

theorem effort_of_waiting
    (hState : c.car.state = .waitingForInButton) :
    c.effort S now position = c.remaining now := by
  simp [effort, hState]

/- What makes the rank fall. -/
def Falls
    (S : Shaft)
    (now now' : ClockRead → MillisecondTime)
    (position position' : Int)
    (c c' : Cabin) : Prop :=
  c'.load < c.load ∨ c'.load ≤ c.load ∧
    (c'.stage position' < c.stage position ∨
      c'.stage position' ≤ c.stage position ∧
        c'.effort S now' position' < c.effort S now position)

/- A served rider is gone; the doors opened for a call are
the last stage before it is removed. -/
theorem falls_serve
    {f position' : Int}
    (hHere : position' / 2 = f)
    (hBefore : c.car.state = .normal)
    (hAfter : c'.car.state = .waitingForInButton)
    (hWanted : c.Wanted f)
    (hInside : c'.inside = c.inside.erase f)
    (hCalls : c'.calls = c.calls) :
    Falls S now now' position position' c c' := by
  rcases hWanted with hMember | ⟨x, hMember⟩
  · exact Or.inl (load_lt_of_inside hMember hInside hCalls)
  · refine Or.inr ⟨?_, Or.inl ?_⟩
    · apply load_le
      · rw [hInside]
        exact Finset.erase_subset _ _
      · intro y
        rw [hCalls]
    · have hCalled : c'.Called position' := by
        refine ⟨x, ?_⟩
        rw [hHere, hCalls]
        exact hMember
      rw [stage_of_open hAfter hCalled]
      exact stage_pos hBefore

theorem falls_ride
    (hFit : Fit S position c)
    (hCar : c'.car = c.car.sensed S.toBasicDriverInfo
      (sensor position))
    (hInside : c'.inside = c.inside)
    (hCalls : c'.calls = c.calls)
    (hBefore : c.car.state = .normal)
    (hMoves : c'.car.direction ≠ .none)
    (hPasses : S.InRange (sensor position) →
      c.Passes S.toBasicDriverInfo c'.car.direction
        (sensor position)) :
    Falls S now now' position
      (moved c'.car.motor position) c c' := by
  have hAfter : c'.car.state = .normal := by
    rw [hCar, state_sensed]
    exact hBefore
  have hMoved : c.car.direction ≠ .none := by
    rw [hCar] at hMoves
    rcases sensed_cases S.toBasicDriverInfo
      (sensor position) c.car with hRead | ⟨hHalt, _⟩
    · rw [hRead] at hMoves
      exact hMoves
    · rw [hHalt] at hMoves
      exact absurd rfl hMoves
  have hWanted : ∀ f, c.Wanted f → c'.Wanted f := by
    intro f hf
    unfold Wanted
    rw [hInside, hCalls]
    exact hf
  refine Or.inr ⟨?_, Or.inr ⟨?_, ?_⟩⟩
  · unfold load
    rw [hInside, hCalls]
  · rw [stage_of_moving hAfter hMoves,
      stage_of_moving hBefore hMoved]
  · rw [effort_of_normal hAfter, effort_of_normal hBefore]
    exact distance_ride hFit hCar hWanted hMoves hPasses

/- A car that stood still moves now; one that turns at an end
has the requests ahead that are left. -/
theorem falls_depart
    (hFit : Fit S position c)
    (hLoad : c.load ≠ 0)
    (hInside : c'.inside ⊆ c.inside)
    (hCalls : ∀ x, c'.calls x ⊆ c.calls x)
    (hBefore : c.car.state = .normal)
    (hStands : (c.car.sensed S.toBasicDriverInfo
      (sensor position)).direction = .none)
    (hStarts : Starts S.toBasicDriverInfo (sensor position)
      (c.car.sensed S.toBasicDriverInfo (sensor position))
      c'.car)
    (hPasses : S.InRange (sensor position) →
      c.Passes S.toBasicDriverInfo .none (sensor position)) :
    Falls S now now' position
      (moved c'.car.motor position) c c' := by
  have hLe := load_le hInside hCalls
  rcases drives_starts hStarts with ⟨_, hGoes, hSame⟩
  have hAfter : c'.car.state = .normal := by
    rw [hSame, state_sensed]
    exact hBefore
  rcases sensed_cases S.toBasicDriverInfo
    (sensor position) c.car with hRead | ⟨_, hEnd⟩
  · refine Or.inr ⟨hLe, Or.inl ?_⟩
    rw [hRead] at hStands
    rw [stage_of_moving hAfter hGoes,
      stage_of_standing hBefore hStands]
    decide
  · by_cases hNone : c'.load = 0
    · left
      rw [hNone]
      exact Nat.pos_of_ne_zero hLoad
    · have hMoved : c.car.direction ≠ .none := by
        rcases hEnd with ⟨_, hUp⟩ | ⟨_, hDown⟩
        · rw [hUp]
          decide
        · rw [hDown]
          decide
      refine Or.inr ⟨hLe, Or.inr ⟨?_, ?_⟩⟩
      · rw [stage_of_moving hAfter hGoes,
          stage_of_moving hBefore hMoved]
      · rw [effort_of_normal hAfter,
          effort_of_normal hBefore]
        exact distance_turn hFit hEnd hStarts hPasses
          (fun _ hf => hf.mono hInside hCalls)
          (exists_wanted hNone)

/- While the doors are open, time passes. -/
theorem falls_wait
    (hClock : now .doorTimeout + 1 ≤ now' .doorTimeout)
    (hEarly :
      now .doorTimeout ≤ c.started + Loop.waitThreshold)
    (hBefore : c.car.state = .waitingForInButton)
    (hAfter : c'.car.state = .waitingForInButton)
    (hInside : c'.inside = c.inside)
    (hCalls : c'.calls = c.calls)
    (hStarted : c'.started = c.started) :
    Falls S now now' position position c c' := by
  refine Or.inr ⟨?_, Or.inr ⟨?_, ?_⟩⟩
  · unfold load
    rw [hInside, hCalls]
  · have hSame : c'.Called position ↔ c.Called position := by
      unfold Called
      rw [hCalls]
    by_cases hCalled : c.Called position
    · rw [stage_of_open hAfter (hSame.mpr hCalled)]
      exact Nat.zero_le _
    · rw [stage_of_idle hBefore hCalled,
        stage_of_idle hAfter (hCalled ∘ hSame.mp)]
  · have hTimer :
        ∀ a t t' : Int, t + 1 ≤ t' → t ≤ a →
          (a + 1 - t').toNat < (a + 1 - t).toNat := by
      intro a t t' hLater hOpen
      omega
    rw [effort_of_waiting hBefore, effort_of_waiting hAfter]
    unfold remaining
    rw [hStarted]
    exact hTimer _ _ _ hClock hEarly

/- With the doors, the calls of the floor are gone. -/
theorem falls_close
    {f position' : Int}
    (hHere : position / 2 = f)
    (hInside : c'.inside = c.inside)
    (hCalls : ∀ x, c'.calls x = (c.calls x).erase f)
    (hBefore : c.car.state = .waitingForInButton)
    (hAfter : c'.car.state = .normal)
    (hStill : c'.car.direction = .none) :
    Falls S now now' position position' c c' := by
  by_cases hCalled : c.Called position
  · rcases hCalled with ⟨x, hMember⟩
    rw [hHere] at hMember
    exact Or.inl
      (load_lt_of_called hInside.subset hCalls hMember)
  · refine Or.inr ⟨?_, Or.inl ?_⟩
    · apply load_le hInside.subset
      intro x
      rw [hCalls x]
      exact Finset.erase_subset _ _
    · rw [stage_of_idle hBefore hCalled,
        stage_of_standing hAfter hStill]
      decide

/-
  While there are requests, every step makes the rank fall:
  a request is removed, the next stage begins, the car comes
  closer to a request, or time passes with open doors.
-/
theorem rank_falls
    (hFit : Fit S position c)
    (hLoad : c.load ≠ 0)
    (hClock : now .doorTimeout + 1 ≤ now' .doorTimeout)
    (hStep : Step S.toBasicDriverInfo (sensor position) now
      c c') :
    c'.rank S now' (moved c'.car.motor position) <
      c.rank S now position := by
  have hState := (state_sensed S.toBasicDriverInfo
    (sensor position) c.car).symm
  have hAtFloor :
      S.InRange (sensor position) →
        position / 2 = sensor position := by
    intro hFloor
    rw [sensor_eq
      ((inRange_sensor_iff hFit.low hFit.high).mp hFloor)]
  apply Iteration.rank_lt
  cases hStep with
  | serve hNormal hFloor hWanted =>
      exact falls_serve (hAtFloor hFloor)
        (hState.trans hNormal) rfl hWanted rfl rfl
  | ride hNormal hMoves hPasses =>
      exact falls_ride hFit rfl rfl rfl
        (hState.trans hNormal) hMoves hPasses
  | depart car calls hNormal hStands hPasses hStarts
      hFewer =>
      exact falls_depart hFit hLoad subset_rfl hFewer
        (hState.trans hNormal) hStands hStarts hPasses
  | rest hNormal hStands hNone =>
      rcases exists_wanted hLoad with ⟨f, hf⟩
      exact absurd hf (hNone f)
  | wait hWaiting hEarly =>
      have hBefore := hState.trans hWaiting
      simp only [motor_sensed (hFit.stands hBefore).1, moved]
      exact falls_wait hClock hEarly hBefore hWaiting rfl rfl
        rfl
  | close hWaiting hFloor hLate =>
      have hBefore := hState.trans hWaiting
      have hStill :
          (c.car.sensed S.toBasicDriverInfo
            (sensor position)).direction = .none := by
        rw [← drives_sensed hFit.drives]
        exact motor_sensed (hFit.stands hBefore).1 _ _
      exact falls_close (hAtFloor hFloor) rfl (fun _ => rfl)
        hBefore rfl hStill

end Rank

end Cabin

------------------------------------------------------------
-- The Closed Loop
------------------------------------------------------------

/- The loop with the car it controls. -/
structure Closed where
  loop : Loop
  position : Int

namespace Closed

open Loop Exec Iteration

/- Nothing happens but that the sensor reads the position of
the car. -/
def quietInputs
    (now : ClockRead → MillisecondTime)
    (position : Int) : Inputs where
  getButtonSignal _ := false
  getStop := false
  getObstruction := false
  tryDequeue := none
  getFloor _ := Ride.sensor position
  now := now

/- An iteration, in the inputs of which nothing happens, and
after which the car moves. -/
def next
    (d : BasicDriverInfo)
    (now : Nat → ClockRead → MillisecondTime)
    (n : Nat)
    (c : Closed) : Except AssertionFailed Closed :=
  match loopBody d (quietInputs (now n) c.position)
      c.loop with
  | .ok _ t =>
      .ok ⟨t, Cabin.moved t.driver.motor c.position⟩
  | .error e _ => .error e

/- Every read of the clock is later than the same read in the
iteration before. -/
def Advances
    (now : Nat → ClockRead → MillisecondTime) : Prop :=
  ∀ n r, now n r + 1 ≤ now (n + 1) r

/- No request is left. -/
def Drained
    (c : Closed) : Prop :=
  c.loop.elevState.insideButtons = .empty ∧
    c.loop.elevState.upButtons = .empty ∧
    c.loop.elevState.downButtons = .empty

/-
  A consistent state with the car in the shaft. The doors of
  a waiting elevator may have been open for any time, and the
  last floor may be any floor of the shaft.
-/
structure Calm
    (S : Shaft)
    (id : Int)
    (c : Closed) : Prop where
  consistent : Consistent S.toBasicDriverInfo id c.loop
  low : 2 * S.minFloor ≤ c.position
  high : c.position ≤ 2 * S.maxFloor
  drives : c.loop.driver.motor = c.loop.elevState.direction
  state : c.loop.state = .normal ∨
    c.loop.state = .waitingForInButton ∧
      c.loop.driver.motor = .none ∧ c.position % 2 = 0

section Drains

variable {S : Shaft}
variable {id : Int}
variable {now : Nat → ClockRead → MillisecondTime}
variable {c c' : Closed}
variable {n : Nat}

theorem quiet_quietInputs
    (now : ClockRead → MillisecondTime)
    (position : Int) :
    (quietInputs now position).Quiet where
  buttons _ := rfl
  stop := rfl
  clear := rfl
  commands := rfl

/- What the car is like is said by the state and its
cabin. -/
theorem Calm.fit
    (hCalm : Calm S id c) :
    Cabin.Fit S c.position
      (c.loop.cabin S.toBasicDriverInfo) where
  low := hCalm.low
  high := hCalm.high
  floor := hCalm.consistent.lastFloor
  drives := hCalm.drives
  state := hCalm.state
  wanted _ hWanted := (wanted_iff.mp hWanted).1

theorem calm_of_fit
    (hConsistent :
      Consistent S.toBasicDriverInfo id c.loop)
    (hFit : Cabin.Fit S c.position
      (c.loop.cabin S.toBasicDriverInfo)) :
    Calm S id c where
  consistent := hConsistent
  low := hFit.low
  high := hFit.high
  drives := hFit.drives
  state := hFit.state

/- An iteration completes and is a step of the cabin. -/
theorem next_ok
    (now : Nat → ClockRead → MillisecondTime)
    (hCalm : Calm S id c)
    (n : Nat) :
    ∃ c', next S.toBasicDriverInfo now n c = .ok c' ∧
      c'.position =
        Cabin.moved c'.loop.driver.motor c.position ∧
      Consistent S.toBasicDriverInfo id c'.loop ∧
      Cabin.Step S.toBasicDriverInfo
        (Ride.sensor c.position) (now n)
        (c.loop.cabin S.toBasicDriverInfo)
        (c'.loop.cabin S.toBasicDriverInfo) := by
  have hFloor :=
    Cabin.inRange_sensor_iff hCalm.low hCalm.high
  have hReading :
      Ride.sensor c.position = intMin ∨
        S.InRange (Ride.sensor c.position) := by
    by_cases hEven : c.position % 2 = 0
    · exact Or.inr (hFloor.mpr hEven)
    · exact Or.inl (if_neg hEven)
  have hState :
      c.loop.state = .normal ∨
        c.loop.state = .waitingForInButton ∧
          S.InRange (Ride.sensor c.position) := by
    rcases hCalm.state with hNormal | ⟨hWaiting, _, hEven⟩
    · exact Or.inl hNormal
    · exact Or.inr ⟨hWaiting, hFloor.mpr hEven⟩
  have hSensed :
      (quietInputs (now n) c.position).Sensed
        S.toBasicDriverInfo :=
    sensed_of_const (fun _ => rfl) hReading
  have hAddressed :
      (quietInputs (now n) c.position).Addressed
        S.toBasicDriverInfo id :=
    addressed_of_none rfl
  have hSees :
      ¬ ClosesBlind (quietInputs (now n) c.position)
        c.loop := by
    rintro ⟨hWaiting, _, _, hBlind⟩
    rcases hState with hNormal | ⟨_, hRange⟩
    · rw [hNormal] at hWaiting
      cases hWaiting
    · apply not_inRange_intMin (S := S)
      rw [← hBlind]
      exact hRange
  rcases (completes_iff_of_consistent hSensed hAddressed
    hCalm.consistent).mpr hSees with ⟨t, hRun⟩
  have hStep := wp_ok (refines_quiet
    (quiet_quietInputs (now n) c.position) (fun _ => rfl)
    hReading hCalm.consistent hState) hRun
  refine ⟨⟨t, Cabin.moved t.driver.motor c.position⟩, ?_,
    rfl, ?_, hStep⟩
  · rw [next, hRun]
  · exact consistent_of_step hSensed hAddressed
      hCalm.consistent (.iterate hRun)

/- The state stays calm, and the rank falls while there are
requests. -/
theorem next_falls
    (hClock : Advances now)
    (n : Nat)
    (c : Closed)
    (hCalm : Calm S id c) :
    ∃ c', next S.toBasicDriverInfo now n c = .ok c' ∧
      Calm S id c' ∧
      (¬ (c.loop.cabin S.toBasicDriverInfo).load = 0 →
        (c'.loop.cabin S.toBasicDriverInfo).rank S
            (now (n + 1)) c'.position <
          (c.loop.cabin S.toBasicDriverInfo).rank S
            (now n) c.position) := by
  rcases next_ok now hCalm n with
    ⟨c', hNext, hMoved, hConsistent, hStep⟩
  refine ⟨c', hNext, ?_, ?_⟩
  · apply calm_of_fit hConsistent
    rw [hMoved]
    exact hCalm.fit.step hStep
  · intro hLoad
    rw [hMoved]
    exact Cabin.rank_falls hCalm.fit hLoad
      (hClock n _) hStep

/- Without load there are no requests. -/
theorem drained_of_load
    (hConsistent :
      Consistent S.toBasicDriverInfo id c.loop)
    (hLoad :
      (c.loop.cabin S.toBasicDriverInfo).load = 0) :
    c.Drained := by
  have hNone :
      ∀ f, ¬ (c.loop.cabin S.toBasicDriverInfo).Wanted f :=
    Cabin.load_eq_zero.mp hLoad
  refine ⟨FloorSet.eq_empty_of_members hConsistent.inside ?_,
    FloorSet.eq_empty_of_members (hConsistent.calls .up) ?_,
    FloorSet.eq_empty_of_members (hConsistent.calls .down)
      ?_⟩
  · exact Finset.eq_empty_of_forall_notMem fun f hMember =>
      hNone f (Or.inl hMember)
  · exact Finset.eq_empty_of_forall_notMem fun f hMember =>
      hNone f (Or.inr ⟨.up, hMember⟩)
  · exact Finset.eq_empty_of_forall_notMem fun f hMember =>
      hNone f (Or.inr ⟨.down, hMember⟩)

/- A rider is let out at the floor of the request, with the
motor stopped and the doors open. -/
theorem served_of_step
    {f : Int}
    (hCalm : Calm S id c)
    (hMoved : c'.position =
      Cabin.moved c'.loop.driver.motor c.position)
    (hStep : Cabin.Step S.toBasicDriverInfo
      (Ride.sensor c.position) (now n)
      (c.loop.cabin S.toBasicDriverInfo)
      (c'.loop.cabin S.toBasicDriverInfo))
    (hBefore :
      f ∈ (c.loop.cabin S.toBasicDriverInfo).inside)
    (hAfter :
      f ∉ (c'.loop.cabin S.toBasicDriverInfo).inside) :
    c'.position = 2 * f ∧
      c'.loop.driver.motor = .none ∧
      c'.loop.driver.doorOpenLamp = true := by
  generalize hCabin :
    c'.loop.cabin S.toBasicDriverInfo = after at hStep hAfter
  cases hStep with
  | serve hNormal hFloor hWanted =>
      have hEven := (Cabin.inRange_sensor_iff hCalm.low
        hCalm.high).mp hFloor
      have hHere : f = Ride.sensor c.position := by
        by_contra hOther
        exact hAfter
          (Finset.mem_erase.mpr ⟨hOther, hBefore⟩)
      have hMotor : c'.loop.driver.motor = .none :=
        congrArg (fun cabin => cabin.car.motor) hCabin
      have hLamp : c'.loop.driver.doorOpenLamp = true :=
        congrArg (fun cabin => cabin.car.doorOpenLamp)
          hCabin
      refine ⟨?_, hMotor, hLamp⟩
      rw [hMoved, hMotor, hHere, Cabin.sensor_eq hEven]
      dsimp only [Cabin.moved]
      omega
  | ride => exact absurd hBefore hAfter
  | depart => exact absurd hBefore hAfter
  | rest => exact absurd hBefore hAfter
  | wait => exact absurd hBefore hAfter
  | close => exact absurd hBefore hAfter

/-
  From every calm state, with requests of any kind and while
  nothing happens, the loop comes to a state without
  requests; and it lets every rider out at their floor.
-/
theorem drains
    (hClock : Advances now)
    (hCalm : Calm S id c) :
    (∃ n c', run (next S.toBasicDriverInfo now) n c =
        .ok c' ∧ c'.Drained) ∧
      ∀ f, S.InRange f →
        c.loop.elevState.insideButtons.mem f
          S.toBasicDriverInfo = true →
        ∃ n c', run (next S.toBasicDriverInfo now) n c =
            .ok c' ∧
          0 < n ∧ c'.position = 2 * f ∧
          c'.loop.driver.motor = .none ∧
          c'.loop.driver.doorOpenLamp = true := by
  have hNext :
      ∀ n c, Calm S id c → ∃ c',
        next S.toBasicDriverInfo now n c = .ok c' ∧
          Calm S id c' := by
    intro n c hCalm
    rcases next_falls hClock n c hCalm with
      ⟨c', hNext, hCalm', _⟩
    exact ⟨c', hNext, hCalm'⟩
  rcases reaches_of_rank
      (fun n c => (c.loop.cabin S.toBasicDriverInfo).rank S
        (now n) c.position)
      (next_falls hClock) hCalm with
    ⟨n, c', hRun, hLoad⟩
  have hConsistent := (inv_of_run hNext hCalm hRun).consistent
  constructor
  · exact ⟨n, c', hRun, drained_of_load hConsistent hLoad⟩
  · intro f hf hMem
    have hFirst :
        f ∈ (c.loop.cabin S.toBasicDriverInfo).inside :=
      FloorSet.mem_members.mpr ⟨hf, hMem⟩
    have hLater :
        f ∉ (c'.loop.cabin S.toBasicDriverInfo).inside :=
      fun hMember => Cabin.load_eq_zero.mp hLoad f
        (Or.inl hMember)
    rcases exists_change
        (P := fun c =>
          f ∈ (c.loop.cabin S.toBasicDriverInfo).inside)
        hRun hFirst hLater with
      ⟨k, u, v, hBefore, hLost, hHolds, hGone⟩
    have hCalm' := inv_of_run hNext hCalm hBefore
    rcases next_ok now hCalm' k with
      ⟨v', hLost', hMoved, _, hStep⟩
    rw [hLost] at hLost'
    obtain rfl := Except.ok.inj hLost'
    exact ⟨k + 1, v, (run_succ hBefore).trans hLost,
      Nat.succ_pos k,
      served_of_step hCalm' hMoved hStep hHolds hGone⟩

end Drains

/- A recovered elevator with a rider stands between the two
floors, and the clock ticks once in an iteration. -/
theorem drains_riderInside :
    ∃ s, enter twoFloors.toBasicDriverInfo
        (recover riderInside
          (create twoFloors.toBasicDriverInfo 0
            darkDriver)) = .ok () s ∧
      (∃ n c',
        run (next twoFloors.toBasicDriverInfo
          fun n _ => (n : Int)) n ⟨s, 1⟩ = .ok c' ∧
          c'.Drained) ∧
      ∃ n c',
        run (next twoFloors.toBasicDriverInfo
          fun n _ => (n : Int)) n ⟨s, 1⟩ = .ok c' ∧
          0 < n ∧ c'.position = 2 * 0 ∧
          c'.loop.driver.motor = .none ∧
          c'.loop.driver.doorOpenLamp = true := by
  have hStart :
      ∃ s, enter twoFloors.toBasicDriverInfo
          (recover riderInside
            (create twoFloors.toBasicDriverInfo 0
              darkDriver)) = .ok () s ∧
        s.driver.motor = s.elevState.direction ∧
        s.state = .normal ∧
        s.elevState.insideButtons.mem 0
          twoFloors.toBasicDriverInfo = true :=
    ⟨_, rfl, rfl, rfl, rfl⟩
  rcases hStart with ⟨s, hEnter, hDrives, hNormal, hMem⟩
  have hCalm : Calm twoFloors 0 ⟨s, 1⟩ := by
    have hInShaft :
        2 * twoFloors.minFloor ≤ 1 ∧
          1 ≤ 2 * twoFloors.maxFloor := by decide
    exact ⟨consistent_of_started (.recovered 0 darkDriver
      riderInside rfl rfl (by decide) hEnter),
      hInShaft.1, hInShaft.2, hDrives, Or.inl hNormal⟩
  have hClock : Advances fun n _ => (n : Int) := by
    intro n _
    exact Int.le_of_eq (Int.natCast_succ n).symm
  rcases drains hClock hCalm with ⟨hDrained, hServed⟩
  exact ⟨s, hEnter, hDrained, hServed 0 (by decide) hMem⟩

end Closed

end ElevatorControl
