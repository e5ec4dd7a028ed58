import ElevatorControl.Loop.Basic

/-
  What the single operations of the control loop do.

  Operations that cannot fail are given as equations with
  the state they leave. For the others, frame theorems say
  which projections of the loop state they leave.

  Key definitions include:
    * `Loop.IgnoresPanel`
    * `Loop.majority`
    * `Loop.startDirection`
    * `Loop.departed`

  Key theorems include:
    * `Driver.shutdown_ok`
    * `Loop.keeps_handleButtons`
    * `Loop.startElevator_eq`
-/

------------------------------------------------------------
-- Driver Operations
------------------------------------------------------------

namespace ElevatorControl

namespace Driver

variable {d : BasicDriverInfo}
variable {v v' : Driver}
variable {btn : Button}
variable {state : Bool}

theorem lamp_eq
    (hRange : d.InRange btn.floor) :
    lamp d btn = .ok () := by
  simp only [lamp, assert_true hRange.1,
    assert_true hRange.2]
  rfl

theorem button_eq
    (hRange : d.InRange btn.floor) :
    button d btn = .ok () := by
  simp only [button, assert_true hRange.1,
    assert_true hRange.2]
  rfl

theorem setButtonLamp_eq
    (hRange : d.InRange btn.floor) :
    setButtonLamp d btn state v =
      .ok { v with
        buttonLamp :=
          Function.update v.buttonLamp btn state } := by
  simp only [setButtonLamp, lamp_eq hRange]
  rfl

theorem lamp_error
    (hRange : ¬ d.InRange btn.floor) :
    ∃ msg, lamp d btn = .error ⟨msg, .generall⟩ := by
  unfold BasicDriverInfo.InRange at hRange
  unfold lamp
  by_cases hMax : btn.floor ≤ d.maxFloor
  · have hMin : ¬ d.minFloor ≤ btn.floor := by
      intro hMin
      exact hRange ⟨hMin, hMax⟩
    rw [assert_true hMax, assert_false hMin]
    exact ⟨_, rfl⟩
  · rw [assert_false hMax]
    exact ⟨_, rfl⟩

theorem setButtonLamp_error
    (hRange : ¬ d.InRange btn.floor) :
    ∃ msg, setButtonLamp d btn state v =
      .error ⟨msg, .generall⟩ := by
  rcases lamp_error hRange with ⟨msg, hLamp⟩
  exact ⟨msg, by simp only [setButtonLamp, hLamp]; rfl⟩

/- A lamp write that succeeds changes only that lamp. -/
theorem eq_of_setButtonLamp_ok
    (hSet : setButtonLamp d btn state v = .ok v') :
    d.InRange btn.floor ∧
      v' = { v with
        buttonLamp :=
          Function.update v.buttonLamp btn state } := by
  by_cases hRange : d.InRange btn.floor
  · rw [setButtonLamp_eq hRange] at hSet
    exact ⟨hRange, (Except.ok.inj hSet).symm⟩
  · have hError :
        ∃ msg, setButtonLamp d btn state v =
          .error ⟨msg, .generall⟩ :=
      setButtonLamp_error hRange
    rcases hError with ⟨msg, hError⟩
    rw [hError] at hSet
    cases hSet

theorem setFloorIndicator_eq
    {floor : Int}
    (hRange : d.InRange floor) :
    setFloorIndicator d floor v =
      .ok { v with
        floorInd1 := (floor - 1) / 2 % 2 = 1
        floorInd2 := (floor - 1) % 2 = 1 } := by
  simp only [setFloorIndicator, assert_true hRange.1,
    assert_true hRange.2]
  rfl

/- The indicator is set for floors in range only. -/
theorem setFloorIndicator_error
    {floor : Int}
    (hRange : ¬ d.InRange floor) :
    ∃ msg, setFloorIndicator d floor v =
      .error ⟨msg, .generall⟩ := by
  unfold BasicDriverInfo.InRange at hRange
  unfold setFloorIndicator
  by_cases hMin : d.minFloor ≤ floor
  · have hMax : ¬ floor ≤ d.maxFloor := by
      intro hMax
      exact hRange ⟨hMin, hMax⟩
    rw [assert_true hMin, assert_false hMax]
    exact ⟨_, rfl⟩
  · rw [assert_false hMin]
    exact ⟨_, rfl⟩

@[simp] theorem motor_stopElevator :
    v.stopElevator.motor = .none := by
  simp [motor, stopElevator]

/- The state a successful start leaves in the driver. -/
def running
    (direction : Direction)
    (v : Driver) : Driver :=
  { v with
    lastDirection := direction
    motorDir := direction = .down
    motorSpeed := 2048 + 4 * Loop.speed }

theorem setMotorSpeed_eq
    {direction : Direction} :
    setMotorSpeed direction Loop.speed v =
      .ok (v.running direction) := by
  rfl

/- The motor runs in the direction of the start. -/
theorem motor_running
    {direction : Direction}
    (hDirection : direction ≠ .none) :
    (v.running direction).motor = direction := by
  cases direction with
  | none => exact absurd rfl hDirection
  | up => rfl
  | down => rfl

------------------------------------------------------------
-- Shutdown
------------------------------------------------------------

/-
  `Off d v v'` says that `v'` is `v` with some of the lamps
  of floors in range switched off.
-/
structure Off
    (v v' : Driver) : Prop where
  eq : v' = { v with buttonLamp := v'.buttonLamp }
  off : ∀ btn, v'.buttonLamp btn = true →
    v.buttonLamp btn = true

theorem Off.refl :
    Off v v :=
  ⟨rfl, fun _ hLit => hLit⟩

theorem Off.trans
    {v'' : Driver}
    (hFirst : Off v v')
    (hSecond : Off v' v'') :
    Off v v'' := by
  refine ⟨?_, ?_⟩
  · rw [hSecond.eq, hFirst.eq]
  · intro btn hLit
    exact hFirst.off btn (hSecond.off btn hLit)

theorem off_setButtonLamp
    (hSet : setButtonLamp d btn false v = .ok v') :
    Off v v' := by
  rcases eq_of_setButtonLamp_ok hSet with ⟨_, rfl⟩
  refine ⟨rfl, ?_⟩
  intro btn' hLit
  by_cases hEq : btn' = btn
  · subst hEq
    simp at hLit
  · simpa [Function.update_of_ne hEq] using hLit

/- Switching off the lamps of a floor in range succeeds. -/
theorem initFloor_ok
    {i : Int}
    (hRange : d.InRange i) :
    ∃ v', initFloor d v i = .ok v' ∧ Off v v' := by
  have hLamp :
      ∀ (v : Driver) (type : ButtonType),
        ∃ v', setButtonLamp d ⟨type, i⟩ false v = .ok v' ∧
          Off v v' := by
    intro v type
    have hSet :
        setButtonLamp d ⟨type, i⟩ false v =
          .ok { v with
            buttonLamp := Function.update v.buttonLamp
              ⟨type, i⟩ false } :=
      setButtonLamp_eq hRange
    exact ⟨_, hSet, off_setButtonLamp hSet⟩
  have hMaybe :
      ∀ (c : Prop) [Decidable c] (v : Driver)
        (type : ButtonType),
        ∃ v', clearLampIf d c ⟨type, i⟩ v = .ok v' ∧
          Off v v' := by
    intro c _ v type
    unfold clearLampIf
    by_cases hc : c
    · simpa only [hc, if_true] using hLamp v type
    · exact ⟨v, by simp only [hc, if_false], Off.refl⟩
  rcases hMaybe (i ≠ d.maxFloor) v .callUp with
    ⟨v₁, hUp, hOff₁⟩
  rcases hMaybe (i ≠ d.minFloor) v₁ .callDown with
    ⟨v₂, hDown, hOff₂⟩
  rcases hLamp v₂ .targetFloor with ⟨v₃, hTarget, hOff₃⟩
  refine ⟨v₃, ?_, (hOff₁.trans hOff₂).trans hOff₃⟩
  simp only [initFloor, hUp, hDown, hTarget, bind,
    Except.bind]

theorem foldlM_initFloor_ok :
    ∀ (floors : List Int) (v : Driver),
      (∀ i ∈ floors, d.InRange i) →
      ∃ v', floors.foldlM (initFloor d) v = .ok v' ∧
        Off v v'
  | [], v, _ => ⟨v, rfl, Off.refl⟩
  | i :: floors, v, hFloors => by
      rcases initFloor_ok (v := v)
        (hFloors i (by simp)) with ⟨v₁, hFirst, hOff₁⟩
      rcases foldlM_initFloor_ok floors v₁
        (fun j hj => hFloors j (by simp [hj])) with
        ⟨v₂, hRest, hOff₂⟩
      refine ⟨v₂, ?_, hOff₁.trans hOff₂⟩
      rw [List.foldlM_cons, hFirst]
      exact hRest

/- A shutdown stops the motor and closes the doors. -/
theorem shutdown_ok :
    ∃ v', shutdown d v = .ok v' ∧
      v'.motor = .none ∧
      v'.doorOpenLamp = false ∧
      v'.stopLamp = false := by
  rcases foldlM_initFloor_ok (d := d) d.floors
    v.stopElevator
    (fun i hi => BasicDriverInfo.mem_floors.mp hi) with
    ⟨v₁, hFold, hOff⟩
  refine ⟨setDoorOpenLamp false (setStopLamp false v₁),
    ?_, ?_, rfl, rfl⟩
  · simp only [shutdown, init, hFold]
    rfl
  · rw [hOff.eq]
    rfl

end Driver

------------------------------------------------------------
-- Checks and Driver Calls
------------------------------------------------------------

namespace Loop

open Exec

section Rules

variable {α : Type}
variable {Q : α → Loop → Prop}
variable {E : AssertionFailed → Loop → Prop}
variable {s : Loop}

@[simp] theorem wp_check_ok
    (a : α) :
    wp (check (.ok a)) Q E s ↔ Q a s :=
  Iff.rfl

@[simp] theorem wp_check_error
    (e : AssertionFailed) :
    wp (check (.error e : Except AssertionFailed α)) Q E s ↔
      E e s :=
  Iff.rfl

theorem wp_callDriver_ok
    {Q : Unit → Loop → Prop}
    {f : Driver → Except AssertionFailed Driver}
    {v : Driver}
    (hCall : f s.driver = .ok v) :
    wp (callDriver f) Q E s ↔
      Q () { s with driver := v } := by
  simp [callDriver, hCall]

theorem wp_callDriver_error
    {Q : Unit → Loop → Prop}
    {f : Driver → Except AssertionFailed Driver}
    {e : AssertionFailed}
    (hCall : f s.driver = .error e) :
    wp (callDriver f) Q E s ↔ E e s := by
  simp [callDriver, hCall]

end Rules

section Frames

variable {τ : Type}
variable {π : Loop → τ}

theorem keeps_check
    {α : Type}
    (x : Except AssertionFailed α) :
    Keeps π (check x) := by
  intro s
  cases x with
  | ok a => rfl
  | error e => rfl

/- A driver call keeps what its new driver states keep. -/
theorem keeps_callDriver
    {f : Driver → Except AssertionFailed Driver}
    (hf : ∀ s v, f s.driver = .ok v →
      π { s with driver := v } = π s) :
    Keeps π (callDriver f) := by
  intro s
  cases hCall : f s.driver with
  | ok v =>
      rw [wp_callDriver_ok hCall]
      exact hf s v hCall
  | error e =>
      rw [wp_callDriver_error hCall]

theorem keeps_setButtonLamp
    (hπ : ∀ s lamps, π { s with
      driver := { s.driver with buttonLamp := lamps } } =
        π s)
    (d : BasicDriverInfo)
    (btn : Button)
    (state : Bool) :
    Keeps π (callDriver
      (Driver.setButtonLamp d btn state)) := by
  apply keeps_callDriver
  intro s v hSet
  rw [(Driver.eq_of_setButtonLamp_ok hSet).2]
  exact hπ s _

theorem keeps_setInside
    (hπ : ∀ s buttons, π { s with
      elevState.insideButtons := buttons } = π s)
    (d : BasicDriverInfo)
    (value : Bool)
    (floor : Int) :
    Keeps π (setInside d value floor) := by
  unfold setInside
  apply Keeps.bind keeps_get
  intro s
  apply Keeps.bind (keeps_check _)
  intro r
  exact keeps_modify fun s => hπ s r.1

theorem keeps_setButtonLampAndFlag
    (hLamp : ∀ s lamps, π { s with
      driver := { s.driver with buttonLamp := lamps } } =
        π s)
    (hInside : ∀ s buttons, π { s with
      elevState.insideButtons := buttons } = π s)
    (d : BasicDriverInfo)
    (btn : Button)
    (val : Bool) :
    Keeps π (setButtonLampAndFlag d btn val) := by
  unfold setButtonLampAndFlag
  apply Keeps.bind (keeps_setButtonLamp hLamp d btn val)
  intro _
  apply keeps_when
  intro _
  exact keeps_setInside hInside d val btn.floor

/- A projection that new presses cannot change. -/
structure IgnoresPanel
    (π : Loop → τ) : Prop where
  lamp : ∀ s lamps, π { s with
    driver := { s.driver with buttonLamp := lamps } } = π s
  inside : ∀ s buttons, π { s with
    elevState.insideButtons := buttons } = π s
  held : ∀ s buttons, π { s with
    inFloorButtons := buttons } = π s
  report : ∀ s type floor now,
    π (emitted type floor now s) = π s

/- Polling the buttons keeps what presses cannot change. -/
theorem keeps_handleButtons
    (hπ : IgnoresPanel π)
    (d : BasicDriverInfo)
    (i : Inputs) :
    Keeps π (handleButtons d i) := by
  unfold handleButtons
  apply keeps_forM
  intro b _
  unfold handleButton
  apply Keeps.bind (keeps_check _)
  intro _
  apply keeps_when
  intro _
  apply Keeps.bind keeps_get
  intro s
  apply Keeps.bind (keeps_check _)
  intro lit
  apply Keeps.bind
  · apply keeps_when
    intro _
    unfold newPress
    apply Keeps.bind (keeps_setButtonLampAndFlag hπ.lamp
      hπ.inside d b true)
    intro _
    apply Keeps.bind
    · apply keeps_when
      intro _
      exact keeps_setInside hπ.inside d true b.floor
    · intro _
      exact keeps_modify fun s => hπ.report s _ _ _
  · intro _
    apply keeps_when
    intro _
    unfold holdInside
    apply Keeps.bind keeps_get
    intro s
    apply Keeps.bind (keeps_check _)
    intro r
    exact keeps_modify fun s => hπ.held s r.1

/- Initializing a floor switches the lamps of the floor. -/
theorem keeps_initializeFloor
    {floor : Int}
    (hLamp : ∀ s type value, π { s with
      driver := { s.driver with
        buttonLamp := Function.update s.driver.buttonLamp
          ⟨type, floor⟩ value } } = π s)
    (hInside : ∀ s buttons, π { s with
      elevState.insideButtons := buttons } = π s)
    (d : BasicDriverInfo) :
    Keeps π (initializeFloor d floor) := by
  have hSet :
      ∀ (type : ButtonType) (value : Bool),
        Keeps π (callDriver
          (Driver.setButtonLamp d ⟨type, floor⟩ value)) := by
    intro type value
    apply keeps_callDriver
    intro s v hOk
    rw [(Driver.eq_of_setButtonLamp_ok hOk).2]
    exact hLamp s type value
  unfold initializeFloor
  apply Keeps.bind keeps_get
  intro s
  apply Keeps.bind (keeps_check _)
  intro lit
  apply Keeps.bind (keeps_when fun _ =>
    keeps_setInside hInside d true floor)
  intro _
  apply Keeps.bind keeps_get
  intro s₁
  apply Keeps.bind (keeps_check _)
  intro inside
  apply Keeps.bind (keeps_when fun _ =>
    hSet .targetFloor true)
  intro _
  apply Keeps.bind keeps_get
  intro s₂
  apply Keeps.bind (keeps_check _)
  intro up
  apply Keeps.bind (hSet .callUp up)
  intro _
  apply Keeps.bind (keeps_check _)
  exact fun down => hSet .callDown down

/- Initialization switches lamps, and marks inside buttons
and the flags that belong to lamps. -/
theorem keeps_initializeElevator
    (hLamp : ∀ s lamps, π { s with
      driver := { s.driver with buttonLamp := lamps } } =
        π s)
    (hInside : ∀ s buttons, π { s with
      elevState.insideButtons := buttons } = π s)
    (hStopped : ∀ s value, π { s with
      elevState.stopped := value } = π s)
    (hDoor : ∀ s value, π { s with
      elevState.doorOpen := value } = π s)
    (d : BasicDriverInfo) :
    Keeps π (initializeElevator d) := by
  unfold initializeElevator
  apply Keeps.bind
  · apply keeps_forM
    intro floor _
    exact keeps_initializeFloor (fun s _ _ => hLamp s _)
      hInside d
  · intro _
    apply Keeps.bind keeps_get
    intro s
    apply Keeps.bind
    · exact keeps_when fun _ =>
        keeps_modify fun s => hStopped s true
    · intro _
      exact keeps_when fun _ =>
        keeps_modify fun s => hDoor s true

theorem keeps_assertConsistency
    (d : BasicDriverInfo) :
    Keeps π (assertConsistency d) := by
  unfold assertConsistency
  apply Keeps.bind keeps_get
  intro s
  apply Keeps.bind (keeps_check _)
  intro _
  apply Keeps.bind (keeps_check _)
  intro _
  apply Keeps.bind (keeps_check _)
  intro _
  exact keeps_check _

end Frames

------------------------------------------------------------
-- Starting the Car
------------------------------------------------------------

/- The direction the counting loop decides on. -/
def majority
    (d : BasicDriverInfo)
    (s : ElevatorState) : Direction :=
  match optimalDirection d s with
  | .ok dir => dir
  | .error _ => .up

/- The floor is to be served, and lies below the last one. -/
def servesBelow
    (d : BasicDriverInfo)
    (s : ElevatorState)
    (i : Int) : Bool :=
  (floorsToServe s).mem i d && decide (i < s.lastFloor)

/- The floor is to be served, and lies above the last one. -/
def servesAbove
    (d : BasicDriverInfo)
    (s : ElevatorState)
    (i : Int) : Bool :=
  (floorsToServe s).mem i d && decide (i > s.lastFloor)

/- The counting loop adds up the floors on either side. -/
theorem foldlM_countFloor
    {d : BasicDriverInfo}
    {s : ElevatorState} :
    ∀ (floors : List Int) (lower higher : Nat),
      (∀ i ∈ floors, d.InRange i) →
      floors.foldlM (countFloor d s) (lower, higher) =
        .ok (lower + floors.countP (servesBelow d s),
          higher + floors.countP (servesAbove d s))
  | [], _, _, _ => rfl
  | i :: floors, lower, higher, hFloors => by
      have hStep :
          countFloor d s (lower, higher) i =
            .ok (lower + if servesBelow d s i then 1 else 0,
              higher +
                if servesAbove d s i then 1 else 0) := by
        unfold countFloor servesBelow servesAbove
        rw [FloorSet.get_eq_mem (hFloors i (by simp))]
        cases (floorsToServe s).mem i d with
        | true =>
            simp only [bind, Except.bind, Bool.true_and,
              decide_eq_true_eq, if_true]
            split <;> split <;> rfl
        | false => rfl
      rw [List.foldlM_cons, hStep]
      refine (foldlM_countFloor floors _ _
        fun j hj => hFloors j (by simp [hj])).trans ?_
      rw [List.countP_cons, List.countP_cons,
        Nat.add_assoc, Nat.add_assoc, Nat.add_comm (ite _ _ _),
        Nat.add_comm (ite _ _ _)]

/- The counting loop only visits floors in range. -/
theorem optimalDirection_counts
    (d : BasicDriverInfo)
    (s : ElevatorState) :
    optimalDirection d s =
      .ok (if d.floors.countP (servesAbove d s) ≥
          d.floors.countP (servesBelow d s) then .up
        else .down) := by
  have hFold := foldlM_countFloor (s := s) d.floors 0 0
    fun i hi => BasicDriverInfo.mem_floors.mp hi
  unfold optimalDirection
  rw [hFold, Nat.zero_add, Nat.zero_add]
  rfl

theorem optimalDirection_cases
    (d : BasicDriverInfo)
    (s : ElevatorState) :
    optimalDirection d s = .ok .up ∨
      optimalDirection d s = .ok .down := by
  rw [optimalDirection_counts]
  split
  · exact Or.inl rfl
  · exact Or.inr rfl

theorem optimalDirection_eq
    (d : BasicDriverInfo)
    (s : ElevatorState) :
    optimalDirection d s = .ok (majority d s) := by
  rcases optimalDirection_cases d s with hUp | hDown
  · simp [majority, hUp]
  · simp [majority, hDown]

theorem majority_ne_none
    (d : BasicDriverInfo)
    (s : ElevatorState) :
    majority d s ≠ .none := by
  rcases optimalDirection_cases d s with hUp | hDown
  · simp [majority, hUp]
  · simp [majority, hDown]

/- The direction of a start from an updated state. -/
def startDirection
    (d : BasicDriverInfo)
    (s : ElevatorState) : Direction :=
  if endFloorDirection d s = .none then
    majority d { s with direction := endFloorDirection d s }
  else endFloorDirection d s

theorem startDirection_ne_none
    (d : BasicDriverInfo)
    (s : ElevatorState) :
    startDirection d s ≠ .none := by
  unfold startDirection
  by_cases hNone : endFloorDirection d s = .none
  · rw [if_pos hNone]
    exact majority_ne_none d _
  · rw [if_neg hNone]
    exact hNone

/- A start at the lowest floor goes up. -/
theorem startDirection_min
    {d : BasicDriverInfo}
    {s : ElevatorState}
    (hFloor : s.lastFloor = d.minFloor) :
    startDirection d s = .up := by
  simp [startDirection, endFloorDirection, hFloor]

/- A start at the highest floor goes down. -/
theorem startDirection_max
    {d : BasicDriverInfo}
    {s : ElevatorState}
    (hBounds : d.minFloor < d.maxFloor)
    (hFloor : s.lastFloor = d.maxFloor) :
    startDirection d s = .down := by
  have hNe : d.maxFloor ≠ d.minFloor := by omega
  simp [startDirection, endFloorDirection, hFloor, hNe]

/- The published state as a start updates it. -/
def startState
    (direction : Direction)
    (reading : Int)
    (s : Loop) : ElevatorState :=
  (floorUpdated reading
    { s with elevState.direction := direction }).elevState

/- The state `_startElevator` leaves. -/
def departed
    (d : BasicDriverInfo)
    (direction : Direction)
    (reading : Int)
    (s : Loop) : Loop :=
  let dir := startDirection d (startState direction reading s)
  { s with
    elevState :=
      { startState direction reading s with
        direction := dir }
    driver := (s.driver.running dir).setDoorOpenLamp false }

/- A start never fails an assertion. -/
theorem startElevator_eq
    (d : BasicDriverInfo)
    (direction : Direction)
    (reading : Int)
    (s : Loop) :
    startElevator d direction reading s =
      .ok () (departed d direction reading s) := by
  have hWp :
      wp (startElevator d direction reading)
        (fun _ s' => s' = departed d direction reading s)
        (fun _ _ => False) s := by
    unfold startElevator updateAndGetFloor
    simp only [wp_bind, wp_modify, wp_get, wp_pure, wp_when,
      optimalDirection_eq, wp_check_ok]
    split
    · next hNone =>
        have hDir :
            endFloorDirection d
              (startState direction reading s) = .none :=
          hNone
        rw [wp_callDriver_ok Driver.setMotorSpeed_eq]
        simp only [departed, startDirection, if_pos hDir]
        rfl
    · next hSome =>
        have hDir :
            endFloorDirection d
              (startState direction reading s) ≠ .none :=
          hSome
        rw [wp_callDriver_ok Driver.setMotorSpeed_eq]
        simp only [departed, startDirection, if_neg hDir]
        rfl
  unfold wp at hWp
  cases hRun : startElevator d direction reading s with
  | ok u s' =>
      simp only [hRun] at hWp
      rw [hWp]
  | error e s' =>
      simp only [hRun] at hWp

@[simp] theorem wp_startElevator
    {d : BasicDriverInfo}
    {direction : Direction}
    {reading : Int}
    {Q : Unit → Loop → Prop}
    {E : AssertionFailed → Loop → Prop}
    {s : Loop} :
    wp (startElevator d direction reading) Q E s ↔
      Q () (departed d direction reading s) := by
  simp only [wp, startElevator_eq]

section Departed

variable {d : BasicDriverInfo}
variable {direction : Direction}
variable {reading : Int}
variable {s : Loop}

@[simp] theorem motor_departed :
    (departed d direction reading s).driver.motor =
      (departed d direction reading s).elevState.direction :=
  Driver.motor_running (v := s.driver)
    (startDirection_ne_none d _)

theorem direction_departed_ne_none :
    (departed d direction reading s).elevState.direction ≠
      .none :=
  startDirection_ne_none d _

@[simp] theorem doorOpenLamp_departed :
    (departed d direction reading s).driver.doorOpenLamp =
      false :=
  rfl

@[simp] theorem state_departed :
    (departed d direction reading s).state = s.state :=
  rfl

@[simp] theorem calls_departed
    (x : CallDirection) :
    (departed d direction reading s).elevState.calls x =
      s.elevState.calls x := by
  cases x with
  | up => rfl
  | down => rfl

@[simp] theorem lastFloor_departed :
    (departed d direction reading s).elevState.lastFloor =
      if reading ≠ intMin then reading
      else s.elevState.lastFloor :=
  rfl

/- A departure from the lowest floor goes up. -/
theorem direction_departed_min
    (hFloor :
      (departed d direction reading s).elevState.lastFloor =
        d.minFloor) :
    (departed d direction reading s).elevState.direction =
      .up :=
  startDirection_min hFloor

/- A departure from the highest floor goes down. -/
theorem direction_departed_max
    (hBounds : d.minFloor < d.maxFloor)
    (hFloor :
      (departed d direction reading s).elevState.lastFloor =
        d.maxFloor) :
    (departed d direction reading s).elevState.direction =
      .down :=
  startDirection_max hBounds hFloor

end Departed

end Loop

end ElevatorControl
