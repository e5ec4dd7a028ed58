import ElevatorControl.Loop.Calls

/-
  What one iteration does to a hall lamp.

  The lamp is switched on by a new press, which is reported,
  by a call, which is accepted, and by a command for the lamp
  alone. A call is cleared together with its lamp. A lamp
  that is lit is therefore answered: the call is pending, the
  press is in the queue of changes, or the one who sent the
  command for the lamp owes a call.

  Key definitions include:
    * `Loop.Sound`
    * `Loop.Answered`
    * `Loop.Held`
    * `Inputs.Sensed`

  Key theorems include:
    * `Loop.preserves_pollButtons`
    * `Loop.wp_handleCommand_held`
    * `Loop.preserves_react`
    * `Loop.held_of_enter`
-/

------------------------------------------------------------
-- Answered Lamps
------------------------------------------------------------

namespace ElevatorControl

/- The sensor reads a floor of the shaft, or none. -/
def Inputs.Sensed
    (d : BasicDriverInfo)
    (i : Inputs) : Prop :=
  ∀ r, i.getFloor r = intMin ∨ d.InRange (i.getFloor r)

/- The change comes from the elevator, and it names floors
of the shaft where the scheduler reads them. -/
structure StateChange.Genuine
    (d : BasicDriverInfo)
    (id : Int)
    (c : StateChange) : Prop where
  origin : c.state.id = id
  lastFloor : d.InRange c.state.lastFloor
  pressed : ∀ x : CallDirection,
    c.changeType = x.pressed → d.InRange c.changeFloor

/- The change reports a press of the hall button. -/
def StateChange.Presses
    (x : CallDirection)
    (f : Int)
    (c : StateChange) : Prop :=
  c.changeType = x.pressed ∧ c.changeFloor = f

namespace Loop

open Exec

/- The elevator and the changes it has reported. -/
structure Sound
    (d : BasicDriverInfo)
    (id : Int)
    (s : Loop) : Prop where
  self : s.elevState.id = id
  lastFloor : d.InRange s.elevState.lastFloor
  genuine : ∀ c ∈ s.outState, c.Genuine d id

/- The hall lamp is lit. -/
def lit
    (x : CallDirection)
    (f : Int)
    (s : Loop) : Bool :=
  s.driver.buttonLamp ⟨x.button, f⟩

/- A press of the hall button waits for the scheduler. -/
def Reported
    (x : CallDirection)
    (f : Int)
    (s : Loop) : Prop :=
  ∃ c ∈ s.outState, c.Presses x f

/- A lamp that is lit has a pending call, a reported press,
or else `R` holds. -/
def Answered
    (d : BasicDriverInfo)
    (x : CallDirection)
    (f : Int)
    (R : Prop)
    (s : Loop) : Prop :=
  lit x f s = true →
    called d x f s = true ∨ Reported x f s ∨ R

/- The state is sound, and the lamp is held for a reason. -/
structure Held
    (d : BasicDriverInfo)
    (id : Int)
    (x : CallDirection)
    (f : Int)
    (R : Prop)
    (s : Loop) : Prop where
  sound : Sound d id s
  answered : Answered d x f R s

/- What decides whether a hall lamp is held. -/
structure HallPanel where
  id : Int
  lastFloor : Int
  outState : List StateChange
  buttonLamp : Button → Bool
  upButtons : FloorSet
  downButtons : FloorSet

/- The part of the state the hall lamps depend on. -/
def hallPanel
    (s : Loop) : HallPanel where
  id := s.elevState.id
  lastFloor := s.elevState.lastFloor
  outState := s.outState
  buttonLamp := s.driver.buttonLamp
  upButtons := s.elevState.upButtons
  downButtons := s.elevState.downButtons

section Held

variable {d : BasicDriverInfo}
variable {i : Inputs}
variable {id : Int}
variable {x : CallDirection}
variable {f : Int}
variable {R R' : Prop}
variable {s s' : Loop}

theorem Sound.congr
    (hPanel : s'.hallPanel = s.hallPanel)
    (hSound : Sound d id s) :
    Sound d id s' where
  self := (congrArg HallPanel.id hPanel).trans hSound.self
  lastFloor := by
    have hFloor := congrArg HallPanel.lastFloor hPanel
    change s'.elevState.lastFloor = s.elevState.lastFloor
      at hFloor
    rw [hFloor]
    exact hSound.lastFloor
  genuine := by
    have hOut := congrArg HallPanel.outState hPanel
    change s'.outState = s.outState at hOut
    rw [hOut]
    exact hSound.genuine

theorem called_of_hallPanel
    (hPanel : s'.hallPanel = s.hallPanel) :
    called d x f s' = called d x f s := by
  apply called_congr
  funext y
  cases y with
  | up => exact congrArg HallPanel.upButtons hPanel
  | down => exact congrArg HallPanel.downButtons hPanel

theorem Held.congr
    (hPanel : s'.hallPanel = s.hallPanel)
    (hHeld : Held d id x f R s) :
    Held d id x f R s' where
  sound := hHeld.sound.congr hPanel
  answered := by
    intro hLit
    have hLamp :=
      congrArg (fun p => p.buttonLamp ⟨x.button, f⟩) hPanel
    have hOut := congrArg HallPanel.outState hPanel
    change lit x f s' = lit x f s at hLamp
    change s'.outState = s.outState at hOut
    rw [hLamp] at hLit
    rw [called_of_hallPanel hPanel, Reported, hOut]
    exact hHeld.answered hLit

/- A lamp that is off needs no answer. -/
theorem Answered.of_dark
    (hDark : lit x f s = false) :
    Answered d x f R s := by
  intro hLit
  rw [hDark] at hLit
  cases hLit

theorem Held.mono
    (hR : R → R')
    (hHeld : Held d id x f R s) :
    Held d id x f R' s where
  sound := hHeld.sound
  answered := by
    intro hLit
    rcases hHeld.answered hLit with hCalled | hReported | hR₀
    · exact Or.inl hCalled
    · exact Or.inr (Or.inl hReported)
    · exact Or.inr (Or.inr (hR hR₀))

/- What leaves the panel preserves held lamps. -/
theorem preserves_of_keeps
    {α : Type}
    {m : LoopM α}
    (hKeeps : Keeps hallPanel m) :
    Preserves (Held d id x f R) (Sound d id) m :=
  hKeeps.preserves (fun _ _ => Held.congr)
    (fun _ => Held.sound)

------------------------------------------------------------
-- Single Operations
------------------------------------------------------------

theorem Sound.emit
    {type : ChangeType}
    {floor : Int}
    {now : MillisecondTime}
    (hFloor : ∀ y : CallDirection,
      type = y.pressed → d.InRange floor)
    (hSound : Sound d id s) :
    Sound d id (emitted type floor now s) where
  self := hSound.self
  lastFloor := hSound.lastFloor
  genuine := by
    intro c hc
    rcases List.mem_append.mp hc with hOld | hNew
    · exact hSound.genuine c hOld
    · rw [List.mem_singleton.mp hNew]
      exact ⟨hSound.self, hSound.lastFloor, hFloor⟩

theorem reported_emitted
    {type : ChangeType}
    {floor : Int}
    {now : MillisecondTime}
    (hReported : Reported x f s) :
    Reported x f (emitted type floor now s) := by
  rcases hReported with ⟨c, hc, hPress⟩
  exact ⟨c, List.mem_append_left _ hc, hPress⟩

theorem Held.emit
    {type : ChangeType}
    {floor : Int}
    {now : MillisecondTime}
    (hFloor : ∀ y : CallDirection,
      type = y.pressed → d.InRange floor)
    (hHeld : Held d id x f R s) :
    Held d id x f R (emitted type floor now s) where
  sound := hHeld.sound.emit hFloor
  answered := by
    intro hLit
    rcases hHeld.answered hLit with hCalled | hReported | hR
    · exact Or.inl hCalled
    · exact Or.inr (Or.inl (reported_emitted hReported))
    · exact Or.inr (Or.inr hR)

theorem preserves_emitStateChange
    {type : ChangeType}
    {floor : Int}
    {now : MillisecondTime}
    (hFloor : ∀ y : CallDirection,
      type = y.pressed → d.InRange floor) :
    Preserves (Held d id x f R) (Sound d id)
      (emitStateChange type floor now) :=
  preserves_modify fun _ => Held.emit hFloor

/- A change that is not a press names any floor. -/
theorem not_pressed
    {type : ChangeType}
    {floor : Int}
    (hOther : ∀ y : CallDirection, type ≠ y.pressed) :
    ∀ y : CallDirection,
      type = y.pressed → d.InRange floor :=
  fun y hPressed => absurd hPressed (hOther y)

theorem otherChange_ne_pressed
    (y : CallDirection) :
    ChangeType.otherChange ≠ y.pressed := by
  cases y with
  | up => exact ChangeType.noConfusion
  | down => exact ChangeType.noConfusion

theorem preserves_reportOther
    (floor : Int)
    (now : MillisecondTime) :
    Preserves (Held d id x f R) (Sound d id)
      (emitStateChange .otherChange floor now) :=
  preserves_emitStateChange
    (not_pressed otherChange_ne_pressed)

theorem Held.read
    {reading : Int}
    (hReading : reading = intMin ∨ d.InRange reading)
    (hHeld : Held d id x f R s) :
    Held d id x f R (floorUpdated reading s) where
  sound :=
    { self := hHeld.sound.self
      lastFloor := by
        change d.InRange
          (if reading ≠ intMin then reading
            else s.elevState.lastFloor)
        split
        · next hFloor => exact hReading.resolve_left hFloor
        · exact hHeld.sound.lastFloor
      genuine := hHeld.sound.genuine }
  answered := by
    intro hLit
    rw [called_congr allCalls_floorUpdated]
    exact hHeld.answered hLit

theorem preserves_updateAndGetFloor
    {reading : Int}
    (hReading : reading = intMin ∨ d.InRange reading) :
    Preserves (Held d id x f R) (Sound d id)
      (updateAndGetFloor reading) := by
  unfold updateAndGetFloor
  apply Preserves.bind
  · exact preserves_modify fun _ => Held.read hReading
  · exact fun _ => preserves_pure _

theorem preserves_stopElevator :
    Preserves (Held d id x f R) (Sound d id)
      stopElevator := by
  apply preserves_of_keeps
  exact keeps_modify fun _ => rfl

theorem preserves_startElevator
    {direction : Direction}
    {reading : Int}
    (hReading : reading = intMin ∨ d.InRange reading) :
    Preserves (Held d id x f R) (Sound d id)
      (startElevator d direction reading) := by
  intro s hHeld
  rw [wp_startElevator]
  apply Held.congr _ (hHeld.read hReading)
  rfl

theorem Sound.lamp
    {btn : Button}
    {value : Bool}
    (hSound : Sound d id s) :
    Sound d id (lampSet btn value s) :=
  ⟨hSound.self, hSound.lastFloor, hSound.genuine⟩

theorem lit_lampSet_of_ne
    {btn : Button}
    {value : Bool}
    (hOther : (⟨x.button, f⟩ : Button) ≠ btn) :
    lit x f (lampSet btn value s) = lit x f s := by
  simp [lit, lampSet, hOther]

theorem lit_lampSet
    {value : Bool} :
    lit x f (lampSet ⟨x.button, f⟩ value s) = value := by
  simp [lit, lampSet]

/- The lamp of another button is switched. -/
theorem Held.lampOther
    {btn : Button}
    {value : Bool}
    (hOther : (⟨x.button, f⟩ : Button) ≠ btn)
    (hHeld : Held d id x f R s) :
    Held d id x f R (lampSet btn value s) where
  sound := hHeld.sound.lamp
  answered := by
    intro hLit
    rw [lit_lampSet_of_ne hOther] at hLit
    exact hHeld.answered hLit

theorem inside_ne
    {g : Int} :
    (⟨x.button, f⟩ : Button) ≠ ⟨.targetFloor, g⟩ := by
  intro hSame
  have hType := congrArg Button.type hSame
  cases x <;> cases hType

/- A lamp is switched off. -/
theorem Held.lampOff
    {btn : Button}
    (hHeld : Held d id x f R s) :
    Held d id x f R (lampSet btn false s) := by
  by_cases hSame : btn = ⟨x.button, f⟩
  · subst hSame
    exact ⟨hHeld.sound.lamp, Answered.of_dark lit_lampSet⟩
  · exact hHeld.lampOther (Ne.symm hSame)

/- What the driver call does when it succeeds decides. -/
theorem preserves_setButtonLamp
    {btn : Button}
    {value : Bool}
    (hLamp : ∀ s, Held d id x f R s →
      Held d id x f R (lampSet btn value s)) :
    Preserves (Held d id x f R) (Sound d id)
      (callDriver (Driver.setButtonLamp d btn value)) := by
  intro s hHeld
  by_cases hRange : d.InRange btn.floor
  · rw [wp_callDriver_ok (Driver.setButtonLamp_eq hRange)]
    exact hLamp s hHeld
  · have hError :
        ∃ msg, Driver.setButtonLamp d btn value s.driver =
          .error ⟨msg, .generall⟩ :=
      Driver.setButtonLamp_error hRange
    rcases hError with ⟨msg, hError⟩
    rw [wp_callDriver_error hError]
    exact hHeld.sound

theorem preserves_setInside
    (value : Bool)
    (floor : Int) :
    Preserves (Held d id x f R) (Sound d id)
      (setInside d value floor) := by
  apply preserves_of_keeps
  exact keeps_setInside (fun _ _ => rfl) d value floor

theorem preserves_insideLampAndFlag
    (floor : Int)
    (value : Bool) :
    Preserves (Held d id x f R) (Sound d id)
      (setButtonLampAndFlag d ⟨.targetFloor, floor⟩
        value) := by
  unfold setButtonLampAndFlag
  apply Preserves.bind
  · apply preserves_setButtonLamp
    exact fun _ hHeld => hHeld.lampOther inside_ne
  · intro _
    exact preserves_when fun _ =>
      preserves_setInside value floor

theorem preserves_check
    {α : Type}
    (y : Except AssertionFailed α) :
    Preserves (Held d id x f R) (Sound d id) (check y) :=
  preserves_of_keeps (keeps_check y)

------------------------------------------------------------
-- Polling
------------------------------------------------------------

/- Hall buttons differ in their floors or directions. -/
theorem hall_ne
    {y : CallDirection}
    {g : Int}
    (hOther : ¬ (y = x ∧ g = f)) :
    (⟨x.button, f⟩ : Button) ≠ ⟨y.button, g⟩ := by
  intro hSame
  apply hOther
  rcases Button.mk.inj hSame with ⟨hType, hFloor⟩
  refine ⟨?_, hFloor.symm⟩
  cases x <;> cases y <;> first | rfl | cases hType

/- A new press lights the lamp and is reported. -/
theorem Held.press
    {y : CallDirection}
    {g : Int}
    {now : MillisecondTime}
    (hg : d.InRange g)
    (hHeld : Held d id x f R s) :
    Held d id x f R (emitted y.pressed g now
      (lampSet ⟨y.button, g⟩ true s)) := by
  by_cases hSame : y = x ∧ g = f
  · rcases hSame with ⟨rfl, rfl⟩
    refine ⟨hHeld.sound.lamp.emit fun _ _ => hg, ?_⟩
    intro _
    right
    left
    exact ⟨_, List.mem_append_right _
      (List.mem_singleton_self _), rfl, rfl⟩
  · apply Held.emit (fun _ _ => hg)
    exact hHeld.lampOther (hall_ne hSame)

theorem preserves_newHallPress
    {y : CallDirection}
    {g : Int}
    (hg : d.InRange g) :
    Preserves (Held d id x f R) (Sound d id)
      (newPress d i ⟨y.button, g⟩) := by
  intro s hHeld
  have hRange : d.InRange (Button.mk y.button g).floor := hg
  have hHall : y.button ≠ .targetFloor := by
    cases y with
    | up => exact ButtonType.noConfusion
    | down => exact ButtonType.noConfusion
  have hType :
      changeTypeByButton y.button = y.pressed := by
    cases y with
    | up => rfl
    | down => rfl
  unfold newPress setButtonLampAndFlag emitStateChange
  simp only [wp_bind, wp_when, hHall, if_false, wp_modify,
    hType]
  rw [wp_callDriver_ok (Driver.setButtonLamp_eq hRange)]
  exact hHeld.press hg

theorem preserves_newPress
    {b : Button}
    (hb : d.InRange b.floor) :
    Preserves (Held d id x f R) (Sound d id)
      (newPress d i b) := by
  rcases b with ⟨type, g⟩
  cases type with
  | callUp => exact preserves_newHallPress (y := .up) hb
  | callDown => exact preserves_newHallPress (y := .down) hb
  | targetFloor =>
      unfold newPress
      apply Preserves.bind (preserves_insideLampAndFlag _ _)
      intro _
      apply Preserves.bind
      · exact preserves_when fun _ =>
          preserves_setInside true g
      · intro _
        apply preserves_emitStateChange
        exact fun _ _ => hb

theorem inRange_of_mem_genFloorButtons
    {b : Button}
    (hb : b ∈ genFloorButtons d) :
    d.InRange b.floor := by
  rcases List.mem_flatMap.mp hb with ⟨g, hg, hAt⟩
  have hFloor : b.floor = g := by
    rcases List.mem_append.mp hAt with hAt | hAt
    · rcases List.mem_append.mp hAt with hAt | hAt
      · rw [List.mem_singleton.mp hAt]
      · split at hAt
        · rw [List.mem_singleton.mp hAt]
        · exact absurd hAt List.not_mem_nil
    · split at hAt
      · rw [List.mem_singleton.mp hAt]
      · exact absurd hAt List.not_mem_nil
  rw [hFloor]
  exact BasicDriverInfo.mem_floors.mp hg

theorem preserves_handleButtons :
    Preserves (Held d id x f R) (Sound d id)
      (handleButtons d i) := by
  unfold handleButtons
  apply preserves_forM
  intro b hb
  have hRange := inRange_of_mem_genFloorButtons hb
  unfold handleButton
  apply Preserves.bind (preserves_check _)
  intro _
  apply preserves_when
  intro _
  apply Preserves.bind preserves_get
  intro s
  apply Preserves.bind (preserves_check _)
  intro lit
  apply Preserves.bind
  · exact preserves_when fun _ => preserves_newPress hRange
  · intro _
    apply preserves_when
    intro _
    apply preserves_of_keeps
    unfold holdInside
    apply Keeps.bind keeps_get
    intro s
    apply Keeps.bind (keeps_check _)
    exact fun r => keeps_modify fun _ => rfl

theorem preserves_handleStop
    (hSensed : i.Sensed d) :
    Preserves (Held d id x f R) (Sound d id)
      (handleStop d i) := by
  have hReport :
      Preserves (Held d id x f R) (Sound d id) (do
        let floor ← updateAndGetFloor
          (i.getFloor .stopButton)
        emitStateChange .otherChange floor
          (i.now .stopButton)) := by
    apply Preserves.bind
      (preserves_updateAndGetFloor (hSensed .stopButton))
    exact fun floor => preserves_reportOther floor _
  have hModify :
      ∀ g : Loop → Loop,
        (∀ s, (g s).hallPanel = s.hallPanel) →
        Preserves (Held d id x f R) (Sound d id)
          (modify g : LoopM Unit) :=
    fun g hg => preserves_of_keeps (keeps_modify hg)
  unfold handleStop
  apply Preserves.bind
  · exact hModify _ fun _ => rfl
  · intro _
    apply Preserves.bind preserves_get
    intro s
    apply preserves_when
    intro _
    apply Preserves.bind
    · exact hModify _ fun _ => rfl
    · intro _
      apply Preserves.bind preserves_get
      intro t
      apply preserves_ite
      · unfold stopPressed
        apply Preserves.bind preserves_stopElevator
        intro _
        apply Preserves.bind
        · exact hModify _ fun _ => rfl
        · exact fun _ => hReport
      · unfold resumePressed
        apply Preserves.bind preserves_get
        intro t'
        apply Preserves.bind
          (preserves_startElevator (hSensed .resume))
        intro _
        apply Preserves.bind
        · exact hModify _ fun _ => rfl
        · exact fun _ => hReport

theorem preserves_pollButtons
    (hSensed : i.Sensed d) :
    Preserves (Held d id x f R) (Sound d id)
      (pollButtons d i) := by
  unfold pollButtons
  apply Preserves.bind
  · apply preserves_of_keeps
    exact keeps_modify fun _ => rfl
  · intro _
    apply Preserves.bind
    · exact preserves_of_keeps (keeps_assertConsistency d)
    · intro _
      apply Preserves.bind preserves_handleButtons
      exact fun _ => preserves_handleStop hSensed

------------------------------------------------------------
-- Sensing
------------------------------------------------------------

theorem preserves_reportFloor
    (currentFloor : Int) :
    Preserves (Held d id x f R) (Sound d id)
      (reportFloor d i currentFloor) := by
  unfold reportFloor
  apply Preserves.bind
  · apply preserves_when
    intro _
    apply preserves_of_keeps
    apply keeps_callDriver
    intro s v hSet
    by_cases hRange : d.InRange currentFloor
    · rw [Driver.setFloorIndicator_eq hRange] at hSet
      rw [← Except.ok.inj hSet]
      rfl
    · rcases Driver.setFloorIndicator_error
        (v := s.driver) hRange with ⟨msg, hError⟩
      rw [hError] at hSet
      cases hSet
  · intro _
    apply Preserves.bind preserves_get
    intro s
    exact preserves_when fun _ =>
      preserves_reportOther currentFloor _

theorem preserves_senseFloor
    (hSensed : i.Sensed d) :
    Preserves (Held d id x f R) (Sound d id)
      (senseFloor d i) := by
  unfold senseFloor safetyStops
  apply Preserves.bind
    (preserves_updateAndGetFloor (hSensed .loop))
  intro currentFloor
  apply Preserves.bind
  · apply Preserves.bind preserves_get
    intro s
    apply Preserves.bind
    · exact preserves_when fun _ => preserves_stopElevator
    · intro _
      apply Preserves.bind preserves_get
      intro t
      exact preserves_when fun _ => preserves_stopElevator
  · intro _
    apply Preserves.bind (preserves_reportFloor currentFloor)
    exact fun _ => preserves_pure _

end Held

------------------------------------------------------------
-- Calls and Their Lamps
------------------------------------------------------------

section Calls

variable {S : Shaft}
variable {i : Inputs}
variable {id : Int}
variable {x y : CallDirection}
variable {f g : Int}
variable {R R' : Prop}
variable {s : Loop}

theorem Sound.withCalls
    {d : BasicDriverInfo}
    {calls : FloorSet}
    (hSound : Sound d id s) :
    Sound d id (Loop.withCalls y calls s) := by
  cases y with
  | up => exact ⟨hSound.self, hSound.lastFloor, hSound.genuine⟩
  | down =>
      exact ⟨hSound.self, hSound.lastFloor, hSound.genuine⟩

@[simp] theorem lit_withCalls
    {calls : FloorSet} :
    lit x f (withCalls y calls s) = lit x f s := by
  cases y with
  | up => rfl
  | down => rfl

@[simp] theorem outState_withCalls
    {calls : FloorSet} :
    (withCalls y calls s).outState = s.outState := by
  cases y with
  | up => rfl
  | down => rfl

/- Accepting a call answers its lamp. -/
theorem Held.accept
    (hf : S.InRange f)
    (hg : S.InRange g)
    (hR : R → R' ∨ (y = x ∧ g = f))
    (hHeld : Held S.toBasicDriverInfo id x f R s) :
    Held S.toBasicDriverInfo id x f R'
      (lampSet ⟨y.button, g⟩ true (withCalls y
        ((s.elevState.calls y).insert g
          S.toBasicDriverInfo) s)) where
  sound := hHeld.sound.withCalls.lamp
  answered := by
    intro hLit
    have hCalled :
        called S.toBasicDriverInfo x f
          (lampSet ⟨y.button, g⟩ true (withCalls y
            ((s.elevState.calls y).insert g
              S.toBasicDriverInfo) s)) =
        (called S.toBasicDriverInfo x f s ||
          decide (x = y ∧ f = g)) :=
      called_insert hg hf
    by_cases hSame : y = x ∧ g = f
    · left
      rw [hCalled]
      simp [hSame.1, hSame.2]
    · rw [lit_lampSet_of_ne (hall_ne hSame),
        lit_withCalls] at hLit
      rcases hHeld.answered hLit with hOld | hReported | hOwed
      · left
        rw [hCalled, hOld]
        rfl
      · right
        left
        change ∃ c ∈ (withCalls y _ s).outState, _
        rw [outState_withCalls]
        exact hReported
      · right
        right
        exact (hR hOwed).resolve_right hSame

/- Another call is cleared. -/
theorem Held.erase
    (hf : S.InRange f)
    (hg : S.InRange g)
    (hOther : ¬ (y = x ∧ g = f))
    (hHeld : Held S.toBasicDriverInfo id x f R s) :
    Held S.toBasicDriverInfo id x f R (withCalls y
      ((s.elevState.calls y).erase g
        S.toBasicDriverInfo) s) where
  sound := hHeld.sound.withCalls
  answered := by
    intro hLit
    rw [lit_withCalls] at hLit
    have hNe : ¬ (x = y ∧ f = g) := by
      rintro ⟨rfl, rfl⟩
      exact hOther ⟨rfl, rfl⟩
    rw [called_erase hg hf, Reported, outState_withCalls,
      decide_eq_true hNe, Bool.and_true]
    exact hHeld.answered hLit

/- A lamp that is off afterwards needs no answer before. -/
theorem Held.darken
    {d : BasicDriverInfo}
    (hSound : Sound d id s)
    (hOther : ¬ (y = x ∧ g = f) → Held d id x f R s) :
    Held d id x f R (lampSet ⟨y.button, g⟩ false s) := by
  by_cases hSame : y = x ∧ g = f
  · rcases hSame with ⟨rfl, rfl⟩
    exact ⟨hSound.lamp, Answered.of_dark lit_lampSet⟩
  · exact (hOther hSame).lampOff

theorem preserves_clearDirectionButtonLamp
    (hf : S.InRange f)
    (now : MillisecondTime) :
    Preserves (Held S.toBasicDriverInfo id x f R)
      (Sound S.toBasicDriverInfo id)
      (clearDirectionButtonLamp S.toBasicDriverInfo
        now) := by
  intro s hHeld
  unfold clearDirectionButtonLamp
  simp only [wp_bind, wp_get]
  cases directionButton S.toBasicDriverInfo s.elevState with
  | none => exact hHeld
  | some target =>
      rcases target with ⟨y, g⟩
      simp only [wp_bind]
      by_cases hg : S.InRange g
      · have hLamp :
            S.InRange (Button.mk y.button g).floor := hg
        have hServed :
            ∀ z : CallDirection, y.served = z.pressed →
              S.InRange g :=
          fun _ _ => hg
        rw [wp_setCall hg]
        simp only [wp_when, emitStateChange, wp_modify]
        split
        · rw [wp_callDriver_ok
            (Driver.setButtonLamp_eq hLamp)]
          apply Held.darken
          · exact hHeld.sound.withCalls.emit hServed
          · intro hOther
            exact (hHeld.erase hf hg hOther).emit hServed
        · rw [wp_callDriver_ok
            (Driver.setButtonLamp_eq hLamp)]
          apply Held.darken hHeld.sound.withCalls
          exact hHeld.erase hf hg
      · apply wp_setCall_error hg
        exact fun _ => hHeld.sound

/- The timeout clears both calls with their lamps. -/
theorem Held.timeout
    (hf : S.InRange f)
    (hg : S.InRange g)
    (hHeld : Held S.toBasicDriverInfo id x f R s) :
    Held S.toBasicDriverInfo id x f R
      (lampSet ⟨.callDown, g⟩ false
        (lampSet ⟨.callUp, g⟩ false
          (withCalls .up
            (((withCalls .down
              ((s.elevState.calls .down).erase g
                S.toBasicDriverInfo) s).elevState.calls
                  .up).erase g S.toBasicDriverInfo)
            (withCalls .down
              ((s.elevState.calls .down).erase g
                S.toBasicDriverInfo) s)))) := by
  apply Held.darken (y := .down)
  · exact hHeld.sound.withCalls.withCalls.lamp
  · intro hDown
    apply Held.darken (y := .up)
    · exact hHeld.sound.withCalls.withCalls
    · intro hUp
      exact (hHeld.erase hf hg hDown).erase hf hg hUp

theorem preserves_closeByTimeout
    (hf : S.InRange f)
    (currentFloor : Int) :
    Preserves (Held S.toBasicDriverInfo id x f R)
      (Sound S.toBasicDriverInfo id)
      (closeByTimeout S.toBasicDriverInfo i
        currentFloor) := by
  intro s hHeld
  unfold closeByTimeout
  by_cases hRange : S.InRange currentFloor
  · have hUp :
        S.InRange (Button.mk .callUp currentFloor).floor :=
      hRange
    have hDown :
        S.InRange
          (Button.mk .callDown currentFloor).floor :=
      hRange
    have hServed :
        ∀ (type : ChangeType) (z : CallDirection),
          type = z.pressed → S.InRange currentFloor :=
      fun _ _ _ => hRange
    simp only [wp_bind, wp_setCall hRange,
      Bool.false_eq_true, if_false, emitStateChange,
      wp_modify]
    rw [wp_callDriver_ok (Driver.setButtonLamp_eq hUp),
      wp_callDriver_ok (Driver.setButtonLamp_eq hDown)]
    exact ((hHeld.timeout hf hRange).emit
      (hServed _)).emit (hServed _)
  · rw [wp_bind]
    apply wp_setCall_error hRange
    exact fun _ => hHeld.sound

------------------------------------------------------------
-- Commands
------------------------------------------------------------

theorem wp_acceptCall_held
    (hf : S.InRange f)
    (hR : R → R' ∨ (y = x ∧ g = f))
    (hHeld : Held S.toBasicDriverInfo id x f R s) :
    wp (acceptCall S.toBasicDriverInfo i y g)
      (fun _ s' => Held S.toBasicDriverInfo id x f R' s')
      (fun _ s' => Sound S.toBasicDriverInfo id s') s := by
  unfold acceptCall
  rw [wp_bind]
  by_cases hg : S.InRange g
  · have hLamp :
        S.InRange (Button.mk y.button g).floor := hg
    rw [wp_setCall hg, wp_bind,
      wp_callDriver_ok (Driver.setButtonLamp_eq hLamp)]
    simp only [emitStateChange, wp_modify, if_true]
    exact (hHeld.accept hf hg hR).emit fun _ _ => hg
  · apply wp_setCall_error hg
    exact fun _ => hHeld.sound

/- The sender of a command that lights a lamp owes a call. -/
theorem wp_turnOn_held
    {d : BasicDriverInfo}
    (hR : R → R')
    (hOwed : y = x → g = f → R')
    (hHeld : Held d id x f R s) :
    wp (callDriver (Driver.setButtonLamp d
        ⟨y.button, g⟩ true))
      (fun _ s' => Held d id x f R' s')
      (fun _ s' => Sound d id s') s := by
  apply preserves_setButtonLamp _ s (hHeld.mono hR)
  intro t hHeld'
  by_cases hSame : y = x ∧ g = f
  · refine ⟨hHeld'.sound.lamp, ?_⟩
    intro _
    exact Or.inr (Or.inr (hOwed hSame.1 hSame.2))
  · exact hHeld'.lampOther (hall_ne hSame)

theorem preserves_turnOff
    {d : BasicDriverInfo}
    {btn : Button} :
    Preserves (Held d id x f R) (Sound d id)
      (callDriver (Driver.setButtonLamp d btn false)) :=
  preserves_setButtonLamp fun _ hHeld => hHeld.lampOff

/-
  `R` holds before the command is taken, `R'` after it. The
  command may be the call that `R` stands for, and a command
  that lights the lamp is one that `R'` stands for.
-/
theorem wp_handleCommand_held
    (hf : S.InRange f)
    (hR : R → R' ∨ i.accepts x f = true)
    (hOwed : ∀ c, i.tryDequeue = some c →
      c.commandType = x.turnOn → c.targetFloor = f → R')
    (hHeld : Held S.toBasicDriverInfo id x f R s) :
    wp (handleCommand S.toBasicDriverInfo i)
      (fun _ s' => Held S.toBasicDriverInfo id x f R' s')
      (fun _ s' => Sound S.toBasicDriverInfo id s') s := by
  unfold handleCommand
  cases hCommand : i.tryDequeue with
  | none =>
      apply Held.mono _ hHeld
      intro hOld
      have hNone : i.accepts x f = false := by
        simp [Inputs.accepts, hCommand]
      exact (hR hOld).resolve_right (by simp [hNone])
  | some c =>
      rcases c with ⟨type, target, g⟩
      have hAccepts :
          i.accepts x f = true ↔ type = x.call ∧ g = f := by
        simp [Inputs.accepts, hCommand]
      have hLater :
          type ≠ x.call → R → R' := by
        intro hOther hOld
        apply (hR hOld).resolve_right
        rw [hAccepts]
        exact fun hSame => hOther hSame.1
      simp only [wp_bind, wp_get]
      have hCheck : Keeps (fun s : Loop => s)
          (check (assert (target = s.elevState.id ∨
              target = Command.anyId)
            "command to other elevator")) :=
        keeps_check _
      apply hCheck.wp
      · intro _ s₁ hSame
        subst hSame
        unfold executeCommand
        cases type with
        | empty =>
            apply hHeld.mono
            apply hLater
            cases x <;> exact CommandType.noConfusion
        | callToFloorAndGoUp =>
            apply wp_acceptCall_held (y := .up) hf _ hHeld
            intro hOld
            apply (hR hOld).imp_right
            rw [hAccepts]
            rintro ⟨hType, hFloor⟩
            cases x with
            | up => exact ⟨rfl, hFloor⟩
            | down => cases hType
        | callToFloorAndGoDown =>
            apply wp_acceptCall_held (y := .down) hf _ hHeld
            intro hOld
            apply (hR hOld).imp_right
            rw [hAccepts]
            rintro ⟨hType, hFloor⟩
            cases x with
            | up => cases hType
            | down => exact ⟨rfl, hFloor⟩
        | turnOnLightUp =>
            apply wp_turnOn_held (y := .up) _ _ hHeld
            · apply hLater
              cases x <;> exact CommandType.noConfusion
            · rintro rfl hFloor
              exact hOwed _ hCommand rfl hFloor
        | turnOffLightUp =>
            apply preserves_turnOff
            apply hHeld.mono
            apply hLater
            cases x <;> exact CommandType.noConfusion
        | turnOnLightDown =>
            apply wp_turnOn_held (y := .down) _ _ hHeld
            · apply hLater
              cases x <;> exact CommandType.noConfusion
            · rintro rfl hFloor
              exact hOwed _ hCommand rfl hFloor
        | turnOffLightDown =>
            apply preserves_turnOff
            apply hHeld.mono
            apply hLater
            cases x <;> exact CommandType.noConfusion
      · intro _ s₁ hSame
        subst hSame
        exact hHeld.sound

------------------------------------------------------------
-- Local State
------------------------------------------------------------

theorem preserves_serveFloor
    {d : BasicDriverInfo}
    (currentFloor : Int) :
    Preserves (Held d id x f R) (Sound d id)
      (serveFloor d i currentFloor) := by
  have hServed : ∀ z : CallDirection,
      ChangeType.served ≠ z.pressed := by
    intro z
    cases z <;> exact ChangeType.noConfusion
  unfold serveFloor
  apply Preserves.bind (preserves_insideLampAndFlag _ false)
  intro _
  apply Preserves.bind
  · apply preserves_of_keeps
    exact keeps_modify fun _ => rfl
  · intro _
    apply Preserves.bind preserves_stopElevator
    intro _
    apply Preserves.bind (preserves_setInside false _)
    intro _
    exact preserves_emitStateChange (not_pressed hServed)

theorem preserves_depart
    (hf : S.InRange f)
    (hSensed : i.Sensed S.toBasicDriverInfo)
    (currentFloor : Int) :
    Preserves (Held S.toBasicDriverInfo id x f R)
      (Sound S.toBasicDriverInfo id)
      (depart S.toBasicDriverInfo i currentFloor) := by
  unfold depart
  apply Preserves.bind preserves_get
  intro s
  apply Preserves.bind
  · apply preserves_when
    intro _
    unfold startForRequests
    apply Preserves.bind
    · apply Preserves.bind preserves_get
      intro t
      apply Preserves.bind (preserves_check _)
      intro priority
      apply preserves_ite
      · exact preserves_startElevator (hSensed .depart)
      · exact preserves_startElevator (hSensed .depart)
    · exact fun _ => preserves_reportOther currentFloor _
  · intro _
    exact preserves_clearDirectionButtonLamp hf _

theorem preserves_handleNormal
    (hf : S.InRange f)
    (hSensed : i.Sensed S.toBasicDriverInfo)
    (currentFloor : Int) :
    Preserves (Held S.toBasicDriverInfo id x f R)
      (Sound S.toBasicDriverInfo id)
      (handleNormal S.toBasicDriverInfo i
        currentFloor) := by
  unfold handleNormal
  apply Preserves.bind preserves_get
  intro s
  apply Preserves.bind (preserves_check _)
  intro arrived
  apply preserves_ite
  · exact preserves_serveFloor currentFloor
  · exact preserves_when fun _ =>
      preserves_depart hf hSensed currentFloor

theorem preserves_handleWaiting
    (hf : S.InRange f)
    (currentFloor : Int) :
    Preserves (Held S.toBasicDriverInfo id x f R)
      (Sound S.toBasicDriverInfo id)
      (handleWaiting S.toBasicDriverInfo i
        currentFloor) := by
  unfold handleWaiting
  apply Preserves.bind preserves_get
  intro s
  apply preserves_when
  intro _
  apply Preserves.bind
  · apply preserves_of_keeps
    exact keeps_modify fun _ => rfl
  · intro _
    apply Preserves.bind
    · exact preserves_reportOther currentFloor _
    · intro _
      apply preserves_ite
      · exact preserves_closeByTimeout hf currentFloor
      · exact preserves_clearDirectionButtonLamp hf _

theorem preserves_handleState
    (hf : S.InRange f)
    (hSensed : i.Sensed S.toBasicDriverInfo)
    (currentFloor : Int) :
    Preserves (Held S.toBasicDriverInfo id x f R)
      (Sound S.toBasicDriverInfo id)
      (handleState S.toBasicDriverInfo i currentFloor) := by
  unfold handleState
  apply Preserves.bind preserves_get
  intro s
  cases s.state with
  | normal =>
      exact preserves_handleNormal hf hSensed currentFloor
  | waitingForInButton =>
      exact preserves_handleWaiting hf currentFloor
  | stopped => exact preserves_pure _

theorem preserves_react
    (hf : S.InRange f)
    (hSensed : i.Sensed S.toBasicDriverInfo)
    (currentFloor : Int) :
    Preserves (Held S.toBasicDriverInfo id x f R)
      (Sound S.toBasicDriverInfo id)
      (react S.toBasicDriverInfo i currentFloor) := by
  have hKeepAlive : ∀ z : CallDirection,
      ChangeType.keepAlive ≠ z.pressed := by
    intro z
    cases z <;> exact ChangeType.noConfusion
  unfold react
  apply Preserves.bind
    (preserves_handleState hf hSensed currentFloor)
  intro _
  unfold finishCycle
  apply Preserves.bind preserves_get
  intro s
  apply Preserves.bind
  · exact preserves_when fun _ =>
      preserves_emitStateChange (not_pressed hKeepAlive)
  · intro _
    apply preserves_of_keeps
    exact keeps_modify fun _ => rfl

/-
  One iteration without an obstruction: lamps stay held when
  the command that is taken is accounted for.
-/
theorem wp_loopBody_held
    (hf : S.InRange f)
    (hSensed : i.Sensed S.toBasicDriverInfo)
    (hClear : i.getObstruction = false)
    (hR : R → R' ∨ i.accepts x f = true)
    (hOwed : ∀ c, i.tryDequeue = some c →
      c.commandType = x.turnOn → c.targetFloor = f → R')
    (hHeld : Held S.toBasicDriverInfo id x f R s) :
    wp (loopBody S.toBasicDriverInfo i)
      (fun _ s' => Held S.toBasicDriverInfo id x f R' s')
      (fun _ s' => Sound S.toBasicDriverInfo id s') s := by
  unfold loopBody approach pollCommands handleObstruction
  simp only [wp_bind, wp_when, hClear, Bool.false_eq_true,
    if_false]
  apply wp_mono _ (fun _ _ hE => hE)
    (preserves_pollButtons hSensed s hHeld)
  intro _ s₁ hHeld₁
  apply wp_mono _ (fun _ _ hE => hE)
    (wp_handleCommand_held hf hR hOwed hHeld₁)
  intro _ s₂ hHeld₂
  apply wp_mono _ (fun _ _ hE => hE)
    (preserves_senseFloor hSensed s₂ hHeld₂)
  intro currentFloor s₃ hHeld₃
  exact preserves_react hf hSensed currentFloor s₃ hHeld₃

------------------------------------------------------------
-- Entering the Loop
------------------------------------------------------------

/- The elevator and its changes, which entering keeps. -/
def ledger
    (s : Loop) : Int × Int × List StateChange :=
  (s.elevState.id, s.elevState.lastFloor, s.outState)

theorem Sound.of_ledger
    {d : BasicDriverInfo}
    {s' : Loop}
    (hLedger : s'.ledger = s.ledger)
    (hSound : Sound d id s) :
    Sound d id s' := by
  rcases Prod.mk.inj hLedger with ⟨hId, hRest⟩
  rcases Prod.mk.inj hRest with ⟨hFloor, hOut⟩
  refine ⟨hId.trans hSound.self, ?_, ?_⟩
  · rw [hFloor]
    exact hSound.lastFloor
  · rw [hOut]
    exact hSound.genuine

theorem keeps_ledger_enter
    {d : BasicDriverInfo} :
    Keeps ledger (enter d) := by
  unfold enter
  apply Keeps.bind
  · exact keeps_modify fun _ => rfl
  · intro _
    apply Keeps.bind
    · exact keeps_initializeElevator (fun _ _ => rfl)
        (fun _ _ => rfl) (fun _ _ => rfl) (fun _ _ => rfl) d
    · intro _
      apply Keeps.bind keeps_get
      intro t
      exact keeps_when fun _ => keeps_modify fun _ => rfl

/- The hall lamps of a floor show its calls. -/
def Shows
    (d : BasicDriverInfo)
    (f : Int)
    (s : Loop) : Prop :=
  ∀ x, lit x f s = called d x f s

theorem wp_initializeFloor_shows
    {d : BasicDriverInfo}
    (f : Int)
    (s : Loop) :
    wp (initializeFloor d f) (fun _ s' => Shows d f s')
      (fun _ _ => True) s := by
  -- the lamps are set last, whatever happened before
  have hSetLamps :
      ∀ s : Loop, wp (do
        let s ← get
        let up ← check (s.elevState.upButtons.get f d)
        callDriver (Driver.setButtonLamp d ⟨.callUp, f⟩ up)
        let down ← check (s.elevState.downButtons.get f d)
        callDriver
          (Driver.setButtonLamp d ⟨.callDown, f⟩ down))
        (fun _ s' => Shows d f s') (fun _ _ => True) s := by
    intro s
    by_cases hf : d.InRange f
    · have hUp : d.InRange (Button.mk .callUp f).floor := hf
      have hDown : d.InRange (Button.mk .callDown f).floor :=
        hf
      simp only [wp_bind, wp_get, FloorSet.get_eq_mem hf,
        wp_check_ok]
      rw [wp_callDriver_ok (Driver.setButtonLamp_eq hUp),
        wp_callDriver_ok (Driver.setButtonLamp_eq hDown)]
      intro x
      cases x with
      | up => simp [lit, called, CallDirection.button,
          ElevatorState.calls]
      | down => simp [lit, called, CallDirection.button,
          ElevatorState.calls]
    · rcases FloorSet.get_error (s := s.elevState.upButtons)
        hf with ⟨msg, hError⟩
      simp only [wp_bind, wp_get, hError, wp_check_error]
  unfold initializeFloor
  apply wp_bind_of_forall _ (fun _ _ => trivial)
  intro _ _
  apply wp_bind_of_forall _ (fun _ _ => trivial)
  intro _ _
  apply wp_bind_of_forall _ (fun _ _ => trivial)
  intro _ _
  apply wp_bind_of_forall _ (fun _ _ => trivial)
  intro _ _
  apply wp_bind_of_forall _ (fun _ _ => trivial)
  intro _ _
  apply wp_bind_of_forall _ (fun _ _ => trivial)
  exact fun _ => hSetLamps

/- Initializing a floor leaves the lamps of the others. -/
theorem shows_initializeFloor
    {d : BasicDriverInfo}
    (f g : Int)
    (s : Loop)
    (hShows : Shows d g s) :
    wp (initializeFloor d f) (fun _ s' => Shows d g s')
      (fun _ _ => True) s := by
  by_cases hSame : f = g
  · subst hSame
    exact wp_initializeFloor_shows f s
  · have hOther : ∀ type type' : ButtonType,
        (⟨type', g⟩ : Button) ≠ ⟨type, f⟩ := by
      intro type type' hButton
      exact hSame (congrArg Button.floor hButton).symm
    have hLamps : Keeps
        (fun s : Loop => fun type =>
          s.driver.buttonLamp ⟨type, g⟩)
        (initializeFloor d f) := by
      apply keeps_initializeFloor
      · intro s type value
        funext type'
        simp [hOther type type']
      · exact fun _ _ => rfl
    have hCalls : Keeps allCalls (initializeFloor d f) :=
      keeps_initializeFloor
        (fun _ _ _ => rfl) (fun _ _ => allCalls_withInside) d
    apply wp_mono _ (fun _ _ _ => trivial)
      (wp_and (hLamps s) (hCalls s))
    rintro _ s' ⟨hLamp, hCall⟩ x
    rw [called_congr hCall, ← hShows x]
    exact congrFun hLamp x.button

/-
  Entering the loop makes every hall lamp of the shaft show
  whether its call is pending.
-/
theorem shows_of_enter
    {s' : Loop}
    (hf : S.InRange f)
    (hEnter : enter S.toBasicDriverInfo s = .ok () s') :
    Shows S.toBasicDriverInfo f s' := by
  have hShows :
      wp (enter S.toBasicDriverInfo)
        (fun _ s' => Shows S.toBasicDriverInfo f s')
        (fun _ _ => True) s := by
    unfold enter initializeElevator
    simp only [wp_bind, wp_modify, wp_get, wp_when]
    apply wp_mono _ (fun _ _ hE => hE)
      (wp_forM_each (Shows S.toBasicDriverInfo) _
        wp_initializeFloor_shows shows_initializeFloor _ _)
    intro _ t hAll
    have hAt := hAll f (BasicDriverInfo.mem_floors.mpr hf)
    split_ifs <;> exact hAt
  have hShown := wp_ok hShows hEnter
  exact hShown

theorem held_of_enter
    {s' : Loop}
    (hf : S.InRange f)
    (hSound : Sound S.toBasicDriverInfo id s)
    (hEnter : enter S.toBasicDriverInfo s = .ok () s') :
    Held S.toBasicDriverInfo id x f R s' := by
  have hLit := shows_of_enter hf hEnter x
  have hLedger := wp_ok (keeps_ledger_enter s) hEnter
  refine ⟨hSound.of_ledger hLedger, ?_⟩
  intro hOn
  left
  rw [← hLit]
  exact hOn

end Calls

end Loop

end ElevatorControl
