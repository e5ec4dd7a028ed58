import ElevatorControl.Loop.Assertions

/-
  What an elevator reports, and what it takes its calls from.

  The queue of changes only grows at its end, and a change
  carries a consistent state and names floors of the shaft
  where a scheduler reads them. Calls are set by commands, and
  a hall lamp is lit by a command or by a press that is
  reported. What holds of every press that commands stand for
  therefore holds of every call and of every hall lamp.

  Key definitions include:
    * `BasicDriverInfo.HasButton`
    * `ElevatorState.Accounted`
    * `StateChange.Accounted`
    * `Loop.Reporting`

  Key theorems include:
    * `Loop.stable_loopBody_reporting`
    * `Loop.reporting_of_step`
    * `Loop.reporting_of_enter`
-/

------------------------------------------------------------
-- Accounted States
------------------------------------------------------------

namespace ElevatorControl

/- The floors at which there is a hall button for the
direction. -/
def BasicDriverInfo.HasButton
    (d : BasicDriverInfo)
    (x : CallDirection)
    (floor : Int) : Prop :=
  match x with
  | .up => d.minFloor ≤ floor ∧ floor < d.maxFloor
  | .down => d.minFloor < floor ∧ floor ≤ d.maxFloor

theorem BasicDriverInfo.HasButton.inRange
    {d : BasicDriverInfo}
    {x : CallDirection}
    {floor : Int}
    (hButton : d.HasButton x floor) :
    d.InRange floor := by
  cases x with
  | up => exact ⟨hButton.1, Int.le_of_lt hButton.2⟩
  | down => exact ⟨Int.le_of_lt hButton.1, hButton.2⟩

/- The state passes the assertions about it, and `P` holds of
its hall calls. -/
structure ElevatorState.Accounted
    (d : BasicDriverInfo)
    (P : CallDirection → Int → Prop)
    (e : ElevatorState) : Prop where
  nonneg : 0 ≤ e.id
  lastFloor : d.InRange e.lastFloor
  inside : e.insideButtons.Within d
  calls : ∀ x, (e.calls x).Within d
  asked : ∀ x f, d.InRange f →
    (e.calls x).mem f d = true → P x f

/- A change of an accounted state at a floor or between the
floors. A press is of a button that exists, and what is
served is a floor. -/
structure StateChange.Accounted
    (d : BasicDriverInfo)
    (P : CallDirection → Int → Prop)
    (c : StateChange) : Prop where
  state : c.state.Accounted d P
  floor : c.changeFloor = intMin ∨ d.InRange c.changeFloor
  pressed : ∀ x : CallDirection,
    c.changeType = x.pressed → d.HasButton x c.changeFloor
  served : ∀ x : CallDirection,
    c.changeType = x.served → d.InRange c.changeFloor

section Accounted

variable {d : BasicDriverInfo}
variable {P Q : CallDirection → Int → Prop}

theorem ElevatorState.Accounted.mono
    {e : ElevatorState}
    (hPQ : ∀ x f, P x f → Q x f)
    (hState : e.Accounted d P) :
    e.Accounted d Q where
  nonneg := hState.nonneg
  lastFloor := hState.lastFloor
  inside := hState.inside
  calls := hState.calls
  asked x f hf hMem := hPQ x f (hState.asked x f hf hMem)

theorem StateChange.Accounted.mono
    {c : StateChange}
    (hPQ : ∀ x f, P x f → Q x f)
    (hChange : c.Accounted d P) :
    c.Accounted d Q :=
  ⟨hChange.state.mono hPQ, hChange.floor, hChange.pressed,
    hChange.served⟩

/- Neither the timestamp nor the direction of a state is
accounted for. -/
theorem ElevatorState.Accounted.stamped
    {e : ElevatorState}
    (timestamp : MillisecondTime)
    (direction : Direction)
    (hState : e.Accounted d P) :
    ElevatorState.Accounted d P
      { e with
        timestamp := timestamp
        direction := direction } where
  nonneg := hState.nonneg
  lastFloor := hState.lastFloor
  inside := hState.inside
  calls x := by
    cases x with
    | up => exact hState.calls .up
    | down => exact hState.calls .down
  asked x f hf hMem := by
    apply hState.asked x f hf
    cases x with
    | up => exact hMem
    | down => exact hMem

end Accounted

/- The commands an iteration may take: `P` holds of every
call and of every lamp that is to be lit. -/
def Inputs.Caused
    (P : CallDirection → Int → Prop)
    (i : Inputs) : Prop :=
  ∀ c, i.tryDequeue = some c → ∀ x : CallDirection,
    c.commandType = x.call ∨ c.commandType = x.turnOn →
    P x c.targetFloor

namespace Loop

open Exec

/- The changes that have been reported since the queue was
`old`. -/
def fresh
    (old : List StateChange)
    (s : Loop) : List StateChange :=
  s.outState.drop old.length

/-
  The elevator `id` has an accounted state and has reported
  accounted changes of its own. A hall lamp that is lit is
  accounted for, or its press has just been reported.
-/
structure Reporting
    (d : BasicDriverInfo)
    (id : Int)
    (old : List StateChange)
    (P : CallDirection → Int → Prop)
    (s : Loop) : Prop where
  self : s.elevState.id = id
  state : s.elevState.Accounted d P
  grows : old <+: s.outState
  own : ∀ c ∈ fresh old s, c.state.id = id
  reports : ∀ c ∈ fresh old s, c.Accounted d P
  lamps : ∀ x f, d.InRange f → lit x f s = true →
    P x f ∨ ∃ c ∈ fresh old s, c.Presses x f

/- What reporting depends on. -/
def reportView
    (s : Loop) :
    Record × List StateChange ×
      (CallDirection → Int → Bool) :=
  (s.record, s.outState, fun x f => lit x f s)

section Reporting

variable {S : Shaft}
variable {i : Inputs}
variable {id : Int}
variable {old : List StateChange}
variable {P Q : CallDirection → Int → Prop}
variable {f : Int}
variable {s t : Loop}

theorem Reporting.congr
    {d : BasicDriverInfo}
    (hView : t.reportView = s.reportView)
    (hReporting : Reporting d id old P s) :
    Reporting d id old P t := by
  rcases Prod.mk.inj hView with ⟨hRecord, hRest⟩
  rcases Prod.mk.inj hRest with ⟨hOut, hLit⟩
  have hFresh : fresh old t = fresh old s := by
    unfold fresh
    rw [hOut]
  have hCalls : t.elevState.calls = s.elevState.calls := by
    funext x
    cases x with
    | up => exact congrArg Record.upButtons hRecord
    | down => exact congrArg Record.downButtons hRecord
  have hId : t.elevState.id = s.elevState.id :=
    congrArg Record.id hRecord
  have hFloor : t.elevState.lastFloor = s.elevState.lastFloor :=
    congrArg Record.lastFloor hRecord
  have hInside :
      t.elevState.insideButtons = s.elevState.insideButtons :=
    congrArg Record.insideButtons hRecord
  refine ⟨hId.trans hReporting.self, ⟨?_, ?_, ?_, ?_, ?_⟩,
    ?_, ?_, ?_, ?_⟩
  · rw [hId]
    exact hReporting.state.nonneg
  · rw [hFloor]
    exact hReporting.state.lastFloor
  · rw [hInside]
    exact hReporting.state.inside
  · rw [hCalls]
    exact hReporting.state.calls
  · rw [hCalls]
    exact hReporting.state.asked
  · rw [hOut]
    exact hReporting.grows
  · rw [hFresh]
    exact hReporting.own
  · rw [hFresh]
    exact hReporting.reports
  · intro x f hf hOn
    have hSame : lit x f t = lit x f s :=
      congrFun (congrFun hLit x) f
    rw [hFresh]
    exact hReporting.lamps x f hf (hSame ▸ hOn)

theorem Reporting.consistent
    (hReporting :
      Reporting S.toBasicDriverInfo id old P s) :
    Consistent S.toBasicDriverInfo id s where
  self := hReporting.self
  nonneg := hReporting.self ▸ hReporting.state.nonneg
  lastFloor := hReporting.state.lastFloor
  inside := hReporting.state.inside
  calls := hReporting.state.calls

/- What has been reported stands behind the old changes. -/
theorem Reporting.outState_eq
    {d : BasicDriverInfo}
    (hReporting : Reporting d id old P s) :
    s.outState = old ++ fresh old s := by
  rcases hReporting.grows with ⟨rest, hRest⟩
  unfold fresh
  rw [← hRest, List.drop_left]

/- A later account covers the presses that have been
reported. -/
theorem Reporting.rebase
    {d : BasicDriverInfo}
    (hPQ : ∀ x f, P x f → Q x f)
    (hPress : ∀ c ∈ fresh old s, ∀ x f,
      c.Presses x f → Q x f)
    (hReporting : Reporting d id old P s) :
    Reporting d id s.outState Q s := by
  have hNone : fresh s.outState s = [] := List.drop_length
  refine ⟨hReporting.self, hReporting.state.mono hPQ,
    List.prefix_refl _, ?_, ?_, ?_⟩
  · intro c hc
    rw [hNone] at hc
    exact absurd hc List.not_mem_nil
  · intro c hc
    rw [hNone] at hc
    exact absurd hc List.not_mem_nil
  · intro x f hf hOn
    left
    rcases hReporting.lamps x f hf hOn with
      hAsked | ⟨c, hc, hPresses⟩
    · exact hPQ x f hAsked
    · exact hPress c hc x f hPresses

/- Others may change the queue between two iterations. -/
theorem Reporting.requeue
    {d : BasicDriverInfo}
    (hReporting : Reporting d id s.outState P s)
    (queue : List StateChange) :
    Reporting d id queue P { s with outState := queue } := by
  have hNone : fresh queue { s with outState := queue } = [] :=
    List.drop_length
  have hOld : fresh s.outState s = [] := List.drop_length
  refine ⟨hReporting.self, hReporting.state,
    List.prefix_refl _, ?_, ?_, ?_⟩
  · rw [hNone]
    exact fun c hc => absurd hc List.not_mem_nil
  · rw [hNone]
    exact fun c hc => absurd hc List.not_mem_nil
  · intro x f hf hOn
    rcases hReporting.lamps x f hf hOn with
      hAsked | ⟨c, hc, _⟩
    · exact Or.inl hAsked
    · rw [hOld] at hc
      exact absurd hc List.not_mem_nil

------------------------------------------------------------
-- Single Operations
------------------------------------------------------------

theorem stable_of_view
    {d : BasicDriverInfo}
    {g : Loop → Loop}
    (hView : ∀ s, (g s).reportView = s.reportView) :
    Stable (Reporting d id old P)
      (modify g : LoopM Unit) :=
  preserves_modify fun s hReporting =>
    hReporting.congr (hView s)

/- The floor fits the kind of the change. -/
structure Fitting
    (d : BasicDriverInfo)
    (type : ChangeType)
    (floor : Int) : Prop where
  known : floor = intMin ∨ d.InRange floor
  pressed : ∀ x : CallDirection,
    type = x.pressed → d.HasButton x floor
  served : ∀ x : CallDirection,
    type = x.served → d.InRange floor

/- Changes that neither press nor serve fit every floor. -/
theorem fitting_of_other
    {d : BasicDriverInfo}
    {type : ChangeType}
    {floor : Int}
    (hFloor : floor = intMin ∨ d.InRange floor)
    (hPressed : ∀ x : CallDirection, type ≠ x.pressed)
    (hServed : ∀ x : CallDirection, type ≠ x.served) :
    Fitting d type floor :=
  ⟨hFloor, fun x hType => absurd hType (hPressed x),
    fun x hType => absurd hType (hServed x)⟩

theorem fitting_served
    {d : BasicDriverInfo}
    {x : CallDirection}
    (hf : d.InRange f) :
    Fitting d x.served f := by
  refine ⟨Or.inr hf, ?_, fun _ _ => hf⟩
  intro y hType
  cases x <;> cases y <;> cases hType

theorem fresh_emitted
    (type : ChangeType)
    (floor : Int)
    (now : MillisecondTime)
    (hGrows : old <+: s.outState) :
    fresh old (emitted type floor now s) =
      fresh old s ++
        [⟨type, floor,
          { s.elevState with timestamp := now }⟩] :=
  List.drop_append_of_le_length hGrows.length_le

theorem Reporting.emit
    {d : BasicDriverInfo}
    {type : ChangeType}
    {floor : Int}
    {now : MillisecondTime}
    (hFits : Fitting d type floor)
    (hReporting : Reporting d id old P s) :
    Reporting d id old P (emitted type floor now s) := by
  have hFresh :=
    fresh_emitted type floor now hReporting.grows
  refine ⟨hReporting.self, hReporting.state,
    hReporting.grows.trans (List.prefix_append _ _),
    ?_, ?_, ?_⟩
  · intro c hc
    rw [hFresh] at hc
    rcases List.mem_append.mp hc with hOld | hNew
    · exact hReporting.own c hOld
    · rw [List.mem_singleton.mp hNew]
      exact hReporting.self
  · intro c hc
    rw [hFresh] at hc
    rcases List.mem_append.mp hc with hOld | hNew
    · exact hReporting.reports c hOld
    · rw [List.mem_singleton.mp hNew]
      exact ⟨hReporting.state.stamped now _, hFits.known,
        hFits.pressed, hFits.served⟩
  · intro x f hf hOn
    rw [hFresh]
    rcases hReporting.lamps x f hf hOn with
      hAsked | ⟨c, hc, hPresses⟩
    · exact Or.inl hAsked
    · exact Or.inr
        ⟨c, List.mem_append_left _ hc, hPresses⟩

theorem stable_emit_reporting
    {d : BasicDriverInfo}
    {type : ChangeType}
    {floor : Int}
    (now : MillisecondTime)
    (hFits : Fitting d type floor) :
    Stable (Reporting d id old P)
      (emitStateChange type floor now) :=
  preserves_modify fun _ => Reporting.emit hFits

theorem stable_otherChange
    {d : BasicDriverInfo}
    {floor : Int}
    (now : MillisecondTime)
    (hFloor : floor = intMin ∨ d.InRange floor) :
    Stable (Reporting d id old P)
      (emitStateChange .otherChange floor now) := by
  apply stable_emit_reporting
  apply fitting_of_other hFloor otherChange_ne_pressed
  intro x
  cases x <;> exact ChangeType.noConfusion

theorem Reporting.read
    {reading : Int}
    (hReading : reading = intMin ∨ S.InRange reading)
    (hReporting :
      Reporting S.toBasicDriverInfo id old P s) :
    Reporting S.toBasicDriverInfo id old P
      (floorUpdated reading s) where
  self := hReporting.self
  state :=
    { nonneg := hReporting.state.nonneg
      lastFloor :=
        (hReporting.consistent.read hReading).lastFloor
      inside := hReporting.state.inside
      calls := (hReporting.consistent.read hReading).calls
      asked := by
        intro x f hf hMem
        apply hReporting.state.asked x f hf
        rw [show s.elevState.calls =
          (floorUpdated reading s).elevState.calls from
            allCalls_floorUpdated.symm]
        exact hMem }
  grows := hReporting.grows
  own := hReporting.own
  reports := hReporting.reports
  lamps := hReporting.lamps

theorem stable_start_reporting
    {direction : Direction}
    {reading : Int}
    (hReading : reading = intMin ∨ S.InRange reading) :
    Stable (Reporting S.toBasicDriverInfo id old P)
      (startElevator S.toBasicDriverInfo direction
        reading) := by
  intro s hReporting
  rw [wp_startElevator]
  apply Reporting.congr _ (hReporting.read hReading)
  rfl

/- Inside requests are not accounted for. -/
theorem Reporting.withInside
    {d : BasicDriverInfo}
    {inside : FloorSet}
    (hWithin : inside.Within d)
    (hReporting : Reporting d id old P s) :
    Reporting d id old P
      { s with elevState.insideButtons := inside } where
  self := hReporting.self
  state :=
    { nonneg := hReporting.state.nonneg
      lastFloor := hReporting.state.lastFloor
      inside := hWithin
      calls := fun x => by
        cases x with
        | up => exact hReporting.state.calls .up
        | down => exact hReporting.state.calls .down
      asked := fun x f hf hMem => by
        apply hReporting.state.asked x f hf
        cases x with
        | up => exact hMem
        | down => exact hMem }
  grows := hReporting.grows
  own := hReporting.own
  reports := hReporting.reports
  lamps := hReporting.lamps

theorem stable_inside_reporting
    (value : Bool)
    (f : Int) :
    Stable (Reporting S.toBasicDriverInfo id old P)
      (setInside S.toBasicDriverInfo value f) := by
  intro s hReporting
  by_cases hf : S.InRange f
  · simp only [setInside, wp_bind, wp_get,
      FloorSet.set_eq hf, wp_check_ok, wp_modify]
    apply hReporting.withInside
    cases value with
    | true => exact hReporting.state.inside.insert S hf
    | false => exact hReporting.state.inside.erase
  · have hError :
        ∃ msg, s.elevState.insideButtons.set value f
            S.toBasicDriverInfo =
          .error ⟨msg, .generall⟩ :=
      FloorSet.set_error hf
    rcases hError with ⟨msg, hError⟩
    simp only [setInside, wp_bind, wp_get, hError,
      wp_check_error]
    exact hReporting

/- The lamp of an inside button is switched. -/
theorem Reporting.insideLamp
    {d : BasicDriverInfo}
    {value : Bool}
    (hReporting : Reporting d id old P s) :
    Reporting d id old P
      (lampSet ⟨.targetFloor, f⟩ value s) := by
  apply Reporting.congr _ hReporting
  unfold reportView
  refine Prod.ext rfl (Prod.ext rfl ?_)
  funext x g
  exact lit_lampSet_of_ne inside_ne

theorem stable_insideLamp_reporting
    {d : BasicDriverInfo}
    (value : Bool)
    (f : Int) :
    Stable (Reporting d id old P)
      (callDriver
        (Driver.setButtonLamp d ⟨.targetFloor, f⟩ value)) :=
  stable_setButtonLamp d _ value fun _ =>
    Reporting.insideLamp

theorem stable_lampAndFlag_reporting
    (value : Bool)
    (f : Int) :
    Stable (Reporting S.toBasicDriverInfo id old P)
      (setButtonLampAndFlag S.toBasicDriverInfo
        ⟨.targetFloor, f⟩ value) := by
  unfold setButtonLampAndFlag
  apply Preserves.bind (stable_insideLamp_reporting value f)
  intro _
  exact preserves_when fun _ =>
    stable_inside_reporting value f

/- A hall lamp is switched off, or on where `P` holds. -/
theorem Reporting.hallLamp
    {d : BasicDriverInfo}
    {x : CallDirection}
    {value : Bool}
    (hAsked : value = true → P x f)
    (hReporting : Reporting d id old P s) :
    Reporting d id old P
      (lampSet ⟨x.button, f⟩ value s) where
  self := hReporting.self
  state := hReporting.state
  grows := hReporting.grows
  own := hReporting.own
  reports := hReporting.reports
  lamps y g hg hOn := by
    by_cases hSame : x = y ∧ f = g
    · rcases hSame with ⟨rfl, rfl⟩
      rw [lit_lampSet] at hOn
      exact Or.inl (hAsked hOn)
    · rw [lit_lampSet_of_ne (hall_ne hSame)] at hOn
      exact hReporting.lamps y g hg hOn

theorem stable_hallLamp_reporting
    {d : BasicDriverInfo}
    (x : CallDirection)
    (value : Bool)
    (hAsked : value = true → P x f) :
    Stable (Reporting d id old P)
      (callDriver
        (Driver.setButtonLamp d ⟨x.button, f⟩ value)) :=
  stable_setButtonLamp d _ value fun _ =>
    Reporting.hallLamp hAsked

/- A call is cleared, or set where `P` holds. -/
theorem Reporting.withCall
    {x : CallDirection}
    {value : Bool}
    (hf : S.InRange f)
    (hAsked : value = true → P x f)
    (hReporting :
      Reporting S.toBasicDriverInfo id old P s) :
    Reporting S.toBasicDriverInfo id old P
      (withCalls x
        (if value then
            (s.elevState.calls x).insert f
              S.toBasicDriverInfo
          else
            (s.elevState.calls x).erase f
              S.toBasicDriverInfo) s) := by
  have hConsistent : Consistent S.toBasicDriverInfo id
      (withCalls x
        (if value then
            (s.elevState.calls x).insert f
              S.toBasicDriverInfo
          else
            (s.elevState.calls x).erase f
              S.toBasicDriverInfo) s) := by
    apply hReporting.consistent.withCalls
    cases value with
    | true => exact (hReporting.state.calls x).insert S hf
    | false => exact (hReporting.state.calls x).erase
  have hFresh : fresh old
      (withCalls x
        (if value then
            (s.elevState.calls x).insert f
              S.toBasicDriverInfo
          else
            (s.elevState.calls x).erase f
              S.toBasicDriverInfo) s) = fresh old s := by
    unfold fresh
    rw [outState_withCalls]
  refine ⟨hConsistent.self,
    ⟨hConsistent.self ▸ hConsistent.nonneg,
      hConsistent.lastFloor, hConsistent.inside,
      hConsistent.calls, ?_⟩, ?_, ?_, ?_, ?_⟩
  · intro y g hg hMem
    change called S.toBasicDriverInfo y g _ = true at hMem
    cases value with
    | true =>
        simp only [if_true, called_insert hf hg,
          Bool.or_eq_true, decide_eq_true_eq] at hMem
        rcases hMem with hOld | ⟨rfl, rfl⟩
        · exact hReporting.state.asked y g hg hOld
        · exact hAsked rfl
    | false =>
        simp only [Bool.false_eq_true, if_false,
          called_erase hf hg, Bool.and_eq_true] at hMem
        exact hReporting.state.asked y g hg hMem.1
  · rw [outState_withCalls]
    exact hReporting.grows
  · rw [hFresh]
    exact hReporting.own
  · rw [hFresh]
    exact hReporting.reports
  · intro y g hg hOn
    rw [hFresh]
    rw [lit_withCalls] at hOn
    exact hReporting.lamps y g hg hOn

theorem stable_setCall_reporting
    (x : CallDirection)
    (value : Bool)
    (hAsked : value = true → P x f) :
    Stable (Reporting S.toBasicDriverInfo id old P)
      (setCall S.toBasicDriverInfo x value f) := by
  intro s hReporting
  by_cases hf : S.InRange f
  · rw [wp_setCall hf]
    exact hReporting.withCall hf hAsked
  · apply wp_setCall_error hf
    exact fun _ => hReporting

------------------------------------------------------------
-- Polling
------------------------------------------------------------

/- The hall buttons that are polled exist. -/
theorem hasButton_of_mem_genFloorButtons
    {d : BasicDriverInfo}
    {x : CallDirection}
    (hb : ⟨x.button, f⟩ ∈ genFloorButtons d) :
    d.HasButton x f := by
  have hRange := inRange_of_mem_genFloorButtons hb
  rcases List.mem_flatMap.mp hb with ⟨g, _, hAt⟩
  rcases List.mem_append.mp hAt with hAt | hAt
  · rcases List.mem_append.mp hAt with hAt | hAt
    · have hSame := List.mem_singleton.mp hAt
      cases x <;> cases hSame
    · split at hAt
      · next hLow =>
          have hSame := List.mem_singleton.mp hAt
          cases x with
          | up =>
              cases hSame
              exact ⟨hRange.1, hLow⟩
          | down => cases hSame
      · exact absurd hAt List.not_mem_nil
  · split at hAt
    · next hHigh =>
        have hSame := List.mem_singleton.mp hAt
        cases x with
        | up => cases hSame
        | down =>
            cases hSame
            exact ⟨hHigh, hRange.2⟩
    · exact absurd hAt List.not_mem_nil

/- A new press lights the lamp and is reported. -/
theorem Reporting.press
    {d : BasicDriverInfo}
    {x : CallDirection}
    {now : MillisecondTime}
    (hButton : d.HasButton x f)
    (hReporting : Reporting d id old P s) :
    Reporting d id old P
      (emitted x.pressed f now
        (lampSet ⟨x.button, f⟩ true s)) := by
  have hFits : Fitting d x.pressed f := by
    refine ⟨Or.inr hButton.inRange, ?_, ?_⟩
    · intro y hType
      cases x <;> cases y <;>
        first | exact hButton | cases hType
    · intro y hType
      cases x <;> cases y <;> cases hType
  have hDark : Reporting d id old P
      (emitted x.pressed f now s) := hReporting.emit hFits
  refine ⟨hDark.self, hDark.state, hDark.grows, hDark.own,
    hDark.reports, ?_⟩
  intro y g hg hOn
  by_cases hSame : x = y ∧ f = g
  · rcases hSame with ⟨rfl, rfl⟩
    right
    have hFresh := fresh_emitted x.pressed f now
      (s := lampSet ⟨x.button, f⟩ true s) hReporting.grows
    rw [hFresh]
    exact ⟨_, List.mem_append_right _
      (List.mem_singleton_self _), rfl, rfl⟩
  · apply hDark.lamps y g hg
    change lit y g (lampSet ⟨x.button, f⟩ true s) = true
      at hOn
    rw [lit_lampSet_of_ne (hall_ne hSame)] at hOn
    exact hOn

theorem stable_newHallPress_reporting
    {x : CallDirection}
    (hButton : S.HasButton x f) :
    Stable (Reporting S.toBasicDriverInfo id old P)
      (newPress S.toBasicDriverInfo i ⟨x.button, f⟩) := by
  intro s hReporting
  have hRange : S.InRange (Button.mk x.button f).floor :=
    hButton.inRange
  have hHall : x.button ≠ .targetFloor := by
    cases x <;> exact ButtonType.noConfusion
  have hType :
      changeTypeByButton x.button = x.pressed := by
    cases x <;> rfl
  unfold newPress setButtonLampAndFlag emitStateChange
  simp only [wp_bind, wp_when, hHall, if_false, wp_modify,
    hType]
  rw [wp_callDriver_ok (Driver.setButtonLamp_eq hRange)]
  exact hReporting.press hButton

theorem stable_newPress_reporting
    {b : Button}
    (hb : b ∈ genFloorButtons S.toBasicDriverInfo) :
    Stable (Reporting S.toBasicDriverInfo id old P)
      (newPress S.toBasicDriverInfo i b) := by
  rcases b with ⟨type, f⟩
  cases type with
  | callUp =>
      exact stable_newHallPress_reporting (x := .up)
        (hasButton_of_mem_genFloorButtons hb)
  | callDown =>
      exact stable_newHallPress_reporting (x := .down)
        (hasButton_of_mem_genFloorButtons hb)
  | targetFloor =>
      unfold newPress
      apply Preserves.bind
        (stable_lampAndFlag_reporting true f)
      intro _
      apply Preserves.bind
      · exact preserves_when fun _ =>
          stable_inside_reporting true f
      · intro _
        apply stable_emit_reporting
        apply fitting_of_other
          (Or.inr (inRange_of_mem_genFloorButtons hb))
        · intro x
          cases x <;> exact ChangeType.noConfusion
        · intro x
          cases x <;> exact ChangeType.noConfusion

theorem stable_handleButtons_reporting :
    Stable (Reporting S.toBasicDriverInfo id old P)
      (handleButtons S.toBasicDriverInfo i) := by
  unfold handleButtons
  apply preserves_forM
  intro b hb
  unfold handleButton
  apply Preserves.bind (stable_check _)
  intro _
  apply preserves_when
  intro _
  apply Preserves.bind preserves_get
  intro s
  apply Preserves.bind (stable_check _)
  intro lit
  apply Preserves.bind
  · exact preserves_when fun _ =>
      stable_newPress_reporting hb
  · intro _
    apply preserves_when
    intro _
    unfold holdInside
    apply Preserves.bind preserves_get
    intro s
    apply Preserves.bind (stable_check _)
    exact fun r => stable_of_view fun _ => rfl

theorem stable_handleStop_reporting
    (hSensed : i.Sensed S.toBasicDriverInfo) :
    Stable (Reporting S.toBasicDriverInfo id old P)
      (handleStop S.toBasicDriverInfo i) := by
  have hReport :
      Stable (Reporting S.toBasicDriverInfo id old P) (do
        let floor ← updateAndGetFloor
          (i.getFloor .stopButton)
        emitStateChange .otherChange floor
          (i.now .stopButton)) := by
    unfold updateAndGetFloor
    simp only [bind_assoc, pure_bind]
    apply Preserves.bind
    · exact preserves_modify fun _ =>
        Reporting.read (hSensed .stopButton)
    · exact fun _ =>
        stable_otherChange _ (hSensed .stopButton)
  unfold handleStop
  apply Preserves.bind
  · exact stable_of_view fun _ => rfl
  · intro _
    apply Preserves.bind preserves_get
    intro s
    apply preserves_when
    intro _
    apply Preserves.bind
    · exact stable_of_view fun _ => rfl
    · intro _
      apply Preserves.bind preserves_get
      intro t
      apply preserves_ite
      · unfold stopPressed stopElevator
        apply Preserves.bind
        · exact stable_of_view fun _ => rfl
        intro _
        apply Preserves.bind
        · exact stable_of_view fun _ => rfl
        · exact fun _ => hReport
      · unfold resumePressed
        apply Preserves.bind preserves_get
        intro t'
        apply Preserves.bind
          (stable_start_reporting (hSensed .resume))
        intro _
        apply Preserves.bind
        · exact stable_of_view fun _ => rfl
        · exact fun _ => hReport

theorem stable_assertConsistency
    {d : BasicDriverInfo}
    {I : Loop → Prop} :
    Stable I (assertConsistency d) := by
  unfold assertConsistency
  apply Preserves.bind preserves_get
  intro s
  apply Preserves.bind (stable_check _)
  intro _
  apply Preserves.bind (stable_check _)
  intro _
  apply Preserves.bind (stable_check _)
  exact fun _ => stable_check _

theorem stable_pollButtons_reporting
    (hSensed : i.Sensed S.toBasicDriverInfo) :
    Stable (Reporting S.toBasicDriverInfo id old P)
      (pollButtons S.toBasicDriverInfo i) := by
  unfold pollButtons
  apply Preserves.bind
  · exact stable_of_view fun _ => rfl
  · intro _
    apply Preserves.bind stable_assertConsistency
    intro _
    apply Preserves.bind stable_handleButtons_reporting
    exact fun _ => stable_handleStop_reporting hSensed

------------------------------------------------------------
-- Commands and Sensing
------------------------------------------------------------

/- A shutdown only switches lamps off. -/
theorem shutdown_off
    {d : BasicDriverInfo}
    {v : Driver} :
    ∃ v', Driver.shutdown d v = .ok v' ∧
      ∀ btn, v'.buttonLamp btn = true →
        v.buttonLamp btn = true := by
  rcases Driver.foldlM_initFloor_ok (d := d) d.floors
    v.stopElevator
    (fun i hi => BasicDriverInfo.mem_floors.mp hi) with
    ⟨v', hFold, hOff⟩
  refine ⟨Driver.setDoorOpenLamp false
    (Driver.setStopLamp false v'), ?_, hOff.off⟩
  simp only [Driver.shutdown, Driver.init, hFold]
  rfl

theorem stable_handleObstruction_reporting
    {d : BasicDriverInfo} :
    Stable (Reporting d id old P)
      (handleObstruction d i) := by
  unfold handleObstruction
  apply preserves_when
  intro _ s hReporting
  rcases shutdown_off (d := d) (v := s.driver) with
    ⟨v, hShutdown, hOff⟩
  rw [wp_callDriver_ok hShutdown]
  refine ⟨hReporting.self, hReporting.state,
    hReporting.grows, hReporting.own, hReporting.reports, ?_⟩
  exact fun x f hf hOn =>
    hReporting.lamps x f hf (hOff _ hOn)

theorem stable_acceptCall_reporting
    (x : CallDirection)
    (hAsked : P x f) :
    Stable (Reporting S.toBasicDriverInfo id old P)
      (acceptCall S.toBasicDriverInfo i x f) := by
  intro s hReporting
  unfold acceptCall
  by_cases hf : S.InRange f
  · have hAccept :
        Stable (Reporting S.toBasicDriverInfo id old P)
          (acceptCall S.toBasicDriverInfo i x f) := by
      unfold acceptCall
      apply Preserves.bind
        (stable_setCall_reporting x true fun _ => hAsked)
      intro _
      apply Preserves.bind
        (stable_hallLamp_reporting x true fun _ => hAsked)
      intro _
      apply stable_emit_reporting
      apply fitting_of_other (Or.inr hf)
      · intro y
        cases x <;> cases y <;> exact ChangeType.noConfusion
      · intro y
        cases x <;> cases y <;> exact ChangeType.noConfusion
    exact hAccept s hReporting
  · rw [wp_bind]
    apply wp_setCall_error hf
    exact fun _ => hReporting

theorem stable_handleCommand_reporting
    (hCaused : i.Caused P) :
    Stable (Reporting S.toBasicDriverInfo id old P)
      (handleCommand S.toBasicDriverInfo i) := by
  unfold handleCommand
  cases hCommand : i.tryDequeue with
  | none => exact preserves_pure _
  | some command =>
      have hAsked := hCaused command hCommand
      apply Preserves.bind preserves_get
      intro s
      apply Preserves.bind (stable_check _)
      intro _
      have hOff : ∀ x : CallDirection,
          false = true → P x command.targetFloor :=
        fun _ hFalse => absurd hFalse Bool.false_ne_true
      unfold executeCommand
      cases hType : command.commandType with
      | empty => exact preserves_pure _
      | callToFloorAndGoUp =>
          exact stable_acceptCall_reporting .up
            (hAsked .up (Or.inl hType))
      | callToFloorAndGoDown =>
          exact stable_acceptCall_reporting .down
            (hAsked .down (Or.inl hType))
      | turnOnLightUp =>
          exact stable_hallLamp_reporting .up true
            fun _ => hAsked .up (Or.inr hType)
      | turnOffLightUp =>
          exact stable_hallLamp_reporting .up false
            (hOff .up)
      | turnOnLightDown =>
          exact stable_hallLamp_reporting .down true
            fun _ => hAsked .down (Or.inr hType)
      | turnOffLightDown =>
          exact stable_hallLamp_reporting .down false
            (hOff .down)

theorem stable_reportFloor_reporting
    {d : BasicDriverInfo}
    {currentFloor : Int}
    (hFloor : currentFloor = intMin ∨
      d.InRange currentFloor) :
    Stable (Reporting d id old P)
      (reportFloor d i currentFloor) := by
  unfold reportFloor
  apply Preserves.bind
  · apply preserves_when
    intro _ s hReporting
    by_cases hRange : d.InRange currentFloor
    · rw [wp_callDriver_ok
        (Driver.setFloorIndicator_eq hRange)]
      apply Reporting.congr _ hReporting
      rfl
    · rcases Driver.setFloorIndicator_error (v := s.driver)
        hRange with ⟨msg, hError⟩
      rw [wp_callDriver_error hError]
      exact hReporting
  · intro _
    apply Preserves.bind preserves_get
    intro s
    exact preserves_when fun _ => stable_otherChange _ hFloor

theorem stable_senseFloor_reporting
    (hSensed : i.Sensed S.toBasicDriverInfo) :
    Stable (Reporting S.toBasicDriverInfo id old P)
      (senseFloor S.toBasicDriverInfo i) := by
  have hStop :
      Stable (Reporting S.toBasicDriverInfo id old P)
        stopElevator :=
    stable_of_view fun _ => rfl
  unfold senseFloor updateAndGetFloor
  simp only [bind_assoc, pure_bind]
  apply Preserves.bind
  · exact preserves_modify fun _ =>
      Reporting.read (hSensed .loop)
  intro _
  apply Preserves.bind
  · unfold safetyStops
    apply Preserves.bind preserves_get
    intro s
    apply Preserves.bind
    · exact preserves_when fun _ => hStop
    · intro _
      apply Preserves.bind preserves_get
      intro t
      exact preserves_when fun _ => hStop
  · intro _
    apply Preserves.bind
      (stable_reportFloor_reporting (hSensed .loop))
    exact fun _ => preserves_pure _

------------------------------------------------------------
-- Reacting
------------------------------------------------------------

theorem stable_serveFloor_reporting
    (hFloor : f = intMin ∨ S.InRange f) :
    Stable (Reporting S.toBasicDriverInfo id old P)
      (serveFloor S.toBasicDriverInfo i f) := by
  unfold serveFloor
  apply Preserves.bind (stable_lampAndFlag_reporting false f)
  intro _
  apply Preserves.bind
  · exact stable_of_view fun _ => rfl
  · intro _
    apply Preserves.bind
    · exact stable_of_view fun _ => rfl
    · intro _
      apply Preserves.bind (stable_inside_reporting false f)
      intro _
      apply stable_emit_reporting
      apply fitting_of_other hFloor
      · intro x
        cases x <;> exact ChangeType.noConfusion
      · intro x
        cases x <;> exact ChangeType.noConfusion

theorem stable_clearDirection_reporting
    (now : MillisecondTime) :
    Stable (Reporting S.toBasicDriverInfo id old P)
      (clearDirectionButtonLamp S.toBasicDriverInfo now) := by
  intro s hReporting
  unfold clearDirectionButtonLamp
  simp only [wp_bind, wp_get]
  cases hButton :
      directionButton S.toBasicDriverInfo s.elevState with
  | none => exact hReporting
  | some target =>
      rcases target with ⟨x, f⟩
      have hf := inRange_directionButton
        hReporting.state.lastFloor hButton
      have hOff : false = true → P x f :=
        fun hFalse => absurd hFalse Bool.false_ne_true
      have hClear :
          Stable (Reporting S.toBasicDriverInfo id old P) (do
            let wasSet ← setCall S.toBasicDriverInfo x
              false f
            when wasSet (emitStateChange x.served f now)
            callDriver (Driver.setButtonLamp
              S.toBasicDriverInfo ⟨x.button, f⟩ false)) := by
        apply Preserves.bind
          (stable_setCall_reporting x false hOff)
        intro wasSet
        apply Preserves.bind
        · exact preserves_when fun _ =>
            stable_emit_reporting now (fitting_served hf)
        · exact fun _ => stable_hallLamp_reporting x false hOff
      exact hClear s hReporting

theorem stable_depart_reporting
    {currentFloor : Int}
    (hSensed : i.Sensed S.toBasicDriverInfo)
    (hFloor : currentFloor = intMin ∨
      S.InRange currentFloor) :
    Stable (Reporting S.toBasicDriverInfo id old P)
      (depart S.toBasicDriverInfo i currentFloor) := by
  unfold depart
  apply Preserves.bind preserves_get
  intro s
  apply Preserves.bind
  · apply preserves_when
    intro _
    apply Preserves.bind
    · unfold startForRequests
      apply Preserves.bind preserves_get
      intro t
      apply Preserves.bind (stable_check _)
      intro priority
      apply preserves_ite
      · exact stable_start_reporting (hSensed .depart)
      · exact stable_start_reporting (hSensed .depart)
    · exact fun _ => stable_otherChange _ hFloor
  · exact fun _ => stable_clearDirection_reporting _

/- Without a floor the first call cannot be cleared, and
nothing is reported as served. -/
theorem stable_closeByTimeout_reporting
    (f : Int) :
    Stable (Reporting S.toBasicDriverInfo id old P)
      (closeByTimeout S.toBasicDriverInfo i f) := by
  intro s hReporting
  unfold closeByTimeout
  by_cases hf : S.InRange f
  · have hOff : ∀ x : CallDirection, false = true → P x f :=
      fun _ hFalse => absurd hFalse Bool.false_ne_true
    have hClose :
        Stable (Reporting S.toBasicDriverInfo id old P)
          (closeByTimeout S.toBasicDriverInfo i f) := by
      unfold closeByTimeout
      apply Preserves.bind
        (stable_setCall_reporting .down false (hOff .down))
      intro _
      apply Preserves.bind
        (stable_setCall_reporting .up false (hOff .up))
      intro _
      apply Preserves.bind
        (stable_hallLamp_reporting .up false (hOff .up))
      intro _
      apply Preserves.bind
        (stable_hallLamp_reporting .down false (hOff .down))
      intro _
      apply Preserves.bind (stable_emit_reporting _
        (fitting_served (x := .up) hf))
      exact fun _ => stable_emit_reporting _
        (fitting_served (x := .down) hf)
    exact hClose s hReporting
  · rw [wp_bind]
    apply wp_setCall_error hf
    exact fun _ => hReporting

theorem stable_handleState_reporting
    {currentFloor : Int}
    (hSensed : i.Sensed S.toBasicDriverInfo)
    (hFloor : currentFloor = intMin ∨
      S.InRange currentFloor) :
    Stable (Reporting S.toBasicDriverInfo id old P)
      (handleState S.toBasicDriverInfo i currentFloor) := by
  unfold handleState
  apply Preserves.bind preserves_get
  intro s
  cases s.state with
  | normal =>
      unfold handleNormal
      apply Preserves.bind preserves_get
      intro t
      apply Preserves.bind (stable_check _)
      intro arrived
      apply preserves_ite
      · exact stable_serveFloor_reporting hFloor
      · exact preserves_when fun _ =>
          stable_depart_reporting hSensed hFloor
  | waitingForInButton =>
      unfold handleWaiting
      apply Preserves.bind preserves_get
      intro t
      apply preserves_when
      intro _
      apply Preserves.bind
      · exact stable_of_view fun _ => rfl
      · intro _
        apply Preserves.bind (stable_otherChange _ hFloor)
        intro _
        apply preserves_ite
        · exact stable_closeByTimeout_reporting currentFloor
        · exact stable_clearDirection_reporting _
  | stopped => exact preserves_pure _

theorem stable_react_reporting
    {currentFloor : Int}
    (hSensed : i.Sensed S.toBasicDriverInfo)
    (hFloor : currentFloor = intMin ∨
      S.InRange currentFloor) :
    Stable (Reporting S.toBasicDriverInfo id old P)
      (react S.toBasicDriverInfo i currentFloor) := by
  unfold react
  apply Preserves.bind
    (stable_handleState_reporting hSensed hFloor)
  intro _
  unfold finishCycle
  apply Preserves.bind preserves_get
  intro s
  apply Preserves.bind
  · apply preserves_when
    intro _
    apply stable_emit_reporting
    apply fitting_of_other hFloor
    · intro x
      cases x <;> exact ChangeType.noConfusion
    · intro x
      cases x <;> exact ChangeType.noConfusion
  · exact fun _ => stable_of_view fun _ => rfl

/- An iteration reports what is accounted for, whether it
completes or not. -/
theorem stable_loopBody_reporting
    (hSensed : i.Sensed S.toBasicDriverInfo)
    (hCaused : i.Caused P) :
    Stable (Reporting S.toBasicDriverInfo id old P)
      (loopBody S.toBasicDriverInfo i) := by
  have hApproach :
      Stable (Reporting S.toBasicDriverInfo id old P)
        (approach S.toBasicDriverInfo i) := by
    unfold approach pollCommands
    apply Preserves.bind
      (stable_pollButtons_reporting hSensed)
    intro _
    apply Preserves.bind
    · apply Preserves.bind stable_handleObstruction_reporting
      exact fun _ => stable_handleCommand_reporting hCaused
    · exact fun _ => stable_senseFloor_reporting hSensed
  intro s hReporting
  unfold loopBody
  rw [wp_bind]
  apply wp_mono _ _
    (wp_and (wp_approach_blind s) (hApproach s hReporting))
  · rintro currentFloor t ⟨⟨hCurrent, _⟩, hReporting'⟩
    apply stable_react_reporting hSensed _ t hReporting'
    rw [hCurrent]
    exact hSensed .loop
  · exact fun _ _ hError => hError.2

------------------------------------------------------------
-- Steps
------------------------------------------------------------

/- Entering the loop leaves the calls. -/
theorem keeps_allCalls_enter
    {d : BasicDriverInfo} :
    Keeps allCalls (enter d) := by
  unfold enter
  apply Keeps.bind
  · exact keeps_modify fun _ => rfl
  · intro _
    apply Keeps.bind
    · apply keeps_initializeElevator
      · exact fun _ _ => rfl
      · exact fun _ _ => allCalls_withInside
      · intro s value
        funext x
        cases x <;> rfl
      · intro s value
        funext x
        cases x <;> rfl
    · intro _
      apply Keeps.bind keeps_get
      intro t
      exact keeps_when fun _ => keeps_modify fun _ => rfl

/- Entering the loop leaves the queue of changes. -/
theorem outState_of_enter
    {d : BasicDriverInfo}
    (hEnter : enter d s = .ok () t) :
    t.outState = s.outState := by
  have hLedger := wp_ok (keeps_ledger_enter s) hEnter
  exact (Prod.mk.inj (Prod.mk.inj hLedger).2).2

/- Whatever its hall lamps showed, an elevator that enters
the loop shows its calls. -/
theorem reporting_of_enter
    (hState : s.elevState.Accounted S.toBasicDriverInfo P)
    (hGrows : old <+: s.outState)
    (hOwn : ∀ c ∈ fresh old s, c.state.id = s.elevState.id)
    (hReports : ∀ c ∈ fresh old s,
      c.Accounted S.toBasicDriverInfo P)
    (hEnter : enter S.toBasicDriverInfo s = .ok () t) :
    Reporting S.toBasicDriverInfo s.elevState.id old P t := by
  have hConsistent :
      Consistent S.toBasicDriverInfo s.elevState.id s :=
    ⟨rfl, hState.nonneg, hState.lastFloor, hState.inside,
      hState.calls⟩
  have hEntered := consistent_of_enter hConsistent hEnter
  have hOut := outState_of_enter hEnter
  have hCalls := wp_ok (keeps_allCalls_enter s) hEnter
  have hFresh : fresh old t = fresh old s := by
    unfold fresh
    rw [hOut]
  have hAsked : ∀ x f, S.InRange f →
      called S.toBasicDriverInfo x f t = true → P x f := by
    intro x f hf hCalled
    rw [called_congr hCalls] at hCalled
    exact hState.asked x f hf hCalled
  refine ⟨hEntered.self,
    ⟨hEntered.self ▸ hEntered.nonneg, hEntered.lastFloor,
      hEntered.inside, hEntered.calls, hAsked⟩, ?_, ?_, ?_, ?_⟩
  · rw [hOut]
    exact hGrows
  · rw [hFresh]
    exact hOwn
  · rw [hFresh]
    exact hReports
  · intro x f hf hOn
    left
    apply hAsked x f hf
    rw [← shows_of_enter hf hEnter x]
    exact hOn

/- One step of the loop, with a restart or without. -/
theorem reporting_of_step
    (hSensed : i.Sensed S.toBasicDriverInfo)
    (hCaused : i.Caused P)
    (hReporting :
      Reporting S.toBasicDriverInfo id old P s)
    (hStep : Step S.toBasicDriverInfo i s t) :
    Reporting S.toBasicDriverInfo id old P t := by
  have hBody :=
    stable_loopBody_reporting hSensed hCaused s hReporting
  cases hStep with
  | iterate hRun =>
      have hOk := wp_ok hBody hRun
      exact hOk
  | restart e u hRun hTag hEnter =>
      have hError := wp_error hBody hRun
      have hHalted :
          Reporting S.toBasicDriverInfo id old P
            (halted u) := by
        apply Reporting.congr _ hError
        rfl
      have hEntered := reporting_of_enter hHalted.state
        hHalted.grows
        (fun c hc => (hHalted.own c hc).trans
          hHalted.self.symm)
        hHalted.reports hEnter
      rw [hHalted.self] at hEntered
      exact hEntered

end Reporting

end Loop

end ElevatorControl
