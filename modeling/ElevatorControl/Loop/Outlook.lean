import ElevatorControl.Loop.InsideLamps

/-
  What a car that stands still decides from, given by the
  state before the iteration and by what the iteration reads.

  An outlook is what `_startElevator` looks at: the floor it
  leaves, the direction it is asked for, and the requests.
  Its heading is the direction the start takes.

  Key definitions include:
    * `Outlook`
    * `Outlook.heading`
    * `Outlook.Shows`
    * `Loop.Idle`
    * `Loop.StopsHere`
    * `Loop.departure`
    * `Loop.jump`

  Key theorems include:
    * `Outlook.Shows.startDirection`
    * `Loop.wp_approach_informed`
    * `Loop.standing_cases`
    * `Loop.shows_departure`
    * `Loop.shows_jump`
-/

------------------------------------------------------------
-- Outlooks
------------------------------------------------------------

namespace ElevatorControl

/-
  The floor a start leaves, the direction it is asked for,
  the floors requested from inside, and all floors that have
  requests.
-/
structure Outlook where
  floor : Int
  direction : Direction
  inside : Int → Bool
  pending : Int → Bool

namespace Outlook

/- The floors that decide a free start: the inside requests,
or all requests when there is none inside. -/
def serves
    (d : BasicDriverInfo)
    (o : Outlook)
    (f : Int) : Bool :=
  if d.floors.any o.inside then o.inside f else o.pending f

/- How many of them lie below the floor. -/
def below
    (d : BasicDriverInfo)
    (o : Outlook) : Nat :=
  d.floors.countP fun f =>
    o.serves d f && decide (f < o.floor)

/- How many of them lie above the floor. -/
def above
    (d : BasicDriverInfo)
    (o : Outlook) : Nat :=
  d.floors.countP fun f =>
    o.serves d f && decide (o.floor < f)

/- The direction of the start: an end floor imposes one, else
it is the one asked for, else the majority decides. -/
def heading
    (d : BasicDriverInfo)
    (o : Outlook) : Direction :=
  if o.floor = d.minFloor then .up
  else if o.floor = d.maxFloor then .down
  else if o.direction ≠ .none then o.direction
  else if o.below d ≤ o.above d then .up
  else .down

/- A published state shows the outlook. -/
structure Shows
    (d : BasicDriverInfo)
    (e : ElevatorState)
    (o : Outlook) : Prop where
  floor : e.lastFloor = o.floor
  direction : e.direction = o.direction
  inside : ∀ f, d.InRange f →
    e.insideButtons.mem f d = o.inside f
  pending : ∀ f, d.InRange f →
    (Loop.allButtons e).mem f d = o.pending f
  within : e.insideButtons.Within d

section Starts

open Loop

variable {S : Shaft}
variable {e : ElevatorState}
variable {o : Outlook}

/- There is an inside request. -/
theorem Shows.hasAny
    (hShows : Shows S.toBasicDriverInfo e o) :
    e.insideButtons.hasAny =
      S.toBasicDriverInfo.floors.any o.inside := by
  rw [Bool.eq_iff_iff, FloorSet.hasAny_iff S hShows.within,
    List.any_eq_true]
  constructor
  · rintro ⟨f, hf, hMem⟩
    refine ⟨f, BasicDriverInfo.mem_floors.mpr hf, ?_⟩
    rw [← hShows.inside f hf]
    exact hMem
  · rintro ⟨f, hFloor, hInside⟩
    have hf := BasicDriverInfo.mem_floors.mp hFloor
    refine ⟨f, hf, ?_⟩
    rw [hShows.inside f hf]
    exact hInside

theorem Shows.mem_floorsToServe
    {f : Int}
    (hShows : Shows S.toBasicDriverInfo e o)
    (hf : S.InRange f) :
    (floorsToServe e).mem f S.toBasicDriverInfo =
      o.serves S.toBasicDriverInfo f := by
  unfold floorsToServe serves
  rw [← hShows.hasAny]
  by_cases hAny : e.insideButtons.hasAny = true
  · rw [if_pos hAny, if_pos hAny]
    exact hShows.inside f hf
  · rw [if_neg hAny, if_neg hAny]
    exact hShows.pending f hf

theorem Shows.countP_below
    (hShows : Shows S.toBasicDriverInfo e o) :
    S.toBasicDriverInfo.floors.countP
        (servesBelow S.toBasicDriverInfo e) =
      o.below S.toBasicDriverInfo := by
  apply List.countP_congr
  intro f hFloor
  have hf := BasicDriverInfo.mem_floors.mp hFloor
  rw [servesBelow, hShows.mem_floorsToServe hf, hShows.floor]

theorem Shows.countP_above
    (hShows : Shows S.toBasicDriverInfo e o) :
    S.toBasicDriverInfo.floors.countP
        (servesAbove S.toBasicDriverInfo e) =
      o.above S.toBasicDriverInfo := by
  apply List.countP_congr
  intro f hFloor
  have hf := BasicDriverInfo.mem_floors.mp hFloor
  rw [servesAbove, hShows.mem_floorsToServe hf, hShows.floor]

/- The start of a state goes where its outlook heads. -/
theorem Shows.startDirection
    (hShows : Shows S.toBasicDriverInfo e o) :
    startDirection S.toBasicDriverInfo e =
      o.heading S.toBasicDriverInfo := by
  have hMajority :
      ∀ direction : Direction,
        majority S.toBasicDriverInfo
            { e with direction := direction } =
          if o.below S.toBasicDriverInfo ≤
              o.above S.toBasicDriverInfo then .up
          else .down := by
    intro direction
    unfold majority
    rw [optimalDirection_counts]
    change (if S.toBasicDriverInfo.floors.countP
        (servesAbove S.toBasicDriverInfo e) ≥
          S.toBasicDriverInfo.floors.countP
            (servesBelow S.toBasicDriverInfo e) then _
        else _) = _
    rw [hShows.countP_above, hShows.countP_below]
  unfold Loop.startDirection heading endFloorDirection
  rw [hMajority, hShows.floor, hShows.direction]
  by_cases hMin : o.floor = S.minFloor
  · simp [hMin]
  · by_cases hMax : o.floor = S.maxFloor
    · have hTop : S.maxFloor ≠ S.minFloor := hMax ▸ hMin
      simp [hMax, hTop]
    · by_cases hFree : o.direction = .none
      · simp [hMin, hMax, hFree]
      · simp [hMin, hMax, hFree]

end Starts

end Outlook

------------------------------------------------------------
-- What an Iteration Learns
------------------------------------------------------------

namespace Loop

open Exec Car

/- The floor is requested from inside when the buttons have
been polled. A press is new when the lamp is off. -/
def asksInside
    (d : BasicDriverInfo)
    (i : Inputs)
    (s : Loop)
    (f : Int) : Bool :=
  requested d f s ||
    (i.getButtonSignal ⟨.targetFloor, f⟩ && !insideLit f s)

/- A hall call is pending when the command has been
executed. -/
def asksHall
    (d : BasicDriverInfo)
    (i : Inputs)
    (s : Loop)
    (f : Int) : Bool :=
  (called d .up f s || i.accepts .up f) ||
    (called d .down f s || i.accepts .down f)

/- The floor has a request when the command has been
executed. -/
def asks
    (d : BasicDriverInfo)
    (i : Inputs)
    (s : Loop)
    (f : Int) : Bool :=
  asksInside d i s f || asksHall d i s f

/- The last floor after the sensor read of the iteration. -/
def seenFloor
    (i : Inputs)
    (s : Loop) : Int :=
  floorAfter (i.getFloor .loop) s.elevState.lastFloor

/- The last floor after the sensor read of a departure. -/
def leftFloor
    (i : Inputs)
    (s : Loop) : Int :=
  floorAfter (i.getFloor .depart) (seenFloor i s)

/- The car stands still in the local state `Normal`, and goes
on to. -/
def Idle
    (i : Inputs)
    (s : Loop) : Prop :=
  s.state = .normal ∧ s.elevState.direction = .none ∧
    ¬ StopPressed i s

/- An idle car opens its doors at the floor it senses: there
is an inside request for it, or it is an end floor with a
request. -/
def StopsHere
    (d : BasicDriverInfo)
    (i : Inputs)
    (s : Loop) : Prop :=
  i.getFloor .loop ≠ intMin ∧
    (asksInside d i s (i.getFloor .loop) = true ∨
      (i.getFloor .loop = d.minFloor ∨
          i.getFloor .loop = d.maxFloor) ∧
        asks d i s (i.getFloor .loop) = true)

/- A car that moves, or is started again, comes to an end
floor that has no request. -/
def Overshoots
    (d : BasicDriverInfo)
    (i : Inputs)
    (s : Loop) : Prop :=
  (s.elevState.direction ≠ .none ∨ StopPressed i s) ∧
    (i.getFloor .loop = d.minFloor ∨
      i.getFloor .loop = d.maxFloor) ∧
    asks d i s (i.getFloor .loop) = false

/- There is an inside request in the last direction of an
idle car. -/
def priorityAhead
    (d : BasicDriverInfo)
    (i : Inputs)
    (s : Loop) : Bool :=
  match s.previousDirection with
  | .up => d.floors.any fun f =>
      asksInside d i s f && decide (seenFloor i s < f)
  | .down => d.floors.any fun f =>
      asksInside d i s f && decide (f < seenFloor i s)
  | .none => false

/- What an idle car departs from. -/
def departure
    (d : BasicDriverInfo)
    (i : Inputs)
    (s : Loop) : Outlook where
  floor := leftFloor i s
  direction :=
    if priorityAhead d i s then s.previousDirection
    else .none
  inside := asksInside d i s
  pending := asks d i s

/- What a car departs from that overshoots: the requests
decide, as none from inside lies beyond an end floor. -/
def jump
    (d : BasicDriverInfo)
    (i : Inputs)
    (s : Loop) : Outlook :=
  { departure d i s with direction := .none }

/-
  What the loop knows when it comes to its local state: the
  requests of the iteration before, the new inside presses
  and the call that has been accepted.
-/
structure Informed
    (d : BasicDriverInfo)
    (i : Inputs)
    (s t : Loop) : Prop where
  sensed : i.getFloor .loop ≠ intMin →
    d.InRange (i.getFloor .loop)
  lastFloor : d.InRange s.elevState.lastFloor
  within : t.elevState.insideButtons.Within d
  callsWithin : ∀ x, (t.elevState.calls x).Within d
  inside : ∀ f, d.InRange f →
    requested d f t = asksInside d i s f
  calls : Accepted d i.accepts s t

------------------------------------------------------------
-- Polling the Buttons
------------------------------------------------------------

/- The buttons that have been polled since `s` and are
pressed have their lamps lit, and those whose lamps were
dark have become requests. -/
structure Polls
    (d : BasicDriverInfo)
    (i : Inputs)
    (polled : List Button)
    (s t : Loop) : Prop where
  lit : ∀ f, insideLit f t =
    (insideLit f s ||
      (decide (⟨.targetFloor, f⟩ ∈ polled) &&
        i.getButtonSignal ⟨.targetFloor, f⟩))
  inside : ∀ f, d.InRange f → requested d f t =
    (requested d f s ||
      (decide (⟨.targetFloor, f⟩ ∈ polled) &&
        i.getButtonSignal ⟨.targetFloor, f⟩ &&
        !insideLit f s))
  within : s.elevState.insideButtons.Within d →
    t.elevState.insideButtons.Within d

section Polling

variable {S : Shaft}
variable {i : Inputs}
variable {s t u : Loop}

/- Nothing has been polled, or nothing that is pressed. -/
theorem Polls.of_quiet
    {d : BasicDriverInfo}
    {polled : List Button}
    (hQuiet : ∀ f, ⟨.targetFloor, f⟩ ∈ polled →
      i.getButtonSignal ⟨.targetFloor, f⟩ = false)
    (hLit : ∀ f, insideLit f t = insideLit f s)
    (hSame : t.elevState.insideButtons =
      s.elevState.insideButtons) :
    Polls d i polled s t := by
  have hNone : ∀ f,
      (decide (⟨.targetFloor, f⟩ ∈ polled) &&
        i.getButtonSignal ⟨.targetFloor, f⟩) = false := by
    intro f
    by_cases hMem : ⟨.targetFloor, f⟩ ∈ polled
    · rw [hQuiet f hMem, Bool.and_false]
    · rw [decide_eq_false hMem, Bool.false_and]
  refine ⟨?_, ?_, ?_⟩
  · intro f
    rw [hNone, Bool.or_false]
    exact hLit f
  · intro f _
    rw [hNone, Bool.false_and, Bool.or_false]
    unfold requested
    rw [hSame]
  · intro hWithin
    rw [hSame]
    exact hWithin

/- Lists of buttons are polled one after the other. -/
theorem Polls.cons
    {d : BasicDriverInfo}
    {b : Button}
    {polled : List Button}
    (hFirst : Polls d i [b] s t)
    (hRest : Polls d i polled t u) :
    Polls d i (b :: polled) s u where
  lit f := by
    rw [hRest.lit, hFirst.lit]
    by_cases hHead : (⟨.targetFloor, f⟩ : Button) = b
    · subst hHead
      cases i.getButtonSignal ⟨.targetFloor, f⟩ <;> simp
    · simp [hHead]
  inside f hf := by
    rw [hRest.inside f hf, hFirst.inside f hf, hFirst.lit]
    by_cases hHead : (⟨.targetFloor, f⟩ : Button) = b
    · subst hHead
      cases i.getButtonSignal ⟨.targetFloor, f⟩ <;> simp
    · simp [hHead]
  within hWithin := hRest.within (hFirst.within hWithin)

/- A new press lights the lamp and adds the request. -/
theorem wp_newPress_polls
    {f : Int}
    (hf : S.InRange f)
    (hSignal :
      i.getButtonSignal ⟨.targetFloor, f⟩ = true)
    (hDark : insideLit f s = false) :
    wp (newPress S.toBasicDriverInfo i ⟨.targetFloor, f⟩)
      (fun _ t =>
        Polls S.toBasicDriverInfo i [⟨.targetFloor, f⟩] s t)
      (fun _ _ => True) s := by
  unfold newPress emitStateChange
  simp only [wp_bind, wp_when, if_true]
  rw [wp_setButtonLampAndFlag_inside hf, wp_setInside hf,
    wp_modify]
  refine ⟨?_, ?_, ?_⟩
  · intro g
    change insideLit g (lampSet ⟨.targetFloor, f⟩ true s) = _
    rw [insideLit_lampSet]
    by_cases hSame : g = f
    · subst hSame
      simp [hSignal]
    · simp [hSame]
  · intro g hg
    change FloorSet.mem ((s.elevState.insideButtons.insert f
      S.toBasicDriverInfo).insert f S.toBasicDriverInfo) g
        S.toBasicDriverInfo = _
    rw [FloorSet.mem_insert S hf hg,
      FloorSet.mem_insert S hf hg]
    by_cases hSame : g = f
    · subst hSame
      simp [hSignal, hDark]
    · simp [hSame, requested]
  · intro hWithin
    exact (hWithin.insert S hf).insert S hf

/- A hall button leaves the inside requests alone. -/
theorem keeps_insideButtons_hallPress
    {d : BasicDriverInfo}
    {x : CallDirection}
    {f : Int} :
    Keeps (fun s => (s.elevState.insideButtons,
        fun g => insideLit g s))
      (newPress d i ⟨x.button, f⟩) := by
  have hOther : x.button ≠ .targetFloor := by
    cases x with
    | up => exact ButtonType.noConfusion
    | down => exact ButtonType.noConfusion
  unfold newPress setButtonLampAndFlag
  simp only [hOther, when, if_false]
  apply Keeps.bind
  · apply Keeps.bind
    · intro s
      by_cases hf : d.InRange f
      · have hRange : d.InRange (Button.mk x.button f).floor :=
          hf
        rw [wp_callDriver_ok (Driver.setButtonLamp_eq hRange)]
        refine Prod.ext rfl ?_
        funext g
        exact insideLit_hall
      · have hRange :
            ¬ d.InRange (Button.mk x.button f).floor := hf
        have hError :
            ∃ msg, Driver.setButtonLamp d ⟨x.button, f⟩ true
              s.driver = .error ⟨msg, .generall⟩ :=
          Driver.setButtonLamp_error hRange
        rcases hError with ⟨msg, hError⟩
        rw [wp_callDriver_error hError]
    · exact fun _ => keeps_pure _
  · intro _
    apply Keeps.bind (keeps_pure _)
    exact fun _ => keeps_modify fun _ => rfl

/- Recording a held button is no request. -/
theorem keeps_insideButtons_holdInside
    {d : BasicDriverInfo}
    {f : Int} :
    Keeps (fun s => (s.elevState.insideButtons,
        fun g => insideLit g s))
      (holdInside d f) := by
  unfold holdInside
  apply Keeps.bind keeps_get
  intro s
  apply Keeps.bind (keeps_check _)
  exact fun _ => keeps_modify fun _ => rfl

/- A button that is not pressed, or is no inside button, and
that leaves the inside requests alone, has been polled. -/
theorem Polls.of_same
    {d : BasicDriverInfo}
    {b : Button}
    (hQuiet : ∀ f, b = ⟨.targetFloor, f⟩ →
      i.getButtonSignal ⟨.targetFloor, f⟩ = false)
    (hSame :
      (t.elevState.insideButtons, fun g => insideLit g t) =
        (s.elevState.insideButtons,
          fun g => insideLit g s)) :
    Polls d i [b] s t := by
  apply Polls.of_quiet
  · intro f hMem
    exact hQuiet f (List.mem_singleton.mp hMem).symm
  · exact fun f => congrFun (congrArg Prod.snd hSame) f
  · exact congrArg Prod.fst hSame

/- A hall button that is held. -/
theorem wp_hallButton_polls
    {d : BasicDriverInfo}
    {x : CallDirection}
    {f : Int}
    (lit : Bool)
    (s : Loop) :
    wp (do
        when (!lit) (newPress d i ⟨x.button, f⟩)
        when (x.button = .targetFloor) (holdInside d f))
      (fun _ t => Polls d i [⟨x.button, f⟩] s t)
      (fun _ _ => True) s := by
  have hKeeps : Keeps (fun s =>
      (s.elevState.insideButtons, fun g => insideLit g s))
      (do
        when (!lit) (newPress d i ⟨x.button, f⟩)
        when (x.button = .targetFloor) (holdInside d f)) := by
    apply Keeps.bind
    · exact keeps_when fun _ => keeps_insideButtons_hallPress
    · exact fun _ => keeps_when fun _ =>
        keeps_insideButtons_holdInside
  apply hKeeps.wp _ fun _ _ _ => trivial
  intro _ t hSame
  apply Polls.of_same _ hSame
  intro g hButton
  cases x with
  | up => cases hButton
  | down => cases hButton

/- Recording that an inside button is held changes nothing
about its being polled. -/
theorem wp_holdInside_polls
    {d : BasicDriverInfo}
    {f : Int}
    (hPolls : Polls d i [⟨.targetFloor, f⟩] s t) :
    wp (holdInside d f)
      (fun _ u => Polls d i [⟨.targetFloor, f⟩] s u)
      (fun _ _ => True) t := by
  apply keeps_insideButtons_holdInside.wp _ fun _ _ _ => trivial
  intro _ u hSame
  have hLast : Polls d i [] t u :=
    Polls.of_quiet
      (fun _ hMem => absurd hMem List.not_mem_nil)
      (fun g => congrFun (congrArg Prod.snd hSame) g)
      (congrArg Prod.fst hSame)
  exact hPolls.cons hLast

/- An inside button with a lit lamp is no new press. -/
theorem Polls.of_lit
    {d : BasicDriverInfo}
    {f : Int}
    (hLit : insideLit f s = true) :
    Polls d i [⟨.targetFloor, f⟩] s s := by
  refine ⟨?_, ?_, fun hWithin => hWithin⟩
  · intro g
    by_cases hSame : g = f
    · subst hSame
      simp [hLit]
    · simp [hSame]
  · intro g hg
    by_cases hSame : g = f
    · subst hSame
      simp [hLit]
    · simp [hSame]

/- An inside button that is held. -/
theorem wp_insideButton_polls
    {f : Int}
    (hf : S.InRange f)
    (hSignal :
      i.getButtonSignal ⟨.targetFloor, f⟩ = true) :
    wp (do
        when (!s.driver.buttonLamp ⟨.targetFloor, f⟩)
          (newPress S.toBasicDriverInfo i ⟨.targetFloor, f⟩)
        when (ButtonType.targetFloor = .targetFloor)
          (holdInside S.toBasicDriverInfo f))
      (fun _ t => Polls S.toBasicDriverInfo i
        [⟨.targetFloor, f⟩] s t)
      (fun _ _ => True) s := by
  simp only [wp_bind]
  rw [wp_when]
  split
  · next hDark =>
      have hDark' : insideLit f s = false := by
        simpa [insideLit] using hDark
      apply wp_mono _ (fun _ _ _ => trivial)
        (wp_newPress_polls hf hSignal hDark')
      intro _ t hPolls
      rw [wp_when, if_pos rfl]
      exact wp_holdInside_polls hPolls
  · next hLit =>
      have hLit' : insideLit f s = true := by
        simpa [insideLit] using hLit
      rw [wp_when, if_pos rfl]
      exact wp_holdInside_polls (Polls.of_lit hLit')

/- Polling a button answers it when it is pressed. -/
theorem wp_handleButton_polls
    {b : Button}
    (hRange : S.InRange b.floor)
    (s : Loop) :
    wp (handleButton S.toBasicDriverInfo i b)
      (fun _ t => Polls S.toBasicDriverInfo i [b] s t)
      (fun _ _ => True) s := by
  unfold handleButton
  rw [wp_bind, Driver.button_eq hRange, wp_check_ok, wp_when]
  split
  · next hSignal =>
      rcases b with ⟨type, f⟩
      have hf : S.InRange f := hRange
      rw [wp_bind, wp_get, wp_bind, getButtonLamp_ok hf,
        wp_check_ok]
      cases type with
      | callUp => exact wp_hallButton_polls (x := .up) _ s
      | callDown => exact wp_hallButton_polls (x := .down) _ s
      | targetFloor => exact wp_insideButton_polls hf hSignal
  · next hSignal =>
      apply Polls.of_same _ rfl
      intro f hButton
      rw [← hButton]
      simpa using hSignal

theorem wp_handleButtons_polls :
    ∀ (buttons : List Button) (s : Loop),
      (∀ b ∈ buttons, S.InRange b.floor) →
      wp (buttons.forM (handleButton S.toBasicDriverInfo i))
        (fun _ t =>
          Polls S.toBasicDriverInfo i buttons s t)
        (fun _ _ => True) s
  | [], s, _ =>
      Polls.of_quiet
        (fun _ hMem => absurd hMem List.not_mem_nil)
        (fun _ => rfl) rfl
  | b :: buttons, s, hRange => by
      change wp (handleButton S.toBasicDriverInfo i b >>=
        fun _ => buttons.forM
          (handleButton S.toBasicDriverInfo i)) _ _ s
      rw [wp_bind]
      apply wp_mono _ (fun _ _ _ => trivial)
        (wp_handleButton_polls
          (hRange b List.mem_cons_self) s)
      intro _ t hFirst
      apply wp_mono _ (fun _ _ _ => trivial)
        (wp_handleButtons_polls buttons t fun b' hb =>
          hRange b' (List.mem_cons_of_mem b hb))
      exact fun _ u hRest => hFirst.cons hRest

/- Every floor has an inside button. -/
theorem targetFloor_mem_genFloorButtons
    {d : BasicDriverInfo}
    {f : Int}
    (hf : d.InRange f) :
    ⟨.targetFloor, f⟩ ∈ genFloorButtons d := by
  refine List.mem_flatMap.mpr
    ⟨f, BasicDriverInfo.mem_floors.mpr hf, ?_⟩
  exact List.mem_append_left _
    (List.mem_append_left _ (List.mem_singleton_self _))

/- When all buttons have been polled, the new presses are
requests. -/
theorem Polls.requested_eq
    {f : Int}
    (hPolls : Polls S.toBasicDriverInfo i
      (genFloorButtons S.toBasicDriverInfo) s t)
    (hf : S.InRange f) :
    requested S.toBasicDriverInfo f t =
      asksInside S.toBasicDriverInfo i s f := by
  rw [hPolls.inside f hf,
    decide_eq_true (targetFloor_mem_genFloorButtons hf),
    Bool.true_and]
  rfl

end Polling

------------------------------------------------------------
-- Before the Local State
------------------------------------------------------------

section Approach

variable {S : Shaft}
variable {i : Inputs}
variable {s t : Loop}

/- An iteration that goes on has been started in a state
whose last floor is one of the shaft. -/
theorem wp_assertConsistency_checked
    (s : Loop) :
    wp (assertConsistency S.toBasicDriverInfo)
      (fun _ t => t = s ∧
        S.InRange s.elevState.lastFloor ∧
        s.elevState.insideButtons.Within
          S.toBasicDriverInfo ∧
        ∀ x, (s.elevState.calls x).Within
          S.toBasicDriverInfo)
      (fun _ _ => True) s := by
  unfold assertConsistency
  simp only [wp_bind, wp_get, assert_true S.ordered,
    wp_check_ok]
  cases hChecked :
      s.elevState.assertConsistency S.toBasicDriverInfo with
  | error e => exact trivial
  | ok u =>
      rw [wp_check_ok]
      rcases checked_of_assertConsistency hChecked with
        ⟨_, hMin, hInside, hCalls⟩
      rw [assert_true hMin, wp_check_ok]
      by_cases hMax : s.elevState.lastFloor ≤ S.maxFloor
      · rw [assert_true hMax, wp_check_ok]
        exact ⟨rfl, ⟨hMin, hMax⟩, hInside, hCalls⟩
      · rw [assert_false hMax, wp_check_error]
        exact trivial

/- The floor that is shown is one of the shaft. -/
theorem wp_senseFloor_sensed
    {d : BasicDriverInfo}
    (s : Loop) :
    wp (senseFloor d i)
      (fun _ _ => i.getFloor .loop ≠ intMin →
        d.InRange (i.getFloor .loop))
      (fun _ _ => True) s := by
  unfold senseFloor updateAndGetFloor reportFloor
  simp only [wp_bind, wp_modify, wp_pure]
  apply wp_mono _ (fun _ _ _ => trivial)
    (moves_safetyStops d _ _)
  intro _ s₁ _
  rw [wp_when]
  split
  · next hKnown =>
      by_cases hRange : d.InRange (i.getFloor .loop)
      · rw [wp_callDriver_ok
          (Driver.setFloorIndicator_eq hRange)]
        simp only [wp_get, wp_when, emitStateChange,
          wp_modify]
        split
        · exact fun _ => hRange
        · exact fun _ => hRange
      · rcases Driver.setFloorIndicator_error
          (v := s₁.driver) hRange with ⟨msg, hError⟩
        rw [wp_callDriver_error hError]
        exact trivial
  · next hUnknown =>
      simp only [wp_get, wp_when, emitStateChange,
        wp_modify]
      split
      · exact fun hKnown => absurd hKnown hUnknown
      · exact fun hKnown => absurd hKnown hUnknown

/- After the buttons the inside requests stay as they are. -/
theorem callStable_insideButtons
    (v : FloorSet) :
    CallStable (fun s => s.elevState.insideButtons = v) where
  report _ _ _ _ hSame := hSame
  floor _ _ hSame := hSame
  halt _ hSame := hSame
  depart _ _ _ _ hSame := hSame
  indicator _ _ _ hSame := hSame
  hallLamp _ _ _ _ hSame := hSame
  calls x _ _ hSame := by
    cases x with
    | up => exact hSame
    | down => exact hSame

theorem stopStable_insideButtons
    (v : FloorSet) :
    StopStable (fun s => s.elevState.insideButtons = v) where
  begin _ hSame := hSame
  sample _ _ hSame := hSame
  toggle _ _ hSame := hSame
  state _ _ hSame := hSame

theorem keeps_insideButtons_handleStop
    {d : BasicDriverInfo} :
    Keeps (fun s => s.elevState.insideButtons)
      (handleStop d i) :=
  Keeps.of_preserves fun v => stable_handleStop
    (callStable_insideButtons v).toMotionStable d i
      (stopStable_insideButtons v)

theorem keeps_insideButtons_handleObstruction
    {d : BasicDriverInfo} :
    Keeps (fun s => s.elevState.insideButtons)
      (handleObstruction d i) := by
  unfold handleObstruction
  apply keeps_when
  exact fun _ => keeps_callDriver fun _ _ _ => rfl

theorem keeps_insideButtons_handleCommand
    {d : BasicDriverInfo} :
    Keeps (fun s => s.elevState.insideButtons)
      (handleCommand d i) :=
  Keeps.of_preserves fun v => stable_handleCommand
    (callStable_insideButtons v) d i

theorem keeps_insideButtons_senseFloor
    {d : BasicDriverInfo} :
    Keeps (fun s => s.elevState.insideButtons)
      (senseFloor d i) :=
  Keeps.of_preserves fun v => stable_senseFloor
    (callStable_insideButtons v).toMotionStable d i

/- The hall calls are on floors of the shaft. -/
def CallsWithin
    (d : BasicDriverInfo)
    (s : Loop) : Prop :=
  ∀ x, (s.elevState.calls x).Within d

theorem CallsWithin.congr
    {d : BasicDriverInfo}
    (hWithin : CallsWithin d s)
    (hCalls : t.allCalls = s.allCalls) :
    CallsWithin d t := by
  intro x
  have hSame : t.elevState.calls x = s.elevState.calls x :=
    congrFun hCalls x
  rw [hSame]
  exact hWithin x

/- A call is accepted for a floor of the shaft only. -/
theorem wp_acceptCall_within
    {x : CallDirection}
    {f : Int}
    (hWithin : CallsWithin S.toBasicDriverInfo s) :
    wp (acceptCall S.toBasicDriverInfo i x f)
      (fun _ t => CallsWithin S.toBasicDriverInfo t)
      (fun _ _ => True) s := by
  unfold acceptCall
  rw [wp_bind]
  by_cases hf : S.InRange f
  · rw [wp_setCall hf, wp_bind]
    apply (keeps_allCalls_setButtonLamp _ _).wp _
      fun _ _ _ => trivial
    intro _ t hCalls
    apply CallsWithin.congr _ hCalls
    intro y
    rw [calls_withCalls]
    by_cases hSame : y = x
    · rw [if_pos hSame, if_pos rfl]
      exact (hWithin x).insert S hf
    · rw [if_neg hSame]
      exact hWithin y
  · exact wp_setCall_error hf fun _ => trivial

theorem wp_handleCommand_within
    (hWithin : CallsWithin S.toBasicDriverInfo s) :
    wp (handleCommand S.toBasicDriverInfo i)
      (fun _ t => CallsWithin S.toBasicDriverInfo t)
      (fun _ _ => True) s := by
  have hLamp : ∀ btn state t,
      CallsWithin S.toBasicDriverInfo t →
      wp (callDriver
          (Driver.setButtonLamp S.toBasicDriverInfo btn
            state))
        (fun _ u => CallsWithin S.toBasicDriverInfo u)
        (fun _ _ => True) t := by
    intro btn state t hBefore
    apply (keeps_allCalls_setButtonLamp btn state).wp _
      fun _ _ _ => trivial
    exact fun _ _ hCalls => hBefore.congr hCalls
  unfold handleCommand
  cases i.tryDequeue with
  | none => exact hWithin
  | some c =>
      simp only [wp_bind, wp_get]
      apply (keeps_check (π := fun s : Loop => s) _).wp _
        fun _ _ _ => trivial
      rintro _ _ rfl
      unfold executeCommand
      cases c.commandType with
      | empty => exact hWithin
      | callToFloorAndGoUp => exact wp_acceptCall_within hWithin
      | callToFloorAndGoDown =>
          exact wp_acceptCall_within hWithin
      | turnOnLightUp => exact hLamp _ true _ hWithin
      | turnOffLightUp => exact hLamp _ false _ hWithin
      | turnOnLightDown => exact hLamp _ true _ hWithin
      | turnOffLightDown => exact hLamp _ false _ hWithin

/-
  An iteration that comes to its local state knows the
  requests of the state before it, the new presses and the
  call it has accepted.
-/
theorem wp_approach_informed
    (s : Loop) :
    wp (approach S.toBasicDriverInfo i)
      (fun _ t => Informed S.toBasicDriverInfo i s t)
      (fun _ _ => True) s := by
  have hRest :
      wp (approach S.toBasicDriverInfo i)
        (fun _ t =>
          (i.getFloor .loop ≠ intMin →
            S.InRange (i.getFloor .loop)) ∧
          S.InRange s.elevState.lastFloor ∧
          t.elevState.insideButtons.Within
            S.toBasicDriverInfo ∧
          CallsWithin S.toBasicDriverInfo t ∧
          ∀ f, S.InRange f →
            requested S.toBasicDriverInfo f t =
              asksInside S.toBasicDriverInfo i s f)
        (fun _ _ => True) s := by
    unfold approach pollButtons pollCommands beginCycle
    simp only [wp_bind, wp_modify]
    apply wp_mono _ (fun _ _ _ => trivial)
      (wp_assertConsistency_checked _)
    rintro _ s₁ ⟨hStart, hLast, hWithin, hCalls⟩
    have hCalls₁ : CallsWithin S.toBasicDriverInfo s₁ := by
      rw [hStart]
      exact hCalls
    have hButtons : Keeps allCalls
        (handleButtons S.toBasicDriverInfo i) :=
      Keeps.of_preserves fun v => stable_handleButtons
        (motionStable_allCalls v) (panelStable_allCalls v) _ i
    have hStop : Keeps allCalls
        (handleStop S.toBasicDriverInfo i) :=
      Keeps.of_preserves fun v => stable_handleStop
        (motionStable_allCalls v) _ i (stopStable_allCalls v)
    apply wp_mono _ (fun _ _ _ => trivial)
      (wp_and (hButtons s₁)
        (wp_handleButtons_polls (genFloorButtons _) s₁
          fun b hb => inRange_of_mem_genFloorButtons hb))
    rintro _ s₂ ⟨hCalls₂, hPolls⟩
    apply wp_mono _ (fun _ _ _ => trivial)
      (wp_and (hStop s₂) (keeps_insideButtons_handleStop s₂))
    rintro _ s₃ ⟨hCalls₃, hSame₃⟩
    apply wp_mono _ (fun _ _ _ => trivial)
      (wp_and (keeps_allCalls_handleObstruction s₃)
        (keeps_insideButtons_handleObstruction s₃))
    rintro _ s₄ ⟨hCalls₄, hSame₄⟩
    have hWithin₄ : CallsWithin S.toBasicDriverInfo s₄ :=
      hCalls₁.congr (hCalls₄.trans (hCalls₃.trans hCalls₂))
    apply wp_mono _ (fun _ _ _ => trivial)
      (wp_and (wp_handleCommand_within hWithin₄)
        (keeps_insideButtons_handleCommand s₄))
    rintro _ s₅ ⟨hWithin₅, hSame₅⟩
    apply wp_mono _ (fun _ _ _ => trivial)
      (wp_and (wp_and (wp_senseFloor_sensed s₅)
        (keeps_allCalls_senseFloor s₅))
        (keeps_insideButtons_senseFloor s₅))
    rintro _ t ⟨⟨hSensed, hCalls₆⟩, hSame₆⟩
    have hInside :
        t.elevState.insideButtons =
          s₂.elevState.insideButtons :=
      hSame₆.trans (hSame₅.trans (hSame₄.trans hSame₃))
    refine ⟨hSensed, hLast, ?_, hWithin₅.congr hCalls₆, ?_⟩
    · rw [hInside]
      apply hPolls.within
      rw [hStart]
      exact hWithin
    · intro f hf
      unfold requested
      rw [hInside]
      rw [hStart] at hPolls
      exact hPolls.requested_eq hf
  apply wp_mono _ (fun _ _ _ => trivial)
    (wp_and hRest (wp_approach_calls s))
  rintro _ t
    ⟨⟨hSensed, hLast, hWithin, hCallsWithin, hInside⟩, hCalls⟩
  exact ⟨hSensed, hLast, hWithin, hCallsWithin, hInside,
    hCalls⟩

------------------------------------------------------------
-- Cars That Stand Still
------------------------------------------------------------

/- The last direction, and the published one. -/
def bearing
    (s : Loop) : Direction × Direction :=
  (s.previousDirection, s.elevState.direction)

theorem ignoresPanel_bearing :
    IgnoresPanel (fun s => (s.bearing, s.stopLast)) where
  lamp _ _ := rfl
  inside _ _ := rfl
  held _ _ := rfl
  report _ _ _ _ := rfl

theorem keeps_bearing_pollCommands
    {d : BasicDriverInfo} :
    Keeps bearing (pollCommands d i) := by
  have hLamp : ∀ btn state,
      Keeps bearing
        (callDriver (Driver.setButtonLamp d btn state)) :=
    fun btn state => keeps_setButtonLamp (fun _ _ => rfl) d
      btn state
  have hAccept : ∀ x floor,
      Keeps bearing (acceptCall d i x floor) := by
    intro x floor
    unfold acceptCall setCall
    apply Keeps.bind
    · apply Keeps.bind keeps_get
      intro s
      apply Keeps.bind (keeps_check _)
      intro r
      apply Keeps.bind
      · apply keeps_modify
        intro s
        cases x with
        | up => rfl
        | down => rfl
      · exact fun _ => keeps_pure _
    · intro _
      apply Keeps.bind (hLamp _ true)
      exact fun _ => keeps_modify fun _ => rfl
  unfold pollCommands handleObstruction handleCommand
  apply Keeps.bind
  · apply keeps_when
    exact fun _ => keeps_callDriver fun _ _ _ => rfl
  · intro _
    cases i.tryDequeue with
    | none => exact keeps_pure _
    | some command =>
        apply Keeps.bind keeps_get
        intro s
        apply Keeps.bind (keeps_check _)
        intro _
        unfold executeCommand
        cases command.commandType with
        | empty => exact keeps_pure _
        | callToFloorAndGoUp => exact hAccept .up _
        | callToFloorAndGoDown => exact hAccept .down _
        | turnOnLightUp => exact hLamp _ true
        | turnOffLightUp => exact hLamp _ false
        | turnOnLightDown => exact hLamp _ true
        | turnOffLightDown => exact hLamp _ false

/- Showing and reporting the floor stops nothing. -/
theorem keeps_previousDirection_reportFloor
    {d : BasicDriverInfo}
    {currentFloor : Int} :
    Keeps previousDirection
      (reportFloor d i currentFloor) := by
  unfold reportFloor
  apply Keeps.bind
  · apply keeps_when
    exact fun _ => keeps_callDriver fun _ _ _ => rfl
  · intro _
    apply Keeps.bind keeps_get
    exact fun _ => keeps_when fun _ =>
      keeps_modify fun _ => rfl

/- A car that is stopped at an end floor remembers where it
was going. -/
theorem wp_safetyStops_previousDirection
    (d : BasicDriverInfo)
    (currentFloor : Int)
    (s : Loop) :
    wp (safetyStops d currentFloor)
      (fun _ t => t.previousDirection =
        if (currentFloor = d.maxFloor ∧
              s.elevState.direction = .up) ∨
            (currentFloor = d.minFloor ∧
              s.elevState.direction = .down) then
          s.elevState.direction
        else s.previousDirection)
      (fun _ _ => True) s := by
  have hRemembers : s.elevState.direction ≠ .none →
      (halted s).previousDirection =
        s.elevState.direction := fun hMoves => if_pos hMoves
  unfold safetyStops stopElevator
  simp only [wp_bind, wp_modify, wp_get, wp_when]
  by_cases hMax :
      currentFloor = d.maxFloor ∧ s.elevState.direction = .up
  · -- a car that has been stopped is not stopped again
    have hOnce : ¬ (currentFloor = d.minFloor ∧
        (halted s).elevState.direction = .down) :=
      fun hAgain => Direction.noConfusion hAgain.2
    rw [if_pos hMax, if_neg hOnce, if_pos (Or.inl hMax)]
    apply hRemembers
    rw [hMax.2]
    exact Direction.noConfusion
  · rw [if_neg hMax]
    by_cases hMin : currentFloor = d.minFloor ∧
        s.elevState.direction = .down
    · rw [if_pos hMin, if_pos (Or.inr hMin)]
      apply hRemembers
      rw [hMin.2]
      exact Direction.noConfusion
    · rw [if_neg hMin, if_neg (not_or.mpr ⟨hMax, hMin⟩)]

theorem wp_senseFloor_previousDirection
    (d : BasicDriverInfo)
    (s : Loop) :
    wp (senseFloor d i)
      (fun _ t => t.previousDirection =
        if (i.getFloor .loop = d.maxFloor ∧
              s.elevState.direction = .up) ∨
            (i.getFloor .loop = d.minFloor ∧
              s.elevState.direction = .down) then
          s.elevState.direction
        else s.previousDirection)
      (fun _ _ => True) s := by
  unfold senseFloor updateAndGetFloor
  simp only [wp_bind, wp_modify, wp_pure]
  apply wp_mono _ (fun _ _ _ => trivial)
    (wp_safetyStops_previousDirection d _ _)
  intro _ s₁ hStopped
  apply keeps_previousDirection_reportFloor.wp _
    fun _ _ _ => trivial
  exact fun _ _ hSame => hSame.trans hStopped

/- A car that stands still remembers its last direction. -/
theorem wp_approach_previousDirection
    {d : BasicDriverInfo}
    (hReleased : ¬ StopPressed i s)
    (hStands : s.elevState.direction = .none) :
    wp (approach d i)
      (fun _ t => t.previousDirection = s.previousDirection)
      (fun _ _ => True) s := by
  unfold approach pollButtons beginCycle
  simp only [wp_bind, wp_modify]
  apply (keeps_assertConsistency
    (π := fun s => (s.bearing, s.stopLast)) d).wp _
      fun _ _ _ => trivial
  intro _ s₁ hSame₁
  apply (keeps_handleButtons ignoresPanel_bearing d i).wp _
    fun _ _ _ => trivial
  intro _ s₂ hSame₂
  have hBefore : (s₂.bearing, s₂.stopLast) =
      (s.bearing, s.stopNow) := hSame₂.trans hSame₁
  have hOld : ¬ (i.getStop = true ∧
      i.getStop ≠ s₂.stopLast) := by
    have hLast : s₂.stopLast = s.stopNow :=
      congrArg Prod.snd hBefore
    rw [hLast]
    intro hNew
    apply hReleased
    refine ⟨hNew.1, ?_⟩
    have hNe := hNew.2
    rw [hNew.1] at hNe
    simpa using hNe.symm
  unfold handleStop
  simp only [wp_bind, wp_modify, wp_get, wp_when]
  rw [if_neg hOld]
  apply keeps_bearing_pollCommands.wp _ fun _ _ _ => trivial
  intro _ s₃ hSame₃
  have hBearing : s₃.bearing = s.bearing :=
    hSame₃.trans (congrArg Prod.fst hBefore)
  have hDirection : s₃.elevState.direction = .none :=
    (congrArg Prod.snd hBearing).trans hStands
  have hPrevious :
      s₃.previousDirection = s.previousDirection :=
    congrArg Prod.fst hBearing
  apply wp_mono _ (fun _ _ _ => trivial)
    (wp_senseFloor_previousDirection d s₃)
  intro _ t hLast
  rw [hLast, hDirection]
  simp only [reduceCtorEq, and_false, or_self, if_false]
  exact hPrevious

/- A sensor that reads a floor tells the last floor. -/
theorem lastFloor_of_approach
    {d : BasicDriverInfo}
    {currentFloor : Int}
    (hApproach : approach d i s = .ok currentFloor t)
    (hKnown : i.getFloor .loop ≠ intMin) :
    t.elevState.lastFloor = i.getFloor .loop := by
  have hOk := wp_ok (refines_approach d i s) hApproach
  rcases hOk with ⟨_, hMove⟩
  change t.car.lastFloor = i.getFloor .loop
  generalize t.car = c at hMove
  cases hMove with
  | intro c₁ c₂ _ _ =>
      rw [lastFloor_sensed]
      exact if_pos hKnown

/- The floors of the shaft are floors the sensor knows. -/
theorem known_of_end
    (hEnd : i.getFloor .loop = S.minFloor ∨
      i.getFloor .loop = S.maxFloor) :
    i.getFloor .loop ≠ intMin := by
  have hSentinel := S.sentinel
  have hOrdered := S.ordered
  rcases hEnd with hMin | hMax
  · omega
  · omega

/-
  How the car comes to its local state: the stop button has
  left it alone, stopped it or started it, then commands and
  the sensor follow. A car that is stopped at an end floor
  remembers where it was going.
-/
theorem wp_approach_toggled
    (s : Loop) :
    wp (approach S.toBasicDriverInfo i)
      (fun _ t => ∃ c₁ c₂ : Car,
        (¬ StopPressed i s ∧ c₁ = s.car ∨
          StopPressed i s ∧
            (c₁.state = .stopped ∨ c₁.direction ≠ .none)) ∧
        Commanded i c₁ c₂ ∧
        t.car = c₂.sensed S.toBasicDriverInfo
          (i.getFloor .loop) ∧
        ((i.getFloor .loop = S.maxFloor ∧
              c₂.direction = .up) ∨
            (i.getFloor .loop = S.minFloor ∧
              c₂.direction = .down) →
          t.previousDirection = c₂.direction))
      (fun _ _ => True) s := by
  unfold approach
  simp only [wp_bind]
  apply wp_mono _ (fun _ _ _ => trivial)
    (wp_pollButtons_toggled s)
  intro _ s₁ hToggled
  apply wp_mono _ (fun _ _ _ => trivial)
    (refines_pollCommands S.toBasicDriverInfo i s₁)
  intro _ s₂ hCommanded
  apply wp_mono _ (fun _ _ _ => trivial)
    (wp_and (refines_senseFloor S.toBasicDriverInfo i s₂)
      (wp_senseFloor_previousDirection S.toBasicDriverInfo
        s₂))
  rintro _ s₃ ⟨hSensed, hPrevious⟩
  refine ⟨s₁.car, s₂.car, ?_, hCommanded, hSensed,
    fun hEnd => hPrevious.trans (if_pos hEnd)⟩
  cases hToggled with
  | ignored hReleased hCar hSigns =>
      exact Or.inl ⟨hReleased, hCar⟩
  | stopped hPressed hDark hCar hSigns =>
      right
      rw [hCar]
      exact ⟨hPressed, Or.inl rfl⟩
  | resumed c hPressed hLit hStarts hCar hSigns =>
      right
      rw [hCar]
      cases hStarts with
      | intro dir hSome hMin hMax =>
          exact ⟨hPressed, Or.inr hSome⟩

/- Commands leave the direction and the local state. -/
theorem same_of_commanded
    {c c' : Car}
    (hCommanded : Commanded i c c') :
    c'.state = c.state ∧
      c'.direction = c.direction ∧
      c'.lastFloor = c.lastFloor := by
  cases hCommanded with
  | ignored => exact ⟨rfl, rfl, rfl⟩
  | obstructed hObstruction => exact ⟨rfl, rfl, rfl⟩

/-
  A car that has closed doors and no direction when the loop
  comes to its local state has been idle before, or has just
  been stopped at an end floor, on its way out of the shaft.
-/
theorem standing_cases
    {currentFloor : Int}
    (hApproach :
      approach S.toBasicDriverInfo i s =
        .ok currentFloor t)
    (hState : t.state = .normal)
    (hDirection : t.elevState.direction = .none) :
    (Idle i s ∧
      t.elevState.lastFloor = seenFloor i s ∧
      t.previousDirection = s.previousDirection) ∨
      ((s.elevState.direction ≠ .none ∨ StopPressed i s) ∧
        ((i.getFloor .loop = S.maxFloor ∧
            t.previousDirection = .up) ∨
          (i.getFloor .loop = S.minFloor ∧
            t.previousDirection = .down)) ∧
        t.elevState.lastFloor = i.getFloor .loop) := by
  rcases wp_ok (wp_approach_toggled s) hApproach with
    ⟨c₁, c₂, hFrom, hCommanded, hSensed, hPrevious⟩
  rcases same_of_commanded hCommanded with
    ⟨hState₂, hDirection₂, hLast₂⟩
  have hNormal : t.car.state = .normal := hState
  have hStands : t.car.direction = .none := hDirection
  rcases sensed_cases S.toBasicDriverInfo (i.getFloor .loop)
      c₂ with hRead | ⟨_, hEnd⟩
  · left
    rw [hSensed, hRead] at hNormal hStands
    have hNormal₁ : c₁.state = .normal :=
      hState₂.symm.trans hNormal
    have hStands₁ : c₁.direction = .none :=
      hDirection₂.symm.trans hStands
    rcases hFrom with
      ⟨hReleased, hCar⟩ | ⟨_, hStopped | hMoving⟩
    · rw [hCar] at hNormal₁ hStands₁
      refine ⟨⟨hNormal₁, hStands₁, hReleased⟩, ?_, ?_⟩
      · change t.car.lastFloor = _
        rw [hSensed, lastFloor_sensed, hLast₂, hCar]
        rfl
      · have hOk := wp_ok (wp_approach_previousDirection
          hReleased hStands₁) hApproach
        exact hOk
    · rw [hNormal₁] at hStopped
      cases hStopped
    · exact absurd hStands₁ hMoving
  · right
    refine ⟨?_, ?_, ?_⟩
    · rcases hFrom with ⟨_, hCar⟩ | ⟨hPressed, _⟩
      · left
        change s.car.direction ≠ .none
        rw [← hCar, ← hDirection₂]
        rcases hEnd with ⟨_, hUp⟩ | ⟨_, hDown⟩
        · rw [hUp]
          exact Direction.noConfusion
        · rw [hDown]
          exact Direction.noConfusion
      · exact Or.inr hPressed
    · rw [hPrevious hEnd]
      exact hEnd
    · apply lastFloor_of_approach hApproach
      exact known_of_end (hEnd.symm.imp And.left And.left)

end Approach

------------------------------------------------------------
-- Departures
------------------------------------------------------------

section Departures

variable {S : Shaft}
variable {i : Inputs}
variable {s t : Loop}

/- The requests of the local state are those of the
iteration. -/
theorem Informed.mem_allButtons
    {f : Int}
    (hInformed : Informed S.toBasicDriverInfo i s t)
    (hf : S.InRange f) :
    (allButtons t.elevState).mem f S.toBasicDriverInfo =
      asks S.toBasicDriverInfo i s f := by
  have hCalls : ∀ x,
      (t.elevState.calls x).mem f S.toBasicDriverInfo =
        (called S.toBasicDriverInfo x f s ||
          i.accepts x f) :=
    fun x => hInformed.calls x f hf
  have hInside :
      t.elevState.insideButtons.mem f S.toBasicDriverInfo =
        asksInside S.toBasicDriverInfo i s f :=
    hInformed.inside f hf
  have hUp := hCalls .up
  have hDown := hCalls .down
  simp only [ElevatorState.calls] at hUp hDown
  unfold allButtons asks asksHall
  rw [FloorSet.mem_union, FloorSet.mem_union, hInside, hUp,
    hDown, Bool.or_assoc]

/- A car with requests is asked for by some floor. -/
theorem Informed.exists_asks
    (hInformed : Informed S.toBasicDriverInfo i s t)
    (hRequests : (allButtons t.elevState).hasAny = true) :
    ∃ f, S.InRange f ∧
      asks S.toBasicDriverInfo i s f = true := by
  have hWithin :
      (allButtons t.elevState).Within S.toBasicDriverInfo :=
    (hInformed.within.union (hInformed.callsWithin .up)).union
      (hInformed.callsWithin .down)
  rcases (FloorSet.hasAny_iff S hWithin).mp hRequests with
    ⟨f, hf, hMem⟩
  refine ⟨f, hf, ?_⟩
  rw [← hInformed.mem_allButtons hf]
  exact hMem

/- A start from the local state shows the requests. -/
theorem Informed.shows
    (hInformed : Informed S.toBasicDriverInfo i s t)
    (direction : Direction)
    (reading : Int) :
    Outlook.Shows S.toBasicDriverInfo
      (startState direction reading t)
      { floor := floorAfter reading t.elevState.lastFloor
        direction := direction
        inside := asksInside S.toBasicDriverInfo i s
        pending := asks S.toBasicDriverInfo i s } where
  floor := rfl
  direction := rfl
  inside := hInformed.inside
  pending _ hf := hInformed.mem_allButtons hf
  within := hInformed.within

/- A car that stands still and does not arrive does not
open. -/
theorem Informed.not_stopsHere
    (hInformed : Informed S.toBasicDriverInfo i s t)
    (hDirection : t.elevState.direction = .none)
    (hArrives :
      arrives S.toBasicDriverInfo t.elevState
        (i.getFloor .loop) = .ok false) :
    ¬ StopsHere S.toBasicDriverInfo i s := by
  rintro ⟨hKnown, hServes⟩
  have hf := hInformed.sensed hKnown
  have hInside :
      t.elevState.insideButtons.mem (i.getFloor .loop)
          S.toBasicDriverInfo =
        asksInside S.toBasicDriverInfo i s
          (i.getFloor .loop) :=
    hInformed.inside _ hf
  rw [arrives, if_pos hKnown, shouldStop_eq hf] at hArrives
  have hStays := Except.ok.inj hArrives
  unfold stopsAt at hStays
  rw [hDirection, hInside, hInformed.mem_allButtons hf,
    Bool.or_eq_false_iff, Bool.or_eq_false_iff] at hStays
  rcases hServes with hAsks | ⟨hEnd, hAsks⟩
  · rw [hStays.1] at hAsks
    cases hAsks
  · rw [hAsks, Bool.and_true, Bool.and_true] at hStays
    rcases hEnd with hMin | hMax
    · exact absurd hMin (of_decide_eq_false hStays.2.1)
    · exact absurd hMax (of_decide_eq_false hStays.2.2)

/- A car that has been stopped at an end floor, and does not
open there, has overshot. -/
theorem overshoots_of_end
    (hMoved : s.elevState.direction ≠ .none ∨
      StopPressed i s)
    (hEnd : i.getFloor .loop = S.minFloor ∨
      i.getFloor .loop = S.maxFloor)
    (hShut : ¬ StopsHere S.toBasicDriverInfo i s) :
    Overshoots S.toBasicDriverInfo i s := by
  refine ⟨hMoved, hEnd, ?_⟩
  by_contra hAsks
  exact hShut ⟨known_of_end hEnd,
    Or.inr ⟨hEnd, by simpa using hAsks⟩⟩

theorem inRange_seenFloor
    (hInformed : Informed S.toBasicDriverInfo i s t) :
    S.InRange (seenFloor i s) := by
  unfold seenFloor floorAfter
  split
  · next hKnown => exact hInformed.sensed hKnown
  · exact hInformed.lastFloor

/- Inside requests have priority in the last direction. -/
theorem Informed.priority_eq
    {priority : Bool}
    (hInformed : Informed S.toBasicDriverInfo i s t)
    (hFloor : t.elevState.lastFloor = seenFloor i s)
    (hPrevious : t.previousDirection = s.previousDirection)
    (hPriority :
      priorityFloorsInDirection S.toBasicDriverInfo
        t.elevState t.previousDirection = .ok priority) :
    priority = priorityAhead S.toBasicDriverInfo i s := by
  have hRange := inRange_seenFloor hInformed
  have hAny : ∀ P : Int → Prop, ∀ [DecidablePred P],
      (∃ f, S.InRange f ∧ P f ∧
          t.elevState.insideButtons.mem f
            S.toBasicDriverInfo = true) ↔
        (S.toBasicDriverInfo.floors.any fun f =>
          asksInside S.toBasicDriverInfo i s f &&
            decide (P f)) = true := by
    intro P _
    rw [List.any_eq_true]
    constructor
    · rintro ⟨f, hf, hP, hMem⟩
      refine ⟨f, BasicDriverInfo.mem_floors.mpr hf, ?_⟩
      rw [← hInformed.inside f hf, requested, hMem,
        decide_eq_true hP]
      rfl
    · rintro ⟨f, hFloors, hBoth⟩
      have hf := BasicDriverInfo.mem_floors.mp hFloors
      rw [Bool.and_eq_true, decide_eq_true_eq,
        ← hInformed.inside f hf] at hBoth
      exact ⟨f, hf, hBoth.2, hBoth.1⟩
  rw [priorityFloorsInDirection_eq (by rwa [hFloor]),
    hPrevious] at hPriority
  rw [← Except.ok.inj hPriority, Bool.eq_iff_iff]
  unfold liesAhead priorityAhead
  cases s.previousDirection with
  | none => exact Iff.rfl
  | up =>
      dsimp only
      rw [hFloor, FloorSet.someHigher_iff S hRange
        hInformed.within]
      exact hAny fun f => seenFloor i s < f
  | down =>
      dsimp only
      rw [hFloor, FloorSet.someLower_iff S hRange]
      exact hAny fun f => f < seenFloor i s

/- An idle car departs from its outlook. -/
theorem shows_departure
    {priority : Bool}
    (hInformed : Informed S.toBasicDriverInfo i s t)
    (hFloor : t.elevState.lastFloor = seenFloor i s)
    (hPrevious : t.previousDirection = s.previousDirection)
    (hPriority :
      priorityFloorsInDirection S.toBasicDriverInfo
        t.elevState t.previousDirection = .ok priority) :
    Outlook.Shows S.toBasicDriverInfo
      (startState
        (if priority then t.previousDirection else .none)
        (i.getFloor .depart) t)
      (departure S.toBasicDriverInfo i s) := by
  have hShows := hInformed.shows
    (if priority then t.previousDirection else .none)
    (i.getFloor .depart)
  rw [hFloor, hPrevious, hInformed.priority_eq hFloor
    hPrevious hPriority] at hShows
  rw [hPrevious, hInformed.priority_eq hFloor hPrevious
    hPriority]
  exact hShows

/- Beyond an end floor there is no inside request. -/
theorem Informed.no_priority
    {priority : Bool}
    (hInformed : Informed S.toBasicDriverInfo i s t)
    (hEnd :
      (i.getFloor .loop = S.maxFloor ∧
          t.previousDirection = .up) ∨
        (i.getFloor .loop = S.minFloor ∧
          t.previousDirection = .down))
    (hFloor : t.elevState.lastFloor = i.getFloor .loop)
    (hPriority :
      priorityFloorsInDirection S.toBasicDriverInfo
        t.elevState t.previousDirection = .ok priority) :
    priority = false := by
  have hKnown := known_of_end
    (hEnd.symm.imp And.left And.left)
  have hRange : S.InRange t.elevState.lastFloor := by
    rw [hFloor]
    exact hInformed.sensed hKnown
  rw [priorityFloorsInDirection_eq hRange] at hPriority
  rw [← Except.ok.inj hPriority, Bool.eq_false_iff]
  unfold liesAhead
  rcases hEnd with ⟨hMax, hUp⟩ | ⟨hMin, hDown⟩
  · rw [hUp]
    dsimp only
    rw [ne_eq, FloorSet.someHigher_iff S hRange
      hInformed.within, hFloor, hMax]
    rintro ⟨f, hf, hHigh, _⟩
    exact absurd hf.2 (Int.not_le.mpr hHigh)
  · rw [hDown]
    dsimp only
    rw [ne_eq, FloorSet.someLower_iff S hRange, hFloor, hMin]
    rintro ⟨f, hf, hLow, _⟩
    exact absurd hf.1 (Int.not_le.mpr hLow)

/- A car that overshoots departs from its outlook. -/
theorem shows_jump
    {priority : Bool}
    (hInformed : Informed S.toBasicDriverInfo i s t)
    (hEnd :
      (i.getFloor .loop = S.maxFloor ∧
          t.previousDirection = .up) ∨
        (i.getFloor .loop = S.minFloor ∧
          t.previousDirection = .down))
    (hFloor : t.elevState.lastFloor = i.getFloor .loop)
    (hPriority :
      priorityFloorsInDirection S.toBasicDriverInfo
        t.elevState t.previousDirection = .ok priority) :
    Outlook.Shows S.toBasicDriverInfo
      (startState
        (if priority then t.previousDirection else .none)
        (i.getFloor .depart) t)
      (jump S.toBasicDriverInfo i s) := by
  have hKnown := known_of_end
    (hEnd.symm.imp And.left And.left)
  have hSeen : t.elevState.lastFloor = seenFloor i s :=
    hFloor.trans (if_pos hKnown).symm
  rw [hInformed.no_priority hEnd hFloor hPriority]
  have hShows := hInformed.shows .none (i.getFloor .depart)
  rw [hSeen] at hShows
  exact hShows

end Departures

end Loop

end ElevatorControl
