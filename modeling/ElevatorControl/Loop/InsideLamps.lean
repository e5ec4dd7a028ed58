import ElevatorControl.Loop.Assertions

/-
  Inside requests and their lamps.

  A press counts as new when the lamp is off, so the lamps
  and the requests have to agree. They do as long as the
  obstruction branch is not taken: the press handler sets
  both, the service of a floor clears both, and entering the
  loop lights the lamps of the requests it finds and takes
  over the lamps that are lit. Nothing but service removes a
  request.

  Key definitions include:
    * `Loop.InStep`
    * `Loop.Kept`
    * `Loop.ServedAt`

  Key theorems include:
    * `Loop.wp_loopBody_inside`
    * `Loop.inStep_of_enter`
    * `Loop.inside_requests`
-/

------------------------------------------------------------
-- Requests and Lamps
------------------------------------------------------------

namespace ElevatorControl

namespace Loop

open Exec Car

/- The lamp of the inside button is lit. -/
def insideLit
    (f : Int)
    (s : Loop) : Bool :=
  s.driver.buttonLamp ⟨.targetFloor, f⟩

/- The floor is requested from inside. -/
def requested
    (d : BasicDriverInfo)
    (f : Int)
    (s : Loop) : Bool :=
  s.elevState.insideButtons.mem f d

/- The lamps show the requests. -/
def InStep
    (d : BasicDriverInfo)
    (s : Loop) : Prop :=
  ∀ f, d.InRange f → insideLit f s = requested d f s

/- The lamps show the requests, and since `s₀` no request has
been removed. -/
structure Kept
    (d : BasicDriverInfo)
    (s₀ s : Loop) : Prop where
  inStep : InStep d s
  grows : ∀ f, d.InRange f → requested d f s₀ = true →
    requested d f s = true
  reports : s₀.outState <+: s.outState

/- Since `s₀` the floor has been served, and no other request
has been removed. -/
structure ServedAt
    (d : BasicDriverInfo)
    (f : Int)
    (s₀ s : Loop) : Prop where
  inStep : InStep d s
  others : ∀ g, d.InRange g → g ≠ f →
    requested d g s₀ = true → requested d g s = true
  stopped : s.driver.motor = .none
  opened : s.driver.doorOpenLamp = true
  served : ∃ reports c, c.changeType = .served ∧
    c.changeFloor = f ∧
    s₀.outState ++ reports ++ [c] <+: s.outState

section Stability

variable {S : Shaft}
variable {i : Inputs}
variable {f g : Int}
variable {s₀ s t : Loop}

theorem insideLit_hall
    {x : CallDirection}
    {value : Bool} :
    insideLit g (lampSet ⟨x.button, f⟩ value s) =
      insideLit g s := by
  have hOther : (⟨.targetFloor, g⟩ : Button) ≠
      ⟨x.button, f⟩ :=
    Ne.symm inside_ne
  simp [insideLit, lampSet, hOther]

/- Only the panel and the service of a floor touch requests
or their lamps. -/
theorem callStable_kept
    {d : BasicDriverInfo} :
    CallStable (Kept d s₀) where
  report _ _ _ _ hKept :=
    ⟨hKept.inStep, hKept.grows,
      hKept.reports.trans (List.prefix_append _ _)⟩
  floor _ _ hKept :=
    ⟨hKept.inStep, hKept.grows, hKept.reports⟩
  halt _ hKept :=
    ⟨hKept.inStep, hKept.grows, hKept.reports⟩
  depart _ _ _ _ hKept :=
    ⟨hKept.inStep, hKept.grows, hKept.reports⟩
  indicator _ _ _ hKept :=
    ⟨hKept.inStep, hKept.grows, hKept.reports⟩
  hallLamp s x f value hKept := by
    refine ⟨?_, hKept.grows, hKept.reports⟩
    intro g hg
    rw [insideLit_hall]
    exact hKept.inStep g hg
  calls x _ _ hKept := by
    cases x with
    | up => exact ⟨hKept.inStep, hKept.grows, hKept.reports⟩
    | down => exact ⟨hKept.inStep, hKept.grows, hKept.reports⟩

theorem doorStable_kept
    {d : BasicDriverInfo} :
    DoorStable (Kept d s₀) where
  opened _ _ hKept :=
    ⟨hKept.inStep, hKept.grows, hKept.reports⟩
  shut _ hKept :=
    ⟨hKept.inStep, hKept.grows, hKept.reports⟩
  finish _ _ hKept :=
    ⟨hKept.inStep, hKept.grows, hKept.reports⟩

theorem stopStable_kept
    {d : BasicDriverInfo} :
    StopStable (Kept d s₀) where
  begin _ hKept :=
    ⟨hKept.inStep, hKept.grows, hKept.reports⟩
  sample _ _ hKept :=
    ⟨hKept.inStep, hKept.grows, hKept.reports⟩
  toggle _ _ hKept :=
    ⟨hKept.inStep, hKept.grows, hKept.reports⟩
  state _ _ hKept :=
    ⟨hKept.inStep, hKept.grows, hKept.reports⟩

------------------------------------------------------------
-- Presses and Service
------------------------------------------------------------

/- The state with other inside requests. -/
def withInside
    (buttons : FloorSet)
    (s : Loop) : Loop :=
  { s with elevState.insideButtons := buttons }

theorem insideLit_lampSet
    (value : Bool) :
    insideLit g (lampSet ⟨.targetFloor, f⟩ value s) =
      if g = f then value else insideLit g s := by
  unfold insideLit lampSet
  by_cases hSame : g = f
  · subst hSame
    simp
  · simp [hSame]

theorem wp_setInside
    {d : BasicDriverInfo}
    {Q : Unit → Loop → Prop}
    {E : AssertionFailed → Loop → Prop}
    {value : Bool}
    (hf : d.InRange f) :
    wp (setInside d value f) Q E s ↔
      Q () (withInside
        (if value then s.elevState.insideButtons.insert f d
          else s.elevState.insideButtons.erase f d) s) := by
  simp only [setInside, wp_bind, wp_get, FloorSet.set_eq hf,
    wp_check_ok, wp_modify]
  rfl

/- A request is set with its lamp, or cleared with it. -/
theorem wp_setButtonLampAndFlag_inside
    {d : BasicDriverInfo}
    {Q : Unit → Loop → Prop}
    {E : AssertionFailed → Loop → Prop}
    {value : Bool}
    (hf : d.InRange f) :
    wp (setButtonLampAndFlag d ⟨.targetFloor, f⟩ value) Q E
        s ↔
      Q () (withInside
        (if value then s.elevState.insideButtons.insert f d
          else s.elevState.insideButtons.erase f d)
        (lampSet ⟨.targetFloor, f⟩ value s)) := by
  have hRange :
      d.InRange (Button.mk .targetFloor f).floor := hf
  unfold setButtonLampAndFlag
  simp only [wp_bind, wp_when, if_true]
  rw [wp_callDriver_ok (Driver.setButtonLamp_eq hRange),
    wp_setInside hf]
  rfl

theorem requested_withInside
    {buttons : FloorSet}
    {d : BasicDriverInfo} :
    requested d g (withInside buttons s) = buttons.mem g d :=
  rfl

/- A press adds a request. -/
theorem Kept.press
    (hf : S.InRange f)
    (hKept : Kept S.toBasicDriverInfo s₀ s) :
    Kept S.toBasicDriverInfo s₀
      (withInside
        (s.elevState.insideButtons.insert f
          S.toBasicDriverInfo)
        (lampSet ⟨.targetFloor, f⟩ true s)) where
  inStep g hg := by
    have hLit := insideLit_lampSet (f := f) (g := g) (s := s)
      true
    change insideLit g (lampSet ⟨.targetFloor, f⟩ true s) = _
    rw [hLit, requested_withInside,
      FloorSet.mem_insert S hf hg]
    by_cases hSame : g = f
    · simp [hSame]
    · simp only [hSame, if_false, decide_false, Bool.or_false]
      exact hKept.inStep g hg
  grows g hg hRequest := by
    rw [requested_withInside, FloorSet.mem_insert S hf hg,
      Bool.or_eq_true]
    exact Or.inl (hKept.grows g hg hRequest)
  reports := hKept.reports

/- Adding a request whose lamp is lit changes nothing. -/
theorem Kept.again
    (hf : S.InRange f)
    (hLit : insideLit f s = true)
    (hKept : Kept S.toBasicDriverInfo s₀ s) :
    Kept S.toBasicDriverInfo s₀
      (withInside
        (s.elevState.insideButtons.insert f
          S.toBasicDriverInfo) s) where
  inStep g hg := by
    change insideLit g s = _
    rw [requested_withInside, FloorSet.mem_insert S hf hg,
      hKept.inStep g hg]
    by_cases hSame : g = f
    · subst hSame
      have hRequested := (hKept.inStep g hg).symm.trans hLit
      unfold requested at hRequested
      simp [requested, hRequested]
    · simp [hSame, requested]
  grows g hg hRequest := by
    rw [requested_withInside, FloorSet.mem_insert S hf hg,
      Bool.or_eq_true]
    exact Or.inl (hKept.grows g hg hRequest)
  reports := hKept.reports

theorem stable_newPress
    {b : Button}
    (hb : S.InRange b.floor) :
    Stable (Kept S.toBasicDriverInfo s₀)
      (newPress S.toBasicDriverInfo i b) := by
  rcases b with ⟨type, f⟩
  have hHall : ∀ x : CallDirection,
      Stable (Kept S.toBasicDriverInfo s₀)
        (newPress S.toBasicDriverInfo i ⟨x.button, f⟩) := by
    intro x
    have hOther : x.button ≠ .targetFloor := by
      cases x with
      | up => exact ButtonType.noConfusion
      | down => exact ButtonType.noConfusion
    unfold newPress setButtonLampAndFlag
    simp only [hOther, when, if_false]
    apply Preserves.bind
    · apply Preserves.bind
        (stable_setHallLamp callStable_kept _ x f true)
      exact fun _ => preserves_pure _
    · intro _
      apply Preserves.bind (preserves_pure _)
      exact fun _ => stable_emitStateChange
        callStable_kept.toMotionStable _ _ _
  cases type with
  | callUp => exact hHall .up
  | callDown => exact hHall .down
  | targetFloor =>
      intro s hKept
      have hf : S.InRange f := hb
      unfold newPress
      simp only [wp_bind, wp_when, if_true]
      rw [wp_setButtonLampAndFlag_inside hf,
        wp_setInside hf]
      apply callStable_kept.report
      apply (hKept.press hf).again hf
      exact (insideLit_lampSet true).trans (if_pos rfl)

theorem stable_handleButtons_inside :
    Stable (Kept S.toBasicDriverInfo s₀)
      (handleButtons S.toBasicDriverInfo i) := by
  unfold handleButtons
  apply preserves_forM
  intro b hb
  have hRange := inRange_of_mem_genFloorButtons hb
  unfold handleButton
  apply Preserves.bind (stable_check _)
  intro _
  apply preserves_when
  intro _
  apply Preserves.bind preserves_get
  intro s
  apply Preserves.bind (stable_check _)
  intro lit
  apply Preserves.bind
  · exact preserves_when fun _ => stable_newPress hRange
  · intro _
    apply preserves_when
    intro _
    unfold holdInside
    apply Preserves.bind preserves_get
    intro s
    apply Preserves.bind (stable_check _)
    intro r
    exact preserves_modify fun _ hKept =>
      ⟨hKept.inStep, hKept.grows, hKept.reports⟩

theorem served_emitted
    {now : MillisecondTime}
    (hReports : s₀.outState <+: s.outState) :
    ∃ reports c, c.changeType = .served ∧
      c.changeFloor = f ∧
      s₀.outState ++ reports ++ [c] <+:
        (emitted .served f now s).outState := by
  rcases hReports with ⟨reports, hOut⟩
  refine ⟨reports,
    ⟨.served, f, { s.elevState with timestamp := now }⟩,
    rfl, rfl, ?_⟩
  rw [hOut]
  exact List.prefix_rfl

/- Service removes the request of one floor. -/
theorem wp_serveFloor_inside
    (hKept : Kept S.toBasicDriverInfo s₀ s) :
    wp (serveFloor S.toBasicDriverInfo i f)
      (fun _ t => ServedAt S.toBasicDriverInfo f s₀ t)
      (fun _ t => Kept S.toBasicDriverInfo s₀ t) s := by
  by_cases hf : S.InRange f
  · have hMem : ∀ g, S.InRange g →
        ((s.elevState.insideButtons.erase f
            S.toBasicDriverInfo).erase f
          S.toBasicDriverInfo).mem g S.toBasicDriverInfo =
          (requested S.toBasicDriverInfo g s &&
            decide (g ≠ f)) := by
      intro g hg
      rw [FloorSet.mem_erase S hf hg,
        FloorSet.mem_erase S hf hg, Bool.and_assoc,
        Bool.and_self]
      rfl
    unfold serveFloor stopElevator emitStateChange
    simp only [wp_bind, wp_modify]
    rw [wp_setButtonLampAndFlag_inside hf, wp_setInside hf]
    refine ⟨?_, ?_, Driver.motor_stopElevator, rfl, ?_⟩
    · intro g hg
      change insideLit g
        (lampSet ⟨.targetFloor, f⟩ false s) =
          FloorSet.mem _ g S.toBasicDriverInfo
      rw [insideLit_lampSet]
      refine Eq.trans ?_ (hMem g hg).symm
      by_cases hSame : g = f
      · simp [hSame]
      · simp only [hSame, if_false, ne_eq, not_false_eq_true,
          decide_true, Bool.and_true]
        exact hKept.inStep g hg
    · intro g hg hOther hRequest
      refine (hMem g hg).trans ?_
      rw [hKept.grows g hg hRequest]
      simpa using hOther
    · exact served_emitted hKept.reports
  · have hRange :
        ¬ S.InRange (Button.mk .targetFloor f).floor := hf
    have hError :
        ∃ msg, Driver.setButtonLamp S.toBasicDriverInfo
          ⟨.targetFloor, f⟩ false s.driver =
            .error ⟨msg, .generall⟩ :=
      Driver.setButtonLamp_error hRange
    rcases hError with ⟨msg, hError⟩
    unfold serveFloor setButtonLampAndFlag
    simp only [wp_bind]
    rw [wp_callDriver_error hError]
    exact hKept

------------------------------------------------------------
-- Iterations
------------------------------------------------------------

/- Before the local state no request is removed. -/
theorem stable_approach_inside
    (hClear : i.getObstruction = false) :
    Stable (Kept S.toBasicDriverInfo s₀)
      (approach S.toBasicDriverInfo i) := by
  have hCalls : CallStable (Kept S.toBasicDriverInfo s₀) :=
    callStable_kept
  unfold approach pollButtons pollCommands
    handleObstruction assertConsistency
  apply Preserves.bind
  · apply Preserves.bind
    · exact preserves_modify stopStable_kept.begin
    · intro _
      apply Preserves.bind
      · apply Preserves.bind preserves_get
        intro s
        apply Preserves.bind (stable_check _)
        intro _
        apply Preserves.bind (stable_check _)
        intro _
        apply Preserves.bind (stable_check _)
        exact fun _ => stable_check _
      · intro _
        apply Preserves.bind stable_handleButtons_inside
        exact fun _ => stable_handleStop hCalls.toMotionStable
          _ i stopStable_kept
  · intro _
    apply Preserves.bind
    · apply Preserves.bind
      · apply preserves_when
        intro hObstruction
        rw [hClear] at hObstruction
        cases hObstruction
      · exact fun _ => stable_handleCommand hCalls _ i
    · exact fun _ => stable_senseFloor hCalls.toMotionStable _ i

/- The local state serves the floor it stands at, or removes
no request. -/
theorem wp_handleState_inside
    (hKept : Kept S.toBasicDriverInfo s₀ s) :
    wp (handleState S.toBasicDriverInfo i f)
      (fun _ t => Kept S.toBasicDriverInfo s₀ t ∨
        ServedAt S.toBasicDriverInfo f s₀ t)
      (fun _ t => Kept S.toBasicDriverInfo s₀ t) s := by
  have hCalls : CallStable (Kept S.toBasicDriverInfo s₀) :=
    callStable_kept
  unfold handleState
  simp only [wp_bind, wp_get]
  cases s.state with
  | normal =>
      unfold handleNormal
      simp only [wp_bind, wp_get]
      apply wp_mono _ (fun _ _ hE => hE)
        (stable_check (arrives S.toBasicDriverInfo
          s.elevState f) s hKept)
      intro arrived t hKept'
      simp only [wp_ite, wp_when]
      split
      · apply wp_mono _ (fun _ _ hE => hE)
          (wp_serveFloor_inside hKept')
        exact fun _ _ hServed => Or.inr hServed
      · split
        · apply wp_mono _ (fun _ _ hE => hE)
            (stable_depart hCalls _ i f t hKept')
          exact fun _ _ hKept'' => Or.inl hKept''
        · exact Or.inl hKept'
  | waitingForInButton =>
      apply wp_mono _ (fun _ _ hE => hE)
        (stable_handleWaiting hCalls _ i doorStable_kept f s
          hKept)
      exact fun _ _ hKept' => Or.inl hKept'
  | stopped => exact Or.inl hKept

theorem ServedAt.emit
    {d : BasicDriverInfo}
    {type : ChangeType}
    {floor : Int}
    {now : MillisecondTime}
    (hServed : ServedAt d f s₀ s) :
    ServedAt d f s₀ (emitted type floor now s) := by
  rcases hServed.served with
    ⟨reports, c, hType, hFloor, hPrefix⟩
  exact ⟨hServed.inStep, hServed.others, hServed.stopped,
    hServed.opened, reports, c, hType, hFloor,
    hPrefix.trans (List.prefix_append _ _)⟩

/- What an iteration without obstruction does to the
requests. -/
theorem wp_loopBody_inside
    (hInStep : InStep S.toBasicDriverInfo s)
    (hClear : i.getObstruction = false) :
    wp (loopBody S.toBasicDriverInfo i)
      (fun _ t => Kept S.toBasicDriverInfo s t ∨
        ServedAt S.toBasicDriverInfo (i.getFloor .loop) s t)
      (fun _ t => Kept S.toBasicDriverInfo s t) s := by
  have hKept : Kept S.toBasicDriverInfo s s :=
    ⟨hInStep, fun _ _ hRequest => hRequest,
      List.prefix_rfl⟩
  have hReading :
      wp (approach S.toBasicDriverInfo i)
        (fun currentFloor _ =>
          currentFloor = i.getFloor .loop)
        (fun _ _ => True) s := by
    apply wp_mono _ (fun _ _ _ => trivial)
      (refines_approach S.toBasicDriverInfo i s)
    exact fun _ _ hApproached => hApproached.1
  unfold loopBody react finishCycle
  simp only [wp_bind]
  apply wp_mono _ (fun _ _ hE => hE.2)
    (wp_and hReading
      (stable_approach_inside hClear s hKept))
  rintro currentFloor t ⟨rfl, hKept'⟩
  apply wp_mono _ (fun _ _ hE => hE)
    (wp_handleState_inside hKept')
  have hMotion :
      MotionStable (Kept S.toBasicDriverInfo s) :=
    callStable_kept.toMotionStable
  intro _ u hDone
  unfold emitStateChange
  simp only [wp_get, wp_when, wp_modify]
  have hFinish : ∀ u : Loop,
      (Kept S.toBasicDriverInfo s u ∨
        ServedAt S.toBasicDriverInfo
          (i.getFloor .loop) s u) →
      (Kept S.toBasicDriverInfo s
          { u with prevFloor := i.getFloor .loop } ∨
        ServedAt S.toBasicDriverInfo (i.getFloor .loop) s
          { u with prevFloor := i.getFloor .loop }) := by
    rintro u (hKept'' | hServed)
    · exact Or.inl (doorStable_kept.finish u _ hKept'')
    · exact Or.inr ⟨hServed.inStep, hServed.others,
        hServed.stopped, hServed.opened, hServed.served⟩
  split
  · apply hFinish
    rcases hDone with hKept'' | hServed
    · exact Or.inl (hMotion.report _ _ _ _ hKept'')
    · exact Or.inr hServed.emit
  · exact hFinish u hDone

------------------------------------------------------------
-- Entering
------------------------------------------------------------

/- A lit lamp becomes a request. -/
def lampRequested
    (d : BasicDriverInfo)
    (f : Int)
    (s : Loop) : Loop :=
  if insideLit f s then
    withInside (s.elevState.insideButtons.insert f d) s
  else s

/- After that, the request is lit. -/
def merged
    (d : BasicDriverInfo)
    (f : Int)
    (s : Loop) : Loop :=
  if requested d f (lampRequested d f s) then
    lampSet ⟨.targetFloor, f⟩ true (lampRequested d f s)
  else lampRequested d f s

/- The state `_initializeElevator` leaves for one floor. -/
def initialized
    (d : BasicDriverInfo)
    (f : Int)
    (s : Loop) : Loop :=
  let t := merged d f s
  lampSet ⟨.callDown, f⟩ (t.elevState.downButtons.mem f d)
    (lampSet ⟨.callUp, f⟩ (t.elevState.upButtons.mem f d) t)

theorem wp_initializeFloor
    {E : AssertionFailed → Loop → Prop}
    (hE : ∀ e t, E e t) :
    wp (initializeFloor S.toBasicDriverInfo f)
      (fun _ t => S.InRange f ∧
        t = initialized S.toBasicDriverInfo f s) E s := by
  by_cases hf : S.InRange f
  · have hLamp : ∀ (type : ButtonType) (value : Bool)
        (t : Loop) (Q : Unit → Loop → Prop),
        wp (callDriver (Driver.setButtonLamp
          S.toBasicDriverInfo ⟨type, f⟩ value)) Q E t ↔
          Q () (lampSet ⟨type, f⟩ value t) := by
      intro type value t Q
      have hRange : S.InRange (Button.mk type f).floor := hf
      exact wp_callDriver_ok (Driver.setButtonLamp_eq hRange)
    unfold initializeFloor initialized merged lampRequested
    simp only [wp_bind, wp_get, wp_when, getButtonLamp_ok hf,
      FloorSet.get_eq_mem hf, wp_check_ok, wp_setInside hf,
      hLamp, if_true]
    change if insideLit f s = true then _ else _
    cases insideLit f s with
    | true =>
        simp only [if_true]
        change if requested S.toBasicDriverInfo f _ = true
          then _ else _
        split
        · exact ⟨hf, rfl⟩
        · exact ⟨hf, rfl⟩
    | false =>
        simp only [Bool.false_eq_true, if_false]
        change if requested S.toBasicDriverInfo f _ = true
          then _ else _
        split
        · exact ⟨hf, rfl⟩
        · exact ⟨hf, rfl⟩
  · have hRange :
        ¬ S.InRange (Button.mk .targetFloor f).floor := hf
    have hError :
        ∃ msg, Driver.lamp S.toBasicDriverInfo
          ⟨.targetFloor, f⟩ = .error ⟨msg, .generall⟩ :=
      Driver.lamp_error hRange
    rcases hError with ⟨msg, hError⟩
    unfold initializeFloor Driver.getButtonLamp
    simp only [wp_bind, wp_get, hError]
    exact hE _ _

theorem insideLit_lampRequested
    {d : BasicDriverInfo} :
    insideLit g (lampRequested d f s) = insideLit g s := by
  unfold lampRequested
  split
  · rfl
  · rfl

theorem requested_lampRequested
    (hf : S.InRange f)
    (hg : S.InRange g) :
    requested S.toBasicDriverInfo g
        (lampRequested S.toBasicDriverInfo f s) =
      (requested S.toBasicDriverInfo g s ||
        (decide (g = f) && insideLit f s)) := by
  unfold lampRequested
  split
  · next hLit =>
      rw [requested_withInside, FloorSet.mem_insert S hf hg,
        hLit, Bool.and_true]
      rfl
  · next hDark =>
      rw [Bool.eq_false_iff.mpr hDark, Bool.and_false,
        Bool.or_false]

theorem requested_merged
    (hf : S.InRange f)
    (hg : S.InRange g) :
    requested S.toBasicDriverInfo g
        (merged S.toBasicDriverInfo f s) =
      (requested S.toBasicDriverInfo g s ||
        (decide (g = f) && insideLit f s)) := by
  rw [← requested_lampRequested hf hg, merged]
  split
  · rfl
  · rfl

theorem insideLit_merged
    (hf : S.InRange f) :
    insideLit g (merged S.toBasicDriverInfo f s) =
      if g = f then
        requested S.toBasicDriverInfo f s || insideLit f s
      else insideLit g s := by
  have hRequested :=
    requested_lampRequested (s := s) hf hf
  simp only [decide_true, Bool.true_and] at hRequested
  rw [merged]
  split
  · next hSome =>
      rw [insideLit_lampSet, insideLit_lampRequested,
        ← hRequested, hSome]
  · next hNone =>
      have hDark :
          (requested S.toBasicDriverInfo f s ||
            insideLit f s) = false := by
        rw [← hRequested]
        exact Bool.eq_false_iff.mpr hNone
      rw [insideLit_lampRequested, hDark]
      split
      · next hSame =>
          subst hSame
          exact (Bool.or_eq_false_iff.mp hDark).2
      · rfl

theorem inside_initialized :
    insideLit g (initialized S.toBasicDriverInfo f s) =
        insideLit g (merged S.toBasicDriverInfo f s) ∧
      requested S.toBasicDriverInfo g
          (initialized S.toBasicDriverInfo f s) =
        requested S.toBasicDriverInfo g
          (merged S.toBasicDriverInfo f s) := by
  refine ⟨?_, rfl⟩
  unfold initialized
  exact (insideLit_hall (x := .down)).trans
    (insideLit_hall (x := .up))

/- Entering the loop takes over the lamps that are lit, and
lights those of the requests. -/
theorem inStep_of_enter
    (hEnter : enter S.toBasicDriverInfo s = .ok () t) :
    InStep S.toBasicDriverInfo t ∧
      ∀ f, S.InRange f →
        requested S.toBasicDriverInfo f s = true →
        requested S.toBasicDriverInfo f t = true := by
  have hTrivial : ∀ (_ : AssertionFailed) (_ : Loop), True :=
    fun _ _ => trivial
  have hOwn : ∀ (f : Int) (u : Loop),
      wp (initializeFloor S.toBasicDriverInfo f)
        (fun _ u' => S.InRange f →
          insideLit f u' =
            requested S.toBasicDriverInfo f u')
        (fun _ _ => True) u := by
    intro f u
    apply wp_mono _ (fun _ _ hE => hE)
      (wp_initializeFloor hTrivial)
    rintro _ u' ⟨hf, rfl⟩ _
    rw [inside_initialized.1, inside_initialized.2,
      requested_merged hf hf, insideLit_merged hf]
    simp
  have hOther : ∀ (f g : Int) (u : Loop),
      (S.InRange g → insideLit g u =
        requested S.toBasicDriverInfo g u) →
      wp (initializeFloor S.toBasicDriverInfo f)
        (fun _ u' => S.InRange g →
          insideLit g u' =
            requested S.toBasicDriverInfo g u')
        (fun _ _ => True) u := by
    intro f g u hShown
    apply wp_mono _ (fun _ _ hE => hE)
      (wp_initializeFloor hTrivial)
    rintro _ u' ⟨hf, rfl⟩ hg
    rw [inside_initialized.1, inside_initialized.2,
      requested_merged hf hg, insideLit_merged hf]
    by_cases hSame : g = f
    · simp [hSame]
    · simp [hSame, hShown hg]
  have hGrows : ∀ (f : Int) (u : Loop),
      (∀ g, S.InRange g →
        requested S.toBasicDriverInfo g s = true →
        requested S.toBasicDriverInfo g u = true) →
      wp (initializeFloor S.toBasicDriverInfo f)
        (fun _ u' => ∀ g, S.InRange g →
          requested S.toBasicDriverInfo g s = true →
          requested S.toBasicDriverInfo g u' = true)
        (fun _ _ => True) u := by
    intro f u hGrown
    apply wp_mono _ (fun _ _ hE => hE)
      (wp_initializeFloor hTrivial)
    rintro _ u' ⟨hf, rfl⟩ g hg hRequest
    rw [inside_initialized.2, requested_merged hf hg,
      hGrown g hg hRequest]
    rfl
  have hFold :
      wp (S.floors.forM (initializeFloor S.toBasicDriverInfo))
        (fun _ u => ∀ g, S.InRange g →
          requested S.toBasicDriverInfo g s = true →
          requested S.toBasicDriverInfo g u = true)
        (fun _ _ => True) (freshLocals s) := by
    apply wp_forM
    · exact fun f _ u hGrown => hGrows f u hGrown
    · exact fun _ _ hRequest => hRequest
  have hWp :
      wp (enter S.toBasicDriverInfo)
        (fun _ t => InStep S.toBasicDriverInfo t ∧
          ∀ f, S.InRange f →
            requested S.toBasicDriverInfo f s = true →
            requested S.toBasicDriverInfo f t = true)
        (fun _ _ => True) s := by
    unfold enter initializeElevator
    simp only [wp_bind, wp_modify]
    apply wp_mono _ (fun _ _ _ => trivial) (wp_and
      (wp_forM_each _ _ hOwn hOther S.floors
        (freshLocals s)) hFold)
    rintro _ u ⟨hShown, hGrown⟩
    have hFloors : InStep S.toBasicDriverInfo u :=
      fun f hf =>
        hShown f (BasicDriverInfo.mem_floors.mpr hf) hf
    simp only [wp_get, wp_when, wp_modify]
    repeat' split
    all_goals exact ⟨hFloors, hGrown⟩
  have hOk := wp_ok hWp hEnter
  exact hOk

------------------------------------------------------------
-- Runs Without Obstruction
------------------------------------------------------------

/- The runs in which the obstruction branch is not taken. -/
def unobstructedSystem
    (d : BasicDriverInfo) : TransitionSystem Loop where
  Init := Started d
  Step s s' := ∃ i, i.getObstruction = false ∧ Step d i s s'

/- The iteration serves the floor its sensor reads: it ends
with the motor stopped and open doors, and reports it. -/
structure Serves
    (i : Inputs)
    (f : Int)
    (s s' : Loop) : Prop where
  reading : i.getFloor .loop = f
  stopped : s'.driver.motor = .none
  opened : s'.driver.doorOpenLamp = true
  served : ∃ reports c, c.changeType = .served ∧
    c.changeFloor = f ∧
    s.outState ++ reports ++ [c] <+: s'.outState

theorem inStep_of_step
    (hInStep : InStep S.toBasicDriverInfo s)
    (hClear : i.getObstruction = false)
    (hStep : Step S.toBasicDriverInfo i s t) :
    InStep S.toBasicDriverInfo t := by
  cases hStep with
  | iterate hRun =>
      have hOk :=
        wp_ok (wp_loopBody_inside hInStep hClear) hRun
      rcases hOk with hKept | hServed
      · exact hKept.inStep
      · exact hServed.inStep
  | restart e u hRun hTag hEnter =>
      exact (inStep_of_enter hEnter).1

theorem inStep_of_reachable
    (hReach : (unobstructedSystem
      S.toBasicDriverInfo).Reachable s) :
    InStep S.toBasicDriverInfo s := by
  apply hReach.invariant
  · intro t hStarted
    cases hStarted with
    | fresh id driver hEnter =>
        exact (inStep_of_enter hEnter).1
    | recovered id driver state hEnter =>
        exact (inStep_of_enter hEnter).1
  · rintro t t' hInStep ⟨i, hClear, hStep⟩
    exact inStep_of_step hInStep hClear hStep

/- A request is removed only where its floor is served. -/
theorem serves_of_removed
    (hInStep : InStep S.toBasicDriverInfo s)
    (hClear : i.getObstruction = false)
    (hStep : Step S.toBasicDriverInfo i s t)
    (hf : S.InRange f)
    (hRequest : requested S.toBasicDriverInfo f s = true)
    (hRemoved : requested S.toBasicDriverInfo f t = false) :
    Serves i f s t := by
  have hBody := wp_loopBody_inside (i := i) hInStep hClear
  cases hStep with
  | iterate hRun =>
      have hOk := wp_ok hBody hRun
      rcases hOk with hKept | hServed
      · rw [hKept.grows f hf hRequest] at hRemoved
        cases hRemoved
      · have hReading : i.getFloor .loop = f := by
          by_contra hOther
          rw [hServed.others f hf (Ne.symm hOther) hRequest]
            at hRemoved
          cases hRemoved
        refine ⟨hReading, hServed.stopped, hServed.opened, ?_⟩
        rw [← hReading]
        exact hServed.served
  | restart e u hRun hTag hEnter =>
      -- a failed iteration has removed nothing
      have hKept := wp_error hBody hRun
      have hKept' := (inStep_of_enter hEnter).2 f hf
        (hKept.grows f hf hRequest)
      rw [hKept'] at hRemoved
      cases hRemoved

/-
  In every run without obstruction the lamps show the inside
  requests, and a request is removed only by an iteration
  that serves its floor.
-/
theorem inside_requests
    (hReach : (unobstructedSystem
      S.toBasicDriverInfo).Reachable s) :
    (∀ f, S.InRange f →
      (s.driver.buttonLamp ⟨.targetFloor, f⟩ = true ↔
        s.elevState.insideButtons.mem f
          S.toBasicDriverInfo = true)) ∧
    (∀ i s', i.getObstruction = false →
      Step S.toBasicDriverInfo i s s' →
      ∀ f, S.InRange f →
        s.elevState.insideButtons.mem f
          S.toBasicDriverInfo = true →
        s'.elevState.insideButtons.mem f
          S.toBasicDriverInfo = false →
        Serves i f s s') := by
  have hInStep := inStep_of_reachable hReach
  constructor
  · intro f hf
    have hShown := hInStep f hf
    unfold insideLit requested at hShown
    rw [hShown]
  · intro i s' hClear hStep f hf hRequest hRemoved
    exact serves_of_removed hInStep hClear hStep hf hRequest
      hRemoved

end Stability

/- The car of a rider serves the floor it stands at. -/
theorem inside_requests_riderInside :
    ∃ s s' : Loop,
      (unobstructedSystem
        twoFloors.toBasicDriverInfo).Reachable s ∧
      s.driver.buttonLamp ⟨.targetFloor, 0⟩ = true ∧
      Serves atFloor 0 s s' := by
  rcases atFloor_phases with
    ⟨s, s₁, s₂, s₃, s₄, hEnter, hPoll, hCommand, hSense,
      hReact, _, _, hRequest, hRemoved⟩
  have hRun := loopBody_of_phases hPoll hCommand hSense hReact
  have hReach : (unobstructedSystem
      twoFloors.toBasicDriverInfo).Reachable s :=
    TransitionSystem.Reachable.init
      (Started.recovered 0 darkDriver riderInside hEnter)
  rcases inside_requests hReach with ⟨hShown, hServes⟩
  have hFloor : twoFloors.InRange 0 := by decide
  exact ⟨s, s₄, hReach, (hShown 0 hFloor).mpr hRequest,
    hServes atFloor s₄ rfl (Step.iterate hRun) 0 hFloor
      hRequest hRemoved⟩

end Loop

end ElevatorControl
