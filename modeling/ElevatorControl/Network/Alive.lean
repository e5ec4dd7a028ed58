import Mathlib.Data.List.Chain
import ElevatorControl.Loop.Stamps
import ElevatorControl.Network.Settled

/-
  Whether an elevator can always be chosen.

  A scheduler chooses among the elevators whose states are
  recent. The own elevator reports at least that it is alive,
  and its loop and its scheduler are watched by heart-beats:
  if both keep their pace, the own state is never too old,
  and no choice fails. The assertion in the wait of the
  request queue is not among the operations considered.

  Key definitions include:
    * `Pace`
    * `Clocked`
    * `Clocked.Step`
    * `Clocked.Timely`

  Key theorems include:
    * `Clocked.timely_of_step`
    * `Clocked.alive`
    * `Clocked.operations_never_fail`
-/

------------------------------------------------------------
-- Clocked Buildings
------------------------------------------------------------

namespace ElevatorControl

open Building Scheduler

/-
  How long the loop takes between two heart-beats, and the
  scheduler until it has entered a change. Both together leave
  enough time for a choice.
-/
structure Pace where
  beat : MillisecondTime
  latency : MillisecondTime
  nonneg : 0 ≤ beat
  prompt : 0 ≤ latency
  inTime : Loop.keepAlive + 2 * beat + latency ≤ deadThresh

/- The longest time between two reported changes. -/
def Pace.gap
    (P : Pace) : MillisecondTime :=
  Loop.keepAlive + 2 * P.beat

/- The building with the clock of one node, and the time of
the last heart-beat of the loop of its elevator. -/
structure Clocked (ι : Type) where
  building : Building ι
  clock : MillisecondTime
  beat : MillisecondTime

namespace Clocked

variable {ι : Type}

/- The own states that the scheduler has not entered yet. -/
def waiting
    (C : Site ι)
    (i : ι)
    (s : Building ι) : List ElevatorState :=
  ownUpdates (C.id i) (s.node i).schedOps ++
    (own (C.id i) (s.node i).elevator.outState).map
      StateChange.state

/-
  The elevator of the node reads times between its last
  heart-beat and now, and beats when the iteration completes.
  A node that starts counts as having beaten.
-/
structure Timed
    (C : Site ι)
    (i : ι)
    (s : Clocked ι)
    (action : Action ι)
    (beat : MillisecondTime) : Prop where
  reads : ∀ inputs, action = .iterate i inputs →
    ∀ r, s.beat ≤ inputs.now r ∧ inputs.now r ≤ s.clock
  completed : ∀ inputs, action = .iterate i inputs →
    Loop.Completes C.info inputs
        (s.building.node i).elevator →
      beat = s.clock
  failed : ∀ inputs, action = .iterate i inputs →
    ¬ Loop.Completes C.info inputs
        (s.building.node i).elevator →
      beat = s.beat
  started : action = .start i → beat = s.clock
  other : (∀ inputs, action ≠ .iterate i inputs) →
    action ≠ .start i → beat = s.beat

/- Time passes as long as the loop and the scheduler of the
node keep their pace. -/
inductive Step
    [DecidableEq ι]
    [Fintype ι]
    (C : Site ι)
    (i : ι)
    (P : Pace) :
    Clocked ι → Clocked ι → Prop where
  | tick
      (s : Clocked ι)
      (now : MillisecondTime)
      (hLater : s.clock ≤ now)
      (hBeat : now ≤ s.beat + P.beat)
      (hEntered : ∀ e ∈ waiting C i s.building,
        now ≤ e.timestamp + P.latency) :
      Step C i P s { s with clock := now }
  | act
      (s : Clocked ι)
      (action : Action ι)
      (b : Building ι)
      (beat : MillisecondTime)
      (hActs : Building.Acts C s.building action b)
      (hTimed : s.Timed C i action beat) :
      Step C i P s ⟨b, s.clock, beat⟩

/- The node starts now. -/
structure Initial
    (C : Site ι)
    (s : Clocked ι) : Prop where
  building : Building.Initial C s.building
  beat : s.beat = s.clock

/- The building with the clock of one node. -/
def system
    [DecidableEq ι]
    [Fintype ι]
    (C : Site ι)
    (i : ι)
    (P : Pace) : TransitionSystem (Clocked ι) where
  Init := Initial C
  Step := Step C i P

------------------------------------------------------------
-- Invariant
------------------------------------------------------------

/-
  The elevator of the node reports at short intervals, and a
  report that waits comes soon after the one before it.
-/
structure Timely
    (C : Site ι)
    (i : ι)
    (P : Pace)
    (s : Clocked ι) : Prop where
  beaten : s.beat ≤ s.clock
  inTime : s.clock ≤ s.beat + P.beat
  gaps : (s.building.reported i).IsChain fun c c' =>
    c'.state.timestamp ≤ c.state.timestamp + P.gap
  last : ∀ c, (s.building.reported i).getLast? = some c →
    (s.building.node i).elevator.lastStateUpdate =
      c.state.timestamp
  recent : s.building.reported i ≠ [] →
    s.beat < (s.building.node i).elevator.lastStateUpdate +
      Loop.keepAlive + P.beat
  soon : ∀ old c c' rest,
    s.building.reported i = old ++ c :: c' :: rest →
    (c' :: rest).map StateChange.state <:+
      waiting C i s.building →
    s.clock ≤ c.state.timestamp + (P.gap + P.latency)

section Invariant

variable [DecidableEq ι]
variable {C : Site ι}
variable {i : ι}
variable {P : Pace}
variable {s s' : Clocked ι}

omit [DecidableEq ι] in
/- Nothing has happened to the elevator of the node, and no
change has been added. -/
theorem Timely.of_unreported
    {b : Building ι}
    (hTimely : Timely C i P s)
    (hReported : b.reported i = s.building.reported i)
    (hLast : (b.node i).elevator.lastStateUpdate =
      (s.building.node i).elevator.lastStateUpdate)
    (hWaiting :
      waiting C i b <:+ waiting C i s.building) :
    Timely C i P ⟨b, s.clock, s.beat⟩ where
  beaten := hTimely.beaten
  inTime := hTimely.inTime
  gaps := by
    change (b.reported i).IsChain _
    rw [hReported]
    exact hTimely.gaps
  last := by
    change ∀ c, (b.reported i).getLast? = some c →
      (b.node i).elevator.lastStateUpdate = _
    rw [hReported, hLast]
    exact hTimely.last
  recent := by
    change b.reported i ≠ [] → s.beat <
      (b.node i).elevator.lastStateUpdate + _ + _
    rw [hReported, hLast]
    exact hTimely.recent
  soon old c c' rest hSplit hWaits :=
    hTimely.soon old c c' rest (hReported ▸ hSplit)
      (hWaits.trans hWaiting)

omit [DecidableEq ι] in
/- What is reported in one iteration is reported almost at
once. -/
theorem isChain_of_within
    {new : List StateChange}
    {lo hi gap : MillisecondTime}
    (hWithin : ∀ c ∈ new,
      lo ≤ c.state.timestamp ∧ c.state.timestamp ≤ hi)
    (hGap : hi ≤ lo + gap) :
    new.IsChain fun c c' =>
      c'.state.timestamp ≤ c.state.timestamp + gap := by
  have hArith : ∀ a b : Int,
      lo ≤ a → b ≤ hi → b ≤ a + gap := by
    intro a b hLow hHigh
    exact Int.le_trans hHigh
      (Int.le_trans hGap (Int.add_le_add_right hLow gap))
  apply List.Pairwise.isChain
  apply List.pairwise_of_forall_mem_list
  exact fun c hc c' hc' =>
    hArith _ _ (hWithin c hc).1 (hWithin c' hc').2

omit [DecidableEq ι] in
/- The last report is the last change of the iteration, if
there is any. -/
theorem last_of_stamped
    {lo hi last : MillisecondTime}
    {old : List StateChange}
    {t : Loop}
    (hStamped : Loop.Stamped lo hi last old t) :
    (Loop.fresh old t = [] ∧ t.lastStateUpdate = last) ∨
      ∃ c ∈ Loop.fresh old t,
        (Loop.fresh old t).getLast? = some c ∧
        t.lastStateUpdate = c.state.timestamp := by
  have hLatest := hStamped.latest
  cases hNew : (Loop.fresh old t).getLast? with
  | none =>
      rw [hNew] at hLatest
      exact Or.inl ⟨List.getLast?_eq_none_iff.mp hNew, hLatest⟩
  | some c =>
      rw [hNew] at hLatest
      exact Or.inr
        ⟨c, List.mem_of_getLast? hNew, rfl, hLatest⟩

omit [DecidableEq ι] in
/- The intervals between the reports stay short. -/
theorem gaps_of_iterate
    {t : Loop}
    (hTimely : Timely C i P s)
    (hStamped : Loop.Stamped s.beat s.clock
      (s.building.node i).elevator.lastStateUpdate
      (s.building.node i).elevator.outState t) :
    (s.building.reported i ++
      Loop.fresh (s.building.node i).elevator.outState
        t).IsChain fun c c' =>
          c'.state.timestamp ≤ c.state.timestamp + P.gap := by
  have hSpan : ∀ b c g : Int, 0 ≤ g → c ≤ b + g →
      c ≤ b + (500 + 2 * g) := by
    omega
  have hJoin : ∀ b c g l y : Int, c ≤ b + g → y ≤ c →
      b < l + 500 + g → y ≤ l + (500 + 2 * g) := by
    omega
  apply List.IsChain.append hTimely.gaps
  · exact isChain_of_within hStamped.within
      (hSpan _ _ _ P.nonneg hTimely.inTime)
  · intro c hc c' hc'
    have hLast := hTimely.last c hc
    have hSome : s.building.reported i ≠ [] :=
      List.ne_nil_of_mem (List.mem_of_getLast? hc)
    have hRecent := hTimely.recent hSome
    rw [hLast] at hRecent
    exact hJoin _ _ _ _ _ hTimely.inTime
      (hStamped.within c' (List.mem_of_head? hc')).2 hRecent

omit [DecidableEq ι] in
/- After the iteration the last report is still recent. -/
theorem recent_of_iterate
    {inputs : Inputs}
    {t : Loop}
    {beat : MillisecondTime}
    (hTimely : Timely C i P s)
    (hTimed : s.Timed C i (.iterate i inputs) beat)
    (hStep : Loop.Step C.info inputs
      (s.building.node i).elevator t)
    (hStamped : Loop.Stamped s.beat s.clock
      (s.building.node i).elevator.lastStateUpdate
      (s.building.node i).elevator.outState t)
    (hSome : s.building.reported i ++
      Loop.fresh (s.building.node i).elevator.outState t ≠
        []) :
    beat < t.lastStateUpdate + Loop.keepAlive + P.beat := by
  have hReads := hTimed.reads inputs rfl
  cases hStep with
  | iterate hRun =>
      have hAlive := Loop.lastStateUpdate_of_loopBody
        (fun r => (hReads r).1) hRun
      have hArith : ∀ b c g l : Int, c ≤ b + g →
          b < l + 500 → c < l + 500 + g := by
        omega
      rw [hTimed.completed inputs rfl ⟨t, hRun⟩]
      exact hArith _ _ _ _ hTimely.inTime hAlive
  | restart e u hRun hTag hEnter =>
      have hFails : ¬ Loop.Completes C.info inputs
          (s.building.node i).elevator := by
        rintro ⟨t', hOk⟩
        rw [hRun] at hOk
        cases hOk
      rw [hTimed.failed inputs rfl hFails]
      rcases last_of_stamped hStamped with
        ⟨hNone, hLast⟩ | ⟨c, hc, _, hLast⟩
      · rw [hNone, List.append_nil] at hSome
        rw [hLast]
        exact hTimely.recent hSome
      · have hArith : ∀ b l g : Int, 0 ≤ g → b ≤ l →
            b < l + 500 + g := by
          omega
        rw [hLast]
        exact hArith _ _ _ P.nonneg (hStamped.within c hc).1

/- What an iteration reports waits behind the other reports
of the node. -/
theorem waiting_iterated
    {b : Building ι}
    {inputs : Inputs}
    {t : Loop}
    {Q : CallDirection → Int → Prop}
    (hReporting : Loop.Reporting C.info (C.id i)
      (b.node i).elevator.outState Q t) :
    waiting C i (b.iterated C i inputs t) =
      waiting C i b ++
        (Loop.fresh (b.node i).elevator.outState t).map
          StateChange.state := by
  let new := Loop.fresh (b.node i).elevator.outState t
  have hOut : t.outState =
      (b.node i).elevator.outState ++ new :=
    Loop.Reporting.outState_eq hReporting
  have hNew : own (C.id i) new = new := by
    apply List.filter_eq_self.mpr
    intro c hc
    exact decide_eq_true (hReporting.own c hc)
  change ownUpdates _ (Function.update b.node i _
      i).schedOps ++
    (own _ (Function.update b.node i _
      i).elevator.outState).map _ = _
  rw [Function.update_self]
  change ownUpdates _ (b.node i).schedOps ++
    (own _ t.outState).map _ = _
  rw [hOut, own_append, hNew, List.map_append,
    ← List.append_assoc]
  rfl

omit [DecidableEq ι] in
/- A report that waits after the iteration comes soon after
the one before it: both are new, or the last report is
recent, or nothing has changed. -/
theorem soon_of_iterate
    {old rest : List StateChange}
    {c c' : StateChange}
    {t : Loop}
    (hTimely : Timely C i P s)
    (hStamped : Loop.Stamped s.beat s.clock
      (s.building.node i).elevator.lastStateUpdate
      (s.building.node i).elevator.outState t)
    (hSplit : s.building.reported i ++
      Loop.fresh (s.building.node i).elevator.outState t =
        old ++ c :: c' :: rest)
    (hWaits : (c' :: rest).map StateChange.state <:+
      waiting C i s.building ++
        (Loop.fresh (s.building.node i).elevator.outState
          t).map StateChange.state) :
    s.clock ≤ c.state.timestamp + (P.gap + P.latency) := by
  have hSpan : ∀ b c g l y : Int, 0 ≤ g → 0 ≤ l →
      c ≤ b + g → b ≤ y → c ≤ y + (500 + 2 * g + l) := by
    omega
  have hJoin : ∀ b c g l y : Int, 0 ≤ l → c ≤ b + g →
      b < y + 500 + g → c ≤ y + (500 + 2 * g + l) := by
    omega
  rcases List.append_eq_append_iff.mp hSplit with
    ⟨before, hOld, hNew⟩ | ⟨after, hReported, hRest⟩
  · -- both changes are new
    have hMem : c ∈ Loop.fresh
        (s.building.node i).elevator.outState t := by
      rw [hNew]
      exact List.mem_append_right _ List.mem_cons_self
    exact hSpan _ _ _ _ _ P.nonneg P.prompt hTimely.inTime
      (hStamped.within c hMem).1
  · cases after with
    | nil =>
        -- so are they when the new changes begin with them
        have hMem : c ∈ Loop.fresh
            (s.building.node i).elevator.outState t := by
          rw [List.nil_append] at hRest
          rw [← hRest]
          exact List.mem_cons_self
        exact hSpan _ _ _ _ _ P.nonneg P.prompt
          hTimely.inTime (hStamped.within c hMem).1
    | cons first after =>
        rw [List.cons_append, List.cons.injEq] at hRest
        rcases hRest with ⟨rfl, hRest⟩
        cases after with
        | nil =>
            -- the first change was the last one reported
            have hLast := hTimely.last c (by
              rw [hReported]
              exact List.getLast?_concat)
            have hRecent := hTimely.recent (by
              rw [hReported]
              exact List.append_ne_nil_of_right_ne_nil _
                (List.cons_ne_nil c []))
            rw [hLast] at hRecent
            exact hJoin _ _ _ _ _ P.prompt hTimely.inTime
              hRecent
        | cons second after =>
            -- both changes are old
            rw [List.cons_append, List.cons.injEq] at hRest
            rcases hRest with ⟨rfl, rfl⟩
            apply hTimely.soon old c c' after hReported
            rw [← List.cons_append, List.map_append,
              List.suffix_append_self_iff] at hWaits
            exact hWaits

/- The elevator of the node has carried out an iteration. -/
theorem timely_of_iterate
    {inputs : Inputs}
    {t : Loop}
    {beat : MillisecondTime}
    (hInv : Inv C s.building)
    (hTimely : Timely C i P s)
    (hTimed : s.Timed C i (.iterate i inputs) beat)
    (hCommand : inputs.tryDequeue =
      (s.building.node i).commands.toLocal.head?)
    (hSensed : inputs.Sensed C.info)
    (hStep : Loop.Step C.info inputs
      (s.building.node i).elevator t) :
    Timely C i P
      ⟨s.building.iterated C i inputs t, s.clock, beat⟩ := by
  have hReporting := Loop.reporting_of_step hSensed
    (caused_of_head hInv hCommand).2
    (hInv.nodes i).reporting hStep
  have hStamped := Loop.stamped_of_step
    (hTimed.reads inputs rfl) hStep
  let new :=
    Loop.fresh (s.building.node i).elevator.outState t
  have hReported :
      (s.building.iterated C i inputs t).reported i =
        s.building.reported i ++ new :=
    Function.update_self i _ s.building.reported
  have hElevator :
      ((s.building.iterated C i inputs t).node i).elevator =
        t := by
    change (Function.update s.building.node i _ i).elevator = t
    rw [Function.update_self]
  have hBeat : s.beat ≤ beat ∧ beat ≤ s.clock := by
    by_cases hCompletes : Loop.Completes C.info inputs
        (s.building.node i).elevator
    · rw [hTimed.completed inputs rfl hCompletes]
      exact ⟨hTimely.beaten, Int.le_refl _⟩
    · rw [hTimed.failed inputs rfl hCompletes]
      exact ⟨Int.le_refl _, hTimely.beaten⟩
  have hLater : ∀ b b' c g : Int, b ≤ b' → c ≤ b + g →
      c ≤ b' + g := by
    omega
  refine ⟨hBeat.2, hLater _ _ _ _ hBeat.1 hTimely.inTime,
    ?_, ?_, ?_, ?_⟩
  · rw [hReported]
    exact gaps_of_iterate hTimely hStamped
  · rw [hReported, hElevator]
    intro c hc
    rcases last_of_stamped hStamped with
      ⟨hNone, hLast⟩ | ⟨c', hMem, hNew, hLast⟩
    · change (s.building.reported i ++ Loop.fresh _ t).getLast? =
        some c at hc
      rw [hNone, List.append_nil] at hc
      rw [hLast]
      exact hTimely.last c hc
    · rw [List.getLast?_append_of_ne_nil _
        (List.ne_nil_of_mem hMem), hNew] at hc
      rw [hLast, Option.some.inj hc]
  · rw [hReported, hElevator]
    exact recent_of_iterate hTimely hTimed hStep hStamped
  · intro old c c' rest hSplit hWaits
    rw [hReported] at hSplit
    rw [waiting_iterated hReporting] at hWaits
    have hSoon :=
      soon_of_iterate hTimely hStamped hSplit hWaits
    exact hSoon

omit [DecidableEq ι] in
/- A node that has reported nothing has kept its pace, when
its heart-beat is new. -/
theorem timely_of_silent
    (hReported : s.building.reported i = [])
    (hBeat : s.beat = s.clock) :
    Timely C i P s := by
  have hLater : ∀ c g : Int, 0 ≤ g → c ≤ c + g := by
    omega
  refine ⟨Int.le_of_eq hBeat, ?_, ?_, ?_, ?_, ?_⟩
  · rw [hBeat]
    exact hLater _ _ P.nonneg
  · rw [hReported]
    exact List.IsChain.nil
  · rw [hReported]
    intro c hc
    cases hc
  · rw [hReported]
    exact fun hSome => absurd rfl hSome
  · intro old c c' rest hSplit
    rw [hReported] at hSplit
    exact absurd hSplit.symm (by simp)

/- The node has been started. -/
theorem timely_of_started
    {n : Node} :
    Timely C i P
      ⟨s.building.started i n, s.clock, s.clock⟩ := by
  apply timely_of_silent
  · change Function.update s.building.reported i [] i = []
    rw [Function.update_self]
  · rfl

------------------------------------------------------------
-- Other Steps
------------------------------------------------------------

omit [DecidableEq ι] in
/- A thread of the scheduler enters states, and leaves none
to be entered. -/
theorem ownUpdates_of_threads
    {d : BasicDriverInfo}
    {id : Int}
    {n t : Node}
    {event : Node.Event}
    (hStep : Node.Threads Node.AnyTime d id n event t) :
    ownUpdates id t.schedOps <:+
      ownUpdates id n.schedOps := by
  cases hStep with
  | schedule t op ops next now clock hOps hTime hExec =>
      have hNext : ∀ op' ∈ next, op'.updated = none :=
        fun op' hOp =>
          ((Node.executed_executeAs hExec).next op' hOp).1
      change ownUpdates id (next ++ ops) <:+ _
      rw [ownUpdates_append_of_none hNext, hOps]
      exact ((List.suffix_cons op ops).filterMap _).filter _
  | scheduleFails op ops now clock e hOps hTime hExec =>
      exact List.nil_suffix
  | pass d0 clock hCalled =>
      rw [Node.pass_eq]
      split
      · exact List.suffix_rfl
      · exact List.suffix_rfl
  | check t op ops next now clock hOps hTime hExec =>
      change ownUpdates id t.schedOps <:+ _
      rw [(Node.executed_executeAs hExec).schedOps]
  | wait d0 hIdle hDone => exact List.suffix_rfl
  | wake d0 deadline now hBlocked => exact List.suffix_rfl
  | expire d0 deadline now hBlocked => exact List.suffix_rfl
  | checkFails op ops now clock e hOps hTime hExec =>
      exact List.suffix_rfl

/- The step leaves the reports of the node, and adds nothing
to what is to be entered. -/
structure Unreported
    (C : Site ι)
    (i : ι)
    (s b : Building ι) : Prop where
  reported : b.reported i = s.reported i
  last : (b.node i).elevator.lastStateUpdate =
    (s.node i).elevator.lastStateUpdate
  waiting : waiting C i b <:+ waiting C i s

/- Another node has changed, or this one without a report. -/
theorem unreported_put
    {s : Building ι}
    {j : ι}
    {n : Node}
    (hLast : n.elevator.lastStateUpdate =
      (s.node j).elevator.lastStateUpdate)
    (hUpdates : ownUpdates (C.id j) n.schedOps <:+
      ownUpdates (C.id j) (s.node j).schedOps)
    (hOwn : own (C.id j) n.elevator.outState =
      own (C.id j) (s.node j).elevator.outState) :
    Unreported C i s (s.put j n) := by
  refine ⟨rfl, ?_, ?_⟩
  · change (Function.update s.node j n
      i).elevator.lastStateUpdate = _
    by_cases hSame : i = j
    · rw [hSame, Function.update_self]
      exact hLast
    · rw [Function.update_of_ne hSame]
  · change ownUpdates _
        (Function.update s.node j n i).schedOps ++
      (own _ (Function.update s.node j n
        i).elevator.outState).map _ <:+ _
    by_cases hSame : i = j
    · subst hSame
      rw [Function.update_self, hOwn]
      exact List.suffix_append_self_iff.mpr hUpdates
    · rw [Function.update_of_ne hSame]
      exact List.suffix_rfl

/- The scheduler takes the next change. -/
theorem unreported_dequeued
    {s : Building ι}
    {j : ι}
    {update : StateChange}
    {rest : List StateChange}
    (hIdle : (s.node j).schedOps = [])
    (hOut : (s.node j).elevator.outState = update :: rest) :
    Unreported C i s (s.dequeued C j update rest) := by
  refine ⟨rfl, ?_, ?_⟩
  · change (Function.update s.node j _
      i).elevator.lastStateUpdate = _
    by_cases hSame : i = j
    · rw [hSame, Function.update_self]
    · rw [Function.update_of_ne hSame]
  · change ownUpdates _
        (Function.update s.node j _ i).schedOps ++
      (own _ (Function.update s.node j _
        i).elevator.outState).map _ <:+ _
    by_cases hSame : i = j
    · subst hSame
      rw [Function.update_self]
      unfold waiting
      rw [hIdle, hOut, own_cons, List.map_append]
      change ownUpdates _ (schedLoop (C.id i) update) ++
        (own _ rest).map _ <:+ _
      rw [ownUpdates_schedLoop]
      by_cases hOwn : update.state.id = C.id i
      · rw [if_pos hOwn, if_pos hOwn]
        exact List.suffix_rfl
      · rw [if_neg hOwn, if_neg hOwn]
        exact List.suffix_rfl
    · rw [Function.update_of_ne hSame]
      exact List.suffix_rfl

/- Other nodes do not touch what the node has reported. -/
theorem unreported_other
    {s : Building ι}
    {j : ι}
    {n : Node}
    {reported handled : ι → List StateChange}
    {history : List StateChange}
    (hOther : i ≠ j)
    (hReported : reported i = s.reported i) :
    Unreported C i s
      { s.put j n with
        history := history
        reported := reported
        handled := handled } := by
  have hNode : Function.update s.node j n i = s.node i :=
    Function.update_of_ne hOther n s.node
  refine ⟨hReported, ?_, ?_⟩
  · change (Function.update s.node j n
      i).elevator.lastStateUpdate = _
    rw [hNode]
  · change ownUpdates _
        (Function.update s.node j n i).schedOps ++
      (own _ (Function.update s.node j n
        i).elevator.outState).map _ <:+ _
    rw [hNode]
    exact List.suffix_rfl

theorem unreported_of_acts
    [Fintype ι]
    {s b : Building ι}
    {action : Action ι}
    (hInv : Inv C s)
    (hIterate : ∀ inputs, action ≠ .iterate i inputs)
    (hStart : action ≠ .start i)
    (hActs : Acts C s action b) :
    Unreported C i s b := by
  have hSame : ∀ j,
      ownUpdates (C.id j) (s.node j).schedOps <:+
        ownUpdates (C.id j) (s.node j).schedOps :=
    fun _ => List.suffix_rfl
  cases hActs with
  | elevator j inputs t hCommand hSensed hStep =>
      have hOther : i ≠ j := by
        rintro rfl
        exact hIterate inputs rfl
      exact unreported_other hOther
        (Function.update_of_ne hOther _ _)
  | dequeue j update rest hIdle hOut =>
      exact unreported_dequeued hIdle hOut
  | threads j n hStep =>
      have hElevator := Node.elevator_of_threads hStep
      apply unreported_put
      · rw [hElevator]
      · exact ownUpdates_of_threads hStep
      · rw [hElevator]
  | sendChange j c rest hNodes hOut =>
      have hPut := unreported_put (C := C) (i := i) (s := s)
        (j := j) (n := { s.node j with
          stateUpdateOut := rest }) rfl (hSame j) rfl
      exact ⟨hPut.reported, hPut.last, hPut.waiting⟩
  | sendCommand j c rest hNodes hOut =>
      have hPut := unreported_put (C := C) (i := i) (s := s)
        (j := j) (n := { s.node j with
          commands :=
            { (s.node j).commands with toRemote := rest } })
        rfl (hSame j) rfl
      exact ⟨hPut.reported, hPut.last, hPut.waiting⟩
  | receiveChange j source datagram now hNodes hSent =>
      refine unreported_put rfl (hSame j) ?_
      have hOthers : own (C.id j)
          (QueueReceiver.stateChangesIn (C.id j) now source
            datagram).toList = [] := by
        apply List.filter_eq_nil_iff.mpr
        intro c hc
        rw [decide_eq_true_eq]
        exact (traced_stateChangesIn hInv hSent j c hc).2
      change own (C.id j)
          ((s.node j).elevator.outState ++ _) = _
      rw [own_append, hOthers, List.append_nil]
  | receiveCommand j source datagram hNodes hSent =>
      exact unreported_put rfl (hSame j) rfl
  | assist j k state hNodes hGet =>
      exact ⟨rfl, rfl, List.suffix_rfl⟩
  | recover j w state driver t hNodes hSent hRead hEnter =>
      have hOther : i ≠ j := by
        rintro rfl
        exact hStart rfl
      exact unreported_other hOther
        (Function.update_of_ne hOther _ _)
  | restart j driver t hEnter =>
      have hOther : i ≠ j := by
        rintro rfl
        exact hStart rfl
      exact unreported_other hOther
        (Function.update_of_ne hOther _ _)

/- Every step keeps the pace. -/
theorem timely_of_step
    [Fintype ι]
    (hInv : Inv C s.building)
    (hTimely : Timely C i P s)
    (hStep : Step C i P s s') :
    Timely C i P s' := by
  cases hStep with
  | tick now hLater hBeat hEntered =>
      refine { hTimely with
        beaten := Int.le_trans hTimely.beaten hLater
        inTime := hBeat
        soon := ?_ }
      intro old c c' rest hSplit hWaits
      have hArith : ∀ n y y' g l : Int, n ≤ y' + l →
          y' ≤ y + g → n ≤ y + (g + l) := by
        omega
      have hGaps := hTimely.gaps
      rw [hSplit] at hGaps
      have hGap := (List.isChain_append.mp hGaps).2.1
      rw [List.isChain_cons_cons] at hGap
      exact hArith _ _ _ _ _
        (hEntered _ (hWaits.subset List.mem_cons_self)) hGap.1
  | act action b beat hActs hTimed =>
      by_cases hIterate :
          ∃ inputs, action = .iterate i inputs
      · rcases hIterate with ⟨inputs, rfl⟩
        cases hActs with
        | elevator _ _ t hCommand hSensed hStep =>
            exact timely_of_iterate hInv hTimely hTimed
              hCommand hSensed hStep
      by_cases hStart : action = .start i
      · subst hStart
        rw [hTimed.started rfl]
        cases hActs with
        | recover _ w state driver t _ _ _ hEnter =>
            exact timely_of_started
        | restart _ driver t hEnter =>
            exact timely_of_started
      · have hNot : ∀ inputs, action ≠ .iterate i inputs :=
          fun inputs hSame => hIterate ⟨inputs, hSame⟩
        have hSame := unreported_of_acts hInv hNot hStart
          hActs
        rw [hTimed.other hNot hStart]
        exact hTimely.of_unreported hSame.reported hSame.last
          hSame.waiting

omit [DecidableEq ι] in
theorem timely_of_initial
    (hInit : Initial C s) :
    Timely C i P s :=
  timely_of_silent (hInit.building.reported i) hInit.beat

end Invariant

------------------------------------------------------------
-- Results
------------------------------------------------------------

section Results

variable [DecidableEq ι]
variable [Fintype ι]
variable {C : Site ι}
variable {i : ι}
variable {P : Pace}
variable {s : Clocked ι}

/- A run of the clocked building is one of the building. -/
theorem reachable_building
    (hReach : (system C i P).Reachable s) :
    (Building.system C).Reachable s.building := by
  apply hReach.invariant
  · exact fun s hInit =>
      TransitionSystem.Reachable.init hInit.building
  · intro s s' hBuilding hStep
    cases hStep with
    | tick now hLater hBeat hEntered => exact hBuilding
    | act action b beat hActs hTimed =>
        exact hBuilding.step ⟨action, hActs⟩

theorem timely_of_reachable
    (hReach : (system C i P).Reachable s) :
    Timely C i P s := by
  have hBoth : Inv C s.building ∧ Timely C i P s := by
    apply hReach.invariant
    · exact fun s hInit => ⟨inv_of_initial hInit.building,
        timely_of_initial hInit⟩
    · intro s s' hBoth hStep
      refine ⟨?_, timely_of_step hBoth.1 hBoth.2 hStep⟩
      cases hStep with
      | tick now hLater hBeat hEntered => exact hBoth.1
      | act action b beat hActs hTimed =>
          exact inv_of_step hBoth.1 ⟨action, hActs⟩
  exact hBoth.2

omit [DecidableEq ι] [Fintype ι] in
/- The own state the scheduler has entered last is recent. -/
theorem alive
    {done pending : List StateChange}
    {c : StateChange}
    (hTimely : Timely C i P s)
    (hOnce : OwnOnce C s.building)
    (hHandled : s.building.handled i = done ++ pending)
    (hSettled : Node.Settled (C.id i) done pending
      (s.building.node i))
    (hLast : done.getLast? = some c) :
    s.clock - c.state.timestamp ≤ deadThresh := by
  have hPace := P.inTime
  have hNow := hTimely.inTime
  let rest := pending ++
    own (C.id i) (s.building.node i).elevator.outState
  have hReported : s.building.reported i = done ++ rest := by
    rw [hOnce i, hHandled, List.append_assoc]
  cases hRest : rest with
  | nil =>
      have hArith : ∀ n b l g k d : Int, 0 ≤ g → 0 ≤ k →
          n ≤ b + g → b < l + 500 + g →
          500 + 2 * g + k ≤ d → n - l ≤ d := by
        omega
      rw [hRest, List.append_nil] at hReported
      have hSame := hTimely.last c (hReported ▸ hLast)
      have hRecent := hTimely.recent (by
        rw [hReported]
        exact List.ne_nil_of_mem (List.mem_of_getLast? hLast))
      rw [hSame] at hRecent
      exact hArith _ _ _ _ _ _ P.nonneg P.prompt hNow hRecent
        hPace
  | cons c' rest' =>
      have hArith : ∀ n l g k d : Int,
          n ≤ l + (500 + 2 * g + k) →
          500 + 2 * g + k ≤ d → n - l ≤ d := by
        omega
      have hDone :
          done = done.dropLast ++ [c] :=
        (List.dropLast_append_getLast? c hLast).symm
      have hSplit : s.building.reported i =
          done.dropLast ++ c :: c' :: rest' := by
        rw [hReported, hRest, hDone, List.append_assoc]
        simp
      have hWaits :
          (c' :: rest').map StateChange.state <:+
            waiting C i s.building := by
        unfold waiting
        rw [hSettled.updates, ← List.map_append]
        change _ <:+ rest.map StateChange.state
        rw [hRest]
      exact hArith _ _ _ _ _
        (hTimely.soon _ _ _ _ hSplit hWaits) hPace

/-
  In every run in which the loop and the scheduler of a node
  keep their pace, the operation a thread of its scheduler is
  about to carry out fails no assertion: an elevator can
  always be chosen. The wait for a deadline is no operation,
  and its own assertion is not considered.
-/
theorem operations_never_fail
    {op : Op}
    {ops : List Op}
    (hReach : (system C i P).Reachable s)
    (hOps : (s.building.node i).schedOps = op :: ops ∨
      (s.building.node i).reqOps = op :: ops)
    (clock : TimePoint) :
    ∃ t next,
      (s.building.node i).executeAs (C.id i) C.info s.clock
        clock op = .ok (t, next) := by
  have hBuilding := reachable_building hReach
  have hInv := inv_of_reachable hBuilding
  have hNode := hInv.nodes i
  have hOp : OpAccounted C s.building.history op := by
    rcases hOps with hSched | hReq
    · exact hNode.sched op (hSched ▸ List.mem_cons_self)
    · exact hNode.req op (hReq ▸ List.mem_cons_self)
  have hOnce := ownOnce_of_reachable hBuilding
  rcases settles_of_reachable hBuilding i with
    ⟨done, pending, hHandled, hSettled⟩
  have hChoose : ∀ type floor, op.Works →
      C.info.InRange floor → ∃ minId,
        optimalElevator C.info s.clock type floor
          (s.building.node i).globalState.elevators =
            .ok minId := by
    intro type floor hWorks hf
    have hSome := hSettled.done_ne_nil hWorks hOps
    have hLast := List.getLast?_eq_some_getLast hSome
    have hKnown := hSettled.known _ hLast
    have hAlive := alive (timely_of_reachable hReach) hOnce
      hHandled hSettled hLast
    have hState : ∀ e ∈
        (s.building.node i).globalState.elevators,
        e.Accounted C.info (Asked s.building.history) :=
      fun e he => (hNode.known e he).accounted hInv.history
    rcases @optimalElevator_min C.info _ type floor _ _
      hKnown hAlive
      (distance_lt_intMax C.shaft.span hf
        (hState _ hKnown).lastFloor)
      (fun e he => (hState e he).nonneg) with
      ⟨e, _, _, hBest, _⟩
    exact ⟨e.id, hBest⟩
  cases op with
  | update state => exact ⟨_, _, rfl⟩
  | propagate update => exact ⟨_, _, rfl⟩
  | forward comm => exact ⟨_, _, rfl⟩
  | optimalElevator type floor =>
      rcases hChoose type floor trivial hOp.1 with
        ⟨minId, hBest⟩
      exact ⟨s.building.node i, _,
        Node.executeAs_choose hBest⟩
  | resend r => exact ⟨_, _, rfl⟩
  | reschedule r =>
      rcases hChoose (requestButton r) r.command.targetFloor
        trivial (CommandAccounted.inRange hOp) with
        ⟨minId, hBest⟩
      exact ⟨s.building.node i, _,
        Node.executeAs_reschedule hBest⟩
  | push r => exact ⟨_, _, rfl⟩
  | ackRequest change newDeadlineDelta => exact ⟨_, _, rfl⟩

/- No time passes as long as neither the elevator of the node
carries out an iteration nor the node starts. -/
theorem reachable_of_path
    {b b' : Building ι}
    {actions : List (Action ι)}
    {clock beat : MillisecondTime}
    (hPath : Path C b actions b')
    (hOther : ∀ action ∈ actions,
      (∀ inputs, action ≠ .iterate i inputs) ∧
        action ≠ .start i)
    (hReach : (system C i P).Reachable ⟨b, clock, beat⟩) :
    (system C i P).Reachable ⟨b', clock, beat⟩ := by
  induction hPath with
  | refl => exact hReach
  | @tail actions action t u hPath hActs ih =>
      have hBefore := ih fun action hMem =>
        hOther action (List.mem_append_left _ hMem)
      rcases hOther action (List.mem_append_right _
        (List.mem_singleton_self action)) with
        ⟨hNot, hStart⟩
      refine hBefore.step (Step.act _ action _ beat hActs ?_)
      exact
        { reads := fun inputs hSame =>
            absurd hSame (hNot inputs)
          completed := fun inputs hSame =>
            absurd hSame (hNot inputs)
          failed := fun inputs hSame =>
            absurd hSame (hNot inputs)
          started := fun hSame => absurd hSame hStart
          other := fun _ _ => rfl }

/- A loop that is never late, and a scheduler that takes at
most 0.8 s. -/
def steady : Pace where
  beat := 100
  latency := 800
  nonneg := by decide
  prompt := by decide
  inTime := by decide

/- The scheduler can choose an elevator for the press. -/
theorem operations_never_fail_press :
    ∃ s : Clocked (Fin 2),
      (system twoElevators 0 steady).Reachable s ∧
      (s.building.node 0).schedOps =
        [.optimalElevator .callDown 1] ∧
      ∃ t next,
        (s.building.node 0).executeAs 0 twoElevators.info
          s.clock 0 (.optimalElevator .callDown 1) =
            .ok (t, next) := by
  rcases acts_press with
    ⟨s₀, s, st, hInit, hActs, hCompletes, hOut, hId, hIdle,
      _⟩
  rcases acts_lights hOut hId hIdle with
    ⟨s₁, s', hTaken, -, hSteps, -, -, hOps⟩
  have hStart :
      (system twoElevators 0 steady).Reachable ⟨s₀, 0, 0⟩ :=
    TransitionSystem.Reachable.init ⟨hInit, rfl⟩
  have hTimed : Timed twoElevators 0 ⟨s₀, 0, 0⟩
      (.iterate 0 Node.firstPress) 0 := by
    refine ⟨?_, fun _ _ _ => rfl, fun _ _ _ => rfl,
      fun _ => rfl, fun _ _ => rfl⟩
    intro inputs hSame r
    cases hSame
    exact ⟨Int.le_refl _, Int.le_refl _⟩
  have hPressed := hStart.step (Step.act _ _ s 0 hActs hTimed)
  have hReach :
      (system twoElevators 0 steady).Reachable ⟨s', 0, 0⟩ := by
    have hDequeued : (system twoElevators 0 steady).Reachable
        ⟨s₁, 0, 0⟩ := by
      refine reachable_of_path (Building.Path.refl.tail hTaken) ?_
        hPressed
      intro action hMem
      rw [List.mem_singleton.mp hMem]
      constructor
      · intro inputs hSame
        cases hSame
      · intro hSame
        cases hSame
    refine reachable_of_path hSteps ?_ hDequeued
    intro action hMem
    simp only [List.mem_cons, List.not_mem_nil,
      or_false] at hMem
    rcases hMem with rfl | rfl | rfl
    all_goals
      constructor
      · intro inputs hSame
        cases hSame
      · intro hSame
        cases hSame
  exact ⟨⟨s', 0, 0⟩, hReach, hOps,
    operations_never_fail hReach (Or.inl hOps) 0⟩

end Results

end Clocked

end ElevatorControl
