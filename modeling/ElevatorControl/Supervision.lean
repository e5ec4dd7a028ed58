import Mathlib.Order.Defs.LinearOrder
import ElevatorControl.Library.TransitionSystem

/-
  The process that starts the elevator again when it dies.

  The parent forks a child that runs the elevator, and waits
  for a signal. The handler of its signals stops the motor.
  When the wait returns, the parent forks the next child. The
  operating system keeps at most one pending signal of the
  death or the stop of a child, and the handler may run
  between the fork and the wait.

  Key definitions include:
    * `Supervisor`
    * `Supervisor.Step`
    * `Supervisor.Deserted`

  Key theorems include:
    * `Supervisor.inv_of_step`
    * `Supervisor.deserted_of_step`
    * `Supervisor.exists_run_of_busy`
    * `Supervisor.supervised`
    * `Supervisor.deserted_iff`
-/

------------------------------------------------------------
-- Processes
------------------------------------------------------------

namespace ElevatorControl

/- Where the parent is: in `initRecovery` before the fork,
behind it, or in the `pause` of `watchChild`. -/
inductive ParentPhase where
  | starting
  | started
  | pausing
  | exited
  deriving DecidableEq, Repr

/-
  `children` counts the children that live, and `pending`
  says whether a `SIGCHLD` waits for the parent. `motor` says
  whether the motor runs.

  `stops` counts how often a child has been stopped or
  continued, and `missed` records that the death of the last
  child was handled before the parent waited.
-/
structure Supervisor where
  parent : ParentPhase
  children : Nat
  pending : Bool
  motor : Bool
  stops : Nat
  missed : Bool
  deriving DecidableEq, Repr

namespace Supervisor

/- The handler of `SIGCHLD` stops the elevator. It ends the
wait, after which `initRecovery` is called. -/
def handle
    (s : Supervisor) : Supervisor where
  parent :=
    if s.parent = .pausing then .starting else s.parent
  children := s.children
  pending := false
  motor := false
  stops := s.stops
  missed := s.missed ||
    decide (s.parent = .started ∧ s.children = 0)

/- The steps of the parent, its children and the operating
system. A child that dies leaves the motor as it is, unless
its own handler or its driver stops it. -/
inductive Step :
    Supervisor → Supervisor → Prop where
  | fork
      (s : Supervisor)
      (hParent : s.parent = .starting) :
      Step s { s with
        parent := .started
        children := s.children + 1 }
  | forkFails
      (s : Supervisor)
      (hParent : s.parent = .starting) :
      Step s { s with parent := .exited }
  | pause
      (s : Supervisor)
      (hParent : s.parent = .started) :
      Step s { s with parent := .pausing }
  | handle
      (s : Supervisor)
      (hParent : s.parent ≠ .exited)
      (hPending : s.pending = true) :
      Step s s.handle
  | interrupt
      (s : Supervisor)
      (hParent : s.parent ≠ .exited) :
      Step s { s with parent := .exited, motor := false }
  | drive
      (s : Supervisor)
      (motor : Bool)
      (hChild : 0 < s.children) :
      Step s { s with motor := motor }
  | die
      (s : Supervisor)
      (motor : Bool)
      (hChild : 0 < s.children)
      (hMotor : motor = true → s.motor = true) :
      Step s { s with
        children := s.children - 1
        pending := true
        motor := motor }
  | stop
      (s : Supervisor)
      (hChild : 0 < s.children) :
      Step s { s with
        pending := true
        stops := s.stops + 1 }

/- The program has been started. -/
def initial : Supervisor where
  parent := .starting
  children := 0
  pending := false
  motor := false
  stops := 0
  missed := false

/- The parent from its start. -/
def system : TransitionSystem Supervisor where
  Init s := s = initial
  Step := Step

------------------------------------------------------------
-- Supervision
------------------------------------------------------------

/- No child lives, and nothing will make the parent fork
another one. -/
def Deserted
    (s : Supervisor) : Prop :=
  s.children = 0 ∧ s.pending = false ∧
    (s.parent = .started ∨ s.parent = .pausing)

instance
    (s : Supervisor) : Decidable s.Deserted := by
  unfold Deserted
  infer_instance

/- How many signals of the parent's children may still end
its wait, or have done so. -/
def due
    (s : Supervisor) : Nat :=
  s.children + (if s.pending then 1 else 0) +
    (if s.parent = .starting then 1 else 0)

/- Children and signals are few, a running motor is watched,
and a signal has been missed just when nobody is left. -/
structure Inv
    (s : Supervisor) : Prop where
  few : s.due ≤ s.stops + 1
  motor : s.motor = true →
    0 < s.children ∨ s.pending = true ∨ s.parent = .exited
  deserted : s.parent ≠ .exited →
    (s.missed = true ↔ s.Deserted)

theorem inv_initial :
    Inv initial := by
  refine ⟨?_, ?_, ?_⟩
  · decide
  · decide
  · decide

section Steps

variable {s s' : Supervisor}

/- A parent that lives is deserted, or a child, a signal or
the parent itself brings the next child. -/
theorem not_deserted_iff
    (hParent : s.parent ≠ .exited) :
    ¬ s.Deserted ↔
      0 < s.children ∨ s.pending = true ∨
        s.parent = .starting := by
  unfold Deserted
  constructor
  · intro hKept
    by_cases hNone : s.children = 0
    · right
      by_cases hPending : s.pending = true
      · exact Or.inl hPending
      · right
        cases hPhase : s.parent with
        | starting => rfl
        | started =>
            exact absurd ⟨hNone, Bool.eq_false_iff.mpr hPending,
              Or.inl hPhase⟩ hKept
        | pausing =>
            exact absurd ⟨hNone, Bool.eq_false_iff.mpr hPending,
              Or.inr hPhase⟩ hKept
        | exited => exact absurd hPhase hParent
    · exact Or.inl (Nat.pos_of_ne_zero hNone)
  · rintro hBusy ⟨hNone, hQuiet, hPhase⟩
    rcases hBusy with hChild | hSignal | hStarting
    · omega
    · rw [hQuiet] at hSignal
      cases hSignal
    · rw [hStarting] at hPhase
      rcases hPhase with hOther | hOther
      · cases hOther
      · cases hOther

/- A step moves what is due, and only a child that is stopped
or continued adds to it. -/
theorem due_of_step
    (hStep : Step s s') :
    s'.due + s.stops ≤ s.due + s'.stops := by
  unfold due
  cases hStep with
  | fork hStarting =>
      have hMoved : ParentPhase.started ≠ .starting :=
        ParentPhase.noConfusion
      rw [if_pos hStarting]
      dsimp only
      rw [if_neg hMoved]
      omega
  | forkFails hStarting => simp [hStarting]
  | pause hStarted => simp [hStarted]
  | handle hAlive hPending =>
      unfold handle
      by_cases hPausing : s.parent = .pausing
      · simp [hPausing, hPending]
      · simp [hPausing, hPending]
  | interrupt hAlive =>
      simp
  | drive motor hChild => simp
  | die motor hChild hMotor =>
      simp only [if_true]
      split <;> split <;> omega
  | stop hChild =>
      simp only [if_true]
      split <;> split <;> omega

/- A parent that is deserted stays so until somebody ends
it. -/
theorem deserted_of_step
    (hDeserted : s.Deserted)
    (hStep : Step s s') :
    s'.Deserted ∨
      (s'.parent = .exited ∧ s'.children = 0) := by
  rcases hDeserted with ⟨hNone, hQuiet, hPhase⟩
  have hIdle : s.parent ≠ .starting := by
    rcases hPhase with hStarted | hPausing
    · rw [hStarted]
      exact ParentPhase.noConfusion
    · rw [hPausing]
      exact ParentPhase.noConfusion
  cases hStep with
  | fork hStarting => exact absurd hStarting hIdle
  | forkFails hStarting => exact absurd hStarting hIdle
  | pause hStarted =>
      exact Or.inl ⟨hNone, hQuiet, Or.inr rfl⟩
  | handle hAlive hPending =>
      rw [hQuiet] at hPending
      cases hPending
  | interrupt hAlive => exact Or.inr ⟨rfl, hNone⟩
  | drive motor hChild => omega
  | die motor hChild hMotor => omega
  | stop hChild => omega

/- A step deserts a parent exactly when the handler runs
before the wait and no child is left. -/
theorem missed_of_step
    (hKept : ¬ s.Deserted)
    (hMissed : s.missed = false)
    (hStep : Step s s')
    (hParent : s'.parent ≠ .exited) :
    s'.missed = true ↔ s'.Deserted := by
  unfold Deserted at hKept ⊢
  cases hStep with
  | fork hStarting => simp [hMissed]
  | forkFails hStarting => exact absurd rfl hParent
  | pause hStarted =>
      have hBusy : ¬ (s.children = 0 ∧ s.pending = false) := by
        rintro ⟨hNone, hQuiet⟩
        exact hKept ⟨hNone, hQuiet, Or.inl hStarted⟩
      simp only [hMissed]
      constructor
      · intro hFalse
        cases hFalse
      · rintro ⟨hNone, hQuiet, _⟩
        exact absurd ⟨hNone, hQuiet⟩ hBusy
  | handle hAlive hPending =>
      unfold handle
      simp only [hMissed, Bool.false_or, decide_eq_true_eq]
      constructor
      · rintro ⟨hStarted, hNone⟩
        refine ⟨hNone, trivial, Or.inl ?_⟩
        rw [hStarted]
        rfl
      · rintro ⟨hNone, _, hPhase⟩
        refine ⟨?_, hNone⟩
        cases hOld : s.parent with
        | starting => simp [hOld] at hPhase
        | started => rfl
        | pausing => simp [hOld] at hPhase
        | exited => exact absurd hOld hAlive
  | interrupt hAlive => exact absurd rfl hParent
  | drive motor hChild =>
      simp only [hMissed]
      constructor
      · intro hFalse
        cases hFalse
      · rintro ⟨hNone, _⟩
        omega
  | die motor hChild hMotor => simp [hMissed]
  | stop hChild => simp [hMissed]

/- A parent that has been ended does nothing. -/
theorem alive_of_step
    (hStep : Step s s')
    (hParent : s'.parent ≠ .exited) :
    s.parent ≠ .exited := by
  intro hGone
  apply hParent
  cases hStep with
  | fork hStarting =>
      rw [hGone] at hStarting
      cases hStarting
  | forkFails hStarting => rfl
  | pause hStarted =>
      rw [hGone] at hStarted
      cases hStarted
  | handle hAlive hPending => exact absurd hGone hAlive
  | interrupt hAlive => rfl
  | drive motor hChild => exact hGone
  | die motor hChild hMotor => exact hGone
  | stop hChild => exact hGone

theorem inv_of_step
    (hInv : Inv s)
    (hStep : Step s s') :
    Inv s' := by
  have hAlive := alive_of_step hStep
  refine ⟨?_, ?_, ?_⟩
  · have hOld := hInv.few
    have hMoved := due_of_step hStep
    omega
  · intro hMotor
    cases hStep with
    | fork hStarting => exact Or.inl (Nat.succ_pos _)
    | forkFails hStarting => exact Or.inr (Or.inr rfl)
    | pause hStarted =>
        rcases hInv.motor hMotor with hChild | hSignal | hGone
        · exact Or.inl hChild
        · exact Or.inr (Or.inl hSignal)
        · rw [hStarted] at hGone
          cases hGone
    | handle hAlive hPending => cases hMotor
    | interrupt hAlive => cases hMotor
    | drive motor hChild => exact Or.inl hChild
    | die motor hChild hOff => exact Or.inr (Or.inl rfl)
    | stop hChild => exact Or.inl hChild
  · intro hLives
    have hOld := hInv.deserted (hAlive hLives)
    by_cases hDeserted : s.Deserted
    · rcases deserted_of_step hDeserted hStep with
        hStays | ⟨hGone, _⟩
      · refine iff_of_true ?_ hStays
        have hMissed := hOld.mpr hDeserted
        cases hStep with
        | handle hAlive hPending =>
            unfold handle
            rw [hMissed]
            rfl
        | _ => exact hMissed
      · exact absurd hGone hLives
    · have hMissed : s.missed = false := by
        rw [Bool.eq_false_iff]
        exact fun hTrue => hDeserted (hOld.mp hTrue)
      exact missed_of_step hDeserted hMissed hStep hLives

theorem inv_of_reachable
    (hReach : system.Reachable s) :
    Inv s := by
  apply hReach.invariant
  · rintro _ rfl
    exact inv_initial
  · exact fun _ _ => inv_of_step

/-
  In every run there are at most as many children as signals
  that stopped or continued one, and one more. The motor runs
  only while a child lives, its death is to be handled, or
  the parent has been ended.
-/
theorem supervised
    (hReach : system.Reachable s) :
    s.children ≤ s.stops + 1 ∧
      (s.motor = true →
        0 < s.children ∨ s.pending = true ∨
          s.parent = .exited) := by
  have hInv := inv_of_reachable hReach
  have hFew := hInv.few
  refine ⟨?_, hInv.motor⟩
  unfold due at hFew
  omega

/- The first child has died with the motor running. -/
def orphaned : Supervisor where
  parent := .started
  children := 0
  pending := true
  motor := true
  stops := 0
  missed := false

theorem reachable_orphaned :
    system.Reachable orphaned := by
  have hInit : system.Reachable initial :=
    TransitionSystem.Reachable.init rfl
  have hForked := hInit.step (Step.fork initial rfl)
  have hDriven := hForked.step
    (Step.drive _ true (by decide))
  exact hDriven.step (Step.die _ true (by decide) id)

/- Its death is to be handled. -/
theorem supervised_orphaned :
    orphaned.children ≤ orphaned.stops + 1 ∧
      (orphaned.motor = true →
        0 < orphaned.children ∨ orphaned.pending = true ∨
          orphaned.parent = .exited) :=
  supervised reachable_orphaned

/- A deserted parent stays without a child, also when
somebody ends it. -/
theorem children_of_deserted
    {t : Supervisor}
    (hDeserted : s.Deserted)
    (hRun : Relation.ReflTransGen Step s t) :
    t.children = 0 := by
  have hEnd : t.Deserted ∨
      (t.parent = .exited ∧ t.children = 0) := by
    induction hRun with
    | refl => exact Or.inl hDeserted
    | tail _ hStep ih =>
        rcases ih with hStays | ⟨hGone, hNone⟩
        · exact deserted_of_step hStays hStep
        · right
          cases hStep with
          | fork hStarting =>
              rw [hGone] at hStarting
              cases hStarting
          | forkFails hStarting => exact ⟨rfl, hNone⟩
          | pause hStarted =>
              rw [hGone] at hStarted
              cases hStarted
          | handle hAlive hPending =>
              exact absurd hGone hAlive
          | interrupt hAlive => exact ⟨rfl, hNone⟩
          | drive motor hChild => omega
          | die motor hChild hMotor => omega
          | stop hChild => omega
  rcases hEnd with hStays | ⟨_, hNone⟩
  · exact hStays.1
  · exact hNone

/- A parent that waits is started again by a signal, and
forks. -/
theorem run_of_pausing
    (hPhase : s.parent = .pausing)
    (hPending : s.pending = true) :
    ∃ t, Relation.ReflTransGen Step s t ∧
      0 < t.children := by
  have hAlive : s.parent ≠ .exited := by
    rw [hPhase]
    exact ParentPhase.noConfusion
  have hStarting : s.handle.parent = .starting :=
    if_pos hPhase
  have hHandled := Relation.ReflTransGen.single
    (Step.handle s hAlive hPending)
  exact ⟨_, hHandled.tail (Step.fork _ hStarting),
    Nat.succ_pos _⟩

/- Where a child, a signal or the parent itself is to bring
the next child, some run leads to it. -/
theorem exists_run_of_busy
    (hParent : s.parent ≠ .exited)
    (hBusy : 0 < s.children ∨ s.pending = true ∨
      s.parent = .starting) :
    ∃ t, Relation.ReflTransGen Step s t ∧
      0 < t.children := by
  rcases hBusy with hChild | hPending | hStarting
  · exact ⟨s, Relation.ReflTransGen.refl, hChild⟩
  · cases hPhase : s.parent with
    | starting =>
        exact ⟨_, .single (Step.fork s hPhase),
          Nat.succ_pos _⟩
    | started =>
        -- the parent may reach its wait before the handler
        rcases run_of_pausing (s := { s with
          parent := .pausing }) rfl hPending with
          ⟨t, hRun, hChild⟩
        exact ⟨t, .head (Step.pause s hPhase) hRun, hChild⟩
    | pausing => exact run_of_pausing hPhase hPending
    | exited => exact absurd hPhase hParent
  · exact ⟨_, .single (Step.fork s hStarting),
      Nat.succ_pos _⟩

/-
  In every run a parent that lives has a child, a signal or
  its own fork ahead of it, and some way on leads to a child,
  exactly when it has not handled the death of the last one
  between the fork and the wait. Otherwise no child is ever
  started again.
-/
theorem deserted_iff
    (hReach : system.Reachable s)
    (hParent : s.parent ≠ .exited) :
    (s.missed = false ↔
        0 < s.children ∨ s.pending = true ∨
          s.parent = .starting) ∧
      (s.missed = false ↔ ∃ t,
        Relation.ReflTransGen Step s t ∧ 0 < t.children) ∧
      (s.missed = true → ∀ t,
        Relation.ReflTransGen Step s t → t.children = 0) := by
  have hMissed := (inv_of_reachable hReach).deserted hParent
  have hBusy : s.missed = false ↔
      0 < s.children ∨ s.pending = true ∨
        s.parent = .starting := by
    rw [← Bool.not_eq_true, hMissed]
    exact not_deserted_iff hParent
  have hNever : s.missed = true → ∀ t,
      Relation.ReflTransGen Step s t → t.children = 0 :=
    fun hTrue _ hRun =>
      children_of_deserted (hMissed.mp hTrue) hRun
  refine ⟨hBusy, ?_, hNever⟩
  constructor
  · intro hKept
    exact exists_run_of_busy hParent (hBusy.mp hKept)
  · rintro ⟨t, hRun, hChild⟩
    by_contra hLost
    have hNone := hNever (Bool.not_eq_false _ ▸ hLost) t hRun
    omega

/- The death is handled before the parent waits. -/
theorem deserted_iff_orphaned :
    orphaned.handle.missed = true ∧
      ∀ t, Relation.ReflTransGen Step orphaned.handle t →
        t.children = 0 := by
  have hHandled := reachable_orphaned.step
    (Step.handle orphaned ParentPhase.noConfusion rfl)
  have hMissed : orphaned.handle.missed = true := rfl
  exact ⟨hMissed, (deserted_iff hHandled
    ParentPhase.noConfusion).2.2 hMissed⟩

end Steps

end Supervisor

end ElevatorControl
