import Mathlib.Algebra.Ring.Int.Defs
import Mathlib.Tactic.FinCases
import ElevatorControl.Exercises.Transaction

/-
  Exercise 8: workers that commit or recover forward
  together.

  Every round of a worker is an asynchronous select. Its
  triggering call waits in `Wait_Until_Aborted` while the
  abortable part works and then waits in `Finished`. When the
  triggering call has been served, the abortable part is
  aborted at some later moment, and the worker recovers.

  `Signal_Abort` reaches only the workers whose triggering
  calls wait. The workers agree as long as these are always
  all workers, in the round of the caller.

  Key definitions include:
    * `Exercise8.managerType`
    * `Exercise8.Step`
    * `Exercise8.Reaches`
    * `Exercise8.Agreement`

  Key theorems include:
    * `Exercise8.Transaction.inv_of_step`
    * `Exercise8.Transaction.sameRounds`
-/

------------------------------------------------------------
-- Manager
------------------------------------------------------------

namespace ElevatorControl

namespace Exercise8

/- The components of `Transaction_Manager`. -/
structure Manager where
  finishedGateOpen : Bool
  aborted : Bool
  deriving DecidableEq

/- The entries of `Transaction_Manager`. -/
inductive Entry where
  | finished
  | waitUntilAborted
  deriving DecidableEq

/- The body of `Finished`, when `count` calls still wait. -/
def finishedBody
    (N count : Nat)
    (m : Manager) : Manager :=
  let m :=
    if count = N - 1 then
      { m with finishedGateOpen := true }
    else m
  if count = 0 then { m with finishedGateOpen := false }
  else m

/- The body of `Wait_Until_Aborted`. -/
def waitUntilAbortedBody
    (count : Nat)
    (m : Manager) : Manager :=
  if count = 0 then { m with aborted := false } else m

/- The protected type for `N` workers. -/
def managerType
    (N : Nat) : ProtectedType Entry Manager where
  barrier m count
    | .finished =>
        m.finishedGateOpen || decide (count .finished = N)
    | .waitUntilAborted => m.aborted
  body m count
    | .finished => finishedBody N (count .finished) m
    | .waitUntilAborted =>
        waitUntilAbortedBody (count .waitUntilAborted) m

------------------------------------------------------------
-- Workers
------------------------------------------------------------

/- The triggering call waits, or has been executed. -/
inductive Trigger where
  | waiting
  | completed
  deriving DecidableEq

/-
  Where the abortable part is: in `Unreliable_Slow_Add`,
  before the call of `Finished`, waiting in it, behind it,
  before the call of `Signal_Abort`, or behind this one.
-/
inductive Part where
  | adding
  | added
  | waiting
  | finished
  | failed
  | signalled
  deriving DecidableEq

/- How a round has ended. -/
inductive Outcome where
  | committed
  | recovered
  | neither
  deriving DecidableEq

/- What a round adds to `Num`. -/
def Outcome.gain : Outcome → Int
  | .committed => 10
  | .recovered => 5
  | .neither => 0

/-
  Where a worker is in its loop: before the next round, in
  the select, in the statements after the triggering call, or
  behind the select. An exception that is not handled
  terminates the worker.
-/
inductive Position where
  | starting
  | selecting (trigger : Trigger) (part : Part)
  | recovering
  | ended (outcome : Outcome)
  | terminated
  deriving DecidableEq

/- The variables of a worker, and how its rounds have ended,
in order. -/
structure Worker where
  initial : Int
  num : Int
  prev : Int
  roundNum : Int
  position : Position
  outcomes : List Outcome

/- A worker that has just been started. -/
def Worker.start
    (initial : Int) : Worker where
  initial := initial
  num := initial
  prev := initial
  roundNum := 0
  position := .starting
  outcomes := []

/- The outcome of an abortable part that is not aborted. -/
def Part.outcome : Part → Outcome
  | .finished => .committed
  | _ => .neither

/- The workers and their manager. `signals` holds for every
call of `Signal_Abort` the caller and its round. -/
structure Transaction (ι : Type) where
  worker : ι → Worker
  manager : ProtectedObject ι Entry Manager
  signals : List (ι × Nat)

namespace Transaction

variable {ι : Type} [DecidableEq ι] [Fintype ι]

/- The worker `i` becomes `w`. -/
def put
    (s : Transaction ι)
    (i : ι)
    (w : Worker) : Transaction ι :=
  { s with worker := Function.update s.worker i w }

/- No waiting call is about to be served. -/
def Quiet
    (s : Transaction ι) : Prop :=
  s.manager.Quiet (managerType (Fintype.card ι))

/-
  One step of a worker, or of the manager, which serves a
  call that waits.

  An aborted part may go on until its next call of an entry;
  if it waits in `Finished`, its call is cancelled. When the
  abortable part completes first, the triggering call is
  cancelled.
-/
inductive Step :
    Transaction ι → Transaction ι → Prop where
  | trigger
      (s : Transaction ι)
      (i : ι)
      (hQuiet : s.Quiet)
      (hAt : (s.worker i).position = .starting)
      (hRound : (s.worker i).roundNum + 1 ≤ integerLast)
      (hOpen : s.manager.Admits
        (managerType (Fintype.card ι)) .waitUntilAborted) :
      Step s
        { s.put i
            { s.worker i with
              roundNum := (s.worker i).roundNum + 1
              position := .recovering } with
          manager := s.manager.execute
            (managerType (Fintype.card ι))
              .waitUntilAborted }
  | select
      (s : Transaction ι)
      (i : ι)
      (hQuiet : s.Quiet)
      (hAt : (s.worker i).position = .starting)
      (hRound : (s.worker i).roundNum + 1 ≤ integerLast)
      (hClosed : ¬ s.manager.Admits
        (managerType (Fintype.card ι)) .waitUntilAborted) :
      Step s
        { s.put i
            { s.worker i with
              roundNum := (s.worker i).roundNum + 1
              position := .selecting .waiting .adding } with
          manager :=
            s.manager.enqueue .waitUntilAborted i }
  | startFails
      (s : Transaction ι)
      (i : ι)
      (hAt : (s.worker i).position = .starting)
      (hRound : integerLast < (s.worker i).roundNum + 1) :
      Step s
        (s.put i { s.worker i with position := .terminated })
  | add
      (s : Transaction ι)
      (i : ι)
      (trigger : Trigger)
      (sum : Int)
      (hAt : (s.worker i).position =
        .selecting trigger .adding)
      (hSum : slowAdd (s.worker i).num = some sum) :
      Step s
        (s.put i
          { s.worker i with
            num := sum
            position := .selecting trigger .added })
  | addFails
      (s : Transaction ι)
      (i : ι)
      (hQuiet : s.Quiet)
      (hAt : (s.worker i).position =
        .selecting .waiting .adding)
      (hSum : slowAdd (s.worker i).num = none) :
      Step s
        { s.put i
            { s.worker i with position := .terminated } with
          manager := s.manager.cancel .waitUntilAborted i }
  | countFailed
      (s : Transaction ι)
      (i : ι)
      (trigger : Trigger)
      (hAt : (s.worker i).position =
        .selecting trigger .adding) :
      Step s
        (s.put i
          { s.worker i with
            position := .selecting trigger .failed })
  | signalAbort
      (s : Transaction ι)
      (i : ι)
      (trigger : Trigger)
      (hQuiet : s.Quiet)
      (hAt : (s.worker i).position =
        .selecting trigger .failed) :
      Step s
        { s.put i
            { s.worker i with
              position := .selecting trigger .signalled } with
          manager :=
            { s.manager with
              data :=
                { s.manager.data with aborted := true } }
          signals :=
            s.signals ++
              [(i, (s.worker i).outcomes.length)] }
  | admitFinished
      (s : Transaction ι)
      (i : ι)
      (hQuiet : s.Quiet)
      (hAt : (s.worker i).position =
        .selecting .waiting .added)
      (hOpen : s.manager.Admits
        (managerType (Fintype.card ι)) .finished) :
      Step s
        { s.put i
            { s.worker i with
              position := .selecting .waiting .finished } with
          manager := s.manager.execute
            (managerType (Fintype.card ι)) .finished }
  | callFinished
      (s : Transaction ι)
      (i : ι)
      (hQuiet : s.Quiet)
      (hAt : (s.worker i).position =
        .selecting .waiting .added)
      (hClosed : ¬ s.manager.Admits
        (managerType (Fintype.card ι)) .finished) :
      Step s
        { s.put i
            { s.worker i with
              position := .selecting .waiting .waiting } with
          manager := s.manager.enqueue .finished i }
  | serveFinished
      (s : Transaction ι)
      (i : ι)
      (rest : List ι)
      (trigger : Trigger)
      (hQueue : s.manager.queue .finished = i :: rest)
      (hOpen : s.manager.Open
        (managerType (Fintype.card ι)) .finished)
      (hAt : (s.worker i).position =
        .selecting trigger .waiting) :
      Step s
        { s.put i
            { s.worker i with
              position := .selecting trigger .finished } with
          manager := s.manager.serve
            (managerType (Fintype.card ι)) .finished }
  | serveWaitUntilAborted
      (s : Transaction ι)
      (i : ι)
      (rest : List ι)
      (part : Part)
      (hQueue :
        s.manager.queue .waitUntilAborted = i :: rest)
      (hOpen : s.manager.Open
        (managerType (Fintype.card ι)) .waitUntilAborted)
      (hAt : (s.worker i).position =
        .selecting .waiting part) :
      Step s
        { s.put i
            { s.worker i with
              position := .selecting .completed part } with
          manager := s.manager.serve
            (managerType (Fintype.card ι))
              .waitUntilAborted }
  | abort
      (s : Transaction ι)
      (i : ι)
      (part : Part)
      (hAt : (s.worker i).position =
        .selecting .completed part)
      (hPart : part ≠ .waiting) :
      Step s
        (s.put i { s.worker i with position := .recovering })
  | abortWaiting
      (s : Transaction ι)
      (i : ι)
      (hQuiet : s.Quiet)
      (hAt : (s.worker i).position =
        .selecting .completed .waiting) :
      Step s
        { s.put i
            { s.worker i with position := .recovering } with
          manager := s.manager.cancel .finished i }
  | complete
      (s : Transaction ι)
      (i : ι)
      (part : Part)
      (hQuiet : s.Quiet)
      (hAt : (s.worker i).position =
        .selecting .waiting part)
      (hPart : part = .finished ∨ part = .signalled) :
      Step s
        { s.put i
            { s.worker i with
              position := .ended part.outcome } with
          manager := s.manager.cancel .waitUntilAborted i }
  | recover
      (s : Transaction ι)
      (i : ι)
      (hAt : (s.worker i).position = .recovering)
      (hSum : (s.worker i).prev + 5 ≤ integerLast) :
      Step s
        (s.put i
          { s.worker i with
            num := (s.worker i).prev + 5
            position := .ended .recovered })
  | recoverFails
      (s : Transaction ι)
      (i : ι)
      (hAt : (s.worker i).position = .recovering)
      (hSum : integerLast < (s.worker i).prev + 5) :
      Step s
        (s.put i { s.worker i with position := .terminated })
  | finish
      (s : Transaction ι)
      (i : ι)
      (outcome : Outcome)
      (hAt : (s.worker i).position = .ended outcome) :
      Step s
        (s.put i
          { s.worker i with
            prev := (s.worker i).num
            position := .starting
            outcomes := (s.worker i).outcomes ++ [outcome] })

/- No worker has started its first round. -/
def start
    (initial : ι → Int) : Transaction ι where
  worker i := .start (initial i)
  manager :=
    { data :=
        { finishedGateOpen := false
          aborted := false }
      queue := fun _ => [] }
  signals := []

/- The workers start with any values. -/
def system
    (ι : Type)
    [DecidableEq ι]
    [Fintype ι] : TransitionSystem (Transaction ι) where
  Init s := ∃ initial, s = start initial
  Step := Step

------------------------------------------------------------
-- Agreement
------------------------------------------------------------

/-
  Every round has ended in the same way for all workers that
  have completed it, and has added 10 to `Num` if it has been
  committed, and 5 if it has been recovered. So workers that
  have completed the same number of rounds have come equally
  far.
-/
structure Agreement
    (s : Transaction ι) : Prop where
  same : ∀ i j (round : Nat) outcome outcome',
    (s.worker i).outcomes[round]? = some outcome →
    (s.worker j).outcomes[round]? = some outcome' →
    outcome = outcome'
  either : ∀ i, ∀ outcome ∈ (s.worker i).outcomes,
    outcome = .committed ∨ outcome = .recovered
  counted : ∀ i, (s.worker i).position = .starting →
    (s.worker i).num = (s.worker i).initial +
      ((s.worker i).outcomes.map Outcome.gain).sum
  equal : ∀ i j,
    (s.worker i).position = .starting →
    (s.worker j).position = .starting →
    (s.worker i).outcomes.length =
      (s.worker j).outcomes.length →
    (s.worker i).num - (s.worker i).initial =
      (s.worker j).num - (s.worker j).initial

/- A call of `Signal_Abort` by `i` would reach every worker
in the round of `i`. -/
def Reaches
    (s : Transaction ι)
    (i : ι) : Prop :=
  ∀ j, (∃ part, (s.worker j).position =
      .selecting .waiting part) ∧
    (s.worker j).outcomes.length =
      (s.worker i).outcomes.length

/- The system with the steps in which a call of
`Signal_Abort` reaches every worker. -/
def guarded
    (ι : Type)
    [DecidableEq ι]
    [Fintype ι] : TransitionSystem (Transaction ι) where
  Init := (system ι).Init
  Step s s' := Step s s' ∧
    ∀ i round, s'.signals = s.signals ++ [(i, round)] →
      s.Reaches i

end Transaction

------------------------------------------------------------
-- Invariant
------------------------------------------------------------

/- The number the completed rounds lead to. -/
def Worker.total
    (w : Worker) : Int :=
  w.initial + (w.outcomes.map Outcome.gain).sum

/- The abortable part has added 10. -/
def Part.HasAdded : Part → Prop
  | .added | .waiting | .finished => True
  | .adding | .failed | .signalled => False

instance : DecidablePred Part.HasAdded := by
  intro part
  unfold Part.HasAdded
  cases part <;> infer_instance

/- The variables of a worker at each position. -/
def Worker.Sound
    (w : Worker) : Prop :=
  match w.position with
  | .starting => w.num = w.total ∧ w.prev = w.total
  | .selecting _ part =>
      w.num = w.total + (if part.HasAdded then 10 else 0) ∧
        w.prev = w.total
  | .recovering => w.prev = w.total
  | .ended outcome => w.num = w.total + outcome.gain
  | .terminated => True

/- The outcome that fits a round in which `Signal_Abort` has
been called or not. -/
def Fits
    (signalled : Prop)
    (outcome : Outcome) : Prop :=
  (signalled ∧ outcome = .recovered) ∨
    (¬ signalled ∧ outcome = .committed)

/-
  What a worker knows of its round. `S` tells in which rounds
  `Signal_Abort` has been called, and `aborted` whether the
  last call is still being served.
-/
def Worker.Timely
    (aborted : Bool)
    (S : Nat → Prop)
    (w : Worker) : Prop :=
  match w.position with
  | .starting => ¬ S w.outcomes.length
  | .selecting .waiting part =>
      (S w.outcomes.length ↔ aborted = true) ∧
        (part = .signalled → S w.outcomes.length)
  | .selecting .completed _ => S w.outcomes.length
  | .recovering => S w.outcomes.length
  | .ended outcome => Fits (S w.outcomes.length) outcome
  | .terminated => True

/- The triggering call of the worker waits. -/
def Worker.Selects
    (w : Worker) : Prop :=
  ∃ part, w.position = .selecting .waiting part

/- The flag matters only while the triggering call waits. -/
theorem Worker.Timely.flag
    {aborted aborted' : Bool}
    {S : Nat → Prop}
    {w : Worker}
    (hTimely : w.Timely aborted S)
    (hFlag : w.Selects → aborted' = aborted) :
    w.Timely aborted' S := by
  unfold Worker.Timely at hTimely ⊢
  cases hPosition : w.position with
  | selecting trigger part =>
      rw [hPosition] at hTimely
      cases trigger with
      | waiting =>
          rw [hFlag ⟨part, hPosition⟩]
          exact hTimely
      | completed => exact hTimely
  | _ =>
      rw [hPosition] at hTimely
      exact hTimely

/- The worker waits in `Finished`. -/
def Worker.AtGate
    (w : Worker) : Prop :=
  ∃ trigger, w.position = .selecting trigger .waiting

namespace Transaction

variable {ι : Type} [DecidableEq ι] [Fintype ι]

/- Some worker has called `Signal_Abort` in the round. -/
def Signalled
    (s : Transaction ι)
    (round : Nat) : Prop :=
  ∃ i, (i, round) ∈ s.signals

/- The workers fit the history, and those that wait are
queued where the manager may serve them. -/
structure Inv
    (s : Transaction ι) : Prop where
  sound : ∀ i, (s.worker i).Sound
  timely : ∀ i, (s.worker i).Timely s.manager.data.aborted
    s.Signalled
  selects : s.manager.Waiting .waitUntilAborted
    fun i => (s.worker i).Selects
  gate : s.manager.Waiting .finished
    fun i => (s.worker i).AtGate
  history : ∀ i (round : Nat) outcome,
    (s.worker i).outcomes[round]? = some outcome →
      Fits (s.Signalled round) outcome
  bound : ∀ i round, s.Signalled round →
    round ≤ (s.worker i).outcomes.length
  serving : s.manager.data.aborted = true →
    s.manager.queue .waitUntilAborted ≠ []

section Steps

variable {s s' : Transaction ι}
variable {i : ι}
variable {w : Worker}
variable {m : ProtectedObject ι Entry Manager}

omit [Fintype ι] in
/- What holds of the new worker and of the others holds of
all workers. -/
theorem forall_put_ne
    {P : ι → Worker → Prop}
    (hOthers : ∀ j, j ≠ i → P j (s.worker j))
    (hNew : P i w) :
    ∀ j, P j ((s.put i w).worker j) := by
  intro j
  unfold put
  by_cases hSame : j = i
  · subst hSame
    simpa using hNew
  · simpa [hSame] using hOthers j hSame

omit [Fintype ι] in
theorem forall_put
    {P : ι → Worker → Prop}
    (hAll : ∀ j, P j (s.worker j))
    (hNew : P i w) :
    ∀ j, P j ((s.put i w).worker j) :=
  forall_put_ne (fun j _ => hAll j) hNew

omit [Fintype ι] in
/- The rounds that have ended stay the same. -/
theorem outcomes_put
    (hOutcomes : w.outcomes = (s.worker i).outcomes) :
    ∀ j, ((s.put i w).worker j).outcomes =
      (s.worker j).outcomes := by
  apply forall_put (P := fun j v =>
    v.outcomes = (s.worker j).outcomes)
  · exact fun _ => rfl
  · exact hOutcomes

omit [Fintype ι] in
theorem history_put
    {Q : Nat → Prop}
    (hHistory : ∀ j (r : Nat) outcome,
      (s.worker j).outcomes[r]? = some outcome →
        Fits (Q r) outcome)
    (hOutcomes : w.outcomes = (s.worker i).outcomes) :
    ∀ j (r : Nat) outcome,
      ((s.put i w).worker j).outcomes[r]? = some outcome →
        Fits (Q r) outcome := by
  intro j
  rw [outcomes_put hOutcomes]
  exact hHistory j

omit [Fintype ι] in
theorem bound_put
    {Q : Nat → Prop}
    (hBound : ∀ j r, Q r →
      r ≤ (s.worker j).outcomes.length)
    (hOutcomes : w.outcomes = (s.worker i).outcomes) :
    ∀ j r, Q r →
      r ≤ ((s.put i w).worker j).outcomes.length := by
  intro j
  rw [outcomes_put hOutcomes]
  exact hBound j

omit [DecidableEq ι] in
/- While the manager is quiet, no call of `Signal_Abort` is
being served. -/
theorem Inv.not_aborted
    (hInv : Inv s)
    (hQuiet : s.Quiet) :
    s.manager.data.aborted = false := by
  by_contra hAborted
  have hTrue := Bool.eq_true_of_not_eq_false hAborted
  exact hQuiet .waitUntilAborted
    ⟨hInv.serving hTrue, hTrue⟩

omit [Fintype ι] in
/-
  A step of one worker that stays in its round and does not
  change the flag `Aborted`, with new queues.
-/
theorem Inv.move
    (hInv : Inv s)
    (hOutcomes : w.outcomes = (s.worker i).outcomes)
    (hSound : w.Sound)
    (hTimely : w.Timely s.manager.data.aborted s.Signalled)
    (hAborted : m.data.aborted = s.manager.data.aborted)
    (hSelects : m.Waiting .waitUntilAborted
      fun j => ((s.put i w).worker j).Selects)
    (hGate : m.Waiting .finished
      fun j => ((s.put i w).worker j).AtGate)
    (hServing : m.data.aborted = true →
      m.queue .waitUntilAborted ≠ []) :
    Inv { s.put i w with manager := m } := by
  refine ⟨forall_put hInv.sound hSound, ?_, hSelects, hGate,
    history_put hInv.history hOutcomes,
    bound_put hInv.bound hOutcomes, hServing⟩
  change ∀ j, ((s.put i w).worker j).Timely
    m.data.aborted s.Signalled
  rw [hAborted]
  exact forall_put (P := fun _ v =>
    v.Timely s.manager.data.aborted s.Signalled)
    hInv.timely hTimely

omit [Fintype ι] in
/- The worker waits in the same queues as before. -/
theorem waiting_put
    {e : Entry}
    {P : Worker → Prop}
    (hWaiting : s.manager.Waiting e fun j => P (s.worker j))
    (hQueue : m.queue e = s.manager.queue e)
    (hSame : P w ↔ P (s.worker i)) :
    m.Waiting e fun j => P ((s.put i w).worker j) := by
  refine hWaiting.congr hQueue ?_
  apply forall_put (P := fun j v => P v ↔ P (s.worker j))
  · exact fun _ => Iff.rfl
  · exact hSame

omit [Fintype ι] in
/- The worker joins a queue. -/
theorem waiting_enqueue
    {e : Entry}
    {P : Worker → Prop}
    (hWaiting : s.manager.Waiting e fun j => P (s.worker j))
    (hBefore : ¬ P (s.worker i))
    (hAfter : P w) :
    (s.manager.enqueue e i).Waiting e
      fun j => P ((s.put i w).worker j) := by
  apply hWaiting.enqueue hBefore
  intro j
  unfold put
  by_cases hSame : j = i
  · subst hSame
    simp [hAfter]
  · simp [hSame]

omit [Fintype ι] in
/- The worker leaves a queue. -/
theorem left_put
    {P : Worker → Prop}
    (hAfter : ¬ P w) :
    ∀ j, P ((s.put i w).worker j) ↔
      P (s.worker j) ∧ j ≠ i := by
  intro j
  unfold put
  by_cases hSame : j = i
  · subst hSame
    simp [hAfter]
  · simp [hSame]

omit [Fintype ι] in
/- A step of one worker that does not touch the manager. -/
theorem Inv.moveAlone
    (hInv : Inv s)
    (hOutcomes : w.outcomes = (s.worker i).outcomes)
    (hSound : w.Sound)
    (hTimely : w.Timely s.manager.data.aborted s.Signalled)
    (hSelects : w.Selects ↔ (s.worker i).Selects)
    (hGate : w.AtGate ↔ (s.worker i).AtGate) :
    Inv (s.put i w) :=
  hInv.move hOutcomes hSound hTimely rfl
    (waiting_put hInv.selects rfl hSelects)
    (waiting_put hInv.gate rfl hGate) hInv.serving

------------------------------------------------------------
-- Steps
------------------------------------------------------------

theorem not_selects
    (hNot : ∀ part, w.position ≠ .selecting .waiting part) :
    ¬ w.Selects :=
  fun ⟨part, hAt⟩ => hNot part hAt

theorem not_atGate
    (hNot : ∀ trigger,
      w.position ≠ .selecting trigger .waiting) :
    ¬ w.AtGate :=
  fun ⟨trigger, hAt⟩ => hNot trigger hAt

/- A triggering call waits unless it is admitted. -/
theorem inv_select
    (hInv : Inv s)
    (hAt : (s.worker i).position = .starting)
    (hClosed : ¬ s.manager.Admits
      (managerType (Fintype.card ι)) .waitUntilAborted) :
    Inv { s.put i
          { s.worker i with
            roundNum := (s.worker i).roundNum + 1
            position := .selecting .waiting .adding } with
      manager := s.manager.enqueue .waitUntilAborted i } := by
  have hSound := hInv.sound i
  have hTimely := hInv.timely i
  unfold Worker.Sound at hSound
  unfold Worker.Timely at hTimely
  rw [hAt] at hSound hTimely
  have hAborted : ¬ s.manager.data.aborted = true := hClosed
  refine hInv.move rfl ?_ ?_ rfl ?_ ?_
    (fun h => absurd h hAborted)
  · refine ⟨?_, hSound.2⟩
    rw [if_neg (by simp [Part.HasAdded]), Int.add_zero]
    exact hSound.1
  · exact ⟨iff_of_false hTimely hAborted, by simp⟩
  · exact waiting_enqueue hInv.selects
      (not_selects (by simp [hAt])) ⟨.adding, rfl⟩
  · apply waiting_put hInv.gate
      (ProtectedObject.queue_enqueue_ne (by simp))
    exact iff_of_false (not_atGate (by simp))
      (not_atGate (by simp [hAt]))

/- A worker that is told about the abort. -/
theorem inv_serveWaitUntilAborted
    {rest : List ι}
    {part : Part}
    (hInv : Inv s)
    (hQueue : s.manager.queue .waitUntilAborted = i :: rest)
    (hOpen : s.manager.Open
      (managerType (Fintype.card ι)) .waitUntilAborted)
    (hAt : (s.worker i).position =
      .selecting .waiting part) :
    Inv { s.put i
          { s.worker i with
            position := .selecting .completed part } with
      manager := s.manager.serve
        (managerType (Fintype.card ι))
          .waitUntilAborted } := by
  have hAborted : s.manager.data.aborted = true := hOpen.2
  have hSound := hInv.sound i
  have hTimely := hInv.timely i
  unfold Worker.Sound at hSound
  unfold Worker.Timely at hTimely
  rw [hAt] at hSound hTimely
  have hSignalled := hTimely.1.mpr hAborted
  have hRest : (s.manager.serve
      (managerType (Fintype.card ι))
        .waitUntilAborted).queue .waitUntilAborted =
      rest := by
    unfold ProtectedObject.serve ProtectedObject.execute
    simp [hQueue]
  have hData : (s.manager.serve
      (managerType (Fintype.card ι))
        .waitUntilAborted).data.aborted =
      decide (rest ≠ []) := by
    change (waitUntilAbortedBody (List.length _) _).aborted =
      _
    unfold waitUntilAbortedBody
    cases rest with
    | nil => simp [hQueue]
    | cons j rest => simp [hQueue, hAborted]
  have hSelects : (s.manager.serve
      (managerType (Fintype.card ι))
        .waitUntilAborted).Waiting .waitUntilAborted
        fun j => ((s.put i
          { s.worker i with
            position := .selecting .completed part }).worker
              j).Selects :=
    hInv.selects.serve hQueue
      (left_put (not_selects (by simp)))
  have hGate : (s.manager.serve
      (managerType (Fintype.card ι))
        .waitUntilAborted).Waiting .finished
        fun j => ((s.put i
          { s.worker i with
            position := .selecting .completed part }).worker
              j).AtGate := by
    apply waiting_put hInv.gate
      (ProtectedObject.queue_serve_ne (by simp))
    unfold Worker.AtGate
    simp [hAt]
  generalize s.manager.serve
    (managerType (Fintype.card ι)) .waitUntilAborted = m at *
  refine ⟨forall_put hInv.sound hSound, ?_, hSelects, hGate,
    history_put hInv.history rfl,
    bound_put hInv.bound rfl, ?_⟩
  · apply forall_put_ne (P := fun _ v =>
      v.Timely m.data.aborted s.Signalled)
    · intro j hNe
      apply (hInv.timely j).flag
      -- while others wait, the call is not served
      intro hWaits
      rw [← hInv.selects.mem_iff, hQueue] at hWaits
      have hMem :=
        (List.mem_cons.mp hWaits).resolve_left hNe
      rw [hData, hAborted]
      exact decide_eq_true (List.ne_nil_of_mem hMem)
    · exact hSignalled
  · intro hStill
    rw [hData] at hStill
    rw [hRest]
    exact of_decide_eq_true hStill

omit [Fintype ι] in
/- A call of `Signal_Abort` that reaches every worker. -/
theorem inv_signalAbort
    {trigger : Trigger}
    (hInv : Inv s)
    (hReaches : s.Reaches i)
    (hAt : (s.worker i).position =
      .selecting trigger .failed) :
    Inv { s.put i
          { s.worker i with
            position := .selecting trigger .signalled } with
      manager :=
        { s.manager with
          data := { s.manager.data with aborted := true } }
      signals :=
        s.signals ++ [(i, (s.worker i).outcomes.length)] } := by
  have hSound := hInv.sound i
  unfold Worker.Sound at hSound
  rw [hAt] at hSound
  generalize hRound : (s.worker i).outcomes.length = R at *
  have hRounds : ∀ j, (s.worker j).outcomes.length = R :=
    fun j => (hReaches j).2.trans hRound
  have hTrigger : trigger = .waiting := by
    rcases (hReaches i).1 with ⟨part, hPart⟩
    rw [hAt] at hPart
    exact (Position.selecting.inj hPart).1
  have hSignalled : ∀ r,
      (∃ j, (j, r) ∈ s.signals ++ [(i, R)]) ↔
        s.Signalled r ∨ r = R := by
    intro r
    unfold Signalled
    simp only [List.mem_append, List.mem_singleton,
      Prod.mk.injEq]
    constructor
    · rintro ⟨j, hOld | ⟨_, hNew⟩⟩
      · exact Or.inl ⟨j, hOld⟩
      · exact Or.inr hNew
    · rintro (⟨j, hOld⟩ | hNew)
      · exact ⟨j, Or.inl hOld⟩
      · exact ⟨i, Or.inr ⟨rfl, hNew⟩⟩
  have hNow : ∃ j, (j, R) ∈ s.signals ++ [(i, R)] :=
    (hSignalled R).mpr (Or.inr rfl)
  have hHistory : ∀ j (r : Nat) outcome,
      (s.worker j).outcomes[r]? = some outcome →
      Fits (∃ k, (k, r) ∈ s.signals ++ [(i, R)]) outcome := by
    intro j r outcome hEnded
    rcases List.getElem?_eq_some_iff.mp hEnded with ⟨hLt, _⟩
    have hNe : r ≠ R := by
      have hLength := hRounds j
      omega
    have hSame : (∃ k, (k, r) ∈ s.signals ++ [(i, R)]) ↔
        s.Signalled r := by
      rw [hSignalled]
      simp [hNe]
    unfold Fits
    rw [hSame]
    exact hInv.history j r outcome hEnded
  have hBound : ∀ j r,
      (∃ k, (k, r) ∈ s.signals ++ [(i, R)]) →
        r ≤ (s.worker j).outcomes.length := by
    intro j r hSignal
    rw [hRounds j]
    rcases (hSignalled r).mp hSignal with hOld | hNew
    · rw [← hRounds i]
      exact hInv.bound i r hOld
    · exact Nat.le_of_eq hNew
  refine ⟨forall_put hInv.sound hSound, ?_, ?_, ?_,
    history_put hHistory rfl, bound_put hBound rfl, ?_⟩
  · apply forall_put (P := fun _ v => v.Timely true
      fun r => ∃ k, (k, r) ∈ s.signals ++ [(i, R)])
    · intro j
      rcases (hReaches j).1 with ⟨part, hPart⟩
      unfold Worker.Timely
      rw [hPart, hRounds j]
      exact ⟨iff_of_true hNow rfl, fun _ => hNow⟩
    · unfold Worker.Timely
      rw [hTrigger, hRound]
      exact ⟨iff_of_true hNow rfl, fun _ => hNow⟩
  · refine waiting_put hInv.selects rfl (iff_of_true ?_ ?_)
    · exact ⟨.signalled, by rw [hTrigger]⟩
    · exact (hReaches i).1
  · refine waiting_put hInv.gate rfl (iff_of_false ?_ ?_)
    · exact not_atGate (by simp)
    · exact not_atGate (by simp [hAt])
  · intro _
    have hMem := (hInv.selects.mem_iff i).mpr (hReaches i).1
    exact List.ne_nil_of_mem hMem

omit [Fintype ι] in
/- A worker completes its round. -/
theorem inv_finish
    {outcome : Outcome}
    (hInv : Inv s)
    (hAt : (s.worker i).position = .ended outcome) :
    Inv (s.put i
      { s.worker i with
        prev := (s.worker i).num
        position := .starting
        outcomes :=
          (s.worker i).outcomes ++ [outcome] }) := by
  have hSound := hInv.sound i
  have hTimely := hInv.timely i
  unfold Worker.Sound at hSound
  unfold Worker.Timely at hTimely
  rw [hAt] at hSound hTimely
  have hTotal : (s.worker i).num =
      (s.worker i).initial + (((s.worker i).outcomes ++
        [outcome]).map Outcome.gain).sum := by
    unfold Worker.total at hSound
    rw [List.map_append, List.sum_append, List.map_singleton,
      List.sum_singleton]
    omega
  refine ⟨forall_put hInv.sound ⟨hTotal, hTotal⟩,
    forall_put (P := fun _ v =>
      v.Timely s.manager.data.aborted s.Signalled)
      hInv.timely ?_,
    waiting_put hInv.selects rfl ?_,
    waiting_put hInv.gate rfl ?_, ?_, ?_, hInv.serving⟩
  · intro hSignal
    have hLe := hInv.bound i _ hSignal
    rw [List.length_append, List.length_singleton] at hLe
    omega
  · exact iff_of_false (not_selects (by simp))
      (not_selects (by simp [hAt]))
  · exact iff_of_false (not_atGate (by simp))
      (not_atGate (by simp [hAt]))
  · apply forall_put (P := fun _ v => ∀ (r : Nat) outcome,
      v.outcomes[r]? = some outcome →
        Fits (s.Signalled r) outcome)
    · exact hInv.history
    · exact forall_concat (hInv.history i) hTimely
  · apply forall_put (P := fun _ v => ∀ r,
      s.Signalled r → r ≤ v.outcomes.length)
    · exact hInv.bound
    · intro r hSignal
      have hLe := hInv.bound i r hSignal
      rw [List.length_append]
      omega

omit [DecidableEq ι] [Fintype ι] in
/- What holds of a worker inside the select. -/
theorem Inv.selecting
    {trigger : Trigger}
    {part : Part}
    (hInv : Inv s)
    (hAt : (s.worker i).position =
      .selecting trigger part) :
    ((s.worker i).num = (s.worker i).total +
        (if part.HasAdded then 10 else 0) ∧
      (s.worker i).prev = (s.worker i).total) ∧
    (match trigger with
      | .waiting =>
          (s.Signalled (s.worker i).outcomes.length ↔
            s.manager.data.aborted = true) ∧
          (part = .signalled →
            s.Signalled (s.worker i).outcomes.length)
      | .completed =>
          s.Signalled (s.worker i).outcomes.length) := by
  have hSound := hInv.sound i
  have hTimely := hInv.timely i
  unfold Worker.Sound at hSound
  unfold Worker.Timely at hTimely
  rw [hAt] at hSound hTimely
  refine ⟨hSound, ?_⟩
  cases trigger with
  | waiting => exact hTimely
  | completed => exact hTimely

omit [Fintype ι] in
/- The abortable part goes on before it calls `Finished`. -/
theorem inv_work
    {trigger : Trigger}
    {part : Part}
    {num : Int}
    (hInv : Inv s)
    (hAt : (s.worker i).position =
      .selecting trigger .adding)
    (hPart : part = .added ∨ part = .failed)
    (hNum : num = (s.worker i).num +
      (if part.HasAdded then 10 else 0)) :
    Inv (s.put i
      { s.worker i with
        num := num
        position := .selecting trigger part }) := by
  rcases hInv.selecting hAt with ⟨⟨hBefore, hPrev⟩, hTimely⟩
  have hTotal : (s.worker i).num = (s.worker i).total := by
    simpa [Part.HasAdded] using hBefore
  refine hInv.moveAlone rfl ⟨?_, hPrev⟩ ?_ ?_ ?_
  · rw [hTotal] at hNum
    exact hNum
  · cases trigger with
    | waiting =>
        refine ⟨hTimely.1, ?_⟩
        intro hSignalled
        rcases hPart with rfl | rfl
        · cases hSignalled
        · cases hSignalled
    | completed => exact hTimely
  · unfold Worker.Selects
    simp [hAt]
  · refine iff_of_false (not_atGate ?_)
      (not_atGate (by simp [hAt]))
    rcases hPart with rfl | rfl
    · simp
    · simp

/- A worker that has added 10 calls `Finished`. -/
theorem inv_callFinished
    (hInv : Inv s)
    (hQuiet : s.Quiet)
    (hAt : (s.worker i).position =
      .selecting .waiting .added) :
    Inv { s.put i
          { s.worker i with
            position := .selecting .waiting .waiting } with
      manager := s.manager.enqueue .finished i } := by
  rcases hInv.selecting hAt with ⟨hSound, hTimely⟩
  have hAborted := hInv.not_aborted hQuiet
  refine hInv.move rfl hSound ⟨hTimely.1, by simp⟩ rfl ?_ ?_
    (fun h => Bool.noConfusion (hAborted.symm.trans h))
  · apply waiting_put hInv.selects
      (ProtectedObject.queue_enqueue_ne (by simp))
    exact iff_of_true ⟨_, rfl⟩ ⟨_, hAt⟩
  · exact waiting_enqueue hInv.gate
      (not_atGate (by simp [hAt])) ⟨_, rfl⟩

omit [DecidableEq ι] in
theorem aborted_finishedBody
    (N count : Nat)
    (m : Manager) :
    (finishedBody N count m).aborted = m.aborted := by
  unfold finishedBody
  split_ifs
  · rfl
  · rfl
  · rfl
  · rfl

/- The gate is open when the worker calls `Finished`. -/
theorem inv_admitFinished
    (hInv : Inv s)
    (hQuiet : s.Quiet)
    (hAt : (s.worker i).position =
      .selecting .waiting .added) :
    Inv { s.put i
          { s.worker i with
            position := .selecting .waiting .finished } with
      manager := s.manager.execute
        (managerType (Fintype.card ι)) .finished } := by
  rcases hInv.selecting hAt with ⟨hSound, hTimely⟩
  have hAborted := hInv.not_aborted hQuiet
  have hSame : (s.manager.execute
      (managerType (Fintype.card ι))
        .finished).data.aborted = s.manager.data.aborted :=
    aborted_finishedBody _ _ _
  refine hInv.move rfl hSound ⟨hTimely.1, by simp⟩ hSame
    ?_ ?_ ?_
  · refine waiting_put hInv.selects ?_ ?_
    · rfl
    · exact iff_of_true ⟨_, rfl⟩ ⟨_, hAt⟩
  · refine waiting_put hInv.gate ?_ ?_
    · rfl
    · exact iff_of_false (not_atGate (by simp))
        (not_atGate (by simp [hAt]))
  · rw [hSame, hAborted]
    exact fun h => absurd h (by simp)

/- A worker passes the gate. -/
theorem inv_serveFinished
    {rest : List ι}
    {trigger : Trigger}
    (hInv : Inv s)
    (hQueue : s.manager.queue .finished = i :: rest)
    (hAt : (s.worker i).position =
      .selecting trigger .waiting) :
    Inv { s.put i
          { s.worker i with
            position := .selecting trigger .finished } with
      manager := s.manager.serve
        (managerType (Fintype.card ι)) .finished } := by
  rcases hInv.selecting hAt with ⟨hSound, hTimely⟩
  have hSame : (s.manager.serve
      (managerType (Fintype.card ι))
        .finished).data.aborted = s.manager.data.aborted :=
    aborted_finishedBody _ _ _
  have hOther : (s.manager.serve
      (managerType (Fintype.card ι))
        .finished).queue .waitUntilAborted =
      s.manager.queue .waitUntilAborted :=
    ProtectedObject.queue_serve_ne (by simp)
  refine hInv.move rfl hSound ?_ hSame ?_ ?_ ?_
  · cases trigger with
    | waiting => exact ⟨hTimely.1, by simp⟩
    | completed => exact hTimely
  · apply waiting_put hInv.selects hOther
    unfold Worker.Selects
    simp [hAt]
  · exact hInv.gate.serve hQueue
      (left_put (not_atGate (by simp)))
  · rw [hSame, hOther]
    exact hInv.serving

/- The select ends before the triggering call is served. -/
theorem inv_leave
    {part : Part}
    {position : Position}
    (hInv : Inv s)
    (hQuiet : s.Quiet)
    (hAt : (s.worker i).position =
      .selecting .waiting part)
    (hGate : part ≠ .waiting)
    (hSound : Worker.Sound
      { s.worker i with position := position })
    (hTimely : Worker.Timely s.manager.data.aborted
      s.Signalled { s.worker i with position := position })
    (hLeft : ∀ trigger part,
      position ≠ .selecting trigger part) :
    Inv { s.put i
          { s.worker i with position := position } with
      manager := s.manager.cancel .waitUntilAborted i } := by
  have hAborted := hInv.not_aborted hQuiet
  refine hInv.move rfl hSound hTimely rfl ?_ ?_
    (fun h => Bool.noConfusion (hAborted.symm.trans h))
  · exact hInv.selects.cancel
      (left_put (not_selects fun part => hLeft _ part))
  · apply waiting_put hInv.gate
      (ProtectedObject.queue_cancel_ne (by simp))
    refine iff_of_false
      (not_atGate fun trigger => hLeft trigger _)
      (not_atGate ?_)
    simp [hAt, hGate]

/- The abortable part completes first. -/
theorem inv_complete
    {part : Part}
    (hInv : Inv s)
    (hQuiet : s.Quiet)
    (hAt : (s.worker i).position =
      .selecting .waiting part)
    (hPart : part = .finished ∨ part = .signalled) :
    Inv { s.put i
          { s.worker i with
            position := .ended part.outcome } with
      manager := s.manager.cancel .waitUntilAborted i } := by
  rcases hInv.selecting hAt with ⟨⟨hNum, _⟩, hTimely⟩
  have hAborted := hInv.not_aborted hQuiet
  have hNot : ¬ s.Signalled (s.worker i).outcomes.length := by
    rw [hTimely.1, hAborted]
    simp
  have hFinished : part = .finished :=
    hPart.resolve_right fun h => hNot (hTimely.2 h)
  subst hFinished
  exact inv_leave hInv hQuiet hAt (by simp) hNum
    (Or.inr ⟨hNot, rfl⟩) (by simp)

/- The aborted part leaves the queue of `Finished`. -/
theorem inv_abortWaiting
    (hInv : Inv s)
    (hQuiet : s.Quiet)
    (hAt : (s.worker i).position =
      .selecting .completed .waiting) :
    Inv { s.put i
          { s.worker i with position := .recovering } with
      manager := s.manager.cancel .finished i } := by
  rcases hInv.selecting hAt with ⟨⟨_, hPrev⟩, hTimely⟩
  have hAborted := hInv.not_aborted hQuiet
  refine hInv.move rfl hPrev hTimely rfl ?_ ?_
    (fun h => Bool.noConfusion (hAborted.symm.trans h))
  · apply waiting_put hInv.selects
      (ProtectedObject.queue_cancel_ne (by simp))
    exact iff_of_false (not_selects (by simp))
      (not_selects (by simp [hAt]))
  · exact hInv.gate.cancel
      (left_put (not_atGate (by simp)))

theorem inv_of_step
    (hInv : Inv s)
    (hReaches : ∀ i round,
      s'.signals = s.signals ++ [(i, round)] → s.Reaches i)
    (hStep : Step s s') :
    Inv s' := by
  cases hStep with
  | trigger i hQuiet hAt hRound hOpen =>
      have hAborted : s.manager.data.aborted = true := hOpen
      rw [hInv.not_aborted hQuiet] at hAborted
      cases hAborted
  | select i hQuiet hAt hRound hClosed =>
      exact inv_select hInv hAt hClosed
  | startFails i hAt hRound =>
      exact hInv.moveAlone rfl trivial trivial
        (iff_of_false (not_selects (by simp))
          (not_selects (by simp [hAt])))
        (iff_of_false (not_atGate (by simp))
          (not_atGate (by simp [hAt])))
  | add i trigger sum hAt hSum =>
      refine inv_work hInv hAt (Or.inl rfl) ?_
      unfold slowAdd at hSum
      split_ifs at hSum
      rw [← Option.some.inj hSum]
      simp only [Part.HasAdded]
      exact Int.add_comm _ _
  | addFails i hQuiet hAt hSum =>
      exact inv_leave hInv hQuiet hAt (by simp) trivial
        trivial (by simp)
  | countFailed i trigger hAt =>
      refine inv_work hInv hAt (Or.inr rfl) ?_
      simp [Part.HasAdded]
  | signalAbort i trigger hQuiet hAt =>
      exact inv_signalAbort hInv (hReaches i _ rfl) hAt
  | admitFinished i hQuiet hAt hOpen =>
      exact inv_admitFinished hInv hQuiet hAt
  | callFinished i hQuiet hAt hClosed =>
      exact inv_callFinished hInv hQuiet hAt
  | serveFinished i rest trigger hQueue hOpen hAt =>
      exact inv_serveFinished hInv hQueue hAt
  | serveWaitUntilAborted i rest part hQueue hOpen hAt =>
      exact inv_serveWaitUntilAborted hInv hQueue hOpen hAt
  | abort i part hAt hPart =>
      rcases hInv.selecting hAt with ⟨⟨_, hPrev⟩, hTimely⟩
      exact hInv.moveAlone rfl hPrev hTimely
        (iff_of_false (not_selects (by simp))
          (not_selects (by simp [hAt])))
        (iff_of_false (not_atGate (by simp))
          (not_atGate (by simp [hAt, hPart])))
  | abortWaiting i hQuiet hAt =>
      exact inv_abortWaiting hInv hQuiet hAt
  | complete i part hQuiet hAt hPart =>
      exact inv_complete hInv hQuiet hAt hPart
  | recover i hAt hSum =>
      have hSound := hInv.sound i
      have hTimely := hInv.timely i
      unfold Worker.Sound at hSound
      unfold Worker.Timely at hTimely
      rw [hAt] at hSound hTimely
      refine hInv.moveAlone rfl ?_ (Or.inl ⟨hTimely, rfl⟩)
        (iff_of_false (not_selects (by simp))
          (not_selects (by simp [hAt])))
        (iff_of_false (not_atGate (by simp))
          (not_atGate (by simp [hAt])))
      change (s.worker i).prev + 5 =
        (s.worker i).total + Outcome.recovered.gain
      rw [hSound]
      rfl
  | recoverFails i hAt hSum =>
      exact hInv.moveAlone rfl trivial trivial
        (iff_of_false (not_selects (by simp))
          (not_selects (by simp [hAt])))
        (iff_of_false (not_atGate (by simp))
          (not_atGate (by simp [hAt])))
  | finish i outcome hAt => exact inv_finish hInv hAt

omit [DecidableEq ι] [Fintype ι] in
theorem inv_start
    (initial : ι → Int) :
    Inv (start initial) := by
  have hNone : ∀ r, ¬ (start initial).Signalled r := by
    rintro r ⟨i, hMem⟩
    cases hMem
  refine ⟨?_, ?_, ⟨List.nodup_nil, ?_⟩,
    ⟨List.nodup_nil, ?_⟩, ?_, ?_, ?_⟩
  · intro i
    have hTotal : (Worker.start (initial i)).total =
        initial i := by
      unfold Worker.total Worker.start
      simp
    exact ⟨hTotal.symm, hTotal.symm⟩
  · exact fun i => hNone 0
  · intro i
    exact iff_of_false List.not_mem_nil
      (not_selects (by simp [start, Worker.start]))
  · intro i
    exact iff_of_false List.not_mem_nil
      (not_atGate (by simp [start, Worker.start]))
  · intro i round outcome hEnded
    cases hEnded
  · exact fun i round hSignal => absurd hSignal (hNone round)
  · intro hAborted
    cases hAborted

theorem inv_of_reachable
    (hReach : (guarded ι).Reachable s) :
    Inv s := by
  apply hReach.invariant
  · rintro _ ⟨initial, rfl⟩
    exact inv_start initial
  · exact fun _ _ hInv hStep =>
      inv_of_step hInv hStep.2 hStep.1

omit [DecidableEq ι] [Fintype ι] in
/- The outcome of a round is the same for all. -/
theorem Inv.same
    (hInv : Inv s)
    {j : ι}
    {round : Nat}
    {outcome outcome' : Outcome}
    (hEnded : (s.worker i).outcomes[round]? = some outcome)
    (hEnded' : (s.worker j).outcomes[round]? =
      some outcome') :
    outcome = outcome' := by
  rcases hInv.history i round outcome hEnded with
    ⟨hSignal, hOutcome⟩ | ⟨hNone, hOutcome⟩
  · rcases hInv.history j round outcome' hEnded' with
      ⟨_, hOutcome'⟩ | ⟨hNone', _⟩
    · rw [hOutcome, hOutcome']
    · exact absurd hSignal hNone'
  · rcases hInv.history j round outcome' hEnded' with
      ⟨hSignal', _⟩ | ⟨_, hOutcome'⟩
    · exact absurd hSignal' hNone
    · rw [hOutcome, hOutcome']

/-
  The workers agree in every state of every run in which each
  call of `Signal_Abort` reaches all of them.
-/
theorem sameRounds
    (hReach : (guarded ι).Reachable s) :
    Agreement s := by
  have hInv := inv_of_reachable hReach
  have hCounted : ∀ i, (s.worker i).position = .starting →
      (s.worker i).num = (s.worker i).total := by
    intro i hAt
    have hSound := hInv.sound i
    unfold Worker.Sound at hSound
    rw [hAt] at hSound
    exact hSound.1
  constructor
  · exact fun i j round outcome outcome' => hInv.same
  · intro i outcome hMem
    rcases List.mem_iff_getElem?.mp hMem with ⟨r, hEnded⟩
    rcases hInv.history i r outcome hEnded with
      ⟨_, hOutcome⟩ | ⟨_, hOutcome⟩
    · exact Or.inr hOutcome
    · exact Or.inl hOutcome
  · exact hCounted
  · intro i j hAt hAt' hLength
    have hOutcomes : (s.worker i).outcomes =
        (s.worker j).outcomes := by
      apply List.ext_getElem hLength
      intro r hi hj
      exact hInv.same (List.getElem?_eq_getElem hi)
        (List.getElem?_eq_getElem hj)
    have hNum := hCounted i hAt
    have hNum' := hCounted j hAt'
    unfold Worker.total at hNum hNum'
    rw [hOutcomes] at hNum
    omega

end Steps

/- Two workers that start with 0 and 1. -/
def twoWorkers : Transaction (Fin 2) :=
  start fun i => i.val

/- A step without a call of `Signal_Abort` is guarded. -/
theorem Step.guarded
    {s s' : Transaction (Fin 2)}
    (hStep : Step s s')
    (hSignals : s'.signals = s.signals) :
    (guarded (Fin 2)).Step s s' := by
  refine ⟨hStep, ?_⟩
  intro i round hGrown
  rw [hSignals] at hGrown
  exact absurd hGrown (by simp)

/- The first of two workers fails while the other one adds,
and both recover. -/
theorem sameRounds_twoWorkers :
    ∃ s : Transaction (Fin 2),
      (guarded (Fin 2)).Reachable s ∧ Agreement s ∧
        (s.worker 0).outcomes = [.recovered] ∧
        (s.worker 1).outcomes = [.recovered] := by
  have h₀ : (guarded (Fin 2)).Reachable twoWorkers :=
    TransitionSystem.Reachable.init ⟨_, rfl⟩
  have h₁ := h₀.step (Step.guarded (Step.select _ 0
    (by rintro ⟨⟩ <;> decide) rfl (by decide) (by decide))
    rfl)
  have h₂ := h₁.step (Step.guarded (Step.select _ 1
    (by rintro ⟨⟩ <;> decide) rfl (by decide) (by decide))
    rfl)
  have h₃ := h₂.step (Step.guarded
    (Step.countFailed _ 0 _ rfl) rfl)
  have h₄ := h₃.step ⟨Step.signalAbort _ 0 _
    (by rintro ⟨⟩ <;> decide) rfl, by
      intro i round _ j
      fin_cases j
      · exact ⟨⟨_, rfl⟩, by fin_cases i <;> rfl⟩
      · exact ⟨⟨_, rfl⟩, by fin_cases i <;> rfl⟩⟩
  -- both workers are told
  have h₅ := h₄.step (Step.guarded
    (Step.serveWaitUntilAborted _ 0 [1] _ rfl (by decide)
      rfl) rfl)
  have h₆ := h₅.step (Step.guarded
    (Step.serveWaitUntilAborted _ 1 [] _ rfl (by decide)
      rfl) rfl)
  have h₇ := h₆.step (Step.guarded
    (Step.abort _ 0 _ rfl (by decide)) rfl)
  have h₈ := h₇.step (Step.guarded
    (Step.abort _ 1 _ rfl (by decide)) rfl)
  -- and recover
  have h₉ := h₈.step (Step.guarded
    (Step.recover _ 0 rfl (by decide)) rfl)
  have h₁₀ := h₉.step (Step.guarded
    (Step.recover _ 1 rfl (by decide)) rfl)
  have h₁₁ := h₁₀.step (Step.guarded
    (Step.finish _ 0 _ rfl) rfl)
  have h₁₂ := h₁₁.step (Step.guarded
    (Step.finish _ 1 _ rfl) rfl)
  exact ⟨_, h₁₂, sameRounds h₁₂, by decide, by decide⟩

/-
  The first worker fails before the other one has entered
  its select. It recovers, and the other one commits the same
  round.
-/
theorem lateWorker_disagrees :
    ∃ s : Transaction (Fin 2),
      (system (Fin 2)).Reachable s ∧
        (s.worker 0).outcomes = [.recovered] ∧
        (s.worker 1).outcomes = [.committed] ∧
        ¬ Agreement s := by
  have h₀ : (system (Fin 2)).Reachable twoWorkers :=
    TransitionSystem.Reachable.init ⟨_, rfl⟩
  have h₁ := h₀.step (Step.select _ 0
    (by rintro ⟨⟩ <;> decide) rfl (by decide) (by decide))
  have h₂ := h₁.step (Step.countFailed _ 0 _ rfl)
  have h₃ := h₂.step (Step.signalAbort _ 0 _
    (by rintro ⟨⟩ <;> decide) rfl)
  have h₄ := h₃.step (Step.serveWaitUntilAborted _ 0 [] _
    rfl (by decide) rfl)
  have h₅ := h₄.step (Step.abort _ 0 _ rfl (by decide))
  have h₆ := h₅.step (Step.recover _ 0 rfl (by decide))
  have h₇ := h₆.step (Step.finish _ 0 _ rfl)
  -- the other worker enters its first round
  have h₈ := h₇.step (Step.select _ 1
    (by rintro ⟨⟩ <;> decide) rfl (by decide) (by decide))
  have h₉ := h₈.step (Step.add _ 1 _ 11 rfl (by decide))
  have h₁₀ := h₉.step (Step.callFinished _ 1
    (by rintro ⟨⟩ <;> decide) rfl (by decide))
  -- and is joined at the gate in the second round of the first
  have h₁₁ := h₁₀.step (Step.select _ 0
    (by rintro ⟨⟩ <;> decide) rfl (by decide) (by decide))
  have h₁₂ := h₁₁.step (Step.add _ 0 _ 15 rfl (by decide))
  have h₁₃ := h₁₂.step (Step.callFinished _ 0
    (by rintro ⟨⟩ <;> decide) rfl (by decide))
  have h₁₄ := h₁₃.step (Step.serveFinished _ 1 [0] _
    rfl (by decide) rfl)
  have h₁₅ := h₁₄.step (Step.serveFinished _ 0 [] _
    rfl (by decide) rfl)
  have h₁₆ := h₁₅.step (Step.complete _ 1 _
    (by rintro ⟨⟩ <;> decide) rfl (Or.inl rfl))
  have h₁₇ := h₁₆.step (Step.finish _ 1 _ rfl)
  refine ⟨_, h₁₇, by decide, by decide, ?_⟩
  intro hAgreement
  have hSame := hAgreement.same 0 1 0 .recovered .committed
    (by decide) (by decide)
  cases hSame

end Transaction

end Exercise8

end ElevatorControl
