import ElevatorControl.Library.ProtectedObject
import ElevatorControl.Library.TransitionSystem

/-
  Exercise 7: workers that commit or revert together.

  All workers pass the entry `Finished` of one manager in
  every round, and then read from the manager whether the
  round commits. The manager does not number the rounds: the
  calls of a round are told apart only by the gate, which
  opens when all workers wait and closes behind the last one.

  The workers take their steps in any order. A round of a
  worker has the number of decisions it has read before.

  Key definitions include:
    * `Exercise7.managerType`
    * `Exercise7.Step`
    * `Exercise7.Agreement`

  Key theorems include:
    * `Exercise7.Transaction.inv_of_step`
    * `Exercise7.Transaction.sameDecisions`
-/

------------------------------------------------------------
-- Manager
------------------------------------------------------------

namespace ElevatorControl

/- The largest value of the type `Integer`. -/
def integerLast : Int := 2147483647

/- The sum `Unreliable_Slow_Add` returns when it does not
fail. It raises `Constraint_Error` without one. -/
def slowAdd
    (x : Int) : Option Int :=
  if 10 + x ≤ integerLast then some (10 + x) else none

/- What holds of every round of a history, and of the round
that ends now, holds of the longer history. -/
theorem forall_concat
    {α : Type}
    {P : Nat → α → Prop}
    {l : List α}
    {a : α}
    (hOld : ∀ n b, l[n]? = some b → P n b)
    (hNew : P l.length a)
    (n : Nat)
    (b : α)
    (hRound : (l ++ [a])[n]? = some b) :
    P n b := by
  rcases Nat.lt_trichotomy n l.length with hLt | rfl | hGt
  · rw [List.getElem?_append_left hLt] at hRound
    exact hOld n b hRound
  · rw [List.getElem?_concat_length] at hRound
    rw [← Option.some.inj hRound]
    exact hNew
  · have hBeyond : (l ++ [a]).length ≤ n := by
      rw [List.length_append, List.length_singleton]
      exact hGt
    rw [List.getElem?_eq_none hBeyond] at hRound
    cases hRound

namespace Exercise7

/- The components of `Transaction_Manager`. -/
structure Manager where
  finishedGateOpen : Bool
  aborted : Bool
  willCommit : Bool
  deriving DecidableEq

/- The entries of `Transaction_Manager`. -/
inductive Entry where
  | finished
  deriving DecidableEq

/- The body of `Finished`, when `count` calls still wait. -/
def finishedBody
    (N count : Nat)
    (m : Manager) : Manager :=
  let m :=
    if count = N - 1 then
      { m with finishedGateOpen := true, willCommit := true }
    else m
  let m :=
    if m.aborted then { m with willCommit := false } else m
  if count = 0 then
    { m with finishedGateOpen := false, aborted := false }
  else m

/- The protected type for `N` workers. -/
def managerType
    (N : Nat) : ProtectedType Entry Manager where
  barrier m count
    | .finished =>
        m.finishedGateOpen || decide (count .finished = N)
  body m count
    | .finished => finishedBody N (count .finished) m

section Manager

variable {ι : Type}
variable {N count : Nat}
variable {m : Manager}
variable {p : ProtectedObject ι Entry Manager}

theorem admits_iff :
    p.Admits (managerType N) .finished ↔
      p.data.finishedGateOpen = true ∨
        p.count .finished = N := by
  unfold ProtectedObject.Admits managerType
  simp

/-
  The body leaves the gate open for the others that wait, and
  keeps the flag `Aborted` for them. The decision is made by
  the first call that is served.
-/
theorem finishedBody_eq
    (hGate : count = N - 1 ∨ m.finishedGateOpen = true) :
    finishedBody N count m =
      { finishedGateOpen := decide (count ≠ 0)
        aborted := decide (count ≠ 0) && m.aborted
        willCommit := !m.aborted &&
          (decide (count = N - 1) || m.willCommit) } := by
  unfold finishedBody
  generalize N - 1 = first at *
  rcases m with ⟨gate, aborted, willCommit⟩
  by_cases hFirst : count = first
  · subst hFirst
    by_cases hLast : count = 0
    · cases aborted with
      | false => simp [hLast]
      | true => simp [hLast]
    · cases aborted with
      | false => simp [hLast]
      | true => simp [hLast]
  · have hOpen : gate = true := hGate.resolve_left hFirst
    by_cases hLast : count = 0
    · subst hLast
      cases aborted with
      | false => simp [hFirst, hOpen]
      | true => simp [hFirst, hOpen]
    · cases aborted with
      | false => simp [hFirst, hLast, hOpen]
      | true => simp [hFirst, hLast, hOpen]

end Manager

------------------------------------------------------------
-- Workers
------------------------------------------------------------

/-
  Where a worker is in its loop: before the next round, in
  `Unreliable_Slow_Add`, before the call of `Finished` or of
  `Signal_Abort`, waiting in `Finished`, before the call of
  `Commit`, or after it. An exception that is not handled
  terminates the worker.
-/
inductive Position where
  | starting
  | adding
  | added
  | failed
  | signalled
  | waiting
  | released
  | decided (commit : Bool)
  | terminated
  deriving DecidableEq

/- The variables of a worker, and the values it has read from
`Commit`, in order. -/
structure Worker where
  initial : Int
  num : Int
  prev : Int
  roundNum : Int
  position : Position
  commits : List Bool

/- A worker that has just been started. -/
def Worker.start
    (initial : Int) : Worker where
  initial := initial
  num := initial
  prev := initial
  roundNum := 0
  position := .starting
  commits := []

/- The workers and their manager. `signals` holds for every
call of `Signal_Abort` the caller and its round. -/
structure Transaction (ι : Type) where
  worker : ι → Worker
  manager : ProtectedObject ι Entry Manager
  signals : List (ι × Nat)

namespace Transaction

variable {ι : Type} [DecidableEq ι] [Fintype ι]

/- The worker `i` becomes `w`. -/
def put
    (s : Transaction ι)
    (i : ι)
    (w : Worker) : Transaction ι :=
  { s with worker := Function.update s.worker i w }

/- No waiting call is about to be served. -/
def Quiet
    (s : Transaction ι) : Prop :=
  s.manager.Quiet (managerType (Fintype.card ι))

/-
  One step of a worker, or of the manager, which serves a
  call that waits. The manager serves calls whose barrier is
  open before it admits others.
-/
inductive Step :
    Transaction ι → Transaction ι → Prop where
  | start
      (s : Transaction ι)
      (i : ι)
      (hAt : (s.worker i).position = .starting)
      (hRound : (s.worker i).roundNum + 1 ≤ integerLast) :
      Step s
        (s.put i
          { s.worker i with
            roundNum := (s.worker i).roundNum + 1
            position := .adding })
  | startFails
      (s : Transaction ι)
      (i : ι)
      (hAt : (s.worker i).position = .starting)
      (hRound : integerLast < (s.worker i).roundNum + 1) :
      Step s
        (s.put i { s.worker i with position := .terminated })
  | add
      (s : Transaction ι)
      (i : ι)
      (sum : Int)
      (hAt : (s.worker i).position = .adding)
      (hSum : slowAdd (s.worker i).num = some sum) :
      Step s
        (s.put i
          { s.worker i with num := sum, position := .added })
  | addFails
      (s : Transaction ι)
      (i : ι)
      (hAt : (s.worker i).position = .adding)
      (hSum : slowAdd (s.worker i).num = none) :
      Step s
        (s.put i { s.worker i with position := .terminated })
  | countFailed
      (s : Transaction ι)
      (i : ι)
      (hAt : (s.worker i).position = .adding) :
      Step s
        (s.put i { s.worker i with position := .failed })
  | signalAbort
      (s : Transaction ι)
      (i : ι)
      (hQuiet : s.Quiet)
      (hAt : (s.worker i).position = .failed) :
      Step s
        { s.put i
            { s.worker i with position := .signalled } with
          manager :=
            { s.manager with
              data :=
                { s.manager.data with aborted := true } }
          signals :=
            s.signals ++ [(i, (s.worker i).commits.length)] }
  | admitFinished
      (s : Transaction ι)
      (i : ι)
      (hQuiet : s.Quiet)
      (hAt : (s.worker i).position = .added ∨
        (s.worker i).position = .signalled)
      (hOpen : s.manager.Admits
        (managerType (Fintype.card ι)) .finished) :
      Step s
        { s.put i
            { s.worker i with position := .released } with
          manager := s.manager.execute
            (managerType (Fintype.card ι)) .finished }
  | call
      (s : Transaction ι)
      (i : ι)
      (hQuiet : s.Quiet)
      (hAt : (s.worker i).position = .added ∨
        (s.worker i).position = .signalled)
      (hClosed : ¬ s.manager.Admits
        (managerType (Fintype.card ι)) .finished) :
      Step s
        { s.put i
            { s.worker i with position := .waiting } with
          manager := s.manager.enqueue .finished i }
  | serve
      (s : Transaction ι)
      (i : ι)
      (rest : List ι)
      (hQueue : s.manager.queue .finished = i :: rest)
      (hOpen : s.manager.Open
        (managerType (Fintype.card ι)) .finished) :
      Step s
        { s.put i
            { s.worker i with position := .released } with
          manager := s.manager.serve
            (managerType (Fintype.card ι)) .finished }
  | commit
      (s : Transaction ι)
      (i : ι)
      (hQuiet : s.Quiet)
      (hAt : (s.worker i).position = .released) :
      Step s
        (s.put i
          { s.worker i with
            position := .decided s.manager.data.willCommit
            commits := (s.worker i).commits ++
              [s.manager.data.willCommit] })
  | finish
      (s : Transaction ι)
      (i : ι)
      (commit : Bool)
      (hAt : (s.worker i).position = .decided commit) :
      Step s
        (s.put i
          { s.worker i with
            num := if commit then (s.worker i).num
              else (s.worker i).prev
            prev := if commit then (s.worker i).num
              else (s.worker i).prev
            position := .starting })

/- No worker has started its first round. -/
def start
    (initial : ι → Int) : Transaction ι where
  worker i := .start (initial i)
  manager :=
    { data :=
        { finishedGateOpen := false
          aborted := false
          willCommit := true }
      queue := fun _ => [] }
  signals := []

/- The workers start with any values. -/
def system
    (ι : Type)
    [DecidableEq ι]
    [Fintype ι] : TransitionSystem (Transaction ι) where
  Init s := ∃ initial, s = start initial
  Step := Step

------------------------------------------------------------
-- Agreement
------------------------------------------------------------

/- Some worker has called `Signal_Abort` in the round. -/
def Signalled
    (s : Transaction ι)
    (round : Nat) : Prop :=
  ∃ i, (i, round) ∈ s.signals

/-
  Workers that have read the decision of a round have read
  the same value, which is true exactly if nobody has called
  `Signal_Abort` in this round. A worker between two rounds
  has counted the rounds that have committed.
-/
structure Agreement
    (s : Transaction ι) : Prop where
  same : ∀ i j (round : Nat) commit commit',
    (s.worker i).commits[round]? = some commit →
    (s.worker j).commits[round]? = some commit' →
    commit = commit'
  commits : ∀ i (round : Nat) commit,
    (s.worker i).commits[round]? = some commit →
    (commit = true ↔ ¬ s.Signalled round)
  counted : ∀ i, (s.worker i).position = .starting →
    (s.worker i).num = (s.worker i).initial +
      10 * (s.worker i).commits.count true

------------------------------------------------------------
-- Invariant
------------------------------------------------------------

end Transaction

/- The number the committed rounds lead to. -/
def Worker.total
    (w : Worker) : Int :=
  w.initial + 10 * w.commits.count true

/- The number of times a worker has passed `Finished`. -/
def Worker.passes
    (w : Worker) : Nat :=
  if w.position = .released then w.commits.length + 1
  else w.commits.length

/-
  The variables of a worker at each position. `S` tells in
  which rounds it has called `Signal_Abort`.
-/
def Worker.Sound
    (S : Nat → Prop)
    (w : Worker) : Prop :=
  match w.position with
  | .starting | .adding | .failed =>
      w.num = w.total ∧ w.prev = w.total
  | .signalled =>
      w.num = w.total ∧ w.prev = w.total ∧
        S w.commits.length
  | .added => w.num = w.total + 10 ∧ w.prev = w.total
  | .waiting | .released =>
      w.prev = w.total ∧
        (w.num = w.total + 10 ∨ S w.commits.length)
  | .decided commit =>
      (if commit then w.num else w.prev) = w.total
  | .terminated => True

/- More calls of `Signal_Abort` keep a worker sound. -/
theorem Worker.Sound.mono
    {S S' : Nat → Prop}
    {w : Worker}
    (hSound : w.Sound S)
    (hMono : ∀ r, S r → S' r) :
    w.Sound S' := by
  unfold Worker.Sound at hSound ⊢
  cases hPosition : w.position with
  | signalled =>
      rw [hPosition] at hSound
      exact ⟨hSound.1, hSound.2.1, hMono _ hSound.2.2⟩
  | waiting =>
      rw [hPosition] at hSound
      exact ⟨hSound.1, hSound.2.imp_right (hMono _)⟩
  | released =>
      rw [hPosition] at hSound
      exact ⟨hSound.1, hSound.2.imp_right (hMono _)⟩
  | _ =>
      rw [hPosition] at hSound
      exact hSound

namespace Transaction

variable {ι : Type} [DecidableEq ι] [Fintype ι]

/-
  The gate is closed. All workers have passed it equally
  often, and those that still have to read the decision of
  the last round find it.
-/
structure Between
    (R : Nat)
    (s : Transaction ι) : Prop where
  gate : s.manager.data.finishedGateOpen = false
  passes : ∀ i, (s.worker i).passes = R
  aborted : s.manager.data.aborted = true ↔ s.Signalled R
  bound : ∀ i r, (i, r) ∈ s.signals → r ≤ R
  commit : ∀ i, (s.worker i).position = .released →
    (s.manager.data.willCommit = true ↔
      ¬ s.Signalled (s.worker i).commits.length)

/-
  The workers are passing the gate, which has been opened by
  the first of them.
-/
structure Passing
    (R : Nat)
    (s : Transaction ι) : Prop where
  gate : s.manager.data.finishedGateOpen = true
  nonempty : s.manager.queue .finished ≠ []
  some : s.manager.count .finished < Fintype.card ι
  gathered : ∀ i,
    ((s.worker i).position = .waiting ∨
      (s.worker i).position = .released) ∧
    (s.worker i).commits.length = R
  aborted : s.manager.data.aborted = true ↔ s.Signalled R
  bound : ∀ i r, (i, r) ∈ s.signals → r ≤ R
  commit : s.manager.data.willCommit = true ↔
    ¬ s.Signalled R

/- The workers fit the history, and either all work between
two rounds or the gate lets them pass. -/
structure Inv
    (s : Transaction ι) : Prop where
  sound : ∀ i,
    (s.worker i).Sound fun r => (i, r) ∈ s.signals
  waiting : s.manager.Waiting .finished
    fun i => (s.worker i).position = .waiting
  history : ∀ i (round : Nat) commit,
    (s.worker i).commits[round]? = some commit →
      (commit = true ↔ ¬ s.Signalled round)
  rounds : ∃ R, s.Between R ∨ s.Passing R

section Steps

variable {s s' : Transaction ι}
variable {i : ι}
variable {w : Worker}
variable {R R' : Nat}

omit [Fintype ι] in
/- What holds of the new worker and of the others holds of
all workers. -/
theorem forall_put
    {P : ι → Worker → Prop}
    (hAll : ∀ j, P j (s.worker j))
    (hNew : P i w) :
    ∀ j, P j ((s.put i w).worker j) := by
  intro j
  unfold put
  by_cases hSame : j = i
  · subst hSame
    simpa using hNew
  · simpa [hSame] using hAll j

omit [Fintype ι] in
/- The same workers wait as before. -/
theorem waiting_put
    (hSame : w.position = .waiting ↔
      (s.worker i).position = .waiting) :
    ∀ j, ((s.put i w).worker j).position = .waiting ↔
      (s.worker j).position = .waiting := by
  apply forall_put (P := fun j v =>
    v.position = .waiting ↔
      (s.worker j).position = .waiting)
  · exact fun _ => Iff.rfl
  · exact hSame

omit [Fintype ι] in
/- The decisions that have been read stay the same. -/
theorem history_put
    {Q : Nat → Prop}
    (hHistory : ∀ j (r : Nat) commit,
      (s.worker j).commits[r]? = some commit →
        (commit = true ↔ ¬ Q r))
    (hCommits : w.commits = (s.worker i).commits) :
    ∀ j (r : Nat) commit,
      ((s.put i w).worker j).commits[r]? = some commit →
        (commit = true ↔ ¬ Q r) := by
  apply forall_put (P := fun _ v => ∀ (r : Nat) commit,
    v.commits[r]? = some commit → (commit = true ↔ ¬ Q r))
  · exact hHistory
  · rw [hCommits]
    exact hHistory i

omit [Fintype ι] in
/- The gate stays closed while a worker moves that has not
just passed it. -/
theorem Between.put
    {m : ProtectedObject ι Entry Manager}
    (hBetween : s.Between R)
    (hPasses : w.passes = (s.worker i).passes)
    (hReleased : w.position ≠ .released)
    (hData : m.data = s.manager.data) :
    Between R { s.put i w with manager := m } := by
  constructor
  · rw [hData]
    exact hBetween.gate
  · apply forall_put (P := fun _ v => v.passes = R)
    · exact hBetween.passes
    · rw [hPasses]
      exact hBetween.passes i
  · rw [hData]
    exact hBetween.aborted
  · exact hBetween.bound
  · rw [hData]
    apply forall_put (P := fun _ v =>
      v.position = .released →
        (s.manager.data.willCommit = true ↔
          ¬ s.Signalled v.commits.length))
    · exact hBetween.commit
    · exact fun hAt => absurd hAt hReleased

omit [DecidableEq ι] in
/- While the manager is quiet, the gate is closed. -/
theorem Inv.between
    (hInv : Inv s)
    (hQuiet : s.Quiet) :
    ∃ R, s.Between R := by
  rcases hInv.rounds with ⟨R, hBetween | hPassing⟩
  · exact ⟨R, hBetween⟩
  · apply absurd _ (hQuiet .finished)
    exact ⟨hPassing.nonempty,
      admits_iff.mpr (Or.inl hPassing.gate)⟩

omit [DecidableEq ι] in
/- A worker that is neither waiting nor before the call of
`Commit` is not passing the gate. -/
theorem Inv.between_of_position
    (hInv : Inv s)
    (hWaiting : (s.worker i).position ≠ .waiting)
    (hReleased : (s.worker i).position ≠ .released) :
    ∃ R, s.Between R := by
  rcases hInv.rounds with ⟨R, hBetween | hPassing⟩
  · exact ⟨R, hBetween⟩
  · rcases (hPassing.gathered i).1 with hAt | hAt
    · exact absurd hAt hWaiting
    · exact absurd hAt hReleased

/-
  A step that only moves one worker, outside the gate and
  within its round.
-/
theorem Inv.move
    (hInv : Inv s)
    (hWaiting : (s.worker i).position ≠ .waiting)
    (hReleased : (s.worker i).position ≠ .released)
    (hWaiting' : w.position ≠ .waiting)
    (hReleased' : w.position ≠ .released)
    (hCommits : w.commits = (s.worker i).commits)
    (hSound : w.Sound fun r => (i, r) ∈ s.signals) :
    Inv (s.put i w) := by
  rcases hInv.between_of_position hWaiting hReleased with
    ⟨R, hBetween⟩
  have hPasses : w.passes = (s.worker i).passes := by
    unfold Worker.passes
    rw [if_neg hReleased, if_neg hReleased', hCommits]
  refine ⟨forall_put hInv.sound hSound, ?_,
    history_put hInv.history hCommits,
    R, Or.inl (hBetween.put hPasses hReleased' rfl)⟩
  exact hInv.waiting.congr rfl
    (waiting_put (iff_of_false hWaiting' hWaiting))

omit [DecidableEq ι] [Fintype ι] in
theorem signalled_append :
    (∃ j, (j, R') ∈ s.signals ++ [(i, R)]) ↔
      s.Signalled R' ∨ R' = R := by
  unfold Signalled
  constructor
  · rintro ⟨j, hMem⟩
    rcases List.mem_append.mp hMem with hOld | hNew
    · exact Or.inl ⟨j, hOld⟩
    · exact Or.inr (Prod.mk.inj
        (List.mem_singleton.mp hNew)).2
  · rintro (⟨j, hOld⟩ | rfl)
    · exact ⟨j, List.mem_append_left _ hOld⟩
    · exact ⟨i, List.mem_append_right _
        (List.mem_singleton_self _)⟩

omit [DecidableEq ι] [Fintype ι] in
/- Nobody has read the decision of the current round. -/
theorem Between.lt_of_read
    {commit : Bool}
    (hBetween : s.Between R)
    (hRead : (s.worker i).commits[R']? = some commit) :
    R' < R := by
  rcases List.getElem?_eq_some_iff.mp hRead with ⟨hLt, _⟩
  have hPasses := hBetween.passes i
  unfold Worker.passes at hPasses
  split_ifs at hPasses
  · omega
  · omega

omit [DecidableEq ι] [Fintype ι] in
/- A worker that is not at the gate is in the current
round. -/
theorem Between.length_commits
    (hBetween : s.Between R)
    (hReleased : (s.worker i).position ≠ .released) :
    (s.worker i).commits.length = R := by
  have hPasses := hBetween.passes i
  unfold Worker.passes at hPasses
  rwa [if_neg hReleased] at hPasses

omit [DecidableEq ι] [Fintype ι] in
theorem Between.length_lt
    (hBetween : s.Between R)
    (hReleased : (s.worker i).position = .released) :
    (s.worker i).commits.length < R := by
  have hPasses := hBetween.passes i
  unfold Worker.passes at hPasses
  rw [if_pos hReleased] at hPasses
  omega

/- A call of `Signal_Abort` comes from the current round. -/
theorem inv_signalAbort
    (hInv : Inv s)
    (hQuiet : s.Quiet)
    (hAt : (s.worker i).position = .failed) :
    Inv { s.put i
          { s.worker i with position := .signalled } with
      manager :=
        { s.manager with
          data := { s.manager.data with aborted := true } }
      signals :=
        s.signals ++ [(i, (s.worker i).commits.length)] } := by
  rcases hInv.between hQuiet with ⟨R, hBetween⟩
  have hRound : (s.worker i).commits.length = R :=
    hBetween.length_commits (by simp [hAt])
  have hSound := hInv.sound i
  unfold Worker.Sound at hSound
  rw [hAt] at hSound
  rw [hRound]
  refine ⟨?_, ?_, ?_, R, Or.inl ⟨?_, ?_, ?_, ?_, ?_⟩⟩
  · apply forall_put (P := fun j v =>
      v.Sound fun r => (j, r) ∈ s.signals ++ [(i, R)])
    · exact fun j => (hInv.sound j).mono fun _ =>
        List.mem_append_left _
    · refine ⟨hSound.1, hSound.2, ?_⟩
      rw [← hRound]
      exact List.mem_append_right _
        (List.mem_singleton_self _)
  · exact hInv.waiting.congr rfl
      (waiting_put (iff_of_false (by simp) (by simp [hAt])))
  · have hOld : ∀ j (r : Nat) commit,
        (s.worker j).commits[r]? = some commit →
        (commit = true ↔
          ¬ ∃ k, (k, r) ∈ s.signals ++ [(i, R)]) := by
      intro j r commit hRead
      have hLt := hBetween.lt_of_read hRead
      rw [signalled_append, hInv.history j r commit hRead]
      simp [hLt.ne]
    exact history_put hOld rfl
  · exact hBetween.gate
  · apply forall_put (P := fun _ v => v.passes = R)
    · exact hBetween.passes
    · rw [← hRound]
      unfold Worker.passes
      rw [if_neg (by simp)]
  · exact iff_of_true rfl (signalled_append.mpr (Or.inr rfl))
  · intro j r hMem
    rcases List.mem_append.mp hMem with hOld | hNew
    · exact hBetween.bound j r hOld
    · have hSame := (Prod.mk.inj
        (List.mem_singleton.mp hNew)).2
      omega
  · apply forall_put (P := fun _ v =>
      v.position = .released →
        (s.manager.data.willCommit = true ↔
          ¬ ∃ k, (k, v.commits.length) ∈
            s.signals ++ [(i, R)]))
    · intro j hReleased
      have hLt := hBetween.length_lt hReleased
      rw [signalled_append, hBetween.commit j hReleased]
      simp [hLt.ne]
    · intro hReleased
      simp at hReleased

omit [DecidableEq ι] in
/- No call is admitted at once: the queue would have to be
full, or the gate open. -/
theorem not_admits
    (i : ι)
    (hInv : Inv s)
    (hQuiet : s.Quiet) :
    ¬ s.manager.Admits
      (managerType (Fintype.card ι)) .finished := by
  intro hAdmits
  rcases hInv.between hQuiet with ⟨R, hBetween⟩
  have hEmpty : s.manager.queue .finished = [] := by
    by_contra hNonempty
    exact hQuiet .finished ⟨hNonempty, hAdmits⟩
  have hPos : 0 < Fintype.card ι :=
    Fintype.card_pos_iff.mpr ⟨i⟩
  have hCount : s.manager.count .finished = 0 := by
    unfold ProtectedObject.count
    rw [hEmpty]
    rfl
  rw [admits_iff, hBetween.gate, hCount] at hAdmits
  rcases hAdmits with hGate | hFull
  · simp at hGate
  · omega

theorem inv_call
    (hInv : Inv s)
    (hQuiet : s.Quiet)
    (hAt : (s.worker i).position = .added ∨
      (s.worker i).position = .signalled) :
    Inv { s.put i
          { s.worker i with position := .waiting } with
      manager := s.manager.enqueue .finished i } := by
  rcases hInv.between hQuiet with ⟨R, hBetween⟩
  have hWaiting : (s.worker i).position ≠ .waiting := by
    rcases hAt with hAt | hAt
    · simp [hAt]
    · simp [hAt]
  have hReleased : (s.worker i).position ≠ .released := by
    rcases hAt with hAt | hAt
    · simp [hAt]
    · simp [hAt]
  have hPasses :
      ({ s.worker i with position := .waiting } :
        Worker).passes = (s.worker i).passes := by
    unfold Worker.passes
    rw [if_neg hReleased, if_neg (by simp)]
  refine ⟨?_, ?_, history_put hInv.history rfl,
    R, Or.inl (hBetween.put hPasses (by simp) rfl)⟩
  · apply forall_put (P := fun j v =>
      v.Sound fun r => (j, r) ∈ s.signals)
    · exact hInv.sound
    · have hSound := hInv.sound i
      unfold Worker.Sound at hSound ⊢
      rcases hAt with hAt | hAt
      · rw [hAt] at hSound
        exact ⟨hSound.2, Or.inl hSound.1⟩
      · rw [hAt] at hSound
        exact ⟨hSound.2.1, Or.inr hSound.2.2⟩
  · apply hInv.waiting.enqueue hWaiting
    intro j
    unfold put
    by_cases hSame : j = i
    · subst hSame
      simp
    · simp [hSame]

/-
  All workers are at the gate, and either the first is about
  to pass it, or the decision of the round has been made.
-/
structure Gathered
    (R : Nat)
    (s : Transaction ι) : Prop where
  all : ∀ i,
    ((s.worker i).position = .waiting ∨
      (s.worker i).position = .released) ∧
    (s.worker i).commits.length = R
  aborted : s.manager.data.aborted = true ↔ s.Signalled R
  bound : ∀ i r, (i, r) ∈ s.signals → r ≤ R
  first : s.manager.count .finished = Fintype.card ι ∨
    (s.manager.data.finishedGateOpen = true ∧
      s.manager.count .finished < Fintype.card ι ∧
      (s.manager.data.willCommit = true ↔
        ¬ s.Signalled R))

/- A call is served only when all workers are at the gate. -/
theorem Inv.gathered
    (hInv : Inv s)
    (hOpen : s.manager.Open
      (managerType (Fintype.card ι)) .finished) :
    ∃ R, Gathered R s := by
  rcases hInv.rounds with ⟨R, hBetween | hPassing⟩
  · have hFull : s.manager.count .finished =
        Fintype.card ι := by
      rcases admits_iff.mp hOpen.2 with hGate | hFull
      · rw [hBetween.gate] at hGate
        simp at hGate
      · exact hFull
    have hWaiting := hInv.waiting.all_of_count hFull
    refine ⟨R, ?_, hBetween.aborted, hBetween.bound,
      Or.inl hFull⟩
    intro j
    exact ⟨Or.inl (hWaiting j),
      hBetween.length_commits (by simp [hWaiting j])⟩
  · exact ⟨R, hPassing.gathered, hPassing.aborted,
      hPassing.bound,
      Or.inr ⟨hPassing.gate, hPassing.some,
        hPassing.commit⟩⟩

section Serve

variable {m : ProtectedObject ι Entry Manager}

/- The last worker closes the gate, and the round is over. -/
theorem between_of_last
    (hGathered : Gathered R s)
    (hOthers : ∀ j, j ≠ i →
      (s.worker j).position = .released)
    (hGate : m.data.finishedGateOpen = false)
    (hAborted : m.data.aborted = false)
    (hCommit : m.data.willCommit = true ↔ ¬ s.Signalled R) :
    Between (R + 1)
      { s.put i { s.worker i with position := .released } with
        manager := m } := by
  refine ⟨hGate, ?_, ?_, ?_, ?_⟩
  · intro j
    unfold put Worker.passes
    by_cases hSame : j = i
    · subst hSame
      simp [(hGathered.all j).2]
    · simp [hSame, hOthers j hSame, (hGathered.all j).2]
  · refine iff_of_false (by simp [hAborted]) ?_
    rintro ⟨j, hMem⟩
    have hLe := hGathered.bound j _ hMem
    omega
  · intro j r hMem
    have hLe := hGathered.bound j r hMem
    omega
  · apply forall_put (P := fun _ v =>
      v.position = .released →
        (m.data.willCommit = true ↔
          ¬ s.Signalled v.commits.length))
    · intro j _
      rw [(hGathered.all j).2]
      exact hCommit
    · intro _
      rw [(hGathered.all i).2]
      exact hCommit

/- The others find the gate open. -/
theorem passing_of_rest
    (hGathered : Gathered R s)
    (hNonempty : m.queue .finished ≠ [])
    (hSome : m.count .finished < Fintype.card ι)
    (hGate : m.data.finishedGateOpen = true)
    (hAborted : m.data.aborted = s.manager.data.aborted)
    (hCommit : m.data.willCommit = true ↔ ¬ s.Signalled R) :
    Passing R
      { s.put i { s.worker i with position := .released } with
        manager := m } := by
  refine ⟨hGate, hNonempty, hSome, ?_, ?_,
    hGathered.bound, hCommit⟩
  · apply forall_put (P := fun _ v =>
      (v.position = .waiting ∨ v.position = .released) ∧
        v.commits.length = R)
    · exact hGathered.all
    · exact ⟨Or.inr rfl, (hGathered.all i).2⟩
  · change m.data.aborted = true ↔ s.Signalled R
    rw [hAborted]
    exact hGathered.aborted

omit [DecidableEq ι] in
/- What the manager is after the body for the first of its
queue. -/
theorem data_serve
    {rest : List ι}
    (hGathered : Gathered R s)
    (hQueue : s.manager.queue .finished = i :: rest) :
    (s.manager.serve
        (managerType (Fintype.card ι)) .finished).data =
      { finishedGateOpen := decide (rest.length ≠ 0)
        aborted := decide (rest.length ≠ 0) &&
          s.manager.data.aborted
        willCommit := !s.manager.data.aborted &&
          (decide (rest.length = Fintype.card ι - 1) ||
            s.manager.data.willCommit) } := by
  have hCount : s.manager.count .finished =
      rest.length + 1 := by
    unfold ProtectedObject.count
    rw [hQueue]
    rfl
  rw [← finishedBody_eq]
  · change finishedBody _ (List.length _) _ = _
    simp [hQueue]
  · rcases hGathered.first with hFull | ⟨hGate, _⟩
    · left
      omega
    · exact Or.inr hGate

omit [DecidableEq ι] in
/- The decision of the round. -/
theorem willCommit_iff
    {rest : List ι}
    (hGathered : Gathered R s)
    (hQueue : s.manager.queue .finished = i :: rest) :
    (!s.manager.data.aborted &&
        (decide (rest.length = Fintype.card ι - 1) ||
          s.manager.data.willCommit)) = true ↔
      ¬ s.Signalled R := by
  rw [← hGathered.aborted]
  rcases hGathered.first with hFull | ⟨_, _, hDecided⟩
  · have hFirst : rest.length = Fintype.card ι - 1 := by
      unfold ProtectedObject.count at hFull
      rw [hQueue, List.length_cons] at hFull
      omega
    simp [hFirst]
  · rw [← hGathered.aborted] at hDecided
    cases hAborted : s.manager.data.aborted with
    | false =>
        rw [hAborted] at hDecided
        simp [hDecided.mpr (by simp)]
    | true => simp

/- The first worker of the queue passes the gate. -/
theorem inv_serve
    {rest : List ι}
    (hInv : Inv s)
    (hQueue : s.manager.queue .finished = i :: rest)
    (hOpen : s.manager.Open
      (managerType (Fintype.card ι)) .finished) :
    Inv { s.put i
          { s.worker i with position := .released } with
      manager := s.manager.serve
        (managerType (Fintype.card ι)) .finished } := by
  rcases hInv.gathered hOpen with ⟨R, hGathered⟩
  have hAt : (s.worker i).position = .waiting := by
    rw [← hInv.waiting.mem_iff, hQueue]
    exact List.mem_cons_self
  have hData := data_serve hGathered hQueue
  have hCommit := willCommit_iff hGathered hQueue
  have hRest : (s.manager.serve
      (managerType (Fintype.card ι)) .finished).queue
        .finished = rest := by
    unfold ProtectedObject.serve ProtectedObject.execute
    simp [hQueue]
  have hLt : rest.length < Fintype.card ι := by
    have hLe := hInv.waiting.count_le
    unfold ProtectedObject.count at hLe
    rw [hQueue, List.length_cons] at hLe
    omega
  have hWaiting : (s.manager.serve
      (managerType (Fintype.card ι)) .finished).Waiting
        .finished fun j => ((s.put i
          { s.worker i with
            position := .released }).worker j).position =
              .waiting := by
    apply hInv.waiting.serve hQueue
    intro j
    unfold put
    by_cases hSame : j = i
    · subst hSame
      simp
    · simp [hSame]
  generalize s.manager.serve
    (managerType (Fintype.card ι)) .finished = m at *
  have hDecision :
      m.data.willCommit = true ↔ ¬ s.Signalled R := by
    rw [hData]
    exact hCommit
  refine ⟨?_, hWaiting, history_put hInv.history rfl, ?_⟩
  · apply forall_put (P := fun j v =>
      v.Sound fun r => (j, r) ∈ s.signals)
    · exact hInv.sound
    · have hSound := hInv.sound i
      unfold Worker.Sound at hSound
      rw [hAt] at hSound
      exact hSound
  by_cases hLast : rest = []
  · refine ⟨R + 1, Or.inl (between_of_last hGathered ?_ ?_
      ?_ hDecision)⟩
    · intro j hNe
      rcases (hGathered.all j).1 with hWaits | hReleased
      · rw [← hInv.waiting.mem_iff, hQueue, hLast] at hWaits
        exact absurd (List.mem_singleton.mp hWaits) hNe
      · exact hReleased
    · rw [hData, hLast]
      rfl
    · rw [hData, hLast]
      rfl
  · have hPos : rest.length ≠ 0 :=
      fun h => hLast (List.length_eq_zero_iff.mp h)
    refine ⟨R, Or.inr (passing_of_rest hGathered ?_ ?_ ?_
      ?_ hDecision)⟩
    · rw [hRest]
      exact hLast
    · unfold ProtectedObject.count
      rw [hRest]
      exact hLt
    · rw [hData]
      exact decide_eq_true hPos
    · rw [hData]
      simp [hPos]

end Serve

/- A worker reads the decision of its round. -/
theorem inv_commit
    (hInv : Inv s)
    (hQuiet : s.Quiet)
    (hAt : (s.worker i).position = .released) :
    Inv (s.put i
      { s.worker i with
        position := .decided s.manager.data.willCommit
        commits := (s.worker i).commits ++
          [s.manager.data.willCommit] }) := by
  rcases hInv.between hQuiet with ⟨R, hBetween⟩
  have hDecision := hBetween.commit i hAt
  have hSound := hInv.sound i
  unfold Worker.Sound at hSound
  rw [hAt] at hSound
  have hPasses :
      ({ s.worker i with
          position := .decided s.manager.data.willCommit
          commits := (s.worker i).commits ++
            [s.manager.data.willCommit] } : Worker).passes =
        (s.worker i).passes := by
    unfold Worker.passes
    rw [if_pos hAt, if_neg (by simp)]
    simp
  refine ⟨?_, ?_, ?_,
    R, Or.inl (hBetween.put hPasses (by simp) rfl)⟩
  · apply forall_put (P := fun j v =>
      v.Sound fun r => (j, r) ∈ s.signals)
    · exact hInv.sound
    · rcases hSound with ⟨hPrev, hNum⟩
      unfold Worker.Sound Worker.total at *
      cases hCommit : s.manager.data.willCommit with
      | false => simpa using hPrev
      | true =>
          -- nobody has failed, so this worker has added 10
          have hNone := hDecision.mp hCommit
          have hAdded := hNum.resolve_right
            fun hSignal => hNone ⟨i, hSignal⟩
          simp only [if_true, List.count_append,
            List.count_singleton_self]
          omega
  · exact hInv.waiting.congr rfl
      (waiting_put (iff_of_false (by simp) (by simp [hAt])))
  · apply forall_put (P := fun j v => ∀ (r : Nat) commit,
      v.commits[r]? = some commit →
        (commit = true ↔ ¬ s.Signalled r))
    · exact hInv.history
    · exact forall_concat (hInv.history i) hDecision

theorem inv_of_step
    (hInv : Inv s)
    (hStep : Step s s') :
    Inv s' := by
  cases hStep with
  | start i hAt hRound =>
      have hSound := hInv.sound i
      unfold Worker.Sound at hSound
      rw [hAt] at hSound
      exact hInv.move (by simp [hAt]) (by simp [hAt])
        (by simp) (by simp) rfl hSound
  | startFails i hAt hRound =>
      exact hInv.move (by simp [hAt]) (by simp [hAt])
        (by simp) (by simp) rfl trivial
  | add i sum hAt hSum =>
      have hSound := hInv.sound i
      unfold Worker.Sound at hSound
      rw [hAt] at hSound
      have hAdded : sum = (s.worker i).num + 10 := by
        unfold slowAdd at hSum
        split_ifs at hSum
        have hEq := Option.some.inj hSum
        omega
      refine hInv.move (by simp [hAt]) (by simp [hAt])
        (by simp) (by simp) rfl ⟨?_, hSound.2⟩
      change sum = (s.worker i).total + 10
      rw [hAdded, hSound.1]
  | addFails i hAt hSum =>
      exact hInv.move (by simp [hAt]) (by simp [hAt])
        (by simp) (by simp) rfl trivial
  | countFailed i hAt =>
      have hSound := hInv.sound i
      unfold Worker.Sound at hSound
      rw [hAt] at hSound
      exact hInv.move (by simp [hAt]) (by simp [hAt])
        (by simp) (by simp) rfl hSound
  | signalAbort i hQuiet hAt =>
      exact inv_signalAbort hInv hQuiet hAt
  | admitFinished i hQuiet hAt hOpen =>
      exact absurd hOpen (not_admits i hInv hQuiet)
  | call i hQuiet hAt hClosed =>
      exact inv_call hInv hQuiet hAt
  | serve i rest hQueue hOpen =>
      exact inv_serve hInv hQueue hOpen
  | commit i hQuiet hAt => exact inv_commit hInv hQuiet hAt
  | finish i commit hAt =>
      have hSound := hInv.sound i
      unfold Worker.Sound at hSound
      rw [hAt] at hSound
      exact hInv.move (by simp [hAt]) (by simp [hAt])
        (by simp) (by simp) rfl ⟨hSound, hSound⟩

omit [DecidableEq ι] in
theorem inv_start
    (initial : ι → Int) :
    Inv (start initial) := by
  refine ⟨?_, ⟨List.nodup_nil, ?_⟩, ?_, 0, Or.inl
    ⟨rfl, fun _ => rfl, ?_, ?_, ?_⟩⟩
  · intro i
    have hTotal : (Worker.start (initial i)).total =
        initial i := by
      unfold Worker.total Worker.start
      simp
    exact ⟨hTotal.symm, hTotal.symm⟩
  · intro i
    exact iff_of_false List.not_mem_nil
      (by simp [start, Worker.start])
  · intro i round commit hRead
    cases hRead
  · refine iff_of_false (by simp [start]) ?_
    rintro ⟨i, hMem⟩
    cases hMem
  · intro i r hMem
    cases hMem
  · intro i hAt
    cases hAt

theorem inv_of_reachable
    (hReach : (system ι).Reachable s) :
    Inv s := by
  apply hReach.invariant
  · rintro _ ⟨initial, rfl⟩
    exact inv_start initial
  · exact fun _ _ => inv_of_step

/- In every run the workers agree on every round. -/
theorem sameDecisions
    (hReach : (system ι).Reachable s) :
    Agreement s := by
  have hInv := inv_of_reachable hReach
  constructor
  · intro i j round commit commit' hRead hRead'
    rw [Bool.eq_iff_iff, hInv.history i round commit hRead,
      hInv.history j round commit' hRead']
  · exact hInv.history
  · intro i hAt
    have hSound := hInv.sound i
    unfold Worker.Sound at hSound
    rw [hAt] at hSound
    exact hSound.1

end Steps

/- Two workers that start with 0 and 1. -/
def twoWorkers : Transaction (Fin 2) :=
  start fun i => i.val

/- The second of two workers fails, and the first one, which
has added 10, reverts to 0. -/
theorem sameDecisions_twoWorkers :
    ∃ s : Transaction (Fin 2),
      (system (Fin 2)).Reachable s ∧ Agreement s ∧
        (s.worker 0).commits = [false] ∧
        (s.worker 0).num = 0 := by
  have h₀ : (system (Fin 2)).Reachable twoWorkers :=
    TransitionSystem.Reachable.init ⟨_, rfl⟩
  -- the first worker adds and waits
  have h₁ := h₀.step (Step.start _ 0 rfl (by decide))
  have h₂ := h₁.step (Step.add _ 0 10 rfl (by decide))
  have h₃ := h₂.step (Step.call _ 0
    (by rintro ⟨⟩; decide) (Or.inl rfl) (by decide))
  -- the second one fails and waits
  have h₄ := h₃.step (Step.start _ 1 rfl (by decide))
  have h₅ := h₄.step (Step.countFailed _ 1 rfl)
  have h₆ := h₅.step (Step.signalAbort _ 1
    (by rintro ⟨⟩; decide) rfl)
  have h₇ := h₆.step (Step.call _ 1
    (by rintro ⟨⟩; decide) (Or.inr rfl) (by decide))
  -- both pass, and the first one reads the decision
  have h₈ := h₇.step (Step.serve _ 0 [1] rfl (by decide))
  have h₉ := h₈.step (Step.serve _ 1 [] rfl (by decide))
  have h₁₀ := h₉.step (Step.commit _ 0
    (by rintro ⟨⟩; decide) rfl)
  have h₁₁ := h₁₀.step (Step.finish _ 0 false rfl)
  exact ⟨_, h₁₁, sameDecisions h₁₁, by decide, by decide⟩

end Transaction

end Exercise7

end ElevatorControl
