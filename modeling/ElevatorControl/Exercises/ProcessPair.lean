import Mathlib.Data.Int.Order.Basic
import ElevatorControl.Driver
import ElevatorControl.Library.TransitionSystem

/-
  Exercise 6: a primary that counts, and a listener that
  takes over when it is silent.

  A listener that has waited too long for a packet kills its
  primary, waits for its end, and forks the next one behind
  the last number it has received. Any process may die at any
  moment, the program may be started several times, and a
  packet may get lost or be read late, even several times.

  An increment beyond `INT_MAX` is undefined. A run is
  followed up to there.

  Key definitions include:
    * `Exercise6.Process`
    * `Exercise6.Step`
    * `Exercise6.Counted`
    * `Exercise6.Parented`

  Key theorems include:
    * `Exercise6.counted_of_step`
    * `Exercise6.parented_of_step`
-/

------------------------------------------------------------
-- Processes
------------------------------------------------------------

namespace ElevatorControl

namespace Exercise6

/- Where a listener is: in its loop, behind it, or before the
fork. -/
inductive ListenerPhase where
  | receiving
  | expired
  | ready
  deriving DecidableEq, Repr

/- Where a primary is: at the test of its loop, before the
packet is sent, or behind that. -/
inductive PrimaryPhase where
  | counting
  | sending
  | sleeping
  deriving DecidableEq, Repr

/-
  What runs under a process number. A listener holds the
  number of its child, or zero, and what it has received; a
  primary its counter. A child that has died remains until
  its parent has waited for it.
-/
inductive Process where
  | free
  | listener (childPid : Nat) (x : Int)
      (phase : ListenerPhase)
  | primary (parent : Option Nat) (i : Int)
      (phase : PrimaryPhase)
  | zombie (parent : Nat)
  deriving DecidableEq, Repr

/- The parent of the process, as long as it lives. -/
def Process.parent? : Process → Option Nat
  | .primary parent _ _ => parent
  | .zombie parent => some parent
  | _ => none

/- The parent `p` has died. -/
def Process.orphan
    (p : Nat)
    (process : Process) : Process :=
  if process.parent? = some p then
    match process with
    | .primary _ i phase => .primary none i phase
    | _ => .free
  else process

/- The processes, the numbers that have been sent, and those
that have been printed, in order. -/
structure State where
  process : Nat → Process
  sent : List Int
  printed : List Int

namespace State

/- The state with another process at a number. -/
def put
    (s : State)
    (p : Nat)
    (process : Process) : State :=
  { s with process := Function.update s.process p process }

/- A child dies. -/
def die
    (s : State)
    (q : Nat)
    (parent : Option Nat) : State :=
  match parent with
  | some p => s.put q (.zombie p)
  | none => s.put q .free

/- The child has been killed and waited for. -/
def reap
    (s : State)
    (childPid : Nat) : State :=
  if childPid ≠ 0 then s.put childPid .free else s

/- A listener dies, and leaves its children behind. -/
def orphaned
    (s : State)
    (p : Nat) : State :=
  { s with process := fun q =>
      if q = p then .free else (s.process q).orphan p }

end State

/- The steps of all processes. The system picks the number
of a new process, and any process may die. -/
inductive Step : State → State → Prop where
  | start
      (s : State)
      (p : Nat)
      (hPid : p ≠ 0)
      (hFree : s.process p = .free) :
      Step s (s.put p (.listener 0 0 .receiving))
  | receive
      (s : State)
      (p childPid : Nat)
      (x v : Int)
      (hListener :
        s.process p = .listener childPid x .receiving)
      (hSent : v ∈ s.sent) :
      Step s (s.put p (.listener childPid v .receiving))
  | timeout
      (s : State)
      (p childPid : Nat)
      (x : Int)
      (hListener :
        s.process p = .listener childPid x .receiving) :
      Step s (s.put p (.listener childPid x .expired))
  | kill
      (s : State)
      (p childPid : Nat)
      (x : Int)
      (hListener :
        s.process p = .listener childPid x .expired) :
      Step s ((s.reap childPid).put p
        (.listener childPid x .ready))
  | fork
      (s : State)
      (p q childPid : Nat)
      (x : Int)
      (hListener :
        s.process p = .listener childPid x .ready)
      (hPid : q ≠ 0)
      (hFree : s.process q = .free)
      (hRange : x < intMax) :
      Step s ((s.put q (.primary (some p) (x + 1) .counting)).put p
        (.listener q 0 .receiving))
  | forkFails
      (s : State)
      (p childPid : Nat)
      (x : Int)
      (hListener :
        s.process p = .listener childPid x .ready) :
      Step s (s.orphaned p)
  | print
      (s : State)
      (q : Nat)
      (parent : Option Nat)
      (i : Int)
      (hPrimary : s.process q = .primary parent i .counting)
      (hLoop : 0 < i) :
      Step s { s.put q (.primary parent i .sending) with
        printed := s.printed ++ [i] }
  | send
      (s : State)
      (q : Nat)
      (parent : Option Nat)
      (i : Int)
      (hPrimary : s.process q = .primary parent i .sending) :
      Step s { s.put q (.primary parent i .sleeping) with
        sent := i :: s.sent }
  | next
      (s : State)
      (q : Nat)
      (parent : Option Nat)
      (i : Int)
      (hPrimary : s.process q = .primary parent i .sleeping)
      (hRange : i < intMax) :
      Step s (s.put q (.primary parent (i + 1) .counting))
  | leave
      (s : State)
      (q : Nat)
      (parent : Option Nat)
      (i : Int)
      (hPrimary : s.process q = .primary parent i .counting)
      (hLoop : ¬ 0 < i) :
      Step s (s.die q parent)
  | primaryDies
      (s : State)
      (q : Nat)
      (parent : Option Nat)
      (i : Int)
      (phase : PrimaryPhase)
      (hPrimary : s.process q = .primary parent i phase) :
      Step s (s.die q parent)
  | listenerDies
      (s : State)
      (p childPid : Nat)
      (x : Int)
      (phase : ListenerPhase)
      (hListener : s.process p = .listener childPid x phase) :
      Step s (s.orphaned p)

/- No process runs. -/
def initial : State where
  process _ := .free
  sent := []
  printed := []

/- The processes from the start of the first one. -/
def system : TransitionSystem State where
  Init s := s = initial
  Step := Step

------------------------------------------------------------
-- Counting
------------------------------------------------------------

/- All numbers up to `i` have been printed. -/
def Covers
    (printed : List Int)
    (i : Int) : Prop :=
  ∀ j, 1 ≤ j → j ≤ i → j ∈ printed

/- What a process knows has been printed. -/
def Process.Counts
    (printed : List Int) : Process → Prop
  | .listener _ x _ => 0 ≤ x ∧ Covers printed x
  | .primary _ i .counting => 1 ≤ i ∧ Covers printed (i - 1)
  | .primary _ i _ => 1 ≤ i ∧ Covers printed i
  | _ => True

/- No number is printed or known of before those below it
have been printed. -/
structure Counted
    (s : State) : Prop where
  processes : ∀ p, (s.process p).Counts s.printed
  sent : ∀ v ∈ s.sent, 1 ≤ v ∧ Covers s.printed v
  printed : ∀ before i after,
    s.printed = before ++ i :: after →
      1 ≤ i ∧ Covers before (i - 1)

section Counting

variable {s s' : State}
variable {printed more : List Int}

theorem Covers.zero :
    Covers printed 0 := by
  intro j hLow hHigh
  omega

theorem Covers.mono
    {i : Int}
    (hCovers : Covers printed i) :
    Covers (printed ++ more) i :=
  fun j hLow hHigh =>
    List.mem_append_left more (hCovers j hLow hHigh)

/- The next number has been printed. -/
theorem Covers.next
    {i : Int}
    (hCovers : Covers printed (i - 1)) :
    Covers (printed ++ [i]) i := by
  intro j hLow hHigh
  by_cases hSame : j = i
  · rw [hSame]
    exact List.mem_append_right printed
      (List.mem_singleton_self i)
  · exact List.mem_append_left [i]
      (hCovers j hLow (by omega))

/- A primary at its loop has all before its number printed. -/
theorem Process.counts_counting
    {parent : Option Nat}
    {x : Int}
    (hLow : 0 ≤ x)
    (hCovers : Covers printed x) :
    (Process.primary parent (x + 1) .counting).Counts
      printed := by
  have hBack : x + 1 - 1 = x := by
    omega
  have hNext : 1 ≤ x + 1 := by
    omega
  refine ⟨hNext, ?_⟩
  rw [hBack]
  exact hCovers

theorem Process.Counts.mono
    {process : Process}
    (hCounts : process.Counts printed) :
    process.Counts (printed ++ more) := by
  cases process with
  | free => trivial
  | listener childPid x phase =>
      exact ⟨hCounts.1, hCounts.2.mono⟩
  | primary parent i phase =>
      cases phase with
      | counting => exact ⟨hCounts.1, hCounts.2.mono⟩
      | sending => exact ⟨hCounts.1, hCounts.2.mono⟩
      | sleeping => exact ⟨hCounts.1, hCounts.2.mono⟩
  | zombie parent => trivial

theorem Process.Counts.orphan
    {process : Process}
    (p : Nat)
    (hCounts : process.Counts printed) :
    (process.orphan p).Counts printed := by
  unfold Process.orphan
  split
  · cases process with
    | free => trivial
    | listener childPid x phase => trivial
    | primary parent i phase =>
        cases phase with
        | counting => exact hCounts
        | sending => exact hCounts
        | sleeping => exact hCounts
    | zombie parent => trivial
  · exact hCounts

/- A process has changed. -/
theorem Counted.put
    {p : Nat}
    {process : Process}
    (hCounted : Counted s)
    (hCounts : process.Counts s.printed) :
    Counted (s.put p process) := by
  refine { hCounted with processes := ?_ }
  intro q
  change (Function.update s.process p process q).Counts _
  by_cases hSame : q = p
  · rw [hSame, Function.update_self]
    exact hCounts
  · rw [Function.update_of_ne hSame]
    exact hCounted.processes q

theorem Counted.die
    {q : Nat}
    {parent : Option Nat}
    (hCounted : Counted s) :
    Counted (s.die q parent) := by
  cases parent with
  | none => exact hCounted.put trivial
  | some p => exact hCounted.put trivial

theorem Counted.reap
    {childPid : Nat}
    (hCounted : Counted s) :
    Counted (s.reap childPid) := by
  unfold State.reap
  split
  · exact hCounted.put trivial
  · exact hCounted

theorem Counted.orphaned
    (p : Nat)
    (hCounted : Counted s) :
    Counted (s.orphaned p) := by
  refine { hCounted with processes := ?_ }
  intro q
  change (if q = p then Process.free
    else (s.process q).orphan p).Counts s.printed
  split
  · trivial
  · exact (hCounted.processes q).orphan p

/- A primary prints its number. -/
theorem Counted.print
    {q : Nat}
    {parent : Option Nat}
    {i : Int}
    (hCounted : Counted s)
    (hPrimary : s.process q = .primary parent i .counting) :
    Counted { s.put q (.primary parent i .sending) with
      printed := s.printed ++ [i] } := by
  have hCounts := hCounted.processes q
  rw [hPrimary] at hCounts
  refine ⟨?_, ?_, ?_⟩
  · intro p
    change (Function.update s.process q
      (.primary parent i .sending) p).Counts
        (s.printed ++ [i])
    by_cases hSame : p = q
    · rw [hSame, Function.update_self]
      exact ⟨hCounts.1, hCounts.2.next⟩
    · rw [Function.update_of_ne hSame]
      exact (hCounted.processes p).mono
  · exact fun v hv =>
      ⟨(hCounted.sent v hv).1, (hCounted.sent v hv).2.mono⟩
  · intro before j after hSplit
    change s.printed ++ [i] = before ++ j :: after at hSplit
    rcases List.eq_nil_or_concat after with
      hNil | ⟨rest, last, hLast⟩
    · rw [hNil] at hSplit
      rcases List.append_inj' hSplit rfl with ⟨hSame, hNew⟩
      cases hNew
      rw [← hSame]
      exact hCounts
    · have hShift : s.printed ++ [i] =
          (before ++ j :: rest) ++ [last] := by
        rw [hSplit, hLast, List.concat_eq_append,
          List.append_assoc, List.cons_append]
      exact hCounted.printed before j rest
        (List.append_inj' hShift rfl).1

theorem counted_initial :
    Counted initial := by
  refine ⟨fun p => trivial, ?_, ?_⟩
  · intro v hv
    cases hv
  · intro before i after hSplit
    cases before with
    | nil => cases hSplit
    | cons first rest => cases hSplit

theorem counted_of_step
    (hCounted : Counted s)
    (hStep : Step s s') :
    Counted s' := by
  have hProcess := hCounted.processes
  cases hStep with
  | start p hPid hFree =>
      exact hCounted.put ⟨Int.le_refl 0, Covers.zero⟩
  | receive p childPid x v hListener hSent =>
      have hNumber := hCounted.sent v hSent
      exact hCounted.put ⟨by omega, hNumber.2⟩
  | timeout p childPid x hListener =>
      have hCounts := hProcess p
      rw [hListener] at hCounts
      exact hCounted.put hCounts
  | kill p childPid x hListener =>
      have hCounts := hProcess p
      rw [hListener] at hCounts
      have hReaped : Counted (s.reap childPid) :=
        hCounted.reap
      apply hReaped.put
      unfold State.reap
      split
      · exact hCounts
      · exact hCounts
  | fork p q childPid x hListener hPid hFree hRange =>
      have hCounts := hProcess p
      rw [hListener] at hCounts
      have hForked : Counted
          (s.put q (.primary (some p) (x + 1) .counting)) :=
        hCounted.put
          (Process.counts_counting hCounts.1 hCounts.2)
      exact hForked.put ⟨Int.le_refl 0, Covers.zero⟩
  | forkFails p childPid x hListener =>
      exact hCounted.orphaned p
  | print q parent i hPrimary hLoop =>
      exact hCounted.print hPrimary
  | send q parent i hPrimary =>
      have hCounts := hProcess q
      rw [hPrimary] at hCounts
      have hPut : Counted
          (s.put q (.primary parent i .sleeping)) :=
        hCounted.put hCounts
      refine { hPut with sent := ?_ }
      intro v hv
      rcases List.mem_cons.mp hv with rfl | hOld
      · exact hCounts
      · exact hCounted.sent v hOld
  | next q parent i hPrimary hRange =>
      have hCounts := hProcess q
      rw [hPrimary] at hCounts
      have hLow : 0 ≤ i := Int.le_trans (by omega) hCounts.1
      exact hCounted.put
        (Process.counts_counting hLow hCounts.2)
  | leave q parent i hPrimary hLoop => exact hCounted.die
  | primaryDies q parent i phase hPrimary =>
      exact hCounted.die
  | listenerDies p childPid x phase hListener =>
      exact hCounted.orphaned p

end Counting

/- A primary dies after its first packet, and the next one
goes on behind it. -/
theorem reachable_takeover :
    ∃ s, system.Reachable s ∧
      s.printed = [1, 2] ∧
      s.process 1 = .listener 3 0 .receiving ∧
      s.process 3 = .primary (some 1) 2 .sending := by
  have h₀ : system.Reachable initial :=
    TransitionSystem.Reachable.init rfl
  have h₁ := h₀.step (Step.start _ 1 (by decide) rfl)
  have h₂ := h₁.step (Step.timeout _ 1 0 0 rfl)
  have h₃ := h₂.step (Step.kill _ 1 0 0 rfl)
  have h₄ := h₃.step
    (Step.fork _ 1 2 0 0 rfl (by decide) rfl (by decide))
  have h₅ := h₄.step (Step.print _ 2 _ 1 rfl (by decide))
  have h₆ := h₅.step (Step.send _ 2 _ 1 rfl)
  have h₇ := h₆.step
    (Step.receive _ 1 2 0 1 rfl (List.mem_singleton_self 1))
  have h₈ := h₇.step (Step.primaryDies _ 2 _ 1 _ rfl)
  -- the listener waits in vain, and forks the next
  have h₉ := h₈.step (Step.timeout _ 1 2 1 rfl)
  have h₁₀ := h₉.step (Step.kill _ 1 2 1 rfl)
  have h₁₁ := h₁₀.step
    (Step.fork _ 1 3 2 1 rfl (by decide) rfl (by decide))
  have h₁₂ := h₁₁.step (Step.print _ 3 _ 2 rfl (by decide))
  exact ⟨_, h₁₂, rfl, rfl, rfl⟩

/-
  No number is skipped: whatever dies, gets lost or comes
  late, and however many listeners there are, a number is
  printed after all those below it.
-/
theorem printed_after_all_below
    {s : State}
    (hReach : system.Reachable s)
    (before after : List Int)
    (i : Int)
    (hPrinted : s.printed = before ++ i :: after) :
    1 ≤ i ∧ ∀ j, 1 ≤ j → j < i → j ∈ before := by
  have hCounted : Counted s := by
    refine hReach.invariant ?_ ?_
    · intro s hInit
      change s = initial at hInit
      rw [hInit]
      exact counted_initial
    · intro s s' hCounted hStep
      exact counted_of_step hCounted hStep
  rcases hCounted.printed before i after hPrinted with
    ⟨hLow, hCovers⟩
  refine ⟨hLow, ?_⟩
  intro j hFirst hBelow
  exact hCovers j hFirst (by omega)

/- The first number has been printed by the one that died. -/
theorem printed_after_all_below_takeover :
    ∃ s, system.Reachable s ∧
      s.printed = [1] ++ 2 :: [] ∧
      (1 : Int) ≤ 2 ∧
      ∀ j : Int, 1 ≤ j → j < 2 → j ∈ [1] := by
  rcases reachable_takeover with ⟨s, hReach, hPrinted, -⟩
  exact ⟨s, hReach, hPrinted,
    printed_after_all_below hReach [1] [] 2 hPrinted⟩

------------------------------------------------------------
-- Children
------------------------------------------------------------

/- The listener has the child `q`, and has not yet waited for
its end. -/
def Process.Holds
    (q : Nat) : Process → Prop
  | .listener childPid _ phase =>
      childPid = q ∧ q ≠ 0 ∧ phase ≠ .ready
  | _ => False

/- The children are those the listeners hold. -/
def Parented
    (s : State) : Prop :=
  ∀ p q,
    (s.process q).parent? = some p ↔ (s.process p).Holds q

section Children

variable {s s' : State}

theorem Process.Holds.parent?
    {process : Process}
    {q : Nat}
    (hHolds : process.Holds q) :
    process.parent? = none := by
  cases process with
  | free => rfl
  | listener childPid x phase => rfl
  | primary parent i phase => exact absurd hHolds id
  | zombie parent => exact absurd hHolds id

/- A process has changed, and neither its parent nor its
child. -/
theorem Parented.put
    {p : Nat}
    {process : Process}
    (hParented : Parented s)
    (hParent : process.parent? = (s.process p).parent?)
    (hHolds : ∀ q,
      process.Holds q ↔ (s.process p).Holds q) :
    Parented (s.put p process) := by
  have hParents : ∀ q,
      ((s.put p process).process q).parent? =
        (s.process q).parent? := by
    intro q
    change (Function.update s.process p process q).parent? = _
    by_cases hSame : q = p
    · rw [hSame, Function.update_self]
      exact hParent
    · rw [Function.update_of_ne hSame]
  have hHeld : ∀ r q,
      ((s.put p process).process r).Holds q ↔
        (s.process r).Holds q := by
    intro r q
    change (Function.update s.process p process r).Holds q ↔ _
    by_cases hSame : r = p
    · rw [hSame, Function.update_self]
      exact hHolds q
    · rw [Function.update_of_ne hSame]
  intro r q
  rw [hParents q, hHeld r q]
  exact hParented r q

/- A listener goes on, and holds the child it has held. -/
theorem Parented.put_listener
    {p childPid : Nat}
    {x y : Int}
    {phase later : ListenerPhase}
    (hParented : Parented s)
    (hListener : s.process p = .listener childPid x phase)
    (hPhase : phase ≠ .ready)
    (hLater : later ≠ .ready) :
    Parented (s.put p (.listener childPid y later)) := by
  apply hParented.put
  · rw [hListener]
    rfl
  · intro q
    rw [hListener]
    constructor
    · intro hHolds
      exact ⟨hHolds.1, hHolds.2.1, hPhase⟩
    · intro hHolds
      exact ⟨hHolds.1, hHolds.2.1, hLater⟩

/- A primary goes on, under its parent. -/
theorem Parented.put_primary
    {q : Nat}
    {parent : Option Nat}
    {i j : Int}
    {phase later : PrimaryPhase}
    (hParented : Parented s)
    (hPrimary : s.process q = .primary parent i phase) :
    Parented (s.put q (.primary parent j later)) := by
  apply hParented.put
  · rw [hPrimary]
    rfl
  · intro r
    rw [hPrimary]
    exact Iff.rfl

/- A dead child remains the child of its parent. -/
theorem Parented.die
    {q : Nat}
    {parent : Option Nat}
    {i : Int}
    {phase : PrimaryPhase}
    (hParented : Parented s)
    (hPrimary : s.process q = .primary parent i phase) :
    Parented (s.die q parent) := by
  cases parent with
  | none =>
      apply hParented.put
      · rw [hPrimary]
        rfl
      · intro r
        rw [hPrimary]
        exact Iff.rfl
  | some p =>
      apply hParented.put
      · rw [hPrimary]
        rfl
      · intro r
        rw [hPrimary]
        exact Iff.rfl

/- A listener, and a process that is nobody else's child. -/
structure Process.Apart
    (p q : Nat)
    (listener child : Process) : Prop where
  root : listener.parent? = none
  own : ∀ r, r ≠ p → child.parent? ≠ some r
  only : ∀ r, r ≠ q → ¬ listener.Holds r
  leaf : ∀ r, ¬ child.Holds r

/- A listener has taken on, or given up, the child `q`. -/
theorem Parented.put_child
    {p q : Nat}
    {listener child : Process}
    (hParented : Parented s)
    (hOther : p ≠ q)
    (hBefore :
      Process.Apart p q (s.process p) (s.process q))
    (hAfter : Process.Apart p q listener child)
    (hPair : child.parent? = some p ↔ listener.Holds q) :
    Parented ((s.put q child).put p listener) := by
  have hSelf : ((s.put q child).put p listener).process p =
      listener := by
    change Function.update (Function.update s.process q child)
      p listener p = listener
    rw [Function.update_self]
  have hChild : ((s.put q child).put p listener).process q =
      child := by
    change Function.update (Function.update s.process q child)
      p listener q = child
    rw [Function.update_of_ne (Ne.symm hOther),
      Function.update_self]
  have hRest : ∀ r, r ≠ p → r ≠ q →
      ((s.put q child).put p listener).process r =
        s.process r := by
    intro r hNotSelf hNotChild
    change Function.update (Function.update s.process q child)
      p listener r = s.process r
    rw [Function.update_of_ne hNotSelf,
      Function.update_of_ne hNotChild]
  intro r t
  by_cases hOfSelf : t = p
  · -- the listener is nobody's child, before and after
    rw [hOfSelf, hSelf, hAfter.root]
    refine iff_of_false (fun hSome => by cases hSome) ?_
    intro hHolds
    by_cases hBySelf : r = p
    · rw [hBySelf, hSelf] at hHolds
      exact hAfter.only p hOther hHolds
    · by_cases hByChild : r = q
      · rw [hByChild, hChild] at hHolds
        exact hAfter.leaf p hHolds
      · rw [hRest r hBySelf hByChild] at hHolds
        have hParent := (hParented r p).mpr hHolds
        rw [hBefore.root] at hParent
        cases hParent
  · by_cases hOfChild : t = q
    · rw [hOfChild, hChild]
      by_cases hBySelf : r = p
      · rw [hBySelf, hSelf]
        exact hPair
      · refine iff_of_false (hAfter.own r hBySelf) ?_
        intro hHolds
        by_cases hByChild : r = q
        · rw [hByChild, hChild] at hHolds
          exact hAfter.leaf q hHolds
        · rw [hRest r hBySelf hByChild] at hHolds
          exact hBefore.own r hBySelf
            ((hParented r q).mpr hHolds)
    · rw [hRest t hOfSelf hOfChild, hParented r t]
      by_cases hBySelf : r = p
      · rw [hBySelf, hSelf]
        exact iff_of_false (hBefore.only t hOfChild)
          (hAfter.only t hOfChild)
      · by_cases hByChild : r = q
        · rw [hByChild, hChild]
          exact iff_of_false (hBefore.leaf t) (hAfter.leaf t)
        · rw [hRest r hBySelf hByChild]

/- The listener has killed its child and waited for it. -/
theorem Parented.kill
    {p childPid : Nat}
    {x : Int}
    (hParented : Parented s)
    (hListener :
      s.process p = .listener childPid x .expired) :
    Parented ((s.reap childPid).put p
      (.listener childPid x .ready)) := by
  by_cases hChild : childPid = 0
  · have hNone : s.reap childPid = s :=
      if_neg (not_not_intro hChild)
    rw [hNone]
    apply hParented.put
    · rw [hListener]
      rfl
    · intro q
      rw [hListener]
      refine iff_of_false (fun hHolds => hHolds.2.2 rfl) ?_
      intro hHolds
      exact hHolds.2.1 (hHolds.1.symm.trans hChild)
  · have hReap : s.reap childPid = s.put childPid .free :=
      if_pos hChild
    have hHolds : (s.process p).Holds childPid := by
      rw [hListener]
      refine ⟨rfl, hChild, ?_⟩
      intro hPhase
      cases hPhase
    have hParent := (hParented p childPid).mpr hHolds
    have hOther : p ≠ childPid := by
      intro hSame
      rw [← hSame, hHolds.parent?] at hParent
      cases hParent
    rw [hReap]
    apply hParented.put_child hOther
    · refine ⟨hHolds.parent?, ?_, ?_, ?_⟩
      · intro r hNot hSome
        exact hNot (Option.some.inj
          (hSome.symm.trans hParent))
      · intro r hNot hHas
        rw [hListener] at hHas
        exact hNot hHas.1.symm
      · intro r hHas
        rw [hHas.parent?] at hParent
        cases hParent
    · refine ⟨rfl, ?_, ?_, fun r => id⟩
      · intro r hNot hSome
        cases hSome
      · intro r hNot hHas
        exact hHas.2.2 rfl
    · refine iff_of_false (fun hSome => by cases hSome) ?_
      intro hHas
      exact hHas.2.2 rfl

/- A listener without a child has forked one. -/
theorem Parented.fork
    {p q childPid : Nat}
    {x i : Int}
    (hParented : Parented s)
    (hListener :
      s.process p = .listener childPid x .ready)
    (hPid : q ≠ 0)
    (hFree : s.process q = .free) :
    Parented ((s.put q (.primary (some p) i .counting)).put p
      (.listener q 0 .receiving)) := by
  have hOther : p ≠ q := by
    intro hSame
    rw [hSame, hFree] at hListener
    cases hListener
  apply hParented.put_child hOther
  · rw [hListener, hFree]
    refine ⟨rfl, ?_, ?_, fun r => id⟩
    · intro r hNot hSome
      cases hSome
    · intro r hNot hHas
      exact hHas.2.2 rfl
  · refine ⟨rfl, ?_, ?_, fun r => id⟩
    · intro r hNot hSome
      exact hNot (Option.some.inj hSome).symm
    · intro r hNot hHas
      exact hNot hHas.1.symm
  · refine iff_of_true rfl ⟨rfl, hPid, ?_⟩
    intro hPhase
    cases hPhase

theorem Process.parent?_orphan_self
    (p : Nat)
    (process : Process) :
    (process.orphan p).parent? ≠ some p := by
  unfold Process.orphan
  split
  · intro hParent
    cases process with
    | free => cases hParent
    | listener childPid x phase => cases hParent
    | primary parent i phase => cases hParent
    | zombie parent => cases hParent
  · assumption

theorem Process.parent?_orphan
    {p r : Nat}
    (process : Process)
    (hOther : r ≠ p) :
    (process.orphan p).parent? = some r ↔
      process.parent? = some r := by
  unfold Process.orphan
  split
  · rename_i hChild
    rw [hChild]
    refine iff_of_false ?_ ?_
    · intro hParent
      cases process with
      | free => cases hParent
      | listener childPid x phase => cases hParent
      | primary parent i phase => cases hParent
      | zombie parent => cases hParent
    · intro hSame
      exact hOther (Option.some.inj hSame).symm
  · exact Iff.rfl

theorem Process.holds_orphan
    (p q : Nat)
    (process : Process) :
    (process.orphan p).Holds q ↔ process.Holds q := by
  unfold Process.orphan
  split
  · rename_i hChild
    cases process with
    | free => exact Iff.rfl
    | listener childPid x phase => cases hChild
    | primary parent i phase => exact Iff.rfl
    | zombie parent => exact Iff.rfl
  · exact Iff.rfl

/- A listener dies, and nobody holds its children. -/
theorem Parented.orphaned
    {p : Nat}
    (hParented : Parented s)
    (hRoot : (s.process p).parent? = none) :
    Parented (s.orphaned p) := by
  have hSelf : (s.orphaned p).process p = .free :=
    if_pos rfl
  have hRest : ∀ r, r ≠ p → (s.orphaned p).process r =
      (s.process r).orphan p :=
    fun r hNot => if_neg hNot
  intro r t
  by_cases hOf : t = p
  · rw [hOf, hSelf]
    refine iff_of_false (fun hSome => by cases hSome) ?_
    by_cases hBy : r = p
    · rw [hBy, hSelf]
      exact id
    · rw [hRest r hBy, Process.holds_orphan, ← hParented r p,
        hRoot]
      intro hSome
      cases hSome
  · rw [hRest t hOf]
    by_cases hBy : r = p
    · rw [hBy, hSelf]
      exact iff_of_false
        (Process.parent?_orphan_self p _) id
    · rw [hRest r hBy, Process.holds_orphan,
        Process.parent?_orphan _ hBy]
      exact hParented r t

theorem parented_initial :
    Parented initial := by
  intro p q
  refine iff_of_false ?_ id
  intro hSome
  cases hSome

theorem parented_of_step
    (hParented : Parented s)
    (hStep : Step s s') :
    Parented s' := by
  cases hStep with
  | start p hPid hFree =>
      apply hParented.put
      · rw [hFree]
        rfl
      · intro q
        rw [hFree]
        refine iff_of_false ?_ id
        intro hHolds
        exact hHolds.2.1 hHolds.1.symm
  | receive p childPid x v hListener hSent =>
      exact hParented.put_listener hListener
        (fun hPhase => by cases hPhase)
        (fun hPhase => by cases hPhase)
  | timeout p childPid x hListener =>
      exact hParented.put_listener hListener
        (fun hPhase => by cases hPhase)
        (fun hPhase => by cases hPhase)
  | kill p childPid x hListener =>
      exact hParented.kill hListener
  | fork p q childPid x hListener hPid hFree hRange =>
      exact hParented.fork hListener hPid hFree
  | forkFails p childPid x hListener =>
      apply hParented.orphaned
      rw [hListener]
      rfl
  | print q parent i hPrimary hLoop =>
      exact hParented.put_primary hPrimary
  | send q parent i hPrimary =>
      exact hParented.put_primary hPrimary
  | next q parent i hPrimary hRange =>
      exact hParented.put_primary hPrimary
  | leave q parent i hPrimary hLoop =>
      exact hParented.die hPrimary
  | primaryDies q parent i phase hPrimary =>
      exact hParented.die hPrimary
  | listenerDies p childPid x phase hListener =>
      apply hParented.orphaned
      rw [hListener]
      rfl

end Children

/-
  The number a listener kills and waits for is that of its own
  child, which nobody else has waited for. The child is its
  only one, and when it forks it has none.
-/
theorem child_iff
    {s : State}
    (hReach : system.Reachable s)
    (p q : Nat) :
    (s.process q).parent? = some p ↔
      q ≠ 0 ∧ ∃ x phase,
        s.process p = .listener q x phase ∧
          phase ≠ .ready := by
  have hParented : Parented s := by
    refine hReach.invariant ?_ ?_
    · intro s hInit
      change s = initial at hInit
      rw [hInit]
      exact parented_initial
    · intro s s' hParented hStep
      exact parented_of_step hParented hStep
  rw [hParented p q]
  constructor
  · intro hHolds
    cases hProcess : s.process p with
    | free => rw [hProcess] at hHolds; exact absurd hHolds id
    | listener childPid x phase =>
        rw [hProcess] at hHolds
        rcases hHolds with ⟨rfl, hPid, hPhase⟩
        exact ⟨hPid, x, phase, rfl, hPhase⟩
    | primary parent i phase =>
        rw [hProcess] at hHolds
        exact absurd hHolds id
    | zombie parent =>
        rw [hProcess] at hHolds
        exact absurd hHolds id
  · intro hListener
    rcases hListener with ⟨hPid, x, phase, hListener, hPhase⟩
    rw [hListener]
    exact ⟨rfl, hPid, hPhase⟩

/- The next primary is the only child of the listener. -/
theorem child_iff_takeover :
    ∃ s, system.Reachable s ∧
      s.process 1 = .listener 3 0 .receiving ∧
      ∀ q, (s.process q).parent? = some 1 ↔ q = 3 := by
  rcases reachable_takeover with
    ⟨s, hReach, -, hListener, hPrimary⟩
  refine ⟨s, hReach, hListener, ?_⟩
  intro q
  constructor
  · intro hParent
    rcases (child_iff hReach 1 q).mp hParent with
      ⟨-, x, phase, hSame, -⟩
    cases hListener.symm.trans hSame
    rfl
  · intro hChild
    rw [hChild, hPrimary]
    rfl

end Exercise6

end ElevatorControl
