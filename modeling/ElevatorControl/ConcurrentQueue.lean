import ElevatorControl.Library.CondVar
import ElevatorControl.Library.TransitionSystem

/-
  The queue between the threads of a node.

  Every critical section is one step. A wait releases the
  lock, and the waiter checks its predicate again when it has
  been woken and holds the lock once more. The histories of
  the values that have been enqueued and handed out are kept
  beside the queue.

  Key definitions include:
    * `ConcurrentQueue`
    * `ConcurrentQueue.Step`

  Key theorems include:
    * `ConcurrentQueue.fifo_without_lost_wakeups`
-/

------------------------------------------------------------
-- Queue
------------------------------------------------------------

namespace ElevatorControl

/-
  `cond` holds where the threads are. `handedOut` names the
  thread that got the value.
-/
structure ConcurrentQueue (Thread T : Type) where
  queue : List T
  cond : CondVar Thread
  enqueued : List T
  handedOut : List (Thread × T)

namespace ConcurrentQueue

variable {Thread T : Type} [DecidableEq Thread]

/- The thread `t` goes on with the head of the queue, or with
nothing if the queue is empty. -/
def tryPop
    (t : Thread)
    (s : ConcurrentQueue Thread T) :
    ConcurrentQueue Thread T :=
  match s.queue with
  | [] => { s with cond := s.cond.put t .running }
  | data :: rest =>
      { s with
        queue := rest
        cond := s.cond.put t .running
        handedOut := s.handedOut ++ [(t, data)] }

/- The predicate of a wait is checked: the thread goes on
with the head of the queue, or blocks. -/
def waitPop
    (timed : Bool)
    (t : Thread)
    (s : ConcurrentQueue Thread T) :
    ConcurrentQueue Thread T :=
  if s.queue = [] then
    { s with cond := s.cond.put t (.blocked timed) }
  else s.tryPop t

/-
  The critical sections of the operations. The steps `relock`
  and `expire` are those of a thread inside `dequeue` or
  `timeoutDequeue` that has been woken. A thread whose time is
  up when it holds the lock checks the predicate a last time,
  whatever has woken it.
-/
inductive Step :
    ConcurrentQueue Thread T →
      ConcurrentQueue Thread T → Prop where
  | enqueue
      (s : ConcurrentQueue Thread T)
      (t : Thread)
      (data : T)
      (cond : CondVar Thread)
      (hRunning : s.cond t = .running)
      (hNotify : s.cond.NotifyOne cond) :
      Step s
        { s with
          queue := s.queue ++ [data]
          cond := cond
          enqueued := s.enqueued ++ [data] }
  | dequeue
      (s : ConcurrentQueue Thread T)
      (t : Thread)
      (hRunning : s.cond t = .running) :
      Step s (s.waitPop false t)
  | timeoutDequeue
      (s : ConcurrentQueue Thread T)
      (t : Thread)
      (hRunning : s.cond t = .running) :
      Step s (s.waitPop true t)
  | tryDequeue
      (s : ConcurrentQueue Thread T)
      (t : Thread)
      (hRunning : s.cond t = .running) :
      Step s (s.tryPop t)
  | wake
      (s : ConcurrentQueue Thread T)
      (cond : CondVar Thread)
      (hWakes : s.cond.Wakes cond) :
      Step s { s with cond := cond }
  | relock
      (s : ConcurrentQueue Thread T)
      (t : Thread)
      (timed : Bool)
      (cause : Wake)
      (hWoken : s.cond t = .woken timed cause)
      (hCause : cause ≠ .timedOut) :
      Step s (s.waitPop timed t)
  | expire
      (s : ConcurrentQueue Thread T)
      (t : Thread)
      (cause : Wake)
      (hWoken : s.cond t = .woken true cause) :
      Step s (s.tryPop t)

/- No value has been enqueued, and no thread waits. -/
def initial : ConcurrentQueue Thread T where
  queue := []
  cond := fun _ => .running
  enqueued := []
  handedOut := []

/- The queue starts empty, and all threads run. -/
def system (Thread T : Type) [DecidableEq Thread] :
    TransitionSystem (ConcurrentQueue Thread T) where
  Init s := s = initial
  Step := Step

/- The sequence of the values handed out. -/
def values
    (s : ConcurrentQueue Thread T) : List T :=
  s.handedOut.map Prod.snd

/- A thread is blocked on the queue. -/
def Waits
    (s : ConcurrentQueue Thread T) : Prop :=
  ∃ t timed, s.cond t = .blocked timed

/- Some waiter has been notified and has not yet taken the
lock. -/
def NotificationPending
    (s : ConcurrentQueue Thread T) : Prop :=
  ∃ t, s.cond.Notified t

------------------------------------------------------------
-- Invariant
------------------------------------------------------------

/-
  The values handed out and then those in the queue are the
  values enqueued. While a thread is blocked, every value in
  the queue is covered by a pending notification.
-/
structure Inv
    [Fintype Thread]
    (s : ConcurrentQueue Thread T) : Prop where
  order : s.values ++ s.queue = s.enqueued
  covered : s.cond.Covered s.queue.length

section Steps

variable [Fintype Thread]
variable {s s' : ConcurrentQueue Thread T}
variable {t : Thread}

omit [DecidableEq Thread] in
theorem inv_initial :
    Inv (initial : ConcurrentQueue Thread T) where
  order := rfl
  covered := CondVar.covered_zero

theorem inv_tryPop
    (hInv : Inv s) :
    Inv (s.tryPop t) := by
  have hOrder := hInv.order
  have hCovered := hInv.covered
  unfold tryPop
  cases hQueue : s.queue with
  | nil =>
      rw [hQueue] at hOrder
      constructor
      · simpa [values, hQueue] using hOrder
      · simpa [hQueue] using CondVar.covered_zero
  | cons data rest =>
      rw [hQueue] at hOrder hCovered
      constructor
      · simpa [values] using hOrder
      · exact hCovered.resume

/- A thread blocks only while the queue is empty. -/
theorem inv_waitPop
    {timed : Bool}
    (hInv : Inv s) :
    Inv (s.waitPop timed t) := by
  unfold waitPop
  split_ifs with hEmpty
  · constructor
    · exact hInv.order
    · simpa [hEmpty] using CondVar.covered_zero
  · exact inv_tryPop hInv

theorem inv_enqueue
    {data : T}
    {cond : CondVar Thread}
    (hInv : Inv s)
    (hNotify : s.cond.NotifyOne cond) :
    Inv { s with
      queue := s.queue ++ [data]
      cond := cond
      enqueued := s.enqueued ++ [data] } := by
  constructor
  · have hOrder := hInv.order
    calc
      s.values ++ (s.queue ++ [data]) =
          (s.values ++ s.queue) ++ [data] :=
        (List.append_assoc _ _ _).symm
      _ = s.enqueued ++ [data] := by rw [hOrder]
  · have hCovered := hInv.covered.notify hNotify
    simpa using hCovered

theorem inv_of_step
    (hInv : Inv s)
    (hStep : Step s s') :
    Inv s' := by
  cases hStep with
  | enqueue t data cond hRunning hNotify =>
      exact inv_enqueue hInv hNotify
  | dequeue t hRunning => exact inv_waitPop hInv
  | timeoutDequeue t hRunning => exact inv_waitPop hInv
  | tryDequeue t hRunning => exact inv_tryPop hInv
  | wake cond hWakes =>
      exact ⟨hInv.order, hInv.covered.wakes hWakes⟩
  | relock t timed cause hWoken hCause =>
      exact inv_waitPop hInv
  | expire t cause hWoken => exact inv_tryPop hInv

theorem inv_of_reachable
    (hReach : (system Thread T).Reachable s) :
    Inv s := by
  apply hReach.invariant
  · rintro _ rfl
    exact inv_initial
  · exact fun _ _ => inv_of_step

omit [DecidableEq Thread] in
/- A covered queue that is not empty has a pending
notification. -/
theorem notificationPending_of_covered
    (hCovered : s.cond.Covered s.queue.length)
    (hWaits : s.Waits)
    (hQueue : s.queue ≠ []) :
    s.NotificationPending := by
  have hLe := hCovered hWaits
  have hPos := List.length_pos_iff.mpr hQueue
  have hSome : 0 < s.cond.pending := by omega
  rcases Finset.card_pos.mp hSome with ⟨t, ht⟩
  exact ⟨t, (Finset.mem_filter.mp ht).2⟩

/-
  The values handed out are a prefix of the values enqueued,
  and the rest of these is in the queue. No waiter is blocked
  without a pending notification while the queue holds a
  value.
-/
theorem fifo_without_lost_wakeups
    (hReach : (system Thread T).Reachable s) :
    s.values <+: s.enqueued ∧
      s.values ++ s.queue = s.enqueued ∧
      ¬ (s.Waits ∧ ¬ s.NotificationPending ∧
        s.queue ≠ []) := by
  have hInv := inv_of_reachable hReach
  refine ⟨⟨s.queue, hInv.order⟩, hInv.order, ?_⟩
  rintro ⟨hWaits, hNone, hQueue⟩
  exact hNone (notificationPending_of_covered hInv.covered
    hWaits hQueue)

end Steps

/- One of two waiters is notified while a third thread
enqueues. -/
theorem fifo_without_lost_wakeups_twoWaiters :
    ∃ s : ConcurrentQueue (Fin 3) Int,
      (system (Fin 3) Int).Reachable s ∧ s.Waits ∧
        s.queue = [7] ∧ s.NotificationPending := by
  have hInit :
      (system (Fin 3) Int).Reachable initial :=
    TransitionSystem.Reachable.init rfl
  have hFirst := hInit.step (Step.dequeue initial 0 rfl)
  have hSecond :=
    hFirst.step (Step.timeoutDequeue _ 1 (by decide))
  have hNotified := hSecond.step (Step.enqueue _ 2 7 _
    (by decide) (CondVar.NotifyOne.some 0 false (by decide)))
  have hFifo := fifo_without_lost_wakeups hNotified
  refine ⟨_, hNotified, ⟨1, true, by decide⟩, rfl, ?_⟩
  by_contra hNone
  apply hFifo.2.2
  exact ⟨⟨1, true, by decide⟩, hNone, by decide⟩

end ConcurrentQueue

end ElevatorControl
