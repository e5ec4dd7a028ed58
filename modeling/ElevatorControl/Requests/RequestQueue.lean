import Mathlib.Data.Int.Order.Basic
import Mathlib.Data.List.Perm.Basic
import ElevatorControl.State
import ElevatorControl.Library.BinaryHeap

/-
  The queue of requests that wait for their deadlines.

  The queue is a binary heap ordered by the stored deadlines.
  Acknowledgements only mark requests; the cleaning loop of
  the waiter drops the requests marked as done and moves the
  ones with a new deadline once they are at the top.

  Requests carry a tag the code does not look at, so that the
  histories of equal requests can be told apart.

  Key definitions include:
    * `Request`
    * `RequestQueue`
    * `RequestQueue.push`
    * `RequestQueue.ackRequest`
    * `RequestQueue.clean`
    * `RequestQueue.takeDue`
    * `Tagged.AckedBy`

  Key theorems include:
    * `RequestQueue.clean_settles`
    * `RequestQueue.topReady_clean`
-/

------------------------------------------------------------
-- Requests
------------------------------------------------------------

namespace ElevatorControl

/- A point of the steady clock, in nanoseconds. -/
abbrev TimePoint : Type := Int

/- A duration in milliseconds on the steady clock. -/
def milliseconds
    (delta : MillisecondTime) : Int :=
  delta * 1000000

theorem milliseconds_le
    {delta delta' : MillisecondTime}
    (hLe : delta ≤ delta') :
    milliseconds delta ≤ milliseconds delta' :=
  Int.mul_le_mul_of_nonneg_right hLe (by decide)

/- How far a request has got. -/
inductive RequestType where
  | notAcknowledged
  | notDone
  | done
  deriving DecidableEq, Repr

/- A command with its deadline and the period of it. A new
deadline waits in `tweakedDeadline`. -/
structure Request where
  type : RequestType
  repeated : Int
  command : Command
  deadlineDelta : MillisecondTime
  deadline : TimePoint
  tweakedDeadline : Option TimePoint
  deriving DecidableEq, Repr

namespace Request

/- The request the constructor makes. -/
def create
    (comm : Command)
    (delta : MillisecondTime)
    (now : TimePoint) : Request where
  type := .notAcknowledged
  repeated := 0
  command := comm
  deadlineDelta := delta
  deadline := now + milliseconds delta
  tweakedDeadline := none

/- A new deadline, one period from now. -/
def updateDeadline
    (now : TimePoint)
    (r : Request) : Request :=
  { r with deadline := now + milliseconds r.deadlineDelta }

/- The elevator that has to acknowledge. -/
def elevatorId
    (r : Request) : Int :=
  r.command.targetElevatorId

/- The floor the acknowledging change is about. -/
def triggerFloor
    (r : Request) : Int :=
  r.command.targetFloor

/- The change that acknowledges the request next. -/
def triggerType
    (r : Request) : ChangeType :=
  match r.command.commandType with
  | .callToFloorAndGoUp =>
      if r.type = .notAcknowledged then .goingToServeUp
      else .servedUp
  | .callToFloorAndGoDown =>
      if r.type = .notAcknowledged then .goingToServeDown
      else .servedDown
  | _ => .none

/- A call is acknowledged by two changes, one after the
other. -/
theorem triggerType_eq
    {r : Request}
    {x : CallDirection}
    (hCall : r.command.commandType = x.call) :
    r.triggerType =
      if r.type = .notAcknowledged then x.goingToServe
      else x.served := by
  unfold triggerType
  rw [hCall]
  cases x with
  | up => rfl
  | down => rfl

end Request

/- A request with a tag the code does not look at. -/
structure Tagged (τ : Type) where
  tag : τ
  request : Request

namespace Tagged

variable {τ : Type}

/- The key of the queue. -/
def deadline
    (t : Tagged τ) : TimePoint :=
  t.request.deadline

/- The request is done. -/
def isDone
    (t : Tagged τ) : Bool :=
  decide (t.request.type = .done)

/- The request has got a new deadline. -/
def isTweaked
    (t : Tagged τ) : Bool :=
  t.request.tweakedDeadline.isSome

/- The request with its new deadline in place. -/
def settle
    (t : Tagged τ) : Tagged τ :=
  match t.request.tweakedDeadline with
  | none => t
  | some d =>
      { t with
        request :=
          { t.request with
            deadline := d
            tweakedDeadline := none } }

/- What one change does to a request it may match. -/
def acknowledge
    (change : StateChange)
    (newDeadlineDelta : MillisecondTime)
    (newDeadline : Option TimePoint)
    (t : Tagged τ) : Tagged τ :=
  if t.request.elevatorId = change.state.id ∧
      t.request.triggerType = change.changeType ∧
      t.request.triggerFloor = change.changeFloor then
    { t with
      request :=
        { t.request with
          type :=
            match t.request.type with
            | .notAcknowledged => .notDone
            | .notDone => .done
            | .done => .done
          tweakedDeadline :=
            if newDeadline.isSome then newDeadline
            else t.request.tweakedDeadline
          deadlineDelta :=
            if newDeadline.isSome then newDeadlineDelta
            else t.request.deadlineDelta
          repeated := 0 } }
  else t

/- The change is the one the request waits for. -/
def AckedBy
    (change : StateChange)
    (t : Tagged τ) : Prop :=
  t.request.elevatorId = change.state.id ∧
    t.request.triggerType = change.changeType ∧
    t.request.triggerFloor = change.changeFloor

/- A request that has been acknowledged is marked. -/
theorem AckedBy.type_ne
    {change : StateChange}
    {delta : MillisecondTime}
    {newDeadline : Option TimePoint}
    {t : Tagged τ}
    (hAcked : t.AckedBy change) :
    (t.acknowledge change delta newDeadline).request.type ≠
      .notAcknowledged := by
  unfold AckedBy at hAcked
  unfold acknowledge
  rw [if_pos hAcked]
  cases hType : t.request.type with
  | notAcknowledged => simp
  | notDone => simp
  | done => simp

@[simp] theorem deadline_acknowledge
    {change : StateChange}
    {delta : MillisecondTime}
    {newDeadline : Option TimePoint}
    {t : Tagged τ} :
    (t.acknowledge change delta newDeadline).deadline =
      t.deadline := by
  unfold acknowledge
  split
  · rfl
  · rfl

@[simp] theorem tag_acknowledge
    {change : StateChange}
    {delta : MillisecondTime}
    {newDeadline : Option TimePoint}
    {t : Tagged τ} :
    (t.acknowledge change delta newDeadline).tag =
      t.tag := by
  unfold acknowledge
  split
  · rfl
  · rfl

@[simp] theorem tag_settle
    {t : Tagged τ} :
    t.settle.tag = t.tag := by
  unfold settle
  split
  · rfl
  · rfl

/- A settled request has no new deadline left. -/
theorem isTweaked_settle
    {t : Tagged τ} :
    t.settle.isTweaked = false := by
  unfold settle
  cases hTweak : t.request.tweakedDeadline with
  | none => simp [isTweaked, hTweak]
  | some d => rfl

theorem isDone_settle
    {t : Tagged τ} :
    t.settle.isDone = t.isDone := by
  unfold settle
  split
  · rfl
  · rfl

theorem settle_eq
    {t : Tagged τ}
    (hTweak : t.isTweaked = false) :
    t.settle = t := by
  unfold settle
  cases hDeadline : t.request.tweakedDeadline with
  | none => rfl
  | some d => simp [isTweaked, hDeadline] at hTweak

end Tagged

------------------------------------------------------------
-- Queue
------------------------------------------------------------

/- A heap of requests ordered by their deadlines. -/
structure RequestQueue (τ : Type) where
  entries : Array (Tagged τ)
  ordered : BinaryHeap.Ordered Tagged.deadline entries

namespace RequestQueue

variable {τ : Type}

/- The queue without requests. -/
def empty : RequestQueue τ where
  entries := #[]
  ordered := by
    intro j hj
    exact absurd hj (Nat.not_lt_zero j)

/- The requests in the queue. -/
def list
    (q : RequestQueue τ) : List (Tagged τ) :=
  q.entries.toList

/- A request with the earliest deadline. -/
def top?
    (q : RequestQueue τ) : Option (Tagged τ) :=
  q.entries[0]?

/- Put a request in its place. -/
def push
    (q : RequestQueue τ)
    (t : Tagged τ) : RequestQueue τ where
  entries := BinaryHeap.push Tagged.deadline q.entries t
  ordered := BinaryHeap.ordered_push q.ordered t

/- Take the top out. -/
def pop
    (q : RequestQueue τ) : RequestQueue τ where
  entries := BinaryHeap.pop Tagged.deadline q.entries
  ordered := BinaryHeap.ordered_pop q.ordered

/- Mark every request the change matches. -/
def ackRequest
    (change : StateChange)
    (newDeadlineDelta : MillisecondTime)
    (now : TimePoint)
    (q : RequestQueue τ) : RequestQueue τ :=
  let newDeadline :=
    if newDeadlineDelta = 0 then none
    else some (now + milliseconds newDeadlineDelta)
  { entries := q.entries.map
      (Tagged.acknowledge change newDeadlineDelta newDeadline)
    ordered := by
      intro j hj hj0
      rw [Array.size_map] at hj
      simp only [Array.getElem_map,
        Tagged.deadline_acknowledge]
      exact q.ordered j hj hj0 }

/- Whether a push signals the waiter. -/
def pushSignals
    (q : RequestQueue τ)
    (t : Tagged τ) : Bool :=
  match q.top? with
  | none => true
  | some first => decide (t.deadline < first.deadline)

/- The earliest deadline, or `extra` if it is earlier. -/
def earliestDeadline
    (q : RequestQueue τ)
    (extra : TimePoint) : TimePoint :=
  match q.top? with
  | none => extra
  | some t => min t.deadline extra

section Specs

variable {q : RequestQueue τ}
variable {t : Tagged τ}

theorem push_perm :
    (q.push t).list.Perm (t :: q.list) :=
  BinaryHeap.push_perm q.entries t

/- Popping removes exactly the top. -/
theorem pop_perm
    (hTop : q.top? = some t) :
    q.list.Perm (t :: q.pop.list) := by
  rcases Array.getElem?_eq_some_iff.mp hTop with ⟨h, hRoot⟩
  rw [← hRoot]
  exact BinaryHeap.pop_perm q.entries h

/- No request has an earlier deadline than the top. -/
theorem top_le
    (hTop : q.top? = some t) :
    ∀ u ∈ q.list, t.deadline ≤ u.deadline := by
  intro u hu
  rcases Array.getElem?_eq_some_iff.mp hTop with ⟨h, hRoot⟩
  rcases List.mem_iff_getElem.mp hu with ⟨j, hj, hAt⟩
  have hLe := BinaryHeap.root_le q.ordered j hj
  rw [hRoot] at hLe
  have hEntry : q.entries[j] = u := hAt
  rwa [hEntry] at hLe

theorem list_eq_nil
    (hTop : q.top? = none) :
    q.list = [] := by
  have hSize := Array.getElem?_eq_none_iff.mp hTop
  apply List.length_eq_zero_iff.mp
  rw [list, Array.length_toList]
  omega

theorem mem_top
    (hTop : q.top? = some t) :
    t ∈ q.list :=
  (pop_perm hTop).mem_iff.mpr (List.mem_cons_self)

@[simp] theorem list_ackRequest
    {change : StateChange}
    {delta : MillisecondTime}
    {now : TimePoint} :
    (q.ackRequest change delta now).list =
      q.list.map (Tagged.acknowledge change delta
        (if delta = 0 then none
          else some (now + milliseconds delta))) := by
  simp [list, ackRequest]

end Specs

------------------------------------------------------------
-- Cleaning Loop
------------------------------------------------------------

/- How many requests have got a new deadline. -/
def tweaked
    (q : RequestQueue τ) : Nat :=
  q.list.countP Tagged.isTweaked

theorem length_pop
    {q : RequestQueue τ}
    {t : Tagged τ}
    (hTop : q.top? = some t) :
    q.list.length = q.pop.list.length + 1 :=
  (pop_perm hTop).length_eq

/- Moving a tweaked top leaves one tweaked request less. -/
theorem tweaked_settle
    {q : RequestQueue τ}
    {t : Tagged τ}
    (hTop : q.top? = some t)
    (hTweak : t.isTweaked = true) :
    (q.pop.push t.settle).tweaked < q.tweaked := by
  have hSettled : t.settle.isTweaked = false :=
    Tagged.isTweaked_settle
  unfold tweaked
  rw [push_perm.countP_eq, (pop_perm hTop).countP_eq,
    List.countP_cons_of_neg (by simp [hSettled]),
    List.countP_cons_of_pos hTweak]
  exact Nat.lt_succ_self _

/- Drop done requests from the top; the dropped requests are
returned with the queue. -/
def dropDone
    (q : RequestQueue τ) :
    RequestQueue τ × List (Tagged τ) :=
  match _hTop : q.top? with
  | none => (q, [])
  | some t =>
      if t.isDone then
        let (q', dropped) := dropDone q.pop
        (q', t :: dropped)
      else (q, [])
termination_by q.list.length
decreasing_by
  rw [length_pop _hTop]
  exact Nat.lt_succ_self _

/- Move requests with a new deadline away from the top. -/
def reschedule
    (q : RequestQueue τ) : RequestQueue τ :=
  match _hTop : q.top? with
  | none => q
  | some t =>
      if _hTweak : t.isTweaked then
        reschedule (q.pop.push t.settle)
      else q
termination_by q.tweaked
decreasing_by
  exact tweaked_settle _hTop _hTweak

/- The top, if any, has a new deadline. -/
def topTweaked
    (q : RequestQueue τ) : Bool :=
  q.top?.any Tagged.isTweaked

/- The top, if any, is done. -/
def topDone
    (q : RequestQueue τ) : Bool :=
  q.top?.any Tagged.isDone

theorem dropDone_perm
    (q : RequestQueue τ) :
    q.list.Perm (q.dropDone.2 ++ q.dropDone.1.list) := by
  fun_induction dropDone q with
  | case1 q hTop => exact List.Perm.refl _
  | case2 q t hTop hDone q' dropped hRest ih =>
      rw [hRest] at ih
      exact (pop_perm hTop).trans (ih.cons t)
  | case3 q t hTop hDone => exact List.Perm.refl _

theorem isDone_of_dropped
    (q : RequestQueue τ) :
    ∀ t ∈ q.dropDone.2, t.isDone = true := by
  fun_induction dropDone q with
  | case1 q hTop => simp
  | case2 q t hTop hDone q' dropped hRest ih =>
      rw [hRest] at ih
      intro u hu
      rcases List.mem_cons.mp hu with rfl | hu
      · exact hDone
      · exact ih u hu
  | case3 q t hTop hDone => simp

/- After dropping, the top is not done. -/
theorem topDone_dropDone
    (q : RequestQueue τ) :
    q.dropDone.1.topDone = false := by
  fun_induction dropDone q with
  | case1 q hTop => simp [topDone, hTop]
  | case2 q t hTop hDone q' dropped hRest ih =>
      rw [hRest] at ih
      exact ih
  | case3 q t hTop hDone => simp [topDone, hTop, hDone]

theorem tweaked_reschedule_le
    (q : RequestQueue τ) :
    q.reschedule.tweaked ≤ q.tweaked := by
  fun_induction reschedule q with
  | case1 q hTop => exact Nat.le_refl _
  | case2 q t hTop hTweak ih =>
      have hLt := tweaked_settle hTop hTweak
      omega
  | case3 q t hTop hTweak => exact Nat.le_refl _

/- A tweaked top makes the loop progress. -/
theorem tweaked_reschedule_lt
    {q : RequestQueue τ}
    (hTweaked : q.topTweaked = true) :
    q.reschedule.tweaked < q.tweaked := by
  have hSome :
      ∃ t, q.top? = some t ∧ t.isTweaked = true := by
    simpa [topTweaked, Option.any_eq_true] using hTweaked
  rcases hSome with ⟨t, hTop, hTweak⟩
  rw [reschedule]
  split
  · next hNone =>
      rw [hTop] at hNone
      cases hNone
  · next u hSome =>
      have hSame : t = u :=
        Option.some.inj (hTop.symm.trans hSome)
      subst hSame
      rw [dif_pos hTweak]
      have hLe :=
        tweaked_reschedule_le (q.pop.push t.settle)
      have hLt := tweaked_settle hTop hTweak
      omega

theorem reschedule_eq
    {q : RequestQueue τ}
    (hTweaked : q.topTweaked = false) :
    q.reschedule = q := by
  rw [reschedule]
  split
  · rfl
  · next t hTop =>
      have hTweak : t.isTweaked = false := by
        simpa [topTweaked, hTop] using hTweaked
      rw [dif_neg (by simp [hTweak])]

theorem length_reschedule
    (q : RequestQueue τ) :
    q.reschedule.list.length = q.list.length := by
  fun_induction reschedule q with
  | case1 q hTop => rfl
  | case2 q t hTop hTweak ih =>
      rw [ih, push_perm.length_eq, (pop_perm hTop).length_eq]
      rfl
  | case3 q t hTop hTweak => rfl

/-
  One pass drops requests, or removes new deadlines, unless
  it finds nothing to do.
-/
theorem clean_decreases
    {q : RequestQueue τ}
    (hWork : ¬ (q.dropDone.2.isEmpty = true ∧
      q.dropDone.1.topTweaked = false)) :
    q.dropDone.1.reschedule.list.length +
        q.dropDone.1.reschedule.tweaked <
      q.list.length + q.tweaked := by
  have hPerm := dropDone_perm q
  have hLength := hPerm.length_eq
  have hTweaked := hPerm.countP_eq Tagged.isTweaked
  rw [List.length_append] at hLength
  rw [List.countP_append] at hTweaked
  have hLe := tweaked_reschedule_le q.dropDone.1
  rw [length_reschedule]
  unfold tweaked at *
  by_cases hDropped : q.dropDone.2.isEmpty = true
  · have hTop : q.dropDone.1.topTweaked = true := by
      simpa [hDropped] using hWork
    have hLt := tweaked_reschedule_lt hTop
    unfold tweaked at hLt
    omega
  · have hPos : 0 < q.dropDone.2.length := by
      rw [List.isEmpty_iff] at hDropped
      exact List.length_pos_iff.mpr hDropped
    omega

/-
  Do what was only flagged by `ackRequest`, until a pass
  finds nothing to do. The dropped requests are returned with
  the queue.
-/
def clean
    (q : RequestQueue τ) :
    RequestQueue τ × List (Tagged τ) :=
  if _hDone : q.dropDone.2.isEmpty = true ∧
      q.dropDone.1.topTweaked = false then
    (q.dropDone.1.reschedule, [])
  else
    let (q', dropped) := clean q.dropDone.1.reschedule
    (q', q.dropDone.2 ++ dropped)
termination_by q.list.length + q.tweaked
decreasing_by
  exact clean_decreases _hDone

------------------------------------------------------------
-- Effect of Cleaning
------------------------------------------------------------

/- A request the cleaning loop has kept, perhaps with its new
deadline in place. -/
def Settled
    (t t' : Tagged τ) : Prop :=
  t' = t ∨ t' = t.settle

/- The second list holds the requests of the first one, in
any order and perhaps settled. -/
def Settles
    (l l' : List (Tagged τ)) : Prop :=
  ∃ m, l.Perm m ∧ List.Forall₂ Settled m l'

theorem forall₂_settled_refl
    (l : List (Tagged τ)) :
    List.Forall₂ Settled l l :=
  List.forall₂_same.mpr fun _ _ => Or.inl rfl

theorem Settles.of_perm
    {l l' : List (Tagged τ)}
    (hPerm : l.Perm l') :
    Settles l l' :=
  ⟨l', hPerm, forall₂_settled_refl l'⟩

theorem Settles.of_forall₂
    {l l' : List (Tagged τ)}
    (hForall : List.Forall₂ Settled l l') :
    Settles l l' :=
  ⟨l, List.Perm.refl l, hForall⟩

theorem settle_settle
    {t : Tagged τ} :
    t.settle.settle = t.settle :=
  Tagged.settle_eq Tagged.isTweaked_settle

theorem Settled.trans
    {t u v : Tagged τ}
    (hFirst : Settled t u)
    (hSecond : Settled u v) :
    Settled t v := by
  rcases hFirst with rfl | rfl
  · exact hSecond
  · rcases hSecond with rfl | rfl
    · exact Or.inr rfl
    · exact Or.inr settle_settle

theorem forall₂_settled_trans
    {l l' l'' : List (Tagged τ)}
    (hFirst : List.Forall₂ Settled l l')
    (hSecond : List.Forall₂ Settled l' l'') :
    List.Forall₂ Settled l l'' := by
  induction hFirst generalizing l'' with
  | nil =>
      cases hSecond
      exact List.Forall₂.nil
  | cons hHead _ ih =>
      cases hSecond with
      | cons hHead' hTail' =>
          exact List.Forall₂.cons (hHead.trans hHead')
            (ih hTail')

theorem Settles.trans
    {l l' l'' : List (Tagged τ)}
    (hFirst : Settles l l')
    (hSecond : Settles l' l'') :
    Settles l l'' := by
  rcases hFirst with ⟨m, hPerm, hForall⟩
  rcases hSecond with ⟨m', hPerm', hForall'⟩
  have hComp :
      Relation.Comp List.Perm
        (List.Forall₂ Settled) m m' := by
    rw [← List.forall₂_comp_perm_eq_perm_comp_forall₂]
    exact ⟨l', hForall, hPerm'⟩
  rcases hComp with ⟨n, hPerm'', hForall''⟩
  exact ⟨n, hPerm.trans hPerm'',
    forall₂_settled_trans hForall'' hForall'⟩

theorem Settles.append_left
    {l l' : List (Tagged τ)}
    (dropped : List (Tagged τ))
    (hSettles : Settles l l') :
    Settles (dropped ++ l) (dropped ++ l') := by
  rcases hSettles with ⟨m, hPerm, hForall⟩
  refine ⟨dropped ++ m, hPerm.append_left dropped, ?_⟩
  exact List.rel_append (forall₂_settled_refl dropped)
    hForall

/- What settling keeps of the requests is kept in all. -/
theorem Settles.map_perm
    {γ : Type}
    {l l' : List (Tagged τ)}
    (hSettles : Settles l l')
    (f : Tagged τ → γ)
    (hf : ∀ t, f t.settle = f t) :
    (l.map f).Perm (l'.map f) := by
  rcases hSettles with ⟨m, hPerm, hForall⟩
  have hEq : l'.map f = m.map f := by
    clear hPerm
    induction hForall with
    | nil => rfl
    | cons hHead _ ih =>
        rw [List.map_cons, List.map_cons, ih]
        rcases hHead with rfl | rfl
        · rfl
        · rw [hf]
  rw [hEq]
  exact hPerm.map f

/- Every request that is left was there before, perhaps
without its new deadline in place. -/
theorem Settles.origin
    {l l' : List (Tagged τ)}
    (hSettles : Settles l l') :
    ∀ t ∈ l', ∃ u ∈ l, Settled u t := by
  rcases hSettles with ⟨m, hPerm, hForall⟩
  have hOrigin : ∀ t ∈ l', ∃ u ∈ m, Settled u t := by
    clear hPerm
    induction hForall with
    | nil => simp
    | cons hHead _ ih =>
        intro t ht
        rcases List.mem_cons.mp ht with rfl | ht
        · exact ⟨_, List.mem_cons_self, hHead⟩
        · rcases ih t ht with ⟨u, hu, hSettled⟩
          exact ⟨u, List.mem_cons_of_mem _ hu, hSettled⟩
  intro t ht
  rcases hOrigin t ht with ⟨u, hu, hSettled⟩
  exact ⟨u, hPerm.mem_iff.mpr hu, hSettled⟩

theorem reschedule_settles
    (q : RequestQueue τ) :
    Settles q.list q.reschedule.list := by
  fun_induction reschedule q with
  | case1 q hTop => exact Settles.of_perm (List.Perm.refl _)
  | case2 q t hTop hTweak ih =>
      have hMoved :
          Settles (t :: q.pop.list)
            (t.settle :: q.pop.list) :=
        Settles.of_forall₂ (List.Forall₂.cons (Or.inr rfl)
          (forall₂_settled_refl _))
      have hPushed :
          Settles (t.settle :: q.pop.list)
            (q.pop.push t.settle).list :=
        Settles.of_perm push_perm.symm
      exact (((Settles.of_perm (pop_perm hTop)).trans
        hMoved).trans hPushed).trans ih
  | case3 q t hTop hTweak =>
      exact Settles.of_perm (List.Perm.refl _)

/- Cleaning drops requests and settles the others. -/
theorem clean_settles
    (q : RequestQueue τ) :
    Settles q.list (q.clean.2 ++ q.clean.1.list) := by
  fun_induction clean q with
  | case1 q hDone =>
      have hPerm := dropDone_perm q
      rw [List.isEmpty_iff.mp hDone.1] at hPerm
      exact (Settles.of_perm hPerm).trans
        (reschedule_settles _)
  | case2 q hWork q' dropped hRest ih =>
      rw [hRest] at ih
      rw [List.append_assoc]
      apply (Settles.of_perm (dropDone_perm q)).trans
      apply Settles.append_left
      exact (reschedule_settles _).trans ih

/- Only done requests are dropped. -/
theorem isDone_of_clean
    (q : RequestQueue τ) :
    ∀ t ∈ q.clean.2, t.isDone = true := by
  fun_induction clean q with
  | case1 q hDone => simp
  | case2 q hWork q' dropped hRest ih =>
      rw [hRest] at ih
      intro t ht
      rcases List.mem_append.mp ht with hFirst | hLater
      · exact isDone_of_dropped q t hFirst
      · exact ih t hLater

/- After cleaning, the top is neither done nor tweaked. -/
theorem topReady_clean
    (q : RequestQueue τ) :
    q.clean.1.topDone = false ∧
      q.clean.1.topTweaked = false := by
  fun_induction clean q with
  | case1 q hDone =>
      rw [reschedule_eq hDone.2]
      exact ⟨topDone_dropDone q, hDone.2⟩
  | case2 q hWork q' dropped hRest ih =>
      rw [hRest] at ih
      exact ih

------------------------------------------------------------
-- Queues of One Request
------------------------------------------------------------

/- The queue with one request. -/
def single
    (t : Tagged τ) : RequestQueue τ where
  entries := #[t]
  ordered := by
    intro j hj hj0
    simp at hj
    omega

theorem eq_of_list
    {q q' : RequestQueue τ}
    (hList : q.list = q'.list) :
    q = q' := by
  cases q
  cases q'
  congr
  exact Array.toList_inj.mp hList

theorem push_empty
    (t : Tagged τ) :
    empty.push t = single t :=
  eq_of_list (List.perm_singleton.mp push_perm)

theorem pop_single
    (t : Tagged τ) :
    (single t).pop = empty := by
  apply eq_of_list
  have hLength := length_pop (q := single t) (t := t) rfl
  exact List.length_eq_zero_iff.mp
    (Nat.succ.inj hLength).symm

theorem ackRequest_single
    (change : StateChange)
    (delta : MillisecondTime)
    (now : TimePoint)
    (t : Tagged τ) :
    (single t).ackRequest change delta now =
      single (t.acknowledge change delta
        (if delta = 0 then none
          else some (now + milliseconds delta))) := by
  apply eq_of_list
  rw [list_ackRequest]
  rfl

/- Cleaning settles a request that is not done. -/
theorem clean_single
    {t : Tagged τ}
    (hDone : t.isDone = false) :
    (single t).clean = (single t.settle, []) := by
  rcases clean_settles (single t) with ⟨m, hPerm, hForall⟩
  have hList : m = [t] := List.perm_singleton.mp hPerm.symm
  rw [hList] at hForall
  generalize hAll : (single t).clean.2 ++
    (single t).clean.1.list = l at hForall
  cases hForall with
  | @cons _ t' _ _ hHead hTail =>
      cases hTail
      have hKept : t'.isDone = false := by
        rcases hHead with rfl | rfl
        · exact hDone
        · rw [Tagged.isDone_settle]
          exact hDone
      have hDropped : (single t).clean.2 = [] := by
        apply List.eq_nil_iff_forall_not_mem.mpr
        intro u hu
        have hMem := List.mem_append_left
          (single t).clean.1.list hu
        rw [hAll, List.mem_singleton] at hMem
        have hMust := isDone_of_clean (single t) u hu
        rw [hMem, hKept] at hMust
        cases hMust
      rw [hDropped, List.nil_append] at hAll
      have hQueue : (single t).clean.1 = single t' :=
        eq_of_list hAll
      have hSettled := (topReady_clean (single t)).2
      rw [hQueue] at hSettled
      have hTweak : t'.isTweaked = false := hSettled
      have hSame : t' = t.settle := by
        rcases hHead with rfl | rfl
        · exact (Tagged.settle_eq hTweak).symm
        · rfl
      rw [← hSame, ← hQueue, ← hDropped]

------------------------------------------------------------
-- Taking a Due Request
------------------------------------------------------------

/-
  Take the top when it is due. The request has left the queue
  when the assertion on its new deadline is checked.
-/
def takeDue
    (now : TimePoint)
    (q : RequestQueue τ) :
    RequestQueue τ × Except AssertionFailed
      (Option (Tagged τ)) :=
  match q.top? with
  | none => (q, .ok none)
  | some t =>
      if t.deadline ≤ now then
        (q.pop,
          (assert (t.request.tweakedDeadline = none)
            "invalid deadline").map fun _ => some t)
      else (q, .ok none)

/- A due top is taken, unless it has got a new deadline. -/
theorem takeDue_cases
    (q : RequestQueue τ)
    (now : TimePoint) :
    q.takeDue now = (q, .ok none) ∨
      ∃ t, q.top? = some t ∧ t.deadline ≤ now ∧
        ((t.isTweaked = false ∧
            q.takeDue now = (q.pop, .ok (some t))) ∨
          (t.isTweaked = true ∧
            ∃ e, q.takeDue now = (q.pop, .error e))) := by
  unfold takeDue
  cases hTop : q.top? with
  | none => exact Or.inl rfl
  | some t =>
      by_cases hDue : t.deadline ≤ now
      · right
        refine ⟨t, rfl, hDue, ?_⟩
        cases hTweak : t.request.tweakedDeadline with
        | none =>
            left
            refine ⟨by simp [Tagged.isTweaked, hTweak], ?_⟩
            simp only [hDue, hTweak, if_true]
            rfl
        | some d =>
            right
            refine ⟨by simp [Tagged.isTweaked, hTweak],
              ⟨"invalid deadline", .generall⟩, ?_⟩
            simp [hDue, hTweak, assert]
            rfl
      · exact Or.inl (if_neg hDue)

/- What is taken, and what stays, has been in the queue. -/
theorem takeDue_mem
    (q : RequestQueue τ)
    (now : TimePoint) :
    (∀ t ∈ (q.takeDue now).1.list, t ∈ q.list) ∧
      ∀ t, (q.takeDue now).2 = .ok (some t) →
        t ∈ q.list := by
  rcases takeDue_cases q now with
    hNone | ⟨u, hTop, _, ⟨_, hSome⟩ | ⟨_, e, hFails⟩⟩
  · rw [hNone]
    refine ⟨fun _ ht => ht, ?_⟩
    intro t ht
    cases ht
  · rw [hSome]
    refine ⟨fun t ht => ?_, ?_⟩
    · exact (pop_perm hTop).mem_iff.mpr
        (List.mem_cons_of_mem u ht)
    · intro t ht
      rw [← Option.some.inj (Except.ok.inj ht)]
      exact mem_top hTop
  · rw [hFails]
    refine ⟨fun t ht => ?_, ?_⟩
    · exact (pop_perm hTop).mem_iff.mpr
        (List.mem_cons_of_mem u ht)
    · intro t ht
      cases ht

/- The earliest deadline is not later than any request. -/
theorem earliestDeadline_le
    {q : RequestQueue τ}
    {extra : TimePoint} :
    ∀ t ∈ q.list, q.earliestDeadline extra ≤ t.deadline := by
  intro t ht
  unfold earliestDeadline
  cases hTop : q.top? with
  | none =>
      rw [list_eq_nil hTop] at ht
      cases ht
  | some u =>
      exact le_trans (min_le_left _ _) (top_le hTop t ht)

theorem earliestDeadline_le_extra
    {q : RequestQueue τ}
    {extra : TimePoint} :
    q.earliestDeadline extra ≤ extra := by
  unfold earliestDeadline
  split
  · exact le_refl _
  · exact min_le_right _ _

/- While the earliest deadline lies ahead, all do. -/
theorem lt_deadline_of_early
    {q : RequestQueue τ}
    {d0 clock : TimePoint}
    (hEarly : ¬ q.earliestDeadline d0 ≤ clock) :
    ∀ t ∈ q.list, clock < t.deadline :=
  fun t ht => lt_of_lt_of_le (not_le.mp hEarly)
    (earliestDeadline_le t ht)

/- A push that does not signal leaves an earlier deadline in
the queue. -/
theorem exists_le_of_not_signals
    {q : RequestQueue τ}
    {t : Tagged τ}
    (hQuiet : q.pushSignals t = false) :
    ∃ u ∈ q.list, u.deadline ≤ t.deadline := by
  unfold pushSignals at hQuiet
  cases hTop : q.top? with
  | none =>
      rw [hTop] at hQuiet
      cases hQuiet
  | some u =>
      rw [hTop] at hQuiet
      exact ⟨u, mem_top hTop,
        not_lt.mp (of_decide_eq_false hQuiet)⟩

/- A request that is taken has no new deadline. -/
theorem isTweaked_of_taken
    {q : RequestQueue τ}
    {now : TimePoint}
    {t : Tagged τ}
    (hTaken : (q.takeDue now).2 = .ok (some t)) :
    t.isTweaked = false := by
  rcases takeDue_cases q now with
    hNone | ⟨u, _, _, ⟨hTweak, hSome⟩ | ⟨_, e, hFails⟩⟩
  · rw [hNone] at hTaken
    cases hTaken
  · rw [hSome] at hTaken
    cases hTaken
    exact hTweak
  · rw [hFails] at hTaken
    cases hTaken

/- Nothing is due before the earliest deadline. -/
theorem takeDue_early
    {q : RequestQueue τ}
    {now : TimePoint}
    (hEarly : ∀ t ∈ q.list, now < t.deadline) :
    q.takeDue now = (q, .ok none) := by
  rcases takeDue_cases q now with hNone | ⟨t, hTop, hDue, _⟩
  · exact hNone
  · have hLater := hEarly t (mem_top hTop)
    exact absurd hLater (Int.not_lt.mpr hDue)

/- A clean queue whose earliest deadline has passed yields
its top or nothing. -/
theorem takeDue_clean
    {q : RequestQueue τ}
    (hTweaked : q.topTweaked = false)
    (now : TimePoint) :
    (q.takeDue now = (q, .ok none)) ∨
      ∃ t, q.top? = some t ∧ t.deadline ≤ now ∧
        q.takeDue now = (q.pop, .ok (some t)) := by
  rcases takeDue_cases q now with
    hNone | ⟨t, hTop, hDue, ⟨_, hSome⟩ | ⟨hTweak, _⟩⟩
  · exact Or.inl hNone
  · exact Or.inr ⟨t, hTop, hDue, hSome⟩
  · rw [topTweaked, hTop, Option.any_some, hTweak] at hTweaked
    cases hTweaked

------------------------------------------------------------
-- Commands of the Requests
------------------------------------------------------------

/- The operations of the queue keep what holds of the
commands of all requests. -/
section Commands

variable {P : Command → Prop}
variable {q : RequestQueue τ}

theorem commands_push
    {t : Tagged τ}
    (hAll : ∀ u ∈ q.list, P u.request.command)
    (hNew : P t.request.command) :
    ∀ u ∈ (q.push t).list, P u.request.command := by
  intro u hu
  rcases List.mem_cons.mp (push_perm.mem_iff.mp hu) with
    rfl | hOld
  · exact hNew
  · exact hAll u hOld

theorem commands_ackRequest
    {change : StateChange}
    {delta : MillisecondTime}
    {now : TimePoint}
    (hAll : ∀ u ∈ q.list, P u.request.command) :
    ∀ u ∈ (q.ackRequest change delta now).list,
      P u.request.command := by
  intro u hu
  rw [list_ackRequest] at hu
  rcases List.mem_map.mp hu with ⟨t, ht, rfl⟩
  have hCommand :
      ∀ newDeadline,
        (t.acknowledge change delta
            newDeadline).request.command =
          t.request.command := by
    intro newDeadline
    unfold Tagged.acknowledge
    split
    · rfl
    · rfl
  rw [hCommand]
  exact hAll t ht

theorem commands_clean
    (hAll : ∀ u ∈ q.list, P u.request.command) :
    ∀ u ∈ q.clean.1.list, P u.request.command := by
  have hSettle : ∀ t : Tagged τ,
      t.settle.request.command = t.request.command := by
    intro t
    unfold Tagged.settle
    split
    · rfl
    · rfl
  intro u hu
  have hMem :
      u.request.command ∈ q.list.map
        fun t => t.request.command := by
    apply (q.clean_settles.map_perm _ hSettle).mem_iff.mpr
    exact List.mem_map_of_mem (List.mem_append_right _ hu)
  rcases List.mem_map.mp hMem with ⟨t, ht, hSame⟩
  rw [← hSame]
  exact hAll t ht

end Commands

end RequestQueue

end ElevatorControl
