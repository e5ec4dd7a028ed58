import ElevatorControl.Network.Session

/-
  What the sender of `connect` hands to its socket.

  `_initSender` loads the phase twice in a round, for the
  test of its loop and for the choice of the message, while
  `_initListener` stores a new phase whenever a packet tells
  it to. All stores of one pass of the listener are of the
  same phase.

  Key definitions include:
    * `InitThreads`
    * `InitThreads.step`
    * `InitThreads.StoresBetweenRounds`

  Key theorems include:
    * `InitThreads.sends_well_formed`
    * `InitThreads.hands_nothing`
-/

------------------------------------------------------------
-- Threads
------------------------------------------------------------

namespace ElevatorControl

open SessionNode

/- The threads of `connect`, and the packets handed to
`sendPacket` so far. -/
structure InitThreads where
  node : SessionNode
  handed : List (List UInt8)

namespace InitThreads

/-
  What a thread does next. The sender loads the phase in
  `check` and again in `pack`. The listener may receive any
  packet from anyone, with any memory behind it.
-/
inductive Action where
  | check
  | pack
  | sendPacket
  | listen
      (source : IPv4Address)
      (pack memory : List UInt8)

/- One action, if the thread is there. `count` is the number
of elevators. -/
def step
    (count : Int)
    (a : Action)
    (s : InitThreads) : Option InitThreads :=
  match a with
  | .check =>
      if s.node.sender = .idle ∧ s.node.initPhase < 2 then
        some { s with
          node := { s.node with sender := .checked } }
      else none
  | .pack =>
      if s.node.sender = .checked then
        some { s with
          node :=
            { s.node with sender := .packed s.node.pack } }
      else none
  | .sendPacket =>
      match s.node.sender with
      | .packed bytes =>
          some
            { node := { s.node with sender := .idle }
              handed := s.handed ++ [bytes] }
      | _ => none
  | .listen source pack memory =>
      if s.node.initPhase < 2 then
        (s.node.listen count source pack memory).map
          fun node => { s with node := node }
      else none

/- The runs whose actions all meet a condition. -/
def system
    (count : Int)
    (C : Action → InitThreads → Prop) :
    TransitionSystem InitThreads where
  Init s := ∃ id, s = ⟨.start id, []⟩
  Step s s' := ∃ a, C a s ∧ step count a s = some s'

/- A serialized Initial or Ready message. -/
def WellFormed
    (bytes : List UInt8) : Prop :=
  bytes = message Wire.Initial.messageType {} ∨
    bytes = message Wire.Ready.messageType {}

/- The listener does not end the phases while the sender is
between its two loads. -/
def StoresBetweenRounds
    (count : Int)
    (a : Action)
    (s : InitThreads) : Prop :=
  ∀ source pack memory,
    a = .listen source pack memory →
    s.node.sender = .checked →
      ∀ node ∈ s.node.listen count source pack memory,
        node.initPhase < 2

------------------------------------------------------------
-- Listener
------------------------------------------------------------

section Listener

variable {n n' : SessionNode}
variable {count : Int}
variable {source : IPv4Address}
variable {pack memory : List UInt8}

theorem sender_checkBarrier :
    (checkBarrier count n).sender = n.sender := by
  unfold checkBarrier
  split
  · rfl
  · split
    · rfl
    · rfl

/- The listener leaves the sender where it is. -/
theorem sender_listen
    (hListen :
      n.listen count source pack memory = some n') :
    n'.sender = n.sender := by
  have hChecked : ∀ m : SessionNode,
      some (checkBarrier count m) = some n' →
      m.sender = n.sender →
        n'.sender = n.sender := by
    intro m hSome hSender
    rw [← Option.some.inj hSome, sender_checkBarrier, hSender]
  unfold SessionNode.listen at hListen
  split at hListen
  · rw [← Option.some.inj hListen]
  · split at hListen
    · split at hListen
      · exact hChecked _ hListen rfl
      · split at hListen
        · exact hChecked _ hListen rfl
        · split at hListen
          · split at hListen
            · exact hChecked _ hListen rfl
            · cases hListen
          · split at hListen
            · split at hListen
              · exact hChecked _ hListen rfl
              · cases hListen
            · exact hChecked _ hListen rfl
    · cases hListen

end Listener

------------------------------------------------------------
-- Sender
------------------------------------------------------------

section Sender

variable {count : Int}
variable {s s' : InitThreads}

/- There is a message for each of the phases 0 and 1. -/
theorem wellFormed_pack
    {n : SessionNode}
    (hPhase : n.initPhase < 2) :
    WellFormed n.pack := by
  unfold SessionNode.pack
  rcases Nat.le_one_iff_eq_zero_or_eq_one.mp
    (Nat.le_of_lt_succ hPhase) with hZero | hOne
  · rw [hZero]
    exact Or.inl rfl
  · rw [hOne]
    exact Or.inr rfl

/- And none for a later one. -/
theorem pack_eq_nil
    {n : SessionNode}
    (hPhase : 2 ≤ n.initPhase) :
    n.pack = [] := by
  unfold SessionNode.pack
  split
  · next hZero =>
      rw [hZero] at hPhase
      exact absurd hPhase (by decide)
  · next hOne =>
      rw [hOne] at hPhase
      exact absurd hPhase (by decide)
  · rfl

/-
  The phase the sender has tested still holds when it is
  loaded again.
-/
structure Steady
    (s : InitThreads) : Prop where
  checked : s.node.sender = .checked →
    s.node.initPhase < 2
  packed : ∀ bytes, s.node.sender = .packed bytes →
    WellFormed bytes
  handed : ∀ bytes ∈ s.handed, WellFormed bytes

theorem steady_of_step
    {a : Action}
    (hSteady : Steady s)
    (hStores : StoresBetweenRounds count a s)
    (hStep : step count a s = some s') :
    Steady s' := by
  cases a with
  | check =>
      dsimp only [step] at hStep
      split at hStep
      · next hIdle =>
          rw [← Option.some.inj hStep]
          exact
            { checked := fun _ => hIdle.2
              packed := fun _ hPacked =>
                nomatch hPacked
              handed := hSteady.handed }
      · cases hStep
  | pack =>
      dsimp only [step] at hStep
      split at hStep
      · next hChecked =>
          rw [← Option.some.inj hStep]
          refine
            { checked := fun hNot => nomatch hNot
              packed := ?_
              handed := hSteady.handed }
          intro bytes hPacked
          rw [← InitSender.packed.inj hPacked]
          exact wellFormed_pack (hSteady.checked hChecked)
      · cases hStep
  | sendPacket =>
      dsimp only [step] at hStep
      split at hStep
      · next bytes hPacked =>
          rw [← Option.some.inj hStep]
          refine
            { checked := fun hNot => nomatch hNot
              packed := fun _ hNot => nomatch hNot
              handed := ?_ }
          intro other hOther
          rcases List.mem_append.mp hOther with
            hEarlier | hLast
          · exact hSteady.handed other hEarlier
          · rw [List.mem_singleton.mp hLast]
            exact hSteady.packed bytes hPacked
      · cases hStep
  | listen source pack memory =>
      dsimp only [step] at hStep
      split at hStep
      · rcases Option.map_eq_some_iff.mp hStep with
          ⟨node, hListen, rfl⟩
        have hSender := sender_listen hListen
        refine
          { checked := ?_
            packed := ?_
            handed := hSteady.handed }
        · intro hChecked
          rw [hSender] at hChecked
          exact hStores source pack memory rfl hChecked
            node hListen
        · intro bytes hPacked
          rw [hSender] at hPacked
          exact hSteady.packed bytes hPacked
      · cases hStep

/-
  In a run in which the phases never end between the loads of
  a round, every packet handed to the socket is a serialized
  Initial or Ready message.
-/
theorem sends_well_formed
    (hReach :
      (system count (StoresBetweenRounds count)).Reachable
        s) :
    ∀ bytes ∈ s.handed, WellFormed bytes := by
  have hSteady : Steady s := by
    apply hReach.invariant
    · rintro _ ⟨id, rfl⟩
      exact
        { checked := fun hNot => nomatch hNot
          packed := fun _ hNot => nomatch hNot
          handed := fun _ hNone => nomatch hNone }
    · rintro t t' hSteady ⟨a, hStores, hStep⟩
      exact steady_of_step hSteady hStores hStep
  exact hSteady.handed

theorem step_check
    (hIdle : s.node.sender = .idle)
    (hPhase : s.node.initPhase < 2) :
    step count .check s =
      some { s with
        node := { s.node with sender := .checked } } :=
  if_pos ⟨hIdle, hPhase⟩

theorem step_pack
    (hChecked : s.node.sender = .checked) :
    step count .pack s =
      some { s with
        node :=
          { s.node with sender := .packed s.node.pack } } :=
  if_pos hChecked

theorem step_listen
    {source : IPv4Address}
    {pack memory : List UInt8}
    {node : SessionNode}
    (hPhase : s.node.initPhase < 2)
    (hListen :
      s.node.listen count source pack memory = some node) :
    step count (.listen source pack memory) s =
      some { s with node := node } := by
  unfold step
  dsimp only
  rw [if_pos hPhase, hListen]
  rfl

/- Otherwise the next packet of the sender has no data. -/
theorem hands_nothing
    {source : IPv4Address}
    {pack memory : List UInt8}
    {node : SessionNode}
    (hChecked : s.node.sender = .checked)
    (hListen :
      s.node.listen count source pack memory = some node)
    (hPhase : 2 ≤ node.initPhase) :
    step count .pack { s with node := node } =
        some { s with
          node := { node with sender := .packed [] } } ∧
      step count .sendPacket
          { s with
            node := { node with sender := .packed [] } } =
        some
          { node := { node with sender := .idle }
            handed := s.handed ++ [[]] } := by
  have hSender : node.sender = .checked := by
    rw [sender_listen hListen, hChecked]
  refine ⟨?_, rfl⟩
  rw [step_pack hSender, pack_eq_nil hPhase]

/- The sender's own actions. -/
def OfSender : Action → Prop
  | .listen _ _ _ => False
  | _ => True

/- A round of the sender between two passes of the
listener. -/
theorem reachable_round
    {C : Action → InitThreads → Prop}
    (hReach : (system count C).Reachable s)
    (hMeets : ∀ a t, OfSender a → C a t)
    (hIdle : s.node.sender = .idle)
    (hPhase : s.node.initPhase < 2) :
    (system count C).Reachable
      ⟨s.node, s.handed ++ [s.node.pack]⟩ := by
  have hChecked := hReach.step
    ⟨.check, hMeets _ _ trivial, step_check hIdle hPhase⟩
  have hPacked := hChecked.step
    ⟨.pack, hMeets _ _ trivial, step_pack rfl⟩
  have hSent := hPacked.step
    ⟨.sendPacket, hMeets _ _ trivial, rfl⟩
  rw [← hIdle] at hSent
  exact hSent

end Sender

------------------------------------------------------------
-- A Single Elevator
------------------------------------------------------------

/- The first round sends an Initial message. -/
theorem sends_well_formed_firstRound :
    ∃ s,
      (system 1 (StoresBetweenRounds 1)).Reachable s ∧
        s.handed = [message Wire.Initial.messageType {}] ∧
        ∀ bytes ∈ s.handed, WellFormed bytes := by
  have hInit :
      (system 1 (StoresBetweenRounds 1)).Reachable
        ⟨.start 0, []⟩ :=
    TransitionSystem.Reachable.init ⟨0, rfl⟩
  have hSent := reachable_round hInit
    (fun a t hSender source pack memory hListen => by
      rw [hListen] at hSender
      exact hSender.elim)
    rfl (by decide)
  exact ⟨_, hSent, rfl, sends_well_formed hSent⟩

/- The only elevator, when it has heard of itself. -/
def joined : SessionNode :=
  { start 0 with
    initPhase := 1
    peers := {0} }

/- The sender has tested the phase for its third round. -/
def thirdRound : InitThreads where
  node := { joined with sender := .checked }
  handed :=
    [message Wire.Initial.messageType {},
      message Wire.Ready.messageType {}]

/- The elevator has also heard that it is ready. -/
def finished : SessionNode :=
  { thirdRound.node with
    initPhase := 2
    barrier := {0} }

/-
  The elevator receives its own Initial message and then its
  own Ready message. The sender is in its third round then,
  has found the phase to be 1, and makes no message for the
  phase 2 it loads next.
-/
theorem thirdRound_hands_nothing :
    ∃ s,
      (system 1 fun _ _ => True).Reachable s ∧
        s.handed =
          [message Wire.Initial.messageType {},
            message Wire.Ready.messageType {}, []] ∧
        ¬ ∀ bytes ∈ s.handed, WellFormed bytes := by
  have hInit :
      (system 1 fun _ _ => True).Reachable
        ⟨.start 0, []⟩ :=
    TransitionSystem.Reachable.init ⟨0, rfl⟩
  have hFirst := reachable_round hInit
    (fun _ _ _ => trivial) rfl (by decide)
  have hInitial :
      (start 0).listen 1 0
        (message Wire.Initial.messageType {}) [] =
          some joined := by
    rw [listen_initial]
    unfold checkBarrier
    rw [if_neg (by decide), if_pos (by decide)]
    rfl
  have hJoined := hFirst.step
    ⟨_, trivial, step_listen (by decide) hInitial⟩
  have hSecond := reachable_round hJoined
    (fun _ _ _ => trivial) rfl (by decide)
  have hChecked : (system 1 fun _ _ => True).Reachable
      thirdRound :=
    hSecond.step ⟨.check, trivial, step_check rfl (by decide)⟩
  have hReady :
      thirdRound.node.listen 1 0
        (message Wire.Ready.messageType {}) [] =
          some finished := by
    rw [listen_ready]
    unfold checkBarrier
    rw [if_pos (by decide)]
    rfl
  have hStored := hChecked.step
    ⟨_, trivial, step_listen (by decide) hReady⟩
  rcases hands_nothing (s := thirdRound) rfl hReady
    (by decide) with
    ⟨hPack, hSend⟩
  have hPacked := hStored.step ⟨.pack, trivial, hPack⟩
  have hSent := hPacked.step ⟨.sendPacket, trivial, hSend⟩
  refine ⟨_, hSent, rfl, ?_⟩
  intro hAll
  have hMem : ([] : List UInt8) ∈
      [message Wire.Initial.messageType {},
        message Wire.Ready.messageType {}, []] :=
    List.mem_cons_of_mem _
      (List.mem_cons_of_mem _ (List.mem_singleton_self []))
  rcases hAll [] hMem with hInitial | hReady
  · exact message_ne_nil _ _ hInitial.symm
  · exact message_ne_nil _ _ hReady.symm

end InitThreads

end ElevatorControl
