import Mathlib.Algebra.BigOperators.Group.Finset.Piecewise
import Mathlib.Algebra.Order.BigOperators.Group.Finset
import ElevatorControl.Library.TransitionSystem
import ElevatorControl.Scheduler.Queues
import ElevatorControl.Wire.Messages

/-
  Routing of commands between the nodes.

  The scheduler of a node splits commands between its own
  elevator and the network, a sender broadcasts what is for
  the network, and a receiver on every node hands over the
  commands its predicate accepts. The network delivers each
  broadcast exactly once to every node, the sender included,
  in any order.

  Every command carries the number of the call it was
  forwarded by, which no code looks at.

  Key definitions include:
    * `Cluster`
    * `QueueReceiver.receive`
    * `Routing.Step`
    * `Routing.Routed`

  Key theorems include:
    * `Routing.inv_of_step`
    * `Routing.settles`
    * `Routing.routed_iff`
-/

------------------------------------------------------------
-- Nodes
------------------------------------------------------------

namespace ElevatorControl

/- The address of a socket that is bound to every local
address. -/
def IPv4Address.any : IPv4Address := 0

/-
  The nodes of the network. Their ids are pairwise distinct
  and below the id that stands for every node, and their
  packets carry the address of the sender.
-/
structure Cluster (ι : Type) where
  id : ι → Int
  address : ι → IPv4Address
  id_injective : Function.Injective id
  id_ne_anyId : ∀ i, id i ≠ Command.anyId
  address_ne_any : ∀ i, address i ≠ IPv4Address.any

/- A command with the number of the call that forwarded it. -/
structure Tracked where
  call : Nat
  command : Wire.Command
  deriving DecidableEq, Repr

/- The elevator the command is for. -/
def Tracked.target
    (m : Tracked) : Int :=
  m.command.targetElevatorId

/- A command on its way, with its sender. -/
structure Datagram where
  call : Nat
  source : IPv4Address
  bytes : List UInt8
  deriving DecidableEq, Repr

/-
  One pass of the receiver's loop: the message to enqueue,
  if any.
-/
def QueueReceiver.receive
    {α : Type}
    (t : MessageType α)
    (localAddress : IPv4Address)
    (pred : α → Bool)
    (source : IPv4Address)
    (packet : List UInt8) : Outcome (Option α) :=
  if source = localAddress then
    .just none
  else
    match Serializer.fromPacket t packet with
    | .just x => .just (if pred x then some x else none)
    | .nothing =>
        .failed ⟨"Received invalid message", .generall⟩
    | .failed e => .failed e
    | .badAlloc => .badAlloc
    | .outOfRange => .outOfRange

/-
  The queues of one node, the datagrams the network has
  delivered to it, and the commands its elevator has taken.
-/
structure Router where
  queues : CommandQueues Tracked
  inbox : List Datagram
  taken : List Tracked
  deriving DecidableEq, Repr

namespace Router

/- The node before any call. -/
def empty : Router := ⟨.empty, [], []⟩

/- A call of the forwarder, with its number. -/
def forward
    (id : Int)
    (m : Tracked)
    (r : Router) : Router :=
  { r with
    queues :=
      r.queues.forwardToTargets Tracked.target id m }

/- The receiver accepts the commands for its own id. -/
def receive
    (id : Int)
    (d : Datagram)
    (r : Router) : Router :=
  match QueueReceiver.receive Wire.Command.messageType
      IPv4Address.any
      (fun comm => comm.targetElevatorId == id)
      d.source (Serializer.recvPacket d.bytes) with
  | .just (some comm) =>
      { r with
        queues := r.queues.enqueueLocal ⟨d.call, comm⟩ }
  | _ => r

/- The calls whose commands the queue of the elevator has
received. -/
def received
    (r : Router) : List Nat :=
  (r.taken ++ r.queues.toLocal).map Tracked.call

/- How often a command waits for the sender. -/
def waiting
    (r : Router)
    (call : Nat) : Nat :=
  (r.queues.toRemote.map Tracked.call).count call

/- How often a command waits for the receiver. -/
def arrived
    (r : Router)
    (call : Nat) : Nat :=
  (r.inbox.map Datagram.call).count call

end Router

/- The datagram a sender broadcasts. -/
def broadcast
    (source : IPv4Address)
    (m : Tracked) : Option Datagram :=
  match Serializer.toPacket Wire.Command.messageType
      m.command with
  | .just bytes => some ⟨m.call, source, bytes⟩
  | _ => none

------------------------------------------------------------
-- Steps
------------------------------------------------------------

/- All nodes, and the calls of `_forwardToTargets` so far
with the node that made them. -/
structure Routing (ι : Type) where
  router : ι → Router
  calls : List (ι × Wire.Command)

namespace Routing

variable {ι : Type}

/- The node `i` is changed. -/
def update
    [DecidableEq ι]
    (s : Routing ι)
    (i : ι)
    (f : Router → Router) : Routing ι :=
  { s with
    router := Function.update s.router i (f (s.router i)) }

/- The sender of `i` has broadcast `m`. -/
def sent
    [DecidableEq ι]
    (C : Cluster ι)
    (s : Routing ι)
    (i : ι)
    (m : Tracked)
    (rest : List Tracked) : Routing ι :=
  { s with
    router := fun j =>
      { s.router j with
        queues :=
          if j = i then
            { (s.router j).queues with toRemote := rest }
          else (s.router j).queues
        inbox := (s.router j).inbox ++
          (broadcast (C.address i) m).toList } }

/- The receiver of `j` has read `d` and left the rest. -/
def received
    [DecidableEq ι]
    (C : Cluster ι)
    (s : Routing ι)
    (j : ι)
    (d : Datagram)
    (rest : List Datagram) : Routing ι :=
  s.update j fun r =>
    { r.receive (C.id j) d with inbox := rest }

/- The elevator of `j` has taken `m` off its queue. -/
def dequeued
    [DecidableEq ι]
    (s : Routing ι)
    (j : ι)
    (m : Tracked)
    (rest : List Tracked) : Routing ι :=
  s.update j fun r =>
    { r with
      queues.toLocal := rest
      taken := r.taken ++ [m] }

/-
  The steps of the network. Senders and receivers run only
  if there is more than one node.
-/
inductive Step
    [Fintype ι]
    [DecidableEq ι]
    (C : Cluster ι) :
    Routing ι → Routing ι → Prop where
  | forward
      (s : Routing ι)
      (i : ι)
      (comm : Wire.Command)
      (hRange : comm.InRange) :
      Step C s
        { s.update i
            (Router.forward (C.id i) ⟨s.calls.length, comm⟩)
          with calls := s.calls ++ [(i, comm)] }
  | send
      (s : Routing ι)
      (i : ι)
      (m : Tracked)
      (rest : List Tracked)
      (hNodes : 1 < Fintype.card ι)
      (hHead : (s.router i).queues.toRemote = m :: rest) :
      Step C s (s.sent C i m rest)
  | receive
      (s : Routing ι)
      (j : ι)
      (d : Datagram)
      (before after : List Datagram)
      (hNodes : 1 < Fintype.card ι)
      (hInbox : (s.router j).inbox = before ++ d :: after) :
      Step C s (s.received C j d (before ++ after))
  | take
      (s : Routing ι)
      (j : ι)
      (m : Tracked)
      (rest : List Tracked)
      (hHead : (s.router j).queues.toLocal = m :: rest) :
      Step C s (s.dequeued j m rest)

/- Nothing has been forwarded. -/
def initial : Routing ι := ⟨fun _ => .empty, []⟩

/- The nodes of the cluster and their network. -/
def system
    [Fintype ι]
    [DecidableEq ι]
    (C : Cluster ι) : TransitionSystem (Routing ι) where
  Init s := s = initial
  Step := Step C

------------------------------------------------------------
-- Delivery
------------------------------------------------------------

/- The node is an addressee of the command. -/
def Addressed
    (C : Cluster ι)
    (comm : Wire.Command)
    (j : ι) : Prop :=
  comm.targetElevatorId = C.id j ∨
    comm.targetElevatorId = Command.anyId

/- Nothing is on its way. -/
def Settled
    [Fintype ι]
    (s : Routing ι) : Prop :=
  1 < Fintype.card ι →
    ∀ i, (s.router i).queues.toRemote = [] ∧
      (s.router i).inbox = []

/- Every addressee has received the command of the call
exactly once, and no other node has. -/
def Routed
    (C : Cluster ι)
    (s : Routing ι)
    (call : Nat)
    (comm : Wire.Command) : Prop :=
  ∀ j,
    (Addressed C comm j →
      (s.router j).received.count call = 1) ∧
    (¬ Addressed C comm j →
      (s.router j).received.count call = 0)

/-
  Where the command of a call is: the elevator of the caller
  got it at once if it is an addressee. Another node has it,
  or will get it, only if it is the target.
-/
def Placed
    (C : Cluster ι)
    (s : Routing ι)
    (call : Nat)
    (i : ι)
    (comm : Wire.Command)
    (j : ι) : Prop :=
  (j = i → Addressed C comm j →
    (s.router j).received.count call = 1) ∧
  (j = i → ¬ Addressed C comm j →
    (s.router j).received.count call = 0) ∧
  (j ≠ i → comm.targetElevatorId = C.id j →
    (s.router j).received.count call +
      ((s.router i).waiting call +
        (s.router j).arrived call) = 1) ∧
  (j ≠ i → comm.targetElevatorId ≠ C.id j →
    (s.router j).received.count call = 0)

/-
  Commands on their way belong to their call and are not for
  the node that sent them.
-/
structure Inv
    (C : Cluster ι)
    (s : Routing ι) : Prop where
  inRange : ∀ e ∈ s.calls, e.2.InRange
  remote : ∀ i, ∀ m ∈ (s.router i).queues.toRemote,
    s.calls[m.call]? = some (i, m.command) ∧
      m.target ≠ C.id i
  inbox : ∀ j, ∀ d ∈ (s.router j).inbox,
    ∃ i m, s.calls[m.call]? = some (i, m.command) ∧
      m.target ≠ C.id i ∧
      broadcast (C.address i) m = some d
  fresh : ∀ j, ∀ call ∈ (s.router j).received,
    call < s.calls.length
  placed : ∀ call i comm,
    s.calls[call]? = some (i, comm) →
      ∀ j, Placed C s call i comm j

------------------------------------------------------------
-- Packets of Commands
------------------------------------------------------------

/- A command is sent in one datagram. -/
theorem broadcast_eq
    (m : Tracked)
    (source : IPv4Address) :
    broadcast source m =
      some ⟨m.call, source, Serializer.packet
        (Serializer.serialize Wire.Command.messageType
          m.command)⟩ := by
  have hSize := Wire.encodedSize_command m.command
  unfold broadcast
  rw [Serializer.toPacket_eq_just (by rw [hSize]; decide)]

theorem recvPacket_command
    (comm : Wire.Command) :
    Serializer.recvPacket (Serializer.packet
        (Serializer.serialize Wire.Command.messageType
          comm)) =
      Serializer.packet
        (Serializer.serialize Wire.Command.messageType
          comm) := by
  have hData : (Serializer.serialize
      Wire.Command.messageType comm).data.length = 12 :=
    Serializer.length_data _ _
  have hLength := Serializer.length_packet
    (Serializer.serialize Wire.Command.messageType comm)
  rw [hData] at hLength
  exact Serializer.recvPacket_eq (by rw [hLength]; decide)

theorem receive_packet
    {comm : Wire.Command}
    {source : IPv4Address}
    (hRange : comm.InRange)
    (hSource : source ≠ IPv4Address.any)
    (pred : Wire.Command → Bool) :
    QueueReceiver.receive Wire.Command.messageType
        IPv4Address.any pred source
        (Serializer.packet (Serializer.serialize
          Wire.Command.messageType comm)) =
      .just (if pred comm then some comm else none) := by
  have hSize := Wire.encodedSize_command comm
  have hRead : Serializer.fromPacket
      Wire.Command.messageType
      (Serializer.packet (Serializer.serialize
        Wire.Command.messageType comm)) = .just comm :=
    Serializer.fromPacket_packet (by rw [hSize]; decide) rfl
      (Wire.valid_command hRange)
  unfold QueueReceiver.receive
  rw [if_neg hSource, hRead]

/- The receiver hands over a command exactly if its target
is the id of the node. -/
theorem receive_eq
    {m : Tracked}
    {d : Datagram}
    {source : IPv4Address}
    (hRange : m.command.InRange)
    (hSource : source ≠ IPv4Address.any)
    (hSent : broadcast source m = some d)
    (id : Int)
    (r : Router) :
    r.receive id d =
      if m.target = id then
        { r with queues := r.queues.enqueueLocal m }
      else r := by
  rw [broadcast_eq] at hSent
  have hDatagram := Option.some.inj hSent
  unfold Router.receive
  rw [← hDatagram]
  dsimp only
  rw [recvPacket_command, receive_packet hRange hSource]
  by_cases hTarget : m.command.targetElevatorId = id
  · rw [if_pos (beq_iff_eq.mpr hTarget)]
    exact (if_pos hTarget).symm
  · rw [if_neg (fun h => hTarget (beq_iff_eq.mp h))]
    exact (if_neg hTarget).symm

------------------------------------------------------------
-- Counting
------------------------------------------------------------

section Counting

variable {r : Router}
variable {m : Tracked}
variable {call : Nat}

/- One copy if the command is the one of the call. -/
def copies
    (m : Tracked)
    (call : Nat) : Nat :=
  [m.call].count call

theorem received_forward
    (id : Int) :
    (r.forward id m).received.count call =
      r.received.count call +
        if m.target = Command.anyId ∨ m.target = id then
          copies m call
        else 0 := by
  unfold Router.received Router.forward
  rw [CommandQueues.toLocal_forwardToTargets]
  split
  · rw [← List.append_assoc, List.map_append,
      List.count_append]
    rfl
  · rfl

theorem waiting_forward
    (id : Int) :
    (r.forward id m).waiting call =
      r.waiting call +
        if m.target = id then 0 else copies m call := by
  unfold Router.waiting Router.forward
  rw [CommandQueues.toRemote_forwardToTargets]
  by_cases hTarget : m.target = id
  · rw [if_neg (fun h => h hTarget), if_pos hTarget]
    rfl
  · rw [if_pos hTarget, if_neg hTarget, List.map_append,
      List.count_append]
    rfl

theorem waiting_cons
    {rest : List Tracked}
    (hHead : r.queues.toRemote = m :: rest) :
    r.waiting call =
      (rest.map Tracked.call).count call +
        copies m call := by
  unfold Router.waiting copies
  rw [hHead, List.map_cons, List.count_cons,
    List.count_cons, List.count_nil, Nat.zero_add]

theorem received_enqueue
    (inbox : List Datagram) :
    ({ r with
        queues := r.queues.enqueueLocal m
        inbox := inbox } : Router).received.count call =
      r.received.count call + copies m call := by
  unfold Router.received CommandQueues.enqueueLocal
  rw [← List.append_assoc, List.map_append,
    List.count_append]
  rfl

theorem arrived_split
    {d : Datagram}
    {before after : List Datagram}
    (hInbox : r.inbox = before ++ d :: after)
    (hCall : d.call = m.call) :
    r.arrived call =
      ((before ++ after).map Datagram.call).count call +
        copies m call := by
  unfold Router.arrived copies
  rw [hInbox, ← hCall]
  simp only [List.map_append, List.map_cons,
    List.count_append, List.count_cons, List.count_nil]
  omega

theorem copies_eq_zero
    (hOther : m.call ≠ call) :
    copies m call = 0 := by
  unfold copies
  rw [List.count_singleton, if_neg]
  simpa using hOther

/- What is placed depends on three counts. -/
theorem Placed.congr
    {C : Cluster ι}
    {s s' : Routing ι}
    {i j : ι}
    {comm : Wire.Command}
    (hPlaced : Placed C s call i comm j)
    (hReceived : (s'.router j).received.count call =
      (s.router j).received.count call)
    (hWaiting : (s'.router i).waiting call =
      (s.router i).waiting call)
    (hArrived : (s'.router j).arrived call =
      (s.router j).arrived call) :
    Placed C s' call i comm j := by
  unfold Placed
  rw [hReceived, hWaiting, hArrived]
  exact hPlaced

/- A call that was not made yet has no copies. -/
theorem Inv.unused
    {C : Cluster ι}
    {s : Routing ι}
    (hInv : Inv C s)
    (j : ι) :
    (s.router j).received.count s.calls.length = 0 ∧
      (s.router j).waiting s.calls.length = 0 ∧
      (s.router j).arrived s.calls.length = 0 := by
  have hNone : s.calls[s.calls.length]? = none :=
    List.getElem?_eq_none (Nat.le_refl _)
  refine ⟨?_, ?_, ?_⟩
  · apply List.count_eq_zero_of_not_mem
    intro hMem
    exact Nat.lt_irrefl _ (hInv.fresh j _ hMem)
  · apply List.count_eq_zero_of_not_mem
    intro hMem
    rcases List.mem_map.mp hMem with ⟨m, hm, hCall⟩
    have hMade := (hInv.remote j m hm).1
    rw [hCall, hNone] at hMade
    cases hMade
  · apply List.count_eq_zero_of_not_mem
    intro hMem
    rcases List.mem_map.mp hMem with ⟨d, hd, hCall⟩
    rcases hInv.inbox j d hd with ⟨i, m, hMade, _, hSent⟩
    rw [broadcast_eq] at hSent
    have hDatagram := Option.some.inj hSent
    rw [← hDatagram] at hCall
    change m.call = _ at hCall
    rw [hCall, hNone] at hMade
    cases hMade

end Counting

------------------------------------------------------------
-- Invariant
------------------------------------------------------------

section Steps

variable {C : Cluster ι}
variable {s : Routing ι}

theorem inv_initial :
    Inv C (initial : Routing ι) where
  inRange e he := by cases he
  remote i m hm := by cases hm
  inbox j d hd := by cases hd
  fresh j call hCall := by cases hCall
  placed call i comm hCall := by cases hCall

/- Earlier calls are not affected by a new one. -/
theorem calls_append
    {call : Nat}
    {i : ι}
    {comm : Wire.Command}
    (hCall : s.calls[call]? = some (i, comm))
    (e : ι × Wire.Command) :
    (s.calls ++ [e])[call]? = some (i, comm) := by
  have hLt : call < s.calls.length := by
    by_contra hGe
    rw [List.getElem?_eq_none (by omega)] at hCall
    cases hCall
  rw [List.getElem?_append_left hLt]
  exact hCall

variable [DecidableEq ι]

theorem router_update
    (i j : ι)
    (f : Router → Router) :
    (s.update i f).router j =
      if j = i then f (s.router j) else s.router j := by
  unfold update
  by_cases hNode : j = i
  · rw [if_pos hNode, hNode]
    exact Function.update_self i _ _
  · rw [if_neg hNode]
    exact Function.update_of_ne hNode _ _

/- Where a command is right after its call. -/
theorem placed_forward
    {call : Nat}
    {i k : ι}
    {comm comm' : Wire.Command}
    (hInv : Inv C s)
    (hNew : ¬ call < s.calls.length)
    (hCall : (s.calls ++ [(i, comm)])[call]? =
      some (k, comm'))
    (j : ι) :
    Placed C
      { s.update i
          (Router.forward (C.id i) ⟨s.calls.length, comm⟩)
        with calls := s.calls ++ [(i, comm)] }
      call k comm' j := by
  have hLast : call = s.calls.length := by
    by_contra hBeyond
    rw [List.getElem?_eq_none (by simp; omega)] at hCall
    cases hCall
  rw [hLast, List.getElem?_concat_length] at hCall
  cases Option.some.inj hCall
  rcases hInv.unused j with ⟨hReceived, _, hArrived⟩
  rcases hInv.unused i with ⟨hReceived', hWaiting, _⟩
  have hCopies : copies ⟨s.calls.length, comm⟩
      s.calls.length = 1 := List.count_singleton_self
  unfold Placed
  dsimp only
  rw [hLast, router_update, router_update, if_pos rfl,
    waiting_forward, hWaiting, hCopies]
  refine ⟨?_, ?_, ?_, ?_⟩
  · intro hNode hAddressed
    rw [if_pos hNode, received_forward, hReceived, hCopies,
      if_pos (hNode ▸ hAddressed.symm)]
  · intro hNode hOther
    rw [if_pos hNode, received_forward, hReceived, if_neg]
    intro hAddressed
    exact hOther (hNode ▸ hAddressed.symm)
  · intro hNode hTarget
    have hRemote : ¬ Tracked.target
        ⟨s.calls.length, comm⟩ = C.id i := by
      intro hEq
      exact hNode (C.id_injective (hTarget.symm.trans hEq))
    rw [if_neg hNode, hReceived, hArrived, if_neg hRemote]
  · intro hNode _
    rw [if_neg hNode, hReceived]

theorem inv_forward
    (hInv : Inv C s)
    (i : ι)
    {comm : Wire.Command}
    (hRange : comm.InRange) :
    Inv C
      { s.update i
          (Router.forward (C.id i) ⟨s.calls.length, comm⟩)
        with calls := s.calls ++ [(i, comm)] } where
  inRange e he := by
    rcases List.mem_append.mp he with hOld | hNew
    · exact hInv.inRange e hOld
    · rw [List.mem_singleton.mp hNew]
      exact hRange
  remote j m hm := by
    have hOld : m ∈ (s.router j).queues.toRemote →
        (s.calls ++ [(i, comm)])[m.call]? =
            some (j, m.command) ∧ m.target ≠ C.id j := by
      intro hMem
      rcases hInv.remote j m hMem with ⟨hCall, hTarget⟩
      exact ⟨calls_append hCall _, hTarget⟩
    rw [router_update] at hm
    split at hm
    · next hNode =>
        unfold Router.forward at hm
        rw [CommandQueues.toRemote_forwardToTargets] at hm
        split at hm
        · next hTarget =>
            rcases List.mem_append.mp hm with hMem | hNew
            · exact hOld hMem
            · rw [List.mem_singleton.mp hNew, hNode]
              exact ⟨List.getElem?_concat_length, hTarget⟩
        · exact hOld hm
    · exact hOld hm
  inbox j d hd := by
    have hSame : (s.router j).inbox =
        ((s.update i (Router.forward (C.id i)
          ⟨s.calls.length, comm⟩)).router j).inbox := by
      rw [router_update]
      split <;> rfl
    rw [← hSame] at hd
    rcases hInv.inbox j d hd with
      ⟨k, m, hCall, hTarget, hSent⟩
    exact ⟨k, m, calls_append hCall _, hTarget, hSent⟩
  fresh j call hCall := by
    rw [List.length_append, List.length_singleton]
    rw [router_update] at hCall
    by_contra hGe
    have hOld : call ∉ (s.router j).received := by
      intro hMem
      have hLt := hInv.fresh j call hMem
      omega
    have hCopies : copies ⟨s.calls.length, comm⟩ call =
        0 := copies_eq_zero (by dsimp only; omega)
    apply List.count_eq_zero.mp _ hCall
    split
    · rw [received_forward,
        List.count_eq_zero_of_not_mem hOld, hCopies,
        ite_self]
    · exact List.count_eq_zero_of_not_mem hOld
  placed call k comm' hCall j := by
    by_cases hOld : call < s.calls.length
    · have hCopies : copies ⟨s.calls.length, comm⟩ call =
          0 := by
        unfold copies
        rw [List.count_singleton, if_neg]
        simp only [beq_iff_eq]
        omega
      rw [List.getElem?_append_left hOld] at hCall
      apply (hInv.placed call k comm' hCall j).congr
      · rw [router_update]
        split
        · rw [received_forward, hCopies, ite_self]
          rfl
        · rfl
      · rw [router_update]
        split
        · rw [waiting_forward, hCopies, ite_self]
          rfl
        · rfl
      · rw [router_update]
        split <;> rfl
    · exact placed_forward hInv hOld hCall j

/- The sender moves its command to every inbox. -/
theorem inv_send
    (hInv : Inv C s)
    {i : ι}
    {m : Tracked}
    {rest : List Tracked}
    (hHead : (s.router i).queues.toRemote = m :: rest) :
    Inv C (s.sent C i m rest) := by
  have hMade := hInv.remote i m (by rw [hHead]; simp)
  have hRest : ∀ j,
      ((s.sent C i m rest).router j).queues.toRemote =
        if j = i then rest
        else (s.router j).queues.toRemote := by
    intro j
    unfold sent
    dsimp only
    split <;> rfl
  have hToRemote : ∀ j m',
      m' ∈ ((s.sent C i m rest).router j).queues.toRemote →
        m' ∈ (s.router j).queues.toRemote := by
    intro j m' hMem
    rw [hRest] at hMem
    split at hMem
    · next hNode =>
        rw [hNode, hHead]
        exact List.mem_cons_of_mem m hMem
    · exact hMem
  have hReceived : ∀ j,
      ((s.sent C i m rest).router j).received =
        (s.router j).received := by
    intro j
    unfold sent Router.received
    dsimp only
    split <;> rfl
  have hArrived : ∀ j call,
      ((s.sent C i m rest).router j).arrived call =
        (s.router j).arrived call + copies m call := by
    intro j call
    unfold sent Router.arrived
    rw [broadcast_eq, Option.toList_some, List.map_append,
      List.count_append]
    rfl
  refine {
    inRange := hInv.inRange
    remote := fun j m' hm' => hInv.remote j m'
      (hToRemote j m' hm')
    inbox := ?_
    fresh := fun j call hCall => hInv.fresh j call
      (hReceived j ▸ hCall)
    placed := ?_ }
  · intro j d hd
    rcases List.mem_append.mp hd with hOld | hNew
    · exact hInv.inbox j d hOld
    · exact ⟨i, m, hMade.1, hMade.2,
        Option.mem_toList.mp hNew⟩
  · intro call k comm hCall j
    have hPlaced := hInv.placed call k comm hCall j
    have hWaiting :
        ((s.sent C i m rest).router k).waiting call +
            copies m call =
          (s.router k).waiting call := by
      by_cases hNode : k = i
      · rw [hNode, waiting_cons hHead]
        unfold Router.waiting
        rw [hRest, if_pos rfl]
      · have hOther : m.call ≠ call := by
          intro hEq
          have hSame : s.calls[m.call]? = some (k, comm) :=
            hEq ▸ hCall
          rw [hMade.1] at hSame
          exact hNode (congrArg Prod.fst
            (Option.some.inj hSame)).symm
        have hCopies := copies_eq_zero hOther
        unfold Router.waiting
        rw [hRest, if_neg hNode, hCopies]
        rfl
    unfold Placed at hPlaced ⊢
    rw [hReceived, hArrived]
    refine ⟨hPlaced.1, hPlaced.2.1, ?_, hPlaced.2.2.2⟩
    intro hNode hTarget
    have hSum := hPlaced.2.2.1 hNode hTarget
    omega

section Receiving

variable {i j : ι}
variable {d : Datagram}
variable {m : Tracked}
variable {before after : List Datagram}

/- What the receiver does with the datagram of `m`. -/
def Hands
    (C : Cluster ι)
    (s : Routing ι)
    (j : ι)
    (d : Datagram)
    (m : Tracked) : Prop :=
  (s.router j).receive (C.id j) d =
    if m.target = C.id j then
      { s.router j with
        queues := (s.router j).queues.enqueueLocal m }
    else s.router j

theorem toRemote_received
    {inbox : List Datagram}
    (hHands : Hands C s j d m)
    (k : ι) :
    ((s.received C j d inbox).router k).queues.toRemote =
      (s.router k).queues.toRemote := by
  rw [received, router_update]
  split
  · next hNode =>
      rw [hNode, hHands]
      split <;> rfl
  · rfl

theorem count_received
    (hHands : Hands C s j d m)
    (inbox : List Datagram)
    (k : ι)
    (call : Nat) :
    ((s.received C j d inbox).router k).received.count call =
      (s.router k).received.count call +
        if k = j ∧ m.target = C.id j then copies m call
        else 0 := by
  rw [received, router_update]
  by_cases hNode : k = j
  · rw [if_pos hNode, hNode, hHands]
    by_cases hTarget : m.target = C.id j
    · rw [if_pos hTarget, if_pos ⟨rfl, hTarget⟩]
      exact received_enqueue _
    · rw [if_neg hTarget, if_neg fun h => hTarget h.2]
      rfl
  · rw [if_neg hNode, if_neg fun h => hNode h.1]
    rfl

theorem arrived_received
    (hInbox : (s.router j).inbox = before ++ d :: after)
    (hCall : d.call = m.call)
    (k : ι)
    (call : Nat) :
    ((s.received C j d (before ++ after)).router
        k).arrived call +
        (if k = j then copies m call else 0) =
      (s.router k).arrived call := by
  rw [received, router_update]
  by_cases hNode : k = j
  · rw [if_pos hNode, if_pos hNode, hNode,
      arrived_split hInbox hCall]
    rfl
  · rw [if_neg hNode, if_neg hNode]
    rfl

/- The command that is received changes its place only at the
node it is meant for. -/
theorem placed_received
    {l : ι}
    (hRemote : m.target ≠ C.id i)
    (hHands : Hands C s j d m)
    (hInbox : (s.router j).inbox = before ++ d :: after)
    (hCall : d.call = m.call)
    (hPlaced : Placed C s m.call i m.command l) :
    Placed C (s.received C j d (before ++ after)) m.call i
      m.command l := by
  have hWaiting :
      ((s.received C j d (before ++ after)).router
          i).waiting m.call =
        (s.router i).waiting m.call := by
    unfold Router.waiting
    rw [toRemote_received hHands]
  have hReceived := count_received hHands
    (before ++ after) l m.call
  have hArrived := arrived_received (C := C) hInbox hCall l
    m.call
  unfold Placed at hPlaced ⊢
  rw [hWaiting, hReceived]
  by_cases hNode : l = j
  case neg =>
    rw [if_neg hNode] at hArrived
    rw [if_neg fun h => hNode h.1]
    refine ⟨hPlaced.1, hPlaced.2.1, ?_, hPlaced.2.2.2⟩
    intro hCaller hTarget
    have hSum := hPlaced.2.2.1 hCaller hTarget
    omega
  rw [if_pos hNode] at hArrived
  by_cases hTarget : m.target = C.id j
  · have hCaller : l ≠ i := by
      intro hEq
      rw [← hEq, hNode] at hRemote
      exact hRemote hTarget
    rw [if_pos ⟨hNode, hTarget⟩]
    refine ⟨fun h => absurd h hCaller,
      fun h => absurd h hCaller, ?_, ?_⟩
    · intro _ hTarget'
      have hSum := hPlaced.2.2.1 hCaller hTarget'
      omega
    · intro _ hTarget'
      exact absurd (hNode ▸ hTarget) hTarget'
  · rw [if_neg fun h => hTarget h.2]
    refine ⟨hPlaced.1, hPlaced.2.1, ?_, hPlaced.2.2.2⟩
    intro _ hTarget'
    exact absurd (hNode ▸ hTarget') hTarget

/- The receiver hands over the commands for its node. -/
theorem inv_receive
    (hInv : Inv C s)
    (hInbox : (s.router j).inbox = before ++ d :: after) :
    Inv C (s.received C j d (before ++ after)) := by
  rcases hInv.inbox j d (by rw [hInbox]; simp) with
    ⟨i, m, hMade, hRemote, hSent⟩
  have hRange : m.command.InRange :=
    hInv.inRange (i, m.command)
      (List.mem_of_getElem? hMade)
  have hCall : d.call = m.call := by
    rw [broadcast_eq] at hSent
    rw [← Option.some.inj hSent]
  have hHands : Hands C s j d m :=
    receive_eq hRange (C.address_ne_any i) hSent (C.id j)
      (s.router j)
  refine {
    inRange := hInv.inRange
    remote := fun k m' hm' => hInv.remote k m'
      (toRemote_received hHands k ▸ hm')
    inbox := ?_
    fresh := ?_
    placed := ?_ }
  · intro k d' hd'
    apply hInv.inbox k d'
    rw [received, router_update] at hd'
    split at hd'
    · next hNode =>
        rw [hNode, hInbox]
        rcases List.mem_append.mp hd' with hLeft | hRight
        · exact List.mem_append_left _ hLeft
        · exact List.mem_append_right _
            (List.mem_cons_of_mem _ hRight)
    · exact hd'
  · intro k call hMem
    by_cases hOther : m.call = call
    · have hLt := List.getElem?_eq_some_iff.mp hMade
      rw [← hOther]
      exact hLt.1
    · have hCount := List.count_pos_iff.mpr hMem
      rw [count_received hHands, copies_eq_zero hOther,
        ite_self] at hCount
      exact hInv.fresh k call
        (List.count_pos_iff.mp hCount)
  · intro call k comm hCall' l
    have hPlaced := hInv.placed call k comm hCall' l
    by_cases hOther : m.call = call
    · change s.calls[call]? = some (k, comm) at hCall'
      rw [← hOther, hMade] at hCall'
      cases Option.some.inj hCall'
      rw [← hOther] at hPlaced ⊢
      exact placed_received hRemote hHands hInbox hCall
        hPlaced
    · have hCopies := copies_eq_zero hOther
      apply hPlaced.congr
      · rw [count_received hHands, hCopies, ite_self]
        rfl
      · unfold Router.waiting
        rw [toRemote_received hHands]
      · rw [← arrived_received (C := C) hInbox hCall l call,
          hCopies, ite_self]
        rfl

end Receiving

/- The elevator takes a command off its queue. -/
theorem inv_take
    (hInv : Inv C s)
    {j : ι}
    {m : Tracked}
    {rest : List Tracked}
    (hHead : (s.router j).queues.toLocal = m :: rest) :
    Inv C (s.dequeued j m rest) := by
  have hSame : ∀ k,
      ((s.dequeued j m rest).router k).received =
          (s.router k).received ∧
      ((s.dequeued j m rest).router k).queues.toRemote =
          (s.router k).queues.toRemote ∧
      ((s.dequeued j m rest).router k).inbox =
          (s.router k).inbox := by
    intro k
    rw [dequeued, router_update]
    split
    · next hNode =>
        refine ⟨?_, rfl, rfl⟩
        unfold Router.received
        rw [hNode, hHead, List.append_assoc]
        rfl
    · exact ⟨rfl, rfl, rfl⟩
  refine {
    inRange := hInv.inRange
    remote := fun k m' hm' => hInv.remote k m'
      ((hSame k).2.1 ▸ hm')
    inbox := fun k d hd => hInv.inbox k d
      ((hSame k).2.2 ▸ hd)
    fresh := fun k call hMem => hInv.fresh k call
      ((hSame k).1 ▸ hMem)
    placed := ?_ }
  intro call k comm hCall l
  apply (hInv.placed call k comm hCall l).congr
  · rw [(hSame l).1]
  · unfold Router.waiting
    rw [(hSame k).2.1]
  · unfold Router.arrived
    rw [(hSame l).2.2]

theorem inv_of_step
    [Fintype ι]
    {s' : Routing ι}
    (hInv : Inv C s)
    (hStep : Step C s s') :
    Inv C s' := by
  cases hStep with
  | forward i comm hRange =>
      exact inv_forward hInv i hRange
  | send i m rest _ hHead => exact inv_send hInv hHead
  | receive j d before after _ hInbox =>
      exact inv_receive hInv hInbox
  | take j m rest hHead => exact inv_take hInv hHead

theorem inv_of_reachable
    [Fintype ι]
    (hReach : (system C).Reachable s) :
    Inv C s := by
  apply hReach.invariant
  · intro s hInit
    rw [hInit]
    exact inv_initial
  · intro s s' hInv hStep
    exact inv_of_step hInv hStep

end Steps

------------------------------------------------------------
-- Settling
------------------------------------------------------------

section Settling

variable [Fintype ι]

/-
  What is left to send and to receive; a command that waits
  for the sender weighs more than the datagrams it becomes.
-/
def backlog
    (s : Routing ι) : Nat :=
  ∑ j, ((Fintype.card ι + 1) *
    (s.router j).queues.toRemote.length +
      (s.router j).inbox.length)

variable [DecidableEq ι]
variable {C : Cluster ι}
variable {s : Routing ι}

theorem backlog_sent
    {i : ι}
    {m : Tracked}
    {rest : List Tracked}
    (hHead : (s.router i).queues.toRemote = m :: rest) :
    (s.sent C i m rest).backlog < s.backlog := by
  have hNode : ∀ j,
      ((Fintype.card ι + 1) *
          ((s.sent C i m rest).router
            j).queues.toRemote.length +
        ((s.sent C i m rest).router j).inbox.length) +
          (if j = i then Fintype.card ι + 1 else 0) =
        ((Fintype.card ι + 1) *
          (s.router j).queues.toRemote.length +
        (s.router j).inbox.length) + 1 := by
    intro j
    have hInbox :
        ((s.sent C i m rest).router j).inbox.length =
          (s.router j).inbox.length + 1 := by
      unfold sent
      rw [broadcast_eq, List.length_append]
      rfl
    rw [hInbox]
    by_cases hSender : j = i
    · have hRest :
          ((s.sent C i m rest).router j).queues.toRemote =
            rest := by
        unfold sent
        dsimp only
        rw [if_pos hSender]
      rw [hRest, if_pos hSender, hSender, hHead,
        List.length_cons, Nat.mul_succ]
      omega
    · have hSame :
          ((s.sent C i m rest).router j).queues.toRemote =
            (s.router j).queues.toRemote := by
        unfold sent
        dsimp only
        rw [if_neg hSender]
      rw [hSame, if_neg hSender]
      omega
  have hSum : (s.sent C i m rest).backlog +
        ∑ j, (if j = i then Fintype.card ι + 1 else 0) =
      s.backlog + ∑ _j : ι, 1 := by
    unfold backlog
    rw [← Finset.sum_add_distrib, ← Finset.sum_add_distrib]
    exact Finset.sum_congr rfl fun j _ => hNode j
  rw [Finset.sum_ite_eq', if_pos (Finset.mem_univ i),
    ← Finset.card_eq_sum_ones, Finset.card_univ] at hSum
  omega

theorem backlog_received
    {j : ι}
    {d : Datagram}
    {before after : List Datagram}
    (hInbox : (s.router j).inbox = before ++ d :: after) :
    (s.received C j d (before ++ after)).backlog <
      s.backlog := by
  have hRemote : ∀ k,
      ((s.received C j d (before ++ after)).router
          k).queues.toRemote =
        (s.router k).queues.toRemote := by
    intro k
    rw [received, router_update]
    split
    · next hNode =>
        rw [hNode]
        unfold Router.receive
        split <;> rfl
    · rfl
  have hLength : (s.router j).inbox.length =
      (before ++ after).length + 1 := by
    rw [hInbox]
    simp
    omega
  unfold backlog
  apply Finset.sum_lt_sum
  · intro k _
    rw [hRemote, received, router_update]
    split
    · next hNode =>
        rw [hNode, hLength]
        dsimp only
        omega
    · omega
  · refine ⟨j, Finset.mem_univ j, ?_⟩
    rw [hRemote, received, router_update, if_pos rfl, hLength]
    dsimp only
    omega

/- From every state the senders and receivers can deliver
what is on its way. -/
theorem settles
    (C : Cluster ι)
    (s : Routing ι) :
    ∃ s', Relation.ReflTransGen (Step C) s s' ∧
      s'.Settled ∧ s'.calls = s.calls := by
  induction hBacklog : s.backlog using Nat.strongRecOn
    generalizing s with
  | ind n ih =>
    by_cases hSettled : s.Settled
    · exact ⟨s, .refl, hSettled, rfl⟩
    unfold Settled at hSettled
    push Not at hSettled
    rcases hSettled with ⟨hNodes, i, hLeft⟩
    have hNext : ∃ s₁, Step C s s₁ ∧
        s₁.backlog < s.backlog ∧ s₁.calls = s.calls := by
      cases hRemote : (s.router i).queues.toRemote with
      | cons m rest =>
          exact ⟨s.sent C i m rest,
            .send s i m rest hNodes hRemote,
            backlog_sent hRemote, rfl⟩
      | nil =>
          cases hInbox : (s.router i).inbox with
          | nil => exact absurd hInbox (hLeft hRemote)
          | cons d after =>
              exact ⟨s.received C i d ([] ++ after),
                .receive s i d [] after hNodes hInbox,
                backlog_received hInbox, rfl⟩
    rcases hNext with ⟨s₁, hStep, hLess, hCalls⟩
    rcases ih s₁.backlog (hBacklog ▸ hLess) s₁ rfl with
      ⟨s', hSteps, hDone, hCalls'⟩
    exact ⟨s', hSteps.head hStep, hDone,
      hCalls'.trans hCalls⟩

------------------------------------------------------------
-- Routing
------------------------------------------------------------

/- No node but an addressee ever gets a command, and none
gets it twice. -/
theorem received_le
    (hReach : (system C).Reachable s)
    {call : Nat}
    {i : ι}
    {comm : Wire.Command}
    (hCall : s.calls[call]? = some (i, comm))
    (j : ι) :
    (s.router j).received.count call ≤ 1 ∧
      (¬ Addressed C comm j →
        (s.router j).received.count call = 0) := by
  rcases (inv_of_reachable hReach).placed call i comm hCall j
    with ⟨hOwn, hOwnNot, hTarget, hOther⟩
  by_cases hNode : j = i
  · by_cases hAddressed : Addressed C comm j
    · refine ⟨?_, fun h => absurd hAddressed h⟩
      rw [hOwn hNode hAddressed]
    · refine ⟨?_, fun _ => hOwnNot hNode hAddressed⟩
      rw [hOwnNot hNode hAddressed]
      omega
  · by_cases hId : comm.targetElevatorId = C.id j
    · have hSum := hTarget hNode hId
      refine ⟨by omega, fun h => absurd (Or.inl hId) h⟩
    · refine ⟨?_, fun _ => hOther hNode hId⟩
      rw [hOther hNode hId]
      omega

/-
  Once everything is delivered, another node has the command
  exactly if it is the target; a command for every node has
  reached the node that forwarded it only.
-/
theorem received_settled
    (hReach : (system C).Reachable s)
    (hSettled : s.Settled)
    {call : Nat}
    {i j : ι}
    {comm : Wire.Command}
    (hCall : s.calls[call]? = some (i, comm))
    (hNode : j ≠ i) :
    (s.router j).received.count call =
      if comm.targetElevatorId = C.id j then 1 else 0 := by
  have hNodes : 1 < Fintype.card ι :=
    Fintype.one_lt_card_iff.mpr ⟨j, i, hNode⟩
  rcases (inv_of_reachable hReach).placed call i comm hCall j
    with ⟨_, _, hTarget, hOther⟩
  split
  · next hId =>
      have hSum := hTarget hNode hId
      have hWaiting : (s.router i).waiting call = 0 := by
        unfold Router.waiting
        rw [(hSettled hNodes i).1]
        rfl
      have hArrived : (s.router j).arrived call = 0 := by
        unfold Router.arrived
        rw [(hSettled hNodes j).2]
        rfl
      omega
  · next hId => exact hOther hNode hId

/-
  In every run no command reaches a queue twice or a queue
  of a node it is not addressed to. When everything is
  delivered, every addressee has got the command if and only
  if the command is not for every node, or the caller is the
  only node.
-/
theorem routed_iff
    (C : Cluster ι)
    (s : Routing ι)
    (hReach : (system C).Reachable s)
    (call : Nat)
    (i : ι)
    (comm : Wire.Command)
    (hCall : s.calls[call]? = some (i, comm)) :
    (∀ j, (s.router j).received.count call ≤ 1 ∧
      (¬ Addressed C comm j →
        (s.router j).received.count call = 0)) ∧
    (s.Settled →
      (Routed C s call comm ↔
        comm.targetElevatorId ≠ Command.anyId ∨
          ∀ j, j = i)) := by
  refine ⟨received_le hReach hCall, ?_⟩
  intro hSettled
  constructor
  · intro hRouted
    by_contra hNot
    push Not at hNot
    rcases hNot with ⟨hAny, j, hNode⟩
    have hOne := (hRouted j).1 (Or.inr hAny)
    rw [received_settled hReach hSettled hCall hNode, hAny,
      if_neg (C.id_ne_anyId j).symm] at hOne
    exact absurd hOne (by decide)
  · intro hCond j
    refine ⟨?_, (received_le hReach hCall j).2⟩
    intro hAddressed
    by_cases hNode : j = i
    · exact ((inv_of_reachable hReach).placed call i comm
        hCall j).1 hNode hAddressed
    · rcases hCond with hOne | hAlone
      · have hId := hAddressed.resolve_right hOne
        rw [received_settled hReach hSettled hCall hNode,
          if_pos hId]
      · exact absurd (hAlone j) hNode

end Settling

/- Two nodes with the ids 0 and 1. -/
def twoNodes : Cluster (Fin 2) where
  id i := i.val
  address i := ⟨i.val + 1, by omega⟩
  id_injective i j hId := by
    apply Fin.ext
    exact Int.ofNat.inj hId
  id_ne_anyId i hId := by
    have hLt := i.isLt
    unfold Command.anyId intMax at hId
    omega
  address_ne_any i hAny := by
    have hVal := congrArg Fin.val hAny
    simp [IPv4Address.any] at hVal

/- Node 0 has forwarded `comm`. -/
def firstCall
    (comm : Wire.Command) : Routing (Fin 2) :=
  { initial.update 0 (Router.forward 0 ⟨0, comm⟩)
    with calls := [(0, comm)] }

theorem reachable_firstCall
    {comm : Wire.Command}
    (hRange : comm.InRange) :
    (system twoNodes).Reachable (firstCall comm) := by
  apply TransitionSystem.Reachable.step
    (TransitionSystem.Reachable.init rfl)
  exact Step.forward initial 0 comm hRange

/- A call to floor 2 that node 0 sends to node 1. -/
def callNodeOne : Wire.Command := ⟨⟨1⟩, 1, 2⟩

theorem routed_iff_firstCall :
    (∀ j, ((firstCall callNodeOne).router j).received.count
        0 ≤ 1 ∧
      (¬ Addressed twoNodes callNodeOne j →
        ((firstCall callNodeOne).router j).received.count
          0 = 0)) ∧
    ((firstCall callNodeOne).Settled →
      (Routed twoNodes (firstCall callNodeOne) 0 callNodeOne
        ↔ callNodeOne.targetElevatorId ≠ Command.anyId ∨
          ∀ j : Fin 2, j = 0)) :=
  routed_iff twoNodes (firstCall callNodeOne)
    (reachable_firstCall
      ⟨by decide, by decide, by decide⟩)
    0 0 callNodeOne rfl

/- The command for every node to light the up lamp of
floor 2. -/
def lightAll : Wire.Command := ⟨⟨3⟩, 2147483647, 2⟩

/- Node 0 forwards it, everything is delivered, and node 1
has not got it. -/
theorem lightAll_lost :
    ∃ s, (system twoNodes).Reachable s ∧ s.Settled ∧
      s.calls[0]? = some (0, lightAll) ∧
      Addressed twoNodes lightAll 1 ∧
      (s.router 1).received.count 0 = 0 := by
  have hRange : lightAll.InRange :=
    ⟨by decide, by decide, by decide⟩
  rcases reachable_firstCall hRange with ⟨s₀, hInit, hRun⟩
  rcases settles twoNodes (firstCall lightAll) with
    ⟨s, hSteps, hSettled, hCalls⟩
  have hReach : (system twoNodes).Reachable s :=
    ⟨s₀, hInit, hRun.trans hSteps⟩
  have hCall : s.calls[0]? = some (0, lightAll) := by
    rw [hCalls]
    rfl
  refine ⟨s, hReach, hSettled, hCall, Or.inr rfl, ?_⟩
  rw [received_settled hReach hSettled hCall (by decide)]
  decide

end Routing

end ElevatorControl
