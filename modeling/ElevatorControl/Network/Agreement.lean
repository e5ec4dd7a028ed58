import ElevatorControl.Network.Meeting

/-
  Agreement of the sessions whose recovery packets fit the
  receive buffer.

  A node finishes with a full barrier of machines, or with
  the peers of a packet from a node that has finished, so it
  knows all machines. Then its id is the rank of its own
  address, and the state it is sent is the one of that rank.

  Key definitions include:
    * `Session.Genuine`
    * `Session.NodeInv`

  Key theorems include:
    * `Session.inv_listen`
    * `Session.inv_assist`
    * `Session.inv_of_step`
    * `Session.agreement`
-/

------------------------------------------------------------
-- Invariant
------------------------------------------------------------

namespace ElevatorControl

open LittleEndian SessionNode

namespace Session

variable
  {ι : Type}
  [Fintype ι]

/- The bytes the sender may transmit. -/
def InitBytes
    (bytes : List UInt8) : Prop :=
  bytes = [] ∨
    bytes = message Wire.Initial.messageType {} ∨
    bytes = message Wire.Ready.messageType {}

/-
  A datagram of the protocol. Recovery packets carry all
  machines, and a state goes to the machine of its id.
-/
structure Genuine
    (M : Machines ι)
    (e : Envelope) : Prop where
  source : e.source ∈ M.all
  bytes :
    InitBytes e.bytes ∨
      e.bytes =
        message Wire.RecoveryPeers.messageType ⟨M.all⟩ ∨
      ∃ j, ∃ state : Wire.ElevatorState,
        e.target = some (M.address j) ∧
        state.InRange ∧
        state.id = M.rank j ∧
        e.bytes = message Wire.RecoveryState.messageType
          ⟨state, M.all⟩

/-
  What holds of the node `i` at any time. Its phase ends
  only when it knows all machines.
-/
structure NodeInv
    (M : Machines ι)
    (i : ι)
    (n : SessionNode) : Prop where
  barrier : n.barrier ⊆ n.peers
  peers : n.peers ⊆ M.all
  full : 2 ≤ n.initPhase → n.peers = M.all
  connected : n.stage = .connected →
    2 ≤ n.initPhase ∧ n.id = M.rank i
  packed : ∀ bytes, n.sender = .packed bytes →
    InitBytes bytes
  states : ∀ state ∈ n.state.elevators, state.InRange
  recovered : ∀ state, n.recoveryState = some state →
    state.id = M.rank i

/- Every process keeps its invariant, and all datagrams are
genuine. -/
structure Inv
    (M : Machines ι)
    (s : Session ι) : Prop where
  node : ∀ i, NodeInv M i (s.node i)
  sent : ∀ e ∈ s.sent, Genuine M e

variable {M : Machines ι}
variable {i : ι}
variable {n n' : SessionNode}

/- The received state of the right id. -/
theorem received_id
    (state : Wire.ElevatorState) :
    state.received.id = state.id :=
  rfl

theorem inRange_received
    {state : Wire.ElevatorState}
    (hRange : state.InRange) :
    state.received.InRange := by
  rcases hRange with ⟨hId, _, hFloor, hDirection⟩
  have hTimestamp : Fits 4 (narrow 4 state.timestamp) :=
    fits_narrow (by decide) _
  have hLong : Fits 8 (narrow 4 state.timestamp) := by
    unfold Fits at hTimestamp ⊢
    omega
  exact ⟨hId, hLong, hFloor, hDirection⟩

------------------------------------------------------------
-- Listener
------------------------------------------------------------

/- Few enough machines for every recovery packet to fit the
receive buffer. -/
def FitsBuffer
    (ι : Type)
    [Fintype ι] : Prop :=
  58 + 4 * Fintype.card ι ≤ Serializer.standardMTU

theorem narrow_card
    (hFits : FitsBuffer ι)
    {s : Finset IPv4Address}
    (hSub : s ⊆ M.all) :
    narrow 4 s.card = s.card := by
  have hCard := Finset.card_le_card hSub
  rw [Machines.card_all] at hCard
  unfold FitsBuffer Serializer.standardMTU at hFits
  apply narrow_eq
  unfold Fits
  omega

/- A set of machines with as many members is the set of all
machines. -/
theorem eq_all
    (hFits : FitsBuffer ι)
    {s : Finset IPv4Address}
    (hSub : s ⊆ M.all)
    (hCount : narrow 4 s.card = Fintype.card ι) :
    s = M.all := by
  apply Finset.eq_of_subset_of_card_le hSub
  rw [narrow_card hFits hSub] at hCount
  rw [Machines.card_all]
  omega

/- The checks keep the invariant: a full barrier is a full
set of peers. -/
theorem inv_checkBarrier
    (hFits : FitsBuffer ι)
    (hStage : n.stage = .connecting)
    (hInv : NodeInv M i n) :
    NodeInv M i (n.checkBarrier (Fintype.card ι)) := by
  have hConnecting : n.stage ≠ .connected := by
    rw [hStage]
    exact Stage.noConfusion
  unfold checkBarrier
  split
  · next hCount =>
      have hBarrier := eq_all hFits
        (hInv.barrier.trans hInv.peers) hCount
      exact { hInv with
        full := fun _ => Finset.Subset.antisymm hInv.peers
          (hBarrier ▸ hInv.barrier)
        connected := fun h => absurd h hConnecting }
  · split
    · exact { hInv with
        full := fun h =>
          absurd h (Nat.not_succ_le_self 1)
        connected := fun h => absurd h hConnecting }
    · exact hInv

/- The listener has heard of peers, and counts some of them
to its barrier. -/
theorem inv_heard
    (hFits : FitsBuffer ι)
    (hStage : n.stage = .connecting)
    (hInv : NodeInv M i n)
    {barrier peers : Finset IPv4Address}
    {initPhase : Nat}
    (hBarrier : barrier ⊆ peers)
    (hPeers : peers ⊆ M.all)
    (hFull : 2 ≤ initPhase → peers = M.all) :
    NodeInv M i
      (checkBarrier (Fintype.card ι)
        { n with
          barrier := barrier
          peers := peers
          initPhase := initPhase }) := by
  exact inv_checkBarrier hFits hStage {
    barrier := hBarrier
    peers := hPeers
    full := hFull
    connected := fun h => by
      rw [hStage] at h
      cases h
    packed := hInv.packed
    states := hInv.states
    recovered := hInv.recovered }

/- A pass of the listener on a datagram of the protocol. -/
theorem inv_listen
    (hFits : FitsBuffer ι)
    (hStage : n.stage = .connecting)
    (hInv : NodeInv M i n)
    {e : Envelope}
    (hGenuine : Genuine M e)
    (hReaches : e.Reaches (M.address i))
    (memory : List UInt8)
    (hListen : n.listen (Fintype.card ι) e.source
      (Serializer.recvPacket e.bytes) memory = some n') :
    NodeInv M i n' := by
  have hSource : insert e.source n.peers ⊆ M.all :=
    Finset.insert_subset hGenuine.source hInv.peers
  have hFull : 2 ≤ n.initPhase →
      insert e.source n.peers = M.all := by
    intro hPhase
    rw [hInv.full hPhase]
    exact Finset.insert_eq_self.mpr hGenuine.source
  have hCard : M.all.card = Fintype.card ι :=
    Machines.card_all
  have hPeersSize : 16 + 4 * M.all.card ≤
      Serializer.standardMTU := by
    unfold FitsBuffer at hFits
    omega
  have hStateSize : 58 + 4 * M.all.card ≤
      Serializer.standardMTU := by
    unfold FitsBuffer at hFits
    omega
  have hIntSize : 58 + 4 * (M.all.card : Int) ≤ intMax := by
    unfold Serializer.standardMTU at hStateSize
    unfold intMax
    omega
  rcases hGenuine.bytes with
    (hBytes | hBytes | hBytes) | hBytes |
      ⟨j, state, hTarget, hRange, hId, hBytes⟩
  · rw [hBytes] at hListen
    change n.listen _ _ [] memory = some n' at hListen
    rw [listen_nil] at hListen
    cases hListen
    exact hInv
  · rw [hBytes, recvPacket_message (by decide),
      listen_initial] at hListen
    rw [← Option.some.inj hListen]
    exact inv_heard hFits hStage hInv
      (hInv.barrier.trans (Finset.subset_insert _ _))
      hSource hFull
  · rw [hBytes, recvPacket_message (by decide),
      listen_ready] at hListen
    rw [← Option.some.inj hListen]
    exact inv_heard hFits hStage hInv
      (Finset.insert_subset_insert _ hInv.barrier)
      hSource hFull
  · have hSize : Serializer.encodedSize
        Wire.RecoveryPeers.messageType ⟨M.all⟩ ≤
          Serializer.standardMTU := by
      rw [Wire.encodedSize_recoveryPeers]
      exact hPeersSize
    rw [hBytes, recvPacket_message hSize,
      listen_recoveryPeers _ _ _ hPeersSize] at hListen
    rw [← Option.some.inj hListen]
    exact inv_heard hFits hStage hInv
      (Finset.Subset.refl _) (Finset.Subset.refl _)
      fun _ => rfl
  · have hSize : Serializer.encodedSize
        Wire.RecoveryState.messageType ⟨state, M.all⟩ ≤
          Serializer.standardMTU := by
      rw [Wire.encodedSize_recoveryState]
      exact hStateSize
    have hNode : M.rank j = M.rank i := by
      rcases hReaches with hNone | hSome
      · rw [hTarget] at hNone
        cases hNone
      · rw [hTarget] at hSome
        rw [M.address_injective (Option.some.inj hSome)]
    rw [hBytes, recvPacket_message hSize,
      listen_recoveryState _ _ _ hRange hIntSize
        (message_ne_nil _ _) rfl] at hListen
    rw [← Option.some.inj hListen]
    exact inv_checkBarrier hFits hStage {
      barrier := Finset.Subset.refl _
      peers := Finset.Subset.refl _
      full := fun _ => rfl
      connected := fun h => by
        rw [hStage] at h
        cases h
      packed := hInv.packed
      states := by
        intro e' he'
        rcases GlobalState.mem_update he' with hNew | hOld
        · rw [hNew]
          exact inRange_received hRange
        · exact hInv.states e' hOld
      recovered := by
        intro state' hState'
        cases hState'
        rw [received_id, hId, hNode] }

------------------------------------------------------------
-- Recovery
------------------------------------------------------------

/- The recovery packet of a node that knows all machines. -/
theorem recovery_cases
    (hFits : FitsBuffer ι)
    (hPeers : n.peers = M.all)
    {k : Nat}
    {bytes : List UInt8}
    (hRecovery : n.recovery k = .just bytes) :
    bytes =
        message Wire.RecoveryPeers.messageType ⟨M.all⟩ ∨
      ∃ state ∈ n.state.elevators, state.id = k ∧
        bytes = message Wire.RecoveryState.messageType
          ⟨state, M.all⟩ := by
  have hCard : M.all.card = Fintype.card ι :=
    Machines.card_all
  unfold FitsBuffer at hFits
  unfold recovery at hRecovery
  rw [hPeers] at hRecovery
  split at hRecovery
  · split at hRecovery
    · next state hGet =>
        rcases GlobalState.get_mem hGet with ⟨hMem, hId⟩
        have hSize : Serializer.encodedSize
            Wire.RecoveryState.messageType ⟨state, M.all⟩ ≤
              Serializer.standardMTU := by
          rw [Wire.encodedSize_recoveryState]
          dsimp only
          omega
        rw [toPacket_eq_message hSize] at hRecovery
        right
        refine ⟨state, hMem, hId, ?_⟩
        injection hRecovery with hBytes
        exact hBytes.symm
    · cases hRecovery
  · have hSize : Serializer.encodedSize
        Wire.RecoveryPeers.messageType ⟨M.all⟩ ≤
          Serializer.standardMTU := by
      rw [Wire.encodedSize_recoveryPeers]
      dsimp only
      omega
    rw [toPacket_eq_message hSize] at hRecovery
    left
    injection hRecovery with hBytes
    exact hBytes.symm

/- What a connected node answers is of the protocol. -/
theorem inv_assist
    (hFits : FitsBuffer ι)
    (hStage : n.stage = .connected)
    (hInv : NodeInv M i n)
    {e : Envelope}
    (hGenuine : Genuine M e)
    {pack memory bytes : List UInt8}
    (hAssist : n.assist e.source pack memory = some bytes) :
    Genuine M ⟨M.address i, some e.source, bytes⟩ := by
  have hPeers := hInv.full (hInv.connected hStage).1
  rcases Machines.mem_all.mp hGenuine.source with
    ⟨j, hSource⟩
  have hRank : n.peers.sort.idxOf e.source = M.rank j := by
    rw [hPeers, ← hSource]
    rfl
  have hRecovery : n.recovery (M.rank j) = .just bytes := by
    unfold assist at hAssist
    rw [hRank] at hAssist
    split at hAssist
    · cases hAssist
    split at hAssist
    case isFalse => cases hAssist
    dsimp only at hAssist
    split at hAssist
    case isFalse => cases hAssist
    split at hAssist
    · next hJust =>
        rw [hJust, Option.some.inj hAssist]
    · cases hAssist
  refine ⟨Machines.address_mem_all i, ?_⟩
  rcases recovery_cases hFits hPeers hRecovery with
    hBytes | ⟨state, hMem, hId, hBytes⟩
  · exact Or.inr (Or.inl hBytes)
  · refine Or.inr (Or.inr ⟨j, state, ?_,
      hInv.states state hMem, hId, hBytes⟩)
    rw [hSource]

------------------------------------------------------------
-- Connecting
------------------------------------------------------------

theorem inv_connect
    (hInv : NodeInv M i n)
    (hPhase : 2 ≤ n.initPhase)
    (hConnect : n.connect (M.localAddrs i) = some n') :
    NodeInv M i n' := by
  rw [connect_eq (hInv.full hPhase)] at hConnect
  rw [← Option.some.inj hConnect]
  exact {
    barrier := hInv.barrier
    peers := hInv.peers
    full := hInv.full
    connected := fun _ => ⟨hPhase, rfl⟩
    packed := hInv.packed
    states := hInv.states
    recovered := hInv.recovered }

/- A process that has just started knows nothing. -/
theorem inv_start
    (id : Int) :
    NodeInv M i (.start id) where
  barrier := Finset.empty_subset _
  peers := Finset.empty_subset _
  full h := absurd h (Nat.not_succ_le_zero 1)
  connected h := by cases h
  packed _ h := by cases h
  states _ h := by cases h
  recovered _ h := by cases h

theorem inv_down :
    NodeInv M i .down where
  barrier := Finset.empty_subset _
  peers := Finset.empty_subset _
  full h := absurd h (by decide)
  connected h := by cases h
  packed _ h := by cases h
  states _ h := by cases h
  recovered _ h := by cases h

------------------------------------------------------------
-- Steps
------------------------------------------------------------

section Steps

variable {s s' : Session ι}

theorem inv_initial :
    Inv M (initial : Session ι) where
  node _ := inv_down
  sent _ he := by cases he

/- New datagrams of the protocol keep the invariant. -/
theorem Inv.send
    (hInv : Inv M s)
    {es : List Envelope}
    (hNew : ∀ e ∈ es, Genuine M e) :
    Inv M { s with sent := s.sent ++ es } where
  node := hInv.node
  sent e he := by
    rcases List.mem_append.mp he with hOld | hMem
    · exact hInv.sent e hOld
    · exact hNew e hMem

variable [DecidableEq ι]

/- Replacing one node keeps the invariant of the others. -/
theorem Inv.put
    (hInv : Inv M s)
    (hNode : NodeInv M i n) :
    Inv M (s.put i n) where
  node j := by
    unfold Session.put
    by_cases hSame : j = i
    · rw [hSame]
      dsimp only
      rw [Function.update_self]
      exact hNode
    · dsimp only
      rw [Function.update_of_ne hSame]
      exact hInv.node j
  sent := hInv.sent

theorem inv_pack
    (n : SessionNode) :
    InitBytes n.pack := by
  unfold SessionNode.pack
  split
  · exact Or.inr (Or.inl rfl)
  · exact Or.inr (Or.inr rfl)
  · exact Or.inl rfl

theorem inv_of_step
    (hFits : FitsBuffer ι)
    (hInv : Inv M s)
    (hStep : Step M s s') :
    Inv M s' := by
  cases hStep with
  | start i id => exact hInv.put (inv_start id)
  | crash i => exact hInv.put inv_down
  | check i hStage hSender hPhase =>
      have hNode := hInv.node i
      exact hInv.put {
        hNode with
        packed := fun _ h => by cases h }
  | pack i hStage hSender =>
      have hNode := hInv.node i
      exact hInv.put {
        hNode with
        packed := fun bytes h => by
          cases h
          exact inv_pack _ }
  | transmit i bytes hStage hSender =>
      have hNode := hInv.node i
      have hPut : Inv M (s.put i
          { s.node i with sender := .idle }) :=
        hInv.put {
          hNode with
          packed := fun _ h => by cases h }
      apply hPut.send
      intro e he
      rw [List.mem_singleton.mp he]
      exact {
        source := Machines.address_mem_all i
        bytes := Or.inl (hNode.packed bytes hSender) }
  | listen i e memory hSent hReaches hStage hPhase =>
      apply hInv.put
      cases hListen : (s.node i).listen (Fintype.card ι)
          e.source (Serializer.recvPacket e.bytes)
          memory with
      | none => exact inv_down
      | some n' =>
          exact inv_listen hFits hStage (hInv.node i)
            (hInv.sent e hSent) hReaches memory hListen
  | connect i hStage hPhase hSender =>
      apply hInv.put
      cases hConnect : (s.node i).connect
          (M.localAddrs i) with
      | none => exact inv_down
      | some n' =>
          exact inv_connect (hInv.node i) hPhase hConnect
  | update i state hRange hStage =>
      have hNode := hInv.node i
      exact hInv.put {
        hNode with
        states := by
          intro e he
          rcases GlobalState.mem_update he with hNew | hOld
          · rw [hNew]
            exact hRange
          · exact hNode.states e hOld }
  | assist i e memory hSent hReaches hStage =>
      apply hInv.send
      intro e' he'
      rcases Option.map_eq_some_iff.mp
        (Option.mem_toList.mp he') with ⟨bytes, hBytes, hEq⟩
      rw [← hEq]
      exact inv_assist hFits hStage (hInv.node i)
        (hInv.sent e hSent) hBytes

theorem inv_of_reachable
    (hFits : FitsBuffer ι)
    (hReach : (system M).Reachable s) :
    Inv M s := by
  apply hReach.invariant
  · intro s hInit
    rw [hInit]
    exact inv_initial
  · intro s s' hInv hStep
    exact inv_of_step hFits hInv hStep

------------------------------------------------------------
-- Agreement
------------------------------------------------------------

/- Connected nodes have the ranks of their addresses. -/
theorem id_eq_rank
    (hFits : FitsBuffer ι)
    (hReach : (system M).Reachable s)
    (hConnected : s.Connected i) :
    (s.node i).id = M.rank i :=
  (((inv_of_reachable hFits hReach).node i).connected
    hConnected).2

/-
  If the recovery packet of the session fits the receive
  buffer, the nodes agree in every state of every run.
-/
theorem agreement
    (M : Machines ι)
    (hFits : FitsBuffer ι)
    (s : Session ι)
    (hReach : (system M).Reachable s) :
    Agreement M s := by
  have hInv := inv_of_reachable hFits hReach
  exact {
    peers := fun i hFinished =>
      (hInv.node i).full hFinished.2
    range := by
      intro i hConnected
      rw [id_eq_rank hFits hReach hConnected]
      have hLt := M.rank_lt i
      refine ⟨Int.natCast_nonneg _, by omega⟩
    distinct := by
      intro i j hi hj hId
      rw [id_eq_rank hFits hReach hi,
        id_eq_rank hFits hReach hj] at hId
      exact M.rank_injective (Int.ofNat.inj hId)
    again := by
      intro s' hSteps i hi hi'
      have hReach' : (system M).Reachable s' := by
        rcases hReach with ⟨s₀, hInit, hRun⟩
        exact ⟨s₀, hInit, hRun.trans hSteps⟩
      rw [id_eq_rank hFits hReach hi,
        id_eq_rank hFits hReach' hi']
    recovered := by
      intro i hConnected state hState
      rw [id_eq_rank hFits hReach hConnected]
      exact (hInv.node i).recovered state hState }

end Steps

/- The address 10.0.0.1 and the ones after it. -/
def privateAddress
    (k : Nat) : IPv4Address :=
  Fin.ofNat 4294967296 (167772161 + k)

theorem privateAddress_injective
    {k l : Nat}
    (hk : k < 4096)
    (hl : l < 4096)
    (hEq : privateAddress k = privateAddress l) :
    k = l := by
  have hVal := congrArg Fin.val hEq
  unfold privateAddress at hVal
  rw [Fin.val_ofNat, Fin.val_ofNat,
    Nat.mod_eq_of_lt (by omega),
    Nat.mod_eq_of_lt (by omega)] at hVal
  omega

/- Machines with consecutive addresses. -/
def consecutive
    {n : Nat}
    (hn : n ≤ 4096) : Machines (Fin n) where
  address i := privateAddress i
  localAddrs i := {privateAddress i}
  address_injective i j hEq := Fin.ext
    (privateAddress_injective (by omega) (by omega) hEq)
  address_mem_localAddrs i j := by
    rw [Finset.mem_singleton]
    constructor
    · intro hEq
      exact Fin.ext (privateAddress_injective
        (by omega) (by omega) hEq)
    · intro hEq
      rw [hEq]

/- Two machines. -/
def twoMachines : Machines (Fin 2) :=
  consecutive (by decide)

/- A run in which both machines connect, and agree. -/
theorem agreement_twoMachines :
    ∃ s, (system twoMachines).Reachable s ∧
      (∀ i, s.Connected i) ∧ Agreement twoMachines s := by
  rcases exists_met twoMachines (by decide) with
    ⟨s, hReach, hMet, _⟩
  have hFits : FitsBuffer (Fin 2) := by
    unfold FitsBuffer
    decide
  exact ⟨s, hReach, fun i => (hMet i).1,
    agreement twoMachines hFits s hReach⟩

end Session

end ElevatorControl
