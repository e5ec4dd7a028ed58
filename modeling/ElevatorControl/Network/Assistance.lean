import ElevatorControl.Network.Agreement

/-
  What a connected node does for one that still connects.

  The monitoring loop answers `Initial` with a recovery
  packet, which ends the listener of the other node, and does
  not answer `Ready`. So a node that has reached the second
  phase when another one connects gets no help from it.

  Key definitions include:
    * `Session.Assisted`
    * `SessionNode.RecoveryFits`

  Key theorems include:
    * `Session.states_inRange`
    * `Session.assisted_iff`
-/

------------------------------------------------------------
-- States of Connected Nodes
------------------------------------------------------------

namespace ElevatorControl

open LittleEndian SessionNode

namespace SessionNode

/- Every state the node knows has fields of their declared
types. -/
def StatesInRange
    (n : SessionNode) : Prop :=
  ∀ state ∈ n.state.elevators, state.InRange

/- The listener learns states only from packets. -/
theorem statesInRange_listen
    {n n' : SessionNode}
    {count : Int}
    {source : IPv4Address}
    {pack memory : List UInt8}
    (hStates : n.StatesInRange)
    (hListen : n.listen count source pack memory =
      some n') :
    n'.StatesInRange := by
  have hCheck : ∀ m : SessionNode, m.StatesInRange →
      (m.checkBarrier count).StatesInRange := by
    intro m hm
    unfold checkBarrier
    split
    · exact hm
    · split
      · exact hm
      · exact hm
  unfold listen at hListen
  split at hListen
  · rw [← Option.some.inj hListen]
    exact hStates
  split at hListen
  case h_2 => cases hListen
  split at hListen
  · rw [← Option.some.inj hListen]
    exact hCheck _ hStates
  split at hListen
  · rw [← Option.some.inj hListen]
    exact hCheck _ hStates
  split at hListen
  · split at hListen
    · rw [← Option.some.inj hListen]
      exact hCheck _ hStates
    · cases hListen
  split at hListen
  · split at hListen
    · next recovered hRead =>
        rw [← Option.some.inj hListen]
        apply hCheck
        intro state hState
        rcases GlobalState.mem_update hState with
          hNew | hOld
        · rw [hNew]
          exact Wire.inRange_recoveryState hRead
        · exact hStates state hOld
    · cases hListen
  · rw [← Option.some.inj hListen]
    exact hCheck _ hStates

theorem statesInRange_connect
    {n n' : SessionNode}
    {localAddrs : Finset IPv4Address}
    (hStates : n.StatesInRange)
    (hConnect : n.connect localAddrs = some n') :
    n'.StatesInRange := by
  unfold connect at hConnect
  extract_lets i id at hConnect
  split at hConnect
  · rw [← Option.some.inj hConnect]
    exact hStates
  · cases hConnect

theorem statesInRange_start
    (id : Int) :
    (start id).StatesInRange := by
  intro state hState
  cases hState

end SessionNode

namespace Session

variable
  {ι : Type}
  [Fintype ι]
  [DecidableEq ι]
  {M : Machines ι}
  {s s' : Session ι}
  {a b : ι}

omit [Fintype ι] in
/- Replacing a node by one that knows states in range. -/
theorem statesInRange_put
    {n : SessionNode}
    (hStates : ∀ i, (s.node i).StatesInRange)
    (hNode : n.StatesInRange) :
    ∀ i, ((s.put a n).node i).StatesInRange := by
  intro i
  unfold put
  by_cases hSame : i = a
  · rw [hSame]
    simpa using hNode
  · simpa [hSame] using hStates i

theorem statesInRange_of_step
    (hStates : ∀ i, (s.node i).StatesInRange)
    (hStep : Step M s s') :
    ∀ i, (s'.node i).StatesInRange := by
  cases hStep with
  | start i id =>
      exact statesInRange_put hStates
        (statesInRange_start id)
  | crash i =>
      exact statesInRange_put hStates
        (statesInRange_start 0)
  | check i hStage hSender hPhase =>
      exact statesInRange_put hStates (hStates i)
  | pack i hStage hSender =>
      exact statesInRange_put hStates (hStates i)
  | transmit i bytes hStage hSender =>
      exact statesInRange_put hStates (hStates i)
  | listen i e memory hSent hReaches hStage hPhase =>
      apply statesInRange_put hStates
      cases hListen : (s.node i).listen (Fintype.card ι)
          e.source (Serializer.recvPacket e.bytes)
          memory with
      | none => exact statesInRange_start 0
      | some n =>
          exact statesInRange_listen (hStates i) hListen
  | connect i hStage hPhase hSender =>
      apply statesInRange_put hStates
      cases hConnect : (s.node i).connect
          (M.localAddrs i) with
      | none => exact statesInRange_start 0
      | some n =>
          exact statesInRange_connect (hStates i) hConnect
  | update i state hRange hStage =>
      apply statesInRange_put hStates
      intro e he
      rcases GlobalState.mem_update he with hNew | hOld
      · rw [hNew]
        exact hRange
      · exact hStates i e hOld
  | assist i e memory hSent hReaches hStage => exact hStates

/- In every run the nodes know only states in range. -/
theorem states_inRange
    (hReach : (system M).Reachable s) :
    ∀ i, (s.node i).StatesInRange := by
  apply hReach.invariant
  · intro s hInit i
    rw [hInit]
    exact statesInRange_start 0
  · exact fun _ _ => statesInRange_of_step

end Session

------------------------------------------------------------
-- Answers
------------------------------------------------------------

namespace SessionNode

/- The recovery packet for the peer with the address fits the
receive buffer. -/
def RecoveryFits
    (n : SessionNode)
    (source : IPv4Address) : Prop :=
  if n.state.has (n.peers.sort.idxOf source) then
    58 + 4 * n.peers.card ≤ Serializer.standardMTU
  else 16 + 4 * n.peers.card ≤ Serializer.standardMTU

variable {n : SessionNode}
variable {source : IPv4Address}
variable {count : Int}

/- `Ready` is not answered. -/
theorem assist_ready
    (memory : List UInt8) :
    n.assist source (message Wire.Ready.messageType {})
      memory = none := by
  have hOther :
      Outcome.just Wire.Ready.messageType.type.value ≠
        .just TypeSignature.initialPacket.value := by
    intro hSame
    have hValue := Outcome.just.inj hSame
    revert hValue
    decide
  unfold assist
  rw [if_neg (message_ne_nil _ _), packetType_message,
    if_neg hOther]

/- `Initial` is answered exactly if it comes from a known
peer and the recovery packet can be made. -/
theorem assist_initial_iff
    {memory bytes : List UInt8} :
    n.assist source (message Wire.Initial.messageType {})
        memory = some bytes ↔
      source ∈ n.peers ∧
        n.recovery (n.peers.sort.idxOf source) =
          .just bytes := by
  have hType :
      Outcome.just Wire.Initial.messageType.type.value =
        .just TypeSignature.initialPacket.value := rfl
  have hMem :
      n.peers.sort.idxOf source < n.peers.sort.length ↔
        source ∈ n.peers := by
    rw [List.idxOf_lt_length_iff, Finset.mem_sort]
  unfold assist
  rw [if_neg (message_ne_nil _ _), packetType_message,
    if_pos hType]
  dsimp only
  by_cases hKnown : source ∈ n.peers
  · rw [if_pos (hMem.mpr hKnown)]
    cases n.recovery (n.peers.sort.idxOf source) with
    | just bytes' => simp [hKnown]
    | nothing => simp
    | failed e => simp
    | badAlloc => simp
    | outOfRange => simp
  · rw [if_neg (fun h => hKnown (hMem.mp h))]
    simp [hKnown]

/- A state that is found is one of the known ones. -/
theorem exists_get
    {i : Int}
    (hHas : n.state.has i = true) :
    ∃ state ∈ n.state.elevators,
      n.state.get i = .ok state := by
  unfold GlobalState.has at hHas
  rcases Option.isSome_iff_exists.mp hHas with
    ⟨state, hFind⟩
  refine ⟨state, List.mem_of_find?_eq_some hFind, ?_⟩
  unfold GlobalState.get
  rw [hFind]

/- After a recovery packet the phase is over. -/
theorem initPhase_recovered
    (hPeers : n.barrier = n.peers)
    (hPhase : n.initPhase = 2) :
    (n.checkBarrier count).initPhase = 2 := by
  unfold checkBarrier
  rw [hPeers]
  split
  · rfl
  · exact hPhase

/- A recovery packet that exceeds the buffer is not decoded
when nothing lies behind it. -/
theorem listen_cut
    {α : Type}
    {t : MessageType α}
    {m : α}
    (hKind : t.type = .recoveryPeers ∨
      t.type = .recoveryState)
    (hSize : (Serializer.encodedSize t m : Int) ≤ intMax)
    (hLong : Serializer.standardMTU <
      Serializer.encodedSize t m) :
    n.listen count source
      (Serializer.recvPacket (message t m)) [] = none := by
  unfold Serializer.encodedSize at hSize hLong
  rw [← Serializer.length_data] at hSize hLong
  have hFramed := Serializer.not_wellFramed_cut hSize hLong
  have hFits : Fits 4 (Serializer.serialize t m).type :=
    t.type.fits_value
  have hType := Serializer.packetType_cut hFits
  have hSerial : (Serializer.serialize t m).type =
      t.type.value := rfl
  rw [hSerial] at hType
  have hNil : Serializer.recvPacket (message t m) ≠ [] := by
    intro hNil
    unfold message at hNil
    rw [hNil] at hType
    cases hType
  unfold message at hNil ⊢
  unfold listen
  rw [if_neg hNil, List.append_nil, hType]
  dsimp only
  have hInitial : ¬ t.type.value =
      TypeSignature.initialPacket.value := by
    rcases hKind with hKind | hKind
    · rw [hKind]
      decide
    · rw [hKind]
      decide
  have hReady : ¬ t.type.value =
      TypeSignature.elevatorReady.value := by
    rcases hKind with hKind | hKind
    · rw [hKind]
      decide
    · rw [hKind]
      decide
  rw [if_neg hInitial, if_neg hReady]
  rcases hKind with hKind | hKind
  · rw [if_pos (by rw [hKind])]
    rcases Serializer.fromPacket_not_wellFramed
      (t := Wire.RecoveryPeers.messageType) hFramed with
      hOut | hOut
    · rw [hOut]
    · rw [hOut]
  · have hPeers : ¬ t.type.value =
        TypeSignature.recoveryPeers.value := by
      rw [hKind]
      decide
    rw [if_neg hPeers, if_pos (by rw [hKind])]
    rcases Serializer.fromPacket_not_wellFramed
      (t := Wire.RecoveryState.messageType) hFramed with
      hOut | hOut
    · rw [hOut]
    · rw [hOut]

end SessionNode

------------------------------------------------------------
-- Assistance
------------------------------------------------------------

namespace Session

variable
  {ι : Type}
  [Fintype ι]
  {M : Machines ι}
  {s : Session ι}
  {a b : ι}

/- The node has not finished `_initListener`. -/
def Listens
    (s : Session ι)
    (i : ι) : Prop :=
  (s.node i).stage = .connecting ∧ (s.node i).initPhase < 2

/-
  The packet `b` sends in its phase makes `a` send a packet
  which ends the listener of `b`, or adds `a` to its
  barrier, whatever lies behind the packets in memory.
-/
def Assisted
    (M : Machines ι)
    (s : Session ι)
    (a b : ι) : Prop :=
  ∀ memory memory', ∃ bytes n,
    (s.node a).assist (M.address b)
        (Serializer.recvPacket (s.node b).pack) memory =
      some bytes ∧
    (s.node b).listen (Fintype.card ι) (M.address a)
        (Serializer.recvPacket bytes) memory' = some n ∧
    (n.initPhase = 2 ∨ M.address a ∈ n.barrier)

omit [Fintype ι] in
/- In the first phase a listener sends `Initial`, in the
second `Ready`. -/
theorem pack_listens
    (hListens : s.Listens b) :
    ((s.node b).initPhase = 0 ∧ (s.node b).pack =
        message Wire.Initial.messageType {}) ∨
      ((s.node b).initPhase ≠ 0 ∧ (s.node b).pack =
        message Wire.Ready.messageType {}) := by
  have hPhase := hListens.2
  have hCases : (s.node b).initPhase = 0 ∨
      (s.node b).initPhase = 1 := by
    omega
  unfold SessionNode.pack
  rcases hCases with hZero | hOne
  · rw [hZero]
    exact Or.inl ⟨rfl, rfl⟩
  · rw [hOne]
    exact Or.inr ⟨Nat.one_ne_zero, rfl⟩

/- The recovery packet of a node, when it fits the buffer. -/
theorem assisted_of_fits
    (hStates : (s.node a).StatesInRange)
    (hPack : (s.node b).pack =
      message Wire.Initial.messageType {})
    (hKnown : M.address b ∈ (s.node a).peers)
    (hFits : (s.node a).RecoveryFits (M.address b)) :
    Assisted M s a b := by
  intro memory memory'
  rw [hPack, recvPacket_message (by decide)]
  unfold RecoveryFits at hFits
  split_ifs at hFits with hHas
  · rcases exists_get hHas with ⟨state, hMem, hGet⟩
    have hSize : Serializer.encodedSize
        Wire.RecoveryState.messageType
          ⟨state, (s.node a).peers⟩ ≤
            Serializer.standardMTU := by
      rw [Wire.encodedSize_recoveryState]
      exact hFits
    have hInt : 58 + 4 * ((s.node a).peers.card : Int) ≤
        intMax := by
      unfold Serializer.standardMTU at hFits
      unfold intMax
      omega
    have hAnswer : (s.node a).recovery
        ((s.node a).peers.sort.idxOf (M.address b)) =
        .just (message Wire.RecoveryState.messageType
          ⟨state, (s.node a).peers⟩) := by
      unfold recovery
      rw [if_pos hHas, hGet]
      exact toPacket_eq_message hSize
    have hListen := listen_recoveryState (n := s.node b)
      (Fintype.card ι) (M.address a) memory'
      (hStates state hMem) hInt (message_ne_nil _ _) rfl
    rw [← recvPacket_message hSize] at hListen
    exact ⟨_, _, assist_initial_iff.mpr ⟨hKnown, hAnswer⟩,
      hListen, Or.inl (initPhase_recovered rfl rfl)⟩
  · have hSize : Serializer.encodedSize
        Wire.RecoveryPeers.messageType
          ⟨(s.node a).peers⟩ ≤ Serializer.standardMTU := by
      rw [Wire.encodedSize_recoveryPeers]
      exact hFits
    have hAnswer : (s.node a).recovery
        ((s.node a).peers.sort.idxOf (M.address b)) =
        .just (message Wire.RecoveryPeers.messageType
          ⟨(s.node a).peers⟩) := by
      unfold recovery
      rw [if_neg hHas]
      exact toPacket_eq_message hSize
    have hListen := listen_recoveryPeers (n := s.node b)
      (Fintype.card ι) (M.address a) memory' hFits
    rw [← recvPacket_message hSize] at hListen
    exact ⟨_, _, assist_initial_iff.mpr ⟨hKnown, hAnswer⟩,
      hListen, Or.inl (initPhase_recovered rfl rfl)⟩

/- A recovery packet that is made but exceeds the buffer may
be lost. -/
theorem fits_of_assisted
    (hPack : (s.node b).pack =
      message Wire.Initial.messageType {})
    (hAssisted : Assisted M s a b) :
    M.address b ∈ (s.node a).peers ∧
      (s.node a).RecoveryFits (M.address b) := by
  rcases hAssisted [] [] with ⟨bytes, n, hAnswer, hListen, _⟩
  rw [hPack, recvPacket_message (by decide)] at hAnswer
  rcases assist_initial_iff.mp hAnswer with
    ⟨hKnown, hRecovery⟩
  refine ⟨hKnown, ?_⟩
  have hMade : ∀ {α : Type} {t : MessageType α} {m : α},
      t.type = .recoveryPeers ∨ t.type = .recoveryState →
      Serializer.toPacket t m = .just bytes →
      Serializer.encodedSize t m ≤
        Serializer.standardMTU := by
    intro α t m hKind hPacket
    by_contra hLong
    have hSize :
        (Serializer.encodedSize t m : Int) ≤ intMax := by
      by_contra hSize
      exact Serializer.toPacket_ne_just
        (Int.not_le.mp hSize) bytes hPacket
    rw [Serializer.toPacket_eq_just hSize] at hPacket
    have hBytes : message t m = bytes :=
      Outcome.just.inj hPacket
    rw [← hBytes, listen_cut hKind hSize
      (Nat.not_le.mp hLong)] at hListen
    cases hListen
  unfold recovery at hRecovery
  unfold RecoveryFits
  split_ifs at hRecovery ⊢ with hHas
  · rcases exists_get hHas with ⟨state, _, hGet⟩
    rw [hGet] at hRecovery
    have hSize := hMade (Or.inr rfl) hRecovery
    rw [Wire.encodedSize_recoveryState] at hSize
    exact hSize
  · have hSize := hMade (Or.inl rfl) hRecovery
    rw [Wire.encodedSize_recoveryPeers] at hSize
    exact hSize

variable [DecidableEq ι]

/-
  A connected node assists a listening one exactly if the
  other is in the first phase, its address is known, and the
  recovery packet fits the receive buffer.
-/
theorem assisted_iff
    (M : Machines ι)
    (s : Session ι)
    (hReach : (system M).Reachable s)
    (a b : ι)
    (_hConnected : s.Connected a)
    (hListens : s.Listens b) :
    Assisted M s a b ↔
      (s.node b).initPhase = 0 ∧
        M.address b ∈ (s.node a).peers ∧
        (s.node a).RecoveryFits (M.address b) := by
  rcases pack_listens hListens with
    ⟨hPhase, hPack⟩ | ⟨hPhase, hPack⟩
  · constructor
    · intro hAssisted
      exact ⟨hPhase, fits_of_assisted hPack hAssisted⟩
    · rintro ⟨_, hKnown, hFits⟩
      exact assisted_of_fits (states_inRange hReach a) hPack
        hKnown hFits
  · constructor
    · intro hAssisted
      rcases hAssisted [] [] with ⟨bytes, n, hAnswer, _⟩
      rw [hPack, recvPacket_message (by decide),
        assist_ready] at hAnswer
      cases hAnswer
    · rintro ⟨hZero, _⟩
      exact absurd hZero hPhase

/- When recovery packets fit the buffer, the phase alone
decides. -/
theorem assisted_iff_of_fitsBuffer
    (hFits : FitsBuffer ι)
    (hReach : (system M).Reachable s)
    (hConnected : s.Connected a)
    (hListens : s.Listens b) :
    Assisted M s a b ↔ (s.node b).initPhase = 0 := by
  have hNode := (inv_of_reachable hFits hReach).node a
  have hPeers : (s.node a).peers = M.all :=
    hNode.full (hNode.connected hConnected).1
  have hCard : M.all.card = Fintype.card ι :=
    Machines.card_all
  unfold FitsBuffer at hFits
  constructor
  · intro hAssisted
    rcases pack_listens hListens with
      ⟨hPhase, _⟩ | ⟨_, hPack⟩
    · exact hPhase
    · rcases hAssisted [] [] with ⟨bytes, n, hAnswer, _⟩
      rw [hPack, recvPacket_message (by decide),
        assist_ready] at hAnswer
      cases hAnswer
  · intro hPhase
    rcases pack_listens hListens with
      ⟨_, hPack⟩ | ⟨hOther, _⟩
    · apply assisted_of_fits (states_inRange hReach a) hPack
      · rw [hPeers]
        exact Machines.address_mem_all b
      · unfold RecoveryFits
        rw [hPeers]
        split_ifs
        · omega
        · omega
    · exact absurd hPhase hOther

/-
  Two machines gather, machine 0 connects, and machine 1,
  which sends `Ready`, gets no answer.
-/
theorem ready_unanswered :
    ∃ s, (system twoMachines).Reachable s ∧
      s.Connected 0 ∧ s.Listens 1 ∧
      (s.node 1).initPhase = 1 ∧
      ¬ Assisted twoMachines s 0 1 := by
  rcases exists_allGathered twoMachines (by decide) with
    ⟨s₁, ⟨s₀, hInit, hRun⟩, hGathered, hPhase, _⟩
  rcases exists_connected (M := twoMachines) (i := 0)
    (by decide) (hGathered 0)
    (fun j => (hGathered j).2.2.2.2.2) with
    ⟨s₂, hExtends, hMet⟩
  have hOther : s₂.node 1 = s₁.node 1 :=
    hExtends.others 1 (by decide)
  have hPhase₂ : (s₂.node 1).initPhase = 1 := by
    rw [hOther]
    exact hPhase 1
  have hListens : s₂.Listens 1 := by
    unfold Listens
    rw [hOther]
    exact ⟨(hGathered 1).1, (hGathered 1).2.2.1⟩
  refine ⟨s₂, ⟨s₀, hInit, hRun.trans hExtends.run⟩,
    hMet.1, hListens, hPhase₂, ?_⟩
  intro hAssisted
  rcases hAssisted [] [] with ⟨bytes, n, hAnswer, _⟩
  have hPack : (s₂.node 1).pack =
      message Wire.Ready.messageType {} := by
    unfold SessionNode.pack
    rw [hPhase₂]
    rfl
  rw [hPack, recvPacket_message (by decide),
    assist_ready] at hAnswer
  cases hAnswer

/- Machine 0 has connected, machine 1 restarts, and its first
packet is answered. -/
theorem assisted_iff_twoMachines :
    ∃ s, (system twoMachines).Reachable s ∧
      s.Connected 0 ∧ s.Listens 1 ∧
      Assisted twoMachines s 0 1 := by
  rcases exists_met twoMachines (by decide) with
    ⟨s₁, ⟨s₀, hInit, hRun⟩, hMet, _⟩
  have hStart := Extends.put
    (Step.start (M := twoMachines) s₁ 1 0)
  generalize hs₂ : s₁.put 1 (.start 0) = s₂ at hStart
  have hReach : (system twoMachines).Reachable s₂ :=
    ⟨s₀, hInit, hRun.trans hStart.run⟩
  have hNode : s₂.node 1 = .start 0 := by
    rw [← hs₂, node_put]
  have hOther : s₂.node 0 = s₁.node 0 :=
    hStart.others 0 (by decide)
  have hConnected : s₂.Connected 0 := by
    unfold Connected
    rw [hOther]
    exact (hMet 0).1
  have hListens : s₂.Listens 1 := by
    unfold Listens
    rw [hNode]
    exact ⟨rfl, by decide⟩
  refine ⟨s₂, hReach, hConnected, hListens, ?_⟩
  apply (assisted_iff twoMachines s₂ hReach 0 1 hConnected
    hListens).mpr
  have hCard : twoMachines.all.card = 2 :=
    Machines.card_all
  refine ⟨by rw [hNode]; rfl, ?_, ?_⟩
  · rw [hOther, (hMet 0).2.2.1]
    exact Machines.address_mem_all 1
  · unfold RecoveryFits
    rw [hOther, (hMet 0).2.2.1, hCard]
    split_ifs
    · decide
    · decide

end Session

end ElevatorControl
