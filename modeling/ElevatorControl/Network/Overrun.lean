import ElevatorControl.Network.Agreement

/-
  A session with more machines than a receive buffer can
  tell: the recovery packet of 361 machines has 1502 bytes.
  The receiver gets the first 1500 of them, and takes the
  upper half of the last address from the memory behind.

  Key definitions include:
    * `Session.manyMachines`
    * `Session.strayPeers`

  Key theorems include:
    * `Session.recvPacket_recovery`
    * `Session.agreement_lost`
-/

------------------------------------------------------------
-- Addresses
------------------------------------------------------------

namespace ElevatorControl

open LittleEndian SessionNode

namespace Session

/- The addresses of all machines but the last. -/
def firstAddresses : List IPv4Address :=
  (List.range 360).map privateAddress

/- The machines with consecutive addresses. -/
def manyMachines : Machines (Fin 361) :=
  consecutive (by decide)

/- The last address with another upper half. -/
def strayAddress : IPv4Address := privateAddress 65896

/- The peers that are read from the packet, which has been
cut off. -/
def strayPeers : Finset IPv4Address :=
  (firstAddresses ++ [strayAddress]).toFinset

theorem length_firstAddresses :
    firstAddresses.length = 360 := by
  unfold firstAddresses
  rw [List.length_map, List.length_range]

theorem val_privateAddress
    {k : Nat}
    (hk : k < 100000) :
    (privateAddress k).val = 167772161 + k := by
  unfold privateAddress
  rw [Fin.val_ofNat, Nat.mod_eq_of_lt (by omega)]

theorem privateAddress_lt
    {k l : Nat}
    (hLt : k < l)
    (hl : l < 100000) :
    privateAddress k < privateAddress l := by
  rw [Fin.lt_def, val_privateAddress (by omega),
    val_privateAddress hl]
  omega

/- A later address continues the ascending list. -/
theorem pairwise_addresses
    {l : Nat}
    (hLow : 360 ≤ l)
    (hHigh : l < 100000) :
    (firstAddresses ++ [privateAddress l]).Pairwise
      (· < ·) := by
  rw [List.pairwise_append]
  refine ⟨?_, List.pairwise_singleton _ _, ?_⟩
  · unfold firstAddresses
    rw [List.pairwise_map]
    apply List.pairwise_lt_range.imp_of_mem
    intro i j _ hj hLt
    have hBound := List.mem_range.mp hj
    exact privateAddress_lt hLt (by omega)
  · intro a ha b hb
    rcases List.mem_map.mp ha with ⟨k, hk, rfl⟩
    have hBound := List.mem_range.mp hk
    rw [List.mem_singleton.mp hb]
    exact privateAddress_lt (by omega) hHigh

theorem sort_addresses
    {l : Nat}
    (hLow : 360 ≤ l)
    (hHigh : l < 100000) :
    (firstAddresses ++ [privateAddress l]).toFinset.sort =
        firstAddresses ++ [privateAddress l] ∧
      (firstAddresses ++ [privateAddress l]).toFinset.card =
        361 := by
  have hSorted := pairwise_addresses hLow hHigh
  have hNodup : (firstAddresses ++
      [privateAddress l]).Nodup :=
    hSorted.imp fun h => ne_of_lt h
  refine ⟨?_, ?_⟩
  · exact (List.toFinset_sort (· ≤ ·) hNodup).mpr
      (hSorted.imp fun h => le_of_lt h)
  · rw [List.toFinset_card_of_nodup hNodup,
      List.length_append, length_firstAddresses]
    rfl

theorem all_manyMachines :
    manyMachines.all =
      (firstAddresses ++ [privateAddress 360]).toFinset := by
  ext a
  rw [Machines.mem_all, List.mem_toFinset, List.mem_append,
    List.mem_singleton]
  constructor
  · rintro ⟨i, rfl⟩
    by_cases hLast : i.val < 360
    · left
      exact List.mem_map.mpr
        ⟨i.val, List.mem_range.mpr hLast, rfl⟩
    · right
      have hEq : i.val = 360 := by omega
      change privateAddress i.val = _
      rw [hEq]
  · rintro (hFirst | hLast)
    · rcases List.mem_map.mp hFirst with ⟨k, hk, rfl⟩
      have hBound := List.mem_range.mp hk
      exact ⟨⟨k, by omega⟩, rfl⟩
    · exact ⟨⟨360, by omega⟩, hLast.symm⟩

theorem strayPeers_ne_all :
    strayPeers ≠ manyMachines.all := by
  intro hEq
  have hMem : strayAddress ∈ manyMachines.all := by
    rw [← hEq]
    simp [strayPeers]
  rcases Machines.mem_all.mp hMem with ⟨i, hi⟩
  have hi' := i.isLt
  have hVal := congrArg Fin.val hi
  change (privateAddress i.val).val =
    (privateAddress 65896).val at hVal
  rw [val_privateAddress (by omega),
    val_privateAddress (by omega)] at hVal
  omega

------------------------------------------------------------
-- The Recovery Packet
------------------------------------------------------------

/- The packet up to the last address. -/
def recoveryHead
    (state : Wire.ElevatorState) : List UInt8 :=
  encodeInt 4 6 ++ (encodeInt 4 1494 ++
    (Wire.ElevatorState.serializable.serialize state ++
      (encodeInt 8 361 ++
        firstAddresses.flatMap Wire.address.serialize)))

theorem length_recoveryHead
    (state : Wire.ElevatorState) :
    (recoveryHead state).length = 1498 := by
  have hState : (Wire.ElevatorState.serializable.serialize
      state).length = 42 :=
    Serializable.length_serialize _ _
  have hAddresses :
      (firstAddresses.flatMap
        Wire.address.serialize).length = 1440 := by
    rw [length_flatMap_eq
      (fun a => Serializable.length_serialize _ a),
      Wire.size_addressList, length_firstAddresses]
  unfold recoveryHead
  simp only [List.length_append, length_encodeInt, hState,
    hAddresses]

theorem message_recovery
    (state : Wire.ElevatorState)
    {l : Nat}
    (hLow : 360 ≤ l)
    (hHigh : l < 100000) :
    message Wire.RecoveryState.messageType
        ⟨state, (firstAddresses ++
          [privateAddress l]).toFinset⟩ =
      recoveryHead state ++
        Wire.address.serialize (privateAddress l) := by
  rcases sort_addresses hLow hHigh with ⟨hSort, hCard⟩
  generalize hPeers : (firstAddresses ++
    [privateAddress l]).toFinset = peers at *
  have hData : (Serializer.serialize
      Wire.RecoveryState.messageType ⟨state, peers⟩).data =
      Wire.ElevatorState.serializable.serialize state ++
        ((encodeInt 8 peers.card ++
          peers.sort.flatMap Wire.address.serialize) ++
            []) := rfl
  have hLength : (Serializer.serialize
      Wire.RecoveryState.messageType
        ⟨state, peers⟩).data.length = 1494 := by
    have hSize := Wire.encodedSize_recoveryState
      ⟨state, peers⟩
    have hSerialized := Serializer.length_data
      Wire.RecoveryState.messageType ⟨state, peers⟩
    have hOffset : Serializer.packetDataOffset = 8 := rfl
    unfold Serializer.encodedSize at hSize
    dsimp only at hSize
    omega
  unfold message Serializer.packet recoveryHead
  rw [hLength, hData, hSort, hCard, List.flatMap_append,
    List.flatMap_singleton]
  simp only [List.append_assoc, List.append_nil]
  rfl

/-
  The receiver gets all but the upper half of the last
  address.
-/
theorem recvPacket_recovery
    (state : Wire.ElevatorState) :
    Serializer.recvPacket
        (message Wire.RecoveryState.messageType
          ⟨state, manyMachines.all⟩) =
      recoveryHead state ++
        (Wire.address.serialize strayAddress).take 2 := by
  have hHead := length_recoveryHead state
  have hLower :
      (Wire.address.serialize (privateAddress 360)).take 2 =
        (Wire.address.serialize strayAddress).take 2 := by
    decide
  rw [all_manyMachines,
    message_recovery state (by omega) (by omega)]
  unfold Serializer.recvPacket Serializer.standardMTU
  rw [List.take_append, hHead, List.take_of_length_le
    (by omega), hLower]

/- With the upper half of the other address behind it, the
packet is one of the other peers. -/
theorem stray_recovery
    (state : Wire.ElevatorState) :
    (recoveryHead state ++
        (Wire.address.serialize strayAddress).take 2) ++
        (Wire.address.serialize strayAddress).drop 2 =
      message Wire.RecoveryState.messageType
        ⟨state, strayPeers⟩ := by
  rw [List.append_assoc, List.take_append_drop]
  exact (message_recovery (l := 65896) state
    (by omega) (by omega)).symm

------------------------------------------------------------
-- The Run
------------------------------------------------------------

section Run

variable
  {ι : Type}
  [Fintype ι]
  {M : Machines ι}

/- A node that knows the state answers with it. -/
theorem assist_initial
    {n : SessionNode}
    {e : Wire.ElevatorState}
    {j : ι}
    {bytes : List UInt8}
    (hPeers : n.peers = M.all)
    (hState : n.state.has (M.rank j) = true ∧
      n.state.get (M.rank j) = .ok e)
    (hPacket : Serializer.toPacket
      Wire.RecoveryState.messageType ⟨e, M.all⟩ =
        .just bytes) :
    n.assist (M.address j)
        (message Wire.Initial.messageType {}) [] =
      some bytes := by
  have hIndex : n.peers.sort.idxOf (M.address j) =
      M.rank j := by
    rw [hPeers]
    rfl
  have hLt : M.rank j < n.peers.sort.length := by
    rw [hPeers, Finset.length_sort, Machines.card_all]
    exact M.rank_lt j
  have hRecovery : n.recovery (M.rank j) = .just bytes := by
    unfold recovery
    rw [if_pos hState.1, hState.2, hPeers]
    exact hPacket
  have hType :
      Outcome.just Wire.Initial.messageType.type.value =
        .just TypeSignature.initialPacket.value := rfl
  unfold assist
  rw [if_neg (message_ne_nil _ _), packetType_message,
    if_pos hType, hIndex]
  dsimp only
  rw [if_pos hLt, hRecovery]

variable [DecidableEq ι]
variable {s : Session ι}
variable {i j : ι}

/- The answer to a node that announces itself. -/
theorem exists_answered
    {bytes : List UInt8}
    (hStage : (s.node i).stage = .connected)
    (hAssist : (s.node i).assist (M.address j)
      (message Wire.Initial.messageType {}) [] =
        some bytes)
    (hSent : announcement M j
      (message Wire.Initial.messageType {}) ∈ s.sent) :
    ∃ s', Step M s s' ∧ s'.node = s.node ∧
      ⟨M.address i, some (M.address j), bytes⟩ ∈
        s'.sent := by
  have hStep := Step.assist (M := M) s i
    (announcement M j (message Wire.Initial.messageType {}))
    [] hSent (Or.inl rfl) hStage
  refine ⟨_, hStep, rfl, ?_⟩
  change _ ∈ s.sent ++ (((s.node i).assist (M.address j)
    (Serializer.recvPacket
      (message Wire.Initial.messageType {})) []).map
        _).toList
  rw [recvPacket_initial, hAssist]
  exact List.mem_append_right _ (List.mem_singleton_self _)

/- A cut recovery packet that continues in memory as one of
the peers `stray`. -/
structure Strays
    (M : Machines ι)
    (state : Wire.ElevatorState)
    (stray : Finset IPv4Address)
    (pack memory : List UInt8) : Prop where
  cut : Serializer.recvPacket
    (message Wire.RecoveryState.messageType
      ⟨state, M.all⟩) = pack
  nonempty : pack ≠ []
  behind : pack ++ memory =
    message Wire.RecoveryState.messageType ⟨state, stray⟩
  card : stray.card = Fintype.card ι

/- The node takes the recovery packet for one of the stray
peers. -/
theorem exists_strayed
    {state : Wire.ElevatorState}
    {stray : Finset IPv4Address}
    {pack memory : List UInt8}
    (hStrays : Strays M state stray pack memory)
    (hSize : 58 + 4 * (Fintype.card ι : Int) ≤ intMax)
    (hRange : state.InRange)
    (hStage : (s.node j).stage = .connecting)
    (hPhase : (s.node j).initPhase < 2)
    (hSent : ⟨M.address i, some (M.address j),
      message Wire.RecoveryState.messageType
        ⟨state, M.all⟩⟩ ∈ s.sent) :
    ∃ s', Extends M j s s' ∧
      (s'.node j).stage = .connecting ∧
      (s'.node j).initPhase = 2 ∧
      (s'.node j).peers = stray := by
  have hCount : narrow 4 stray.card = Fintype.card ι := by
    rw [hStrays.card]
    exact narrow_eq (Serializer.fits_size.mpr (by omega))
  have hListen := listen_recoveryState (n := s.node j)
    (Fintype.card ι) (M.address i) memory hRange
    (by rw [hStrays.card]; exact hSize) hStrays.nonempty
    (hStrays.behind.trans (List.append_nil _).symm)
  have hStep := Step.listen (M := M) s j _ memory
    hSent (Or.inr rfl) hStage hPhase
  dsimp only at hStep
  rw [hStrays.cut, hListen, Option.getD_some] at hStep
  refine ⟨_, Extends.put hStep, ?_⟩
  rw [node_put]
  unfold checkBarrier
  dsimp only
  rw [if_pos hCount]
  exact ⟨hStage, rfl, rfl⟩

/-
  All machines connect, `j` publishes its state, crashes and
  restarts, and `i` sends it the recovery packet. Then `j`
  finishes with the stray peers.
-/
theorem exists_lost
    {state : Wire.ElevatorState}
    {stray : Finset IPv4Address}
    {pack memory : List UInt8}
    (hStrays : Strays M state stray pack memory)
    (hSize : 58 + 4 * (Fintype.card ι : Int) ≤ intMax)
    (hRange : state.InRange)
    (hId : state.id = M.rank j)
    (hNodes : i ≠ j) :
    ∃ s, (system M).Reachable s ∧
      s.Finished i ∧ (s.node i).peers = M.all ∧
      s.Finished j ∧ (s.node j).peers = stray := by
  rcases exists_met M (by omega) with
    ⟨s₁, ⟨s₀, hInit, hRun⟩, hMet, _⟩
  rcases hMet i with ⟨hStage₁, hPhase₁, hPeers₁, _⟩
  -- `i` learns the state of `j`
  have hUpdate := Extends.put (Step.update (M := M)
    s₁ i state hRange hStage₁)
  generalize hs₂ : s₁.put i { s₁.node i with
    state := (s₁.node i).state.update state } =
      s₂ at hUpdate
  have hNode₂ : s₂.node i = { s₁.node i with
      state := (s₁.node i).state.update state } := by
    rw [← hs₂, node_put]
  -- `j` crashes, restarts and announces itself
  have hCrash := Extends.put (Step.crash (M := M) s₂ j)
  rcases exists_invited (M := M) (s₂.put j .down) j with
    ⟨s₃, hRestart, hStart, hSent₃⟩
  have hNode₃ : s₃.node i = s₂.node i :=
    (hCrash.trans hRestart).others i hNodes
  -- `i` answers with the state
  have hKnown := GlobalState.get_update
    (s₁.node i).state state
  rw [hId] at hKnown
  have hAssist := assist_initial (M := M) (j := j)
    (n := s₃.node i) (e := state)
    (by rw [hNode₃, hNode₂]; exact hPeers₁)
    (by rw [hNode₃, hNode₂]; exact hKnown)
    (Serializer.toPacket_eq_just (by
      rw [Wire.encodedSize_recoveryState,
        Machines.card_all]
      push_cast
      exact hSize))
  rcases exists_answered
    (by rw [hNode₃, hNode₂]; exact hStage₁) hAssist hSent₃
    with ⟨s₄, hAnswer, hSame₄, hSent₄⟩
  -- `j` receives the cut packet
  rcases exists_strayed hStrays hSize hRange
    (by rw [hSame₄, hStart]; rfl)
    (by rw [hSame₄, hStart]; exact Nat.zero_lt_two) hSent₄
    with ⟨s₅, hListen, hStage₅, hPhase₅, hPeers₅⟩
  have hNode₅ : s₅.node i = s₂.node i := by
    rw [hListen.others i hNodes, hSame₄, hNode₃]
  refine ⟨s₅, ⟨s₀, hInit, ?_⟩, ?_, ?_, ?_, hPeers₅⟩
  · exact ((((hRun.trans hUpdate.run).trans
      hCrash.run).trans hRestart.run).tail hAnswer).trans
        hListen.run
  · unfold Finished
    rw [hNode₅, hNode₂]
    dsimp only
    rw [hStage₁, hPhase₁]
    exact ⟨Stage.noConfusion, Nat.le_refl 2⟩
  · rw [hNode₅, hNode₂]
    exact hPeers₁
  · unfold Finished
    rw [hStage₅, hPhase₅]
    exact ⟨Stage.noConfusion, Nat.le_refl 2⟩

end Run

/- The state node 1 has published. -/
def publishedState : Wire.ElevatorState where
  id := manyMachines.rank 1
  timestamp := 0
  lastFloor := 0
  direction := ⟨0⟩
  stopped := false
  doorOpen := false
  insideButtons := .empty
  upButtons := .empty
  downButtons := .empty

theorem inRange_publishedState :
    publishedState.InRange := by
  have hRank := manyMachines.rank_lt 1
  rw [Fintype.card_fin] at hRank
  have hEq : publishedState.id = manyMachines.rank 1 := rfl
  have hId : Fits 4 publishedState.id := by
    unfold Fits
    rw [hEq]
    omega
  exact ⟨hId, by decide, by decide, by decide⟩

theorem strays_publishedState :
    Strays manyMachines publishedState strayPeers
      (recoveryHead publishedState ++
        (Wire.address.serialize strayAddress).take 2)
      ((Wire.address.serialize strayAddress).drop 2) where
  cut := recvPacket_recovery publishedState
  nonempty := by
    intro hNil
    have hHead := length_recoveryHead publishedState
    rw [(List.append_eq_nil_iff.mp hNil).1] at hHead
    cases hHead
  behind := stray_recovery publishedState
  card := by
    rw [Fintype.card_fin]
    exact (sort_addresses (l := 65896)
      (by omega) (by omega)).2

/-
  The run with 361 machines: node 1 finishes with peers that
  are not all machines.
-/
theorem agreement_lost :
    ∃ s, (system manyMachines).Reachable s ∧
      s.Finished 0 ∧ (s.node 0).peers = manyMachines.all ∧
      s.Finished 1 ∧ (s.node 1).peers ≠ manyMachines.all ∧
      ¬ Agreement manyMachines s := by
  rcases exists_lost (i := 0) (j := 1)
    strays_publishedState
    (by rw [Fintype.card_fin]; decide)
    inRange_publishedState rfl (by decide) with
    ⟨s, hReach, hFinished₀, hPeers₀, hFinished₁, hPeers₁⟩
  have hOther : (s.node 1).peers ≠ manyMachines.all := by
    rw [hPeers₁]
    exact strayPeers_ne_all
  exact ⟨s, hReach, hFinished₀, hPeers₀, hFinished₁, hOther,
    fun hAgreement =>
      hOther (hAgreement.peers 1 hFinished₁)⟩

end Session

end ElevatorControl
