import ElevatorControl.Network.Session

/-
  Every session can complete: there is a run in which all
  nodes start, find each other and connect.

  The run is put together from runs of single nodes. Sent
  datagrams stay, so what one node needs from the others is
  not lost while the rest of them run.

  Key definitions include:
    * `Session.Extends`
    * `Session.Invited`
    * `Session.Gathered`
    * `Session.Met`

  Key theorems include:
    * `Session.forall_nodes`
    * `Session.exists_met`
-/

------------------------------------------------------------
-- Runs of Single Nodes
------------------------------------------------------------

namespace ElevatorControl

open LittleEndian SessionNode

namespace Session

variable
  {ι : Type}
  [DecidableEq ι]

theorem node_put
    (s : Session ι)
    (i : ι)
    (n : SessionNode) :
    (s.put i n).node i = n := by
  unfold put
  exact Function.update_self i n s.node

variable
  [Fintype ι]
  {M : Machines ι}

/- A run from `s` to `s'` in which no other node than `i`
moves. -/
structure Extends
    (M : Machines ι)
    (i : ι)
    (s s' : Session ι) : Prop where
  run : Relation.ReflTransGen (Step M) s s'
  sent : s.sent ⊆ s'.sent
  others : ∀ j, j ≠ i → s'.node j = s.node j

namespace Extends

variable {i : ι}
variable {s s' s'' : Session ι}

theorem refl :
    Extends M i s s :=
  ⟨.refl, List.Subset.refl _, fun _ _ => rfl⟩

theorem trans
    (h : Extends M i s s')
    (h' : Extends M i s' s'') :
    Extends M i s s'' where
  run := h.run.trans h'.run
  sent := List.Subset.trans h.sent h'.sent
  others _ hj := (h'.others _ hj).trans (h.others _ hj)

/- A step that replaces the node. -/
theorem put
    {n : SessionNode}
    (hStep : Step M s (s.put i n)) :
    Extends M i s (s.put i n) where
  run := .single hStep
  sent := List.Subset.refl _
  others _ hj := Function.update_of_ne hj _ _

end Extends

/-
  If every node can be brought from `P` to `Q` on its own,
  all of them can, one after another. Both may depend on
  what has been sent.
-/
theorem forall_nodes
    {P Q : ι → SessionNode → List Envelope → Prop}
    (hP : ∀ i n es es', es ⊆ es' → P i n es → P i n es')
    (hQ : ∀ i n es es', es ⊆ es' → Q i n es → Q i n es')
    (hNode : ∀ s i, P i (s.node i) s.sent →
      ∃ s', Extends M i s s' ∧ Q i (s'.node i) s'.sent)
    {s : Session ι}
    (hAll : ∀ i, P i (s.node i) s.sent) :
    ∃ s', Relation.ReflTransGen (Step M) s s' ∧
      s.sent ⊆ s'.sent ∧
      ∀ i, Q i (s'.node i) s'.sent := by
  have hSet : ∀ done : Finset ι,
      ∃ s', Relation.ReflTransGen (Step M) s s' ∧
        s.sent ⊆ s'.sent ∧
        (∀ i ∈ done, Q i (s'.node i) s'.sent) ∧
        ∀ i, i ∉ done → P i (s'.node i) s'.sent := by
    intro done
    induction done using Finset.induction_on with
    | empty =>
        exact ⟨s, .refl, List.Subset.refl _,
          fun i hi => absurd hi (Finset.notMem_empty i),
          fun i _ => hAll i⟩
    | insert i done hNew ih =>
        rcases ih with ⟨s₁, hRun, hSent, hDone, hRest⟩
        rcases hNode s₁ i (hRest i hNew) with
          ⟨s₂, hExtends, hNow⟩
        refine ⟨s₂, hRun.trans hExtends.run,
          List.Subset.trans hSent hExtends.sent, ?_, ?_⟩
        · intro j hj
          by_cases hSame : j = i
          · rw [hSame]
            exact hNow
          · rw [hExtends.others j hSame]
            exact hQ j _ _ _ hExtends.sent (hDone j
              (Finset.mem_of_mem_insert_of_ne hj hSame))
        · intro j hj
          have hSame : j ≠ i := by
            intro hEq
            rw [hEq] at hj
            exact hj (Finset.mem_insert_self i done)
          rw [hExtends.others j hSame]
          exact hP j _ _ _ hExtends.sent (hRest j
            fun h => hj (Finset.mem_insert_of_mem h))
  rcases hSet Finset.univ with ⟨s', hRun, hSent, hDone, _⟩
  exact ⟨s', hRun, hSent, fun i => hDone i (Finset.mem_univ i)⟩

------------------------------------------------------------
-- Sending
------------------------------------------------------------

/- The datagram of the sender of `i`. -/
def announcement
    (M : Machines ι)
    (i : ι)
    (bytes : List UInt8) : Envelope :=
  ⟨M.address i, none, bytes⟩

/- A node that runs the listener sends the packet of its
phase. -/
theorem exists_transmit
    {s : Session ι}
    {i : ι}
    (hStage : (s.node i).stage = .connecting)
    (hSender : (s.node i).sender = .idle)
    (hPhase : (s.node i).initPhase < 2) :
    ∃ s', Extends M i s s' ∧
      s'.node i = s.node i ∧
      announcement M i (s.node i).pack ∈ s'.sent := by
  have hCheck := Extends.put
    (Step.check (M := M) s i hStage hSender hPhase)
  generalize hs₁ : s.put i
    { s.node i with sender := .checked } = s₁ at hCheck
  have hNode₁ : s₁.node i =
      { s.node i with sender := .checked } := by
    rw [← hs₁, node_put]
  have hPack := Extends.put
    (Step.pack (M := M) s₁ i (by rw [hNode₁]; exact hStage)
      (by rw [hNode₁]))
  generalize hs₂ : s₁.put i
    { s₁.node i with
      sender := .packed (s₁.node i).pack } = s₂ at hPack
  have hNode₂ : s₂.node i =
      { s.node i with
        sender := .packed (s.node i).pack } := by
    rw [← hs₂, node_put, hNode₁]
    rfl
  have hTransmit := Step.transmit (M := M) s₂ i
    (s.node i).pack (by rw [hNode₂]; exact hStage)
    (by rw [hNode₂])
  refine ⟨_, (hCheck.trans hPack).trans
    ⟨.single hTransmit, List.subset_append_left _ _,
      fun j hj => Function.update_of_ne hj _ _⟩, ?_, ?_⟩
  · change (s₂.put i { s₂.node i with
      sender := .idle }).node i = s.node i
    rw [node_put, hNode₂]
    dsimp only
    rw [← hSender]
  · exact List.mem_append_right _ (List.mem_singleton_self _)

------------------------------------------------------------
-- Meeting
------------------------------------------------------------

/- A process that has started and announced itself. -/
def Invited
    (M : Machines ι)
    (i : ι)
    (n : SessionNode)
    (es : List Envelope) : Prop :=
  n = .start 0 ∧
    announcement M i
      (message Wire.Initial.messageType {}) ∈ es

/- A node that listens, knows the machines of `l`, and has
received no `Ready` yet. -/
structure Listening
    (M : Machines ι)
    (l : List ι)
    (n : SessionNode) : Prop where
  stage : n.stage = .connecting
  sender : n.sender = .idle
  phase : n.initPhase < 2
  barrier : n.barrier = ∅
  peers : n.peers ⊆ M.all
  known : ∀ j ∈ l, M.address j ∈ n.peers

/- A node that knows all machines and says so. -/
def Gathered
    (M : Machines ι)
    (i : ι)
    (n : SessionNode)
    (es : List Envelope) : Prop :=
  n.stage = .connecting ∧
    n.sender = .idle ∧
    n.initPhase < 2 ∧
    n.peers = M.all ∧
    n.barrier = ∅ ∧
    announcement M i
      (message Wire.Ready.messageType {}) ∈ es

/- A node in the second phase that knows all machines and
has either finished or received `Ready` from those of
`l`. -/
structure Waiting
    (M : Machines ι)
    (l : List ι)
    (n : SessionNode) : Prop where
  stage : n.stage = .connecting
  sender : n.sender = .idle
  peers : n.peers = M.all
  barrier : n.barrier ⊆ M.all
  phase : n.initPhase = 2 ∨
    (n.initPhase < 2 ∧ ∀ j ∈ l, M.address j ∈ n.barrier)

/- A node that has connected. -/
def Met
    (M : Machines ι)
    (i : ι)
    (n : SessionNode) : Prop :=
  n.stage = .connected ∧
    n.initPhase = 2 ∧
    n.peers = M.all ∧
    n.id = M.rank i

section Meeting

variable {s : Session ι}
variable {i : ι}

/- The number of machines is an `int`. -/
omit [DecidableEq ι] in
theorem narrow_subset
    (hCount : (Fintype.card ι : Int) ≤ intMax)
    {peers : Finset IPv4Address}
    (hSub : peers ⊆ M.all) :
    narrow 4 peers.card = peers.card := by
  have hCard := Finset.card_le_card hSub
  rw [Machines.card_all] at hCard
  apply narrow_eq
  exact Serializer.fits_size.mpr (by omega)

/- A process starts and announces itself. -/
theorem exists_invited
    (s : Session ι)
    (i : ι) :
    ∃ s', Extends M i s s' ∧
      Invited M i (s'.node i) s'.sent := by
  have hStart := Extends.put (Step.start (M := M) s i 0)
  generalize hs₁ : s.put i (.start 0) = s₁ at hStart
  have hNode₁ : s₁.node i = .start 0 := by
    rw [← hs₁, node_put]
  rcases exists_transmit (M := M) (s := s₁) (i := i)
    (by rw [hNode₁]; rfl) (by rw [hNode₁]; rfl)
    (by rw [hNode₁]; decide) with
    ⟨s₂, hExtends, hNode₂, hSent⟩
  rw [hNode₁] at hNode₂ hSent
  exact ⟨s₂, hStart.trans hExtends, hNode₂, hSent⟩

/- A pass of the listener on the datagram of a sender. -/
theorem exists_listen
    {j : ι}
    {bytes : List UInt8}
    {n : SessionNode}
    (hSent : announcement M j bytes ∈ s.sent)
    (hStage : (s.node i).stage = .connecting)
    (hPhase : (s.node i).initPhase < 2)
    (hRecv : Serializer.recvPacket bytes = bytes)
    (hListen : (s.node i).listen (Fintype.card ι)
      (M.address j) bytes [] = some n) :
    ∃ s', Extends M i s s' ∧ s'.node i = n ∧
      s'.sent = s.sent := by
  have hStep := Step.listen (M := M) s i
    (announcement M j bytes) [] hSent (Or.inl rfl)
    hStage hPhase
  change Step M s (s.put i (((s.node i).listen _
    (M.address j) (Serializer.recvPacket bytes) []).getD _))
    at hStep
  rw [hRecv, hListen] at hStep
  exact ⟨_, Extends.put hStep, node_put s i n, rfl⟩

omit [DecidableEq ι] in
theorem narrow_all
    (hCount : (Fintype.card ι : Int) ≤ intMax) :
    narrow 4 M.all.card = Fintype.card ι := by
  rw [narrow_subset hCount (Finset.Subset.refl _),
    Machines.card_all]

theorem recvPacket_initial :
    Serializer.recvPacket
        (message Wire.Initial.messageType {}) =
      message Wire.Initial.messageType {} :=
  recvPacket_message (by decide)

theorem recvPacket_ready :
    Serializer.recvPacket
        (message Wire.Ready.messageType {}) =
      message Wire.Ready.messageType {} :=
  recvPacket_message (by decide)

/- An empty barrier is not full. -/
omit [DecidableEq ι] in
theorem barrier_not_full
    (i : ι)
    {n : SessionNode}
    (hBarrier : n.barrier = ∅) :
    ¬ narrow 4 n.barrier.card = Fintype.card ι := by
  have hPos := Fintype.card_pos_iff.mpr ⟨i⟩
  have hEmpty : narrow 4 (∅ : Finset IPv4Address).card =
      0 := by
    decide
  rw [hBarrier, hEmpty]
  omega

/- Without a barrier the checks set the phase to 1 or leave
it. -/
omit [DecidableEq ι] in
theorem listening_checkBarrier
    (i : ι)
    {l : List ι}
    {n : SessionNode}
    (hListening : Listening M l n) :
    Listening M l (n.checkBarrier (Fintype.card ι)) := by
  unfold checkBarrier
  rw [if_neg (barrier_not_full i hListening.barrier)]
  split
  · exact {
      stage := hListening.stage
      sender := hListening.sender
      phase := Nat.one_lt_two
      barrier := hListening.barrier
      peers := hListening.peers
      known := hListening.known }
  · exact hListening

/- A listening node hears `Initial` from another machine. -/
theorem exists_heard
    {l : List ι}
    {j : ι}
    (hListening : Listening M l (s.node i))
    (hSent : announcement M j
      (message Wire.Initial.messageType {}) ∈ s.sent) :
    ∃ s', Extends M i s s' ∧ s'.sent = s.sent ∧
      s'.node i = checkBarrier (Fintype.card ι)
        { s.node i with
          peers := insert (M.address j) (s.node i).peers } ∧
      Listening M (j :: l) (s'.node i) := by
  rcases exists_listen hSent hListening.stage
    hListening.phase recvPacket_initial
    (listen_initial _ _ _) with
    ⟨s', hExtends, hNode, hSame⟩
  refine ⟨s', hExtends, hSame, hNode, ?_⟩
  rw [hNode]
  apply listening_checkBarrier i
  exact {
    stage := hListening.stage
    sender := hListening.sender
    phase := hListening.phase
    barrier := hListening.barrier
    peers := Finset.insert_subset
      (Machines.address_mem_all j) hListening.peers
    known := by
      intro k hk
      rcases List.mem_cons.mp hk with hNew | hOld
      · rw [hNew]
        exact Finset.mem_insert_self _ _
      · exact Finset.mem_insert_of_mem
          (hListening.known k hOld) }

theorem exists_listening
    (hStart : Listening M [] (s.node i))
    (l : List ι)
    (hSent : ∀ j, announcement M j
      (message Wire.Initial.messageType {}) ∈ s.sent) :
    ∃ s', Extends M i s s' ∧ s'.sent = s.sent ∧
      Listening M l (s'.node i) := by
  induction l with
  | nil => exact ⟨s, Extends.refl, rfl, hStart⟩
  | cons j l ih =>
      rcases ih with ⟨s₁, hExtends, hSame, hListening⟩
      rcases exists_heard (j := j) hListening
        (by rw [hSame]; exact hSent j) with
        ⟨s₂, hNext, hSame', _, hListening'⟩
      exact ⟨s₂, hExtends.trans hNext,
        hSame'.trans hSame, hListening'⟩

/-
  A node hears every machine. The last `Initial` comes
  twice, so that the checks see the full set of peers.
-/
theorem exists_gathered
    (hCount : (Fintype.card ι : Int) ≤ intMax)
    (hInvited : s.node i = .start 0)
    (hSent : ∀ j, announcement M j
      (message Wire.Initial.messageType {}) ∈ s.sent) :
    ∃ s', Extends M i s s' ∧
      Gathered M i (s'.node i) s'.sent ∧
      (s'.node i).initPhase = 1 := by
  have hStart : Listening M [] (s.node i) := by
    rw [hInvited]
    exact {
      stage := rfl
      sender := rfl
      phase := by decide
      barrier := rfl
      peers := Finset.empty_subset _
      known := fun j hj => absurd hj List.not_mem_nil }
  rcases exists_listening hStart Finset.univ.toList hSent with
    ⟨s₁, hExtends₁, hSame₁, hListening₁⟩
  have hPeers₁ : (s₁.node i).peers = M.all := by
    apply Finset.Subset.antisymm hListening₁.peers
    intro a ha
    rcases Machines.mem_all.mp ha with ⟨j, rfl⟩
    exact hListening₁.known j (by simp)
  rcases exists_heard (j := i) hListening₁
    (by rw [hSame₁]; exact hSent i) with
    ⟨s₂, hExtends₂, hSame₂, hNode₂, hListening₂⟩
  have hInsert : insert (M.address i) M.all = M.all :=
    Finset.insert_eq_self.mpr (Machines.address_mem_all i)
  rw [hPeers₁, hInsert] at hNode₂
  unfold checkBarrier at hNode₂
  dsimp only at hNode₂
  rw [if_neg (barrier_not_full i hListening₁.barrier),
    if_pos (narrow_all hCount)] at hNode₂
  rcases exists_transmit (M := M) hListening₂.stage
    hListening₂.sender hListening₂.phase with
    ⟨s₃, hExtends₃, hNode₃, hReady⟩
  have hPack : (s₂.node i).pack =
      message Wire.Ready.messageType {} := by
    rw [hNode₂]
    rfl
  rw [hPack] at hReady
  refine ⟨s₃, (hExtends₁.trans hExtends₂).trans hExtends₃,
    ?_⟩
  unfold Gathered
  rw [hNode₃]
  refine ⟨⟨hListening₂.stage, hListening₂.sender,
    hListening₂.phase, ?_, hListening₂.barrier, hReady⟩, ?_⟩
  · rw [hNode₂]
  · rw [hNode₂]

/- A pass on `Ready` of a node that knows all machines. -/
theorem exists_counted
    {l : List ι}
    {j : ι}
    (hWaiting : Waiting M l (s.node i))
    (hSent : announcement M j
      (message Wire.Ready.messageType {}) ∈ s.sent) :
    ∃ s', Extends M i s s' ∧ s'.sent = s.sent ∧
      Waiting M (j :: l) (s'.node i) := by
  rcases hWaiting.phase with hDone | ⟨hPhase, hKnown⟩
  · refine ⟨s, Extends.refl, rfl, ?_⟩
    exact {
      stage := hWaiting.stage
      sender := hWaiting.sender
      peers := hWaiting.peers
      barrier := hWaiting.barrier
      phase := Or.inl hDone }
  rcases exists_listen hSent hWaiting.stage hPhase
    recvPacket_ready (listen_ready _ _ _) with
    ⟨s', hExtends, hNode, hSame⟩
  have hInsert : insert (M.address j) M.all = M.all :=
    Finset.insert_eq_self.mpr (Machines.address_mem_all j)
  have hBarrier : insert (M.address j) (s.node i).barrier ⊆
      M.all :=
    Finset.insert_subset (Machines.address_mem_all j)
      hWaiting.barrier
  have hKnown' : ∀ k ∈ j :: l, M.address k ∈
      insert (M.address j) (s.node i).barrier := by
    intro k hk
    rcases List.mem_cons.mp hk with hNew | hOld
    · rw [hNew]
      exact Finset.mem_insert_self _ _
    · exact Finset.mem_insert_of_mem (hKnown k hOld)
  refine ⟨s', hExtends, hSame, ?_⟩
  rw [hNode, hWaiting.peers, hInsert]
  unfold checkBarrier
  split
  · exact {
      stage := hWaiting.stage
      sender := hWaiting.sender
      peers := rfl
      barrier := hBarrier
      phase := Or.inl rfl }
  · split
    · exact {
        stage := hWaiting.stage
        sender := hWaiting.sender
        peers := rfl
        barrier := hBarrier
        phase := Or.inr ⟨Nat.one_lt_two, hKnown'⟩ }
    · exact {
        stage := hWaiting.stage
        sender := hWaiting.sender
        peers := rfl
        barrier := hBarrier
        phase := Or.inr ⟨hPhase, hKnown'⟩ }

theorem exists_waiting
    (hStart : Waiting M [] (s.node i))
    (l : List ι)
    (hSent : ∀ j, announcement M j
      (message Wire.Ready.messageType {}) ∈ s.sent) :
    ∃ s', Extends M i s s' ∧ s'.sent = s.sent ∧
      Waiting M l (s'.node i) := by
  induction l with
  | nil => exact ⟨s, Extends.refl, rfl, hStart⟩
  | cons j l ih =>
      rcases ih with ⟨s₁, hExtends, hSame, hWaiting⟩
      rcases exists_counted (j := j) hWaiting
        (by rw [hSame]; exact hSent j) with
        ⟨s₂, hNext, hSame', hWaiting'⟩
      exact ⟨s₂, hExtends.trans hNext,
        hSame'.trans hSame, hWaiting'⟩

/- With a full barrier, one more `Ready` ends the phase. -/
theorem exists_finished
    (hCount : (Fintype.card ι : Int) ≤ intMax)
    (hWaiting : Waiting M Finset.univ.toList (s.node i))
    (hSent : ∀ j, announcement M j
      (message Wire.Ready.messageType {}) ∈ s.sent) :
    ∃ s', Extends M i s s' ∧
      (s'.node i).stage = .connecting ∧
      (s'.node i).sender = .idle ∧
      (s'.node i).peers = M.all ∧
      (s'.node i).initPhase = 2 := by
  rcases hWaiting.phase with hDone | ⟨hPhase, hKnown⟩
  · exact ⟨s, Extends.refl, hWaiting.stage,
      hWaiting.sender, hWaiting.peers, hDone⟩
  have hBarrier : (s.node i).barrier = M.all := by
    apply Finset.Subset.antisymm hWaiting.barrier
    intro a ha
    rcases Machines.mem_all.mp ha with ⟨j, rfl⟩
    exact hKnown j (by simp)
  have hInsert : insert (M.address i) M.all = M.all :=
    Finset.insert_eq_self.mpr (Machines.address_mem_all i)
  rcases exists_listen (hSent i) hWaiting.stage hPhase
    recvPacket_ready (listen_ready _ _ _) with
    ⟨s', hExtends, hNode, _⟩
  rw [hWaiting.peers, hBarrier, hInsert] at hNode
  unfold checkBarrier at hNode
  dsimp only at hNode
  rw [if_pos (narrow_all hCount)] at hNode
  refine ⟨s', hExtends, ?_⟩
  rw [hNode]
  exact ⟨hWaiting.stage, hWaiting.sender, rfl, rfl⟩

/- A node that has gathered connects. -/
theorem exists_connected
    (hCount : (Fintype.card ι : Int) ≤ intMax)
    (hGathered : Gathered M i (s.node i) s.sent)
    (hSent : ∀ j, announcement M j
      (message Wire.Ready.messageType {}) ∈ s.sent) :
    ∃ s', Extends M i s s' ∧ Met M i (s'.node i) := by
  rcases hGathered with
    ⟨hStage, hSender, hPhase, hPeers, hBarrier, _⟩
  have hStart : Waiting M [] (s.node i) := {
    stage := hStage
    sender := hSender
    peers := hPeers
    barrier := by
      rw [hBarrier]
      exact Finset.empty_subset _
    phase := Or.inr ⟨hPhase,
      fun j hj => absurd hj List.not_mem_nil⟩ }
  rcases exists_waiting hStart Finset.univ.toList hSent with
    ⟨s₁, hExtends₁, hSame₁, hWaiting₁⟩
  rcases exists_finished hCount hWaiting₁
    (by rw [hSame₁]; exact hSent) with
    ⟨s₂, hExtends₂, hStage₂, hSender₂, hPeers₂, hPhase₂⟩
  have hStep := Step.connect (M := M) s₂ i hStage₂
    (by rw [hPhase₂]) hSender₂
  rw [connect_eq hPeers₂] at hStep
  refine ⟨_, (hExtends₁.trans hExtends₂).trans
    (Extends.put hStep), ?_⟩
  rw [node_put]
  exact ⟨rfl, hPhase₂, hPeers₂, rfl⟩

end Meeting

/- There is a run after which all nodes have gathered. -/
theorem exists_allGathered
    (M : Machines ι)
    (hCount : (Fintype.card ι : Int) ≤ intMax) :
    ∃ s, (system M).Reachable s ∧
      (∀ i, Gathered M i (s.node i) s.sent) ∧
      (∀ i, (s.node i).initPhase = 1) ∧
      ∀ i, announcement M i
        (message Wire.Initial.messageType {}) ∈ s.sent := by
  rcases forall_nodes (M := M)
    (P := fun _ _ _ => True) (Q := Invited M)
    (s := initial)
    (fun _ _ _ _ _ h => h)
    (fun _ _ _ _ hSub h => ⟨h.1, hSub h.2⟩)
    (fun s i _ => exists_invited s i)
    (fun _ => trivial) with ⟨s₁, hRun₁, _, hInvited⟩
  rcases forall_nodes (M := M)
    (P := fun i n es => n = .start 0 ∧
      ∀ j, announcement M j
        (message Wire.Initial.messageType {}) ∈ es)
    (Q := fun i n es => Gathered M i n es ∧
      n.initPhase = 1)
    (fun _ _ _ _ hSub h => ⟨h.1, fun j => hSub (h.2 j)⟩)
    (fun _ _ _ _ hSub h =>
      ⟨⟨h.1.1, h.1.2.1, h.1.2.2.1, h.1.2.2.2.1,
        h.1.2.2.2.2.1, hSub h.1.2.2.2.2.2⟩, h.2⟩)
    (fun s i h => exists_gathered hCount h.1 h.2)
    (fun i => ⟨(hInvited i).1, fun j => (hInvited j).2⟩)
    with ⟨s₂, hRun₂, hSent₂, hGathered⟩
  exact ⟨s₂, ⟨initial, rfl, hRun₁.trans hRun₂⟩,
    fun i => (hGathered i).1, fun i => (hGathered i).2,
    fun i => hSent₂ (hInvited i).2⟩

/- There is a run in which all nodes connect. -/
theorem exists_met
    (M : Machines ι)
    (hCount : (Fintype.card ι : Int) ≤ intMax) :
    ∃ s, (system M).Reachable s ∧
      (∀ i, Met M i (s.node i)) ∧
      ∀ i, announcement M i
        (message Wire.Initial.messageType {}) ∈ s.sent := by
  rcases exists_allGathered M hCount with
    ⟨s₂, ⟨s₀, hInit, hRun₂⟩, hGathered, _, hInvited⟩
  rcases forall_nodes (M := M)
    (P := fun i n es => Gathered M i n es ∧
      ∀ j, announcement M j
        (message Wire.Ready.messageType {}) ∈ es)
    (Q := fun i n _ => Met M i n)
    (fun _ _ _ _ hSub h =>
      ⟨⟨h.1.1, h.1.2.1, h.1.2.2.1, h.1.2.2.2.1,
        h.1.2.2.2.2.1, hSub h.1.2.2.2.2.2⟩,
        fun j => hSub (h.2 j)⟩)
    (fun _ _ _ _ _ h => h)
    (fun s i h => exists_connected hCount h.1 h.2)
    (fun i => ⟨hGathered i,
      fun j => (hGathered j).2.2.2.2.2⟩)
    with ⟨s₃, hRun₃, hSent₃, hMet⟩
  exact ⟨s₃, ⟨s₀, hInit, hRun₂.trans hRun₃⟩, hMet,
    fun i => hSent₃ (hInvited i)⟩

end Session

end ElevatorControl
