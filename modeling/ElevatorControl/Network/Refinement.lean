import ElevatorControl.Network.Program

/-
  The complete program is a building.

  The building that shows a program has the same history and
  the same datagrams. A process that does not run has a node
  in the building as well, which nobody moves until the
  process starts its threads.

  A step of the session is no step of the building, unless a
  process answers with a state. Then the building has sent
  the state, too.

  Key definitions include:
    * `Program.Shows`

  Key theorems include:
    * `Program.shows_session`
    * `Program.shows_of_step`
    * `Program.refines_building`
    * `Program.recovered_reported`
-/

------------------------------------------------------------
-- Simulation
------------------------------------------------------------

namespace ElevatorControl

open LittleEndian Session SessionNode

namespace Program

variable {ι : Type}
variable [DecidableEq ι]

/-
  What the session node `m` of a process, the node `k` behind
  it and the node `n` of a building have in common. Before
  the process runs, it knows nothing but what it recovers.
-/
structure ShowsNode
    (i : ι)
    (l : List (ι × Wire.ElevatorState))
    (running : Bool)
    (m : SessionNode)
    (k n : Node) : Prop where
  connected : running = true → m.stage = .connected
  same : running = true → n = k
  known : running = true →
    m.state = Wire.ofGlobalState n.globalState
  fresh : running = false → Session.Fresh m
  recovered : ∀ w, m.recoveryState = some w → (i, w) ∈ l

/-
  The building `b` does what the program does. It has the
  nodes of the processes that run, and the states that have
  been sent to machines.
-/
structure Shows
    [Fintype ι]
    (P : Premises ι)
    (p : Program ι)
    (b : Building ι) : Prop where
  same : b = p.building.withNodes b.node b.recoveries
  node : ∀ i, ShowsNode i b.recoveries (p.running i)
    (p.session.node i) (p.building.node i) (b.node i)
  sent : ∀ e ∈ p.session.sent,
    Session.Backed P.toMachines b.recoveries e

section Simulation

variable [Fintype ι]
variable {P : Premises ι}
variable {p q : Program ι}
variable {b : Building ι}
variable {i : ι}
variable {n : SessionNode}
variable {s : Session ι}

omit [DecidableEq ι] in
theorem Shows.waits
    (hShows : Shows P p b)
    (hStage : ¬ p.session.Connected i) :
    p.running i = false := by
  cases hRunning : p.running i with
  | false => rfl
  | true =>
      exact absurd ((hShows.node i).connected hRunning) hStage

/- A process that does not run has no node to show. -/
omit [DecidableEq ι] [Fintype ι] in
theorem showsNode_of_fresh
    {l : List (ι × Wire.ElevatorState)}
    {m : SessionNode}
    {k k' : Node}
    (hFresh : Session.Fresh m)
    (hRecovered : ∀ w, m.recoveryState = some w →
      (i, w) ∈ l) :
    ShowsNode i l false m k k' where
  connected h := nomatch h
  same h := nomatch h
  known h := nomatch h
  fresh _ := hFresh
  recovered := hRecovered

/- Nothing has happened to the others. -/
omit [DecidableEq ι] in
theorem Shows.change
    {b' : Building ι}
    (hShows : Shows P p b)
    (hSame : b' = q.building.withNodes b'.node b'.recoveries)
    (hRecoveries : b'.recoveries = b.recoveries)
    (hSent : q.session.sent = p.session.sent)
    (hOthers : ∀ j, j ≠ i →
      q.running j = p.running j ∧
      q.session.node j = p.session.node j ∧
      q.building.node j = p.building.node j ∧
      b'.node j = b.node j)
    (hNode : ShowsNode i b.recoveries (q.running i)
      (q.session.node i) (q.building.node i) (b'.node i)) :
    Shows P q b' where
  same := hSame
  node j := by
    rw [hRecoveries]
    by_cases hOwn : j = i
    · rw [hOwn]
      exact hNode
    · rcases hOthers j hOwn with
        ⟨hRunning, hSession, hBuilding, hBehind⟩
      rw [hRunning, hSession, hBuilding, hBehind]
      exact hShows.node j
  sent := by
    rw [hSent, hRecoveries]
    exact hShows.sent

/- A process that does not run yet goes on with its
session. -/
theorem Shows.put
    (hShows : Shows P p b)
    (hNew : p.running i = false)
    (hFresh : Session.Fresh n)
    (hRecovered : ∀ w, n.recoveryState = some w →
      (i, w) ∈ b.recoveries) :
    Shows P { p with session := p.session.put i n } b := by
  refine hShows.change (i := i) hShows.same rfl rfl ?_ ?_
  · exact fun j hOther =>
      ⟨rfl, Session.node_put_of_ne hOther, rfl, rfl⟩
  · change ShowsNode i _ (p.running i)
      ((p.session.put i n).node i) _ _
    rw [Session.node_put, hNew]
    exact showsNode_of_fresh hFresh hRecovered

theorem fresh_start
    (id : Int) :
    Session.Fresh (.start id) :=
  rfl

theorem fresh_down :
    Session.Fresh .down :=
  rfl

/- A state that is sent to the machine of its id replaces the
one that has been sent before. -/
theorem fresh_update
    {w : Wire.ElevatorState}
    {n' : SessionNode}
    (hFresh : Session.Fresh n)
    (hId : ∀ w', n.recoveryState = some w' → w'.id = w.id)
    (hState : n'.state = n.state.update w)
    (hRecovered : n'.recoveryState = some w) :
    Session.Fresh n' := by
  unfold Session.Fresh
  rw [hState, hRecovered, GlobalState.elevators_update,
    hFresh]
  cases hSent : n.recoveryState with
  | none =>
      split
      · next hHas =>
          have hMem := GlobalState.has_iff.mp hHas
          rw [hFresh, hSent] at hMem
          cases hMem
      · rfl
  | some w' =>
      have hSame := hId w' hSent
      have hHas : n.state.has w.id = true := by
        rw [GlobalState.has_iff, hFresh, hSent]
        exact List.mem_singleton.mpr hSame.symm
      rw [if_pos hHas]
      change [GlobalState.assign _ w w'] = [w]
      unfold GlobalState.assign
      rw [if_pos hSame]

/- A state that has been sent comes from an object whose
timestamp has been narrowed. -/
theorem received_of_recovery
    (hReach : (Building.system P.site).Reachable b)
    {w : Wire.ElevatorState}
    (hMem : (i, w) ∈ b.recoveries) :
    w.received = w := by
  have hInv := Building.inv_of_reachable hReach
  rcases hInv.recoveries (i, w) hMem with ⟨e, _, _, hState⟩
  change w = _ at hState
  rw [hState, Wire.received_received]

/- Datagrams of the protocol are sent. -/
omit [DecidableEq ι] in
theorem Shows.send
    (hShows : Shows P p b)
    {es : List Envelope}
    (hNew : ∀ e ∈ es,
      Session.Backed P.toMachines b.recoveries e) :
    Shows P
      { p with session :=
        { p.session with sent := p.session.sent ++ es } }
      b :=
  { hShows with
    sent := by
      intro e he
      rcases List.mem_append.mp he with hOld | hMem
      · exact hShows.sent e hOld
      · exact hNew e hMem }

/- A connected process answers. What it sends of a state that
its scheduler knows is an answer in the building. -/
theorem shows_assist
    (hShows : Shows P p b)
    (hReach : (Building.system P.site).Reachable b)
    (hSession : (Session.system P.toMachines).Reachable
      p.session)
    {e : Envelope}
    {pack memory bytes : List UInt8}
    (hSent : e ∈ p.session.sent)
    (hStage : p.session.Connected i)
    (hAssist : (p.session.node i).assist e.source pack
      memory = some bytes) :
    ∃ b', Relation.ReflTransGen (Building.system P.site).Step
        b b' ∧
      Shows P p b' ∧
      Session.Backed P.toMachines b'.recoveries
        ⟨P.address i, some e.source, bytes⟩ := by
  have hInv := Session.inv_of_reachable P.fits hSession
  rcases Session.assist_cases P.fits hStage (hInv.node i)
    (hInv.sent e hSent) hAssist with
    hBytes | ⟨j, state, hMem, hSource, hId, hBytes⟩
  · exact ⟨b, .refl, hShows, Or.inr (Or.inl hBytes)⟩
  have hRange := (hInv.node i).states state hMem
  have hTarget : some e.source = some (P.address j) :=
    congrArg some hSource
  cases hRunning : p.running i with
  | true =>
      rw [(hShows.node i).known hRunning] at hMem
      rcases List.mem_map.mp hMem with ⟨e', he', hOf⟩
      subst hOf
      have hGet :
          (b.node i).globalState.get (P.site.id j) =
            .ok e' := by
        have hFound := GlobalState.get_of_mem he'
        change e'.id = P.rank j at hId
        rw [hId] at hFound
        exact hFound
      have hActs := Building.Acts.assist b i j e' P.several
        hGet
      refine ⟨_, .single ⟨_, hActs⟩,
        { same := ?_, node := ?_, sent := ?_ }, ?_⟩
      · rw [hShows.same]
        rfl
      · exact fun k => { hShows.node k with
          recovered := fun w hState =>
            List.mem_append_left _
              ((hShows.node k).recovered w hState) }
      · exact fun e'' he'' => (hShows.sent e'' he'').mono
          (List.subset_append_left _ _)
      · exact Or.inr (Or.inr ⟨j, _, hTarget, hRange, hId,
          hBytes, List.mem_append_right _
            (List.mem_singleton_self _)⟩)
  | false =>
      -- Before it runs, it knows its own state at most.
      have hFresh := (hShows.node i).fresh hRunning
      unfold Session.Fresh at hFresh
      rw [hFresh] at hMem
      have hState := Option.mem_toList.mp hMem
      have hOwn := (hInv.node i).recovered state hState
      have hNode : j = i := by
        rw [hId] at hOwn
        exact P.rank_injective (Int.ofNat.inj hOwn)
      have hRecovered := (hShows.node i).recovered state hState
      have hReceived := received_of_recovery hReach hRecovered
      subst hNode
      refine ⟨b, .refl, hShows, Or.inr (Or.inr ⟨j, state,
        hTarget, hRange, hId, hBytes, ?_⟩)⟩
      rw [hReceived]
      exact hRecovered

/- The session goes on. -/
theorem shows_session
    (hShows : Shows P p b)
    (hReach : (Building.system P.site).Reachable b)
    (hSession : (Session.system P.toMachines).Reachable
      p.session)
    (hStep : Session.Step P.toMachines p.session s)
    (hConnected : ∀ i, p.session.Connected i →
      s.node i = p.session.node i) :
    ∃ b', Relation.ReflTransGen (Building.system P.site).Step
        b b' ∧
      Shows P { p with session := s } b' := by
  have hInv := Session.inv_of_reachable P.fits hSession
  -- The process of a node that changes is not connected.
  have hWaits : ∀ i n, s = p.session.put i n →
      n.stage ≠ .connected → p.running i = false := by
    intro i n hPut hStage
    apply hShows.waits
    intro hOld
    have hSame := hConnected i hOld
    rw [hPut, Session.node_put] at hSame
    rw [hSame] at hStage
    exact hStage hOld
  have hConnecting : ∀ i,
      (p.session.node i).stage = .connecting →
        p.running i = false := by
    intro i hStage
    apply hShows.waits
    intro hOld
    have hSame := hStage.symm.trans hOld
    cases hSame
  cases hStep with
  | start i id =>
      have hNew := hWaits i _ rfl Stage.noConfusion
      exact ⟨b, .refl, hShows.put hNew (fresh_start id)
        fun w hState => nomatch hState⟩
  | crash i =>
      have hNew := hWaits i _ rfl Stage.noConfusion
      exact ⟨b, .refl, hShows.put hNew fresh_down
        fun w hState => nomatch hState⟩
  | check i hStage hSender hPhase =>
      have hNew := hConnecting i hStage
      have hNode := hShows.node i
      exact ⟨b, .refl, hShows.put hNew (hNode.fresh hNew)
        hNode.recovered⟩
  | pack i hStage hSender =>
      have hNew := hConnecting i hStage
      have hNode := hShows.node i
      exact ⟨b, .refl, hShows.put hNew (hNode.fresh hNew)
        hNode.recovered⟩
  | transmit i bytes hStage hSender =>
      have hNew := hConnecting i hStage
      have hNode := hShows.node i
      have hPut := hShows.put (i := i)
        (n := { p.session.node i with sender := .idle })
        hNew (hNode.fresh hNew) hNode.recovered
      refine ⟨b, .refl, hPut.send ?_⟩
      intro e he
      rw [List.mem_singleton.mp he]
      exact Or.inl ((hInv.node i).packed bytes hSender)
  | listen i e memory hSent hReaches hStage hPhase =>
      have hNew := hConnecting i hStage
      refine ⟨b, .refl, ?_⟩
      cases hListen : (p.session.node i).listen
          (Fintype.card ι) e.source
          (Serializer.recvPacket e.bytes) memory with
      | none =>
          exact hShows.put hNew fresh_down
            fun w hState => nomatch hState
      | some n =>
          have hFresh := (hShows.node i).fresh hNew
          rcases Session.state_listen P.fits
            (hShows.sent e hSent) hReaches memory hListen with
            ⟨hState, hRecovery⟩ |
              ⟨w, hMem, hId, hState, hRecovery⟩
          · apply hShows.put hNew
            · change n.state.elevators = n.recoveryState.toList
              rw [hState, hRecovery]
              exact hFresh
            · intro w hSome
              change n.recoveryState = some w at hSome
              rw [hRecovery] at hSome
              exact (hShows.node i).recovered w hSome
          · apply hShows.put hNew
            · apply fresh_update hFresh _ hState hRecovery
              intro w' hSome
              rw [(hInv.node i).recovered w' hSome, hId]
            · intro w' hSome
              change n.recoveryState = some w' at hSome
              rw [hRecovery] at hSome
              cases hSome
              exact hMem
  | connect i hStage hPhase hSender =>
      have hNew := hConnecting i hStage
      rw [connect_eq ((hInv.node i).full hPhase)]
      have hNode := hShows.node i
      exact ⟨b, .refl, hShows.put hNew (hNode.fresh hNew)
        hNode.recovered⟩
  | update i state hRange hStage =>
      -- What the scheduler knows is not changed from outside.
      have hSame := hConnected i hStage
      rw [Session.node_put] at hSame
      rw [hSame]
      unfold Session.put
      rw [Function.update_eq_self]
      exact ⟨b, .refl, hShows⟩
  | assist i e memory hSent hReaches hStage =>
      cases hAssist : (p.session.node i).assist e.source
          (Serializer.recvPacket e.bytes) memory with
      | none =>
          exact ⟨b, .refl, hShows.send fun e' he' =>
            absurd he' List.not_mem_nil⟩
      | some bytes =>
          rcases shows_assist hShows hReach hSession hSent
            hStage hAssist with ⟨b', hRun, hShows', hBacked⟩
          refine ⟨b', hRun, hShows'.send ?_⟩
          intro e' he'
          rw [List.mem_singleton.mp he']
          exact hBacked

/- A process ends. -/
theorem Shows.crashed
    (hShows : Shows P p b)
    (i : ι) :
    Shows P (p.crashed i) b := by
  have hEnded : (p.crashed i).running i = false :=
    Function.update_self _ _ _
  have hDown : (p.crashed i).session.node i = .down :=
    Session.node_put _ _ _
  refine hShows.change (i := i) hShows.same rfl rfl ?_ ?_
  · exact fun j hOther =>
      ⟨Function.update_of_ne hOther _ _,
        Session.node_put_of_ne hOther, rfl, rfl⟩
  · rw [hEnded, hDown]
    exact showsNode_of_fresh fresh_down
      fun w hState => nomatch hState

/- A process starts its threads with what it knows. -/
theorem Shows.started
    (hShows : Shows P p b)
    (hConnected : p.session.Connected i)
    {n : Node}
    (hKnown : (p.session.node i).state =
      Wire.ofGlobalState n.globalState) :
    Shows P (p.started i n) (b.started i n) := by
  have hNode : (b.started i n).node i = n :=
    Function.update_self _ _ _
  refine hShows.change (i := i) ?_ rfl rfl ?_ ?_
  · rw [hShows.same]
    rfl
  · exact fun j hOther =>
      ⟨Function.update_of_ne hOther _ _, rfl,
        Function.update_of_ne hOther _ _,
        Function.update_of_ne hOther _ _⟩
  · rw [running_started, node_started, hNode]
    exact {
      connected := fun _ => hConnected
      same := fun _ => rfl
      known := fun _ => hKnown
      fresh := fun h => nomatch h
      recovered := (hShows.node i).recovered }

/- The states of a node have values of their types. -/
theorem inRange_of_known
    (hReach : (Building.system P.site).Reachable b)
    {e : ElevatorState}
    (hKnown : e ∈ (b.node i).globalState.elevators)
    (hClock : Fits 8 e.timestamp) :
    (Wire.ofElevatorState e).InRange := by
  have hInv := Building.inv_of_reachable hReach
  have hReported := (hInv.nodes i).known e hKnown
  rcases hReported.id hInv.ids with ⟨j, hId⟩
  have hFloor := (hReported.accounted hInv.history).lastFloor
  refine ⟨?_, hClock,
    Building.fits_inRange (Or.inr hFloor),
    e.direction.fits_base⟩
  change Fits 4 e.id
  rw [hId]
  exact Building.fits_id P.site j

/- The session sees what the scheduler has entered. -/
theorem session_acted
    (hShows : Shows P p b)
    (hSession : (Session.system P.toMachines).Reachable
      p.session)
    {C : Site ι}
    {action : Building.Action ι}
    {t : Building ι}
    (hRunning : p.running action.node = true)
    (hOwn : action.OfThreads)
    (hActs : Building.Acts C p.building action t)
    (hRange :
      ∀ e ∈ (t.node action.node).globalState.elevators,
        (Wire.ofElevatorState e).InRange) :
    (Session.system P.toMachines).Reachable
      (p.acted action.node t).session := by
  have hState := (hShows.node _).known hRunning
  rw [(hShows.node _).same hRunning] at hState
  rcases hActs.known hOwn with hKnown | ⟨e, hKnown⟩
  · have hSame : (p.acted action.node t).session =
        p.session := by
      unfold acted Session.put
      rw [hKnown, ← hState, Function.update_eq_self]
    rw [hSame]
    exact hSession
  · have hMem : e ∈
        (t.node action.node).globalState.elevators := by
      rw [hKnown]
      exact GlobalState.self_mem_update _ e
    have hUpdate := Session.Step.update (M := P.toMachines)
      p.session action.node (Wire.ofElevatorState e)
      (hRange e hMem) ((hShows.node _).connected hRunning)
    rw [hState, ← Wire.ofGlobalState_update, ← hKnown]
      at hUpdate
    exact hSession.step hUpdate

/- The node that has acted is in the building as it is in the
program. -/
theorem Shows.acted
    (hShows : Shows P p b)
    {C : Site ι}
    {action : Building.Action ι}
    {t : Building ι}
    (hRunning : p.running action.node = true)
    (hActs : Building.Acts C p.building action t) :
    Shows P (p.acted action.node t)
      (t.withNodes
        (Function.update b.node action.node
          (t.node action.node)) b.recoveries) := by
  have hSession :
      (p.acted action.node t).session.node action.node =
        { p.session.node action.node with
          state := Wire.ofGlobalState
            (t.node action.node).globalState } :=
    Session.node_put _ _ _
  have hNode := Function.update_self action.node
    (t.node action.node) b.node
  refine hShows.change (i := action.node) rfl rfl rfl ?_ ?_
  · exact fun j hOther =>
      ⟨rfl, Session.node_put_of_ne hOther,
        hActs.frame hOther, Function.update_of_ne hOther _ _⟩
  · change ShowsNode _ _ (p.running action.node) _
      (t.node action.node)
      (Function.update b.node action.node
        (t.node action.node) action.node)
    rw [hSession, hNode]
    exact {
      connected := (hShows.node _).connected
      same := fun _ => rfl
      known := fun _ => rfl
      fresh := fun h => absurd (h.symm.trans hRunning)
        Bool.false_ne_true
      recovered := (hShows.node _).recovered }

/- Every step of the program is a run of the building. -/
theorem shows_of_step
    (hShows : Shows P p b)
    (hReach : (Building.system P.site).Reachable b)
    (hSession : (Session.system P.toMachines).Reachable
      p.session)
    (hStep : Step P p q) :
    (Session.system P.toMachines).Reachable q.session ∧
      ∃ b', Relation.ReflTransGen
          (Building.system P.site).Step b b' ∧
        Shows P q b' := by
  have hId : ∀ i, p.session.Connected i →
      (p.session.node i).id = P.site.id i :=
    fun i hConnected =>
      Session.id_eq_rank P.fits hSession hConnected
  cases hStep with
  | session s hStep hConnected =>
      exact ⟨hSession.step hStep, shows_session hShows hReach
        hSession hStep hConnected⟩
  | crash i =>
      exact ⟨hSession.step (Session.Step.crash _ i), b, .refl,
        hShows.crashed i⟩
  | run i driver t hConnected hNew hState hEnter =>
      rw [hId i hConnected] at hEnter
      have hActs := Building.Acts.restart (C := P.site) b i
        driver t hEnter
      refine ⟨hSession, _, .single ⟨_, hActs⟩,
        hShows.started hConnected ?_⟩
      have hFresh := (hShows.node i).fresh hNew
      unfold Session.Fresh at hFresh
      rw [hState] at hFresh
      exact GlobalState.eq_of_elevators hFresh
  | recover i w state driver t hConnected hNew hState hRead
      hEnter =>
      rw [hId i hConnected] at hEnter
      have hSent := (hShows.node i).recovered w hState
      have hActs := Building.Acts.recover (C := P.site) b i w
        state driver t P.several hSent hRead hEnter
      refine ⟨hSession, _, .single ⟨_, hActs⟩,
        hShows.started hConnected ?_⟩
      have hFresh := (hShows.node i).fresh hNew
      unfold Session.Fresh at hFresh
      rw [hState, ← Wire.ofElevatorState_of_some hRead]
        at hFresh
      exact GlobalState.eq_of_elevators hFresh
  | act C action t hRunning hOwn hSite hAddress hShaft hActs
      hClock =>
      have hNode := hShows.node action.node
      have hActs' := hActs.withNodes (D := P.site)
        (f := b.node) (l := b.recoveries) hOwn
        ((hId _ (hNode.connected hRunning)).symm.trans
          hSite.symm)
        hAddress.symm hShaft.symm (hNode.same hRunning)
      rw [← hShows.same] at hActs'
      have hShows' := hShows.acted hRunning hActs
      refine ⟨session_acted hShows hSession hRunning hOwn
        hActs ?_, _, .single ⟨_, hActs'⟩, hShows'⟩
      intro e he
      apply inRange_of_known (hReach.step ⟨_, hActs'⟩)
        (i := action.node) _ (hClock e he)
      rw [(hShows'.node _).same hRunning]
      exact he

/- Nothing runs at first, and a building has what the nodes
would start with. -/
omit [DecidableEq ι] in
theorem exists_shows
    (hInit : Initial p) :
    ∃ b, Building.Initial P.site b ∧ Shows P p b := by
  have hEnter : ∀ i, ∃ t, Loop.enter P.info
      (Loop.create P.info (P.site.id i) Loop.darkDriver) =
        .ok () t :=
    fun i => Loop.enter_ok P.info _
  choose t hEnter using hEnter
  refine ⟨p.building.withNodes (fun i => Node.started (t i))
    [], ?_, ?_⟩
  · exact {
      nodes := fun i =>
        ⟨Loop.darkDriver, t i, hEnter i, rfl⟩
      changes := hInit.changes
      commands := hInit.commands
      recoveries := rfl
      history := hInit.history
      reported := hInit.reported
      handled := hInit.handled }
  · refine { same := rfl, node := ?_, sent := ?_ }
    · intro i
      rw [hInit.running, hInit.session]
      exact showsNode_of_fresh fresh_down
        fun w hState => nomatch hState
    · rw [hInit.session]
      exact fun e he => absurd he List.not_mem_nil

/- Every reachable program is shown by a reachable
building. -/
theorem exists_shown
    (hReach : (system P).Reachable p) :
    ∃ b, (Building.system P.site).Reachable b ∧
      (Session.system P.toMachines).Reachable p.session ∧
      Shows P p b := by
  apply hReach.simulated
  · intro p hInit
    rcases exists_shows (P := P) hInit with
      ⟨b, hStart, hShows⟩
    exact ⟨b, hStart, .init hInit.session, hShows⟩
  · rintro p q b ⟨hSession, hShows⟩ hBuilding hStep
    rcases shows_of_step hShows hBuilding hSession hStep with
      ⟨hSession', b', hRun, hShows'⟩
    exact ⟨b', hRun, hSession', hShows'⟩

end Simulation

------------------------------------------------------------
-- Runs
------------------------------------------------------------

variable [Fintype ι]
variable {P : Premises ι}
variable {p : Program ι}

section Runs

variable {n : SessionNode}
variable {i : ι}

/- A process that is not connected goes on. -/
theorem reachable_put
    (hReach : (system P).Reachable p)
    (hStep : Session.Step P.toMachines p.session
      (p.session.put i n))
    (hStage : (p.session.node i).stage ≠ .connected) :
    (system P).Reachable
      { p with session := p.session.put i n } := by
  apply hReach.step
  apply Step.session p _ hStep
  intro j hConnected
  apply Session.node_put_of_ne
  intro hSame
  rw [hSame] at hConnected
  exact hStage hConnected

/- A process that listens sends the packet of its phase. -/
theorem reachable_sent
    (hReach : (system P).Reachable p)
    (hStage : (p.session.node i).stage = .connecting)
    (hSender : (p.session.node i).sender = .idle)
    (hPhase : (p.session.node i).initPhase < 2) :
    (system P).Reachable
      { p with session :=
        { p.session with
          sent := p.session.sent ++
            [Session.announcement P.toMachines i
              (p.session.node i).pack] } } := by
  have hCheck := reachable_put hReach
    (Session.Step.check p.session i hStage hSender hPhase)
    (by rw [hStage]; exact Stage.noConfusion)
  have hPack := reachable_put hCheck
    (Session.Step.pack _ i
      (by rw [Session.node_put]; exact hStage)
      (by rw [Session.node_put]))
    (by
      rw [Session.node_put]
      dsimp only
      rw [hStage]
      exact Stage.noConfusion)
  rw [Session.node_put, Session.put_put] at hPack
  have hTransmit := Session.Step.transmit
    (M := P.toMachines)
    (p.session.put i
      { p.session.node i with
        sender := .packed (p.session.node i).pack })
    i (p.session.node i).pack
    (by rw [Session.node_put]; exact hStage)
    (by rw [Session.node_put])
  -- The sender is idle again.
  rw [Session.node_put, Session.put_put] at hTransmit
  dsimp only at hTransmit
  rw [← hSender] at hTransmit
  have hSame : p.session.put i (p.session.node i) =
      p.session := by
    unfold Session.put
    rw [Function.update_eq_self]
  change Session.Step _ _
    { p.session.put i (p.session.node i) with
      sent := p.session.sent ++ _ } at hTransmit
  rw [hSame] at hTransmit
  apply hPack.step (Step.session _ _ hTransmit _)
  intro j hConnected
  symm
  apply Session.node_put_of_ne
  intro hOwn
  unfold Session.Connected at hConnected
  rw [hOwn, Session.node_put] at hConnected
  dsimp only at hConnected
  rw [hStage] at hConnected
  cases hConnected

/- A process that listens reads a datagram. -/
theorem reachable_heard
    (e : Envelope)
    (hReach : (system P).Reachable p)
    (hSent : e ∈ p.session.sent)
    (hReaches : e.Reaches (P.address i))
    (hStage : (p.session.node i).stage = .connecting)
    (hPhase : (p.session.node i).initPhase < 2)
    (hRecv : Serializer.recvPacket e.bytes = e.bytes)
    (hListen : (p.session.node i).listen (Fintype.card ι)
      e.source e.bytes [] = some n) :
    (system P).Reachable
      { p with session := p.session.put i n } := by
  have hStep := Session.Step.listen (M := P.toMachines)
    p.session i e [] hSent hReaches hStage hPhase
  rw [hRecv, hListen] at hStep
  apply reachable_put hReach hStep
  rw [hStage]
  exact Stage.noConfusion

/- A process whose listener has ended connects. -/
theorem reachable_connected
    (hReach : (system P).Reachable p)
    (hStage : (p.session.node i).stage = .connecting)
    (hSender : (p.session.node i).sender = .idle)
    (hPhase : 2 ≤ (p.session.node i).initPhase) :
    (system P).Reachable
      { p with
        session := p.session.put i
          { p.session.node i with
            id := P.rank i
            stage := .connected } } := by
  rcases exists_shown hReach with ⟨b, _, hSession, _⟩
  have hInv := Session.inv_of_reachable P.fits hSession
  have hConnect := Session.Step.connect (M := P.toMachines)
    p.session i hStage hPhase hSender
  rw [connect_eq ((hInv.node i).full hPhase)] at hConnect
  apply reachable_put hReach hConnect
  rw [hStage]
  exact Stage.noConfusion

end Runs

------------------------------------------------------------
-- Two Machines
------------------------------------------------------------

theorem twoMachines_ne_any
    (i : Fin 2) :
    Session.twoMachines.address i ≠ IPv4Address.any := by
  match i with
  | 0 => decide
  | 1 => decide

theorem twoMachines_several :
    1 < Fintype.card (Fin 2) := by
  decide

theorem twoMachines_fits :
    FitsBuffer (Fin 2) := by
  unfold FitsBuffer
  decide

/- Two machines in a building with two floors. -/
def twoPremises : Premises (Fin 2) where
  toMachines := Session.twoMachines
  shaft := Loop.twoFloors
  top := Building.twoElevators.top
  address_ne_any := twoMachines_ne_any
  several := twoMachines_several
  fits := twoMachines_fits

/- The two processes while nothing runs. -/
def meeting
    (a b : SessionNode)
    (l : List Envelope) : Program (Fin 2) where
  session := ⟨fun i => if i.val = 0 then a else b, l⟩
  building :=
    ⟨fun _ => Node.started
      (Loop.create twoPremises.info 0 Loop.darkDriver),
      [], [], [], [], fun _ => [], fun _ => []⟩
  running _ := false

section Meeting

variable {a b n : SessionNode}
variable {l : List Envelope}

theorem put_meeting
    (i : Fin 2) :
    (meeting a b l).session.put i n =
      (meeting (if i = 0 then n else a)
        (if i = 0 then b else n) l).session := by
  unfold meeting Session.put
  congr 1
  funext j
  match i, j with
  | 0, 0 => rfl
  | 0, 1 => rfl
  | 1, 0 => rfl
  | 1, 1 => rfl

/- The process `i` reads a datagram of `j`. -/
theorem heard
    {bytes : List UInt8}
    (i j : Fin 2)
    (hReach : (system twoPremises).Reachable (meeting a b l))
    (hSent : Session.announcement Session.twoMachines j
      bytes ∈ l)
    (hStage : ((meeting a b l).session.node i).stage =
      .connecting)
    (hPhase : ((meeting a b l).session.node i).initPhase < 2)
    (hRecv : Serializer.recvPacket bytes = bytes)
    (hListen : ((meeting a b l).session.node i).listen 2
      (twoPremises.address j) bytes [] = some n) :
    (system twoPremises).Reachable
      (meeting (if i = 0 then n else a)
        (if i = 0 then b else n) l) := by
  have hHeard := reachable_heard _ hReach hSent
    (Or.inl rfl) hStage hPhase hRecv hListen
  rw [put_meeting] at hHeard
  exact hHeard

theorem reachable_started :
    (system twoPremises).Reachable
      (meeting (.start 0) (.start 0) []) := by
  have hInit : (system twoPremises).Reachable
      (meeting .down .down []) := by
    apply TransitionSystem.Reachable.init
    exact {
      session := by
        change Session.mk _ _ = Session.mk _ _
        congr 1
        funext i
        exact ite_self _
      changes := rfl
      commands := rfl
      recoveries := rfl
      history := rfl
      reported := fun _ => rfl
      handled := fun _ => rfl
      running := fun _ => rfl }
  have hFirst := reachable_put hInit
    (Session.Step.start _ 0 0) Stage.noConfusion
  rw [put_meeting] at hFirst
  have hSecond := reachable_put hFirst
    (Session.Step.start _ 1 0) Stage.noConfusion
  have hBoth : (meeting (.start 0) .down []).session.put 1
      (.start 0) = _ := put_meeting 1
  change (system twoPremises).Reachable
    ⟨(meeting (.start 0) .down []).session.put 1 (.start 0),
      _, _⟩ at hSecond
  rw [hBoth] at hSecond
  exact hSecond

/- The datagrams of the two processes. -/
def initialOf
    (i : Fin 2) : Envelope :=
  Session.announcement Session.twoMachines i
    (message Wire.Initial.messageType {})

/- The datagram of a process that is ready. -/
def readyOf
    (i : Fin 2) : Envelope :=
  Session.announcement Session.twoMachines i
    (message Wire.Ready.messageType {})

/- The first process meets the second one. -/
theorem exists_met :
    ∃ a b, (system twoPremises).Reachable
        (meeting a b
          [initialOf 0, initialOf 1, readyOf 1,
            readyOf 0]) ∧
      a.stage = .connecting ∧
      a.sender = .idle ∧
      a.initPhase = 2 ∧
      a.recoveryState = none := by
  have hSent : (system twoPremises).Reachable
      (meeting (.start 0) (.start 0)
        [initialOf 0, initialOf 1]) :=
    reachable_sent (i := 1)
      (reachable_sent (i := 0) reachable_started
        rfl rfl (by decide))
      rfl rfl (by decide)
  have hHeard := heard 1 1
    (heard 1 0 hSent (by simp [initialOf]) rfl
      (by decide) Session.recvPacket_initial
      (listen_initial _ _ _))
    (by simp [initialOf]) rfl
    (by decide) Session.recvPacket_initial
    (listen_initial _ _ _)
  have hReady : (system twoPremises).Reachable
      (meeting _ _
        [initialOf 0, initialOf 1, readyOf 1]) :=
    reachable_sent (i := 1) hHeard rfl rfl (by decide)
  have hGathered := heard 0 0
    (heard 0 1 hReady (by simp [readyOf]) rfl
      (by decide) Session.recvPacket_ready
      (listen_ready _ _ _))
    (by simp [initialOf]) rfl
    (by decide) Session.recvPacket_initial
    (listen_initial _ _ _)
  have hAll : (system twoPremises).Reachable
      (meeting _ _
        [initialOf 0, initialOf 1, readyOf 1,
          readyOf 0]) :=
    reachable_sent (i := 0) hGathered rfl rfl (by decide)
  have hMet := heard 0 0 hAll (by simp [readyOf]) rfl
    (by decide) Session.recvPacket_ready
    (listen_ready _ _ _)
  exact ⟨_, _, hMet, rfl, rfl, by decide, rfl⟩

/- The first process runs. -/
theorem exists_running :
    ∃ p e, (system twoPremises).Reachable p ∧
      p.session.Connected 0 ∧
      initialOf 0 ∈ p.session.sent ∧
      p.running 0 = true ∧
      p.building.node 0 = Node.started e ∧
      Loop.enter twoPremises.info
        (Loop.create twoPremises.info (twoPremises.rank 0)
          Loop.darkDriver) = .ok () e := by
  rcases exists_met with
    ⟨a, b, hMet, hStage, hSender, hPhase, hNone⟩
  have hConnected := reachable_connected (i := 0) hMet hStage
    hSender hPhase.ge
  rw [put_meeting] at hConnected
  rcases Loop.enter_ok twoPremises.info
    (Loop.create twoPremises.info (twoPremises.rank 0)
      Loop.darkDriver) with ⟨e, hEnter⟩
  have hRun := hConnected.step (Step.run _ 0 Loop.darkDriver e
    rfl rfl hNone hEnter)
  exact ⟨_, e, hRun, rfl, List.mem_cons_self,
    running_started, node_started, hEnter⟩

/- The threads of a process that runs act. -/
theorem reachable_acted
    {P : Premises (Fin 2)}
    {p : Program (Fin 2)}
    {t : Building (Fin 2)}
    (action : Building.Action (Fin 2))
    (hReach : (system P).Reachable p)
    (hRunning : p.running action.node = true)
    (hOwn : action.OfThreads)
    (hActs : Building.Acts P.site p.building action t)
    (hClock :
      ∀ e ∈ (t.node action.node).globalState.elevators,
        Fits 8 e.timestamp) :
    (system P).Reachable (p.acted action.node t) := by
  rcases exists_shown hReach with ⟨b, _, hSession, hShows⟩
  apply hReach.step
  apply Step.act p P.site action t hRunning hOwn _ rfl rfl
    hActs hClock
  exact (Session.id_eq_rank P.fits hSession
    ((hShows.node _).connected hRunning)).symm

/- The loop of an elevator that has started reports a press. -/
theorem exists_report :
    ∃ e e' : Loop, ∃ st,
      Loop.enter twoPremises.info
        (Loop.create twoPremises.info (twoPremises.rank 0)
          Loop.darkDriver) = .ok () e ∧
      Loop.loopBody twoPremises.info Node.firstPress e =
        .ok () e' ∧
      e'.outState = [⟨.buttonDownPressed, 1, st⟩] ∧
      st.id = twoPremises.rank 0 ∧
      Fits 8 st.timestamp :=
  ⟨_, _, _, rfl, rfl, rfl, rfl, by decide⟩

/- Its scheduler takes the change and enters the state. -/
theorem acts_entered
    {s : Building (Fin 2)}
    {e e' : Loop}
    {st : ElevatorState}
    (hNode : s.node 0 = Node.started e)
    (hRun : Loop.loopBody twoPremises.info Node.firstPress e =
      .ok () e')
    (hOut : e'.outState =
      [⟨.buttonDownPressed, 1, st⟩]) :
    ∃ s₁ s₂ s₃,
      Building.Acts twoPremises.site s
        (.iterate 0 Node.firstPress) s₁ ∧
      (s₁.node 0).globalState = .empty ∧
      Building.Acts twoPremises.site s₁ (.other 0) s₂ ∧
      (s₂.node 0).globalState = .empty ∧
      Building.Acts twoPremises.site s₂
        (.thread 0 (.executed (.update st))) s₃ ∧
      (s₃.node 0).globalState =
        GlobalState.empty.update st := by
  have hCommand : Node.firstPress.tryDequeue =
      (s.node 0).commands.toLocal.head? := by
    rw [hNode]
    rfl
  have hStep : Loop.Step twoPremises.site.info
      Node.firstPress (s.node 0).elevator e' := by
    rw [hNode]
    exact Loop.Step.iterate hRun
  have hReported := Building.Acts.elevator
    (C := twoPremises.site) s 0 Node.firstPress e'
    hCommand (fun _ => Or.inl rfl) hStep
  generalize hs₁ : s.iterated twoPremises.site 0
    Node.firstPress e' = s₁ at hReported
  have hNode₁ : s₁.node 0 =
      { s.node 0 with
        elevator := e'
        commands := (s.node 0).taken
          twoPremises.site.info Node.firstPress } := by
    rw [← hs₁]
    exact Function.update_self (0 : Fin 2) _ s.node
  rw [hNode] at hNode₁
  have hTaken := Building.Acts.dequeue
    (C := twoPremises.site) s₁ 0
    ⟨.buttonDownPressed, 1, st⟩ []
    (by rw [hNode₁]; rfl) (by rw [hNode₁]; exact hOut)
  generalize hs₂ : s₁.dequeued twoPremises.site 0
    ⟨.buttonDownPressed, 1, st⟩ [] = s₂ at hTaken
  have hNode₂ : s₂.node 0 =
      { s₁.node 0 with
        elevator := { (s₁.node 0).elevator with
          outState := [] }
        handling := some ⟨.buttonDownPressed, 1, st⟩
        schedOps := Scheduler.schedLoop
          (twoPremises.site.id 0)
          ⟨.buttonDownPressed, 1, st⟩ } := by
    rw [← hs₂]
    exact Function.update_self (0 : Fin 2) _ s₁.node
  rw [hNode₁] at hNode₂
  have hEntered := Building.Acts.threads
    (C := twoPremises.site) s₂ 0 _
    (Node.Threads.schedule _ _ (.update st) _ _ 0 0
      (by rw [hNode₂]; rfl) trivial rfl)
  refine ⟨s₁, s₂, _, hReported, ?_, hTaken, ?_, hEntered, ?_⟩
  · rw [hNode₁]
    rfl
  · rw [hNode₂]
    rfl
  · unfold Building.put
    dsimp only
    rw [Function.update_self, hNode₂]
    rfl

/- A press at the first elevator is reported and entered. -/
theorem exists_entered :
    ∃ p, ∃ st : ElevatorState,
      (system twoPremises).Reachable p ∧
      p.session.Connected 0 ∧
      initialOf 0 ∈ p.session.sent ∧
      p.running 0 = true ∧
      st.id = twoPremises.rank 0 ∧
      Fits 8 st.timestamp ∧
      (p.building.node 0).globalState =
        GlobalState.empty.update st := by
  rcases exists_running with
    ⟨p, e, hReach, hConnected, hSent, hRunning, hNode,
      hEnter⟩
  rcases exists_report with
    ⟨e₀, e', st, hEnter₀, hRun, hOut, hId, hClock⟩
  rw [hEnter] at hEnter₀
  cases hEnter₀
  rcases acts_entered hNode hRun hOut with
    ⟨s₁, s₂, s₃, hReported, hNone₁, hTaken, hNone₂,
      hEntered, hKnown⟩
  have hNone : ∀ n : Node, n.globalState = .empty →
      ∀ e ∈ n.globalState.elevators,
        Fits 8 e.timestamp := by
    intro n hEmpty e he
    rw [hEmpty] at he
    exact absurd he List.not_mem_nil
  have hReach₁ := reachable_acted (.iterate 0 Node.firstPress)
    hReach hRunning trivial hReported (hNone _ hNone₁)
  have hReach₂ := reachable_acted (.other 0) hReach₁
    hRunning trivial hTaken (hNone _ hNone₂)
  have hReach₃ := reachable_acted
    (.thread 0 (.executed (.update st))) hReach₂ hRunning
    trivial hEntered (by
      intro e he
      change e ∈ (s₃.node 0).globalState.elevators at he
      rw [hKnown] at he
      rw [List.mem_singleton.mp he]
      exact hClock)
  exact ⟨_, st, hReach₃,
    connected_acted (connected_acted
      (connected_acted hConnected)),
    hSent, hRunning, hId, hClock, hKnown⟩

/- What the first process knows of itself is sent to its
machine. -/
theorem exists_answered :
    ∃ p, ∃ w : Wire.ElevatorState,
      (system twoPremises).Reachable p ∧
      w.InRange ∧
      ⟨twoPremises.address 0, some (twoPremises.address 0),
        message Wire.RecoveryState.messageType
          ⟨w, twoPremises.all⟩⟩ ∈ p.session.sent := by
  rcases exists_entered with
    ⟨p, st, hReach, hConnected, hSent, hRunning, hId, hClock,
      hKnown⟩
  rcases exists_shown hReach with
    ⟨b, hBuilding, hSession, hShows⟩
  have hInv := (Session.inv_of_reachable twoPremises.fits
    hSession).node 0
  have hPeers : (p.session.node 0).peers = twoPremises.all :=
    hInv.full (hInv.connected hConnected).1
  have hState : (p.session.node 0).state =
      GlobalState.empty.update (Wire.ofElevatorState st) := by
    rw [(hShows.node 0).known hRunning,
      (hShows.node 0).same hRunning, hKnown,
      Wire.ofGlobalState_update]
    rfl
  have hRank : (Wire.ofElevatorState st).id =
      twoPremises.rank 0 := hId
  have hFound := GlobalState.get_update
    (g := (.empty : GlobalState Wire.ElevatorState.id))
    (Wire.ofElevatorState st)
  rw [hRank, ← hState] at hFound
  have hRecovery :
      (p.session.node 0).recovery (twoPremises.rank 0) =
        .just (message Wire.RecoveryState.messageType
          ⟨Wire.ofElevatorState st, twoPremises.all⟩) := by
    unfold recovery
    rw [if_pos hFound.1, hFound.2, hPeers]
    apply toPacket_eq_message
    rw [Wire.encodedSize_recoveryState]
    change 58 + 4 * twoPremises.all.card ≤ _
    rw [Machines.card_all]
    decide
  have hAssist : (p.session.node 0).assist
      (twoPremises.address 0)
      (message Wire.Initial.messageType {}) [] =
        some (message Wire.RecoveryState.messageType
          ⟨Wire.ofElevatorState st, twoPremises.all⟩) := by
    apply assist_initial_iff.mpr
    rw [hPeers]
    exact ⟨Machines.address_mem_all 0, hRecovery⟩
  have hStep := Session.Step.assist
    (M := twoPremises.toMachines) p.session 0 (initialOf 0) []
    hSent (Or.inl rfl) hConnected
  have hRecv : Serializer.recvPacket (initialOf 0).bytes =
      message Wire.Initial.messageType {} :=
    Session.recvPacket_initial
  have hSource : (initialOf 0).source =
      twoPremises.address 0 := rfl
  rw [hRecv, hSource, hAssist] at hStep
  have hSelf := (hShows.node 0).same hRunning
  refine ⟨_, Wire.ofElevatorState st,
    hReach.step (Step.session p _ hStep fun _ _ => rfl), ?_,
    List.mem_append_right _ List.mem_cons_self⟩
  apply inRange_of_known (i := 0) hBuilding _ hClock
  rw [hSelf, hKnown]
  exact List.mem_cons_self

/- The first process crashes, starts again, and is sent what
it has known of itself. -/
theorem exists_recovered :
    ∃ p w, (system twoPremises).Reachable p ∧
      (p.session.node 0).recoveryState = some w := by
  rcases exists_answered with ⟨p, w, hReach, hRange, hSent⟩
  have hCrash := hReach.step (Step.crash p 0)
  have hStart := reachable_put hCrash
    (Session.Step.start _ 0 0)
    (by
      change ((p.session.put 0 .down).node 0).stage ≠ _
      rw [Session.node_put]
      exact Stage.noConfusion)
  have hSize :
      Serializer.encodedSize Wire.RecoveryState.messageType
          ⟨w, twoPremises.all⟩ ≤ Serializer.standardMTU := by
    rw [Wire.encodedSize_recoveryState]
    change 58 + 4 * twoPremises.all.card ≤ _
    rw [Machines.card_all]
    decide
  have hIntSize :
      58 + 4 * (twoPremises.all.card : Int) ≤ intMax := by
    rw [Machines.card_all]
    decide
  have hListen : (SessionNode.start 0).listen
      (Fintype.card (Fin 2)) (twoPremises.address 0)
      (message Wire.RecoveryState.messageType
        ⟨w, twoPremises.all⟩) [] = some _ :=
    listen_recoveryState _ _ _ hRange hIntSize
      (message_ne_nil _ _) rfl
  have hHeard := reachable_heard (i := 0) _ hStart hSent
    (Or.inr rfl) (by rw [Session.node_put]; rfl)
    (by rw [Session.node_put]; decide)
    (recvPacket_message hSize)
    (by rw [Session.node_put]; exact hListen)
  refine ⟨_, w.received, hHeard, ?_⟩
  rw [Session.node_put]
  exact (Session.state_checkBarrier _).2

end Meeting

------------------------------------------------------------
-- Refinement
------------------------------------------------------------

/-
  Whatever order the processes start, crash, meet and act in,
  the program is a building whose ids are the ranks of the
  addresses. Its nodes are those of the processes that run.
-/
theorem refines_building
    (hReach : (system P).Reachable p) :
    (Session.system P.toMachines).Reachable p.session ∧
      ∃ b, (Building.system P.site).Reachable b ∧
        b.changes = p.building.changes ∧
        b.commands = p.building.commands ∧
        b.history = p.building.history ∧
        ∀ i, p.running i = true →
          (p.session.node i).id = P.site.id i ∧
          b.node i = p.building.node i ∧
          b.reported i = p.building.reported i ∧
          b.handled i = p.building.handled i ∧
          (p.session.node i).state =
            Wire.ofGlobalState (b.node i).globalState := by
  rcases exists_shown hReach with
    ⟨b, hBuilding, hSession, hShows⟩
  refine ⟨hSession, b, hBuilding, ?_, ?_, ?_, ?_⟩
  · rw [hShows.same]
    rfl
  · rw [hShows.same]
    rfl
  · rw [hShows.same]
    rfl
  · intro i hRunning
    have hNode := hShows.node i
    refine ⟨Session.id_eq_rank P.fits hSession
      (hNode.connected hRunning), hNode.same hRunning,
      ?_, ?_, hNode.known hRunning⟩
    · rw [hShows.same]
      rfl
    · rw [hShows.same]
      rfl

/- The first of two processes runs. -/
theorem refines_building_running :
    ∃ p, (system twoPremises).Reachable p ∧
      p.running 0 = true ∧
      (Session.system twoPremises.toMachines).Reachable
          p.session ∧
        ∃ b, (Building.system twoPremises.site).Reachable b ∧
          b.changes = p.building.changes ∧
          b.commands = p.building.commands ∧
          b.history = p.building.history ∧
          ∀ i, p.running i = true →
            (p.session.node i).id = twoPremises.site.id i ∧
            b.node i = p.building.node i ∧
            b.reported i = p.building.reported i ∧
            b.handled i = p.building.handled i ∧
            (p.session.node i).state =
              Wire.ofGlobalState (b.node i).globalState := by
  rcases exists_running with
    ⟨p, e, hReach, _, _, hRunning, _⟩
  exact ⟨p, hReach, hRunning, refines_building hReach⟩

/-
  The state that a process has been sent, for its machine,
  has been reported by an elevator with the id of the
  machine, and only its timestamp may be another one.
-/
theorem recovered_reported
    (hReach : (system P).Reachable p)
    {i : ι}
    {w : Wire.ElevatorState}
    (hState : (p.session.node i).recoveryState = some w) :
    ∃ r ∈ p.building.history, ∃ timestamp,
      r.state.id = P.rank i ∧
      Wire.toElevatorState w =
        some { r.state with timestamp := timestamp } := by
  rcases exists_shown hReach with
    ⟨b, hBuilding, hSession, hShows⟩
  have hInv := Building.inv_of_reachable hBuilding
  have hSent := (hShows.node i).recovered w hState
  rcases hInv.recoveries _ hSent with
    ⟨e, ⟨r, hr, timestamp, he⟩, hId, hw⟩
  rw [hShows.same] at hr
  subst he
  refine ⟨r, hr, narrow 4 timestamp, hId, ?_⟩
  change w = _ at hw
  rw [hw]
  exact Wire.toElevatorState_ofElevatorState
    { r.state with timestamp := narrow 4 timestamp }

/- The first of two processes has started again. -/
theorem recovered_reported_restart :
    ∃ p w, (system twoPremises).Reachable p ∧
      (p.session.node 0).recoveryState = some w ∧
      ∃ r ∈ p.building.history, ∃ timestamp,
        r.state.id = twoPremises.rank 0 ∧
        Wire.toElevatorState w =
          some { r.state with timestamp := timestamp } := by
  rcases exists_recovered with ⟨p, w, hReach, hState⟩
  exact ⟨p, w, hReach, hState,
    recovered_reported hReach hState⟩

end Program

end ElevatorControl
