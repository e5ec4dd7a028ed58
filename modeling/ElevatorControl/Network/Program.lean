import ElevatorControl.Network.Assistance
import ElevatorControl.Network.Settled

/-
  The complete program.

  A process starts, meets the others on the service network,
  takes the id it has computed, recovers the state it may have
  been sent, and runs its elevator and its scheduler. It may
  crash at any time and start again. The session manager of a
  process goes on to answer those that start, with what the
  scheduler of the process knows.

  Key definitions include:
    * `Premises`
    * `Session.Backed`
    * `Program`
    * `Program.Step`

  Key theorems include:
    * `Building.Acts.withNodes`
    * `Building.Acts.known`
    * `Session.state_listen`
    * `Session.assist_cases`
-/

------------------------------------------------------------
-- Premises
------------------------------------------------------------

namespace ElevatorControl

open LittleEndian Session SessionNode

/-
  The machines of a building with more than one elevator. The
  recovery packet fits the receive buffer.
-/
structure Premises
    (ι : Type)
    [Fintype ι] extends Machines ι where
  shaft : Shaft
  top : shaft.maxFloor ≤ intMax
  address_ne_any : ∀ i, address i ≠ IPv4Address.any
  several : 1 < Fintype.card ι
  fits : FitsBuffer ι

namespace Premises

variable
  {ι : Type}
  [Fintype ι]

/- The bounds of the shaft. -/
def info
    (P : Premises ι) : BasicDriverInfo :=
  P.shaft.toBasicDriverInfo

theorem rank_lt_anyId
    (P : Premises ι)
    (i : ι) :
    (P.rank i : Int) < Command.anyId := by
  have hLt := P.rank_lt i
  have hFits := P.fits
  unfold FitsBuffer Serializer.standardMTU at hFits
  unfold Command.anyId intMax
  omega

/- The building whose elevators have the ranks of their
addresses as ids. -/
def site
    (P : Premises ι) : Site ι where
  id i := P.rank i
  address := P.address
  id_injective _ _ hSame :=
    P.rank_injective (Int.ofNat.inj hSame)
  id_ne_anyId i := Int.ne_of_lt (P.rank_lt_anyId i)
  address_ne_any := P.address_ne_any
  shaft := P.shaft
  top := P.top
  id_nonneg _ := Int.natCast_nonneg _
  id_lt := P.rank_lt_anyId

end Premises

------------------------------------------------------------
-- Shared States
------------------------------------------------------------

namespace Wire

/- What the scheduler knows, as the session manager reads
it. -/
def ofGlobalState
    (g : GlobalState ElevatorControl.ElevatorState.id) :
    GlobalState ElevatorState.id where
  elevators := g.elevators.map ofElevatorState
  distinct := by
    rw [List.map_map]
    exact g.distinct

theorem ofGlobalState_update
    (g : GlobalState ElevatorControl.ElevatorState.id)
    (e : ElevatorControl.ElevatorState) :
    ofGlobalState (g.update e) =
      (ofGlobalState g).update (ofElevatorState e) := by
  have hHas : (ofGlobalState g).has (ofElevatorState e).id =
      g.has e.id := by
    rw [Bool.eq_iff_iff, GlobalState.has_iff,
      GlobalState.has_iff]
    change e.id ∈ List.map _ (List.map _ g.elevators) ↔ _
    rw [List.map_map]
    rfl
  have hAssign : ∀ e', ofElevatorState
        (GlobalState.assign
          ElevatorControl.ElevatorState.id e e') =
      GlobalState.assign ElevatorState.id
        (ofElevatorState e) (ofElevatorState e') := by
    intro e'
    unfold GlobalState.assign
    exact apply_ite ofElevatorState _ _ _
  apply GlobalState.eq_of_elevators
  rw [GlobalState.elevators_update, hHas]
  change List.map ofElevatorState
    (g.update e).elevators = _
  rw [GlobalState.elevators_update]
  split
  · change List.map _ (List.map _ g.elevators) =
      List.map _ (List.map _ g.elevators)
    rw [List.map_map, List.map_map]
    exact List.map_congr_left fun e' _ => hAssign e'
  · rfl

/- A state that is read from an object is stored as it. -/
theorem ofElevatorState_of_some
    {w : ElevatorState}
    {e : ElevatorControl.ElevatorState}
    (hRead : toElevatorState w = some e) :
    ofElevatorState e = w := by
  unfold toElevatorState Enumeration.enumerator at hRead
  rcases Option.bind_eq_some_iff.mp hRead with
    ⟨direction, hDirection, hSome⟩
  cases hSome
  have hBase : decide (direction.base = w.direction.base) =
      true :=
    List.find?_some
      (p := fun a : Direction =>
        decide (a.base = w.direction.base)) hDirection
  unfold ofElevatorState
  dsimp only
  rw [of_decide_eq_true hBase]

end Wire

------------------------------------------------------------
-- Steps of One Node
------------------------------------------------------------

namespace Node

open Scheduler

variable {d : BasicDriverInfo}
variable {id : Int}
variable {op : Op}
variable {next : List Op}
variable {event : Event}
variable {n t : Node}

theorem known_executeAs
    {now : MillisecondTime}
    {clock : TimePoint}
    (hExec : n.executeAs id d now clock op =
      .ok (t, next)) :
    t.globalState = n.globalState ∨
      ∃ e, t.globalState = n.globalState.update e := by
  cases hUpdated : op.updated with
  | none =>
      exact Or.inl ((executed_executeAs hExec).known hUpdated)
  | some e =>
      cases op with
      | update state =>
          cases hExec
          exact Or.inr ⟨state, rfl⟩
      | _ => cases hUpdated

/- A step of a scheduler thread enters at most one state. -/
theorem known_threads
    (hStep : Threads AnyTime d id n event t) :
    t.globalState = n.globalState ∨
      ∃ e, t.globalState = n.globalState.update e := by
  cases hStep with
  | schedule t op ops next now clock hOps hTime hExec =>
      have hKnown := known_executeAs hExec
      exact hKnown
  | check t op ops next now clock hOps hTime hExec =>
      have hKnown := known_executeAs hExec
      exact hKnown
  | pass d0 clock hCalled =>
      rw [Node.pass_eq]
      split
      · exact Or.inl rfl
      · exact Or.inl rfl
  | _ => exact Or.inl rfl

end Node

namespace Building

variable {ι : Type}
variable [DecidableEq ι]

/- The threads of a node that runs act: nobody starts, and
nobody is answered. -/
def Action.OfThreads : Action ι → Prop
  | .start _ => False
  | .assist _ _ => False
  | _ => True

/- The building with other nodes and recovered states. -/
def withNodes
    (s : Building ι)
    (f : ι → Node)
    (l : List (ι × Wire.ElevatorState)) : Building ι :=
  { s with node := f, recoveries := l }

variable [Fintype ι]
variable {C D : Site ι}
variable {s t : Building ι}
variable {action : Action ι}

/- Nobody else changes. -/
theorem Acts.frame
    (hActs : Acts C s action t)
    {k : ι}
    (hOther : k ≠ action.node) :
    t.node k = s.node k := by
  cases hActs with
  | assist i j state hNodes hGet => rfl
  | _ => exact Function.update_of_ne hOther _ _

/-
  The threads of a node read its own id and address, and
  nothing of the other nodes.
-/
theorem Acts.withNodes
    (hActs : Acts C s action t)
    (hOwn : action.OfThreads)
    (hId : D.id action.node = C.id action.node)
    (hAddress : D.address action.node =
      C.address action.node)
    (hShaft : D.shaft = C.shaft)
    {f : ι → Node}
    {l : List (ι × Wire.ElevatorState)}
    (hSame : f action.node = s.node action.node) :
    Acts D (s.withNodes f l) action
      (t.withNodes
        (Function.update f action.node
          (t.node action.node)) l) := by
  have hInfo : D.info = C.info := by
    unfold Site.info
    rw [hShaft]
  cases hActs with
  | elevator i inputs e hCommand hSensed hStep =>
      change f i = s.node i at hSame
      have hActs' := Acts.elevator (C := D) (s.withNodes f l)
        i inputs e
      simp only [Action.node, iterated, put,
        Building.withNodes, Function.update_self, hSame,
        hInfo] at hActs' ⊢
      exact hActs' hCommand hSensed hStep
  | dequeue i update rest hIdle hOut =>
      change f i = s.node i at hSame
      change D.id i = C.id i at hId
      have hActs' := Acts.dequeue (C := D) (s.withNodes f l)
        i update rest
      simp only [Action.node, dequeued, put,
        Building.withNodes, Function.update_self, hSame,
        hId] at hActs' ⊢
      exact hActs' hIdle hOut
  | threads i n hStep =>
      change f i = s.node i at hSame
      change D.id i = C.id i at hId
      rw [← hId, ← hInfo, ← hSame] at hStep
      have hActs' := Acts.threads (C := D) (s.withNodes f l)
        i n hStep
      simp only [Action.node, put, Building.withNodes,
        Function.update_self] at hActs' ⊢
      exact hActs'
  | sendChange i c rest hNodes hOut =>
      change f i = s.node i at hSame
      change D.address i = C.address i at hAddress
      have hActs' := Acts.sendChange (C := D)
        (s.withNodes f l) i c rest hNodes
      simp only [Action.node, put, Building.withNodes,
        Function.update_self, hSame, hAddress] at hActs' ⊢
      exact hActs' hOut
  | sendCommand i c rest hNodes hOut =>
      change f i = s.node i at hSame
      change D.address i = C.address i at hAddress
      have hActs' := Acts.sendCommand (C := D)
        (s.withNodes f l) i c rest hNodes
      simp only [Action.node, put, Building.withNodes,
        Function.update_self, hSame, hAddress] at hActs' ⊢
      exact hActs' hOut
  | receiveChange i source datagram now hNodes hSent =>
      change f i = s.node i at hSame
      change D.id i = C.id i at hId
      have hActs' := Acts.receiveChange (C := D)
        (s.withNodes f l) i source datagram now hNodes
      simp only [Action.node, put, Building.withNodes,
        Function.update_self, hSame, hId] at hActs' ⊢
      exact hActs' hSent
  | receiveCommand i source datagram hNodes hSent =>
      change f i = s.node i at hSame
      change D.id i = C.id i at hId
      have hActs' := Acts.receiveCommand (C := D)
        (s.withNodes f l) i source datagram hNodes
      simp only [Action.node, put, Building.withNodes,
        Function.update_self, hSame, hId] at hActs' ⊢
      exact hActs' hSent
  | assist i j state hNodes hGet => exact hOwn.elim
  | recover i w state driver e hNodes hSent hRead hEnter =>
      exact hOwn.elim
  | restart i driver e hEnter => exact hOwn.elim

/- What the scheduler of the node knows stays as it is, or a
state is entered. -/
theorem Acts.known
    (hActs : Acts C s action t)
    (hOwn : action.OfThreads) :
    (t.node action.node).globalState =
        (s.node action.node).globalState ∨
      ∃ e, (t.node action.node).globalState =
        (s.node action.node).globalState.update e := by
  cases hActs with
  | threads i n hStep =>
      change (Function.update s.node i n i).globalState = _ ∨
        ∃ e, (Function.update s.node i n i).globalState = _
      rw [Function.update_self]
      exact Node.known_threads hStep
  | assist i j state hNodes hGet => exact hOwn.elim
  | recover i w state driver e hNodes hSent hRead hEnter =>
      exact hOwn.elim
  | restart i driver e hEnter => exact hOwn.elim
  | _ =>
      left
      simp only [Action.node, iterated, dequeued, put,
        Function.update_self]

end Building

------------------------------------------------------------
-- Recovered States
------------------------------------------------------------

namespace Session

variable
  {ι : Type}
  [Fintype ι]

/- A datagram of the protocol. The states that are sent to
the machines are in the list. -/
def Backed
    (M : Machines ι)
    (l : List (ι × Wire.ElevatorState))
    (e : Envelope) : Prop :=
  InitBytes e.bytes ∨
    e.bytes =
      message Wire.RecoveryPeers.messageType ⟨M.all⟩ ∨
    ∃ j, ∃ state : Wire.ElevatorState,
      e.target = some (M.address j) ∧
      state.InRange ∧
      state.id = M.rank j ∧
      e.bytes = message Wire.RecoveryState.messageType
        ⟨state, M.all⟩ ∧
      (j, state.received) ∈ l

theorem Backed.mono
    {M : Machines ι}
    {l l' : List (ι × Wire.ElevatorState)}
    {e : Envelope}
    (hBacked : Backed M l e)
    (hSub : l ⊆ l') :
    Backed M l' e := by
  rcases hBacked with hInit | hPeers |
    ⟨j, state, hTarget, hRange, hId, hBytes, hMem⟩
  · exact Or.inl hInit
  · exact Or.inr (Or.inl hPeers)
  · exact Or.inr (Or.inr ⟨j, state, hTarget, hRange, hId,
      hBytes, hSub hMem⟩)

/- The node knows the state it has been sent, if any, and no
other one. -/
def Fresh
    (n : SessionNode) : Prop :=
  n.state.elevators = n.recoveryState.toList

variable {M : Machines ι}
variable {i : ι}
variable {n n' : SessionNode}
variable {l : List (ι × Wire.ElevatorState)}
variable {e : Envelope}

omit [Fintype ι] in
theorem state_checkBarrier
    (count : Int) :
    (n.checkBarrier count).state = n.state ∧
      (n.checkBarrier count).recoveryState =
        n.recoveryState := by
  unfold checkBarrier
  split
  · exact ⟨rfl, rfl⟩
  · split
    · exact ⟨rfl, rfl⟩
    · exact ⟨rfl, rfl⟩

/- The listener leaves what the node knows, or enters a state
that has been sent to its machine. -/
theorem state_listen
    (hFits : FitsBuffer ι)
    (hBacked : Backed M l e)
    (hReaches : e.Reaches (M.address i))
    (memory : List UInt8)
    (hListen : n.listen (Fintype.card ι) e.source
      (Serializer.recvPacket e.bytes) memory = some n') :
    (n'.state = n.state ∧
      n'.recoveryState = n.recoveryState) ∨
    ∃ w, (i, w) ∈ l ∧ w.id = M.rank i ∧
      n'.state = n.state.update w ∧
      n'.recoveryState = some w := by
  have hCard : M.all.card = Fintype.card ι :=
    Machines.card_all
  unfold FitsBuffer at hFits
  have hPeersSize : 16 + 4 * M.all.card ≤
      Serializer.standardMTU := by
    omega
  have hIntSize : 58 + 4 * (M.all.card : Int) ≤ intMax := by
    unfold Serializer.standardMTU at hFits
    unfold intMax
    omega
  rcases hBacked with
    (hBytes | hBytes | hBytes) | hBytes |
      ⟨j, state, hTarget, hRange, hId, hBytes, hMem⟩
  · rw [hBytes] at hListen
    change n.listen _ _ [] memory = some n' at hListen
    rw [listen_nil] at hListen
    cases hListen
    exact Or.inl ⟨rfl, rfl⟩
  · rw [hBytes, recvPacket_initial, listen_initial] at hListen
    rw [← Option.some.inj hListen]
    exact Or.inl (state_checkBarrier _)
  · rw [hBytes, recvPacket_ready, listen_ready] at hListen
    rw [← Option.some.inj hListen]
    exact Or.inl (state_checkBarrier _)
  · have hSize : Serializer.encodedSize
        Wire.RecoveryPeers.messageType ⟨M.all⟩ ≤
          Serializer.standardMTU := by
      rw [Wire.encodedSize_recoveryPeers]
      exact hPeersSize
    rw [hBytes, recvPacket_message hSize,
      listen_recoveryPeers _ _ _ hPeersSize] at hListen
    rw [← Option.some.inj hListen]
    exact Or.inl (state_checkBarrier _)
  · have hSize : Serializer.encodedSize
        Wire.RecoveryState.messageType ⟨state, M.all⟩ ≤
          Serializer.standardMTU := by
      rw [Wire.encodedSize_recoveryState]
      dsimp only
      omega
    have hNode : j = i := by
      rcases hReaches with hNone | hSome
      · rw [hTarget] at hNone
        cases hNone
      · rw [hTarget] at hSome
        exact M.address_injective (Option.some.inj hSome)
    subst hNode
    rw [hBytes, recvPacket_message hSize,
      listen_recoveryState _ _ _ hRange hIntSize
        (message_ne_nil _ _) rfl] at hListen
    rw [← Option.some.inj hListen]
    exact Or.inr ⟨state.received, hMem, hId,
      (state_checkBarrier _).1, (state_checkBarrier _).2⟩

omit [Fintype ι] in
theorem node_put_of_ne
    [DecidableEq ι]
    {s : Session ι}
    {j : ι}
    (hOther : j ≠ i) :
    (s.put i n).node j = s.node j :=
  Function.update_of_ne hOther _ _

omit [Fintype ι] in
theorem put_put
    [DecidableEq ι]
    {s : Session ι} :
    (s.put i n).put i n' = s.put i n' := by
  unfold Session.put
  rw [Function.update_idem]

/- What a node answers is its recovery packet for the peer. -/
omit [Fintype ι] in
theorem recovery_of_assist
    {source : IPv4Address}
    {pack memory bytes : List UInt8}
    (hAssist : n.assist source pack memory = some bytes) :
    n.recovery (n.peers.sort.idxOf source) = .just bytes := by
  unfold assist at hAssist
  split at hAssist
  · cases hAssist
  split at hAssist
  case isFalse => cases hAssist
  dsimp only at hAssist
  split at hAssist
  case isFalse => cases hAssist
  split at hAssist
  · next hJust =>
      rw [hJust, Option.some.inj hAssist]
  · cases hAssist

/- A node that has connected answers a machine with the state
it knows of it, or with the machines. -/
theorem assist_cases
    (hFits : FitsBuffer ι)
    (hStage : n.stage = .connected)
    (hInv : NodeInv M i n)
    (hGenuine : Genuine M e)
    {pack memory bytes : List UInt8}
    (hAssist : n.assist e.source pack memory = some bytes) :
    bytes =
        message Wire.RecoveryPeers.messageType ⟨M.all⟩ ∨
      ∃ j, ∃ state ∈ n.state.elevators,
        e.source = M.address j ∧
        state.id = M.rank j ∧
        bytes = message Wire.RecoveryState.messageType
          ⟨state, M.all⟩ := by
  have hPeers := hInv.full (hInv.connected hStage).1
  rcases Machines.mem_all.mp hGenuine.source with
    ⟨j, hSource⟩
  have hRecovery := recovery_of_assist hAssist
  rw [hPeers, ← hSource] at hRecovery
  rcases recovery_cases hFits hPeers hRecovery with
    hBytes | ⟨state, hMem, hId, hBytes⟩
  · exact Or.inl hBytes
  · exact Or.inr
      ⟨j, state, hMem, hSource.symm, hId, hBytes⟩

end Session

------------------------------------------------------------
-- Programs
------------------------------------------------------------

/-
  The sessions of all nodes, what runs behind them, and which
  nodes run. The session manager and the scheduler of a node
  share what is known of the elevators.
-/
structure Program (ι : Type) where
  session : Session ι
  building : Building ι
  running : ι → Bool

namespace Program

variable {ι : Type}
variable [DecidableEq ι]

/- The process of `i` has ended. -/
def crashed
    (p : Program ι)
    (i : ι) : Program ι where
  session := p.session.put i .down
  building := p.building
  running := Function.update p.running i false

/- The process of `i` has started its threads. -/
def started
    (p : Program ι)
    (i : ι)
    (n : Node) : Program ι where
  session := p.session
  building := p.building.started i n
  running := Function.update p.running i true

theorem running_started
    {p : Program ι}
    {i : ι}
    {n : Node} :
    (p.started i n).running i = true :=
  Function.update_self _ _ _

theorem node_started
    {p : Program ι}
    {i : ι}
    {n : Node} :
    (p.started i n).building.node i = n :=
  Function.update_self _ _ _

/- The threads of `i` have acted, and its session manager sees
what its scheduler knows. -/
def acted
    (p : Program ι)
    (i : ι)
    (b : Building ι) : Program ι where
  session := p.session.put i
    { p.session.node i with
      state := Wire.ofGlobalState (b.node i).globalState }
  building := b
  running := p.running

/- Acting leaves a process connected. -/
theorem connected_acted
    {p : Program ι}
    {i j : ι}
    {b : Building ι}
    (hConnected : p.session.Connected j) :
    (p.acted i b).session.Connected j := by
  change ((p.session.put i _).node j).stage = _
  unfold Session.put
  by_cases hSame : j = i
  · subst hSame
    dsimp only
    rw [Function.update_self]
    exact hConnected
  · dsimp only
    rw [Function.update_of_ne hSame]
    exact hConnected

/-
  The steps of the program. The session goes on by itself,
  and what a process that has connected knows is changed by
  its scheduler only. Its threads read the shaft of the site
  `C`, its own address and its own id, which is the one that
  the session has computed.
-/
inductive Step
    [Fintype ι]
    (P : Premises ι) :
    Program ι → Program ι → Prop where
  | session
      (p : Program ι)
      (s : Session ι)
      (hStep : Session.Step P.toMachines p.session s)
      (hConnected : ∀ i, p.session.Connected i →
        s.node i = p.session.node i) :
      Step P p { p with session := s }
  | crash
      (p : Program ι)
      (i : ι) :
      Step P p (p.crashed i)
  | run
      (p : Program ι)
      (i : ι)
      (driver : Driver)
      (t : Loop)
      (hConnected : p.session.Connected i)
      (hNew : p.running i = false)
      (hState : (p.session.node i).recoveryState = none)
      (hEnter : Loop.enter P.info
        (Loop.create P.info (p.session.node i).id driver) =
          .ok () t) :
      Step P p (p.started i (Node.started t))
  | recover
      (p : Program ι)
      (i : ι)
      (w : Wire.ElevatorState)
      (state : ElevatorState)
      (driver : Driver)
      (t : Loop)
      (hConnected : p.session.Connected i)
      (hNew : p.running i = false)
      (hState : (p.session.node i).recoveryState = some w)
      (hRead : Wire.toElevatorState w = some state)
      (hEnter : Loop.enter P.info
        (Loop.recover state
          (Loop.create P.info (p.session.node i).id
            driver)) = .ok () t) :
      Step P p (p.started i (Building.recovered t state))
  | act
      (p : Program ι)
      (C : Site ι)
      (action : Building.Action ι)
      (b : Building ι)
      (hRunning : p.running action.node = true)
      (hOwn : action.OfThreads)
      (hId : C.id action.node =
        (p.session.node action.node).id)
      (hAddress : C.address action.node =
        P.address action.node)
      (hShaft : C.shaft = P.shaft)
      (hActs : Building.Acts C p.building action b)
      (hClock :
        ∀ e ∈ (b.node action.node).globalState.elevators,
          Fits 8 e.timestamp) :
      Step P p (p.acted action.node b)

/- No process has been started, and nothing has been sent. -/
structure Initial
    (p : Program ι) : Prop where
  session : p.session = Session.initial
  changes : p.building.changes = []
  commands : p.building.commands = []
  recoveries : p.building.recoveries = []
  history : p.building.history = []
  reported : ∀ i, p.building.reported i = []
  handled : ∀ i, p.building.handled i = []
  running : ∀ i, p.running i = false

/- The program from before any process runs. -/
def system
    [Fintype ι]
    (P : Premises ι) : TransitionSystem (Program ι) where
  Init := Initial
  Step := Step P

end Program

end ElevatorControl
