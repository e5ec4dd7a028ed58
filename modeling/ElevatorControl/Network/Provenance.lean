import ElevatorControl.Network.Building
import ElevatorControl.Scheduler.Obligations

/-
  Where the contents of a building's queues come from.

  Whatever is lost, delayed or delivered twice, and whichever
  nodes crash, every change that waits, is known or is sent
  has been reported by an elevator, and every command stands
  for a hall button that somebody has pressed or for a floor
  that has been served.

  Key definitions include:
    * `Building.Asked`
    * `Building.Traced` and `Building.Known`
    * `Building.CommandAccounted`
    * `Building.Inv`

  Key theorems include:
    * `Building.inv_of_step`
    * `Building.inv_of_reachable`
-/

------------------------------------------------------------
-- Origins
------------------------------------------------------------

namespace ElevatorControl

open LittleEndian

namespace Building

open Scheduler

/- An elevator has reported a press of the hall button. -/
def Asked
    (history : List StateChange)
    (x : CallDirection)
    (f : Int) : Prop :=
  ∃ c ∈ history, c.Presses x f

/- The change has been reported, and may have been stamped
again since. -/
def Traced
    (history : List StateChange)
    (c : StateChange) : Prop :=
  ∃ r ∈ history, ∃ timestamp,
    c = { r with state.timestamp := timestamp }

/- The state has been reported, and may have been stamped
again since. -/
def Known
    (history : List StateChange)
    (e : ElevatorState) : Prop :=
  ∃ r ∈ history, ∃ timestamp,
    e = { r.state with timestamp := timestamp }

variable {ι : Type}

/-
  The command is for one elevator of the building or for all,
  and names a floor. Somebody has asked for what it calls or
  lights, and the floor whose lamp it turns off has been
  served.
-/
structure CommandAccounted
    (C : Site ι)
    (history : List StateChange)
    (c : Command) : Prop where
  inRange : C.info.InRange c.targetFloor
  target : c.targetElevatorId = Command.anyId ∨
    ∃ i, c.targetElevatorId = C.id i
  asked : ∀ x : CallDirection,
    c.commandType = x.call ∨ c.commandType = x.turnOn →
      Asked history x c.targetFloor
  served : ∀ x : CallDirection, c.commandType = x.turnOff →
    ∃ r ∈ history, r.changeType = x.served ∧
      r.changeFloor = c.targetFloor

/- What a thread of the scheduler still has to do is
accounted for. -/
def OpAccounted
    (C : Site ι)
    (history : List StateChange) : Op → Prop
  | .update state => Known history state
  | .propagate update => Traced history update
  | .forward comm => CommandAccounted C history comm
  | .optimalElevator type floor =>
      C.info.InRange floor ∧
        ∃ x : CallDirection, type = x.button ∧
          Asked history x floor
  | .resend r => CommandAccounted C history r.command
  | .reschedule r => CommandAccounted C history r.command
  | .push r => CommandAccounted C history r.command
  | .ackRequest change _ => Traced history change

/- A node whose data all have an origin. -/
structure NodeInv
    (C : Site ι)
    (history : List StateChange)
    (i : ι)
    (n : Node) : Prop where
  reporting : Loop.Reporting C.info (C.id i)
    n.elevator.outState (Asked history) n.elevator
  waiting : ∀ c ∈ n.elevator.outState, Traced history c
  known : ∀ e ∈ n.globalState.elevators, Known history e
  sched : ∀ op ∈ n.schedOps, OpAccounted C history op
  req : ∀ op ∈ n.reqOps, OpAccounted C history op
  requests : ∀ t ∈ n.requests.list,
    CommandAccounted C history t.request.command
  toLocal : ∀ c ∈ n.commands.toLocal,
    CommandAccounted C history c ∧
      (c.targetElevatorId = C.id i ∨
        c.targetElevatorId = Command.anyId)
  toRemote : ∀ c ∈ n.commands.toRemote,
    CommandAccounted C history c
  out : ∀ c ∈ n.stateUpdateOut, Traced history c

/- Everything in the building has an origin. -/
structure Inv
    (C : Site ι)
    (s : Building ι) : Prop where
  nodes : ∀ i, NodeInv C s.history i (s.node i)
  history : ∀ c ∈ s.history,
    c.Accounted C.info (Asked s.history)
  ids : ∀ c ∈ s.history, ∃ i, c.state.id = C.id i
  changes : ∀ p ∈ s.changes, p.1 ≠ IPv4Address.any ∧
    ∃ c, Traced s.history c ∧
      p.2 = QueueReceiver.changePacket c
  commands : ∀ p ∈ s.commands, p.1 ≠ IPv4Address.any ∧
    ∃ c, CommandAccounted C s.history c ∧
      p.2 = QueueReceiver.commandPacket c
  recoveries : ∀ p ∈ s.recoveries,
    ∃ e, Known s.history e ∧ e.id = C.id p.1 ∧
      p.2 = (Wire.ofElevatorState e).received

------------------------------------------------------------
-- Longer Histories
------------------------------------------------------------

section Histories

variable {C : Site ι}
variable {history new : List StateChange}
variable {i : ι}

theorem Asked.mono
    {x : CallDirection}
    {f : Int}
    (hAsked : Asked history x f) :
    Asked (history ++ new) x f := by
  rcases hAsked with ⟨c, hc, hPresses⟩
  exact ⟨c, List.mem_append_left new hc, hPresses⟩

theorem Traced.mono
    {c : StateChange}
    (hTraced : Traced history c) :
    Traced (history ++ new) c := by
  rcases hTraced with ⟨r, hr, hSame⟩
  exact ⟨r, List.mem_append_left new hr, hSame⟩

theorem Known.mono
    {e : ElevatorState}
    (hKnown : Known history e) :
    Known (history ++ new) e := by
  rcases hKnown with ⟨r, hr, hSame⟩
  exact ⟨r, List.mem_append_left new hr, hSame⟩

theorem CommandAccounted.mono
    {c : Command}
    (hCommand : CommandAccounted C history c) :
    CommandAccounted C (history ++ new) c where
  inRange := hCommand.inRange
  target := hCommand.target
  asked x hType := (hCommand.asked x hType).mono
  served x hType := by
    rcases hCommand.served x hType with ⟨r, hr, hServed⟩
    exact ⟨r, List.mem_append_left new hr, hServed⟩

theorem OpAccounted.mono
    {op : Op}
    (hOp : OpAccounted C history op) :
    OpAccounted C (history ++ new) op := by
  cases op with
  | update state => exact Known.mono hOp
  | propagate update => exact Traced.mono hOp
  | forward comm => exact CommandAccounted.mono hOp
  | optimalElevator type floor =>
      rcases hOp with ⟨hf, x, hType, hAsked⟩
      exact ⟨hf, x, hType, hAsked.mono⟩
  | resend r => exact CommandAccounted.mono hOp
  | reschedule r => exact CommandAccounted.mono hOp
  | push r => exact CommandAccounted.mono hOp
  | ackRequest change newDeadlineDelta => exact Traced.mono hOp

/- What holds of the elevator between two iterations holds
with a longer history. -/
theorem reporting_mono
    {s : Loop}
    (hReporting : Loop.Reporting C.info (C.id i) s.outState
      (Asked history) s) :
    Loop.Reporting C.info (C.id i) s.outState
      (Asked (history ++ new)) s := by
  apply hReporting.rebase (fun _ _ => Asked.mono)
  intro c hc
  unfold Loop.fresh at hc
  rw [List.drop_length] at hc
  exact absurd hc List.not_mem_nil

theorem NodeInv.mono
    {n : Node}
    (hNode : NodeInv C history i n) :
    NodeInv C (history ++ new) i n where
  reporting := reporting_mono hNode.reporting
  waiting c hc := (hNode.waiting c hc).mono
  known e he := (hNode.known e he).mono
  sched op hOp := (hNode.sched op hOp).mono
  req op hOp := (hNode.req op hOp).mono
  requests t ht := (hNode.requests t ht).mono
  toLocal c hc :=
    ⟨(hNode.toLocal c hc).1.mono, (hNode.toLocal c hc).2⟩
  toRemote c hc := (hNode.toRemote c hc).mono
  out c hc := (hNode.out c hc).mono

end Histories

------------------------------------------------------------
-- Reported Changes
------------------------------------------------------------

section Reported

variable {C : Site ι}
variable {history : List StateChange}
variable {i : ι}

/- A new timestamp changes nothing that is accounted for. -/
theorem Traced.accounted
    {c : StateChange}
    (hHistory : ∀ r ∈ history,
      r.Accounted C.info (Asked history))
    (hTraced : Traced history c) :
    c.Accounted C.info (Asked history) := by
  rcases hTraced with ⟨r, hr, timestamp, rfl⟩
  have hReport := hHistory r hr
  exact ⟨hReport.state.stamped timestamp r.state.direction,
    hReport.floor, hReport.pressed, hReport.served⟩

theorem Traced.known
    {c : StateChange}
    (hTraced : Traced history c) :
    Known history c.state := by
  rcases hTraced with ⟨r, hr, timestamp, rfl⟩
  exact ⟨r, hr, timestamp, rfl⟩

theorem Traced.stamp
    {c : StateChange}
    (now : MillisecondTime)
    (hTraced : Traced history c) :
    Traced history { c with state.timestamp := now } := by
  rcases hTraced with ⟨r, hr, timestamp, rfl⟩
  exact ⟨r, hr, now, rfl⟩

theorem Traced.asked
    {c : StateChange}
    {x : CallDirection}
    (hTraced : Traced history c)
    (hPressed : c.changeType = x.pressed) :
    Asked history x c.changeFloor := by
  rcases hTraced with ⟨r, hr, timestamp, rfl⟩
  exact ⟨r, hr, hPressed, rfl⟩

theorem Known.stamp
    {e : ElevatorState}
    (now : MillisecondTime)
    (hKnown : Known history e) :
    Known history { e with timestamp := now } := by
  rcases hKnown with ⟨r, hr, timestamp, rfl⟩
  exact ⟨r, hr, now, rfl⟩

theorem Known.accounted
    {e : ElevatorState}
    (hHistory : ∀ r ∈ history,
      r.Accounted C.info (Asked history))
    (hKnown : Known history e) :
    e.Accounted C.info (Asked history) := by
  rcases hKnown with ⟨r, hr, timestamp, rfl⟩
  exact (hHistory r hr).state.stamped timestamp
    r.state.direction

theorem Known.id
    {e : ElevatorState}
    (hIds : ∀ c ∈ history, ∃ i, c.state.id = C.id i)
    (hKnown : Known history e) :
    ∃ i, e.id = C.id i := by
  rcases hKnown with ⟨r, hr, timestamp, rfl⟩
  exact hIds r hr

/- The floors and ids of a building survive the wire. -/
theorem fits_inRange
    {f : Int}
    (hf : f = intMin ∨ C.info.InRange f) :
    Fits 4 f := by
  have hTop := C.top
  have hSentinel := C.shaft.sentinel
  unfold intMax at hTop
  unfold intMin at hSentinel hf
  unfold Fits
  rcases hf with hNone | ⟨hLow, hHigh⟩
  · omega
  · change C.shaft.minFloor ≤ f at hLow
    change f ≤ C.shaft.maxFloor at hHigh
    omega

theorem fits_id
    (C : Site ι)
    (i : ι) :
    Fits 4 (C.id i) := by
  have hLow := C.id_nonneg i
  have hHigh := C.id_lt i
  unfold Command.anyId intMax at hHigh
  unfold Fits
  omega

theorem Traced.carried
    {c : StateChange}
    (hHistory : ∀ r ∈ history,
      r.Accounted C.info (Asked history))
    (hIds : ∀ r ∈ history, ∃ i, r.state.id = C.id i)
    (hTraced : Traced history c) :
    Wire.Carried c := by
  have hChange := hTraced.accounted hHistory
  rcases hTraced.known.id hIds with ⟨i, hId⟩
  refine ⟨fits_inRange hChange.floor, ?_,
    fits_inRange (Or.inr hChange.state.lastFloor)⟩
  rw [hId]
  exact fits_id C i

theorem CommandAccounted.carried
    {c : Command}
    (hCommand : CommandAccounted C history c) :
    (Wire.ofCommand c).InRange := by
  apply Wire.inRange_ofCommand
  · rcases hCommand.target with hAny | ⟨i, hId⟩
    · rw [hAny]
      decide
    · rw [hId]
      exact fits_id C i
  · exact fits_inRange (Or.inr hCommand.inRange)

end Reported

------------------------------------------------------------
-- Operations of the Threads
------------------------------------------------------------

section Operations

variable {C : Site ι}
variable {history : List StateChange}
variable {i : ι}

/- The command that lights the lamps of a button. -/
theorem accounted_turnOn
    {x : CallDirection}
    {f : Int}
    (hf : C.info.InRange f)
    (hAsked : Asked history x f) :
    CommandAccounted C history
      ⟨x.turnOn, Command.anyId, f⟩ where
  inRange := hf
  target := Or.inl rfl
  asked y hType := by
    cases x <;> cases y <;>
      first | exact hAsked | simp [CallDirection.call,
        CallDirection.turnOn] at hType
  served y hType := by
    cases x <;> cases y <;> cases hType

/- The command that calls an elevator of the building. -/
theorem accounted_call
    {x : CallDirection}
    {f : Int}
    (hf : C.info.InRange f)
    (hAsked : Asked history x f)
    (i : ι) :
    CommandAccounted C history ⟨x.call, C.id i, f⟩ where
  inRange := hf
  target := Or.inr ⟨i, rfl⟩
  asked y hType := by
    cases x <;> cases y <;>
      first | exact hAsked | simp [CallDirection.call,
        CallDirection.turnOn] at hType
  served y hType := by
    cases x <;> cases y <;> cases hType

/- The command that turns off the lamp of a floor that has
been served. -/
theorem accounted_turnOff
    {x : CallDirection}
    {c : StateChange}
    (hHistory : ∀ r ∈ history,
      r.Accounted C.info (Asked history))
    (hTraced : Traced history c)
    (hServed : c.changeType = x.served)
    (i : ι) :
    CommandAccounted C history
      ⟨x.turnOff, C.id i, c.changeFloor⟩ where
  inRange := (hTraced.accounted hHistory).served x hServed
  target := Or.inr ⟨i, rfl⟩
  asked y hType := by
    cases x <;> cases y <;>
      simp [CallDirection.call, CallDirection.turnOn,
        CallDirection.turnOff] at hType
  served y hType := by
    rcases hTraced with ⟨r, hr, timestamp, rfl⟩
    refine ⟨r, hr, ?_, rfl⟩
    cases x <;> cases y <;>
      first | exact hServed | cases hType

/- A press is answered with its lamp and with a choice. -/
theorem accounted_handleButtonPress
    {x : CallDirection}
    {f updateElId : Int}
    (hf : C.info.InRange f)
    (hAsked : Asked history x f) :
    ∀ op ∈ handleButtonPress (C.id i) updateElId x.button f,
      OpAccounted C history op := by
  intro op hOp
  have hLight : (if x.button = ButtonType.callUp then
      CommandType.turnOnLightUp else .turnOnLightDown) =
        x.turnOn := by
    cases x with
    | up => rfl
    | down => rfl
  unfold handleButtonPress at hOp
  rw [hLight] at hOp
  rcases List.mem_cons.mp hOp with rfl | hRest
  · exact accounted_turnOn hf hAsked
  · split at hRest
    · rw [List.mem_singleton.mp hRest]
      exact ⟨hf, x, rfl, hAsked⟩
    · exact absurd hRest List.not_mem_nil

/- What is done for a change that has been reported. -/
theorem accounted_schedLoop
    {c : StateChange}
    (hHistory : ∀ r ∈ history,
      r.Accounted C.info (Asked history))
    (hTraced : Traced history c) :
    ∀ op ∈ schedLoop (C.id i) c, OpAccounted C history op := by
  have hChange := hTraced.accounted hHistory
  have hHandle : ∀ op ∈ handleChange (C.id i) c,
      OpAccounted C history op := by
    have hPress : ∀ x : CallDirection,
        c.changeType = x.pressed →
        ∀ op ∈ handleButtonPress (C.id i) c.state.id
            x.button c.changeFloor,
          OpAccounted C history op := by
      intro x hType
      exact accounted_handleButtonPress
        (hChange.pressed x hType).inRange
        (hTraced.asked hType)
    have hServe : ∀ x : CallDirection,
        c.changeType = x.served →
        ∀ op ∈ [Op.forward
            ⟨x.turnOff, C.id i, c.changeFloor⟩,
            .ackRequest c 0],
          OpAccounted C history op := by
      intro x hType op hOp
      rcases List.mem_cons.mp hOp with rfl | hRest
      · exact accounted_turnOff hHistory hTraced hType i
      · rw [List.mem_singleton.mp hRest]
        exact hTraced
    have hNone : ∀ op ∈ ([] : List Op),
        OpAccounted C history op :=
      fun op hOp => absurd hOp List.not_mem_nil
    have hAck : ∀ op ∈ [Op.ackRequest c (30 * 1000)],
        OpAccounted C history op := by
      intro op hOp
      rw [List.mem_singleton.mp hOp]
      exact hTraced
    unfold handleChange
    cases hType : c.changeType with
    | none => exact hNone
    | keepAlive => exact hNone
    | insideButtonPresed => exact hNone
    | buttonDownPressed => exact hPress .down hType
    | buttonUpPressed => exact hPress .up hType
    | goingToServeUp => exact hAck
    | goingToServeDown => exact hAck
    | served => exact hNone
    | servedUp => exact hServe .up hType
    | servedDown => exact hServe .down hType
    | otherChange => exact hNone
  intro op hOp
  unfold schedLoop at hOp
  rcases List.mem_cons.mp hOp with rfl | hRest
  · exact hTraced.known
  rcases List.mem_append.mp hRest with hOwn | hOther
  · split at hOwn
    · rw [List.mem_singleton.mp hOwn]
      exact hTraced
    · exact absurd hOwn List.not_mem_nil
  · exact hHandle op hOther

/- A request is pushed and its command forwarded. -/
theorem accounted_pushAndForward
    {r : Request}
    {clock : TimePoint}
    (hRequest : CommandAccounted C history r.command) :
    ∀ op ∈ pushAndForward r clock,
      OpAccounted C history op := by
  intro op hOp
  rcases List.mem_cons.mp hOp with rfl | hRest
  · exact hRequest
  · rw [List.mem_singleton.mp hRest]
    exact hRequest

theorem accounted_resendRequest
    {r : Request}
    {clock : TimePoint}
    (hRequest : CommandAccounted C history r.command) :
    ∀ op ∈ resendRequest r clock,
      OpAccounted C history op := by
  unfold resendRequest
  dsimp only
  split
  · intro op hOp
    rw [List.mem_singleton.mp hOp]
    exact hRequest
  · exact accounted_pushAndForward hRequest

/- Another elevator of the building gets the request. -/
theorem accounted_rescheduled
    {r : Request}
    {minId : Int}
    (hRequest : CommandAccounted C history r.command)
    (hId : ∃ i, minId = C.id i) :
    CommandAccounted C history
      (rescheduled r minId).command where
  inRange := hRequest.inRange
  target := Or.inr hId
  asked := hRequest.asked
  served := hRequest.served

theorem accounted_callElevator
    {x : CallDirection}
    {f minId : Int}
    {clock : TimePoint}
    (hf : C.info.InRange f)
    (hAsked : Asked history x f)
    (hId : ∃ i, minId = C.id i) :
    ∀ op ∈ callElevator x.button f minId clock,
      OpAccounted C history op := by
  rcases hId with ⟨i, rfl⟩
  intro op hOp
  unfold callElevator at hOp
  rw [Node.callType_eq] at hOp
  rcases List.mem_cons.mp hOp with rfl | hRest
  · exact accounted_call hf hAsked i
  · rw [List.mem_singleton.mp hRest]
    exact accounted_call hf hAsked i

end Operations

------------------------------------------------------------
-- Steps of One Node
------------------------------------------------------------

section Nodes

variable {C : Site ι}
variable {history : List StateChange}
variable {i : ι}
variable {n t : Node}

/- An operation leaves a node with an origin for everything,
and so has what comes after it. -/
theorem nodeInv_executeAs
    {now : MillisecondTime}
    {clock : TimePoint}
    {op : Op}
    {next : List Op}
    (hIds : ∀ r ∈ history, ∃ i, r.state.id = C.id i)
    (hNode : NodeInv C history i n)
    (hOp : OpAccounted C history op)
    (hExec : n.executeAs (C.id i) C.info now clock op =
      .ok (t, next)) :
    NodeInv C history i t ∧
      ∀ op ∈ next, OpAccounted C history op := by
  have hNone : ∀ op ∈ ([] : List Op),
      OpAccounted C history op :=
    fun op hOp => absurd hOp List.not_mem_nil
  have hChosen : ∀ type floor minId,
      optimalElevator C.info now type floor
        n.globalState.elevators = .ok minId →
      ∃ j, minId = C.id j := by
    intro type floor minId hBest
    rcases optimalElevator_mem hBest with ⟨e, he, rfl⟩
    exact (hNode.known e he).id hIds
  cases op with
  | update state =>
      cases hExec
      refine ⟨{ hNode with known := ?_ }, hNone⟩
      intro e he
      rcases GlobalState.mem_update he with hNew | hOld
      · rw [hNew]
        exact hOp
      · exact hNode.known e hOld
  | propagate update =>
      cases hExec
      refine ⟨{ hNode with out := ?_ }, hNone⟩
      intro c hc
      rcases List.mem_append.mp hc with hOld | hNew
      · exact hNode.out c hOld
      · rw [List.mem_singleton.mp hNew]
        exact hOp
  | forward comm =>
      rw [Node.executeAs_forward] at hExec
      cases hExec
      refine ⟨{ hNode with toLocal := ?_, toRemote := ?_ },
        hNone⟩
      · intro c hc
        rw [CommandQueues.toLocal_forwardToTargets] at hc
        split_ifs at hc with hHere
        · rcases List.mem_append.mp hc with hOld | hNew
          · exact hNode.toLocal c hOld
          · rw [List.mem_singleton.mp hNew]
            exact ⟨hOp, hHere.symm⟩
        · exact hNode.toLocal c hc
      · intro c hc
        rw [CommandQueues.toRemote_forwardToTargets] at hc
        split_ifs at hc
        · rcases List.mem_append.mp hc with hOld | hNew
          · exact hNode.toRemote c hOld
          · rw [List.mem_singleton.mp hNew]
            exact hOp
        · exact hNode.toRemote c hc
  | optimalElevator type floor =>
      rcases hOp with ⟨hf, x, rfl, hAsked⟩
      rcases Node.exists_of_choose hExec with
        ⟨rfl, minId, hBest, rfl⟩
      exact ⟨hNode, accounted_callElevator hf hAsked
        (hChosen _ _ _ hBest)⟩
  | resend r =>
      cases hExec
      exact ⟨hNode, accounted_resendRequest hOp⟩
  | reschedule r =>
      rcases Node.exists_of_reschedule hExec with
        ⟨rfl, minId, hBest, rfl⟩
      exact ⟨hNode, accounted_pushAndForward
        (accounted_rescheduled hOp (hChosen _ _ _ hBest))⟩
  | push r =>
      cases hExec
      exact ⟨{ hNode with
        requests :=
          RequestQueue.commands_push hNode.requests hOp },
        hNone⟩
  | ackRequest change newDeadlineDelta =>
      cases hExec
      exact ⟨{ hNode with
        requests :=
          RequestQueue.commands_ackRequest hNode.requests },
        hNone⟩

/- The operations that follow are done before the rest. -/
theorem accounted_append
    {op : Op}
    {ops next : List Op}
    (hNext : ∀ op ∈ next, OpAccounted C history op)
    (hOps : ∀ op' ∈ op :: ops, OpAccounted C history op') :
    ∀ op ∈ next ++ ops, OpAccounted C history op := by
  intro op' hOp
  rcases List.mem_append.mp hOp with hNew | hRest
  · exact hNext op' hNew
  · exact hOps op' (List.mem_cons_of_mem op hRest)

theorem nodeInv_take
    (clock : TimePoint)
    (hNode : NodeInv C history i n) :
    NodeInv C history i (n.take clock) := by
  have hTake := RequestQueue.takeDue_mem n.requests clock
  refine { hNode with req := ?_, requests := ?_ }
  · intro op hOp
    rcases SchedulerState.mem_reqOps_take hOp with
      hOld | ⟨t, ht, rfl⟩
    · exact hNode.req op hOld
    · exact hNode.requests t ht
  · exact fun t ht => hNode.requests t (hTake.1 t ht)

theorem nodeInv_pass
    (d0 clock : TimePoint)
    (hNode : NodeInv C history i n) :
    NodeInv C history i (n.pass d0 clock) := by
  have hCleaned : NodeInv C history i n.cleaned :=
    { hNode with
      requests := RequestQueue.commands_clean hNode.requests }
  rw [Node.pass_eq]
  split
  · exact nodeInv_take clock hCleaned
  · exact { hCleaned with }

/- A step of a scheduler thread. -/
theorem nodeInv_threads
    (hIds : ∀ r ∈ history, ∃ i, r.state.id = C.id i)
    (hNode : NodeInv C history i n)
    {event : Node.Event}
    (hStep : Node.Threads Node.AnyTime C.info (C.id i)
      n event t) :
    NodeInv C history i t := by
  have hNone : ∀ op ∈ ([] : List Op),
      OpAccounted C history op :=
    fun op hOp => absurd hOp List.not_mem_nil
  cases hStep with
  | schedule t op ops next now clock hOps hTime hExec =>
      have hSched := hNode.sched
      rw [hOps] at hSched
      rcases nodeInv_executeAs hIds hNode
        (hSched op List.mem_cons_self) hExec with
        ⟨hNode', hNext⟩
      exact { hNode' with
        sched := accounted_append hNext hSched }
  | scheduleFails op ops now clock e hOps hTime hExec =>
      exact { hNode with sched := hNone }
  | wait d0 hIdle hDone => exact { hNode with }
  | pass d0 clock hCalled => exact nodeInv_pass _ _ hNode
  | wake d0 deadline now hBlocked => exact { hNode with }
  | expire d0 deadline now hBlocked =>
      exact nodeInv_take _ hNode
  | check t op ops next now clock hOps hTime hExec =>
      have hReq := hNode.req
      rw [hOps] at hReq
      rcases nodeInv_executeAs hIds hNode
        (hReq op List.mem_cons_self) hExec with
        ⟨hNode', hNext⟩
      exact { hNode' with
        req := accounted_append hNext hReq }
  | checkFails op ops now clock e hOps hTime hExec =>
      exact { hNode with req := hNone }

/- The queue of changes has changed, and all its changes have
an origin. -/
theorem nodeInv_requeue
    {queue : List StateChange}
    (hNode : NodeInv C history i n)
    (hQueue : ∀ c ∈ queue, Traced history c) :
    NodeInv C history i
      { n with
        elevator := { n.elevator with outState := queue } } :=
  { hNode with
    reporting := hNode.reporting.requeue queue
    waiting := hQueue }

/- A node that starts knows at most the state it has been
sent. -/
theorem nodeInv_started
    {s t : Loop}
    (hState : s.elevState.Accounted C.info (Asked history))
    (hId : s.elevState.id = C.id i)
    (hOut : s.outState = [])
    (hEnter : Loop.enter C.info s = .ok () t) :
    NodeInv C history i (Node.started t) := by
  have hFresh : Loop.fresh [] s = [] := by
    unfold Loop.fresh
    rw [hOut]
    rfl
  have hReporting : Loop.Reporting C.info (C.id i) []
      (Asked history) t := by
    rw [← hId]
    apply Loop.reporting_of_enter hState List.nil_prefix
      _ _ hEnter
    · rw [hFresh]
      exact fun c hc => absurd hc List.not_mem_nil
    · rw [hFresh]
      exact fun c hc => absurd hc List.not_mem_nil
  have hEmpty : t.outState = [] :=
    (Loop.outState_of_enter hEnter).trans hOut
  refine ⟨?_, ?_, ?_, ?_, ?_, ?_, ?_, ?_, ?_⟩
  · unfold Node.started
    rw [hEmpty]
    exact hReporting
  · intro c hc
    unfold Node.started at hc
    rw [hEmpty] at hc
    exact absurd hc List.not_mem_nil
  all_goals exact fun _ h => absurd h List.not_mem_nil

end Nodes

------------------------------------------------------------
-- Steps of the Building
------------------------------------------------------------

section Steps

variable [DecidableEq ι]
variable {C : Site ι}
variable {s s' : Building ι}
variable {i : ι}

/- One node has changed, and nothing has been reported. -/
theorem Inv.put
    {n : Node}
    (hInv : Inv C s)
    (hNode : NodeInv C s.history i n) :
    Inv C (s.put i n) := by
  refine { hInv with nodes := ?_ }
  intro j
  change NodeInv C s.history j
    (Function.update s.node i n j)
  by_cases hSame : j = i
  · rw [hSame, Function.update_self]
    exact hNode
  · rw [Function.update_of_ne hSame]
    exact hInv.nodes j

theorem Inv.started
    {n : Node}
    (hInv : Inv C s)
    (hNode : NodeInv C s.history i n) :
    Inv C (s.started i n) :=
  { hInv.put hNode with }

omit [DecidableEq ι] in
/- The command an elevator takes is for it and stands for a
press. -/
theorem caused_of_head
    {inputs : Inputs}
    (hInv : Inv C s)
    (hCommand : inputs.tryDequeue =
      (s.node i).commands.toLocal.head?) :
    inputs.Addressed C.info (C.id i) ∧
      inputs.Caused (Asked s.history) := by
  have hHead : ∀ c, inputs.tryDequeue = some c →
      CommandAccounted C s.history c ∧
        (c.targetElevatorId = C.id i ∨
          c.targetElevatorId = Command.anyId) := by
    intro c hc
    rw [hCommand] at hc
    exact (hInv.nodes i).toLocal c (List.mem_of_head? hc)
  exact ⟨fun c hc => ⟨(hHead c hc).1.inRange, (hHead c hc).2⟩,
    fun c hc => (hHead c hc).1.asked⟩

omit [DecidableEq ι] in
/- An elevator takes a command that waited for it, or
leaves the queue. -/
theorem taken_mem
    (C : Site ι)
    (n : Node)
    (inputs : Inputs) :
    (∀ c ∈ (n.taken C.info inputs).toLocal,
      c ∈ n.commands.toLocal) ∧
      (n.taken C.info inputs).toRemote =
        n.commands.toRemote := by
  unfold Node.taken
  split
  · exact ⟨fun c hc => List.mem_of_mem_tail hc, rfl⟩
  · exact ⟨fun c hc => hc, rfl⟩

/- What an iteration reports belongs to the history. -/
theorem inv_of_elevator
    {inputs : Inputs}
    {t : Loop}
    (hInv : Inv C s)
    (hCommand : inputs.tryDequeue =
      (s.node i).commands.toLocal.head?)
    (hSensed : inputs.Sensed C.info)
    (hStep : Loop.Step C.info inputs (s.node i).elevator t) :
    Inv C (s.iterated C i inputs t) := by
  have hNode := hInv.nodes i
  have hReporting := Loop.reporting_of_step hSensed
    (caused_of_head hInv hCommand).2 hNode.reporting hStep
  let new := Loop.fresh (s.node i).elevator.outState t
  have hOut : t.outState =
      (s.node i).elevator.outState ++ new :=
    hReporting.outState_eq
  have hNewTraced : ∀ c ∈ new,
      Traced (s.history ++ new) c := by
    intro c hc
    exact ⟨c, List.mem_append_right _ hc,
      c.state.timestamp, rfl⟩
  have hTaken := taken_mem C (s.node i) inputs
  have hNode' : NodeInv C (s.history ++ new) i
      { s.node i with
        elevator := t
        commands := (s.node i).taken C.info inputs } := by
    have hOld : NodeInv C (s.history ++ new) i (s.node i) :=
      hNode.mono
    refine { hOld with
      reporting := ?_, waiting := ?_, toLocal := ?_,
      toRemote := ?_ }
    · apply hReporting.rebase (fun _ _ => Asked.mono)
      intro c hc x f hPresses
      exact ⟨c, List.mem_append_right _ hc, hPresses⟩
    · change ∀ c ∈ t.outState, Traced (s.history ++ new) c
      rw [hOut]
      intro c hc
      rcases List.mem_append.mp hc with hWaited | hNew
      · exact hOld.waiting c hWaited
      · exact hNewTraced c hNew
    · exact fun c hc => hOld.toLocal c (hTaken.1 c hc)
    · change ∀ c ∈ ((s.node i).taken C.info inputs).toRemote,
        CommandAccounted C (s.history ++ new) c
      rw [hTaken.2]
      exact hOld.toRemote
  refine ⟨?_, ?_, ?_, ?_, ?_, ?_⟩
  · intro j
    change NodeInv C (s.history ++ new) j
      (Function.update s.node i _ j)
    by_cases hSame : j = i
    · rw [hSame, Function.update_self]
      exact hNode'
    · rw [Function.update_of_ne hSame]
      exact (hInv.nodes j).mono
  · intro c hc
    rcases List.mem_append.mp hc with hOld | hNew
    · exact (hInv.history c hOld).mono fun _ _ => Asked.mono
    · exact (hReporting.reports c hNew).mono
        fun _ _ => Asked.mono
  · intro c hc
    rcases List.mem_append.mp hc with hOld | hNew
    · exact hInv.ids c hOld
    · exact ⟨i, hReporting.own c hNew⟩
  · intro p hp
    rcases hInv.changes p hp with ⟨hSource, c, hc, hSame⟩
    exact ⟨hSource, c, hc.mono, hSame⟩
  · intro p hp
    rcases hInv.commands p hp with ⟨hSource, c, hc, hSame⟩
    exact ⟨hSource, c, hc.mono, hSame⟩
  · intro p hp
    rcases hInv.recoveries p hp with ⟨e, he, hId, hSame⟩
    exact ⟨e, he.mono, hId, hSame⟩

omit [DecidableEq ι] in
/- A receiver enqueues only what has been reported. -/
theorem traced_stateChangesIn
    {source : IPv4Address}
    {datagram : List UInt8}
    {now : MillisecondTime}
    (hInv : Inv C s)
    (hSent : (source, datagram) ∈ s.changes)
    (i : ι) :
    ∀ c ∈ (QueueReceiver.stateChangesIn (C.id i) now source
        datagram).toList,
      Traced s.history c ∧ c.state.id ≠ C.id i := by
  intro c hc
  rcases hInv.changes _ hSent with
    ⟨hSource, r, hTraced, hBytes⟩
  dsimp only at hSource hBytes
  rw [hBytes, QueueReceiver.stateChangesIn_packet
    (hTraced.carried hInv.history hInv.ids) hSource] at hc
  split_ifs at hc with hOther
  · rw [Option.toList_some, List.mem_singleton] at hc
    rw [hc]
    exact ⟨hTraced.stamp now, hOther⟩
  · exact absurd hc List.not_mem_nil

omit [DecidableEq ι] in
theorem accounted_commandsToLocal
    {source : IPv4Address}
    {datagram : List UInt8}
    (hInv : Inv C s)
    (hSent : (source, datagram) ∈ s.commands)
    (i : ι) :
    ∀ c ∈ (QueueReceiver.commandsToLocal (C.id i) source
        datagram).toList,
      CommandAccounted C s.history c ∧
        c.targetElevatorId = C.id i := by
  intro c hc
  rcases hInv.commands _ hSent with
    ⟨hSource, r, hCommand, hBytes⟩
  dsimp only at hSource hBytes
  rw [hBytes, QueueReceiver.commandsToLocal_packet
    hCommand.carried hSource] at hc
  split_ifs at hc with hTarget
  · rw [Option.toList_some, List.mem_singleton] at hc
    rw [hc]
    exact ⟨hCommand, hTarget⟩
  · exact absurd hc List.not_mem_nil

omit [DecidableEq ι] in
/- The state of an elevator that starts without help. -/
theorem accounted_create
    (C : Site ι)
    (history : List StateChange)
    (i : ι)
    (driver : Driver) :
    (Loop.create C.info (C.id i) driver).elevState.Accounted
      C.info (Asked history) where
  nonneg := C.id_nonneg i
  lastFloor :=
    ⟨Int.le_refl _, Int.le_of_lt C.shaft.ordered⟩
  inside := FloorSet.within_empty
  calls x := by
    cases x with
    | up => exact FloorSet.within_empty
    | down => exact FloorSet.within_empty
  asked x f hf hMem := by
    have hEmpty :
        (Loop.create C.info (C.id i)
          driver).elevState.calls x = .empty := by
      cases x with
      | up => rfl
      | down => rfl
    rw [hEmpty, FloorSet.mem_empty] at hMem
    exact absurd hMem Bool.false_ne_true

/- Every step keeps the origins. -/
theorem inv_of_step
    [Fintype ι]
    (hInv : Inv C s)
    (hStep : Step C s s') :
    Inv C s' := by
  rcases hStep with ⟨action, hActs⟩
  cases hActs with
  | elevator i inputs t hCommand hSensed hStep =>
      exact inv_of_elevator hInv hCommand hSensed hStep
  | dequeue i update rest hIdle hOut =>
      have hNode := hInv.nodes i
      have hWaiting := hNode.waiting
      rw [hOut] at hWaiting
      have hRest := nodeInv_requeue hNode fun c hc =>
        hWaiting c (List.mem_cons_of_mem update hc)
      have hOps : ∀ op ∈ schedLoop (C.id i) update,
          OpAccounted C s.history op :=
        accounted_schedLoop hInv.history
          (hWaiting update List.mem_cons_self)
      have hNode' : NodeInv C s.history i
          { s.node i with
            elevator :=
              { (s.node i).elevator with outState := rest }
            handling := some update
            schedOps := schedLoop (C.id i) update } :=
        { hRest with sched := hOps }
      exact { hInv.put hNode' with }
  | threads i n hStep =>
      exact hInv.put (nodeInv_threads hInv.ids
        (hInv.nodes i) hStep)
  | sendChange i c rest hNodes hOut =>
      have hNode := hInv.nodes i
      have hQueue := hNode.out
      rw [hOut] at hQueue
      have hNode' : NodeInv C s.history i
          { s.node i with stateUpdateOut := rest } :=
        { hNode with
          out := fun c' hc' =>
            hQueue c' (List.mem_cons_of_mem c hc') }
      refine { hInv.put hNode' with changes := ?_ }
      intro p hp
      rcases List.mem_append.mp hp with hOld | hNew
      · exact hInv.changes p hOld
      · rw [List.mem_singleton.mp hNew]
        exact ⟨C.address_ne_any i, c,
          hQueue c List.mem_cons_self, rfl⟩
  | sendCommand i c rest hNodes hOut =>
      have hNode := hInv.nodes i
      have hQueue := hNode.toRemote
      rw [hOut] at hQueue
      have hNode' : NodeInv C s.history i
          { s.node i with
            commands :=
              { (s.node i).commands with
                toRemote := rest } } :=
        { hNode with
          toRemote := fun c' hc' =>
            hQueue c' (List.mem_cons_of_mem c hc') }
      refine { hInv.put hNode' with commands := ?_ }
      intro p hp
      rcases List.mem_append.mp hp with hOld | hNew
      · exact hInv.commands p hOld
      · rw [List.mem_singleton.mp hNew]
        exact ⟨C.address_ne_any i, c,
          hQueue c List.mem_cons_self, rfl⟩
  | receiveChange i source datagram now hNodes hSent =>
      apply hInv.put
      apply nodeInv_requeue (hInv.nodes i)
      intro c hc
      rcases List.mem_append.mp hc with hOld | hNew
      · exact (hInv.nodes i).waiting c hOld
      · exact (traced_stateChangesIn hInv hSent i c hNew).1
  | receiveCommand i source datagram hNodes hSent =>
      have hNode := hInv.nodes i
      apply hInv.put
      refine { hNode with toLocal := ?_ }
      intro c hc
      rcases List.mem_append.mp hc with hOld | hNew
      · exact hNode.toLocal c hOld
      · have hCommand :=
          accounted_commandsToLocal hInv hSent i c hNew
        exact ⟨hCommand.1, Or.inl hCommand.2⟩
  | assist i j state hNodes hGet =>
      refine { hInv with recoveries := ?_ }
      intro p hp
      rcases List.mem_append.mp hp with hOld | hNew
      · exact hInv.recoveries p hOld
      · rw [List.mem_singleton.mp hNew]
        have hMem := GlobalState.get_mem hGet
        exact ⟨state, (hInv.nodes i).known state hMem.1,
          hMem.2, rfl⟩
  | recover i w state driver t hNodes hSent hRead hEnter =>
      rcases hInv.recoveries _ hSent with
        ⟨e, hKnown, hId, hSame⟩
      dsimp only at hId hSame
      have hState : state =
          { e with timestamp := narrow 4 e.timestamp } := by
        have hWire :=
          Wire.toElevatorState_ofElevatorState
            { e with timestamp := narrow 4 e.timestamp }
        have hReceived : (Wire.ofElevatorState e).received =
            Wire.ofElevatorState
              { e with timestamp := narrow 4 e.timestamp } :=
          rfl
        rw [hSame, hReceived, hWire] at hRead
        exact (Option.some.inj hRead).symm
      have hKnown' : Known s.history state := by
        rw [hState]
        exact hKnown.stamp _
      have hNode := nodeInv_started (i := i)
        (s := Loop.recover state
          (Loop.create C.info (C.id i) driver))
        ((hKnown'.accounted hInv.history).stamped
          state.timestamp .none)
        (by
          rw [hState]
          exact hId) rfl hEnter
      apply hInv.started
      refine { hNode with known := ?_ }
      intro e' he'
      rcases GlobalState.mem_update he' with hNew | hOld
      · rw [hNew]
        exact hKnown'
      · exact absurd hOld List.not_mem_nil
  | restart i driver t hEnter =>
      exact hInv.started (nodeInv_started
        (accounted_create C s.history i driver) rfl rfl
        hEnter)

omit [DecidableEq ι] in
theorem inv_of_initial
    (hInit : Initial C s) :
    Inv C s := by
  refine ⟨?_, ?_, ?_, ?_, ?_, ?_⟩
  · intro i
    rcases hInit.nodes i with ⟨driver, t, hEnter, hNode⟩
    rw [hNode]
    exact nodeInv_started
      (accounted_create C s.history i driver) rfl rfl hEnter
  · rw [hInit.history]
    exact fun c hc => absurd hc List.not_mem_nil
  · rw [hInit.history]
    exact fun c hc => absurd hc List.not_mem_nil
  · rw [hInit.changes]
    exact fun p hp => absurd hp List.not_mem_nil
  · rw [hInit.commands]
    exact fun p hp => absurd hp List.not_mem_nil
  · rw [hInit.recoveries]
    exact fun p hp => absurd hp List.not_mem_nil

/- In every run everything has an origin. -/
theorem inv_of_reachable
    [Fintype ι]
    (hReach : (system C).Reachable s) :
    Inv C s :=
  hReach.invariant (fun _ => inv_of_initial)
    (fun _ _ => inv_of_step)

end Steps

------------------------------------------------------------
-- One Press
------------------------------------------------------------

/- Two nodes in a building with two floors. -/
def twoElevators : Site (Fin 2) where
  toCluster := Routing.twoNodes
  shaft := Loop.twoFloors
  top := by decide
  id_nonneg i := Int.natCast_nonneg i.val
  id_lt i := by
    have hLt := i.isLt
    change (i.val : Int) < Command.anyId
    unfold Command.anyId intMax
    omega

/- The hall button of the upper floor is pressed at the first
elevator, and its loop goes on. -/
theorem acts_press :
    ∃ (s₀ s : Building (Fin 2)) (st : ElevatorState),
      Initial twoElevators s₀ ∧
      Acts twoElevators s₀ (.iterate 0 Node.firstPress) s ∧
      Loop.Completes twoElevators.info Node.firstPress
        (s₀.node 0).elevator ∧
      (s.node 0).elevator.outState =
        [⟨.buttonDownPressed, 1, st⟩] ∧
      st.id = 0 ∧
      (s.node 0).schedOps = [] ∧
      (s.node 0).commands = .empty ∧
      Loop.lit .down 1 (s.node 0).elevator = true := by
  have hFirst : ∃ e e' : Loop, ∃ st,
      Loop.enter twoElevators.info
        (Loop.create twoElevators.info 0 Loop.darkDriver) =
          .ok () e ∧
      Loop.loopBody twoElevators.info Node.firstPress e =
        .ok () e' ∧
      e'.outState = [⟨.buttonDownPressed, 1, st⟩] ∧
      st.id = 0 ∧ Loop.lit .down 1 e' = true :=
    ⟨_, _, _, rfl, rfl, rfl, rfl, rfl⟩
  have hSecond : ∃ e : Loop,
      Loop.enter twoElevators.info
        (Loop.create twoElevators.info 1 Loop.darkDriver) =
          .ok () e :=
    ⟨_, rfl⟩
  rcases hFirst with
    ⟨e, e', st, hEnter, hRun, hOut, hId, hLit⟩
  rcases hSecond with ⟨e₁, hEnter₁⟩
  let s₀ : Building (Fin 2) :=
    ⟨fun i => if i = 0 then Node.started e
      else Node.started e₁, [], [], [], [], fun _ => [],
      fun _ => []⟩
  have hInit : Initial twoElevators s₀ := by
    refine ⟨?_, rfl, rfl, rfl, rfl, fun _ => rfl,
      fun _ => rfl⟩
    intro i
    match i with
    | 0 => exact ⟨Loop.darkDriver, e, hEnter, rfl⟩
    | 1 => exact ⟨Loop.darkDriver, e₁, hEnter₁, rfl⟩
  have hNone : (Node.started e).taken twoElevators.info
      Node.firstPress = .empty := by
    unfold Node.taken
    split
    · rfl
    · rfl
  exact ⟨s₀, _, st, hInit,
    Acts.elevator s₀ 0 Node.firstPress e' rfl
      (fun _ => Or.inl rfl) (Loop.Step.iterate hRun),
    ⟨e', hRun⟩, hOut, hId, rfl, hNone, hLit⟩

/- The scheduler handles the press until it has to choose. -/
theorem acts_lights
    {s : Building (Fin 2)}
    {st : ElevatorState}
    (hOut : (s.node 0).elevator.outState =
      [⟨.buttonDownPressed, 1, st⟩])
    (hId : st.id = 0)
    (hIdle : (s.node 0).schedOps = []) :
    ∃ s₁ s' : Building (Fin 2),
      Acts twoElevators s (.other 0) s₁ ∧
      (s₁.node 0).schedOps = schedLoop (twoElevators.id 0)
        ⟨.buttonDownPressed, 1, st⟩ ∧
      Path twoElevators s₁
        [.thread 0 (.executed (.update st)),
          .thread 0 (.executed
            (.propagate ⟨.buttonDownPressed, 1, st⟩)),
          .thread 0 (.executed (.forward
            ⟨.turnOnLightDown, Command.anyId, 1⟩))] s' ∧
      (⟨.turnOnLightDown, Command.anyId, 1⟩ : Command) ∈
        (s'.node 0).commands.toLocal ∧
      st ∈ (s'.node 0).globalState.elevators ∧
      (s'.node 0).schedOps =
        [.optimalElevator .callDown 1] := by
  have hOps : schedLoop (twoElevators.id 0)
      ⟨.buttonDownPressed, 1, st⟩ =
      [.update st, .propagate ⟨.buttonDownPressed, 1, st⟩,
        .forward ⟨.turnOnLightDown, Command.anyId, 1⟩,
        .optimalElevator .callDown 1] := by
    have hOwn : st.id = twoElevators.id 0 := hId
    unfold schedLoop handleChange handleButtonPress
    dsimp only
    rw [if_pos hOwn, if_pos hOwn]
    rfl
  have hTaken : Acts twoElevators s (.other 0)
      (s.dequeued twoElevators 0
        ⟨.buttonDownPressed, 1, st⟩ []) :=
    Acts.dequeue s 0 _ [] hIdle hOut
  have hNone : Path twoElevators
      (s.dequeued twoElevators 0
        ⟨.buttonDownPressed, 1, st⟩ []) [] _ :=
    Path.refl
  have hUpdated := hNone.tail (Acts.threads _ 0 _
    (Node.Threads.schedule _ _ _ _ _ 0 0 hOps trivial rfl))
  have hPropagated := hUpdated.tail (Acts.threads _ 0 _
    (Node.Threads.schedule _ _ _ _ _ 0 0 rfl trivial rfl))
  have hForwarded := hPropagated.tail (Acts.threads _ 0 _
    (Node.Threads.schedule _ _ _ _ _ 0 0 rfl trivial rfl))
  refine ⟨_, _, hTaken, rfl, hForwarded, ?_, ?_, rfl⟩
  · exact List.mem_append_right _ List.mem_cons_self
  · exact GlobalState.self_mem_update _ st

theorem reachable_pressed :
    ∃ (s : Building (Fin 2)) (st : ElevatorState),
      (system twoElevators).Reachable s ∧
      (s.node 0).elevator.outState =
        [⟨.buttonDownPressed, 1, st⟩] ∧
      st.id = 0 ∧
      (s.node 0).schedOps = [] ∧
      (s.node 0).commands = .empty ∧
      Loop.lit .down 1 (s.node 0).elevator = true := by
  rcases acts_press with
    ⟨s₀, s, st, hInit, hActs, _, hPressed⟩
  have hStart : (system twoElevators).Reachable s₀ :=
    TransitionSystem.Reachable.init hInit
  exact ⟨s, st, hStart.step ⟨_, hActs⟩, hPressed⟩

theorem reachable_lights :
    ∃ s : Building (Fin 2),
      (system twoElevators).Reachable s ∧
      (⟨.turnOnLightDown, Command.anyId, 1⟩ : Command) ∈
        (s.node 0).commands.toLocal ∧
      ∃ e, e ∈ (s.node 0).globalState.elevators := by
  rcases reachable_pressed with
    ⟨s, st, hReach, hOut, hId, hIdle, _⟩
  rcases acts_lights hOut hId hIdle with
    ⟨s₁, s', hTaken, -, hSteps, hQueued, hKnown, -⟩
  exact ⟨s', hSteps.reachable (hReach.step ⟨_, hTaken⟩),
    hQueued, st, hKnown⟩

------------------------------------------------------------
-- Results
------------------------------------------------------------

section Results

variable [Fintype ι]
variable [DecidableEq ι]
variable {C : Site ι}
variable {s s' : Building ι}
variable {i : ι}

omit [Fintype ι] [DecidableEq ι] in
/- The buttons that are asked for exist. -/
theorem hasButton_of_asked
    {x : CallDirection}
    {f : Int}
    (hInv : Inv C s)
    (hAsked : Asked s.history x f) :
    C.info.HasButton x f := by
  rcases hAsked with ⟨c, hc, hType, rfl⟩
  exact (hInv.history c hc).pressed x hType

/-
  In every run of the building a command that waits for an
  elevator is for it or for all and names a floor of the
  shaft. If it calls the elevator or lights a lamp, somebody
  has pressed a button that exists, and if it turns off a
  lamp, some elevator has served the floor.
-/
theorem commands_caused
    {c : Command}
    (hReach : (system C).Reachable s)
    (hQueued : c ∈ (s.node i).commands.toLocal) :
    C.info.InRange c.targetFloor ∧
      (c.targetElevatorId = C.id i ∨
        c.targetElevatorId = Command.anyId) ∧
      (∀ x : CallDirection,
        c.commandType = x.call ∨ c.commandType = x.turnOn →
        C.info.HasButton x c.targetFloor ∧
          ∃ r ∈ s.history, r.Presses x c.targetFloor) ∧
      (∀ x : CallDirection, c.commandType = x.turnOff →
        ∃ r ∈ s.history, r.changeType = x.served ∧
          r.changeFloor = c.targetFloor) := by
  have hInv := inv_of_reachable hReach
  rcases (hInv.nodes i).toLocal c hQueued with
    ⟨hCommand, hTarget⟩
  refine ⟨hCommand.inRange, hTarget, ?_, hCommand.served⟩
  intro x hType
  have hAsked := hCommand.asked x hType
  exact ⟨hasButton_of_asked hInv hAsked, hAsked⟩

/- The command for the lamps stands for the press. -/
theorem commands_caused_light :
    ∃ s : Building (Fin 2),
      (system twoElevators).Reachable s ∧
      (⟨.turnOnLightDown, Command.anyId, 1⟩ : Command) ∈
        (s.node 0).commands.toLocal ∧
      ∃ r ∈ s.history, r.Presses .down 1 := by
  rcases reachable_lights with ⟨s, hReach, hQueued, _⟩
  have hCaused := commands_caused hReach hQueued
  exact ⟨s, hReach, hQueued,
    (hCaused.2.2.1 .down (Or.inr rfl)).2⟩

/-
  In every run of the building an iteration of an elevator
  that takes its next command fails no assertion exactly when
  it does not close the doors blindly.
-/
theorem iteration_completes_iff
    {inputs : Inputs}
    (hReach : (system C).Reachable s)
    (hCommand : inputs.tryDequeue =
      (s.node i).commands.toLocal.head?)
    (hSensed : inputs.Sensed C.info) :
    Loop.Completes C.info inputs (s.node i).elevator ↔
      ¬ Loop.ClosesBlind inputs (s.node i).elevator := by
  have hInv := inv_of_reachable hReach
  exact Loop.completes_iff_of_consistent hSensed
    (caused_of_head hInv hCommand).1
    (hInv.nodes i).reporting.consistent

/- After the press an iteration without commands
completes. -/
theorem iteration_completes_idle :
    ∃ s : Building (Fin 2),
      (system twoElevators).Reachable s ∧
      (Loop.Completes twoElevators.info Loop.idle
          (s.node 0).elevator ↔
        ¬ Loop.ClosesBlind Loop.idle
          (s.node 0).elevator) := by
  rcases reachable_pressed with
    ⟨s, st, hReach, _, _, _, hNone, _⟩
  have hCommand : Loop.idle.tryDequeue =
      (s.node 0).commands.toLocal.head? := by
    rw [hNone]
    rfl
  exact ⟨s, hReach, iteration_completes_iff hReach hCommand
    (fun _ => Or.inl rfl)⟩

/-
  In every run of the building, an elevator that has been
  called to a floor, or whose hall lamp is lit, answers a
  press of a button that exists.
-/
theorem no_phantom_calls
    {x : CallDirection}
    {f : Int}
    (hReach : (system C).Reachable s)
    (hf : C.info.InRange f)
    (hShown : Loop.called C.info x f (s.node i).elevator =
        true ∨
      Loop.lit x f (s.node i).elevator = true) :
    C.info.HasButton x f ∧
      ∃ r ∈ s.history, r.Presses x f := by
  have hInv := inv_of_reachable hReach
  have hReporting := (hInv.nodes i).reporting
  have hNone : Loop.fresh (s.node i).elevator.outState
      (s.node i).elevator = [] := List.drop_length
  have hAsked : Asked s.history x f := by
    rcases hShown with hCalled | hLit
    · exact hReporting.state.asked x f hf hCalled
    · rcases hReporting.lamps x f hf hLit with
        hAsked | ⟨c, hc, _⟩
      · exact hAsked
      · rw [hNone] at hc
        exact absurd hc List.not_mem_nil
  exact ⟨hasButton_of_asked hInv hAsked, hAsked⟩

/- The lamp that is lit shows the press. -/
theorem no_phantom_calls_press :
    ∃ s : Building (Fin 2),
      (system twoElevators).Reachable s ∧
      Loop.lit .down 1 (s.node 0).elevator = true ∧
      twoElevators.info.HasButton .down 1 ∧
      ∃ r ∈ s.history, r.Presses .down 1 := by
  rcases reachable_pressed with
    ⟨s, st, hReach, _, _, _, _, hLit⟩
  have hf : twoElevators.info.InRange 1 := by
    decide
  exact ⟨s, hReach, hLit,
    no_phantom_calls hReach hf (Or.inr hLit)⟩

omit [Fintype ι] [DecidableEq ι] in
/- An accounted state passes the assertions about it. -/
theorem consistent_of_accounted
    {P : CallDirection → Int → Prop}
    {e : ElevatorState}
    (hState : e.Accounted C.info P) :
    e.assertConsistency C.info = .ok () := by
  have hConsistent : Loop.Consistent C.info e.id
      (Loop.constructed e Loop.darkDriver) :=
    ⟨rfl, hState.nonneg, hState.lastFloor, hState.inside,
      hState.calls⟩
  exact Loop.assertConsistency_ok hConsistent

/-
  In every run of the building, whatever a node knows of an
  elevator has been reported by an elevator of the building,
  but for the time of reception, and is consistent.
-/
theorem known_reported
    {e : ElevatorState}
    (hReach : (system C).Reachable s)
    (hKnown : e ∈ (s.node i).globalState.elevators) :
    e.assertConsistency C.info = .ok () ∧
      (∃ j, e.id = C.id j) ∧
      ∃ r ∈ s.history, ∃ timestamp,
        e = { r.state with timestamp := timestamp } := by
  have hInv := inv_of_reachable hReach
  have hReported := (hInv.nodes i).known e hKnown
  exact ⟨consistent_of_accounted
      (hReported.accounted hInv.history),
    hReported.id hInv.ids, hReported⟩

/- The scheduler knows the state that came with the press. -/
theorem known_reported_press :
    ∃ s : Building (Fin 2), ∃ e,
      (system twoElevators).Reachable s ∧
      e ∈ (s.node 0).globalState.elevators ∧
      e.assertConsistency twoElevators.info = .ok () ∧
      ∃ r ∈ s.history, ∃ timestamp,
        e = { r.state with timestamp := timestamp } := by
  rcases reachable_lights with ⟨s, hReach, _, e, hKnown⟩
  have hReported := known_reported hReach hKnown
  exact ⟨s, e, hReach, hKnown, hReported.1,
    hReported.2.2⟩

end Results

end Building

end ElevatorControl
