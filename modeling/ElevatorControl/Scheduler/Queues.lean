import ElevatorControl.State

/-
  The queues of commands between a scheduler, its own
  elevator and the network.

  Queues are lists with the head at the front. The commands
  are of any type that has a target.

  Key definitions include:
    * `CommandQueues`
    * `CommandQueues.forwardToTargets`
-/

------------------------------------------------------------
-- Command Queues
------------------------------------------------------------

namespace ElevatorControl

/- The two queues commands are forwarded to. -/
structure CommandQueues (α : Type) where
  toLocal : List α
  toRemote : List α
  deriving DecidableEq, Repr

namespace CommandQueues

variable {α : Type}

/- No command waits. -/
def empty : CommandQueues α := ⟨[], []⟩

/- A command for the elevator here. -/
def enqueueLocal
    (q : CommandQueues α)
    (comm : α) : CommandQueues α :=
  { q with toLocal := q.toLocal ++ [comm] }

/- A command for the elevators elsewhere. -/
def enqueueRemote
    (q : CommandQueues α)
    (comm : α) : CommandQueues α :=
  { q with toRemote := q.toRemote ++ [comm] }

/- Commands for every elevator go to both queues. -/
def forwardToTargets
    (target : α → Int)
    (localElevId : Int)
    (q : CommandQueues α)
    (comm : α) : CommandQueues α :=
  let q :=
    if target comm = Command.anyId ∨
        target comm = localElevId then
      q.enqueueLocal comm
    else q
  if target comm ≠ localElevId then
    q.enqueueRemote comm
  else q

section Forwarding

variable {target : α → Int}
variable {localElevId : Int}
variable {q : CommandQueues α}
variable {comm : α}

theorem toLocal_forwardToTargets :
    (q.forwardToTargets target localElevId comm).toLocal =
      if target comm = Command.anyId ∨
          target comm = localElevId then
        q.toLocal ++ [comm]
      else q.toLocal := by
  unfold forwardToTargets
  dsimp only
  split_ifs <;> rfl

theorem toRemote_forwardToTargets :
    (q.forwardToTargets target localElevId comm).toRemote =
      if target comm ≠ localElevId then
        q.toRemote ++ [comm]
      else q.toRemote := by
  unfold forwardToTargets
  dsimp only
  split_ifs <;> rfl

end Forwarding

end CommandQueues

end ElevatorControl
