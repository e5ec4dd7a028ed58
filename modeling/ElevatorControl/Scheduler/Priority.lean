import ElevatorControl.Library.MixedRadix
import ElevatorControl.Scheduler.Basic

/-
  What the distances of `_optimalElevator` stand for.

  The penalizations grow with the number of floors so that
  none of them is ever made up for by the ones below it: the
  distance is a number of three digits, and the elevator that
  is chosen comes first in the order of the digits.

  Key definitions include:
    * `Scheduler.demerits`
    * `Scheduler.busyClass`
    * `Scheduler.Rank` and `Scheduler.rank`

  Key theorems include:
    * `Scheduler.distance_eq_value`
    * `Scheduler.distance_le_iff`
    * `Scheduler.optimalElevator_rank`
-/

------------------------------------------------------------
-- Ranks
------------------------------------------------------------

namespace ElevatorControl

namespace Scheduler

/- How many of outdated and stopped apply. -/
def demerits
    (now : MillisecondTime)
    (state : ElevatorState) : Nat :=
  (if now - state.timestamp > outdatedThresh then 1 else 0) +
    (if state.stopped then 1 else 0)

/- Idle, coming by the floor, or running otherwise. -/
def busyClass
    (bounds : BasicDriverInfo)
    (type : ButtonType)
    (floor : Int)
    (state : ElevatorState) : Nat :=
  if state.direction = .none then 0
  else if comesBy bounds type floor state then 1
  else 2

/- Ranks are compared one component after the other. -/
abbrev Rank : Type := Nat ×ₗ (Nat ×ₗ Nat)

/- The penalties first, then how busy the elevator is, then
how far away. -/
def rank
    (bounds : BasicDriverInfo)
    (now : MillisecondTime)
    (type : ButtonType)
    (floor : Int)
    (state : ElevatorState) : Rank :=
  toLex (demerits now state,
    toLex (busyClass bounds type floor state,
      (state.lastFloor - floor).natAbs))

section Digits

variable {bounds : BasicDriverInfo}
variable {now : MillisecondTime}
variable {type : ButtonType}
variable {floor : Int}
variable {e e' : ElevatorState}

theorem busyClass_le :
    busyClass bounds type floor e ≤ 2 := by
  unfold busyClass
  split_ifs <;> omega

/- An idle elevator comes by no floor. -/
theorem not_comesBy_idle
    (hIdle : e.direction = .none) :
    ¬ comesBy bounds type floor e := by
  unfold comesBy
  rw [hIdle]
  simp

/- The number of floors passed between the bounds. -/
def span
    (bounds : BasicDriverInfo) : Nat :=
  (bounds.maxFloor - bounds.minFloor).toNat

/- The distance is a number with the components of the rank
as its digits. -/
theorem distance_eq_value
    (hOrdered : bounds.minFloor ≤ bounds.maxFloor) :
    distance bounds now type floor e =
      (MixedRadix.value (10 * span bounds)
        (demerits now e)
        (MixedRadix.value (span bounds + 1)
          (busyClass bounds type floor e)
          (e.lastFloor - floor).natAbs) : Nat) := by
  have hSpan :
      (span bounds : Int) =
        bounds.maxFloor - bounds.minFloor :=
    Int.toNat_of_nonneg (by omega)
  have hBusy :
      (if comesBy bounds type floor e then
          (span bounds : Int) + 1
        else if e.direction ≠ .none then
          2 * ((span bounds : Int) + 1)
        else 0) =
        busyClass bounds type floor e *
          ((span bounds : Int) + 1) := by
    unfold busyClass
    by_cases hIdle : e.direction = .none
    · simp [hIdle, not_comesBy_idle hIdle]
    · split_ifs <;> simp
  unfold distance
  dsimp only
  rw [← hSpan, hBusy]
  unfold MixedRadix.value demerits
  push_cast
  split_ifs <;> omega

------------------------------------------------------------
-- Order of Distances
------------------------------------------------------------

theorem passed_le
    (hFloor : bounds.InRange floor)
    (hLast : bounds.InRange e.lastFloor) :
    (e.lastFloor - floor).natAbs ≤ span bounds := by
  rcases hFloor with ⟨hLow, hHigh⟩
  rcases hLast with ⟨hLow', hHigh'⟩
  unfold span
  omega

/- Class and floors passed never make up for one demerit. -/
theorem low_lt
    (hOrdered : 1 ≤ bounds.maxFloor - bounds.minFloor)
    (hFloor : bounds.InRange floor)
    (hLast : bounds.InRange e.lastFloor) :
    MixedRadix.value (span bounds + 1)
        (busyClass bounds type floor e)
        (e.lastFloor - floor).natAbs <
      10 * span bounds := by
  have hPassed := passed_le hFloor hLast
  have hSpan : 1 ≤ span bounds := by
    unfold span
    omega
  have hClass :
      busyClass bounds type floor e * (span bounds + 1) ≤
        2 * (span bounds + 1) :=
    Nat.mul_le_mul_right _ busyClass_le
  unfold MixedRadix.value
  omega

/- Distances are ordered as the ranks are. -/
theorem distance_le_iff
    (hOrdered : 1 ≤ bounds.maxFloor - bounds.minFloor)
    (hFloor : bounds.InRange floor)
    (hLast : bounds.InRange e.lastFloor)
    (hLast' : bounds.InRange e'.lastFloor) :
    distance bounds now type floor e ≤
        distance bounds now type floor e' ↔
      rank bounds now type floor e ≤
        rank bounds now type floor e' := by
  have hPassed := passed_le hFloor hLast
  have hPassed' := passed_le hFloor hLast'
  have hClasses :
      MixedRadix.value (span bounds + 1)
          (busyClass bounds type floor e)
          (e.lastFloor - floor).natAbs ≤
        MixedRadix.value (span bounds + 1)
          (busyClass bounds type floor e')
          (e'.lastFloor - floor).natAbs ↔
      toLex (busyClass bounds type floor e,
          (e.lastFloor - floor).natAbs) ≤
        toLex (busyClass bounds type floor e',
          (e'.lastFloor - floor).natAbs) :=
    MixedRadix.value_le_iff (Nat.lt_succ_of_le hPassed)
      (Nat.lt_succ_of_le hPassed')
  rw [distance_eq_value (by omega),
    distance_eq_value (by omega), Int.ofNat_le]
  exact MixedRadix.value_le_iff_of_low
    (low_lt hOrdered hFloor hLast)
    (low_lt hOrdered hFloor hLast') hClasses

------------------------------------------------------------
-- Chosen Elevators
------------------------------------------------------------

/- The loop finds nothing when every elevator is dead. -/
theorem optimalElevator_fails
    {elevators : List ElevatorState}
    (hDead : ∀ e ∈ elevators,
      ¬ now - e.timestamp ≤ deadThresh) :
    ∃ e, optimalElevator bounds now type floor elevators =
      .error e := by
  rcases @foldl_considerElevator bounds now type floor
    elevators (intMax, intMin) with ⟨_, _, hFrom⟩
  rcases hFrom with hNone | ⟨e, he, hAlive, _⟩
  · unfold optimalElevator
    rw [hNone]
    dsimp only
    rw [assert_false (by decide)]
    exact ⟨_, rfl⟩
  · exact absurd hAlive (hDead e he)

/-
  For any elevators in any order: the assertion fails when
  all are dead, and only then. Otherwise the elevator that is
  chosen is alive, and no other that is alive has a smaller
  rank.
-/
theorem optimalElevator_rank
    {elevators : List ElevatorState}
    (hOrdered : 1 ≤ bounds.maxFloor - bounds.minFloor)
    (hSpan : bounds.maxFloor - bounds.minFloor ≤ 63)
    (hFloor : bounds.InRange floor)
    (hLast : ∀ e ∈ elevators, bounds.InRange e.lastFloor)
    (hIds : ∀ e ∈ elevators, 0 ≤ e.id) :
    ((∃ e, optimalElevator bounds now type floor elevators =
        .error e) ↔
      ∀ e ∈ elevators,
        ¬ now - e.timestamp ≤ deadThresh) ∧
      ∀ minId,
        optimalElevator bounds now type floor elevators =
            .ok minId →
          ∃ e ∈ elevators, e.id = minId ∧
            now - e.timestamp ≤ deadThresh ∧
            ∀ e' ∈ elevators,
              now - e'.timestamp ≤ deadThresh →
                rank bounds now type floor e ≤
                  rank bounds now type floor e' := by
  have hFinds :
      ∀ e₀ ∈ elevators,
        now - e₀.timestamp ≤ deadThresh →
        ∃ e ∈ elevators, now - e.timestamp ≤ deadThresh ∧
          optimalElevator bounds now type floor elevators =
            .ok e.id ∧
          ∀ e' ∈ elevators,
            now - e'.timestamp ≤ deadThresh →
              distance bounds now type floor e ≤
                distance bounds now type floor e' := by
    intro e₀ he₀ hAlive
    exact optimalElevator_min he₀ hAlive
      (distance_lt_intMax hSpan hFloor (hLast e₀ he₀)) hIds
  refine ⟨⟨?_, optimalElevator_fails⟩, ?_⟩
  · rintro ⟨error, hFails⟩ e₀ he₀ hAlive
    rcases hFinds e₀ he₀ hAlive with ⟨e, _, _, hChosen, _⟩
    rw [hFails] at hChosen
    cases hChosen
  · intro minId hChoice
    have hSome : ∃ e₀ ∈ elevators,
        now - e₀.timestamp ≤ deadThresh := by
      by_contra hNone
      push Not at hNone
      have hDead : ∀ e ∈ elevators,
          ¬now - e.timestamp ≤ deadThresh := fun e he =>
        Int.not_le.mpr (hNone e he)
      have hAny : ∃ error, optimalElevator bounds now type
          floor elevators = .error error :=
        optimalElevator_fails hDead
      rcases hAny with ⟨error, hFails⟩
      rw [hChoice] at hFails
      cases hFails
    rcases hSome with ⟨e₀, he₀, hAlive₀⟩
    rcases hFinds e₀ he₀ hAlive₀ with
      ⟨e, he, hAlive, hChosen, hLeast⟩
    rw [hChoice] at hChosen
    refine ⟨e, he, (Except.ok.inj hChosen).symm, hAlive, ?_⟩
    intro e' he' hAlive'
    exact (distance_le_iff hOrdered hFloor (hLast e he)
      (hLast e' he')).mp (hLeast e' he' hAlive')

end Digits

/- An elevator of a shaft of four floors. -/
def elevatorAt
    (id lastFloor : Int)
    (direction : Direction)
    (stopped : Bool) : ElevatorState :=
  { ElevatorState.default with
    id := id
    lastFloor := lastFloor
    direction := direction
    stopped := stopped }

/- The elevator next door has been stopped, and one that is
running up at the far end is chosen. -/
theorem optimalElevator_rank_stopped :
    optimalElevator ⟨0, 3⟩ 0 .callUp 0
        [elevatorAt 0 0 .none true,
          elevatorAt 1 3 .up false] = .ok 1 ∧
      ∃ e ∈ [elevatorAt 0 0 .none true,
          elevatorAt 1 3 .up false],
        e.id = 1 ∧ 0 - e.timestamp ≤ deadThresh ∧
          ∀ e' ∈ [elevatorAt 0 0 .none true,
              elevatorAt 1 3 .up false],
            0 - e'.timestamp ≤ deadThresh →
              rank ⟨0, 3⟩ 0 .callUp 0 e ≤
                rank ⟨0, 3⟩ 0 .callUp 0 e' :=
  ⟨rfl, (optimalElevator_rank (by decide) (by decide)
    (by decide) (by decide) (by decide)).2 1 rfl⟩

end Scheduler

end ElevatorControl
