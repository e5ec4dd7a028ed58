import ElevatorControl.Library.LittleEndian
import ElevatorControl.State

/-
  The heart-beat of a thread.

  A thread stores the time of its last beat, and another one
  tests whether it is late. The tests take the same
  difference of two words of eight bytes, and the one that
  throws keeps it in an `int`.

  Key definitions include:
    * `HeartBeat`
    * `HeartBeat.check`
    * `HeartBeat.throwIfLate`
    * `HeartBeat.Agrees`

  Key theorems include:
    * `HeartBeat.delta_eq`
    * `HeartBeat.agrees_iff`
-/

------------------------------------------------------------
-- Heart-Beats
------------------------------------------------------------

namespace ElevatorControl

open LittleEndian

/- What `throwIfLate` throws. -/
structure HeartBeatException where
  delta : MillisecondTime
  threshold : MillisecondTime
  deriving DecidableEq, Repr

/- The time of the last beat and the allowed delay, in
milliseconds. -/
structure HeartBeat where
  lastBeat : MillisecondTime
  threshold : MillisecondTime
  deriving DecidableEq, Repr

namespace HeartBeat

/- The thread gives a sign of life. -/
def beat
    (now : MillisecondTime)
    (b : HeartBeat) : HeartBeat :=
  { b with lastBeat := now }

/- The difference as a word of eight bytes. -/
def delta
    (now : MillisecondTime)
    (b : HeartBeat) : MillisecondTime :=
  narrow 8 (now - b.lastBeat)

/- The thread is not late. -/
def check
    (now : MillisecondTime)
    (b : HeartBeat) : Bool :=
  decide (b.delta now ≤ b.threshold)

/- The difference is stored in an `int`. -/
def throwIfLate
    (now : MillisecondTime)
    (b : HeartBeat) : Except HeartBeatException Unit :=
  let delta := narrow 4 (b.delta now)
  if delta > b.threshold then
    .error ⟨delta, b.threshold⟩
  else .ok ()

/- The thread is found late by both tests or by none, and
the exception tells by how much. -/
def Agrees
    (now : MillisecondTime)
    (b : HeartBeat) : Prop :=
  ((∃ e, b.throwIfLate now = .error e) ↔
      b.check now = false) ∧
    ∀ e, b.throwIfLate now = .error e →
      e.delta = now - b.lastBeat

------------------------------------------------------------
-- Agreement
------------------------------------------------------------

section Agreement

variable {now : MillisecondTime}
variable {b : HeartBeat}

/- The difference of two times that are not negative fits a
word. -/
theorem delta_eq
    (hLast : 0 ≤ b.lastBeat)
    (hOrder : b.lastBeat ≤ now)
    (hNow : Fits 8 now) :
    b.delta now = now - b.lastBeat := by
  have hLast' : (0 : Int) ≤ b.lastBeat := hLast
  have hSince : (0 : Int) ≤ now - b.lastBeat :=
    Int.sub_nonneg.mpr hOrder
  apply narrow_eq
  rcases hNow with ⟨_, hHigh⟩
  refine ⟨?_, ?_⟩
  · omega
  · omega

theorem check_eq_false
    (hDelta : b.delta now = now - b.lastBeat) :
    b.check now = false ↔
      b.threshold < now - b.lastBeat := by
  unfold check
  rw [hDelta, decide_eq_false_iff_not, Int.not_le]

theorem throwIfLate_eq_error
    {e : HeartBeatException}
    (hDelta : b.delta now = now - b.lastBeat) :
    b.throwIfLate now = .error e ↔
      b.threshold < narrow 4 (now - b.lastBeat) ∧
        e = ⟨narrow 4 (now - b.lastBeat), b.threshold⟩ := by
  unfold throwIfLate
  rw [hDelta]
  dsimp only
  by_cases hLate : narrow 4 (now - b.lastBeat) > b.threshold
  · rw [if_pos hLate]
    constructor
    · intro hError
      cases hError
      exact ⟨hLate, rfl⟩
    · rintro ⟨_, rfl⟩
      rfl
  · rw [if_neg hLate]
    constructor
    · intro hError
      cases hError
    · rintro ⟨hThrows, _⟩
      exact absurd hThrows hLate

/- The tests agree while the difference is an `int`. -/
theorem agrees_of_fits
    (hDelta : b.delta now = now - b.lastBeat)
    (hFits : Fits 4 (now - b.lastBeat)) :
    Agrees now b := by
  have hNarrow := narrow_eq hFits
  refine ⟨?_, ?_⟩
  · rw [check_eq_false hDelta]
    constructor
    · rintro ⟨e, hThrows⟩
      have hLate :=
        ((throwIfLate_eq_error hDelta).mp hThrows).1
      rwa [hNarrow] at hLate
    · intro hLate
      refine ⟨_, (throwIfLate_eq_error hDelta).mpr ⟨?_, rfl⟩⟩
      rwa [hNarrow]
  · intro e hThrows
    rw [((throwIfLate_eq_error hDelta).mp hThrows).2]
    exact hNarrow

theorem fits_int_of_nonneg
    {since : Int}
    (hNonneg : 0 ≤ since)
    (hSmall : since ≤ intMax) :
    Fits 4 since := by
  unfold intMax at hSmall
  refine ⟨?_, ?_⟩
  · omega
  · omega

/- A difference that is no `int` is stored as a smaller
number. -/
theorem narrow_lt
    {since : Int}
    (hLarge : intMax < since) :
    narrow 4 since < since := by
  have hFits : Fits 4 (narrow 4 since) :=
    fits_narrow (by decide) since
  rcases hFits with ⟨_, hHigh⟩
  unfold intMax at hLarge
  omega

/- After that the tests still agree before the threshold,
where neither finds the thread late. -/
theorem agrees_of_early
    (hDelta : b.delta now = now - b.lastBeat)
    (hLarge : intMax < now - b.lastBeat)
    (hEarly : now - b.lastBeat ≤ b.threshold) :
    Agrees now b := by
  have hNever : ∀ e, b.throwIfLate now ≠ .error e := by
    intro e hThrows
    have hLate :=
      ((throwIfLate_eq_error hDelta).mp hThrows).1
    have hLess := narrow_lt hLarge
    exact absurd (Int.lt_trans hLate hLess)
      (Int.not_lt.mpr hEarly)
  refine ⟨?_, fun e hThrows => absurd hThrows (hNever e)⟩
  rw [check_eq_false hDelta]
  constructor
  · rintro ⟨e, hThrows⟩
    exact absurd hThrows (hNever e)
  · intro hLate
    exact absurd hLate (Int.not_lt.mpr hEarly)

/- Beyond it they do not: what is thrown, if anything, is
not the difference. -/
theorem not_agrees_of_late
    (hDelta : b.delta now = now - b.lastBeat)
    (hLarge : intMax < now - b.lastBeat)
    (hLate : b.threshold < now - b.lastBeat) :
    ¬ Agrees now b := by
  rintro ⟨hSame, hTrue⟩
  rcases hSame.mpr ((check_eq_false hDelta).mpr hLate) with
    ⟨e, hThrows⟩
  have hCarried := hTrue e hThrows
  rw [((throwIfLate_eq_error hDelta).mp hThrows).2]
    at hCarried
  exact absurd hCarried (Int.ne_of_lt (narrow_lt hLarge))

/-
  The tests agree exactly while the time since the last beat
  is an `int` or not above the threshold.
-/
theorem agrees_iff
    (hLast : 0 ≤ b.lastBeat)
    (hOrder : b.lastBeat ≤ now)
    (hNow : Fits 8 now) :
    Agrees now b ↔
      now - b.lastBeat ≤ intMax ∨
        now - b.lastBeat ≤ b.threshold := by
  have hDelta := delta_eq hLast hOrder hNow
  by_cases hSmall : now - b.lastBeat ≤ intMax
  · have hFits : Fits 4 (now - b.lastBeat) :=
      fits_int_of_nonneg (Int.sub_nonneg.mpr hOrder) hSmall
    exact iff_of_true (agrees_of_fits hDelta hFits)
      (Or.inl hSmall)
  · have hLarge : intMax < now - b.lastBeat :=
      Int.not_le.mp hSmall
    by_cases hEarly : now - b.lastBeat ≤ b.threshold
    · exact iff_of_true
        (agrees_of_early hDelta hLarge hEarly)
        (Or.inr hEarly)
    · refine iff_of_false
        (not_agrees_of_late hDelta hLarge
          (Int.not_le.mp hEarly)) ?_
      rintro (hLess | hLess)
      · exact hSmall hLess
      · exact hEarly hLess

/- The tests agree on a thread that is one millisecond
late. -/
theorem agrees_iff_late :
    Agrees 1001 ⟨0, 1000⟩ :=
  (agrees_iff (by decide) (by decide) (by decide)).mpr
    (Or.inl (by decide))

/-
  A thread that has not beaten for 2^32 milliseconds is late,
  and nothing is thrown.
-/
theorem lateBeat_unnoticed :
    check 4294967296 ⟨0, 1000⟩ = false ∧
      throwIfLate 4294967296 ⟨0, 1000⟩ = .ok () ∧
      ¬ Agrees 4294967296 ⟨0, 1000⟩ := by
  have hThrows :
      throwIfLate 4294967296 ⟨0, 1000⟩ = .ok () := by
    decide
  refine ⟨by decide, hThrows, ?_⟩
  rintro ⟨hSame, _⟩
  rcases hSame.mpr (by decide) with ⟨e, hError⟩
  rw [hThrows] at hError
  cases hError

end Agreement

end HeartBeat

end ElevatorControl
