import ElevatorControl.HeartBeat
import ElevatorControl.Scheduler.Dispatch

/-
  The thread that tests the heart-beats of all the others.

  Each pass of its loop tests every heart-beat once, and the
  passes begin `rerunTime` apart. A thread that is scheduled
  late makes a pass late by at most `slack` milliseconds. So
  a thread that stops is found within a tenth more than its
  threshold, and no other thread is ever found.

  Key definitions include:
    * `HeartBeatManager`
    * `HeartBeatManager.getNew`
    * `Watch.Step`
    * `Watch.Watched`

  Key theorems include:
    * `HeartBeatManager.frequent_made`
    * `Watch.watched_of_step`
    * `Watch.silence_le`
    * `Watch.failed_late`
-/

------------------------------------------------------------
-- Manager
------------------------------------------------------------

namespace ElevatorControl

open LittleEndian

/- The heart-beats, and the time between two passes over
them. -/
structure HeartBeatManager where
  beats : List HeartBeat
  rerunTime : MillisecondTime
  deriving DecidableEq, Repr

namespace HeartBeatManager

/- The manager without heart-beats. -/
def create : HeartBeatManager where
  beats := []
  rerunTime := 10000

/- A new heart-beat. The time of its last beat is not
initialized. -/
def getNew
    (threshold lastBeat : MillisecondTime)
    (m : HeartBeatManager) : HeartBeatManager where
  beats := m.beats ++ [⟨lastBeat, threshold⟩]
  rerunTime :=
    let thisRerun := Int.tdiv threshold 10
    if m.rerunTime > thisRerun then thisRerun
    else m.rerunTime

/- The manager after some calls of `getNew`, with their
thresholds and what was in memory. -/
def made
    (calls : List (MillisecondTime × MillisecondTime)) :
    HeartBeatManager :=
  calls.foldl (fun m c => m.getNew c.1 c.2) create

/- No heart-beat is tested less often than ten times in its
threshold. -/
def Frequent
    (m : HeartBeatManager) : Prop :=
  0 ≤ m.rerunTime ∧
    ∀ b ∈ m.beats,
      0 ≤ b.threshold ∧ 10 * m.rerunTime ≤ b.threshold

theorem tenth_le
    (threshold : Int) :
    10 * (threshold / 10) ≤ threshold := by
  omega

theorem frequent_getNew
    {m : HeartBeatManager}
    {threshold lastBeat : MillisecondTime}
    (hThreshold : 0 ≤ threshold)
    (hFrequent : m.Frequent) :
    (m.getNew threshold lastBeat).Frequent := by
  have hDiv : Int.tdiv threshold 10 = threshold / 10 :=
    Int.tdiv_eq_ediv_of_nonneg hThreshold
  have hTenth : 10 * (threshold / 10) ≤ threshold :=
    tenth_le threshold
  rcases hFrequent with ⟨hRerun, hBeats⟩
  unfold getNew Frequent
  dsimp only
  rw [hDiv]
  split_ifs with hLess
  · refine ⟨Int.ediv_nonneg hThreshold (by decide), ?_⟩
    intro b hb
    rcases List.mem_append.mp hb with hOld | hNew
    · rcases hBeats b hOld with ⟨hNonneg, hTen⟩
      refine ⟨hNonneg, le_trans ?_ hTen⟩
      exact Int.mul_le_mul_of_nonneg_left
        (Int.le_of_lt hLess) (by decide)
    · rw [List.mem_singleton.mp hNew]
      exact ⟨hThreshold, hTenth⟩
  · refine ⟨hRerun, ?_⟩
    intro b hb
    rcases List.mem_append.mp hb with hOld | hNew
    · exact hBeats b hOld
    · rw [List.mem_singleton.mp hNew]
      refine ⟨hThreshold, le_trans ?_ hTenth⟩
      exact Int.mul_le_mul_of_nonneg_left
        (Int.not_lt.mp hLess) (by decide)

theorem frequent_made
    {calls : List (MillisecondTime × MillisecondTime)}
    (hCalls : ∀ c ∈ calls, 0 ≤ c.1) :
    (made calls).Frequent := by
  have hFold : ∀ m : HeartBeatManager, m.Frequent →
      (calls.foldl (fun m c => m.getNew c.1 c.2)
        m).Frequent := by
    induction calls with
    | nil => exact fun m hm => hm
    | cons c calls ih =>
        intro m hm
        rw [List.foldl_cons]
        apply ih
        · exact fun c' hc' =>
            hCalls c' (List.mem_cons_of_mem c hc')
        · exact frequent_getNew
            (hCalls c List.mem_cons_self) hm
  apply hFold
  exact ⟨by decide, fun b hb => absurd hb List.not_mem_nil⟩

/- Every heart-beat has the threshold of a call. -/
theorem exists_call_of_mem
    {calls : List (MillisecondTime × MillisecondTime)}
    {b : HeartBeat}
    (hMem : b ∈ (made calls).beats) :
    ∃ c ∈ calls, b.threshold = c.1 := by
  have hFold : ∀ m : HeartBeatManager,
      b ∈ (calls.foldl (fun m c => m.getNew c.1 c.2)
        m).beats →
      b ∈ m.beats ∨ ∃ c ∈ calls, b.threshold = c.1 := by
    clear hMem
    induction calls with
    | nil => exact fun m hb => Or.inl hb
    | cons c calls ih =>
        intro m hb
        rcases ih _ hb with hOld | ⟨c', hc', hSame⟩
        · rcases List.mem_append.mp hOld with hOld | hNew
          · exact Or.inl hOld
          · rw [List.mem_singleton.mp hNew]
            exact Or.inr ⟨c, List.mem_cons_self, rfl⟩
        · exact Or.inr
            ⟨c', List.mem_cons_of_mem c hc', hSame⟩
  rcases hFold create hMem with hNone | hCall
  · exact absurd hNone List.not_mem_nil
  · exact hCall

end HeartBeatManager

------------------------------------------------------------
-- Watching
------------------------------------------------------------

/- Where the loop of `runInThisThread` is: asleep until the
next pass, in a pass with `k` heart-beats tested, or ended by
an exception about heart-beat `k`. -/
inductive WatchPhase where
  | asleep (next : TimePoint)
  | testing (start : TimePoint) (k : Nat)
  | failed (k : Nat) (e : HeartBeatException)

/- The manager and its loop, with the clock. -/
structure Watch where
  clock : TimePoint
  manager : HeartBeatManager
  phase : WatchPhase

namespace Watch

open Dispatch (nowAt)
open HeartBeatManager

/- The times the loop is on time: a pass begins `slack` after
it is due at the latest, and takes as long at most. The
exception ends the process. -/
def InTime
    (slack : MillisecondTime)
    (clock : TimePoint) : WatchPhase → Prop
  | .asleep next => clock ≤ next + milliseconds slack
  | .testing start _ => clock ≤ start + milliseconds slack
  | .failed _ _ => False

/- The heart-beat `k` is heard. -/
def beat
    (k : Nat)
    (s : Watch) : Watch :=
  { s with
    manager.beats :=
      s.manager.beats.modify k (HeartBeat.beat
        (nowAt s.clock)) }

/- The process has not been ended. -/
def Runs
    (s : Watch) : Prop :=
  ∀ k e, s.phase ≠ .failed k e

/- The steps of the clock, of the threads that beat, and of
the loop. -/
inductive Step
    (slack : MillisecondTime) :
    Watch → Watch → Prop where
  | tick
      (s : Watch)
      (clock : TimePoint)
      (hLater : s.clock ≤ clock)
      (hWord : Fits 8 clock)
      (hTime : InTime slack clock s.phase) :
      Step slack s { s with clock := clock }
  | beat
      (s : Watch)
      (k : Nat)
      (hRuns : s.Runs) :
      Step slack s (s.beat k)
  | wake
      (s : Watch)
      (next : TimePoint)
      (hPhase : s.phase = .asleep next)
      (hDue : next ≤ s.clock) :
      Step slack s { s with phase := .testing s.clock 0 }
  | pass
      (s : Watch)
      (start : TimePoint)
      (k : Nat)
      (b : HeartBeat)
      (hPhase : s.phase = .testing start k)
      (hBeat : s.manager.beats[k]? = some b)
      (hOk : b.throwIfLate (nowAt s.clock) = .ok ()) :
      Step slack s { s with phase := .testing start (k + 1) }
  | throw
      (s : Watch)
      (start : TimePoint)
      (k : Nat)
      (b : HeartBeat)
      (e : HeartBeatException)
      (hPhase : s.phase = .testing start k)
      (hBeat : s.manager.beats[k]? = some b)
      (hLate : b.throwIfLate (nowAt s.clock) = .error e) :
      Step slack s { s with phase := .failed k e }
  | sleep
      (s : Watch)
      (start : TimePoint)
      (k : Nat)
      (hPhase : s.phase = .testing start k)
      (hDone : s.manager.beats[k]? = none) :
      Step slack s
        { s with
          phase := .asleep
            (start + milliseconds s.manager.rerunTime) }

/-
  The loop begins when every thread has beaten and none is
  late.
-/
structure Initial
    (calls : List (MillisecondTime × MillisecondTime))
    (s : Watch) : Prop where
  manager : s.manager = made calls
  phase : s.phase = .asleep s.clock
  nonneg : 0 ≤ s.clock
  word : Fits 8 s.clock
  beaten : ∀ b ∈ s.manager.beats, 0 ≤ b.lastBeat ∧
    b.lastBeat ≤ nowAt s.clock ∧
    nowAt s.clock - b.lastBeat ≤ b.threshold

/- The loop of the manager and the threads it watches. -/
def system
    (slack : MillisecondTime)
    (calls : List (MillisecondTime × MillisecondTime)) :
    TransitionSystem Watch where
  Init := Initial calls
  Step := Step slack

------------------------------------------------------------
-- Silence
------------------------------------------------------------

/- A time at which heart-beat `j` was not late. -/
def heardAt
    (slack : MillisecondTime)
    (s : Watch)
    (j : Nat) : TimePoint :=
  match s.phase with
  | .asleep next =>
      next - milliseconds s.manager.rerunTime
  | .testing start k =>
      if j < k then start
      else
        start - milliseconds (s.manager.rerunTime + slack)
  | .failed _ _ => s.clock

/- No pass begins in the future. -/
def Begun
    (s : Watch) : Prop :=
  match s.phase with
  | .asleep next =>
      next ≤ s.clock + milliseconds s.manager.rerunTime
  | .testing start _ => start ≤ s.clock
  | .failed _ _ => True

/- Every heart-beat was heard not long ago, and one that has
been found late is late. -/
structure Watched
    (slack : MillisecondTime)
    (s : Watch) : Prop where
  frequent : s.manager.Frequent
  small : ∀ b ∈ s.manager.beats,
    11 * b.threshold + 20 * slack ≤ 10 * intMax
  nonneg : 0 ≤ s.clock
  word : Fits 8 s.clock
  beaten : ∀ b ∈ s.manager.beats, 0 ≤ b.lastBeat ∧
    b.lastBeat ≤ nowAt s.clock
  inTime : s.Runs → InTime slack s.clock s.phase
  begun : s.Begun
  heard : s.Runs → ∀ (j : Nat) b, s.manager.beats[j]? = some b →
    nowAt (heardAt slack s j) - b.lastBeat ≤ b.threshold
  found : ∀ k e, s.phase = .failed k e →
    ∃ b, s.manager.beats[k]? = some b ∧
      b.threshold < nowAt s.clock - b.lastBeat ∧
      e = ⟨nowAt s.clock - b.lastBeat, b.threshold⟩

section Silence

variable {slack : MillisecondTime}
variable {s s' : Watch}

theorem nowAt_add
    (clock : TimePoint)
    (delta : MillisecondTime) :
    nowAt (clock + milliseconds delta) =
      nowAt clock + delta :=
  Int.add_mul_ediv_right clock delta (by decide)

theorem nowAt_mono
    {clock clock' : TimePoint}
    (hLe : clock ≤ clock') :
    nowAt clock ≤ nowAt clock' :=
  Int.ediv_le_ediv (by decide) hLe

theorem milliseconds_add
    (delta delta' : MillisecondTime) :
    milliseconds (delta + delta') =
      milliseconds delta + milliseconds delta' :=
  Int.add_mul delta delta' 1000000

theorem milliseconds_nonneg
    {delta : MillisecondTime}
    (hDelta : 0 ≤ delta) :
    0 ≤ milliseconds delta :=
  Int.mul_nonneg hDelta (by decide)

/- The clock is at most a pass and twice the slack ahead of
the time a heart-beat was heard. -/
theorem clock_le_heardAt
    (hSlack : 0 ≤ slack)
    (hRerun : 0 ≤ s.manager.rerunTime)
    (hTime : InTime slack s.clock s.phase)
    (j : Nat) :
    s.clock ≤ heardAt slack s j +
      milliseconds (s.manager.rerunTime + 2 * slack) := by
  have hTwice : milliseconds (s.manager.rerunTime + 2 * slack) =
      milliseconds s.manager.rerunTime +
        (milliseconds slack + milliseconds slack) := by
    rw [milliseconds_add, Int.two_mul, milliseconds_add]
  have hAsleep : ∀ clock next rerun late : Int,
      0 ≤ late → clock ≤ next + late →
      clock ≤ next - rerun + (rerun + (late + late)) := by
    omega
  have hBefore : ∀ clock start rerun late : Int,
      0 ≤ late → 0 ≤ rerun → clock ≤ start + late →
      clock ≤ start + (rerun + (late + late)) := by
    omega
  have hBehind : ∀ clock start rerun late : Int,
      clock ≤ start + late →
      clock ≤ start - (rerun + late) +
        (rerun + (late + late)) := by
    omega
  have hSlack' := milliseconds_nonneg hSlack
  have hRerun' := milliseconds_nonneg hRerun
  unfold heardAt
  rw [hTwice]
  cases hPhase : s.phase with
  | asleep next =>
      rw [hPhase] at hTime
      exact hAsleep _ _ _ _ hSlack' hTime
  | testing start k =>
      rw [hPhase] at hTime
      dsimp only
      rw [milliseconds_add]
      split
      · exact hBefore _ _ _ _ hSlack' hRerun' hTime
      · exact hBehind _ _ _ _ hTime
  | failed k e =>
      rw [hPhase] at hTime
      exact hTime.elim

/- No thread has been silent for long. -/
theorem Watched.silence
    {j : Nat}
    {b : HeartBeat}
    (hSlack : 0 ≤ slack)
    (hWatched : Watched slack s)
    (hRuns : s.Runs)
    (hBeat : s.manager.beats[j]? = some b) :
    10 * (nowAt s.clock - b.lastBeat) ≤
      11 * b.threshold + 20 * slack := by
  have hArith : ∀ now heard last rerun late threshold : Int,
      now ≤ heard + (rerun + 2 * late) →
      heard - last ≤ threshold →
      10 * rerun ≤ threshold →
      10 * (now - last) ≤ 11 * threshold + 20 * late := by
    omega
  have hLe := nowAt_mono (clock_le_heardAt hSlack
    hWatched.frequent.1 (hWatched.inTime hRuns) j)
  rw [nowAt_add] at hLe
  exact hArith _ _ _ _ _ _ hLe
    (hWatched.heard hRuns j b hBeat)
    (hWatched.frequent.2 b (List.mem_of_getElem? hBeat)).2

/- So the difference that is tested is the silence. -/
theorem Watched.delta
    {j : Nat}
    {b : HeartBeat}
    (hSlack : 0 ≤ slack)
    (hWatched : Watched slack s)
    (hRuns : s.Runs)
    (hBeat : s.manager.beats[j]? = some b) :
    b.delta (nowAt s.clock) = nowAt s.clock - b.lastBeat ∧
      Fits 4 (nowAt s.clock - b.lastBeat) := by
  have hArith : ∀ silence threshold late limit : Int,
      10 * silence ≤ 11 * threshold + 20 * late →
      11 * threshold + 20 * late ≤ 10 * limit →
      silence ≤ limit := by
    omega
  have hMem := List.mem_of_getElem? hBeat
  rcases hWatched.beaten b hMem with ⟨hNonneg, hOrder⟩
  have hWord : Fits 8 (nowAt s.clock) := by
    have hLow : (0 : Int) ≤ nowAt s.clock :=
      Int.ediv_nonneg hWatched.nonneg (by decide)
    have hHigh : nowAt s.clock ≤ s.clock :=
      Int.ediv_le_self _ hWatched.nonneg
    exact ⟨le_trans (by decide)
        (Int.mul_nonneg (by decide) hLow),
      Int.lt_of_le_of_lt (Int.mul_le_mul_of_nonneg_left
        hHigh (by decide)) hWatched.word.2⟩
  refine ⟨HeartBeat.delta_eq hNonneg hOrder hWord, ?_⟩
  exact HeartBeat.fits_int_of_nonneg
    (Int.sub_nonneg.mpr hOrder)
    (hArith _ _ _ _ (hWatched.silence hSlack hRuns hBeat)
      (hWatched.small b hMem))

/- A heart-beat that is heard later was heard before. -/
theorem heard_of_le
    {b : HeartBeat}
    {clock clock' : TimePoint}
    (hLe : clock' ≤ clock)
    (hHeard : nowAt clock - b.lastBeat ≤ b.threshold) :
    nowAt clock' - b.lastBeat ≤ b.threshold :=
  Int.le_trans
    (Int.sub_le_sub_right (nowAt_mono hLe) b.lastBeat) hHeard

theorem heardAt_le_clock
    (hRerun : 0 ≤ s.manager.rerunTime)
    (hSlack : 0 ≤ slack)
    (hBegun : s.Begun)
    (j : Nat) :
    heardAt slack s j ≤ s.clock := by
  have hBack := milliseconds_nonneg
    (Int.add_nonneg hRerun hSlack)
  unfold heardAt
  unfold Begun at hBegun
  split
  · next next hPhase =>
      rw [hPhase] at hBegun
      exact Int.sub_right_le_of_le_add hBegun
  · next start k hPhase =>
      rw [hPhase] at hBegun
      split
      · exact hBegun
      · exact Int.le_trans (Int.sub_le_self start hBack)
          hBegun
  · exact Int.le_refl _

------------------------------------------------------------
-- Steps
------------------------------------------------------------

theorem watched_of_initial
    {calls : List (MillisecondTime × MillisecondTime)}
    (hSlack : 0 ≤ slack)
    (hCalls : ∀ c ∈ calls, 0 ≤ c.1 ∧
      11 * c.1 + 20 * slack ≤ 10 * intMax)
    (hInit : Initial calls s) :
    Watched slack s := by
  have hFrequent : s.manager.Frequent := by
    rw [hInit.manager]
    exact frequent_made fun c hc => (hCalls c hc).1
  have hRerun := milliseconds_nonneg hFrequent.1
  refine ⟨hFrequent, ?_, hInit.nonneg, hInit.word, ?_, ?_, ?_,
    ?_, ?_⟩
  · intro b hb
    rw [hInit.manager] at hb
    rcases exists_call_of_mem hb with ⟨c, hc, hSame⟩
    rw [hSame]
    exact (hCalls c hc).2
  · exact fun b hb =>
      ⟨(hInit.beaten b hb).1, (hInit.beaten b hb).2.1⟩
  · intro _
    rw [hInit.phase]
    exact Int.le_add_of_nonneg_right
      (milliseconds_nonneg hSlack)
  · unfold Begun
    rw [hInit.phase]
    exact Int.le_add_of_nonneg_right hRerun
  · intro _ j b hBeat
    have hHeard :=
      (hInit.beaten b (List.mem_of_getElem? hBeat)).2.2
    apply heard_of_le _ hHeard
    unfold heardAt
    rw [hInit.phase]
    exact Int.sub_le_self _ hRerun
  · intro k e hPhase
    rw [hInit.phase] at hPhase
    cases hPhase

/- The clock goes on while the loop is on time. -/
theorem watched_of_tick
    {clock : TimePoint}
    (hLater : s.clock ≤ clock)
    (hWord : Fits 8 clock)
    (hTime : InTime slack clock s.phase)
    (hWatched : Watched slack s) :
    Watched slack { s with clock := clock } := by
  have hRuns : s.Runs := by
    intro k e hPhase
    rw [hPhase] at hTime
    exact hTime
  refine { hWatched with
    nonneg := Int.le_trans hWatched.nonneg hLater
    word := hWord
    beaten := ?_, inTime := fun _ => hTime
    begun := ?_, heard := ?_, found := ?_ }
  · intro b hb
    rcases hWatched.beaten b hb with ⟨hNonneg, hOrder⟩
    exact ⟨hNonneg, Int.le_trans hOrder (nowAt_mono hLater)⟩
  · have hBegun := hWatched.begun
    unfold Begun at hBegun ⊢
    cases hPhase : s.phase with
    | asleep next =>
        rw [hPhase] at hBegun
        exact Int.le_trans hBegun
          (Int.add_le_add_right hLater _)
    | testing start k =>
        rw [hPhase] at hBegun
        exact Int.le_trans hBegun hLater
    | failed k e => trivial
  · intro _ j b hBeat
    have hSame : heardAt slack { s with clock := clock } j =
        heardAt slack s j := by
      unfold heardAt
      cases hPhase : s.phase with
      | asleep next => rfl
      | testing start k => rfl
      | failed k e => exact absurd hPhase (hRuns k e)
    rw [hSame]
    exact hWatched.heard hRuns j b hBeat
  · exact fun k e hPhase => absurd hPhase (hRuns k e)

/- A thread that beats is heard now. -/
theorem watched_of_beat
    (hSlack : 0 ≤ slack)
    (hRuns : s.Runs)
    (hWatched : Watched slack s)
    (k : Nat) :
    Watched slack (s.beat k) := by
  have hOrigin : ∀ (j : Nat) b,
      (s.beat k).manager.beats[j]? = some b →
      ∃ b', s.manager.beats[j]? = some b' ∧
        b.threshold = b'.threshold ∧
        (b.lastBeat = b'.lastBeat ∨
          b.lastBeat = nowAt s.clock) := by
    intro j b hBeat
    unfold beat at hBeat
    dsimp only at hBeat
    rw [List.getElem?_modify] at hBeat
    rcases Option.map_eq_some_iff.mp hBeat with
      ⟨b', hOld, hNew⟩
    refine ⟨b', hOld, ?_⟩
    split at hNew
    · rw [← hNew]
      exact ⟨rfl, Or.inr rfl⟩
    · rw [← hNew]
      exact ⟨rfl, Or.inl rfl⟩
  have hMember : ∀ b ∈ (s.beat k).manager.beats,
      ∃ b' ∈ s.manager.beats, b.threshold = b'.threshold ∧
        (b.lastBeat = b'.lastBeat ∨
          b.lastBeat = nowAt s.clock) := by
    intro b hb
    rcases List.getElem?_of_mem hb with ⟨j, hBeat⟩
    rcases hOrigin j b hBeat with ⟨b', hOld, hSame⟩
    exact ⟨b', List.mem_of_getElem? hOld, hSame⟩
  refine ⟨⟨hWatched.frequent.1, ?_⟩, ?_, hWatched.nonneg,
    hWatched.word, ?_, fun _ => hWatched.inTime hRuns,
    hWatched.begun, ?_, fun k e hPhase =>
      absurd hPhase (hRuns k e)⟩
  · intro b hb
    rcases hMember b hb with ⟨b', hb', hSame, _⟩
    rw [hSame]
    exact hWatched.frequent.2 b' hb'
  · intro b hb
    rcases hMember b hb with ⟨b', hb', hSame, _⟩
    rw [hSame]
    exact hWatched.small b' hb'
  · intro b hb
    rcases hMember b hb with ⟨b', hb', _, hOld | hNow⟩
    · rw [hOld]
      exact hWatched.beaten b' hb'
    · rw [hNow]
      exact ⟨Int.ediv_nonneg hWatched.nonneg (by decide),
        Int.le_refl _⟩
  · intro _ j b hBeat
    rcases hOrigin j b hBeat with
      ⟨b', hOld, hSame, hKept | hNow⟩
    · rw [hSame, hKept]
      exact hWatched.heard hRuns j b' hOld
    · have hLe := nowAt_mono (heardAt_le_clock
        hWatched.frequent.1 hSlack hWatched.begun j)
      have hThreshold := (hWatched.frequent.2 b'
        (List.mem_of_getElem? hOld)).1
      rw [hNow, hSame]
      exact Int.le_trans (Int.sub_nonpos_of_le hLe)
        hThreshold

/- The next pass begins. -/
theorem watched_of_wake
    {next : TimePoint}
    (hPhase : s.phase = .asleep next)
    (hWatched : Watched slack s)
    (hSlack : 0 ≤ slack) :
    Watched slack { s with phase := .testing s.clock 0 } := by
  have hRuns : s.Runs := by
    intro k e hFailed
    rw [hPhase] at hFailed
    cases hFailed
  have hTime := hWatched.inTime hRuns
  rw [hPhase] at hTime
  refine { hWatched with
    inTime := fun _ => Int.le_add_of_nonneg_right
      (milliseconds_nonneg hSlack)
    begun := Int.le_refl s.clock
    heard := ?_
    found := fun k e hFailed => by cases hFailed }
  intro _ j b hBeat
  apply heard_of_le _ (hWatched.heard hRuns j b hBeat)
  have hArith : ∀ clock next rerun late : Int,
      clock ≤ next + late →
      clock - (rerun + late) ≤ next - rerun := by
    omega
  unfold heardAt
  rw [hPhase]
  dsimp only
  rw [if_neg (Nat.not_lt_zero j), milliseconds_add]
  exact hArith _ _ _ _ hTime

/- A heart-beat passes the test. -/
theorem watched_of_pass
    {start : TimePoint}
    {k : Nat}
    {b : HeartBeat}
    (hSlack : 0 ≤ slack)
    (hPhase : s.phase = .testing start k)
    (hBeat : s.manager.beats[k]? = some b)
    (hOk : b.throwIfLate (nowAt s.clock) = .ok ())
    (hWatched : Watched slack s) :
    Watched slack
      { s with phase := .testing start (k + 1) } := by
  have hRuns : s.Runs := by
    intro k e hFailed
    rw [hPhase] at hFailed
    cases hFailed
  have hTime := hWatched.inTime hRuns
  have hBegun := hWatched.begun
  unfold Begun at hBegun
  rw [hPhase] at hTime hBegun
  refine { hWatched with
    inTime := fun _ => hTime
    begun := hBegun
    heard := ?_
    found := fun k e hFailed => by cases hFailed }
  intro _ j b' hBeat'
  have hOld := hWatched.heard hRuns j b' hBeat'
  unfold heardAt at hOld ⊢
  rw [hPhase] at hOld
  dsimp only at hOld ⊢
  rcases Nat.lt_trichotomy j k with hLess | rfl | hMore
  · rw [if_pos hLess] at hOld
    rw [if_pos (Nat.lt_succ_of_lt hLess)]
    exact hOld
  · -- the one that has just been tested
    rw [hBeat] at hBeat'
    cases hBeat'
    rcases hWatched.delta hSlack hRuns hBeat with
      ⟨hDelta, hFits⟩
    have hEarly : ¬ b.threshold <
        nowAt s.clock - b.lastBeat := by
      intro hLate
      have hError := (HeartBeat.throwIfLate_eq_error
        hDelta).mpr ⟨by rwa [narrow_eq hFits], rfl⟩
      rw [hOk] at hError
      cases hError
    rw [if_pos (Nat.lt_succ_self j)]
    exact heard_of_le hBegun (Int.not_lt.mp hEarly)
  · rw [if_neg (by omega)] at hOld
    rw [if_neg (by omega)]
    exact hOld

/- A heart-beat that does not pass the test is late. -/
theorem watched_of_throw
    {start : TimePoint}
    {k : Nat}
    {b : HeartBeat}
    {e : HeartBeatException}
    (hSlack : 0 ≤ slack)
    (hPhase : s.phase = .testing start k)
    (hBeat : s.manager.beats[k]? = some b)
    (hLate : b.throwIfLate (nowAt s.clock) = .error e)
    (hWatched : Watched slack s) :
    Watched slack { s with phase := .failed k e } := by
  have hRuns : s.Runs := by
    intro k e hFailed
    rw [hPhase] at hFailed
    cases hFailed
  rcases hWatched.delta hSlack hRuns hBeat with
    ⟨hDelta, hFits⟩
  have hThrown :=
    (HeartBeat.throwIfLate_eq_error hDelta).mp hLate
  rw [narrow_eq hFits] at hThrown
  refine { hWatched with
    inTime := fun hRuns' => absurd rfl (hRuns' k e)
    begun := trivial
    heard := fun hRuns' => absurd rfl (hRuns' k e)
    found := ?_ }
  intro k' e' hFailed
  cases hFailed
  exact ⟨b, hBeat, hThrown.1, hThrown.2⟩

/- All heart-beats have been tested. -/
theorem watched_of_sleep
    {start : TimePoint}
    {k : Nat}
    (hPhase : s.phase = .testing start k)
    (hDone : s.manager.beats[k]? = none)
    (hWatched : Watched slack s) :
    Watched slack
      { s with
        phase := .asleep
          (start + milliseconds s.manager.rerunTime) } := by
  have hRuns : s.Runs := by
    intro k e hFailed
    rw [hPhase] at hFailed
    cases hFailed
  have hTime := hWatched.inTime hRuns
  have hBegun := hWatched.begun
  have hRerun := milliseconds_nonneg hWatched.frequent.1
  unfold Begun at hBegun
  rw [hPhase] at hTime hBegun
  have hArith : ∀ clock start rerun late : Int,
      0 ≤ rerun → clock ≤ start + late →
      clock ≤ start + rerun + late := by
    omega
  refine { hWatched with
    inTime := fun _ => hArith _ _ _ _ hRerun hTime
    begun := Int.add_le_add_right hBegun _
    heard := ?_
    found := fun k e hFailed => by cases hFailed }
  intro _ j b hBeat
  have hOld := hWatched.heard hRuns j b hBeat
  have hLess : j < k := by
    have hInside : j < s.manager.beats.length :=
      (List.getElem?_eq_some_iff.mp hBeat).1
    have hOutside := List.getElem?_eq_none_iff.mp hDone
    omega
  unfold heardAt at hOld ⊢
  rw [hPhase] at hOld
  dsimp only at hOld ⊢
  rw [if_pos hLess] at hOld
  rw [Int.add_sub_cancel]
  exact hOld

theorem watched_of_step
    (hSlack : 0 ≤ slack)
    (hWatched : Watched slack s)
    (hStep : Step slack s s') :
    Watched slack s' := by
  cases hStep with
  | tick clock hLater hWord hTime =>
      exact watched_of_tick hLater hWord hTime hWatched
  | beat k hRuns =>
      exact watched_of_beat hSlack hRuns hWatched k
  | wake next hPhase hDue =>
      exact watched_of_wake hPhase hWatched hSlack
  | pass start k b hPhase hBeat hOk =>
      exact watched_of_pass hSlack hPhase hBeat hOk hWatched
  | throw start k b e hPhase hBeat hLate =>
      exact watched_of_throw hSlack hPhase hBeat hLate
        hWatched
  | sleep start k hPhase hDone =>
      exact watched_of_sleep hPhase hDone hWatched

theorem watched_of_reachable
    {calls : List (MillisecondTime × MillisecondTime)}
    (hSlack : 0 ≤ slack)
    (hCalls : ∀ c ∈ calls, 0 ≤ c.1 ∧
      11 * c.1 + 20 * slack ≤ 10 * intMax)
    (hReach : (system slack calls).Reachable s) :
    Watched slack s :=
  hReach.invariant
    (fun _ => watched_of_initial hSlack hCalls)
    (fun _ _ => watched_of_step hSlack)

------------------------------------------------------------
-- Results
------------------------------------------------------------

/-
  In every run in which the loop is at most `slack` late, the
  process is ended before a thread has been silent for more
  than eleven tenths of its threshold and twice the slack.
-/
theorem silence_le
    {calls : List (MillisecondTime × MillisecondTime)}
    {b : HeartBeat}
    (hSlack : 0 ≤ slack)
    (hCalls : ∀ c ∈ calls, 0 ≤ c.1 ∧
      11 * c.1 + 20 * slack ≤ 10 * intMax)
    (hReach : (system slack calls).Reachable s)
    (hRuns : s.Runs)
    (hBeat : b ∈ s.manager.beats) :
    10 * (nowAt s.clock - b.lastBeat) ≤
      11 * b.threshold + 20 * slack := by
  rcases List.getElem?_of_mem hBeat with ⟨j, hAt⟩
  exact (watched_of_reachable hSlack hCalls hReach).silence
    hSlack hRuns hAt

/- A thread that must beat every 100 ms. -/
def oneThread : Watch where
  clock := 0
  manager := made [(100, 0)]
  phase := .asleep 0

theorem initial_oneThread :
    Initial [(100, 0)] oneThread where
  manager := rfl
  phase := rfl
  nonneg := Int.le_refl 0
  word := by decide
  beaten b hb := by
    rw [List.mem_singleton.mp hb]
    decide

/- After 150 ms it is late, and the pass has not been made. -/
theorem reachable_late :
    (system 200 [(100, 0)]).Reachable
      ⟨150000000, made [(100, 0)], .testing 0 0⟩ := by
  have hInit :
      (system 200 [(100, 0)]).Reachable oneThread :=
    TransitionSystem.Reachable.init initial_oneThread
  have hWoken := hInit.step (Step.wake oneThread 0 rfl
    (Int.le_refl 0))
  exact hWoken.step (Step.tick _ 150000000 (by decide)
    (by decide) (show _ ≤ _ by decide))

theorem silence_le_oneThread :
    10 * (nowAt 150000000 - 0) ≤
      11 * (100 : Int) + 20 * 200 :=
  silence_le (b := ⟨0, 100⟩) (by decide) (by decide)
    reachable_late (fun _ _ hFailed => by cases hFailed)
    List.mem_cons_self

/-
  In every such run the exception is about a thread that is
  late, and tells by how much.
-/
theorem failed_late
    {calls : List (MillisecondTime × MillisecondTime)}
    {k : Nat}
    {e : HeartBeatException}
    (hSlack : 0 ≤ slack)
    (hCalls : ∀ c ∈ calls, 0 ≤ c.1 ∧
      11 * c.1 + 20 * slack ≤ 10 * intMax)
    (hReach : (system slack calls).Reachable s)
    (hFailed : s.phase = .failed k e) :
    ∃ b, s.manager.beats[k]? = some b ∧
      b.threshold < nowAt s.clock - b.lastBeat ∧
      e = ⟨nowAt s.clock - b.lastBeat, b.threshold⟩ :=
  (watched_of_reachable hSlack hCalls hReach).found k e
    hFailed

/- The thread that is late is found. -/
theorem failed_late_oneThread :
    ∃ s : Watch, (system 200 [(100, 0)]).Reachable s ∧
      s.phase = .failed 0 ⟨150, 100⟩ ∧
      ∃ b, s.manager.beats[0]? = some b ∧
        b.threshold < nowAt s.clock - b.lastBeat := by
  have hThrown := reachable_late.step
    (Step.throw _ 0 0 ⟨0, 100⟩ ⟨150, 100⟩ rfl rfl (by decide))
  rcases failed_late (by decide) (by decide) hThrown rfl with
    ⟨b, hBeat, hLate, _⟩
  exact ⟨_, hThrown, rfl, b, hBeat, hLate⟩

end Silence

end Watch

end ElevatorControl
