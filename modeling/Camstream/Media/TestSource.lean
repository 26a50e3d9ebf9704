import Camstream.Lib.Run
import Camstream.Media.TestPattern

/-!
# The test source

`test_source_create`, `test_start`, `sleep_until` and `test_capture` of `src/media/test_source.c`. A source
renders into three buffers in turn and sleeps up to a deadline before each picture. The clock is read before
the sleep and after it; what it says then is an input, as are what `clock_nanosleep` returns and what
`malloc` leaves in the buffers.

The deadlines are a period apart at least, and a deadline is never in the past when it is set: `Pacing` has
what follows for the times of the pictures. A source that falls behind catches up by one picture at most.
`sleep_until` looks for `EINTR` in `errno`, where `clock_nanosleep` does not put it, so that a signal can end
the sleep: the times are those of `Pacing` as long as none does.
-/

namespace Camstream

open Memory Loops

/-- `TEST_BUFFER_COUNT` -/
def testBufferCount : ℕ := 3

/-- `struct TestSource`, without its name. -/
structure TestSource where
  width : UInt32
  height : UInt32
  fps : UInt32
  frameSize : ℕ
  buffers : ℕ → ℕ → UInt8
  current : ℕ
  nextDeadlineUs : UInt64
  sequence : UInt64

/-- `test_source_create`: whether all the memory is there, and what is in it. -/
def testSourceCreate (width height fps : UInt32) (allocated : Bool) (heap : ℕ → ℕ → UInt8) :
    Option TestSource :=
  if width < 64 ∨ height < 48 ∨ fps = 0 then none
  else if ¬ allocated then none
  else
    let width := width &&& ~~~ 1
    let height := height &&& ~~~ 1
    some ⟨width, height, fps, width.toNat * height.toNat * 2, heap, 0, 0, 0⟩

/-- `test_start` -/
def testStart (impl : TestSource) (now : UInt64) : TestSource := { impl with nextDeadlineUs := now }

/-- `period_us` -/
def testPeriodUs (fps : UInt32) : UInt64 := 1000000 / fps.toUInt64

/-- The deadline that `test_capture` sets. -/
def testDeadline (fps : UInt32) (previous now : UInt64) : UInt64 :=
  let deadline := previous + testPeriodUs fps
  if deadline < now then now + testPeriodUs fps else deadline

/-- The picture that `test_capture` hands out, with what its buffer holds then. -/
structure TestPicture where
  timestampUs : UInt64
  data : ℕ → UInt8
  size : ℕ
  bufferIndex : ℕ

/-- `EINTR` -/
def eintr : ℤ := 4

/-- A call of `clock_nanosleep`: what it returns, and what the clock says then. -/
structure Nap where
  result : ℤ
  clock : UInt64
  deriving DecidableEq, Repr

/-- `sleep_until` with the calls it makes, up to the last; `none` if it does not return. The calls leave
`errno` alone. -/
def sleepUntil (errno : ℤ) : List Nap → Option Nap
  | [] => none
  | nap :: naps => if nap.result ≠ 0 ∧ errno = eintr then sleepUntil errno naps else some nap

/-- What the clock says before and after the sleep, with the sleep itself. -/
structure ClockReadings where
  now : UInt64
  errno : ℤ
  naps : List Nap
  wake : UInt64
  deriving DecidableEq, Repr

/-- `test_capture` -/
def testCapture (impl : TestSource) (clock : ClockReadings) : Option (TestPicture × TestSource) := do
  let nextDeadlineUs := testDeadline impl.fps impl.nextDeadlineUs clock.now
  let _ ← sleepUntil clock.errno clock.naps
  let current := (impl.current + 1) % testBufferCount
  let buffer := impl.buffers current
  let stores ← renderFrame impl.width impl.height impl.fps impl.sequence
  let buffer := run buffer stores buffer
  return (⟨clock.wake, buffer, impl.frameSize, current⟩,
    { impl with
      buffers := Function.update impl.buffers current buffer
      current := current
      nextDeadlineUs := nextDeadlineUs
      sequence := impl.sequence + 1 })

/-- A source with the pictures it has handed out. -/
structure TestRun where
  source : TestSource
  pictures : List TestPicture

def testRunStep (r : TestRun) (clock : ClockReadings) : Option TestRun :=
  (testCapture r.source clock).map fun captured ↦ ⟨captured.2, r.pictures ++ [captured.1]⟩

/-- The clock does not run backwards and has not run for `2 ^ 63` microseconds; every sleep ends; and
`clock_nanosleep` returns `0` at the deadline or later. -/
def Timely (fps : UInt32) : UInt64 → UInt64 → List ClockReadings → Prop
  | _, _, [] => True
  | last, deadline, clock :: clocks =>
    let next := testDeadline fps deadline clock.now
    last ≤ clock.now ∧ clock.now ≤ clock.wake ∧ clock.wake.toNat < 2 ^ 63 ∧
      (sleepUntil clock.errno clock.naps).isSome ∧
      (∀ nap ∈ clock.naps, nap.clock ≤ clock.wake ∧ (nap.result = 0 → next ≤ nap.clock)) ∧
      Timely fps clock.wake next clocks

/-- No signal ends the sleep: the first call of `clock_nanosleep` succeeds, or `errno` is `EINTR` from
before. -/
def ClockReadings.Undisturbed (clock : ClockReadings) : Prop :=
  clock.errno = eintr ∨ ∀ nap ∈ clock.naps.head?, nap.result = 0

instance (clock : ClockReadings) : Decidable clock.Undisturbed :=
  inferInstanceAs (Decidable (_ ∨ _))

/-! ### The sleep -/

variable {errno : ℤ} {naps : List Nap} {nap : Nap}

/-- The sleep ends with one of its naps. -/
theorem mem_of_sleepUntil (h : sleepUntil errno naps = some nap) : nap ∈ naps := by
  induction naps with
  | nil => cases h
  | cons first naps ih =>
    rw [sleepUntil] at h
    split_ifs at h
    · exact List.mem_cons_of_mem _ (ih h)
    · obtain rfl := Option.some.inj h
      exact List.mem_cons_self

/-- A call that fails can end the sleep as the first one only. -/
theorem head?_of_sleepUntil (h : sleepUntil errno naps = some nap) (hresult : nap.result ≠ 0) :
    errno ≠ eintr ∧ naps.head? = some nap := by
  induction naps with
  | nil => cases h
  | cons first naps ih =>
    rw [sleepUntil] at h
    split_ifs at h with hretry
    · exact absurd hretry.2 (ih h).1
    · obtain rfl := Option.some.inj h
      exact ⟨fun herrno ↦ hretry ⟨hresult, herrno⟩, rfl⟩

/-- Without a signal it ends at its deadline. -/
theorem ClockReadings.Undisturbed.result_eq {clock : ClockReadings} (h : clock.Undisturbed)
    (hslept : sleepUntil clock.errno clock.naps = some nap) : nap.result = 0 := by
  by_contra hresult
  obtain ⟨herrno, hfirst⟩ := head?_of_sleepUntil hslept hresult
  exact hresult (h.resolve_left herrno nap hfirst)

/-- A signal in the first call ends the sleep, whatever `clock_nanosleep` returns. -/
example : sleepUntil 0 [⟨eintr, 5⟩, ⟨0, 33333⟩] = some ⟨eintr, 5⟩ := by decide

/-! ### Deadlines -/

/-- A period is a second at most. -/
theorem toNat_testPeriodUs_le (fps : UInt32) : (testPeriodUs fps).toNat ≤ 1000000 := by
  rw [testPeriodUs, UInt64.toNat_div]
  exact Nat.div_le_self _ _

/-- **A deadline** is a period after the one before, and not in the past. -/
theorem le_toNat_testDeadline (fps : UInt32) {previous now : UInt64} (hprevious : previous.toNat < 2 ^ 63)
    (hnow : now.toNat < 2 ^ 63) :
    previous.toNat + (testPeriodUs fps).toNat ≤ (testDeadline fps previous now).toNat ∧
      now.toNat ≤ (testDeadline fps previous now).toNat := by
  have hperiod := toNat_testPeriodUs_le fps
  have hadd : ∀ t : UInt64, t.toNat < 2 ^ 63 →
      (t + testPeriodUs fps).toNat = t.toNat + (testPeriodUs fps).toNat := by
    intro t ht
    rw [UInt64.toNat_add, Nat.mod_eq_of_lt (by omega)]
  rw [testDeadline]
  split_ifs with hlate
  · rw [UInt64.lt_iff_toNat_lt, hadd previous hprevious] at hlate
    rw [hadd now hnow]
    omega
  · rw [UInt64.lt_iff_toNat_lt, hadd previous hprevious] at hlate
    rw [hadd previous hprevious]
    omega

/-! ### Runs -/

/-- What a source has come to that was started at a time: its settings, and where it is. -/
structure TestRun.Tracks (source : TestSource) (r : TestRun) : Prop where
  width : r.source.width = source.width
  height : r.source.height = source.height
  fps : r.source.fps = source.fps
  frameSize : r.source.frameSize = source.frameSize
  sequence : r.source.sequence.toNat = r.pictures.length
  current : r.source.current = r.pictures.length % testBufferCount
  picture : ∀ k p, r.pictures[k]? = some p → p.bufferIndex = (k + 1) % testBufferCount ∧
    p.size = source.frameSize ∧ ShowsPattern source.width source.height source.fps (UInt64.ofNat k) p.data
  buffer : ∀ k p, r.pictures[k]? = some p → r.pictures.length ≤ k + testBufferCount →
    r.source.buffers p.bufferIndex = p.data

/-- The times of the pictures, when the clock was last read at `last`. -/
structure TestRun.Clocked (last : UInt64) (r : TestRun) : Prop where
  last_lt : last.toNat < 2 ^ 63
  newest : ∀ k p, r.pictures[k]? = some p → r.pictures.length = k + 1 → p.timestampUs = last
  ordered : ∀ k p q, r.pictures[k]? = some p → r.pictures[k + 1]? = some q →
    p.timestampUs.toNat ≤ q.timestampUs.toNat

/-- Their distances, if every sleep lasts. -/
structure TestRun.Pacing (source : TestSource) (start last : UInt64) (r : TestRun) : Prop where
  elapsed : start.toNat + r.pictures.length * (testPeriodUs source.fps).toNat ≤ r.source.nextDeadlineUs.toNat
  deadline_le : r.source.nextDeadlineUs.toNat ≤ last.toNat
  older : ∀ k p, r.pictures[k]? = some p → r.pictures.length = k + 2 →
    p.timestampUs.toNat ≤ r.source.nextDeadlineUs.toNat
  reached : ∀ k p, r.pictures[k]? = some p →
    start.toNat + (k + 1) * (testPeriodUs source.fps).toNat ≤ p.timestampUs.toNat
  spaced : ∀ k p q, r.pictures[k]? = some p → r.pictures[k + 2]? = some q →
    p.timestampUs.toNat + (testPeriodUs source.fps).toNat ≤ q.timestampUs.toNat

variable {source : TestSource} {r : TestRun} {clock : ClockReadings} {start last : UInt64}

/-- **A capture** renders the next number into the next buffer. -/
theorem exists_testCapture {impl : TestSource} (hsize : TestSize impl.width impl.height)
    (hsequence : impl.sequence.toNat < 10 ^ 12) (hslept : (sleepUntil clock.errno clock.naps).isSome) :
    ∃ p : TestPicture, p.timestampUs = clock.wake ∧ p.size = impl.frameSize ∧
      p.bufferIndex = (impl.current + 1) % testBufferCount ∧
      ShowsPattern impl.width impl.height impl.fps impl.sequence p.data ∧
      testCapture impl clock = some (p, { impl with
        buffers := Function.update impl.buffers p.bufferIndex p.data
        current := p.bufferIndex
        nextDeadlineUs := testDeadline impl.fps impl.nextDeadlineUs clock.now
        sequence := impl.sequence + 1 }) := by
  obtain ⟨stores, hstores⟩ := (exists_renderFrame_iff impl.width impl.height impl.fps impl.sequence).2 hsequence
  let buffer := impl.buffers ((impl.current + 1) % testBufferCount)
  refine ⟨⟨clock.wake, run buffer stores buffer, impl.frameSize, (impl.current + 1) % testBufferCount⟩, rfl,
    rfl, rfl, showsPattern_run hsize hstores buffer buffer, ?_⟩
  obtain ⟨nap, hnap⟩ := Option.isSome_iff_exists.1 hslept
  rw [testCapture, hnap, hstores]
  rfl

/-- A picture is added to the run. -/
theorem testRunStep_of_capture {p : TestPicture} {s : TestSource}
    (h : testCapture r.source clock = some (p, s)) : testRunStep r clock = some ⟨s, r.pictures ++ [p]⟩ := by
  rw [testRunStep, h, Option.map_some]

/-- A capture succeeds as long as the sleep ends and the counter fits. -/
theorem TestRun.Tracks.exists_step (hsize : TestSize source.width source.height) (h : r.Tracks source)
    (hlength : r.pictures.length < 10 ^ 12) (hslept : (sleepUntil clock.errno clock.naps).isSome) :
    ∃ p s, testRunStep r clock = some ⟨s, r.pictures ++ [p]⟩ ∧ p.timestampUs = clock.wake ∧
      s.nextDeadlineUs = testDeadline source.fps r.source.nextDeadlineUs clock.now ∧
      (⟨s, r.pictures ++ [p]⟩ : TestRun).Tracks source := by
  have hsize : TestSize r.source.width r.source.height := by rwa [h.width, h.height]
  have hsequence : r.source.sequence.toNat < 10 ^ 12 := by rwa [h.sequence]
  have hnumber : UInt64.ofNat r.pictures.length = r.source.sequence := by
    rw [← h.sequence, UInt64.ofNat_toNat]
  obtain ⟨p, htime, hpsize, hindex, hshows, hcapture⟩ := exists_testCapture hsize hsequence hslept
  have hindex : p.bufferIndex = (r.pictures.length + 1) % testBufferCount := by
    rw [hindex, h.current, Nat.mod_add_mod]
  refine ⟨p, _, testRunStep_of_capture hcapture, htime, congrArg (fun fps ↦ testDeadline fps _ _) h.fps,
    h.width, h.height, h.fps,
    h.frameSize, ?_, ?_, ?_, ?_⟩
  · have h1 : (1 : UInt64).toNat = 1 := rfl
    show (r.source.sequence + 1).toNat = _
    rw [UInt64.toNat_add, h1, h.sequence, List.length_append, List.length_singleton]
    omega
  · show p.bufferIndex = _
    rw [hindex, List.length_append, List.length_singleton]
  · intro k q hq
    rcases getElem?_snoc_iff.1 hq with hq | ⟨rfl, rfl⟩
    · exact h.picture k q hq
    · rw [h.width, h.height, h.fps, ← hnumber] at hshows
      exact ⟨hindex, hpsize.trans h.frameSize, hshows⟩
  · intro k q hq hrecent
    show Function.update r.source.buffers p.bufferIndex p.data q.bufferIndex = q.data
    rw [List.length_append, List.length_singleton] at hrecent
    rcases getElem?_snoc_iff.1 hq with hq | ⟨rfl, rfl⟩
    · -- the buffers of the two pictures before are others
      have hk : k < r.pictures.length := (List.getElem?_eq_some_iff.1 hq).1
      have hne : q.bufferIndex ≠ p.bufferIndex := by
        rw [(h.picture k q hq).1, hindex, testBufferCount]
        rw [testBufferCount] at hrecent
        omega
      rw [Function.update_of_ne hne]
      exact h.buffer k q hq (by omega)
    · rw [Function.update_self]

/-- The clock goes on. -/
theorem TestRun.Clocked.step (h : r.Clocked last) {p : TestPicture} {s : TestSource}
    (htime : p.timestampUs = clock.wake) (hnow : last ≤ clock.now) (hwake : clock.now ≤ clock.wake)
    (hlt : clock.wake.toNat < 2 ^ 63) : (⟨s, r.pictures ++ [p]⟩ : TestRun).Clocked clock.wake := by
  rw [UInt64.le_iff_toNat_le] at hnow hwake
  refine ⟨hlt, ?_, ?_⟩
  · intro k q hq hnewest
    rw [List.length_append, List.length_singleton] at hnewest
    rcases getElem?_snoc_iff.1 hq with hq | ⟨-, rfl⟩
    · have := (List.getElem?_eq_some_iff.1 hq).1
      omega
    · exact htime
  · intro k q q' hq hq'
    rcases getElem?_snoc_iff.1 hq' with hq' | ⟨hk, rfl⟩
    · have hlt := (List.getElem?_eq_some_iff.1 hq').1
      refine h.ordered k q q' ?_ hq'
      rwa [List.getElem?_append_left (by omega)] at hq
    · rw [List.getElem?_append_left (by omega)] at hq
      rw [htime, h.newest k q hq hk.symm]
      exact hnow.trans hwake

/-- **A sleep that lasts** keeps the distances. -/
theorem TestRun.Pacing.step (h : r.Pacing source start last) (hclock : r.Clocked last) {p : TestPicture}
    {s : TestSource} (htime : p.timestampUs = clock.wake)
    (hdeadline : s.nextDeadlineUs = testDeadline source.fps r.source.nextDeadlineUs clock.now)
    (hnow : last ≤ clock.now) (hwake : clock.now ≤ clock.wake)
    (hslept : testDeadline source.fps r.source.nextDeadlineUs clock.now ≤ clock.wake)
    (hlt : clock.wake.toNat < 2 ^ 63) :
    (⟨s, r.pictures ++ [p]⟩ : TestRun).Pacing source start clock.wake := by
  have hlast := h.deadline_le
  rw [UInt64.le_iff_toNat_le] at hnow hwake hslept
  have hprevious : r.source.nextDeadlineUs.toNat < 2 ^ 63 := hlast.trans_lt hclock.last_lt
  have hnow63 : clock.now.toNat < 2 ^ 63 := hwake.trans_lt hlt
  -- No sum wraps around before 2^63: the deadline is a period on, and not in the past.
  obtain ⟨hperiod, hpast⟩ := le_toNat_testDeadline source.fps hprevious hnow63
  have helapsed := h.elapsed
  rw [← hdeadline] at hslept hperiod hpast
  have hlength : (r.pictures ++ [p]).length = r.pictures.length + 1 := by
    rw [List.length_append, List.length_singleton]
  refine ⟨?_, hslept, ?_, ?_, ?_⟩
  · show start.toNat + (r.pictures ++ [p]).length * _ ≤ _
    rw [hlength, Nat.add_mul, Nat.one_mul]
    show _ ≤ s.nextDeadlineUs.toNat
    omega
  · intro k q hq holder
    rw [hlength] at holder
    rcases getElem?_snoc_iff.1 hq with hq | ⟨rfl, -⟩
    · rw [hclock.newest k q hq (by omega)]
      exact hnow.trans hpast
    · omega
  · intro k q hq
    rcases getElem?_snoc_iff.1 hq with hq | ⟨rfl, rfl⟩
    · exact h.reached k q hq
    · rw [htime, Nat.add_mul, Nat.one_mul]
      omega
  · intro k q q' hq hq'
    rcases getElem?_snoc_iff.1 hq' with hq' | ⟨hk, rfl⟩
    · have hlt := (List.getElem?_eq_some_iff.1 hq').1
      refine h.spaced k q q' ?_ hq'
      rwa [List.getElem?_append_left (by omega)] at hq
    · rw [List.getElem?_append_left (by omega)] at hq
      have hq := h.older k q hq hk.symm
      rw [htime]
      omega

/-- **The run**: it goes through, and keeps the pictures and their times, and their distances as long as no
signal ends a sleep. -/
theorem exists_exec_testRun (hsize : TestSize source.width source.height) {clocks : List ClockReadings}
    (htimely : Timely source.fps last r.source.nextDeadlineUs clocks) (htracks : r.Tracks source)
    (hclock : r.Clocked last) (hlength : r.pictures.length + clocks.length ≤ 10 ^ 12) :
    ∃ r' last', Run.exec testRunStep r clocks = some r' ∧ r'.Tracks source ∧ r'.Clocked last' ∧
      r'.pictures.length = r.pictures.length + clocks.length ∧
      (r.Pacing source start last → (∀ clock ∈ clocks, clock.Undisturbed) →
        r'.Pacing source start last') := by
  induction clocks generalizing r last with
  | nil => exact ⟨r, last, rfl, htracks, hclock, rfl, fun hpacing _ ↦ hpacing⟩
  | cons clock clocks ih =>
    rw [List.length_cons] at hlength
    obtain ⟨hnow, hwake, hlt, hslept, hnaps, htimely⟩ := htimely
    obtain ⟨p, s, hstep, htime, hdeadline, htracks'⟩ := htracks.exists_step hsize (by omega) hslept
    rw [← hdeadline] at htimely
    have hadd : (r.pictures ++ [p]).length = r.pictures.length + 1 := by
      rw [List.length_append, List.length_singleton]
    obtain ⟨r', last', hrun, htracks', hclock', hall, hpaced⟩ := ih (r := ⟨s, r.pictures ++ [p]⟩) htimely
      htracks' (hclock.step htime hnow hwake hlt) (by show (r.pictures ++ [p]).length + _ ≤ _; omega)
    refine ⟨r', last', Run.exec_cons_of_step hstep hrun, htracks', hclock', hall.trans ?_,
      fun hpacing hquiet ↦ hpaced ?_ fun c hc ↦ hquiet c (List.mem_cons_of_mem _ hc)⟩
    · show (r.pictures ++ [p]).length + _ = _
      rw [hadd, List.length_cons]
      omega
    · -- The last call of the sleep has succeeded, and so it has lasted.
      obtain ⟨nap, hnap⟩ := Option.isSome_iff_exists.1 hslept
      obtain ⟨hbefore, hreached⟩ := hnaps nap (mem_of_sleepUntil hnap)
      have hresult := (hquiet clock List.mem_cons_self).result_eq hnap
      exact hpacing.step hclock htime hdeadline hnow hwake
        (UInt64.le_trans (hreached hresult) hbefore) hlt

/-- A source that was created has a size that is allowed, and has not yet rendered. -/
theorem testSourceCreate_eq_some {width height fps : UInt32} {allocated : Bool} {heap : ℕ → ℕ → UInt8}
    (h : testSourceCreate width height fps allocated heap = some source) (hwidth : width.toNat < 2 ^ 31)
    (hheight : height.toNat * 3 < 2 ^ 32) : TestSize source.width source.height ∧ source.fps = fps ∧
      ∀ now, (⟨testStart source now, []⟩ : TestRun).Tracks source := by
  have h64 : (64 : UInt32).toNat = 64 := rfl
  have h48 : (48 : UInt32).toNat = 48 := rfl
  rw [testSourceCreate] at h
  split_ifs at h with hreject hmemory
  obtain rfl := Option.some.inj h
  obtain ⟨hwide, hreject⟩ := not_or.1 hreject
  obtain ⟨htall, -⟩ := not_or.1 hreject
  rw [UInt32.lt_iff_toNat_lt, h64] at hwide
  rw [UInt32.lt_iff_toNat_lt, h48] at htall
  refine ⟨⟨?_, ?_, ?_, ?_, ?_⟩, rfl, fun now ↦ ⟨rfl, rfl, rfl, rfl, rfl, rfl, ?_, ?_⟩⟩
  · show 64 ≤ (width &&& ~~~ 1).toNat
    rw [toNat_and_not_one]
    omega
  · show 48 ≤ (height &&& ~~~ 1).toNat
    rw [toNat_and_not_one]
    omega
  · show (width &&& ~~~ 1).toNat % 2 = 0
    rw [toNat_and_not_one]
    omega
  · show (width &&& ~~~ 1).toNat < 2 ^ 31
    rw [toNat_and_not_one]
    omega
  · show (height &&& ~~~ 1).toNat * 3 < 2 ^ 32
    rw [toNat_and_not_one]
    omega
  · exact fun k p hp ↦ absurd hp.symm (Option.some_ne_none p)
  · exact fun k p hp ↦ absurd hp.symm (Option.some_ne_none p)

/-- **The pictures of a test source**, over every run with an honest clock: they are handed out in the order of
their numbers, each complete in a buffer of its own that the next two captures leave alone, and the times
never decrease. As long as no signal ends a sleep, picture `k` is there `k + 1` periods after the start at the
earliest, and a picture is a period behind the one before the last at least. -/
theorem testSource_of_run {width height fps : UInt32} {allocated : Bool} {heap : ℕ → ℕ → UInt8}
    (hcreate : testSourceCreate width height fps allocated heap = some source) (hwidth : width.toNat < 2 ^ 31)
    (hheight : height.toNat * 3 < 2 ^ 32) (hstart : start.toNat < 2 ^ 63) {clocks : List ClockReadings}
    (htimely : Timely fps start start clocks) (hlength : clocks.length ≤ 10 ^ 12) :
    ∃ r last, Run.exec testRunStep ⟨testStart source start, []⟩ clocks = some r ∧
      r.Tracks source ∧ r.Clocked last ∧ r.pictures.length = clocks.length ∧
      ((∀ clock ∈ clocks, clock.Undisturbed) → r.Pacing source start last) := by
  obtain ⟨hsize, hfps, htracks⟩ := testSourceCreate_eq_some hcreate hwidth hheight
  have hclock : (⟨testStart source start, []⟩ : TestRun).Clocked start :=
    ⟨hstart, fun _ _ hp ↦ absurd hp.symm (Option.some_ne_none _),
      fun _ _ _ hp ↦ absurd hp.symm (Option.some_ne_none _)⟩
  have hpacing : (⟨testStart source start, []⟩ : TestRun).Pacing source start start := by
    refine ⟨?_, Nat.le_refl _, ?_, ?_, ?_⟩
    · show start.toNat + 0 * _ ≤ start.toNat
      omega
    · exact fun k p hp ↦ absurd hp.symm (Option.some_ne_none p)
    · exact fun k p hp ↦ absurd hp.symm (Option.some_ne_none p)
    · exact fun k p q hp ↦ absurd hp.symm (Option.some_ne_none p)
  obtain ⟨r, last, hrun, hr, hr', hall, hpaced⟩ := exists_exec_testRun hsize (hfps ▸ htimely) (htracks start)
    hclock (by show 0 + clocks.length ≤ _; omega)
  exact ⟨r, last, hrun, hr, hr', hall.trans (Nat.zero_add _), hpaced hpacing⟩

/-- A source that falls behind once. In its second sleep it gets a signal, with `EINTR` in `errno`. -/
def sampleClocks : List ClockReadings :=
  [⟨5, 0, [⟨0, 33338⟩], 33340⟩, ⟨33400, eintr, [⟨eintr, 50000⟩, ⟨0, 66690⟩], 66700⟩,
    ⟨200000, 0, [⟨0, 233390⟩], 233400⟩]

def sampleTestSource : TestSource := ⟨64, 48, 30, 6144, fun _ _ ↦ 0, 0, 0, 0⟩

theorem testSourceCreate_sample : testSourceCreate 64 48 30 true (fun _ _ ↦ 0) = some sampleTestSource := rfl

theorem timely_sampleClocks : Timely 30 0 0 sampleClocks :=
  ⟨by decide, by decide, by decide, by decide, by decide, by decide, by decide, by decide, by decide,
    by decide, by decide, by decide, by decide, by decide, by decide, trivial⟩

theorem testSource_of_run_sample : ∃ r last,
    Run.exec testRunStep ⟨testStart sampleTestSource 0, []⟩ sampleClocks = some r ∧
      r.Tracks sampleTestSource ∧ r.Clocked last ∧ r.Pacing sampleTestSource 0 last ∧
      r.pictures.length = sampleClocks.length := by
  obtain ⟨r, last, hrun, htracks, hclock, hlength, hpaced⟩ := testSource_of_run testSourceCreate_sample
    (by decide) (by decide) (by decide) timely_sampleClocks (by decide)
  exact ⟨r, last, hrun, htracks, hclock, hpaced (by decide), hlength⟩

end Camstream
