import MicroBench.Proofs.Runner.Course
import MicroBench.Proofs.Saturating

/-! How runs end. If all calls return, the record of the measured calls is reported and
returned. The first call that does not return ends the run, and nothing is recorded. This
holds whatever the thunk does and whatever the clock shows, and for every way to run a
thunk. -/
namespace MicroBench

namespace Runner

open Lab

variable {τ ε π : Type}

/-- What a run leaves behind when all of its calls return. -/
structure Completed (runner : Runner) (lab : Lab τ ε π) (t : τ) (iterations warmup : UInt64)
    (r : Record) (course : Course τ ε π) : Prop where
  calls : course.calls = warmup.toNat + iterations.toNat
  thunk : course.thunk = lab.after t (warmup.toNat + iterations.toNat)
  /-- The clock is not read before the first measured call, and twice for each of them. -/
  steps : course.steps =
    List.replicate warmup.toNat (.called .returned) ++
      (List.range iterations.toNat).flatMap (fun number =>
        .read (lab.reading (2 * number)) :: .called .returned :: lab.stopSteps number) ++
      [.reported (runComplete r warmup)]
  readings : course.readings = 2 * iterations.toNat
  counted : r.iterations = iterations
  timed : r.totalNanos.toNat =
    min ((lab.times iterations.toNat).map UInt64.toNat).sum largestWord
  rated : (r.nanosPerOp, r.opsPerSec) = rates iterations r.totalNanos
  unallocated : r.bytesPerOp = 0 ∧ r.allocsPerOp = 0
  sampled : r.samples = if runner.captureSamples then lab.times iterations.toNat else []
  captured : runner.captureSamples = true → r = .ofSamples (lab.times iterations.toNat)
  dropped : runner.captureSamples = false →
    r = .ofTotals iterations (clampToWord ((lab.times iterations.toNat).map UInt64.toNat).sum)

/-- What a run leaves behind when the call of this number is the first that does not return. -/
structure Interrupted (lab : Lab τ ε π) (t : τ) (number : Nat) (course : Course τ ε π) :
    Prop where
  calls : course.calls = number + 1
  thunk : course.thunk = lab.after t (number + 1)
  reports : ∀ event, .reported event ∈ course.steps → event = Clock.wentBackwards
  unrecorded : ∀ r warmup, .reported (runComplete r warmup) ∉ course.steps

def Completes (runner : Runner) (lab : Lab τ ε π) (t : τ) (iterations warmup : UInt64)
    (act : Act τ ε π (Except ε Record)) : Prop :=
  ∃ r course, act.from (.start t) = (.ok (.ok r), course) ∧
    runner.Completed lab t iterations warmup r course

/-- The first of so many calls that does not return decides what comes of the act. -/
structure DecidedByFirst (lab : Lab τ ε π) (t : τ) (calls : Nat)
    (act : Act τ ε π (Except ε Record)) : Prop where
  failed : ∀ number < calls, (∀ k < number, lab.ending t k = .returned) →
    ∀ e, lab.ending t number = .failed e →
      ∃ course, act.from (.start t) = (.ok (.error e), course) ∧ Interrupted lab t number course
  panicked : ∀ number < calls, (∀ k < number, lab.ending t k = .returned) →
    ∀ payload, lab.ending t number = .panicked payload →
      ∃ course, act.from (.start t) = (.error payload, course) ∧ Interrupted lab t number course
  completed : (∀ k < calls, lab.ending t k = .returned) →
    ∃ r course, act.from (.start t) = (.ok (.ok r), course)

/-! ### Runs of thunks that may fail -/

section Fallible

variable {lab : Lab τ ε π} {t : τ}

theorem times_length (count : Nat) : (lab.times count).length = count := by
  rw [times, List.length_map, List.length_range]

/-- With its samples kept, a run has the record of these samples. -/
theorem recordOf_captured {runner : Runner} (captured : runner.captureSamples = true)
    (iterations : UInt64) :
    runner.recordOf lab iterations = .ofSamples (lab.times iterations.toNat) := by
  rw [recordOf, Record.ofSamples, times_length, UInt64.ofNat_toNat, if_pos captured]

theorem recordOf_dropped {runner : Runner} (dropped : runner.captureSamples = false)
    (iterations : UInt64) :
    runner.recordOf lab iterations =
      .ofTotals iterations
        (clampToWord ((lab.times iterations.toNat).map UInt64.toNat).sum) := by
  have total : satSum (lab.times iterations.toNat) =
      clampToWord ((lab.times iterations.toNat).map UInt64.toNat).sum := by
    apply UInt64.toNat_inj.1
    rw [toNat_satSum, toNat_clampToWord]
  rw [recordOf, Record.ofTotals, dropped, total]
  rfl

theorem tryRun_completes (runner : Runner) {iterations warmup : UInt64}
    (returned : ∀ k < warmup.toNat + iterations.toNat, lab.ending t k = .returned) :
    runner.Completes lab t iterations warmup (runner.tryRun iterations warmup lab.bench) := by
  refine ⟨_, _, tryRun_of_returned runner iterations warmup returned, ?_⟩
  constructor
  case calls =>
    have quiet := (Quiet.replicate warmup.toNat).append
      (Quiet.laps lab (List.range iterations.toNat))
    rw [Course.calls, List.countP_append, quiet.calls, List.length_range]
    rfl
  case thunk => rfl
  case steps => rfl
  case readings => rfl
  case counted => rfl
  case timed => exact toNat_satSum _
  case rated => rfl
  case unallocated => exact ⟨rfl, rfl⟩
  case sampled => rfl
  case captured =>
    intro captured
    exact recordOf_captured captured iterations
  case dropped =>
    intro dropped
    exact recordOf_dropped dropped iterations

theorem interrupted_of_quiet {number : Nat} {course : Course τ ε π}
    (thunk : course.thunk = lab.after t (number + 1)) (quiet : Quiet course.steps (number + 1)) :
    Interrupted lab t number course := by
  refine ⟨quiet.calls, thunk, quiet.reports, ?_⟩
  intro r warmup reported
  -- the two events are not even of one level
  have same := congrArg Event.level (quiet.reports _ reported)
  cases same

/-- A run ends as its first call that does not return, or completes if there is none. -/
theorem tryRun_decided (runner : Runner) (lab : Lab τ ε π) (t : τ) (iterations warmup : UInt64) :
    DecidedByFirst lab t (warmup.toNat + iterations.toNat)
      (runner.tryRun iterations warmup lab.bench) := by
  constructor
  case failed =>
    intro number less returned e ends
    obtain ⟨course, run, thunk, quiet⟩ :=
      tryRun_of_stops runner less returned ends (.failed e)
    exact ⟨course, run, interrupted_of_quiet thunk quiet⟩
  case panicked =>
    intro number less returned payload ends
    obtain ⟨course, run, thunk, quiet⟩ :=
      tryRun_of_stops runner less returned ends (.panicked payload)
    exact ⟨course, run, interrupted_of_quiet thunk quiet⟩
  case completed =>
    intro returned
    exact ⟨_, _, tryRun_of_returned runner iterations warmup returned⟩

end Fallible

/-! ### Runs of thunks that cannot fail -/

section Infallible

variable {lab : Lab τ Empty π} {t : τ}

theorem run_completes {runner : Runner} {iterations warmup : UInt64}
    (completes : runner.Completes lab t iterations warmup
      (runner.tryRun iterations warmup lab.bench)) :
    runner.Completes lab t iterations warmup
      (.ok <$> runner.run iterations warmup lab.bench.now lab.bench.log lab.callInfallible) := by
  obtain ⟨r, course, ran, completed⟩ := completes
  exact ⟨r, course, from_map_of_ok (run_of_ok ran), completed⟩

theorem run_decided {runner : Runner} {calls : Nat} {iterations warmup : UInt64}
    (decided : DecidedByFirst lab t calls (runner.tryRun iterations warmup lab.bench)) :
    DecidedByFirst lab t calls
      (.ok <$> runner.run iterations warmup lab.bench.now lab.bench.log lab.callInfallible) := by
  constructor
  case failed =>
    intro number less returned e
    cases e
  case panicked =>
    intro number less returned payload ends
    obtain ⟨course, ran, interrupted⟩ := decided.panicked number less returned payload ends
    exact ⟨course, from_map_of_panic (run_of_panic ran), interrupted⟩
  case completed =>
    intro returned
    obtain ⟨r, course, ran⟩ := decided.completed returned
    exact ⟨r, course, from_map_of_ok (run_of_ok ran)⟩

end Infallible

/-! ### Every way to run a thunk -/

/-- A thunk that counts its calls, the third of which ends like this, and a clock that goes forwards
once and then back. -/
def swaying (third : Ending ε π) : Lab Nat ε π where
  call number := (if number = 2 then third else .returned, number + 1)
  reading number := ⟨if number = 1 ∨ number = 2 then 7 else 3, 0, by decide⟩

theorem swaying_returns (number : Nat) :
    (swaying .returned : Lab Nat ε π).ending 0 number = .returned := by
  change (if _ then _ else _) = _
  split <;> rfl

/-- A run all of whose calls return records exactly its measured calls, whether the thunk can fail
or not. -/
theorem completed_run (runner : Runner) (iterations warmup : UInt64) (t : τ) (lab : Lab τ ε π)
    (sure : Lab τ Empty π) :
    ((∀ k < warmup.toNat + iterations.toNat, lab.ending t k = .returned) →
      runner.Completes lab t iterations warmup (runner.tryRun iterations warmup lab.bench) ∧
        standard.Completes lab t iterations warmup
          (tryRunBenchmark iterations warmup lab.bench)) ∧
    ((∀ k < warmup.toNat + iterations.toNat, sure.ending t k = .returned) →
      runner.Completes sure t iterations warmup
          (.ok <$> runner.run iterations warmup sure.bench.now sure.bench.log
            sure.callInfallible) ∧
        standard.Completes sure t iterations warmup
          (.ok <$> runBenchmark iterations warmup sure.bench.now sure.bench.log
            sure.callInfallible)) := by
  constructor
  · intro returned
    exact ⟨tryRun_completes runner returned, tryRun_completes standard returned⟩
  · intro returned
    exact ⟨run_completes (tryRun_completes runner returned),
      run_completes (tryRun_completes standard returned)⟩

theorem completed_run_swaying :
    (∃ r course,
      (tryRunBenchmark 2 1 (swaying .returned : Lab Nat String String).bench).from (.start 0) =
          (.ok (.ok r), course) ∧
        r.totalNanos = 4000000000 ∧ r.samples = [4000000000, 0] ∧ course.calls = 3) ∧
    ∃ (r : Record) (course : Course Nat Empty String),
      (Except.ok (ε := Empty) <$> run ⟨false⟩ 2 1 (swaying .returned).bench.now
          (swaying .returned).bench.log (swaying .returned).callInfallible).from (.start 0) =
          (.ok (.ok r), course) ∧
        r.totalNanos = 4000000000 ∧ r.samples = [] ∧ course.calls = 3 := by
  obtain ⟨fallible, infallible⟩ := completed_run ⟨false⟩ 2 1 0
    (swaying .returned : Lab Nat String String) (swaying .returned)
  constructor
  · obtain ⟨r, course, ran, completed⟩ := (fallible fun k _ => swaying_returns k).2
    refine ⟨r, course, ran, ?_, ?_, completed.calls⟩
    · apply UInt64.toNat_inj.1
      rw [completed.timed]
      decide +kernel
    · rw [completed.sampled]
      decide +kernel
  · obtain ⟨r, course, ran, completed⟩ := (infallible fun k _ => swaying_returns k).1
    refine ⟨r, course, ran, ?_, ?_, completed.calls⟩
    · apply UInt64.toNat_inj.1
      rw [completed.timed]
      decide +kernel
    · rw [completed.sampled]
      decide +kernel

/-- The first call that fails or panics is the last, and the run ends as it does. -/
theorem first_stop_decides (runner : Runner) (iterations warmup : UInt64) (t : τ)
    (lab : Lab τ ε π) (sure : Lab τ Empty π) :
    DecidedByFirst lab t (warmup.toNat + iterations.toNat)
        (runner.tryRun iterations warmup lab.bench) ∧
      DecidedByFirst lab t (warmup.toNat + iterations.toNat)
        (tryRunBenchmark iterations warmup lab.bench) ∧
      DecidedByFirst sure t (warmup.toNat + iterations.toNat)
        (.ok <$> runner.run iterations warmup sure.bench.now sure.bench.log
          sure.callInfallible) ∧
      DecidedByFirst sure t (warmup.toNat + iterations.toNat)
        (.ok <$> runBenchmark iterations warmup sure.bench.now sure.bench.log
          sure.callInfallible) := by
  refine ⟨tryRun_decided runner lab t iterations warmup,
    tryRun_decided standard lab t iterations warmup, ?_, ?_⟩
  · exact run_decided (tryRun_decided runner sure t iterations warmup)
  · exact run_decided (tryRun_decided standard sure t iterations warmup)

theorem first_stop_decides_swaying :
    ∃ course,
      (tryRunBenchmark 2 1 (swaying (.failed "third") : Lab Nat String String).bench).from
          (.start 0) = (.ok (.error "third"), course) ∧
        course.calls = 3 := by
  have runs := first_stop_decides ⟨false⟩ 2 1 0 (swaying (.failed "third") : Lab Nat String String)
    (swaying .returned)
  have returned : ∀ k < 2, (swaying (.failed "third") : Lab Nat String String).ending 0 k =
      .returned := by
    intro k small
    obtain rfl | rfl : k = 0 ∨ k = 1 := by omega
    · rfl
    · rfl
  obtain ⟨course, ran, interrupted⟩ := runs.2.1.failed 2 (by decide) returned "third" rfl
  exact ⟨course, ran, interrupted.calls⟩

end Runner

end MicroBench
