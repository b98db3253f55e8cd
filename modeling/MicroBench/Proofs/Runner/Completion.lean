import MicroBench.Proofs.Fallible
import MicroBench.Runner

/-! What a run leaves behind when it completes, whatever its thunk and its clock do. The
environment of a run is a state that every reading of the clock, every call and every
report may look at and change. -/
namespace MicroBench

theorem satSum_append_singleton (words : List UInt64) (n : UInt64) :
    satSum (words ++ [n]) = satAdd (satSum words) n := by
  simp [satSum, List.foldl_append]

structure Measured.Fits (measured : Measured) (runner : Runner) (calls : Nat) : Prop where
  kept : runner.captureSamples = true → measured.reversed.length = calls ∧
    satSum measured.reversed.reverse = measured.totalNanos
  dropped : runner.captureSamples = false → measured.reversed = []
  untimed : calls = 0 → measured.totalNanos = 0

theorem Measured.fits_zero (runner : Runner) : Measured.Fits ⟨0, []⟩ runner 0 := by
  refine ⟨?_, ?_, ?_⟩
  · intro _
    exact ⟨rfl, rfl⟩
  · intro _
    rfl
  · intro _
    rfl

namespace Runner

variable {σ ε : Type} {runner : Runner} {bench : Bench (StateM σ) ε}

theorem add_fits {measured : Measured} {calls : Nat} (fits : measured.Fits runner calls)
    (nanos : UInt64) : (runner.add measured nanos).Fits runner (calls + 1) := by
  refine ⟨?_, ?_, ?_⟩
  · intro captured
    obtain ⟨count, sum⟩ := fits.kept captured
    simp only [add, captured, if_true, List.length_cons, count, List.reverse_cons,
      satSum_append_singleton, sum, and_self]
  · intro dropped
    simp only [add, dropped, Bool.false_eq_true, if_false]
    exact fits.dropped dropped
  · intro impossible
    cases impossible

/-- One measured call: the nanoseconds between the readings around it, unless it failed. -/
def lap (bench : Bench (StateM σ) ε) : StateM σ (Except ε UInt64) := do
  let start ← bench.now
  let outcome ← bench.call
  let nanos ← Clock.elapsedNanos bench.now bench.log start
  pure (outcome.map fun _ => nanos)

theorem lap_outcome (bench : Bench (StateM σ) ε) (s : σ) :
    ∃ between nanos, ((lap bench).run s).1 = (bench.call.run between).1.map fun _ => nanos :=
  ⟨(bench.now.run s).2, _, rfl⟩

theorem warmUp_succ (bench : Bench (StateM σ) ε) (count : Nat) :
    warmUp bench (count + 1) = bench.call >>= goOn fun _ => warmUp bench count := by
  rw [warmUp]
  congr 1
  funext outcome
  cases outcome <;> rfl

/-- Measuring is one lap, and then the rest if that did not fail. -/
theorem measure_succ (runner : Runner) (bench : Bench (StateM σ) ε) (measured : Measured)
    (count : Nat) :
    runner.measure bench measured (count + 1) =
      lap bench >>= goOn fun nanos => runner.measure bench (runner.add measured nanos) count := by
  simp only [measure, lap, bind_assoc, pure_bind]
  congr 1
  funext start
  congr 1
  funext outcome
  cases outcome <;> rfl

/-- What the measured calls add up to fits their number, by induction on them. -/
theorem measure_fits {measured last : Measured} {before count : Nat} {s after : σ}
    (fits : measured.Fits runner before)
    (h : (runner.measure bench measured count).run s = (.ok last, after)) :
    last.Fits runner (before + count) := by
  induction count generalizing measured before s with
  | zero =>
    obtain ⟨same, -⟩ := Prod.mk.inj h
    cases same
    exact fits
  | succ count ih =>
    rw [measure_succ] at h
    obtain ⟨nanos, between, -, rest⟩ := run_goOn_eq_ok h
    have := ih (add_fits fits nanos) rest
    rwa [Nat.add_right_comm] at this

def complete (bench : Bench (StateM σ) ε) (iterations warmup : UInt64) (last : Measured) :
    StateM σ (Except ε Record) := do
  let record := Record.withTotals iterations last.totalNanos last.reversed.reverse
  bench.log (runComplete record warmup)
  pure (.ok record)

theorem tryRun_eq (runner : Runner) (iterations warmup : UInt64) (bench : Bench (StateM σ) ε) :
    runner.tryRun iterations warmup bench =
      warmUp bench warmup.toNat >>= goOn fun _ =>
        runner.measure bench ⟨0, []⟩ iterations.toNat >>= goOn
          (complete bench iterations warmup) := by
  rw [tryRun]
  congr 1
  funext warmed
  cases warmed with
  | error e => rfl
  | ok done =>
    refine congrArg (_ >>= ·) ?_
    funext measured
    cases measured <;> rfl

/-- Every record that a run returns is made of its iterations and of what it measured. -/
theorem tryRun_eq_ok {iterations warmup : UInt64} {s after : σ} {r : Record}
    (h : (runner.tryRun iterations warmup bench).run s = (.ok r, after)) :
    ∃ last : Measured, last.Fits runner iterations.toNat ∧
      r = .withTotals iterations last.totalNanos last.reversed.reverse := by
  rw [tryRun_eq] at h
  obtain ⟨-, warmed, -, measuring⟩ := run_goOn_eq_ok h
  obtain ⟨last, ended, measured, completed⟩ := run_goOn_eq_ok measuring
  have fits := measure_fits (Measured.fits_zero runner) measured
  rw [Nat.zero_add] at fits
  refine ⟨last, fits, ?_⟩
  obtain ⟨same, -⟩ := Prod.mk.inj completed
  cases same
  rfl

/-! ### A thunk that never fails -/

variable (never : ∀ s, (bench.call.run s).1 = .ok ())

include never

theorem lap_of_never (s : σ) : ∃ nanos after, (lap bench).run s = (.ok nanos, after) := by
  obtain ⟨between, nanos, outcome⟩ := lap_outcome bench s
  rw [never between] at outcome
  exact ⟨nanos, _, Prod.ext outcome rfl⟩

theorem warmUp_of_never (count : Nat) (s : σ) :
    ∃ after, (warmUp bench count).run s = (.ok (), after) := by
  induction count generalizing s with
  | zero => exact ⟨s, rfl⟩
  | succ count ih =>
    have called : bench.call.run s = (.ok (), (bench.call.run s).2) := Prod.ext (never s) rfl
    rw [warmUp_succ, run_goOn_of_ok called]
    exact ih _

theorem measure_of_never (runner : Runner) (measured : Measured) (count : Nat) (s : σ) :
    ∃ last after, (runner.measure bench measured count).run s = (.ok last, after) := by
  induction count generalizing measured s with
  | zero => exact ⟨measured, s, rfl⟩
  | succ count ih =>
    obtain ⟨nanos, between, lapped⟩ := lap_of_never never s
    rw [measure_succ, run_goOn_of_ok lapped]
    exact ih _ _

/-- A run completes if its thunk never fails, whatever the clock reads. -/
theorem tryRun_of_never (runner : Runner) (iterations warmup : UInt64) (s : σ) :
    ∃ r after, (runner.tryRun iterations warmup bench).run s = (.ok r, after) := by
  obtain ⟨warmed, warm⟩ := warmUp_of_never never warmup.toNat s
  obtain ⟨last, ended, measured⟩ := measure_of_never never runner ⟨0, []⟩ iterations.toNat warmed
  rw [tryRun_eq, run_goOn_of_ok warm, run_goOn_of_ok measured]
  exact ⟨_, _, rfl⟩

omit never

def neverFailing (now : StateM σ Instant) (log : Event → StateM σ Unit) (call : StateM σ Unit) :
    Bench (StateM σ) Empty :=
  { now, log, call := do call; pure (.ok ()) }

/-- A run of a thunk that cannot fail is a run of one that does not. -/
theorem run_eq (runner : Runner) (iterations warmup : UInt64) (now : StateM σ Instant)
    (log : Event → StateM σ Unit) (call : StateM σ Unit) (s : σ) :
    ∃ r after,
      (runner.tryRun iterations warmup (neverFailing now log call)).run s = (.ok r, after) ∧
      (runner.run iterations warmup now log call).run s = (r, after) := by
  have never (s : σ) : ((neverFailing now log call).call.run s).1 = .ok () := rfl
  obtain ⟨r, after, result⟩ := tryRun_of_never never runner iterations warmup s
  refine ⟨r, after, result, ?_⟩
  rw [run, StateT.run_bind]
  rw [neverFailing] at result
  rw [result]
  rfl

/-- Samples are there if they are to be kept and there was something to measure. -/
theorem samples_of_run {σ : Type} (runner : Runner) (iterations warmup : UInt64)
    (now : StateM σ Instant) (log : Event → StateM σ Unit) (call : StateM σ Unit) (s : σ) :
    ((runner.run iterations warmup now log call).run s).1.samples = [] ↔
      runner.captureSamples = false ∨ iterations = 0 := by
  obtain ⟨r, after, completed, same⟩ := run_eq runner iterations warmup now log call s
  obtain ⟨last, fits, rfl⟩ := tryRun_eq_ok completed
  rw [same]
  have kept : last.reversed.reverse = [] ↔ runner.captureSamples = false ∨ iterations = 0 := by
    cases captured : runner.captureSamples with
    | false => simp [fits.dropped captured]
    | true =>
      obtain ⟨count, -⟩ := fits.kept captured
      rw [List.reverse_eq_nil_iff, ← List.length_eq_zero_iff, count, ← UInt64.toNat_inj]
      simp
  exact kept

end Runner

end MicroBench
