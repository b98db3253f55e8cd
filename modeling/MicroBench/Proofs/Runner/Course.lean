import MicroBench.Proofs.Runner.Lab

/-! Every step of a run, told from how its calls end. If all of them return, these are the
calls that warm up, then a reading, a call and a reading for each measured one, and the
report of the record at last. Otherwise the run stops at the first call that does not
return, as that call does, and there is no record to report. -/
namespace MicroBench

variable {τ ε π α β : Type}

namespace Runner

open Lab

variable {lab : Lab τ ε π} {t : τ} {n : Nat} {past : List (Step ε π)}

/-! ### Calls that are not measured -/

theorem warmUp_of_returned {count : Nat} (returned : ∀ k < count, lab.ending t k = .returned) :
    (warmUp lab.bench count).from ⟨t, n, past⟩ = (.ok (.ok ()),
      ⟨lab.after t count, n, past ++ List.replicate count (.called .returned)⟩) := by
  induction count generalizing t past with
  | zero =>
    rw [List.replicate_zero, List.append_nil]
    rfl
  | succ count ih =>
    have first := returned 0 (Nat.succ_pos count)
    have others : ∀ k < count, lab.ending (lab.call t).2 k = .returned := by
      intro k small
      exact returned (k + 1) (Nat.succ_lt_succ small)
    rw [warmUp, from_bind_of_ok (call_of_returned first), ih others, List.append_assoc,
      List.replicate_succ]
    rfl

theorem warmUp_of_stops {count number : Nat} (less : number < count)
    (returned : ∀ k < number, lab.ending t k = .returned) {ending : Ending ε π}
    (ends : lab.ending t number = ending) {result : Except π (Except ε Unit)}
    (stops : ending.Stops result) :
    (warmUp lab.bench count).from ⟨t, n, past⟩ = (result,
      ⟨lab.after t (number + 1), n,
        past ++ (List.replicate number (.called .returned) ++ [.called ending])⟩) := by
  induction number generalizing count t past with
  | zero =>
    obtain ⟨count, rfl⟩ := Nat.exists_eq_succ_of_ne_zero (Nat.ne_of_gt less)
    rw [warmUp]
    exact from_bind_of_stops stops (call_of_stops ends) fun _ => rfl
  | succ number ih =>
    obtain ⟨count, rfl⟩ := Nat.exists_eq_succ_of_ne_zero (Nat.ne_of_gt (Nat.zero_lt_of_lt less))
    have first := returned 0 (Nat.succ_pos number)
    have others : ∀ k < number, lab.ending (lab.call t).2 k = .returned := by
      intro k small
      exact returned (k + 1) (Nat.succ_lt_succ small)
    rw [warmUp, from_bind_of_ok (call_of_returned first),
      ih (Nat.lt_of_succ_lt_succ less) others ends, List.append_assoc, List.replicate_succ]
    rfl

/-! ### Measured calls -/

theorem measure_succ_of_returned {runner : Runner} {measured : Measured} {number count : Nat}
    (returned : lab.ending t 0 = .returned) :
    (runner.measure lab.bench measured (count + 1)).from ⟨t, 2 * number, past⟩ =
      (runner.measure lab.bench (runner.add measured (lab.time number)) count).from
        ⟨(lab.call t).2, 2 * (number + 1), past ++ lab.lapSteps number .returned⟩ := by
  rw [measure, from_bind_of_ok now_from, from_bind_of_ok (call_of_returned returned),
    from_bind_of_ok (elapsedNanos_from _), List.append_assoc, List.append_assoc]
  rfl

theorem measure_succ_of_stops {runner : Runner} {measured : Measured} {number count : Nat}
    {ending : Ending ε π} (ends : lab.ending t 0 = ending)
    {result : Except π (Except ε Measured)} (stops : ending.Stops result) :
    (runner.measure lab.bench measured (count + 1)).from ⟨t, 2 * number, past⟩ = (result,
      ⟨(lab.call t).2, 2 * number + ending.readings, past ++ lab.lapSteps number ending⟩) := by
  rw [measure, from_bind_of_ok now_from]
  cases stops with
  | failed e =>
    -- the clock is read again before the error is looked at
    rw [from_bind_of_ok (call_of_stops ends (.failed e)), from_bind_of_ok (elapsedNanos_from _),
      List.append_assoc, List.append_assoc]
    rfl
  | panicked payload =>
    rw [from_bind_of_panic (call_of_stops ends (.panicked payload)), List.append_assoc]
    rfl

/-- Calls that all return are measured one after the other, two readings each. -/
theorem measure_of_returned {runner : Runner} {measured : Measured} {number count : Nat}
    (returned : ∀ k < count, lab.ending t k = .returned) :
    (runner.measure lab.bench measured count).from ⟨t, 2 * number, past⟩ =
      (.ok (.ok (((List.range' number count).map lab.time).foldl runner.add measured)),
        ⟨lab.after t count, 2 * (number + count),
          past ++ (List.range' number count).flatMap fun k => lab.lapSteps k .returned⟩) := by
  induction count generalizing t past measured number with
  | zero =>
    rw [List.range'_zero, List.flatMap_nil, List.append_nil]
    rfl
  | succ count ih =>
    have others : ∀ k < count, lab.ending (lab.call t).2 k = .returned := by
      intro k small
      exact returned (k + 1) (Nat.succ_lt_succ small)
    rw [measure_succ_of_returned (returned 0 (Nat.succ_pos count)), ih others, List.append_assoc,
      List.range'_succ, List.flatMap_cons, Nat.succ_add_eq_add_succ]
    rfl

theorem measure_of_stops {runner : Runner} {measured : Measured} {first count number : Nat}
    (less : number < count) (returned : ∀ k < number, lab.ending t k = .returned)
    {ending : Ending ε π} (ends : lab.ending t number = ending)
    {result : Except π (Except ε Measured)} (stops : ending.Stops result) :
    (runner.measure lab.bench measured count).from ⟨t, 2 * first, past⟩ = (result,
      ⟨lab.after t (number + 1), 2 * (first + number) + ending.readings,
        past ++ ((List.range' first number).flatMap (fun k => lab.lapSteps k .returned) ++
          lab.lapSteps (first + number) ending)⟩) := by
  induction number generalizing count t past measured first with
  | zero =>
    obtain ⟨count, rfl⟩ := Nat.exists_eq_succ_of_ne_zero (Nat.ne_of_gt less)
    exact measure_succ_of_stops ends stops
  | succ number ih =>
    obtain ⟨count, rfl⟩ := Nat.exists_eq_succ_of_ne_zero (Nat.ne_of_gt (Nat.zero_lt_of_lt less))
    have others : ∀ k < number, lab.ending (lab.call t).2 k = .returned := by
      intro k small
      exact returned (k + 1) (Nat.succ_lt_succ small)
    rw [measure_succ_of_returned (returned 0 (Nat.succ_pos number)),
      ih (Nat.lt_of_succ_lt_succ less) others ends, List.append_assoc, List.range'_succ,
      List.flatMap_cons, List.append_assoc, Nat.succ_add_eq_add_succ]
    rfl

/-- What the measured calls come to, given their times. -/
theorem foldl_add (runner : Runner) (times : List UInt64) (measured : Measured) :
    times.foldl runner.add measured =
      ⟨times.foldl satAdd measured.totalNanos,
        if runner.captureSamples then times.reverse ++ measured.reversed
        else measured.reversed⟩ := by
  induction times generalizing measured with
  | nil => simp
  | cons nanos times ih =>
    rw [List.foldl_cons, ih, List.foldl_cons]
    cases captured : runner.captureSamples <;> simp [add, captured]

/-! ### Whole runs -/

def recordOf (runner : Runner) (lab : Lab τ ε π) (iterations : UInt64) : Record :=
  .withTotals iterations (satSum (lab.times iterations.toNat))
    (if runner.captureSamples then lab.times iterations.toNat else [])

/-- The whole course of a run whose calls all return. -/
theorem tryRun_of_returned (runner : Runner) (iterations warmup : UInt64)
    (returned : ∀ k < warmup.toNat + iterations.toNat, lab.ending t k = .returned) :
    (runner.tryRun iterations warmup lab.bench).from (.start t) =
      (.ok (.ok (runner.recordOf lab iterations)),
        ⟨lab.after t (warmup.toNat + iterations.toNat), 2 * iterations.toNat,
          List.replicate warmup.toNat (.called .returned) ++
            (List.range iterations.toNat).flatMap (fun k => lab.lapSteps k .returned) ++
              [.reported (runComplete (runner.recordOf lab iterations) warmup)]⟩) := by
  have warm : ∀ k < warmup.toNat, lab.ending t k = .returned := by
    intro k small
    exact returned k (by omega)
  have laps : ∀ k < iterations.toNat, lab.ending (lab.after t warmup.toNat) k = .returned := by
    intro k small
    rw [ending_after]
    exact returned _ (by omega)
  have measured := @measure_of_returned _ _ _ lab _
    ([] ++ List.replicate warmup.toNat (.called .returned)) runner ⟨0, []⟩ 0 _ laps
  rw [Nat.mul_zero, Nat.zero_add, ← List.range_eq_range', foldl_add, List.append_nil] at measured
  have kept : (if runner.captureSamples then (lab.times iterations.toNat).reverse else []).reverse =
      if runner.captureSamples then lab.times iterations.toNat else [] := by
    split
    · exact List.reverse_reverse _
    · rfl
  rw [tryRun, Course.start, from_bind_of_ok (warmUp_of_returned warm)]
  simp only
  rw [from_bind_of_ok measured]
  simp only
  rw [from_bind_of_ok (log_from _)]
  rw [recordOf, ← kept, after_add]
  rfl

/-- A run stops as its first call that stops does, and has no record. -/
theorem tryRun_of_stops (runner : Runner) {iterations warmup : UInt64} {number : Nat}
    (less : number < warmup.toNat + iterations.toNat)
    (returned : ∀ k < number, lab.ending t k = .returned) {ending : Ending ε π}
    (ends : lab.ending t number = ending) {result : Except π (Except ε Record)}
    (stops : ending.Stops result) :
    ∃ course, (runner.tryRun iterations warmup lab.bench).from (.start t) = (result, course) ∧
      course.thunk = lab.after t (number + 1) ∧ Quiet course.steps (number + 1) := by
  by_cases early : number < warmup.toNat
  · refine ⟨⟨lab.after t (number + 1), 0,
      [] ++ (List.replicate number (.called .returned) ++ [.called ending])⟩, ?_, rfl, ?_⟩
    · exact from_bind_of_stops stops (warmUp_of_stops early returned ends) fun _ => rfl
    · exact (Quiet.replicate number).append (.called ending)
  · obtain ⟨later, rfl⟩ := Nat.exists_eq_add_of_le (Nat.le_of_not_lt early)
    have warm : ∀ k < warmup.toNat, lab.ending t k = .returned := by
      intro k small
      exact returned k (by omega)
    have laps : ∀ k < later, lab.ending (lab.after t warmup.toNat) k = .returned := by
      intro k small
      rw [ending_after]
      exact returned _ (by omega)
    have ends' : lab.ending (lab.after t warmup.toNat) later = ending := by
      rw [ending_after, ends]
    have cut {result : Except π (Except ε Measured)} (stops : ending.Stops result) :=
      @measure_of_stops _ _ _ lab _ (List.replicate warmup.toNat (.called .returned)) runner
        ⟨0, []⟩ 0 iterations.toNat _ (by omega) laps _ ends' _ stops
    refine ⟨⟨lab.after (lab.after t warmup.toNat) (later + 1), 2 * (0 + later) + ending.readings,
      List.replicate warmup.toNat (.called .returned) ++
        ((List.range' 0 later).flatMap (fun k => lab.lapSteps k .returned) ++
          lab.lapSteps (0 + later) ending)⟩, ?_, ?_, ?_⟩
    · rw [tryRun, Course.start, from_bind_of_ok (warmUp_of_returned warm)]
      exact from_bind_of_stops stops cut fun _ => rfl
    · rw [← after_add]
      rfl
    · have quiet := (Quiet.replicate warmup.toNat).append
        ((Quiet.laps lab (List.range' 0 later)).append (.lapSteps lab (0 + later) ending))
      rw [List.length_range'] at quiet
      exact quiet

/-! ### Thunks that cannot fail -/

section Infallible

variable {lab : Lab τ Empty π} {course between : Course τ Empty π}

theorem bench_of_infallible :
    ({ now := lab.bench.now, log := lab.bench.log,
       call := do lab.callInfallible; pure (.ok ()) } : Bench (Act τ Empty π) Empty) = lab.bench := by
  have call : (do lab.callInfallible; pure (.ok ())) = lab.bench.call := by
    rw [callInfallible, bind_assoc]
    calc
      _ = lab.bench.call >>= pure := by
        congr 1
        funext outcome
        cases outcome with
        | error e => cases e
        | ok done => rfl
      _ = lab.bench.call := bind_pure _
  rw [call]

theorem run_of_ok {runner : Runner} {iterations warmup : UInt64} {r : Record}
    (h : (runner.tryRun iterations warmup lab.bench).from course = (.ok (.ok r), between)) :
    (runner.run iterations warmup lab.bench.now lab.bench.log lab.callInfallible).from course =
      (.ok r, between) := by
  rw [← bench_of_infallible] at h
  exact from_bind_of_ok h

theorem run_of_panic {runner : Runner} {iterations warmup : UInt64} {payload : π}
    (h : (runner.tryRun iterations warmup lab.bench).from course = (.error payload, between)) :
    (runner.run iterations warmup lab.bench.now lab.bench.log lab.callInfallible).from course =
      (.error payload, between) := by
  rw [← bench_of_infallible] at h
  exact from_bind_of_panic h

end Infallible

end Runner

end MicroBench
