import MicroBench.Proofs.Record.Tolerance
import MicroBench.Proofs.Runner.Completion

/-! Which records are well formed, and that the ones built here are. A record that is
put together from counts has the rates of those counts, so only the counts and the
samples can be at fault. -/
namespace MicroBench

open Binary64

namespace Record

variable {r : Record}

/-! ### The parts of the check -/

theorem rangeReason_eq_none_iff {x : Binary64} :
    rangeReason x = none ↔ x.isFinite ∧ 0 ≤ x.value := by
  by_cases finite : x.isFinite
  · have below : x.lt 0 ↔ x.value < 0 := by rw [lt_iff finite isFinite_zero, value_zero]
    by_cases negative : x.value < 0
    · simp [rangeReason, finite, below.2 negative, negative]
    · have above : x.lt 0 = false := Bool.eq_false_iff.2 fun h => negative (below.1 h)
      simp [rangeReason, finite, above, not_lt.1 negative]
  · simp [rangeReason, finite]

theorem eachRate_eq_none_iff {check : Binary64 → Option Reason} :
    r.eachRate check = none ↔ check r.nanosPerOp = none ∧ check r.opsPerSec = none := by
  simp [eachRate]

theorem sampleDefect?_eq_none_iff :
    r.sampleDefect? = none ↔ r.samples = [] ∨
      UInt64.ofNat r.samples.length = r.iterations ∧ satSum r.samples = r.totalNanos := by
  by_cases empty : r.samples = []
  · simp [sampleDefect?, empty]
  by_cases count : UInt64.ofNat r.samples.length = r.iterations
  · by_cases sum : satSum r.samples = r.totalNanos <;> simp [sampleDefect?, empty, count, sum]
  · simp [sampleDefect?, empty, count]

/-- The conditions of a well-formed record, one by one. -/
theorem wellFormed_iff :
    r.WellFormed ↔ (r.nanosPerOp.isFinite ∧ 0 ≤ r.nanosPerOp.value) ∧
      (r.opsPerSec.isFinite ∧ 0 ≤ r.opsPerSec.value) ∧
      r.rateDefect? = none ∧ r.sampleDefect? = none := by
  simp only [WellFormed, defect?, Option.or_eq_none_iff, eachRate_eq_none_iff,
    rangeReason_eq_none_iff, and_assoc]

/-! ### Records made from counts -/

/-- Finite rates, positive if the run took time and had iterations, and zero otherwise. -/
structure RatesFit (r : Record) : Prop where
  finite : r.nanosPerOp.isFinite ∧ r.opsPerSec.isFinite
  positive : 0 < r.iterations → 0 < r.totalNanos →
    0 < r.nanosPerOp.value ∧ 0 < r.opsPerSec.value
  zero : r.iterations = 0 ∨ r.totalNanos = 0 → r.nanosPerOp = 0 ∧ r.opsPerSec = 0

variable (n t : UInt64) (samples : List UInt64)

theorem rates_pos {n t : UInt64} (hn : n ≠ 0) (ht : t ≠ 0) :
    0 < (rates n t).1.value ∧ 0 < (rates n t).2.value := by
  obtain ⟨period, perSecond⟩ := rates_of_pos hn ht
  have positive := period.pos (lt_of_lt_of_le (by norm_num) (quotient_bounds hn ht).1)
  exact ⟨positive, perSecond.pos (div_pos (by norm_num) positive)⟩

/-- Rates that are computed fit the totals that they are computed from. -/
theorem ratesFit_withTotals : (withTotals n t samples).RatesFit := by
  have zero (h : n = 0 ∨ t = 0) : (withTotals n t samples).nanosPerOp = 0 ∧
      (withTotals n t samples).opsPerSec = 0 := by
    simp only [withTotals, rates_of_zero h, and_self]
  refine ⟨?_, ?_, zero⟩
  · by_cases h : n = 0 ∨ t = 0
    · rw [(zero h).1, (zero h).2]
      exact ⟨rfl, rfl⟩
    · rw [not_or] at h
      obtain ⟨period, perSecond⟩ := rates_pos h.1 h.2
      exact ⟨isFinite_of_value_pos period, isFinite_of_value_pos perSecond⟩
  · intro hn ht
    exact rates_pos (UInt64.pos_iff_ne_zero.1 hn) (UInt64.pos_iff_ne_zero.1 ht)

/-- The product of the rates is one rounding away from a second. -/
theorem within_product {n t : UInt64} (hn : n ≠ 0) (ht : t ≠ 0) :
    Within 1 ((rates n t).2.value * (rates n t).1.value) 1000000000 := by
  obtain ⟨positive, positive'⟩ := rates_pos hn ht
  have near := (rates_of_pos hn ht).2.mul (Within.refl (rates n t).1.value) positive'.le
    (div_nonneg (by norm_num) positive.le) positive.le positive.le
  rwa [div_mul_cancel₀ _ positive.ne'] at near

/-- The rates of counts agree with them. -/
theorem rates_agree {n t : UInt64} (hn : n ≠ 0) (ht : t ≠ 0) :
    (withTotals n t samples).PeriodAgrees ∧ (withTotals n t samples).ProductAgrees := by
  obtain ⟨positive, positive'⟩ := rates_pos hn ht
  constructor
  · have nonneg : (0 : ℚ) ≤ t.toNat / n.toNat := div_nonneg (Nat.cast_nonneg _) (Nat.cast_nonneg _)
    exact periodAgrees_of_within
      ((rates_of_pos hn ht).1.mono (by norm_num) positive.le nonneg)
  · exact productAgrees_of_within
      ((within_product hn ht).mono (by norm_num) (mul_pos positive' positive).le (by norm_num))

/-- Without iterations only the zero record of counts has no defect. -/
theorem rateDefect?_of_idle (idle : r.iterations = 0) :
    r.rateDefect? = none ↔ r.totalNanos = 0 ∧
      r.nanosPerOp.numEq 0 = true ∧ r.opsPerSec.numEq 0 = true := by
  rw [rateDefect?, if_pos idle]
  by_cases quick : r.totalNanos = 0
  · rw [if_neg (not_not.2 quick), eachRate_eq_none_iff]
    simp only [quick, ite_eq_left_iff, reduceCtorEq, imp_false, not_not, true_and]
  · simp only [ne_eq, quick, not_false_eq_true, if_true, reduceCtorEq, false_and]

theorem rateDefect?_withTotals :
    (withTotals n t samples).rateDefect? = none ↔ 0 < n ∨ t = 0 := by
  obtain ⟨finite, -, zero⟩ := ratesFit_withTotals n t samples
  by_cases hn : n = 0
  · rw [rateDefect?_of_idle hn, (zero (.inl hn)).1, (zero (.inl hn)).2, hn]
    have equal : (0 : Binary64).numEq 0 = true := (numEq_zero_iff isFinite_zero).2 value_zero
    simp only [equal, and_self, and_true]
    exact ⟨.inr, fun h => h.resolve_left (by decide)⟩
  · simp only [UInt64.pos_iff_ne_zero.2 hn, true_or, iff_true]
    by_cases ht : t = 0
    · obtain ⟨period, perSecond⟩ := zero (.inr ht)
      apply rateDefect?_eq_none hn finite.1 finite.2
      · rw [PeriodAgrees, period, value_zero, withTotals, ht]
        norm_num
      · left
        rw [period, perSecond, value_zero, and_self]
    · obtain ⟨period, product⟩ := rates_agree samples hn ht
      exact rateDefect?_eq_none hn finite.1 finite.2 period (.inr ⟨(rates_pos hn ht).1, product⟩)

theorem RatesFit.nonneg (fit : r.RatesFit) : 0 ≤ r.nanosPerOp.value ∧ 0 ≤ r.opsPerSec.value := by
  by_cases h : r.iterations = 0 ∨ r.totalNanos = 0
  · rw [(fit.zero h).1, (fit.zero h).2, value_zero, and_self]
  · rw [not_or] at h
    have := fit.positive (UInt64.pos_iff_ne_zero.2 h.1) (UInt64.pos_iff_ne_zero.2 h.2)
    exact ⟨this.1.le, this.2.le⟩

/-- A record that was made from counts is well formed just if time without iterations is ruled out
and the samples, if there are any, add up. -/
theorem wellFormed_withTotals_iff :
    (withTotals n t samples).WellFormed ↔ (0 < n ∨ t = 0) ∧
      (samples = [] ∨ UInt64.ofNat samples.length = n ∧ satSum samples = t) := by
  have fit := ratesFit_withTotals n t samples
  have added : (withTotals n t samples).sampleDefect? = none ↔
      samples = [] ∨ UInt64.ofNat samples.length = n ∧ satSum samples = t :=
    sampleDefect?_eq_none_iff
  rw [wellFormed_iff, added, rateDefect?_withTotals]
  simp only [fit.finite, fit.nonneg, and_self, true_and]

/-- What a run has measured makes a well-formed record. -/
theorem wellFormed_of_fits {runner : Runner} {last : Measured} {iterations : UInt64}
    (fits : last.Fits runner iterations.toNat) :
    (withTotals iterations last.totalNanos last.reversed.reverse).WellFormed := by
  rw [wellFormed_withTotals_iff]
  constructor
  · by_cases idle : iterations = 0
    · right
      exact fits.untimed (by rw [idle]; rfl)
    · left
      exact UInt64.pos_iff_ne_zero.2 idle
  · by_cases captured : runner.captureSamples
    · right
      obtain ⟨count, sum⟩ := fits.kept captured
      refine ⟨?_, sum⟩
      rw [List.length_reverse, count, UInt64.ofNat_toNat]
    · left
      rw [fits.dropped (Bool.eq_false_iff.2 captured)]
      rfl

/-- No check looks at the allocation figures. -/
theorem defect?_withAllocs (r : Record) (bytesPerOp allocsPerOp : UInt64) :
    (r.withAllocs bytesPerOp allocsPerOp).defect? = r.defect? := rfl

theorem wellFormed_ofSamples {samples : List UInt64} (fits : samples.length < 2 ^ 64) :
    (ofSamples samples).WellFormed := by
  rw [ofSamples, wellFormed_withTotals_iff]
  refine ⟨?_, .inr ⟨rfl, rfl⟩⟩
  by_cases empty : samples = []
  · right
    rw [empty]
    rfl
  · left
    have count := List.length_pos_iff.2 empty
    rw [UInt64.lt_iff_toNat_lt, UInt64.toNat_ofNat', Nat.mod_eq_of_lt fits]
    exact count

theorem wellFormed_ofTotals_iff : (ofTotals n t).WellFormed ↔ 0 < n ∨ t = 0 := by
  rw [ofTotals, wellFormed_withTotals_iff]
  simp only [true_or, and_true]

/-- Whatever the clock reads and whatever the thunk does, a run that completes leaves a well-formed
record of its iterations. -/
theorem wellFormed_of_tryRun {σ ε : Type} {runner : Runner} {iterations warmup : UInt64}
    {bench : Bench (StateM σ) ε} {s after : σ}
    (completed : (runner.tryRun iterations warmup bench).run s = (.ok r, after)) :
    ∃ t samples, r = withTotals iterations t samples ∧ r.WellFormed := by
  obtain ⟨last, fits, rfl⟩ := Runner.tryRun_eq_ok completed
  exact ⟨_, _, rfl, wellFormed_of_fits fits⟩

theorem wellFormed_of_run {σ : Type} (runner : Runner) (iterations warmup : UInt64)
    (now : StateM σ Instant) (log : Event → StateM σ Unit) (call : StateM σ Unit) (s : σ) :
    ∃ t samples,
      ((runner.run iterations warmup now log call).run s).1 = withTotals iterations t samples ∧
      ((runner.run iterations warmup now log call).run s).1.WellFormed := by
  obtain ⟨r, after, completed, same⟩ := Runner.run_eq runner iterations warmup now log call s
  rw [same]
  exact wellFormed_of_tryRun completed

/-- Each record that is made from samples, or from totals that can be, is well formed, and so is the
record of a run, whatever the clock reads and whatever the thunk does; a run completes if the thunk
does not fail. Figures of allocations have no say in it. The samples of a run can be counted in a
word. -/
theorem built_wellFormed :
    (∀ samples : List UInt64, samples.length < 2 ^ 64 →
      (ofSamples samples).WellFormed ∧ (ofSamples samples).RatesFit) ∧
    (∀ n t : UInt64, ((ofTotals n t).WellFormed ↔ 0 < n ∨ t = 0) ∧ (ofTotals n t).RatesFit) ∧
    (∀ {σ ε : Type} (runner : Runner) (iterations warmup : UInt64) (bench : Bench (StateM σ) ε)
      (s : σ),
      (∀ r after, (runner.tryRun iterations warmup bench).run s = (.ok r, after) →
        r.WellFormed ∧ r.RatesFit) ∧
      ((∀ s, (bench.call.run s).1 = .ok ()) →
        ∃ r after, (runner.tryRun iterations warmup bench).run s = (.ok r, after))) ∧
    (∀ {σ : Type} (runner : Runner) (iterations warmup : UInt64) (now : StateM σ Instant)
      (log : Event → StateM σ Unit) (call : StateM σ Unit) (s : σ),
      ((runner.run iterations warmup now log call).run s).1.WellFormed ∧
        ((runner.run iterations warmup now log call).run s).1.RatesFit) ∧
    ∀ (r : Record) (bytesPerOp allocsPerOp : UInt64),
      (r.withAllocs bytesPerOp allocsPerOp).defect? = r.defect? := by
  refine ⟨?_, ?_, ?_, ?_, defect?_withAllocs⟩
  · intro samples fits
    exact ⟨wellFormed_ofSamples fits, ratesFit_withTotals _ _ _⟩
  · intro n t
    exact ⟨wellFormed_ofTotals_iff n t, ratesFit_withTotals _ _ _⟩
  · intro σ ε runner iterations warmup bench s
    refine ⟨?_, fun never => Runner.tryRun_of_never never runner iterations warmup s⟩
    intro r after completed
    obtain ⟨t, samples, made, wellFormed⟩ := wellFormed_of_tryRun completed
    exact ⟨wellFormed, made ▸ ratesFit_withTotals _ _ _⟩
  · intro σ runner iterations warmup now log call s
    obtain ⟨t, samples, made, wellFormed⟩ :=
      wellFormed_of_run runner iterations warmup now log call s
    exact ⟨wellFormed, made ▸ ratesFit_withTotals _ _ _⟩

def sevenNanosApart : Bench (StateM Nat) Empty :=
  Runner.neverFailing (fun nanos => (.ofParts 0 nanos, nanos)) (fun _ => pure ())
    (modify (· + 7))

theorem built_wellFormed_of_three :
    (ofSamples [7, 7, 7]).WellFormed ∧ ¬ (ofTotals 0 21).WellFormed ∧
    (∃ r after, (Runner.standard.tryRun 3 1 sevenNanosApart).run 0 = (.ok r, after) ∧
      r.WellFormed ∧ r.RatesFit) ∧
    ((ofTotals 3 21).withAllocs 64 2).WellFormed := by
  obtain ⟨samples, totals, runs, -, allocs⟩ := built_wellFormed
  refine ⟨(samples [7, 7, 7] (by decide)).1, ?_, ?_, ?_⟩
  · rw [(totals 0 21).1]
    decide
  · obtain ⟨sound, completes⟩ := runs Runner.standard 3 1 sevenNanosApart 0
    obtain ⟨r, after, completed⟩ := completes fun _ => rfl
    exact ⟨r, after, completed, sound r after completed⟩
  · rw [WellFormed, allocs]
    exact (totals 3 21).1.2 (.inl (by decide))

/-- Two calls of half a second, the second one a nanosecond longer, which the rates leave out. -/
def halfSeconds : Record where
  iterations := 2
  totalNanos := 1000000001
  nanosPerOp := .ofNat 500000000
  opsPerSec := .ofNat 2
  bytesPerOp := 0
  allocsPerOp := 0
  samples := [500000000, 500000001]

theorem halfSeconds_rates :
    halfSeconds.nanosPerOp.value = 500000000 ∧ halfSeconds.opsPerSec.value = 2 := by
  simp only [halfSeconds]
  rw [value_ofNat (by norm_num), value_ofNat (by norm_num)]
  norm_num

theorem halfSeconds_counts :
    halfSeconds.totalNanos.toNat = 1000000001 ∧ halfSeconds.iterations.toNat = 2 := ⟨rfl, rfl⟩

theorem halfSeconds_wellFormed : halfSeconds.WellFormed := by decide +kernel

end Record

end MicroBench
