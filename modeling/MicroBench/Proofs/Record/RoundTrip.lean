import MicroBench.Proofs.Json.Drift
import MicroBench.Proofs.Record.Construction
import MicroBench.Proofs.Record.Decoding

/-! What comes back of a record that was written as JSON. Counts and samples do not
change; each rate drifts by four roundings at most. A record that was built here stays
within the tolerances of the check, and one from the very edge of them may not. -/
namespace MicroBench

open Binary64

/-- The second number is finite and close to the first: their distance is at most a part in
`10 ^ 12` of it. -/
structure Binary64.CloseTo (x y : Binary64) : Prop where
  finite : y.isFinite
  distance : |y.value - x.value| ≤ 1 / 10 ^ 12 * |x.value|

theorem Binary64.closeTo_zero : CloseTo 0 0 := by
  refine ⟨isFinite_zero, ?_⟩
  rw [sub_self, abs_zero]
  exact mul_nonneg (by norm_num) (abs_nonneg _)

/-- Four roundings are far less than a part in `10 ^ 12`. -/
theorem Binary64.closeTo_of_within {x y : Binary64} (positive : 0 < x.value)
    (near : Within 4 y.value x.value) : CloseTo x y := by
  refine ⟨isFinite_of_value_pos (near.pos positive), (near.abs_sub_le positive.le).trans ?_⟩
  rw [abs_of_pos positive]
  apply mul_le_mul_of_nonneg_right _ positive.le
  norm_num [roundingFactor]

namespace Record

structure SameCounts (r s : Record) : Prop where
  iterations : s.iterations = r.iterations
  totalNanos : s.totalNanos = r.totalNanos
  bytesPerOp : s.bytesPerOp = r.bytesPerOp
  allocsPerOp : s.allocsPerOp = r.allocsPerOp
  samples : s.samples = r.samples

variable {r s : Record}

theorem reread_eq_some (h : r.reread = some s) :
    r.SameCounts s ∧ r.nanosPerOp.reread = some s.nanosPerOp ∧
      r.opsPerSec.reread = some s.opsPerSec := by
  rw [reread] at h
  split at h
  · rename_i period perSecond
    cases h
    exact ⟨⟨rfl, rfl, rfl, rfl, rfl⟩, period, perSecond⟩
  · cases h

theorem SameCounts.sampleDefect? (same : r.SameCounts s) : s.sampleDefect? = r.sampleDefect? := by
  rw [Record.sampleDefect?, Record.sampleDefect?, same.iterations, same.totalNanos, same.samples]

/-! ### Records that were built here -/

/-- A record made from samples or from totals, or left by a run, with allocation figures or not. -/
inductive Built : Record → Prop where
  | ofSamples (samples : List UInt64) (fits : samples.length < 2 ^ 64) : Built (.ofSamples samples)
  | ofTotals (n t : UInt64) (possible : 0 < n ∨ t = 0) : Built (.ofTotals n t)
  | tryRun {σ ε : Type} (runner : Runner) (iterations warmup : UInt64) (bench : Bench (StateM σ) ε)
      (before after : σ) (r : Record)
      (completed : (runner.tryRun iterations warmup bench).run before = (.ok r, after)) : Built r
  | run {σ : Type} (runner : Runner) (iterations warmup : UInt64) (now : StateM σ Instant)
      (log : Event → StateM σ Unit) (call : StateM σ Unit) (before : σ) :
      Built ((runner.run iterations warmup now log call).run before).1
  | withAllocs {r : Record} (built : Built r) (bytesPerOp allocsPerOp : UInt64) :
      Built (r.withAllocs bytesPerOp allocsPerOp)

/-- Records that were built are well formed, and their rates are those of their counts. -/
theorem Built.rates (built : r.Built) :
    r.WellFormed ∧ MicroBench.rates r.iterations r.totalNanos = (r.nanosPerOp, r.opsPerSec) := by
  induction built with
  | ofSamples samples fits => exact ⟨wellFormed_ofSamples fits, rfl⟩
  | ofTotals n t possible => exact ⟨(wellFormed_ofTotals_iff n t).2 possible, rfl⟩
  | tryRun runner iterations warmup bench before after r completed =>
    obtain ⟨t, samples, rfl, wellFormed⟩ := wellFormed_of_tryRun completed
    exact ⟨wellFormed, rfl⟩
  | run runner iterations warmup now log call before =>
    obtain ⟨t, samples, made, wellFormed⟩ :=
      wellFormed_of_run runner iterations warmup now log call before
    refine ⟨wellFormed, ?_⟩
    rw [made]
    rfl
  | withAllocs built bytesPerOp allocsPerOp ih => exact ih

/-- The rates of counts are of moderate size. -/
theorem rates_moderate {n t : UInt64} (hn : n ≠ 0) (ht : t ≠ 0) :
    (1 / 2 ^ 80 ≤ (MicroBench.rates n t).1.value ∧ (MicroBench.rates n t).1.value ≤ 2 ^ 100) ∧
      1 / 2 ^ 80 ≤ (MicroBench.rates n t).2.value ∧
      (MicroBench.rates n t).2.value ≤ 2 ^ 100 := by
  obtain ⟨period, perSecond⟩ := rates_of_pos hn ht
  obtain ⟨positive, positive'⟩ := rates_pos hn ht
  obtain ⟨lower, upper⟩ := quotient_bounds hn ht
  obtain ⟨below, above⟩ := period.bounds (by norm_num) (lt_of_lt_of_le (by norm_num) lower)
  have least : 1000000000 / 2 ^ 65 ≤ 1000000000 / (MicroBench.rates n t).1.value :=
    div_le_div_of_nonneg_left (by norm_num) positive (by linarith)
  have most : 1000000000 / (MicroBench.rates n t).1.value ≤ 1000000000 / (1 / 2 ^ 65) :=
    div_le_div_of_nonneg_left (by norm_num) (by norm_num) (by linarith)
  obtain ⟨below', above'⟩ := perSecond.bounds (by norm_num) (div_pos (by norm_num) positive)
  norm_num at least most below above
  refine ⟨⟨?_, ?_⟩, ?_, ?_⟩ <;> linarith

/-! ### Drift -/

theorem finite_of_wellFormed (wellFormed : r.WellFormed) :
    r.nanosPerOp.isFinite ∧ r.opsPerSec.isFinite := by
  obtain ⟨period, perSecond, -⟩ := wellFormed_iff.1 wellFormed
  exact ⟨period.1, perSecond.1⟩

/-- Rates of zero come back as they were. -/
theorem reread_of_zero (wellFormed : r.WellFormed) (zero : r.nanosPerOp.value = 0)
    (zero' : r.opsPerSec.value = 0) : r.reread = some r := by
  obtain ⟨finite, finite'⟩ := finite_of_wellFormed wellFormed
  rw [Record.reread, reread_of_value_zero finite zero, reread_of_value_zero finite' zero']

structure Drifted (r s : Record) : Prop where
  same : r.SameCounts s
  period : Within 4 s.nanosPerOp.value r.nanosPerOp.value
  perSecond : Within 4 s.opsPerSec.value r.opsPerSec.value

/-- Rates of moderate size come back, and they have drifted. -/
theorem reread_of_moderate (lower : 1 / 2 ^ 80 ≤ r.nanosPerOp.value)
    (upper : r.nanosPerOp.value ≤ 2 ^ 100) (lower' : 1 / 2 ^ 80 ≤ r.opsPerSec.value)
    (upper' : r.opsPerSec.value ≤ 2 ^ 100) : ∃ s, r.reread = some s ∧ r.Drifted s := by
  obtain ⟨p, period, drift⟩ := within_reread lower upper
  obtain ⟨q, perSecond, drift'⟩ := within_reread lower' upper'
  refine ⟨{ r with nanosPerOp := p, opsPerSec := q }, ?_, ⟨rfl, rfl, rfl, rfl, rfl⟩, drift, drift'⟩
  rw [Record.reread, period, perSecond]

/-- A record keeps its counts, so it is well formed again if its rates still agree with them. -/
theorem Drifted.wellFormed (drifted : r.Drifted s) (wellFormed : r.WellFormed)
    (positive : 0 < r.nanosPerOp.value) (positive' : 0 < r.opsPerSec.value)
    (agree : s.rateDefect? = none) : s.WellFormed := by
  obtain ⟨-, -, -, samples⟩ := wellFormed_iff.1 wellFormed
  have still := drifted.period.pos positive
  have still' := drifted.perSecond.pos positive'
  exact wellFormed_iff.2 ⟨⟨isFinite_of_value_pos still, still.le⟩,
    ⟨isFinite_of_value_pos still', still'.le⟩, agree, drifted.same.sampleDefect?.trans samples⟩

/-- Rates that have drifted from those of the counts are still accepted. -/
theorem Drifted.rateDefect?_of_rates (drifted : r.Drifted s) (running : r.iterations ≠ 0)
    (timed : r.totalNanos ≠ 0)
    (counts : MicroBench.rates r.iterations r.totalNanos = (r.nanosPerOp, r.opsPerSec)) :
    s.rateDefect? = none := by
  obtain ⟨same, period, perSecond⟩ := drifted
  obtain ⟨positive, positive'⟩ := rates_pos running timed
  have exact := (rates_of_pos running timed).1
  have product := within_product running timed
  rw [counts] at positive positive' exact product
  have still := period.pos positive
  have still' := perSecond.pos positive'
  apply rateDefect?_eq_none (same.iterations ▸ running) (isFinite_of_value_pos still)
    (isFinite_of_value_pos still')
  · apply periodAgrees_of_within
    rw [same.iterations, same.totalNanos]
    exact period.trans exact
  · right
    have together := perSecond.mul period still'.le positive'.le still.le positive.le
    exact ⟨still, productAgrees_of_within (together.trans product)⟩

/-- A record that was built is well-formed again after its rates were read, which are close to those
it had. -/
theorem Built.reread (built : r.Built) :
    ∃ s, r.reread = some s ∧ s.WellFormed ∧ r.nanosPerOp.CloseTo s.nanosPerOp ∧
      r.opsPerSec.CloseTo s.opsPerSec ∧ (r.nanosPerOp = 0 → s.nanosPerOp = 0) ∧
      (r.opsPerSec = 0 → s.opsPerSec = 0) := by
  obtain ⟨wellFormed, counts⟩ := built.rates
  by_cases idle : r.iterations = 0 ∨ r.totalNanos = 0
  · obtain ⟨period, perSecond⟩ := Prod.mk.inj ((rates_of_zero idle).symm.trans counts)
    have same : r.reread = some r :=
      reread_of_zero wellFormed (period ▸ value_zero) (perSecond ▸ value_zero)
    refine ⟨r, same, wellFormed, ?_, ?_, id, id⟩
    · rw [← period]
      exact closeTo_zero
    · rw [← perSecond]
      exact closeTo_zero
  · rw [not_or] at idle
    obtain ⟨positive, positive'⟩ := rates_pos idle.1 idle.2
    obtain ⟨⟨lower, upper⟩, lower', upper'⟩ := rates_moderate idle.1 idle.2
    rw [counts] at positive positive' lower upper lower' upper'
    obtain ⟨s, read, drifted⟩ := reread_of_moderate lower upper lower' upper'
    refine ⟨s, read, ?_, closeTo_of_within positive drifted.period,
      closeTo_of_within positive' drifted.perSecond, ?_, ?_⟩
    · exact drifted.wellFormed wellFormed positive positive'
        (drifted.rateDefect?_of_rates idle.1 idle.2 counts)
    · intro zero
      rw [zero, value_zero] at positive
      exact absurd positive (lt_irrefl 0)
    · intro zero
      rw [zero, value_zero] at positive'
      exact absurd positive' (lt_irrefl 0)

theorem toJson_of_wellFormed (wellFormed : r.WellFormed) : r.toJson = .ok (.ofList r.encode) := by
  rw [toJson, show r.defect? = none from wellFormed]

/-- Whatever was built here can be written, and read again between any white space. Counts,
allocation figures and samples come back as they were, and the rates up to a part in `10 ^ 12`. -/
theorem built_round_trip {r : Record} (built : r.Built) {before after : String}
    (blank : ∀ c ∈ before.toList, Text.isBlank c) (blank' : ∀ c ∈ after.toList, Text.isBlank c) :
    ∃ json s, r.toJson = .ok json ∧ ofJson (before ++ json ++ after) = .ok s ∧ r.SameCounts s ∧
      r.nanosPerOp.CloseTo s.nanosPerOp ∧ r.opsPerSec.CloseTo s.opsPerSec ∧
      (r.nanosPerOp = 0 → s.nanosPerOp = 0) ∧ (r.opsPerSec = 0 → s.opsPerSec = 0) := by
  have wellFormed := built.rates.1
  obtain ⟨finite, finite'⟩ := finite_of_wellFormed wellFormed
  obtain ⟨s, read, again, close⟩ := built.reread
  refine ⟨_, s, toJson_of_wellFormed wellFormed, ?_, (reread_eq_some read).1, close⟩
  exact (ofJson_encode_eq_ok finite finite' blank blank' s).2 ⟨read, again⟩

theorem built_round_trip_of_samples :
    ∃ json s, ((ofSamples [1100, 900, 1000]).withAllocs 64 2).toJson = .ok json ∧
      ofJson ("\t" ++ json ++ "\r\n") = .ok s ∧ s.samples = [1100, 900, 1000] := by
  obtain ⟨json, s, written, read, same, -⟩ :=
    @built_round_trip _ (.withAllocs (.ofSamples [1100, 900, 1000] (by decide)) 64 2)
      "\t" "\r\n" (List.all_eq_true.1 (by decide)) (List.all_eq_true.1 (by decide))
  exact ⟨json, s, written, read, same.samples⟩

/-! ### Records from anywhere -/

/-- Rates that are zero, or a period not below `2 ^ -69` and both rates off the edge of their
tolerances by more than the drift of a reading. -/
def OffEdge (r : Record) : Prop :=
  r.nanosPerOp.value = 0 ∧ r.opsPerSec.value = 0 ∨
    1 / 2 ^ 69 ≤ r.nanosPerOp.value ∧
      |r.nanosPerOp.value - r.totalNanos.toNat / r.iterations.toNat| ≤
        (1 / 1000000000 - 1 / 2 ^ 49) * (max r.totalNanos.toNat 1 : ℕ) ∧
      |r.opsPerSec.value * r.nanosPerOp.value - 1000000000| ≤ 999998 / 1000

/-- Off the edge, rates that drift still agree with the counts. -/
theorem Drifted.agree (drifted : r.Drifted s) (positive : 0 < r.nanosPerOp.value)
    (positive' : 0 < r.opsPerSec.value)
    (period : |r.nanosPerOp.value - r.totalNanos.toNat / r.iterations.toNat| ≤
      (1 / 1000000000 - 1 / 2 ^ 49) * (max r.totalNanos.toNat 1 : ℕ))
    (product : |r.opsPerSec.value * r.nanosPerOp.value - 1000000000| ≤ 999998 / 1000) :
    s.PeriodAgrees ∧ s.ProductAgrees := by
  obtain ⟨same, drift, drift'⟩ := drifted
  constructor
  · obtain ⟨-, least⟩ := r.quotient_le_larger
    have moved := drift.abs_sub_le positive.le
    have distance := abs_sub_le s.nanosPerOp.value r.nanosPerOp.value
      (r.totalNanos.toNat / r.iterations.toNat)
    rw [PeriodAgrees, same.iterations, same.totalNanos]
    generalize ((max r.totalNanos.toNat 1 : ℕ) : ℚ) = total at *
    obtain ⟨-, upper⟩ := abs_le.1 period
    norm_num [roundingFactor] at moved period upper ⊢
    linarith
  · have together := drift'.mul drift (drift'.pos positive').le positive'.le
      (drift.pos positive).le positive.le
    have moved := together.abs_sub_le (mul_pos positive' positive).le
    have distance := abs_sub_le (s.opsPerSec.value * s.nanosPerOp.value)
      (r.opsPerSec.value * r.nanosPerOp.value) 1000000000
    obtain ⟨-, upper⟩ := abs_le.1 product
    rw [ProductAgrees]
    norm_num [roundingFactor] at moved
    linarith

/-- Off the edge, both rates are of moderate size. -/
theorem moderate_of_offEdge (least : 1 / 2 ^ 69 ≤ r.nanosPerOp.value)
    (period : |r.nanosPerOp.value - r.totalNanos.toNat / r.iterations.toNat| ≤
      (1 / 1000000000 - 1 / 2 ^ 49) * (max r.totalNanos.toNat 1 : ℕ))
    (product : |r.opsPerSec.value * r.nanosPerOp.value - 1000000000| ≤ 999998 / 1000) :
    r.nanosPerOp.value ≤ 2 ^ 100 ∧ 1 / 2 ^ 80 ≤ r.opsPerSec.value ∧
      r.opsPerSec.value ≤ 2 ^ 100 := by
  obtain ⟨-, larger⟩ := r.quotient_le_larger
  obtain ⟨-, most⟩ := larger_one_bounds r.totalNanos
  generalize ((max r.totalNanos.toNat 1 : ℕ) : ℚ) = total at *
  obtain ⟨-, upper⟩ := abs_le.1 period
  obtain ⟨lower', upper'⟩ := abs_le.1 product
  have positive : 0 < r.nanosPerOp.value := lt_of_lt_of_le (by norm_num) least
  have above : r.nanosPerOp.value ≤ 2 ^ 65 := by
    norm_num at upper most ⊢
    linarith
  refine ⟨above.trans (by norm_num), ?_, ?_⟩
  · by_contra small
    have := mul_le_mul (not_le.1 small).le above positive.le (by norm_num)
    norm_num at this
    linarith
  · by_contra large
    have := mul_le_mul (not_le.1 large).le least (by norm_num)
      (le_trans (by norm_num) (not_le.1 large).le)
    norm_num at this
    linarith

/-- Off the edge, the rates still agree with the totals after they drifted. -/
theorem reread_of_offEdge (wellFormed : r.WellFormed) (off : r.OffEdge) :
    ∃ s, r.reread = some s ∧ s.WellFormed := by
  rcases off with ⟨zero, zero'⟩ | ⟨least, period, product⟩
  · exact ⟨r, reread_of_zero wellFormed zero zero', wellFormed⟩
  · obtain ⟨most, least', most'⟩ := moderate_of_offEdge least period product
    have positive : 0 < r.nanosPerOp.value := lt_of_lt_of_le (by norm_num) least
    have positive' : 0 < r.opsPerSec.value := lt_of_lt_of_le (by norm_num) least'
    have lower : 1 / 2 ^ 80 ≤ r.nanosPerOp.value := le_trans (by norm_num) least
    obtain ⟨s, read, drifted⟩ := reread_of_moderate lower most least' most'
    obtain ⟨agree, agree'⟩ := drifted.agree positive positive' period product
    have running : s.iterations ≠ 0 := by
      intro idle
      obtain ⟨-, -, accepted, -⟩ := wellFormed_iff.1 wellFormed
      have zero := ((rateDefect?_of_idle (drifted.same.iterations ▸ idle)).1 accepted).2.1
      rw [numEq_zero_iff (finite_of_wellFormed wellFormed).1] at zero
      exact positive.ne' zero
    have still := drifted.period.pos positive
    have still' := drifted.perSecond.pos positive'
    exact ⟨s, read, drifted.wellFormed wellFormed positive positive'
      (rateDefect?_eq_none running (isFinite_of_value_pos still) (isFinite_of_value_pos still')
        agree (.inr ⟨still, agree'⟩))⟩

theorem field_of_eachRate {check : Binary64 → Option Reason} {defect : Defect}
    (found : r.eachRate check = some defect) :
    defect.field = .nanosPerOp ∨ defect.field = .opsPerSec := by
  rw [eachRate, Option.or_eq_some_iff] at found
  rcases found with period | ⟨-, perSecond⟩
  · obtain ⟨reason, -, rfl⟩ := Option.map_eq_some_iff.1 period
    exact .inl rfl
  · obtain ⟨reason, -, rfl⟩ := Option.map_eq_some_iff.1 perSecond
    exact .inr rfl

/-- Where the counts are possible, only a rate can be at fault. -/
theorem field_of_rateDefect? (possible : r.iterations = 0 → r.totalNanos = 0) {defect : Defect}
    (found : r.rateDefect? = some defect) :
    defect.field = .nanosPerOp ∨ defect.field = .opsPerSec := by
  rw [rateDefect?] at found
  by_cases idle : r.iterations = 0
  · rw [if_pos idle, if_neg (not_not.2 (possible idle))] at found
    exact field_of_eachRate found
  · rw [if_neg idle] at found
    simp only at found
    split at found
    · cases found
      exact .inl rfl
    · split at found
      · split at found
        · cases found
          exact .inr rfl
        · cases found
      · exact field_of_eachRate found

/-- Only a rate of the record that comes back can be at fault. -/
theorem field_of_reread (wellFormed : r.WellFormed) (read : r.reread = some s) {defect : Defect}
    (found : s.defect? = some defect) :
    defect.field = .nanosPerOp ∨ defect.field = .opsPerSec := by
  obtain ⟨same, -⟩ := reread_eq_some read
  obtain ⟨-, -, accepted, samples⟩ := wellFormed_iff.1 wellFormed
  have possible (idle : s.iterations = 0) : s.totalNanos = 0 := by
    rw [same.totalNanos]
    exact ((rateDefect?_of_idle (same.iterations ▸ idle)).1 accepted).1
  rw [defect?, same.sampleDefect?, samples, Option.or_none, Option.or_eq_some_iff] at found
  rcases found with range | ⟨-, rates⟩
  · exact field_of_eachRate range
  · exact field_of_rateDefect? possible rates

/-- The text of a well-formed record is read as that record with its rates read again. -/
theorem ofJson_of_wellFormed (wellFormed : r.WellFormed) :
    (∀ s, ofJson (.ofList r.encode) = .ok s ↔ r.reread = some s ∧ s.WellFormed) ∧
      ∀ s, r.reread = some s → ∀ defect, s.defect? = some defect →
        ofJson (.ofList r.encode) = .error (.illFormed defect) := by
  obtain ⟨finite, finite'⟩ := finite_of_wellFormed wellFormed
  have blank : ∀ c ∈ "".toList, Text.isBlank c := by simp
  have bare : "" ++ String.ofList r.encode ++ "" = .ofList r.encode := by
    rw [String.empty_append, String.append_empty]
  have accepted := ofJson_encode_eq_ok finite finite' blank blank
  have answer := (ofJson_encode finite finite' blank blank).1
  rw [bare] at accepted answer
  refine ⟨accepted, ?_⟩
  intro s read defect found
  rw [answer s read, found]

/-- A well-formed record can be written. What was written is accepted just if the record with its
rates read again is well formed; the counts of that record are the same, any defect of it is one of
its rates, and there is none if the rates are off the edge of their tolerances. -/
theorem rewritten_accepted_iff {r : Record} (wellFormed : r.WellFormed) :
    ∃ json, r.toJson = .ok json ∧
      (∀ s, ofJson json = .ok s ↔ r.reread = some s ∧ s.WellFormed) ∧
      (∀ s, r.reread = some s → r.SameCounts s ∧ ∀ defect, s.defect? = some defect →
        (defect.field = .nanosPerOp ∨ defect.field = .opsPerSec) ∧
          ofJson json = .error (.illFormed defect)) ∧
      (r.OffEdge → ∃ s, ofJson json = .ok s) := by
  obtain ⟨accepted, refused⟩ := ofJson_of_wellFormed wellFormed
  refine ⟨_, toJson_of_wellFormed wellFormed, accepted, ?_, ?_⟩
  · intro s read
    refine ⟨(reread_eq_some read).1, ?_⟩
    intro defect found
    exact ⟨field_of_reread wellFormed read found, refused s read defect found⟩
  · intro off
    obtain ⟨s, read, again⟩ := reread_of_offEdge wellFormed off
    exact ⟨s, (accepted s).2 ⟨read, again⟩⟩

/-- A period as far from the totals as it may be. -/
def onEdge : Record where
  iterations := 1
  totalNanos := 1
  nanosPerOp := .ofBits 0x3ff000000044b82f
  opsPerSec := .ofBits 0x41cdcd6500000000
  bytesPerOp := 0
  allocsPerOp := 0
  samples := []

theorem wellFormed_onEdge : onEdge.WellFormed := by decide +kernel

/-- Off the edge of the tolerances, a record is accepted again. -/
theorem offEdge_halfSeconds : halfSeconds.OffEdge := by
  obtain ⟨period, perSecond⟩ := halfSeconds_rates
  obtain ⟨total, count⟩ := halfSeconds_counts
  refine .inr ⟨?_, ?_, ?_⟩
  · rw [period]
    norm_num
  · rw [period, total, count]
    norm_num
  · rw [period, perSecond]
    norm_num

/-- What is written of one record is accepted just if the record read again is well formed, and what
is written of the other is accepted. -/
theorem rewritten_accepted_iff_edges :
    (onEdge.WellFormed ∧ ∃ json, onEdge.toJson = .ok json ∧
      ∀ s, ofJson json = .ok s ↔ onEdge.reread = some s ∧ s.WellFormed) ∧
    (halfSeconds.WellFormed ∧ halfSeconds.OffEdge ∧ ∃ json s, halfSeconds.toJson = .ok json ∧
      ofJson json = .ok s ∧ halfSeconds.SameCounts s) := by
  constructor
  · obtain ⟨json, written, accepted, -⟩ := rewritten_accepted_iff wellFormed_onEdge
    exact ⟨wellFormed_onEdge, json, written, accepted⟩
  · obtain ⟨json, written, accepted, counts, kept⟩ :=
      rewritten_accepted_iff halfSeconds_wellFormed
    obtain ⟨s, read⟩ := kept offEdge_halfSeconds
    exact ⟨halfSeconds_wellFormed, offEdge_halfSeconds, json, s, written, read,
      (counts s ((accepted s).1 read).1).1⟩

def onEdgeText : String :=
  "\x7b\"iterations\":1,\"total_nanos\":1," ++
    "\"nanos_per_op\":1.0000000009999998,\"ops_per_sec\":1000000000.0\x7d"

/-- That text is accepted, and what the record is written as here is not: the reader rounds its
period up, beyond the edge. -/
theorem rewritten_onEdge_refused :
    ofJson onEdgeText = .ok onEdge ∧ onEdge.WellFormed ∧
      ∃ json, onEdge.toJson = .ok json ∧
        ofJson json = .error (.illFormed
          ⟨.nanosPerOp, .offTotals (.ofBits 0x3ff000000044b830) (.ofNat 1)⟩) := by
  have read : onEdge.reread = some { onEdge with nanosPerOp := .ofBits 0x3ff000000044b830 } := by
    decide +kernel
  refine ⟨by decide +kernel, wellFormed_onEdge, _, toJson_of_wellFormed wellFormed_onEdge, ?_⟩
  exact (ofJson_of_wellFormed wellFormed_onEdge).2 _ read _ (by decide +kernel)

end Record

end MicroBench
