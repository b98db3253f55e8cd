import MicroBench.Proofs.Decimal.Fixed
import MicroBench.Record.Figures

/-! Figures for people, read back as exact numbers: a decimal times the unit whose symbol
follows it. The unit is the largest that the number reaches, the figure is as close to the
number as its places allow, and no two figures are in the opposite order of their numbers,
also where a figure of a smaller unit is rounded up to the next unit. -/
namespace MicroBench

open Binary64

def durationScales : List Scale :=
  [⟨1, 2, " ns"⟩, ⟨1000, 2, " µs"⟩, ⟨1000000, 2, " ms"⟩, ⟨1000000000, 3, " s"⟩]

def rateScales : List Scale :=
  [⟨1, 2, " ops/s"⟩, ⟨1000, 2, "K ops/s"⟩, ⟨1000000, 2, "M ops/s"⟩, ⟨1000000000, 2, "B ops/s"⟩]

/-- What a figure says: a decimal, how many digits follow its point, and the unit. -/
structure Figure where
  decimal : ℚ
  places : ℕ
  scale : Scale

namespace Figure

def value (figure : Figure) : ℚ := figure.decimal * figure.scale.size

def read (scales : List Scale) (text : String) : Option Figure :=
  (Fixed.read text.toList).bind fun reading =>
    (scales.find? fun scale => scale.symbol.toList = reading.rest).map fun scale =>
      ⟨reading.decimal, reading.places, scale⟩

end Figure

/-- The unit is the largest of these that a number reaches, or the base unit if it reaches none. -/
structure Scale.Suits (scale : Scale) (scales : List Scale) (x : ℚ) : Prop where
  mem : scale ∈ scales
  reached : (scale.size : ℚ) ≤ x ∨ scale.size = 1
  largest : ∀ other ∈ scales, (other.size : ℚ) ≤ x → other.size ≤ scale.size

/-- The figure shows the number in the unit that suits it, as closely as its places and one rounding
allow; its decimal is no less than one, and no more than a thousand, unless there is no smaller or no
larger unit. -/
structure Figure.Faithful (figure : Figure) (scales : List Scale) (x : ℚ) : Prop where
  suits : figure.scale.Suits scales x
  places : figure.places = figure.scale.places
  near : |figure.value - x| ≤ figure.scale.size / (2 * 10 ^ figure.scale.places) + |x| / 2 ^ 53
  atLeast : 1 < figure.scale.size → 1 ≤ figure.decimal
  atMost : (∃ larger ∈ scales, figure.scale.size < larger.size) → figure.decimal ≤ 1000

def Figure.InOrder (scales : List Scale) (text text' : String) : Prop :=
  ∃ figure figure' : Figure, Figure.read scales text = some figure ∧
    Figure.read scales text' = some figure' ∧ figure.value ≤ figure'.value

structure Ladder (scales : List Scale) : Prop where
  size_pos : ∀ scale ∈ scales, 0 < scale.size
  size_le : ∀ scale ∈ scales, 1000 * scale.size ≤ 2 ^ 53
  places_pos : ∀ scale ∈ scales, 0 < scale.places
  symbol_stops : ∀ scale ∈ scales, scale.symbol.toList.takeWhile Char.isDigit = []
  symbol_found : ∀ scale ∈ scales,
    (scales.find? fun other => other.symbol.toList = scale.symbol.toList) = some scale
  size_inj : ∀ scale ∈ scales, ∀ other ∈ scales, scale.size = other.size → scale = other
  next : ∀ scale ∈ scales, ∀ larger ∈ scales, scale.size < larger.size →
    ∃ next ∈ scales, next.size = 1000 * scale.size ∧ next.size ≤ larger.size

theorem ladder_durationScales : Ladder durationScales := by
  constructor <;> decide

theorem ladder_rateScales : Ladder rateScales := by
  constructor <;> decide

variable {scales : List Scale} {scale scale' : Scale} {x y : Binary64}

/-! ### The unit that is chosen -/

namespace Scale

theorem lt_ofNat_iff {n : ℕ} (finite : x.isFinite) (small : n ≤ 2 ^ 53) :
    x.lt (ofNat n) = true ↔ x.value < n := by
  rw [lt_iff finite (isFinite_ofNat small), value_ofNat small]

theorem reaches_iff {n : ℕ} (finite : x.isFinite) (small : n ≤ 2 ^ 53) :
    reaches x n = true ↔ (n : ℚ) ≤ x.value := by
  have finite' := isFinite_ofNat small
  rw [reaches, Bool.or_eq_true, lt_iff finite' finite, numEq_iff finite' finite, value_ofNat small,
    le_iff_lt_or_eq]

/-- A unit suits a number that reaches it, and not the next one. -/
theorem suits_of_bounds (ladder : Ladder scales) (mem : scale ∈ scales) {r : ℚ}
    (reached : (scale.size : ℚ) ≤ r ∨ scale.size = 1)
    (below : (∃ next ∈ scales, next.size = 1000 * scale.size) → r < 1000 * scale.size) :
    scale.Suits scales r := by
  refine ⟨mem, reached, ?_⟩
  intro other member reached'
  by_contra larger
  obtain ⟨next, member', grows, most⟩ := ladder.next scale mem other member (not_le.1 larger)
  have less := below ⟨next, member', grows⟩
  have most' : (1000 : ℚ) * scale.size ≤ other.size := by
    rw [grows] at most
    exact_mod_cast most
  linarith

/-- The unit for a duration is the largest that it reaches. -/
theorem suits_ofDuration (finite : x.isFinite) :
    (ofDuration x).Suits durationScales x.value := by
  have micro := lt_ofNat_iff (n := 1000) finite (by norm_num)
  have milli := lt_ofNat_iff (n := 1000000) finite (by norm_num)
  have second := lt_ofNat_iff (n := 1000000000) finite (by norm_num)
  push_cast at micro milli second
  have ladder := ladder_durationScales
  simp only [ofDuration, micro, milli, second]
  split_ifs with nanos micros millis
  · exact suits_of_bounds ladder (by decide) (.inr rfl) fun _ => by norm_num; linarith
  · exact suits_of_bounds ladder (by decide) (.inl (by norm_num; linarith))
      fun _ => by norm_num; linarith
  · exact suits_of_bounds ladder (by decide) (.inl (by norm_num; linarith))
      fun _ => by norm_num; linarith
  · exact suits_of_bounds ladder (by decide) (.inl (by norm_num; linarith))
      fun beyond => absurd beyond (by decide)

theorem suits_ofRate (finite : x.isFinite) : (ofRate x).Suits rateScales x.value := by
  have thousand := reaches_iff (n := 1000) finite (by norm_num)
  have million := reaches_iff (n := 1000000) finite (by norm_num)
  have billion := reaches_iff (n := 1000000000) finite (by norm_num)
  push_cast at thousand million billion
  have ladder := ladder_rateScales
  simp only [ofRate, thousand, million, billion]
  split_ifs with billions millions thousands
  · exact suits_of_bounds ladder (by decide) (.inl (by norm_num; linarith))
      fun beyond => absurd beyond (by decide)
  · exact suits_of_bounds ladder (by decide) (.inl (by norm_num; linarith))
      fun _ => by norm_num; linarith
  · exact suits_of_bounds ladder (by decide) (.inl (by norm_num; linarith))
      fun _ => by norm_num; linarith
  · exact suits_of_bounds ladder (by decide) (.inr rfl) fun _ => by norm_num; linarith

/-! ### The figure of a number in a unit -/

def figure (scale : Scale) (x : Binary64) : Figure :=
  ⟨Fixed.shown scale.places (x / ofNat scale.size), scale.places, scale⟩

theorem read_render (ladder : Ladder scales) (mem : scale ∈ scales) (finite : x.isFinite) :
    Figure.read scales (scale.render x) = some (scale.figure x) := by
  have pos := ladder.size_pos scale mem
  have small := ladder.size_le scale mem
  have quotient := isFinite_div_ofNat finite pos (by omega)
  have text : (scale.render x).toList =
      Fixed.render scale.places (x / ofNat scale.size) ++ scale.symbol.toList := by
    rw [render, String.toList_append, String.toList_ofList]
  rw [Figure.read, text,
    Fixed.read_render (ladder.places_pos scale mem) quotient (ladder.symbol_stops scale mem),
    Option.bind_some, ladder.symbol_found scale mem]
  rfl

/-- A number that reaches its unit is shown as one at least. -/
theorem one_le_decimal (ladder : Ladder scales) (suits : scale.Suits scales x.value)
    (finite : x.isFinite) (above : 1 < scale.size) : 1 ≤ (scale.figure x).decimal := by
  have pos := ladder.size_pos scale suits.mem
  have small := ladder.size_le scale suits.mem
  have reached : (scale.size : ℚ) ≤ x.value := suits.reached.resolve_right (by omega)
  have unit : AtMost (ofNat (1 * scale.size)) x := by
    have small' : 1 * scale.size ≤ 2 ^ 53 := by omega
    refine ⟨isFinite_ofNat small', finite, ?_⟩
    rw [value_ofNat small', Nat.one_mul]
    exact reached
  have shown := Fixed.shown_mono scale.places (div_ofNat_mono unit pos (by omega))
  rw [ofNat_mul_div_ofNat Nat.one_pos pos (by omega), Fixed.shown_ofNat (by norm_num)] at shown
  exact_mod_cast shown

/-- A number that does not reach the next unit is shown as a thousand at most. -/
theorem decimal_le (ladder : Ladder scales) (suits : scale.Suits scales x.value)
    (finite : x.isFinite) (below : ∃ larger ∈ scales, scale.size < larger.size) :
    (scale.figure x).decimal ≤ 1000 := by
  have pos := ladder.size_pos scale suits.mem
  have small := ladder.size_le scale suits.mem
  obtain ⟨larger, member, less⟩ := below
  obtain ⟨next, member', grows, -⟩ := ladder.next scale suits.mem larger member less
  have missed : x.value < (1000 * scale.size : ℕ) := by
    by_contra reached
    have := suits.largest next member' (grows ▸ not_lt.1 reached)
    omega
  have thousand : AtMost x (ofNat (1000 * scale.size)) := by
    refine ⟨finite, isFinite_ofNat small, ?_⟩
    rw [value_ofNat small]
    exact missed.le
  have shown := Fixed.shown_mono scale.places (div_ofNat_mono thousand pos (by omega))
  rw [ofNat_mul_div_ofNat (by norm_num) pos small, Fixed.shown_ofNat (by norm_num)] at shown
  exact_mod_cast shown

/-- In the base unit nothing is rounded on the way to the decimal, and elsewhere once. -/
theorem abs_quotient_sub (pos : 0 < scale.size) (small : scale.size ≤ 2 ^ 53) (finite : x.isFinite)
    (reached : (scale.size : ℚ) ≤ x.value ∨ scale.size = 1) :
    |(x / ofNat scale.size).value * scale.size - x.value| ≤ |x.value| / 2 ^ 53 := by
  rcases reached with reached | base
  · have unit : (0 : ℚ) < scale.size := by exact_mod_cast pos
    have share : 0 ≤ x.value / scale.size := div_nonneg (unit.le.trans reached) unit.le
    have rounded := (within_div_ofNat pos small reached).abs_sub_le share
    have scaled : (x / ofNat scale.size).value * scale.size - x.value =
        ((x / ofNat scale.size).value - x.value / scale.size) * scale.size := by
      rw [sub_mul, div_mul_cancel₀ _ unit.ne']
    rw [scaled, abs_mul, abs_of_pos unit, abs_of_nonneg (unit.le.trans reached)]
    calc |(x / ofNat scale.size).value - x.value / scale.size| * scale.size
        ≤ (roundingFactor ^ 1 - 1) * (x.value / scale.size) * scale.size :=
          mul_le_mul_of_nonneg_right rounded unit.le
      _ = (roundingFactor ^ 1 - 1) * x.value := by rw [mul_assoc, div_mul_cancel₀ _ unit.ne']
      _ = x.value / 2 ^ 53 := by
          rw [pow_one, roundingFactor]
          ring
  · rw [base, div_ofNat_one finite, Nat.cast_one, mul_one, sub_self, abs_zero]
    positivity

theorem abs_value_sub (ladder : Ladder scales) (suits : scale.Suits scales x.value)
    (finite : x.isFinite) :
    |(scale.figure x).value - x.value| ≤
      scale.size / (2 * 10 ^ scale.places) + |x.value| / 2 ^ 53 := by
  have pos := ladder.size_pos scale suits.mem
  have small := ladder.size_le scale suits.mem
  have unit : (0 : ℚ) < scale.size := by exact_mod_cast pos
  have quotient := isFinite_div_ofNat finite pos (by omega)
  have digits := Fixed.abs_shown_sub_value scale.places quotient
  have divided := abs_quotient_sub pos (by omega) finite suits.reached
  have parts : (scale.figure x).value - x.value =
      (Fixed.shown scale.places (x / ofNat scale.size) - (x / ofNat scale.size).value) *
        scale.size + ((x / ofNat scale.size).value * scale.size - x.value) := by
    rw [figure, Figure.value]
    ring
  calc |(scale.figure x).value - x.value|
      ≤ |Fixed.shown scale.places (x / ofNat scale.size) - (x / ofNat scale.size).value| *
          scale.size + |(x / ofNat scale.size).value * scale.size - x.value| := by
        rw [parts]
        refine (abs_add_le _ _).trans_eq ?_
        rw [abs_mul, abs_of_pos unit]
    _ ≤ 1 / (2 * 10 ^ scale.places) * scale.size + |x.value| / 2 ^ 53 :=
        add_le_add (mul_le_mul_of_nonneg_right digits unit.le) divided
    _ = scale.size / (2 * 10 ^ scale.places) + |x.value| / 2 ^ 53 := by
        rw [div_mul_eq_mul_div, one_mul]

/-- A figure in the unit that suits a number is faithful to it. -/
theorem faithful_figure (ladder : Ladder scales) (suits : scale.Suits scales x.value)
    (finite : x.isFinite) : (scale.figure x).Faithful scales x.value where
  suits := suits
  places := rfl
  near := abs_value_sub ladder suits finite
  atLeast := one_le_decimal ladder suits finite
  atMost := decimal_le ladder suits finite

/-- Figures are in the order of their numbers. Where the units differ, what the smaller one shows is
at most a thousand of it, which is at most one of the larger. -/
theorem figure_mono (ladder : Ladder scales) (suits : scale.Suits scales x.value)
    (suits' : scale'.Suits scales y.value) (le : AtMost x y) :
    (scale.figure x).value ≤ (scale'.figure y).value := by
  have pos := ladder.size_pos scale suits.mem
  have small := ladder.size_le scale suits.mem
  have unit : (0 : ℚ) < scale.size := by exact_mod_cast pos
  have order := le.le
  rcases lt_trichotomy scale.size scale'.size with less | same | greater
  · have most := decimal_le ladder suits le.finite ⟨scale', suits'.mem, less⟩
    have least := one_le_decimal ladder suits' le.finite' (by omega)
    obtain ⟨next, -, grows, reach⟩ := ladder.next scale suits.mem scale' suits'.mem less
    have step : (1000 : ℚ) * scale.size ≤ scale'.size := by
      rw [grows] at reach
      exact_mod_cast reach
    have unit' : (0 : ℚ) < scale'.size := unit.trans (by exact_mod_cast less)
    calc (scale.figure x).value ≤ 1000 * scale.size := mul_le_mul_of_nonneg_right most unit.le
      _ ≤ scale'.size := step
      _ = 1 * scale'.size := (one_mul _).symm
      _ ≤ (scale'.figure y).value := mul_le_mul_of_nonneg_right least unit'.le
  · obtain rfl := ladder.size_inj scale suits.mem scale' suits'.mem same
    have quotients := div_ofNat_mono le pos (by omega)
    exact mul_le_mul_of_nonneg_right (Fixed.shown_mono scale.places quotients) unit.le
  · -- the unit of the smaller number is reached by the larger one too
    have base := ladder.size_pos scale' suits'.mem
    have reached := suits.reached.resolve_right (by omega)
    have := suits'.largest scale suits.mem (reached.trans order)
    omega

end Scale

/-! ### Durations and rates -/

/-- The figures of two numbers are never in the opposite order of the numbers, be they durations or
rates, in one unit or in two, negative or zero. -/
theorem figures_ordered (finite : x.isFinite) (finite' : y.isFinite) (le : x.value ≤ y.value) :
    Figure.InOrder durationScales (formatDuration x) (formatDuration y) ∧
      Figure.InOrder rateScales (formatRate x) (formatRate y) := by
  have order : AtMost x y := ⟨finite, finite', le⟩
  constructor
  · have suits := Scale.suits_ofDuration finite
    have suits' := Scale.suits_ofDuration finite'
    exact ⟨_, _, Scale.read_render ladder_durationScales suits.mem finite,
      Scale.read_render ladder_durationScales suits'.mem finite',
      Scale.figure_mono ladder_durationScales suits suits' order⟩
  · have suits := Scale.suits_ofRate finite
    have suits' := Scale.suits_ofRate finite'
    exact ⟨_, _, Scale.read_render ladder_rateScales suits.mem finite,
      Scale.read_render ladder_rateScales suits'.mem finite',
      Scale.figure_mono ladder_rateScales suits suits' order⟩

/-- The figure of a number below a million that is rounded up to a thousand of its unit is not beyond
that of a million. -/
theorem figures_ordered_million :
    (ofRatio 999999999 1000).isFinite ∧ (ofNat 1000000).isFinite ∧
      (ofRatio 999999999 1000).value ≤ (ofNat 1000000).value ∧
      formatDuration (ofRatio 999999999 1000) = "1000.00 µs" ∧
      formatDuration (ofNat 1000000) = "1.00 ms" ∧
      Figure.InOrder durationScales (formatDuration (ofRatio 999999999 1000))
        (formatDuration (ofNat 1000000)) ∧
      Figure.InOrder rateScales (formatRate (ofRatio 999999999 1000))
        (formatRate (ofNat 1000000)) := by
  have finite : (ofRatio 999999999 1000).isFinite := by decide +kernel
  have finite' : (ofNat 1000000).isFinite := by decide +kernel
  have less : (ofRatio 999999999 1000).lt (ofNat 1000000) := by decide +kernel
  have le := ((lt_iff finite finite').1 less).le
  exact ⟨finite, finite', le, by decide +kernel, by decide +kernel,
    figures_ordered finite finite' le⟩

/-- A figure, be it of a duration or of a rate, shows its number faithfully. -/
theorem figures_faithful (finite : x.isFinite) :
    (∃ figure, Figure.read durationScales (formatDuration x) = some figure ∧
      figure.Faithful durationScales x.value) ∧
      ∃ figure, Figure.read rateScales (formatRate x) = some figure ∧
        figure.Faithful rateScales x.value := by
  constructor
  · have suits := Scale.suits_ofDuration finite
    exact ⟨_, Scale.read_render ladder_durationScales suits.mem finite,
      Scale.faithful_figure ladder_durationScales suits finite⟩
  · have suits := Scale.suits_ofRate finite
    exact ⟨_, Scale.read_render ladder_rateScales suits.mem finite,
      Scale.faithful_figure ladder_rateScales suits finite⟩

/-- A number just over halfway from 999.99 to 1000.00: the carry goes through every digit, and the
unit stays. -/
theorem figures_faithful_carry :
    (ofRatio 999995 1000).isFinite ∧ formatDuration (ofRatio 999995 1000) = "1000.00 ns" ∧
      (∃ figure, Figure.read durationScales (formatDuration (ofRatio 999995 1000)) = some figure ∧
        figure.Faithful durationScales (ofRatio 999995 1000).value) ∧
      ∃ figure, Figure.read rateScales (formatRate (ofRatio 999995 1000)) = some figure ∧
        figure.Faithful rateScales (ofRatio 999995 1000).value := by
  have finite : (ofRatio 999995 1000).isFinite := by decide +kernel
  exact ⟨finite, by decide +kernel, figures_faithful finite⟩

end MicroBench
