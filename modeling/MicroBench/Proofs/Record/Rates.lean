import MicroBench.Proofs.Binary64.Accuracy
import MicroBench.Record.Basic

/-! The accuracy of the rates: how far they and the numbers they are computed from are
from the exact quotients of the counts. -/
namespace MicroBench

open Binary64

/-- So few roundings of a moderate value leave it moderate. -/
theorem Within.normal {k : ℕ} {x y : ℚ} (h : Within k x y) (few : k ≤ 8)
    (lower : 1 / 2 ^ 147 ≤ y) (upper : y ≤ 2 ^ 148) : Normal x := by
  obtain ⟨below, above⟩ := h.bounds few (lt_of_lt_of_le (by norm_num) lower)
  apply normal_of_moderate <;> linarith

theorem within_word (n : UInt64) :
    (ofNat n.toNat).isFinite ∧ Within 1 (ofNat n.toNat).value n.toNat :=
  within_ofNat_moderate (n.toNat_lt.le.trans (by norm_num))

theorem one_le_cast_toNat {n : UInt64} (hn : n ≠ 0) : (1 : ℚ) ≤ n.toNat := by
  have : 0 < n.toNat := Nat.pos_of_ne_zero fun zero => hn (UInt64.toNat_inj.1 zero)
  exact_mod_cast this

theorem cast_toNat_le (n : UInt64) : (n.toNat : ℚ) ≤ 2 ^ 64 := by
  exact_mod_cast n.toNat_lt.le

/-- The quotient of two counts lies between the inverse of the largest word and the largest word. -/
theorem quotient_bounds {n t : UInt64} (hn : n ≠ 0) (ht : t ≠ 0) :
    (1 : ℚ) / 2 ^ 64 ≤ t.toNat / n.toNat ∧ (t.toNat : ℚ) / n.toNat ≤ 2 ^ 64 := by
  have one := one_le_cast_toNat hn
  have one' := one_le_cast_toNat ht
  constructor
  · rw [div_le_div_iff₀ (by norm_num) (by linarith)]
    have := cast_toNat_le n
    linarith
  · rw [div_le_iff₀ (by linarith)]
    have := cast_toNat_le t
    linarith

/-- Two words that are rounded and divided are three roundings off at most. -/
theorem within_quotient {n t : UInt64} (hn : n ≠ 0) (ht : t ≠ 0) :
    Within 3 (ofNat t.toNat / ofNat n.toNat).value (t.toNat / n.toNat) := by
  have hn' : (0 : ℚ) < n.toNat := zero_lt_one.trans_le (one_le_cast_toNat hn)
  have ht' : (0 : ℚ) < t.toNat := zero_lt_one.trans_le (one_le_cast_toNat ht)
  have near := (within_word n).2
  have near' := (within_word t).2
  obtain ⟨lower, upper⟩ := quotient_bounds hn ht
  have exact := near'.div near (near'.pos ht').le ht'.le (near.pos hn') hn'
  have rounded := within_div (near'.pos ht') (near.pos hn')
    (exact.normal (by norm_num) (by linarith) (by linarith))
  exact rounded.trans exact

theorem value_nanosPerSecond : nanosPerSecond.value = 1000000000 := by
  have exact := value_ofNat (n := 1000000000) (by norm_num)
  exact_mod_cast exact

/-- A rate per second is one rounding away from the inverse of a moderate period. -/
theorem within_perSecond {p : Binary64} (lower : 1 / 2 ^ 100 ≤ p.value)
    (upper : p.value ≤ 2 ^ 100) :
    Within 1 (nanosPerSecond / p).value (1000000000 / p.value) := by
  have pos : 0 < p.value := lt_of_lt_of_le (by norm_num) lower
  have := within_div (x := nanosPerSecond) (y := p)
    (by rw [value_nanosPerSecond]; norm_num) pos
  rw [value_nanosPerSecond] at this
  apply this
  apply normal_of_moderate
  · rw [le_div_iff₀ pos]
    linarith
  · rw [div_le_iff₀ pos]
    linarith

/-- The rates of a run that took time. The period is three roundings from the exact quotient, and
the rate per second is one from the inverse of the period. -/
theorem rates_of_pos {n t : UInt64} (hn : n ≠ 0) (ht : t ≠ 0) :
    Within 3 (rates n t).1.value (t.toNat / n.toNat) ∧
      Within 1 (rates n t).2.value (1000000000 / (rates n t).1.value) := by
  have near := within_quotient hn ht
  obtain ⟨lower, upper⟩ := quotient_bounds hn ht
  obtain ⟨below, above⟩ := near.bounds (by norm_num) (lt_of_lt_of_le (by norm_num) lower)
  have computed : rates n t = (ofNat t.toNat / ofNat n.toNat,
      nanosPerSecond / (ofNat t.toNat / ofNat n.toNat)) := by
    simp [rates, hn, ht]
  rw [computed]
  exact ⟨near, within_perSecond (by linarith) (by linarith)⟩

theorem rates_of_zero {n t : UInt64} (zero : n = 0 ∨ t = 0) : rates n t = (0, 0) :=
  if_pos zero

end MicroBench
