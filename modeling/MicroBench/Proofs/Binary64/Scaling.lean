import MicroBench.Proofs.Binary64.Order

/-! Finite numbers of either sign over a whole number, as when a number is put into a larger
unit. The quotient is finite, it keeps the order, whole quotients are exact, and a quotient
of a unit or more is rounded once. -/
namespace MicroBench.Binary64

variable {x y : Binary64} {s t : Bool} {m n u : ℕ}

/-- What keeps the order of magnitudes, and zero, keeps the order of numbers with a sign. -/
theorem signedQuanta_map_le {f : ℕ → ℕ} (mono : Monotone f) (zero : f 0 = 0)
    (le : signedQuanta s m ≤ signedQuanta t n) : signedQuanta s (f m) ≤ signedQuanta t (f n) := by
  cases s with
  | false =>
    cases t with
    | false =>
      rw [signedQuanta_false, signedQuanta_false, Nat.cast_le] at le ⊢
      exact mono le
    | true =>
      rw [signedQuanta_false, signedQuanta_true] at le
      obtain ⟨rfl, rfl⟩ : m = 0 ∧ n = 0 := by omega
      rw [zero]
      decide
  | true =>
    cases t with
    | false =>
      rw [signedQuanta_false, signedQuanta_true]
      omega
    | true =>
      rw [signedQuanta_true, signedQuanta_true, neg_le_neg_iff, Nat.cast_le] at le ⊢
      exact mono le

/-- The order of values is the order of their quanta. -/
theorem value_le_value {hm : Representable m} {hn : Representable n} :
    (finite s m hm).value ≤ (finite t n hn).value ↔ signedQuanta s m ≤ signedQuanta t n := by
  rw [value_finite, value_finite, div_le_div_iff_of_pos_right quantaPerUnit_cast_pos, Int.cast_le]

theorem nearestQuanta_mono_left (pos : 0 < u) : Monotone (nearestQuanta · u) := by
  intro m n le
  exact nearestQuanta_mono pos pos (Nat.mul_le_mul_right u le)

theorem representable_share (h : Representable m) (pos : 0 < u) :
    Representable (nearestQuanta m u) := by
  apply representable_nearestQuanta pos
  calc nearestQuanta m u ≤ nearestQuanta m 1 :=
        nearestQuanta_mono pos Nat.one_pos (Nat.mul_le_mul_left m pos)
    _ = m := nearestQuanta_of_representable h
    _ ≤ largestQuanta := h.1

/-- A finite number over a whole one is rounded from the exact share of its quanta. -/
theorem finite_div_ofNat (s : Bool) (h : Representable m) (pos : 0 < u) (small : u ≤ 2 ^ 53) :
    finite s m h / ofNat u = finite s (nearestQuanta m u) (representable_share h pos) := by
  have divisor : 0 < u * quantaPerUnit := Nat.mul_pos pos quantaPerUnit_pos
  have share : nearestQuanta (m * quantaPerUnit) (u * quantaPerUnit) = nearestQuanta m u := by
    apply nearestQuanta_congr divisor pos
    rw [Nat.mul_assoc, Nat.mul_comm u]
  rw [ofNat_eq small, finite_div_finite s false h _ divisor.ne', round, share, Bool.xor_false]
  exact ofQuanta_of_representable s (representable_share h pos)

/-- Dividing by the same natural keeps the order. -/
theorem div_ofNat_mono (le : AtMost x y) (pos : 0 < u) (small : u ≤ 2 ^ 53) :
    AtMost (x / ofNat u) (y / ofNat u) := by
  obtain ⟨finite, finite', le⟩ := le
  obtain ⟨s, m, hm, rfl⟩ := exists_finite finite
  obtain ⟨t, n, hn, rfl⟩ := exists_finite finite'
  rw [value_le_value] at le
  have shares := signedQuanta_map_le (nearestQuanta_mono_left pos) (nearestQuanta_zero pos) le
  rw [finite_div_ofNat s hm pos small, finite_div_ofNat t hn pos small]
  refine ⟨rfl, rfl, ?_⟩
  rw [value_le_value]
  exact shares

theorem isFinite_div_ofNat (hx : x.isFinite) (pos : 0 < u) (small : u ≤ 2 ^ 53) :
    (x / ofNat u).isFinite :=
  (div_ofNat_mono ⟨hx, hx, le_rfl⟩ pos small).finite

/-- To divide by one changes nothing, whatever the sign. -/
theorem div_ofNat_one (hx : x.isFinite) : x / ofNat 1 = x := by
  obtain ⟨s, m, h, rfl⟩ := exists_finite hx
  rw [finite_div_ofNat s h Nat.one_pos (by norm_num)]
  simp only [nearestQuanta_of_representable h]

/-- Whole quotients are exact. -/
theorem ofNat_mul_div_ofNat (pos' : 0 < n) (pos : 0 < u) (small : n * u ≤ 2 ^ 53) :
    ofNat (n * u) / ofNat u = ofNat n := by
  have small' : n ≤ 2 ^ 53 := (Nat.le_mul_of_pos_right n pos).trans small
  have small'' : u ≤ 2 ^ 53 := (Nat.le_mul_of_pos_left u pos').trans small
  have whole : nearestQuanta (n * u * quantaPerUnit) u = n * quantaPerUnit := by
    have same : n * u * quantaPerUnit * 1 = n * quantaPerUnit * u := by
      rw [Nat.mul_one, Nat.mul_right_comm]
    rw [nearestQuanta_congr pos Nat.one_pos same]
    exact nearestQuanta_of_representable (representable_whole small')
  rw [ofNat_eq small, finite_div_ofNat false _ pos small'', ofNat_eq small']
  simp only [whole]

/-- A quotient of a unit or more is rounded once. -/
theorem within_div_ofNat (pos : 0 < u) (small : u ≤ 2 ^ 53) (large : u ≤ x.value) :
    Within 1 (x / ofNat u).value (x.value / u) := by
  have divisor : (0 : ℚ) < u := by exact_mod_cast pos
  obtain ⟨m, h, rfl, -⟩ := exists_of_value_pos (divisor.trans_le large)
  have many : 2 ^ 52 * u ≤ m := by
    rw [value_finite, signedQuanta_false, Int.cast_natCast, le_div_iff₀ quantaPerUnit_cast_pos]
      at large
    have enough : u * quantaPerUnit ≤ m := by exact_mod_cast large
    have unit : 2 ^ 52 ≤ quantaPerUnit :=
      (Nat.pow_le_pow_right (by norm_num) (by norm_num)).trans two_pow_le_quantaPerUnit
    calc 2 ^ 52 * u ≤ quantaPerUnit * u := Nat.mul_le_mul_right u unit
      _ = u * quantaPerUnit := Nat.mul_comm _ _
      _ ≤ m := enough
  have rounded := (within_nearestQuanta pos many).div_right quantaPerUnit_cast_pos
  rw [finite_div_ofNat false h pos small, value_finite, value_finite, signedQuanta_false,
    signedQuanta_false, Int.cast_natCast, Int.cast_natCast, div_right_comm]
  exact rounded

end MicroBench.Binary64
