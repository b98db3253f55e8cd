import Mathlib.Algebra.Order.Group.Int
import Mathlib.Order.Basic
import Mathlib.Tactic.Linarith
import MicroBench.Clock

/-! The time between two readings is their exact distance in nanoseconds, cut off at zero
and at the largest word. Borrowing from the seconds and comparing part by part do not show
in it. So sections of time that follow each other add up, whichever of them are cut off. -/
namespace MicroBench

namespace Instant

variable {a b : Instant}

def sinceOrigin (a : Instant) : ℤ := a.seconds * 1000000000 + a.nanos

/-- The parts of a reading are the digits of its nanoseconds, the base being a second. -/
theorem sinceOrigin_injective : Function.Injective sinceOrigin := by
  rintro ⟨seconds, nanos, small⟩ ⟨seconds', nanos', small'⟩ same
  simp only [sinceOrigin] at same
  obtain rfl : seconds = seconds' := by omega
  obtain rfl : nanos = nanos' := by omega
  rfl

/-- Readings are in the order of time. -/
instance : LinearOrder Instant := LinearOrder.lift' sinceOrigin sinceOrigin_injective

theorem le_iff : a ≤ b ↔ a.sinceOrigin ≤ b.sinceOrigin := Iff.rfl

theorem lt_iff : a < b ↔ a.sinceOrigin < b.sinceOrigin := Iff.rfl

/-- To compare the seconds first and the nanoseconds then is to compare the times. -/
theorem before_iff : a.before b = true ↔ a < b := by
  have small := a.nanos_lt
  have small' := b.nanos_lt
  simp only [before, Bool.or_eq_true, Bool.and_eq_true, decide_eq_true_eq, beq_iff_eq, lt_iff,
    sinceOrigin]
  constructor
  · rintro (earlier | ⟨same, earlier⟩)
    · omega
    · omega
  · intro earlier
    omega

/-- The second that is borrowed is made up for by its nanoseconds. -/
theorem nanosUntil_eq (le : a ≤ b) : (a.nanosUntil b : ℤ) = b.sinceOrigin - a.sinceOrigin := by
  have small := a.nanos_lt
  have small' := b.nanos_lt
  simp only [le_iff, sinceOrigin] at le ⊢
  simp only [nanosUntil]
  split
  · omega
  · omega

end Instant

namespace Clock

variable {a b b' c : Instant}

/-- The nanoseconds are the exact distance, between zero and the largest word. -/
theorem toNat_nanosBetween (a b : Instant) :
    (nanosBetween a b).toNat = min (b.sinceOrigin - a.sinceOrigin).toNat largestWord := by
  rw [nanosBetween]
  by_cases backwards : b < a
  · rw [if_pos (Instant.before_iff.2 backwards)]
    rw [Instant.lt_iff] at backwards
    have zero : (b.sinceOrigin - a.sinceOrigin).toNat = 0 := by omega
    rw [zero]
    rfl
  · rw [if_neg (mt Instant.before_iff.1 backwards), toNat_clampToWord]
    have exact := Instant.nanosUntil_eq (not_lt.1 backwards)
    have whole : a.nanosUntil b = (b.sinceOrigin - a.sinceOrigin).toNat := by omega
    rw [whole]

theorem eventsBetween_eq (a b : Instant) :
    eventsBetween a b = if b < a then [wentBackwards] else [] := by
  rw [eventsBetween]
  exact if_congr Instant.before_iff rfl rfl

/-- The clock is read once, and what is reported then depends on the order of the readings alone. -/
theorem elapsedNanos_eq {m : Type → Type} [Monad m] [LawfulMonad m] (now : m Instant)
    (log : Event → m Unit) (a : Instant) :
    elapsedNanos now log a = (do
      let b ← now
      if b < a then log wentBackwards
      pure (nanosBetween a b)) := by
  refine bind_congr fun b => ?_
  rw [eventsBetween_eq]
  split
  · simp [List.forM_cons]
  · simp

theorem nanosBetween_eq_zero (le : b ≤ a) : nanosBetween a b = 0 := by
  rw [← UInt64.toNat_inj, toNat_nanosBetween]
  rw [Instant.le_iff] at le
  have zero : (b.sinceOrigin - a.sinceOrigin).toNat = 0 := by omega
  rw [zero]
  rfl

/-- Along increasing readings, the nanoseconds add up as far as a word goes. -/
theorem nanosBetween_add (le : a ≤ b) (le' : b ≤ c) :
    nanosBetween a c = satAdd (nanosBetween a b) (nanosBetween b c) := by
  rw [← UInt64.toNat_inj, satAdd, toNat_clampToWord]
  rw [Instant.le_iff] at le le'
  simp only [toNat_nanosBetween]
  omega

/-- A later end is further from every start, and nearer to every end that a later start has. -/
theorem nanosBetween_mono (le : b ≤ b') :
    nanosBetween a b ≤ nanosBetween a b' ∧ nanosBetween b' a ≤ nanosBetween b a := by
  rw [Instant.le_iff] at le
  simp only [UInt64.le_iff_toNat_le, toNat_nanosBetween]
  omega

/-- The time between two readings is their exact distance, cut off at zero and at the largest word;
that the clock went backwards is reported exactly then, and in one direction at least the time is
zero. Sections of time that follow each other add up, and the time grows with its end and shrinks
with its start. -/
theorem nanosBetween_oneSided :
    (∀ a b : Instant,
      ((nanosBetween a b).toNat : ℤ) = min (max (b.sinceOrigin - a.sinceOrigin) 0) (2 ^ 64 - 1) ∧
        eventsBetween a b = (if b < a then [wentBackwards] else []) ∧
        (nanosBetween a b = 0 ∨ nanosBetween b a = 0)) ∧
      (∀ (m : Type → Type) [Monad m] [LawfulMonad m] (now : m Instant) (log : Event → m Unit)
        (a : Instant), elapsedNanos now log a = (do
          let b ← now
          if b < a then log wentBackwards
          pure (nanosBetween a b))) ∧
      (∀ a b c : Instant, a ≤ b → b ≤ c → (nanosBetween a c).toNat =
        min ((nanosBetween a b).toNat + (nanosBetween b c).toNat) (2 ^ 64 - 1)) ∧
      ∀ a b b' : Instant, b ≤ b' →
        nanosBetween a b ≤ nanosBetween a b' ∧ nanosBetween b' a ≤ nanosBetween b a := by
  refine ⟨fun a b => ⟨?_, eventsBetween_eq a b, ?_⟩,
    fun m _ _ now log a => elapsedNanos_eq now log a, ?_, fun a b b' le => nanosBetween_mono le⟩
  · rw [toNat_nanosBetween, largestWord]
    omega
  · rcases le_total a b with le | le
    · exact .inr (nanosBetween_eq_zero le)
    · exact .inl (nanosBetween_eq_zero le)
  · intro a b c le le'
    have word : largestWord = 2 ^ 64 - 1 := rfl
    rw [nanosBetween_add le le', satAdd, toNat_clampToWord, word]

/-- Two sections of ten thousand million seconds: each is a word, and together they are cut off. The
other way round there is no time between them, and one report that the clock went backwards. -/
theorem nanosBetween_oneSided_overflowing :
    Instant.ofParts 0 999999999 ≤ Instant.ofParts 10000000000 1 ∧
      Instant.ofParts 10000000000 1 ≤ Instant.ofParts 20000000000 0 ∧
      (nanosBetween (.ofParts 0 999999999) (.ofParts 20000000000 0)).toNat =
        min ((nanosBetween (.ofParts 0 999999999) (.ofParts 10000000000 1)).toNat +
          (nanosBetween (.ofParts 10000000000 1) (.ofParts 20000000000 0)).toNat) (2 ^ 64 - 1) ∧
      nanosBetween (.ofParts 0 999999999) (.ofParts 20000000000 0) = 0xffffffffffffffff ∧
      (elapsedNanos (m := StateM (List Event)) (pure (.ofParts 0 999999999))
        (fun event => modify (event :: ·)) (.ofParts 10000000000 1)).run [] =
          (0, [wentBackwards]) := by
  have first : Instant.ofParts 0 999999999 ≤ Instant.ofParts 10000000000 1 := by decide
  have second : Instant.ofParts 10000000000 1 ≤ Instant.ofParts 20000000000 0 := by decide
  refine ⟨first, second, nanosBetween_oneSided.2.2.1 _ _ _ first second, by decide, ?_⟩
  rw [nanosBetween_oneSided.2.1]
  rfl

end Clock

end MicroBench
