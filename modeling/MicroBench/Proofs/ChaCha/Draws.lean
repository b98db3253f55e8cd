import Mathlib.Algebra.BigOperators.Group.List.Basic
import MicroBench.Proofs.ChaCha.Stream

/-! Draws of every kind from one generator, in any order: each of them reads the words of the
stream at which the one before it stopped. -/
namespace MicroBench.ChaCha

inductive Draw where
  | word
  | byte
  | long
  | fill (size : Nat)
deriving DecidableEq

inductive Drawn where
  | word (w : UInt32)
  | byte (b : UInt8)
  | long (n : UInt64)
  | bytes (data : List UInt8)
deriving DecidableEq

namespace Draw

/-- The words that a draw takes. Those that the bytes of a fill are in are as many as its size over
four, rounded up. -/
def words : Draw → Nat
  | word | byte => 1
  | long => 2
  | fill size => (size + 3) / 4

/-- What a draw makes of words: all of one, the low byte of one, two of which the first is the low
one, or their bytes, four a word and the low one first. -/
inductive Reads (w : Nat → UInt32) : Draw → Drawn → Prop
  | word : Reads w .word (.word (w 0))
  | byte {b : UInt8} (low : b.toNat = (w 0).toNat % 256) : Reads w .byte (.byte b)
  | long {n : UInt64} (both : n.toNat = (w 0).toNat + 2 ^ 32 * (w 1).toNat) :
      Reads w .long (.long n)
  | fill {size : Nat} {data : List UInt8} (length_eq : data.length = size)
      (each : ∀ i (within : i < data.length),
        data[i].toNat = (w (i / 4)).toNat / 256 ^ (i % 4) % 256) :
      Reads w (.fill size) (.bytes data)

def make (g : Generator) : Draw → Drawn × Generator
  | word =>
    let (w, g) := g.word
    (.word w, g)
  | byte =>
    let (b, g) := g.byte
    (.byte b, g)
  | long =>
    let (n, g) := g.long
    (.long n, g)
  | fill size =>
    let (data, g) := g.fill size
    (.bytes data, g)

def wordsBefore (draws : List Draw) (number : Nat) : Nat := ((draws.take number).map words).sum

end Draw

namespace Generator

def draws (g : Generator) : List Draw → List Drawn × Generator
  | [] => ([], g)
  | draw :: rest =>
    let (x, g) := draw.make g
    let (xs, g) := g.draws rest
    (x :: xs, g)

namespace StandsAt

variable {key : Words 8} {g : Generator} {place : Nat}

/-- Whatever is drawn is made of the next words of the stream, which are then behind. -/
theorem make (stands : g.StandsAt key place) (draw : Draw) :
    ∃ x g', draw.make g = (x, g') ∧ draw.Reads (fun i => streamWord key (place + i)) x ∧
      g'.StandsAt key (place + draw.words) := by
  cases draw with
  | word =>
    obtain ⟨g', drawn, stands'⟩ := stands.word
    exact ⟨_, g', by simp only [Draw.make, drawn, Nat.add_zero], .word, stands'⟩
  | byte =>
    obtain ⟨g', drawn, stands'⟩ := stands.byte
    exact ⟨_, g', by simp only [Draw.make, drawn, Nat.add_zero], .byte (toNat_wordByte_zero _),
      stands'⟩
  | long =>
    obtain ⟨g', drawn, stands'⟩ := stands.long
    exact ⟨_, g', by simp only [Draw.make, drawn, Nat.add_zero], .long (toNat_joined _ _), stands'⟩
  | fill size =>
    obtain ⟨g', drawn, stands'⟩ := stands.fill size
    exact ⟨_, g', by simp only [Draw.make, drawn],
      .fill (length_streamBytes key place size) (fun i => toNat_getElem_streamBytes key place),
      stands'⟩

/-- By induction on the draws, the generator standing after each of them where the next one begins
to read. -/
theorem draws (stands : g.StandsAt key place) (draws : List Draw) :
    ∃ xs g', g.draws draws = (xs, g') ∧ xs.length = draws.length ∧
      (∀ i (within : i < draws.length) (within' : i < xs.length), draws[i].Reads
        (fun j => streamWord key (place + (Draw.wordsBefore draws i + j))) xs[i]) ∧
      g'.StandsAt key (place + (draws.map Draw.words).sum) := by
  induction draws generalizing g place with
  | nil => exact ⟨[], g, rfl, rfl, fun i within => absurd within (Nat.not_lt_zero i), stands⟩
  | cons draw rest ih =>
    obtain ⟨x, g', drawn, reads, stands'⟩ := stands.make draw
    obtain ⟨xs, g'', more, length_eq, reads', stands''⟩ := ih stands'
    refine ⟨x :: xs, g'', ?_, ?_, ?_, ?_⟩
    · simp only [Generator.draws, drawn, more]
    · simp [length_eq]
    · intro i within within'
      cases i with
      | zero => simpa [Draw.wordsBefore] using reads
      | succ i =>
        have later := reads' i (Nat.lt_of_succ_lt_succ within) (Nat.lt_of_succ_lt_succ within')
        simpa [Draw.wordsBefore, Nat.add_assoc] using later
    · simpa [Nat.add_assoc] using stands''

end StandsAt

end Generator

end MicroBench.ChaCha
