import MicroBench.ChaCha.Block

/-! A generator of random numbers: the words of the blocks with numbers 0, 1, 2, … one
after the other. Four blocks are computed at a time and kept in a buffer. Every draw takes
the next words of the buffer, and of the next one where it is used up: no word is left out
and none is taken twice. -/
namespace MicroBench.ChaCha

/-- The multiplier of the generator that stretches a seed to a key. -/
def seedMultiplier : UInt64 := 6364136223846793005

def seedIncrement : UInt64 := 11634580027462260723

def rotateRight (x : UInt32) (n : UInt32) : UInt32 :=
  (x >>> n) ||| (x <<< ((32 - n) &&& 31))

/-- The output of the seed's generator in a state: a word of it, rotated by its top bits. -/
def permuted (state : UInt64) : UInt32 :=
  rotateRight (((state >>> 18) ^^^ state) >>> 27).toUInt32 (state >>> 59).toUInt32

/-- The state of the seed's generator after `n + 1` steps. -/
def seedState (seed : UInt64) : Nat → UInt64
  | 0 => seed * seedMultiplier + seedIncrement
  | n + 1 => seedState seed n * seedMultiplier + seedIncrement

def keyOfSeed (seed : UInt64) : Words 8 :=
  Vector.ofFn fun i => permuted (seedState seed i)

def streamWord (key : Words 8) (place : Nat) : UInt32 :=
  (block key (.ofNat (place / 16))).get ⟨place % 16, Nat.mod_lt _ (by decide)⟩

/-- The words of four blocks, from the one with that number on. -/
def fourBlocks (key : Words 8) (number : UInt64) : Words 64 :=
  block key number ++ block key (number + 1) ++ block key (number + 2) ++ block key (number + 3)

structure Generator where
  key : Words 8
  /-- The number of the block that is computed next. -/
  nextBlock : UInt64
  /-- The words of the blocks computed last. -/
  buffer : Words 64
  /-- How many words of the buffer have been drawn. -/
  drawn : Nat
  drawn_le : drawn ≤ 64

namespace Generator

/-- Nothing has been computed: the buffer counts as used up. -/
def ofSeed (seed : UInt64) : Generator :=
  ⟨keyOfSeed seed, 0, .replicate 64 0, 64, Nat.le_refl 64⟩

/-- Computes the next four blocks. What is left in the buffer is lost. -/
def refill (g : Generator) : Generator :=
  ⟨g.key, g.nextBlock + 4, fourBlocks g.key g.nextBlock, 0, Nat.zero_le 64⟩

@[simp] theorem drawn_refill (g : Generator) : g.refill.drawn = 0 := rfl

def advance (g : Generator) (count : Nat) (within : g.drawn + count ≤ 64) : Generator :=
  { g with drawn := g.drawn + count, drawn_le := within }

/-- The generator with a word left in its buffer, which is filled again if there is none. -/
def ready (g : Generator) : { g : Generator // g.drawn < 64 } :=
  if unused : g.drawn < 64 then ⟨g, unused⟩ else ⟨g.refill, Nat.zero_lt_succ 63⟩

def word (g : Generator) : UInt32 × Generator :=
  let ⟨g, unused⟩ := g.ready
  (g.buffer[g.drawn], g.advance 1 unused)

/-- Two words make 64 bits, the low one comes first. -/
def joined (low high : UInt32) : UInt64 := high.toUInt64 <<< 32 ||| low.toUInt64

/-- A draw of 64 bits takes two words: both of the buffer, or the last one of it and the first one
of the next, or the first two of the next. -/
def long (g : Generator) : UInt64 × Generator :=
  if two : g.drawn + 2 ≤ 64 then
    (joined g.buffer[g.drawn] g.buffer[g.drawn + 1], g.advance 2 two)
  else if one : g.drawn < 64 then
    let next := g.refill
    (joined g.buffer[g.drawn] next.buffer[0], next.advance 1 (Nat.le_add_left 1 63))
  else
    let next := g.refill
    (joined next.buffer[0] next.buffer[1], next.advance 2 (Nat.le_add_left 2 62))

/-- A draw of one byte takes a word and keeps its low byte. -/
def byte (g : Generator) : UInt8 × Generator :=
  let (w, g) := g.word
  (w.toUInt8, g)

def wordBytes (w : UInt32) : List UInt8 :=
  [w.toUInt8, (w >>> 8).toUInt8, (w >>> 16).toUInt8, (w >>> 24).toUInt8]

/-- Draws `count` times; the values drawn before are given in reverse. -/
def repeated {α : Type} (draw : Generator → α × Generator) (done : List α) :
    Nat → Generator → List α × Generator
  | 0, g => (done.reverse, g)
  | count + 1, g =>
    let (x, g) := draw g
    repeated draw (x :: done) count g

/-- Fills `size` bytes, with as many as the rest of the buffer has, and with those of the next
buffers. A word of which only some bytes are used is drawn all the same. -/
def fill (size : Nat) (g : Generator) : List UInt8 × Generator :=
  if none : size = 0 then ([], g)
  else
    let ⟨g, unused⟩ := g.ready
    let count := min size (4 * (64 - g.drawn))
    have positive : 0 < count := by omega
    let bytes := ((g.buffer.toList.drop g.drawn).flatMap wordBytes).take count
    let (more, g) := fill (size - count) (g.advance ((count + 3) / 4) (by omega))
    (bytes ++ more, g)
termination_by size

end Generator

end MicroBench.ChaCha
