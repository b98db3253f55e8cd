/-! The block function of ChaCha with eight rounds: from a key and the number of a block
to sixteen 32-bit words. -/
namespace MicroBench.ChaCha

abbrev Words (n : Nat) := Vector UInt32 n

def rotateLeft (x : UInt32) (n : UInt32) : UInt32 := (x <<< n) ||| (x >>> (32 - n))

def quarterRound (s : Words 16) (a b c d : Fin 16) : Words 16 :=
  let s := s.set a (s[a] + s[b])
  let s := s.set d (rotateLeft (s[d] ^^^ s[a]) 16)
  let s := s.set c (s[c] + s[d])
  let s := s.set b (rotateLeft (s[b] ^^^ s[c]) 12)
  let s := s.set a (s[a] + s[b])
  let s := s.set d (rotateLeft (s[d] ^^^ s[a]) 8)
  let s := s.set c (s[c] + s[d])
  s.set b (rotateLeft (s[b] ^^^ s[c]) 7)

/-- Mixes the columns of the state, then its diagonals. -/
def doubleRound (s : Words 16) : Words 16 :=
  let s := quarterRound s 0 4 8 12
  let s := quarterRound s 1 5 9 13
  let s := quarterRound s 2 6 10 14
  let s := quarterRound s 3 7 11 15
  let s := quarterRound s 0 5 10 15
  let s := quarterRound s 1 6 11 12
  let s := quarterRound s 2 7 8 13
  quarterRound s 3 4 9 14

/-- The state before the rounds: four constants, the key, the number of the block as two words, low
one first, and the number of the stream, which is zero. -/
def initialState (key : Words 8) (block : UInt64) : Words 16 :=
  (#v[0x61707865, 0x3320646e, 0x79622d32, 0x6b206574] : Words 4) ++ key ++
    (#v[block.toUInt32, (block >>> 32).toUInt32, 0, 0] : Words 4)

/-- The words of a block: the state after eight rounds, added to the state before them. -/
def block (key : Words 8) (number : UInt64) : Words 16 :=
  let before := initialState key number
  let after := doubleRound (doubleRound (doubleRound (doubleRound before)))
  before.zipWith (· + ·) after

end MicroBench.ChaCha
