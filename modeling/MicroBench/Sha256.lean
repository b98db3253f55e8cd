/-! The SHA-256 digest of bytes. -/
namespace MicroBench.Sha256

abbrev Words (n : Nat) := Vector UInt32 n

/-- The first 32 bits of the fractional parts of the cube roots of the first 64 primes. -/
def roundConstants : Array UInt32 := #[
  0x428a2f98, 0x71374491, 0xb5c0fbcf, 0xe9b5dba5, 0x3956c25b, 0x59f111f1, 0x923f82a4, 0xab1c5ed5,
  0xd807aa98, 0x12835b01, 0x243185be, 0x550c7dc3, 0x72be5d74, 0x80deb1fe, 0x9bdc06a7, 0xc19bf174,
  0xe49b69c1, 0xefbe4786, 0x0fc19dc6, 0x240ca1cc, 0x2de92c6f, 0x4a7484aa, 0x5cb0a9dc, 0x76f988da,
  0x983e5152, 0xa831c66d, 0xb00327c8, 0xbf597fc7, 0xc6e00bf3, 0xd5a79147, 0x06ca6351, 0x14292967,
  0x27b70a85, 0x2e1b2138, 0x4d2c6dfc, 0x53380d13, 0x650a7354, 0x766a0abb, 0x81c2c92e, 0x92722c85,
  0xa2bfe8a1, 0xa81a664b, 0xc24b8b70, 0xc76c51a3, 0xd192e819, 0xd6990624, 0xf40e3585, 0x106aa070,
  0x19a4c116, 0x1e376c08, 0x2748774c, 0x34b0bcb5, 0x391c0cb3, 0x4ed8aa4a, 0x5b9cca4f, 0x682e6ff3,
  0x748f82ee, 0x78a5636f, 0x84c87814, 0x8cc70208, 0x90befffa, 0xa4506ceb, 0xbef9a3f7, 0xc67178f2]

/-- The first 32 bits of the fractional parts of the square roots of the first eight primes. -/
def initialHash : Words 8 :=
  #v[0x6a09e667, 0xbb67ae85, 0x3c6ef372, 0xa54ff53a, 0x510e527f, 0x9b05688c, 0x1f83d9ab, 0x5be0cd19]

def rotateRight (x n : UInt32) : UInt32 := (x >>> n) ||| (x <<< (32 - n))

/-- The next word of the message schedule, from the sixteen before it, last first. -/
def scheduleWord (recent : List UInt32) : UInt32 :=
  let back (n : Nat) := recent.getD (n - 1) 0
  let far := back 15
  let near := back 2
  back 16 + (rotateRight far 7 ^^^ rotateRight far 18 ^^^ (far >>> 3)) + back 7 +
    (rotateRight near 17 ^^^ rotateRight near 19 ^^^ (near >>> 10))

/-- The message schedule of a block of sixteen words, last word first. -/
def schedule (block : List UInt32) : List UInt32 :=
  (List.range 48).foldl (fun recent _ => scheduleWord recent :: recent) block.reverse

def round (s : Words 8) (constant w : UInt32) : Words 8 :=
  let e := s[4]
  let a := s[0]
  let choice := (e &&& s[5]) ^^^ ((~~~e) &&& s[6])
  let majority := (a &&& s[1]) ^^^ (a &&& s[2]) ^^^ (s[1] &&& s[2])
  let t := s[7] + (rotateRight e 6 ^^^ rotateRight e 11 ^^^ rotateRight e 25) + choice + constant + w
  let u := (rotateRight a 2 ^^^ rotateRight a 13 ^^^ rotateRight a 22) + majority
  #v[t + u, a, s[1], s[2], s[3] + t, e, s[5], s[6]]

/-- Takes a block of sixteen words into the hash. -/
def compress (hash : Words 8) (block : List UInt32) : Words 8 :=
  let steps := roundConstants.toList.zip (schedule block).reverse
  hash.zipWith (· + ·) (steps.foldl (fun s (constant, w) => round s constant w) hash)

/-- The bytes of the message, a one bit, zeros to a whole number of blocks, and the length in
bits. -/
def padded (message : List UInt8) : List UInt8 :=
  let length := message.length
  let bits := (List.range 8).map fun i => UInt8.ofNat (length * 8 / Nat.pow 256 (7 - i))
  message ++ [0x80] ++ List.replicate ((119 - length % 64) % 64) 0 ++ bits

/-- Groups bytes to words, high byte first. -/
def wordsOf : List UInt8 → List UInt32
  | a :: b :: c :: d :: rest =>
    (a.toUInt32 <<< 24 ||| b.toUInt32 <<< 16 ||| c.toUInt32 <<< 8 ||| d.toUInt32) :: wordsOf rest
  | _ => []

/-- Takes so many blocks of sixteen words into the hash. -/
def absorb (hash : Words 8) (words : List UInt32) : Nat → Words 8
  | 0 => hash
  | blocks + 1 => absorb (compress hash (words.take 16)) (words.drop 16) blocks

def digest (message : List UInt8) : List UInt8 :=
  let words := wordsOf (padded message)
  let hash := absorb initialHash words (words.length / 16)
  hash.toList.flatMap fun (w : UInt32) =>
    [(w >>> 24).toUInt8, (w >>> 16).toUInt8, (w >>> 8).toUInt8, w.toUInt8]

end MicroBench.Sha256
