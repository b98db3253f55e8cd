import Mathlib.Algebra.Ring.Nat
import MicroBench.ChaCha.Generator

/-! A generator hands out the stream of its key, word by word. How much of the buffer has been
drawn and which block is computed next come down to one number, the place in the stream where the
generator stands; a draw goes on from there by its words, wherever the buffer ends. -/
namespace MicroBench.ChaCha

variable {key : Words 8} {g : Generator} {place : Nat}

/-! ### Words and bytes -/

theorem toNat_joined (low high : UInt32) :
    (Generator.joined low high).toNat = low.toNat + 2 ^ 32 * high.toNat := by
  have small := low.toNat_lt
  have small' := high.toNat_lt
  have bits : (32 : UInt64).toNat % 64 = 32 := rfl
  have within : high.toNat <<< 32 < 2 ^ 64 := by
    rw [Nat.shiftLeft_eq]
    omega
  rw [Generator.joined, UInt64.toNat_or, UInt64.toNat_shiftLeft, UInt32.toNat_toUInt64,
    UInt32.toNat_toUInt64, bits, Nat.mod_eq_of_lt within, ← Nat.shiftLeft_add_eq_or_of_lt small,
    Nat.shiftLeft_eq]
  omega

def wordByte (w : UInt32) (i : Nat) : UInt8 := .ofNat (w.toNat / 256 ^ i)

theorem toNat_wordByte (w : UInt32) (i : Nat) :
    (wordByte w i).toNat = w.toNat / 256 ^ i % 256 := by
  simp [wordByte]

theorem toNat_wordByte_zero (w : UInt32) : (wordByte w 0).toNat = w.toNat % 256 := by
  rw [toNat_wordByte, Nat.pow_zero, Nat.div_one]

theorem toUInt8_eq_wordByte (w : UInt32) : w.toUInt8 = wordByte w 0 := by
  rw [← UInt8.toNat_inj, toNat_wordByte_zero]
  exact UInt32.toNat_toUInt8 w

theorem wordBytes_eq (w : UInt32) : Generator.wordBytes w = (List.range 4).map (wordByte w) := by
  have shifted (n : UInt32) (i : Nat) (bits : n.toNat = 8 * i) (few : i < 4) :
      (w >>> n).toUInt8 = wordByte w i := by
    have within : 8 * i % 32 = 8 * i := Nat.mod_eq_of_lt (by omega)
    rw [← UInt8.toNat_inj, toNat_wordByte, UInt32.toNat_toUInt8, UInt32.toNat_shiftRight, bits,
      within, Nat.shiftRight_eq_div_pow, Nat.pow_mul]
  rw [Generator.wordBytes, toUInt8_eq_wordByte, shifted 8 1 rfl (by decide),
    shifted 16 2 rfl (by decide), shifted 24 3 rfl (by decide)]
  rfl

/-! ### The stream -/

/-- The stream is the blocks one after the other. -/
theorem streamWord_eq_block {i : Nat} (key : Words 8) (number : Nat) (within : i < 16) :
    streamWord key (16 * number + i) = (block key (.ofNat number))[i] := by
  have quotient : (16 * number + i) / 16 = number := by omega
  have remainder : (16 * number + i) % 16 = i := by omega
  simp only [streamWord, quotient, remainder]
  rfl

/-- Blocks that are computed together follow each other in the stream, also where their number
wraps. -/
theorem getElem_fourBlocks {i : Nat} (key : Words 8) (number : Nat) (within : i < 64) :
    (fourBlocks key (.ofNat number))[i] = streamWord key (16 * number + i) := by
  have later (n : Nat) : UInt64.ofNat number + .ofNat n = .ofNat (number + n) :=
    (UInt64.ofNat_add number n).symm
  have inBlock (n : Nat) (le : 16 * n ≤ i) (lt : i - 16 * n < 16) :
      (block key (.ofNat number + .ofNat n))[i - 16 * n] = streamWord key (16 * number + i) := by
    have place : 16 * number + i = 16 * (number + n) + (i - 16 * n) := by omega
    rw [place, streamWord_eq_block key (number + n) lt]
    simp only [later]
  change (block key (.ofNat number) ++ block key (.ofNat number + 1) ++
    block key (.ofNat number + 2) ++ block key (.ofNat number + 3) : Words (16 + 16 + 16 + 16))[i] = _
  simp only [Vector.getElem_append]
  split
  · split
    · split
      · simpa using inBlock 0 (by omega) (by omega)
      · exact inBlock 1 (by omega) (by omega)
    · exact inBlock 2 (by omega) (by omega)
  · exact inBlock 3 (by omega) (by omega)

def streamBytes (key : Words 8) (place size : Nat) : List UInt8 :=
  (List.range size).map fun i => wordByte (streamWord key (place + i / 4)) (i % 4)

theorem length_streamBytes (key : Words 8) (place size : Nat) :
    (streamBytes key place size).length = size := by
  rw [streamBytes, List.length_map, List.length_range]

theorem toNat_getElem_streamBytes {size i : Nat} (key : Words 8) (place : Nat)
    (within : i < (streamBytes key place size).length) : (streamBytes key place size)[i].toNat =
      (streamWord key (place + i / 4)).toNat / 256 ^ (i % 4) % 256 := by
  simp only [streamBytes, List.getElem_map, List.getElem_range, toNat_wordByte]

/-- The bytes of some words are followed by the bytes of the words after them. -/
theorem streamBytes_add (key : Words 8) (place words size : Nat) :
    streamBytes key place (4 * words + size) =
      streamBytes key place (4 * words) ++ streamBytes key (place + words) size := by
  simp only [streamBytes, List.range_add, List.map_append, List.map_map]
  congr 1
  refine List.map_congr_left fun i _ => ?_
  have quotient : place + (4 * words + i) / 4 = place + words + i / 4 := by omega
  have remainder : (4 * words + i) % 4 = i % 4 := by omega
  simp only [Function.comp_apply, quotient, remainder]

/-- Bytes can be taken from so many words first, and from the words after them if there are more. -/
theorem streamBytes_cut (key : Words 8) (place words size : Nat) :
    streamBytes key place (min size (4 * words)) ++
        streamBytes key (place + (min size (4 * words) + 3) / 4) (size - min size (4 * words)) =
      streamBytes key place size := by
  rcases Nat.le_total size (4 * words) with few | many
  · rw [Nat.min_eq_left few, Nat.sub_self]
    exact List.append_nil _
  · have whole : (4 * words + 3) / 4 = words := by omega
    rw [Nat.min_eq_right many, whole, ← streamBytes_add, Nat.add_sub_of_le many]

theorem take_streamBytes (key : Words 8) (place size count : Nat) :
    (streamBytes key place size).take count = streamBytes key place (min count size) := by
  simp only [streamBytes, ← List.map_take, List.take_range]

theorem flatMap_wordBytes (key : Words 8) (place count : Nat) :
    ((List.range count).map fun i => streamWord key (place + i)).flatMap Generator.wordBytes =
      streamBytes key place (4 * count) := by
  induction count with
  | zero => rfl
  | succ count ih =>
    rw [List.range_succ, List.map_append, List.flatMap_append, ih, Nat.mul_succ, streamBytes_add]
    simp [streamBytes, wordBytes_eq, List.range_succ]

/-! ### Where a generator stands -/

namespace Generator

/-- The words before a place have been drawn: those left in the buffer are the words from there on,
and the block that is computed next begins where the buffer ends. -/
structure StandsAt (g : Generator) (key : Words 8) (place : Nat) : Prop where
  key_eq : g.key = key
  left : ∀ i (within : g.drawn + i < 64), g.buffer[g.drawn + i] = streamWord key (place + i)
  ends : ∃ number, place + (64 - g.drawn) = 16 * number ∧ g.nextBlock = .ofNat number

/-- A new generator stands at the beginning of the stream of its key. -/
theorem standsAt_ofSeed (seed : UInt64) : (ofSeed seed).StandsAt (keyOfSeed seed) 0 := by
  constructor
  case key_eq => rfl
  case left =>
    intro i within
    simp only [ofSeed] at within
    omega
  case ends => exact ⟨0, rfl, rfl⟩

namespace StandsAt

theorem advance {count : Nat} (stands : g.StandsAt key place) (within : g.drawn + count ≤ 64) :
    (g.advance count within).StandsAt key (place + count) := by
  constructor
  case key_eq => exact stands.key_eq
  case left =>
    intro i inside
    simp only [Generator.advance] at inside ⊢
    have word := stands.left (count + i) (by omega)
    simp only [← Nat.add_assoc] at word
    exact word
  case ends =>
    obtain ⟨number, ends, next⟩ := stands.ends
    refine ⟨number, ?_, next⟩
    simp only [Generator.advance]
    omega

/-- A buffer that is used up can be filled again where the generator stands. -/
theorem refill (stands : g.StandsAt key place) (used : g.drawn = 64) :
    g.refill.StandsAt key place := by
  obtain ⟨number, ends, next⟩ := stands.ends
  have start : place = 16 * number := by omega
  constructor
  case key_eq => exact stands.key_eq
  case left =>
    intro i within
    simp only [Generator.refill, stands.key_eq, next, Nat.zero_add] at within ⊢
    rw [getElem_fourBlocks key number within, start]
  case ends =>
    refine ⟨number + 4, ?_, ?_⟩
    · simp only [Generator.refill]
      omega
    · simp only [Generator.refill, next, UInt64.ofNat_add]
      rfl

/-- Making sure that there is a word does not move the generator. -/
theorem ready (stands : g.StandsAt key place) :
    ∃ next inside, g.ready = ⟨next, inside⟩ ∧ next.StandsAt key place := by
  refine ⟨_, g.ready.2, rfl, ?_⟩
  rw [Generator.ready]
  split
  · exact stands
  · have most := g.drawn_le
    exact stands.refill (by omega)

theorem first (stands : g.StandsAt key place) (inside : g.drawn < 64) :
    g.buffer[g.drawn] = streamWord key place := stands.left 0 inside

theorem refilled {i : Nat} (stands : g.refill.StandsAt key place) (within : i < 64) :
    g.refill.buffer[i] = streamWord key (place + i) := by
  simpa using stands.left i (by simpa using within)

theorem drop_buffer (stands : g.StandsAt key place) : g.buffer.toList.drop g.drawn =
    (List.range (64 - g.drawn)).map fun i => streamWord key (place + i) := by
  apply List.ext_getElem
  · simp
  · intro i within _
    simp only [List.length_drop, Vector.length_toList] at within
    simp only [List.getElem_drop, List.getElem_map, List.getElem_range, Vector.getElem_toList]
    exact stands.left i (by omega)

/-- The bytes that the buffer has left are those of the stream. -/
theorem take_bytes {count : Nat} (stands : g.StandsAt key place)
    (within : count ≤ 4 * (64 - g.drawn)) :
    ((g.buffer.toList.drop g.drawn).flatMap wordBytes).take count =
      streamBytes key place count := by
  rw [stands.drop_buffer, flatMap_wordBytes, take_streamBytes, Nat.min_eq_left within]

/-! ### Draws -/

/-- One word is drawn, the next one of the stream. -/
theorem word (stands : g.StandsAt key place) :
    ∃ g', g.word = (streamWord key place, g') ∧ g'.StandsAt key (place + 1) := by
  obtain ⟨next, inside, ready, stands'⟩ := stands.ready
  refine ⟨next.advance 1 inside, ?_, stands'.advance inside⟩
  simp only [Generator.word, ready, stands'.first inside]

theorem byte (stands : g.StandsAt key place) :
    ∃ g', g.byte = (wordByte (streamWord key place) 0, g') ∧ g'.StandsAt key (place + 1) := by
  obtain ⟨g', drawn, stands'⟩ := stands.word
  refine ⟨g', ?_, stands'⟩
  simp only [Generator.byte, drawn, toUInt8_eq_wordByte]

/-- Two words that are in different buffers follow each other in the stream as any others do. -/
theorem long (stands : g.StandsAt key place) :
    ∃ g', g.long = (joined (streamWord key place) (streamWord key (place + 1)), g') ∧
      g'.StandsAt key (place + 2) := by
  rw [Generator.long]
  split
  case isTrue two =>
    refine ⟨g.advance 2 two, ?_, stands.advance two⟩
    rw [stands.first (by omega), stands.left 1 two]
  case isFalse few =>
    split
    case isTrue one =>
      -- A refill does not look at what is left, so the last word may be drawn before it.
      have next : g.refill.StandsAt key (place + 1) :=
        (stands.advance one).refill (by simp only [Generator.advance]; omega)
      refine ⟨g.refill.advance 1 (by simp), ?_, next.advance _⟩
      simp only [stands.first one, next.refilled (Nat.zero_lt_succ 63), Nat.add_zero]
    case isFalse empty =>
      have most := g.drawn_le
      have next := stands.refill (by omega)
      refine ⟨g.refill.advance 2 (by simp), ?_, next.advance _⟩
      simp only [next.refilled (Nat.zero_lt_succ 63), next.refilled (Nat.one_lt_succ_succ 62),
        Nat.add_zero]

example : ((ofSeed 0).long).1 = 13080132717333068652 := by decide +kernel

/-- Only the last word can be cut, as whole buffers come before it. It is drawn all the same. -/
theorem fill (stands : g.StandsAt key place) (size : Nat) :
    ∃ g', g.fill size = (streamBytes key place size, g') ∧
      g'.StandsAt key (place + (size + 3) / 4) := by
  induction size using Nat.strongRecOn generalizing g place with
  | ind size ih =>
    rw [Generator.fill]
    split
    case isTrue zero =>
      subst zero
      exact ⟨g, rfl, stands⟩
    case isFalse positive =>
      obtain ⟨next, inside, ready, stands'⟩ := stands.ready
      have within : next.drawn + (min size (4 * (64 - next.drawn)) + 3) / 4 ≤ 64 := by omega
      obtain ⟨g', more, stands''⟩ := ih (size - min size (4 * (64 - next.drawn))) (by omega)
        (stands'.advance within)
      refine ⟨g', ?_, ?_⟩
      · simp only [ready, more, stands'.take_bytes (Nat.min_le_right ..), streamBytes_cut]
      · have stop : place + (min size (4 * (64 - next.drawn)) + 3) / 4 +
            (size - min size (4 * (64 - next.drawn)) + 3) / 4 = place + (size + 3) / 4 := by
          omega
        rw [← stop]
        exact stands''

/-- What is drawn again and again is read off the stream at places that are as far apart as a draw
takes words. -/
theorem repeated {α : Type} {draw : Generator → α × Generator} {value : Nat → α} {words : Nat}
    (each : ∀ {g place}, g.StandsAt key place →
      ∃ g', draw g = (value place, g') ∧ g'.StandsAt key (place + words))
    (stands : g.StandsAt key place) (done : List α) (count : Nat) :
    ∃ g', repeated draw done count g =
        (done.reverse ++ (List.range count).map (fun i => value (place + words * i)), g') ∧
      g'.StandsAt key (place + words * count) := by
  induction count generalizing g place done with
  | zero => exact ⟨g, by simp [Generator.repeated], stands⟩
  | succ count ih =>
    obtain ⟨g', drawn, stands'⟩ := each stands
    obtain ⟨g'', more, stands''⟩ := ih stands' (value place :: done)
    refine ⟨g'', ?_, ?_⟩
    · simp only [Generator.repeated, drawn, more, List.range_succ_eq_map]
      simp [Function.comp_def, Nat.mul_add, Nat.add_assoc, Nat.add_comm words]
    · have stop : place + words + words * count = place + words * (count + 1) := by
        rw [Nat.mul_succ]
        omega
      rw [← stop]
      exact stands''

end StandsAt

end Generator

end MicroBench.ChaCha
