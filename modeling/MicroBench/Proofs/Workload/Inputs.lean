import MicroBench.Proofs.ChaCha.Draws
import MicroBench.Workload

/-! The inputs of a workload are the first numbers or bytes of the stream that the seed stands for.
So they depend on the seed and on how many they are, and on nothing else of the settings. -/
namespace MicroBench

open ChaCha

namespace Task

variable {w : Nat → UInt32} {n m : Nat} {workload : Workload} {task other : Task}

/-- The task of a workload of that size has its inputs from a stream of words: numbers of two words
each, the low one first, or bytes, four a word and the low one first. -/
inductive ReadOff (w : Nat → UInt32) (size : Nat) : Workload → Task → Prop
  | noop : ReadOff w size .noop .noop
  | sum {values : List UInt64} (length_eq : values.length = size)
      (each : ∀ i (within : i < values.length),
        values[i].toNat = (w (2 * i)).toNat + 2 ^ 32 * (w (2 * i + 1)).toNat) :
      ReadOff w size .sum (.sum values)
  | sha256 {data : List UInt8} (length_eq : data.length = size)
      (each : ∀ i (within : i < data.length),
        data[i].toNat = (w (i / 4)).toNat / 256 ^ (i % 4) % 256) :
      ReadOff w size .sha256 (.digest data)
  | alloc {fill : UInt8} (low : fill.toNat = (w 0).toNat % 256) :
      ReadOff w size .alloc (.allocate fill size)
  | sleep : ReadOff w size .sleep (.sleep 1)

/-- A task is another one on the first of its inputs. -/
inductive Begins : Task → Task → Prop
  | noop : Begins .noop .noop
  | sum {values more : List UInt64} (first : values <+: more) : Begins (.sum values) (.sum more)
  | digest {data more : List UInt8} (first : data <+: more) : Begins (.digest data) (.digest more)
  | allocate {fill : UInt8} {size more : Nat} (le : size ≤ more) :
      Begins (.allocate fill size) (.allocate fill more)
  | sleep {millis : Nat} : Begins (.sleep millis) (.sleep millis)

theorem Begins.antisymm (begins : task.Begins other) (begins' : other.Begins task) :
    task = other := by
  cases begins with
  | noop => rfl
  | sum first =>
    cases begins' with
    | sum first' =>
      rw [first.eq_of_length (Nat.le_antisymm first.length_le first'.length_le)]
  | digest first =>
    cases begins' with
    | digest first' =>
      rw [first.eq_of_length (Nat.le_antisymm first.length_le first'.length_le)]
  | allocate le =>
    cases begins' with
    | allocate le' => rw [Nat.le_antisymm le le']
  | sleep => rfl

/-- What is read off one stream has a common beginning. -/
theorem ReadOff.begins (read : task.ReadOff w n workload) (read' : other.ReadOff w m workload)
    (le : n ≤ m) : task.Begins other := by
  cases read with
  | noop =>
    cases read' with
    | noop => exact .noop
  | sum length_eq each =>
    cases read' with
    | sum length_eq' each' =>
      refine .sum (List.prefix_iff_getElem.2 ⟨by omega, fun i within => ?_⟩)
      rw [← UInt64.toNat_inj, each i within, each' i (by omega)]
  | sha256 length_eq each =>
    cases read' with
    | sha256 length_eq' each' =>
      refine .digest (List.prefix_iff_getElem.2 ⟨by omega, fun i within => ?_⟩)
      rw [← UInt8.toNat_inj, each i within, each' i (by omega)]
  | alloc low =>
    cases read' with
    | alloc low' =>
      rw [UInt8.toNat_inj.1 (low.trans low'.symm)]
      exact .allocate le
  | sleep =>
    cases read' with
    | sleep => exact .sleep

/-- The inputs are determined by the stream and the size. -/
theorem ReadOff.unique (read : task.ReadOff w n workload) (read' : other.ReadOff w n workload) :
    task = other :=
  (read.begins read' (Nat.le_refl n)).antisymm (read'.begins read (Nat.le_refl n))

end Task

namespace Workload

/-- Every workload reads its inputs off the stream of its seed. -/
theorem readOff_task (workload : Workload) (config : Config) :
    (workload.task config).ReadOff (streamWord (keyOfSeed config.seed)) config.size.toNat
      workload := by
  have stands : config.generator.StandsAt (keyOfSeed config.seed) 0 :=
    Generator.standsAt_ofSeed config.seed
  cases workload with
  | noop => exact .noop
  | sum =>
    obtain ⟨g, drawn, -⟩ := stands.repeated Generator.StandsAt.long [] config.size.toNat
    simp only [task, drawn, List.reverse_nil, List.nil_append, Nat.zero_add]
    refine .sum (by simp) fun i within => ?_
    simp only [List.getElem_map, List.getElem_range, toNat_joined]
  | sha256 =>
    obtain ⟨g, drawn, -⟩ := stands.fill config.size.toNat
    simp only [task, drawn]
    refine .sha256 (length_streamBytes ..) fun i within => ?_
    rw [toNat_getElem_streamBytes, Nat.zero_add]
  | alloc =>
    obtain ⟨g, drawn, -⟩ := stands.byte
    simp only [task, drawn]
    exact .alloc (toNat_wordByte_zero _)
  | sleep => exact .sleep

/-- The inputs of a workload are read off the stream of the seed, from its beginning on. So fewer of
them are the first of more, and no other setting changes them. Draws of any kind from a generator of
the settings read the stream from its beginning on as well, each where the one before it stopped. -/
theorem inputs_of_seed (config : Config) :
    (∀ workload : Workload, (workload.task config).ReadOff (streamWord (keyOfSeed config.seed))
      config.size.toNat workload) ∧
    (∀ (workload : Workload) (other : Config), other.seed = config.seed →
      config.size ≤ other.size → (workload.task config).Begins (workload.task other)) ∧
    (∀ (workload : Workload) (other : Config), other.seed = config.seed →
      other.size = config.size → workload.task other = workload.task config) ∧
    ∀ draws : List Draw, (config.generator.draws draws).1.length = draws.length ∧
      ∀ i (within : i < draws.length) (within' : i < (config.generator.draws draws).1.length),
        draws[i].Reads (fun j => streamWord (keyOfSeed config.seed) (Draw.wordsBefore draws i + j))
          (config.generator.draws draws).1[i] := by
  refine ⟨fun workload => readOff_task workload config, ?_, ?_, ?_⟩
  · intro workload other seed size
    have read := readOff_task workload other
    rw [seed] at read
    exact (readOff_task workload config).begins read (UInt64.le_iff_toNat_le.1 size)
  · intro workload other seed size
    have read := readOff_task workload other
    rw [seed, size] at read
    exact read.unique (readOff_task workload config)
  · intro draws
    have stands : config.generator.StandsAt (keyOfSeed config.seed) 0 :=
      Generator.standsAt_ofSeed config.seed
    obtain ⟨xs, g, drawn, length_eq, reads, -⟩ := stands.draws draws
    simp only [Nat.zero_add] at reads
    rw [drawn]
    exact ⟨length_eq, reads⟩

/-- Two numbers are the first of three, whatever else is set. After 250 bytes, which end within a
word, a number of 64 bits has its low word from the end of one buffer and its high word from the
beginning of the next. -/
theorem inputs_of_seed_straddling :
    let config : Config := { Config.standard with seed := 42, size := 2 }
    let other : Config := ⟨.full, 42, some 7, some 0, 3, false⟩
    other.seed = config.seed ∧ config.size ≤ other.size ∧
      (sum.task config).Begins (sum.task other) ∧
      sum.task other =
        .sum [12578764544318200737, 17529487244874322312, 7886285670807131020] ∧
      ∃ n, (config.generator.draws [.fill 250, .long]).1[1]? = some (.long n) ∧
        n.toNat = (streamWord (keyOfSeed 42) 63).toNat +
          2 ^ 32 * (streamWord (keyOfSeed 42) 64).toNat := by
  intro config other
  obtain ⟨-, begins, -, draws⟩ := inputs_of_seed config
  refine ⟨rfl, by decide, begins sum other rfl (by decide), by decide +kernel, ?_⟩
  obtain ⟨length_eq, reads⟩ := draws [.fill 250, .long]
  have within : 1 < (config.generator.draws [.fill 250, .long]).1.length := by
    rw [length_eq]
    decide
  have read := reads 1 (by decide) within
  rw [List.getElem?_eq_getElem within]
  generalize (config.generator.draws [.fill 250, .long]).1[1] = drawn at read
  cases read with
  | long both => exact ⟨_, rfl, both⟩

end Workload

end MicroBench
