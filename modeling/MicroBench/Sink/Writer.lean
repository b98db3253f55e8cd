import MicroBench.Sink.Basic

/-! Writers that may take only a part of what they are offered, or be interrupted. A
writer is a state machine, and offering a buffer until all of it is taken makes a sink
of it. -/
namespace MicroBench

inductive Written where
  | accepted (count : Nat)
  | interrupted
  | failed (error : IoError)
deriving DecidableEq

structure Writer (State : Type) where
  write : List UInt8 → State → Written × State
  flush : State → Except IoError Unit × State
  /-- How many more interruptions may follow each other. -/
  patience : List UInt8 → State → Nat
  accepted_le : ∀ {buffer state count next},
    write buffer state = (.accepted count, next) → count ≤ buffer.length
  interrupted_lt : ∀ {buffer state next},
    write buffer state = (.interrupted, next) → patience buffer next < patience buffer state

namespace Writer

variable {State : Type}

/-- Offers the buffer, and what is left of it, until nothing is left. An interrupted offer is made
again; a writer that takes nothing is given up. -/
def writeAll (writer : Writer State) (buffer : List UInt8) (state : State) :
    Except IoError Unit × State :=
  if buffer = [] then (.ok (), state)
  else
    match _ : writer.write buffer state with
    | (.accepted 0, next) => (.error .writeZero, next)
    | (.accepted (count + 1), next) => writer.writeAll (buffer.drop (count + 1)) next
    | (.interrupted, next) => writer.writeAll buffer next
    | (.failed e, next) => (.error e, next)
termination_by (buffer.length, writer.patience buffer state)
decreasing_by
  · rename_i filled _
    have := List.length_pos_iff.2 filled
    refine Prod.Lex.left _ _ ?_
    simp only [List.length_drop]
    omega
  · exact Prod.Lex.right _ (writer.interrupted_lt ‹_›)

def toSink (writer : Writer State) : Sink (StateM State) where
  put := writer.writeAll
  flush := writer.flush

end Writer

/-- A writer with limits: so many bytes at a time, so many in all, and what happens beyond. -/
structure Limits where
  /-- The most bytes taken at a time. -/
  chunk : Option Nat
  /-- The most bytes taken in all. -/
  limit : Option Nat
  /-- The failure when no more bytes are taken; without one, none are taken and that is all. -/
  beyond : Option IoError
  flushFailure : Option IoError
  /-- Every write is interrupted once. -/
  interrupting : Bool

structure Taken where
  bytes : Array UInt8
  flushes : Nat
  /-- The next write has been interrupted already. -/
  interrupted : Bool
deriving DecidableEq

namespace Limits

/-- How many bytes of a buffer are taken after `taken` earlier ones. -/
def allowance (limits : Limits) (taken size : Nat) : Nat :=
  min (limits.chunk.getD size) (min ((limits.limit.map (· - taken)).getD size) size)

theorem allowance_le (limits : Limits) (taken size : Nat) :
    limits.allowance taken size ≤ size :=
  Nat.le_trans (Nat.min_le_right _ _) (Nat.min_le_right _ _)

def write (limits : Limits) (buffer : List UInt8) (state : Taken) : Written × Taken :=
  if limits.interrupting ∧ !state.interrupted then
    (.interrupted, { state with interrupted := true })
  else
    let next := { state with interrupted := false }
    let count := limits.allowance state.bytes.size buffer.length
    match count, limits.beyond with
    | 0, some e => if buffer = [] then (.accepted 0, next) else (.failed e, next)
    | _, _ =>
      (.accepted count, { next with bytes := next.bytes ++ buffer.take count })

/-- A writer with limits does not take more than it is offered. -/
theorem write_accepted_le {limits : Limits} {buffer : List UInt8} {state next : Taken}
    {count : Nat} (h : limits.write buffer state = (.accepted count, next)) :
    count ≤ buffer.length := by
  simp only [write] at h
  split at h
  · simp at h
  · split at h
    · split at h
      · simp only [Prod.mk.injEq, Written.accepted.injEq] at h
        omega
      · simp at h
    · simp only [Prod.mk.injEq, Written.accepted.injEq] at h
      exact h.1 ▸ limits.allowance_le _ _

/-- The writer; it is interrupted at most once in a row. -/
def toWriter (limits : Limits) : Writer Taken where
  write := limits.write
  flush state :=
    (match limits.flushFailure with
      | some e => .error e
      | none => .ok (),
    { state with flushes := state.flushes + 1 })
  patience _ state := if state.interrupted then 0 else 1
  accepted_le := write_accepted_le
  interrupted_lt := by
    intro buffer state next h
    simp only [write] at h
    split at h
    · rename_i fresh
      simp only [Prod.mk.injEq, true_and] at h
      subst h
      simp_all
    · split at h
      · split at h <;> simp at h
      · simp at h

end Limits

end MicroBench
