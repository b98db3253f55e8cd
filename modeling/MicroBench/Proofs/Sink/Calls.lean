import Mathlib.Data.Nat.Find
import Mathlib.Logic.Function.Iterate
import MicroBench.Proofs.Fallible
import MicroBench.Sink.Writer

/-! What a writer is asked to do while buffers are handed to it, call by call. A writer
that keeps a record of its calls behaves as the one it is made of. -/
namespace MicroBench

inductive Call where
  | write (buffer : List UInt8) (answer : Written)
  | flush (answer : Except IoError Unit)

namespace Call

def taken : Call → List UInt8
  | write buffer (.accepted count) => buffer.take count
  | _ => []

/-- Why no call follows this write, if none does: it failed, or it took nothing. -/
def failure : Call → Option IoError
  | write _ (.accepted 0) => some .writeZero
  | write _ (.failed e) => some e
  | _ => none

def IsWrite : Call → Prop
  | write .. => True
  | flush _ => False

theorem taken_interrupted (buffer : List UInt8) : (write buffer .interrupted).taken = [] := rfl

theorem taken_flush (answer : Except IoError Unit) : (flush answer).taken = [] := rfl

theorem taken_of_failure {call : Call} {e : IoError} (h : call.failure = some e) :
    call.taken = [] := by
  cases call with
  | flush => cases h
  | write buffer answer =>
    cases answer with
    | accepted count =>
      cases count with
      | zero => rfl
      | succ count => cases h
    | interrupted => cases h
    | failed => rfl

end Call

/-- The calls and the outcome when pieces are handed over in order. Of each piece what was not taken
is offered again; the first failure ends it all. -/
inductive Handed : List (List UInt8) → List Call → Except IoError Unit → Prop where
  | done : Handed [] [] (.ok ())
  | next {pieces calls result} : Handed pieces calls result → Handed ([] :: pieces) calls result
  | accepted {piece pieces calls result count} (filled : piece ≠ []) :
      Handed (piece.drop (count + 1) :: pieces) calls result →
      Handed (piece :: pieces) (.write piece (.accepted (count + 1)) :: calls) result
  | interrupted {piece pieces calls result} (filled : piece ≠ []) :
      Handed (piece :: pieces) calls result →
      Handed (piece :: pieces) (.write piece .interrupted :: calls) result
  | ended {piece pieces answer e} (filled : piece ≠ [])
      (failure : (Call.write piece answer).failure = some e) :
      Handed (piece :: pieces) [.write piece answer] (.error e)

namespace Handed

variable {pieces : List (List UInt8)} {calls before after : List Call}
  {result : Except IoError Unit} {buffer : List UInt8} {call : Call}

theorem isWrite (h : Handed pieces calls result) : ∀ call ∈ calls, call.IsWrite := by
  induction h with
  | done => intro call member; cases member
  | next _ ih => exact ih
  | accepted _ _ ih => exact List.forall_mem_cons.2 ⟨trivial, ih⟩
  | interrupted _ _ ih => exact List.forall_mem_cons.2 ⟨trivial, ih⟩
  | ended _ _ => exact List.forall_mem_cons.2 ⟨trivial, fun _ member => nomatch member⟩

/-- At every moment the bytes taken are the beginning of all the bytes. -/
theorem taken_prefix (h : Handed pieces calls result) (part : before <+: calls) :
    before.flatMap Call.taken <+: pieces.flatten := by
  induction h generalizing before with
  | done =>
    rw [List.prefix_nil.1 part]
    exact List.nil_prefix
  | next _ ih => exact ih part
  | @accepted piece pieces _ _ count filled _ ih =>
    rcases before with _ | ⟨call, before⟩
    · exact List.nil_prefix
    · obtain ⟨rfl, others⟩ := List.cons_prefix_cons.1 part
      have more := (List.prefix_append_right_inj (piece.take (count + 1))).2 (ih others)
      rwa [List.flatten_cons, ← List.append_assoc, List.take_append_drop] at more
  | interrupted filled _ ih =>
    rcases before with _ | ⟨call, before⟩
    · exact List.nil_prefix
    · obtain ⟨rfl, others⟩ := List.cons_prefix_cons.1 part
      rw [List.flatMap_cons, Call.taken_interrupted, List.nil_append]
      exact ih others
  | ended filled failure =>
    rcases before with _ | ⟨call, before⟩
    · exact List.nil_prefix
    · obtain ⟨rfl, others⟩ := List.cons_prefix_cons.1 part
      rw [List.prefix_nil.1 others, List.flatMap_singleton, Call.taken_of_failure failure]
      exact List.nil_prefix

/-- Pieces that are left are offered as they are. -/
theorem exists_cons {piece : List UInt8} (filled : piece ≠ [])
    (h : Handed (piece :: pieces) calls result) :
    ∃ answer after, calls = .write piece answer :: after := by
  cases h with
  | next => exact absurd rfl filled
  | accepted => exact ⟨_, _, rfl⟩
  | interrupted => exact ⟨_, _, rfl⟩
  | ended => exact ⟨_, _, rfl⟩

/-- Every write offers some of the bytes that follow those already taken. -/
theorem offered {answer : Written} (h : Handed pieces calls result)
    (split : calls = before ++ .write buffer answer :: after) :
    buffer ≠ [] ∧ before.flatMap Call.taken ++ buffer <+: pieces.flatten := by
  induction h generalizing before with
  | done => simp at split
  | next _ ih => exact ih split
  | @accepted piece pieces _ _ count filled _ ih =>
    rcases List.cons_eq_append_iff.1 split with ⟨rfl, same⟩ | ⟨before, rfl, others⟩
    · cases same
      exact ⟨filled, List.prefix_append _ _⟩
    · obtain ⟨offers, more⟩ := ih others
      have more := (List.prefix_append_right_inj (piece.take (count + 1))).2 more
      rw [List.flatten_cons, ← List.append_assoc, ← List.append_assoc,
        List.take_append_drop] at more
      exact ⟨offers, more⟩
  | @interrupted piece pieces _ _ filled _ ih =>
    rcases List.cons_eq_append_iff.1 split with ⟨rfl, same⟩ | ⟨before, rfl, others⟩
    · cases same
      exact ⟨filled, List.prefix_append _ _⟩
    · rw [List.flatMap_cons, Call.taken_interrupted, List.nil_append]
      exact ih others
  | @ended piece pieces answer e filled failure =>
    rcases List.cons_eq_append_iff.1 split with ⟨rfl, same⟩ | ⟨before, rfl, others⟩
    · cases same
      exact ⟨filled, List.prefix_append _ _⟩
    · simp at others

/-- An interrupted write is made again. -/
theorem retried (h : Handed pieces calls result)
    (split : calls = before ++ .write buffer .interrupted :: after) :
    ∃ answer others, after = .write buffer answer :: others := by
  induction h generalizing before with
  | done => simp at split
  | next _ ih => exact ih split
  | accepted _ _ ih =>
    rcases List.cons_eq_append_iff.1 split with ⟨rfl, same⟩ | ⟨before, rfl, others⟩
    · cases same
    · exact ih others
  | interrupted filled again ih =>
    rcases List.cons_eq_append_iff.1 split with ⟨rfl, same⟩ | ⟨before, rfl, others⟩
    · cases same
      exact again.exists_cons filled
    · exact ih others
  | ended _ failure =>
    rcases List.cons_eq_append_iff.1 split with ⟨rfl, same⟩ | ⟨before, rfl, others⟩
    · cases same
      cases failure
    · simp at others

/-- When every write took something or was interrupted, all the bytes have been taken. -/
theorem complete (h : Handed pieces calls result) (smooth : ∀ call ∈ calls, call.failure = none) :
    result = .ok () ∧ calls.flatMap Call.taken = pieces.flatten := by
  induction h with
  | done => exact ⟨rfl, rfl⟩
  | next _ ih => exact ih smooth
  | @accepted piece pieces _ _ count _ _ ih =>
    obtain ⟨done, taken⟩ := ih (List.forall_mem_cons.1 smooth).2
    refine ⟨done, ?_⟩
    rw [List.flatMap_cons, taken, Call.taken, List.flatten_cons, ← List.append_assoc,
      List.take_append_drop, List.flatten_cons]
  | interrupted _ _ ih => exact ih (List.forall_mem_cons.1 smooth).2
  | ended _ failure =>
    rw [(List.forall_mem_cons.1 smooth).1] at failure
    cases failure

/-- A write that fails, or takes nothing, is the last call. -/
theorem stopped {e : IoError} (h : Handed pieces calls result)
    (split : calls = before ++ call :: after) (failure : call.failure = some e) :
    after = [] ∧ result = .error e := by
  induction h generalizing before with
  | done => simp at split
  | next _ ih => exact ih split
  | accepted _ _ ih =>
    rcases List.cons_eq_append_iff.1 split with ⟨rfl, same⟩ | ⟨before, rfl, others⟩
    · cases same
      cases failure
    · exact ih others
  | interrupted _ _ ih =>
    rcases List.cons_eq_append_iff.1 split with ⟨rfl, same⟩ | ⟨before, rfl, others⟩
    · cases same
      cases failure
    · exact ih others
  | ended _ failure' =>
    rcases List.cons_eq_append_iff.1 split with ⟨rfl, same⟩ | ⟨before, rfl, others⟩
    · cases same
      rw [failure] at failure'
      cases failure'
      exact ⟨rfl, rfl⟩
    · simp at others

end Handed

def PieceHanded (piece : List UInt8) (calls : List Call) : Except IoError Unit → Prop
  | .ok () => ∀ pieces more result, Handed pieces more result →
      Handed (piece :: pieces) (calls ++ more) result
  | .error e => ∀ pieces, Handed (piece :: pieces) calls (.error e)

namespace PieceHanded

variable {piece : List UInt8} {calls : List Call} {result : Except IoError Unit}

theorem accepted {count : Nat} (filled : piece ≠ [])
    (h : PieceHanded (piece.drop (count + 1)) calls result) :
    PieceHanded piece (.write piece (.accepted (count + 1)) :: calls) result := by
  cases result with
  | ok =>
    intro pieces more result rest
    exact .accepted filled (h pieces more result rest)
  | error e =>
    intro pieces
    exact .accepted filled (h pieces)

theorem interrupted (filled : piece ≠ []) (h : PieceHanded piece calls result) :
    PieceHanded piece (.write piece .interrupted :: calls) result := by
  cases result with
  | ok =>
    intro pieces more result rest
    exact .interrupted filled (h pieces more result rest)
  | error e =>
    intro pieces
    exact .interrupted filled (h pieces)

end PieceHanded

namespace Writer

variable {State : Type}

/-- It is enough that no buffer is interrupted forever: how often it still is can be told from the
state. -/
theorem exists_of_fair (write : List UInt8 → State → Written × State)
    (flush : State → Except IoError Unit × State)
    (accepted_le : ∀ {buffer s count next},
      write buffer s = (.accepted count, next) → count ≤ buffer.length)
    (fair : ∀ buffer (states : ℕ → State),
      ∃ n, write buffer (states n) ≠ (.interrupted, states (n + 1))) :
    ∃ writer : Writer State, writer.write = write ∧ writer.flush = flush := by
  let retry (buffer : List UInt8) (s : State) := (write buffer s).2
  have ends (buffer : List UInt8) (s : State) :
      ∃ n, (write buffer ((retry buffer)^[n] s)).1 ≠ .interrupted := by
    obtain ⟨n, answer⟩ := fair buffer fun n => (retry buffer)^[n] s
    refine ⟨n, fun interrupted => answer (Prod.ext interrupted ?_)⟩
    rw [Function.iterate_succ_apply']
  refine ⟨⟨write, flush, fun buffer s => Nat.find (ends buffer s), accepted_le, ?_⟩, rfl, rfl⟩
  intro buffer s next answer
  have first : retry buffer s = next := congrArg Prod.snd answer
  have last := Nat.find_spec (ends buffer s)
  obtain ⟨n, count⟩ : ∃ n, Nat.find (ends buffer s) = n + 1 := by
    apply Nat.exists_eq_succ_of_ne_zero
    intro zero
    rw [zero] at last
    exact last (congrArg Prod.fst answer)
  rw [count, Function.iterate_succ_apply, first] at last
  rw [count]
  exact Nat.lt_succ_of_le (Nat.find_le last)

def recorded (writer : Writer State) : Writer (State × List Call) where
  write buffer s :=
    let (answer, next) := writer.write buffer s.1
    (answer, next, s.2 ++ [.write buffer answer])
  flush s :=
    let (answer, next) := writer.flush s.1
    (answer, next, s.2 ++ [.flush answer])
  patience buffer s := writer.patience buffer s.1
  accepted_le := by
    intro buffer s count next h
    obtain ⟨answer, -⟩ := Prod.mk.inj h
    exact writer.accepted_le (Prod.ext answer rfl)
  interrupted_lt := by
    intro buffer s next h
    obtain ⟨answer, rfl⟩ := Prod.mk.inj h
    exact writer.interrupted_lt (Prod.ext answer rfl)

theorem recorded_write (writer : Writer State) {buffer : List UInt8} {s next : State}
    {answer : Written} (h : writer.write buffer s = (answer, next)) (calls : List Call) :
    writer.recorded.write buffer (s, calls) = (answer, next, calls ++ [.write buffer answer]) := by
  simp only [recorded, h]

theorem writeAll_nil (writer : Writer State) (s : State) : writer.writeAll [] s = (.ok (), s) := by
  rw [writeAll, if_pos rfl]

theorem writeAll_of_filled (writer : Writer State) {buffer : List UInt8} (filled : buffer ≠ [])
    (s : State) :
    writer.writeAll buffer s =
      match writer.write buffer s with
      | (.accepted 0, next) => (.error .writeZero, next)
      | (.accepted (count + 1), next) => writer.writeAll (buffer.drop (count + 1)) next
      | (.interrupted, next) => writer.writeAll buffer next
      | (.failed e, next) => (.error e, next) := by
  rw [writeAll, if_neg filled]
  split <;> rename_i answer <;> rw [answer]

/-- A buffer is handed over in calls that offer the rest of it. -/
theorem writeAll_recorded (writer : Writer State) (buffer : List UInt8) (s : State)
    (past : List Call) :
    ∃ calls, writer.recorded.writeAll buffer (s, past) =
        ((writer.writeAll buffer s).1, (writer.writeAll buffer s).2, past ++ calls) ∧
      PieceHanded buffer calls (writer.writeAll buffer s).1 := by
  fun_induction writer.writeAll buffer s generalizing past with
  | case1 s =>
    refine ⟨[], ?_, ?_⟩
    · rw [writeAll_nil, List.append_nil]
    · intro pieces more result rest
      exact .next rest
  | case2 buffer s filled next answer =>
    refine ⟨[.write buffer (.accepted 0)], ?_, ?_⟩
    · rw [writeAll_of_filled _ filled, recorded_write writer answer]
    · intro pieces
      exact .ended filled rfl
  | case3 buffer s filled count next answer ih =>
    obtain ⟨calls, same, handed⟩ := ih (past ++ [.write buffer (.accepted (count + 1))])
    refine ⟨.write buffer (.accepted (count + 1)) :: calls, ?_, handed.accepted filled⟩
    rw [writeAll_of_filled _ filled, recorded_write writer answer]
    simp only [same, List.append_assoc, List.singleton_append]
  | case4 buffer s filled next answer ih =>
    obtain ⟨calls, same, handed⟩ := ih (past ++ [.write buffer .interrupted])
    refine ⟨.write buffer .interrupted :: calls, ?_, handed.interrupted filled⟩
    rw [writeAll_of_filled _ filled, recorded_write writer answer]
    simp only [same, List.append_assoc, List.singleton_append]
  | case5 buffer s filled e next answer =>
    refine ⟨[.write buffer (.failed e)], ?_, ?_⟩
    · rw [writeAll_of_filled _ filled, recorded_write writer answer]
    · intro pieces
      exact .ended filled rfl

theorem putAll_cons (sink : Sink (StateM State)) (piece : List UInt8)
    (pieces : List (List UInt8)) :
    sink.putAll (piece :: pieces) = sink.put piece >>= goOn fun _ => sink.putAll pieces := by
  rw [Sink.putAll]
  congr 1
  funext outcome
  cases outcome <;> rfl

/-- Pieces are handed over one after the other, in calls that offer what was not taken. -/
theorem putAll_recorded (writer : Writer State) (pieces : List (List UInt8)) (s : State)
    (past : List Call) :
    ∃ calls, (writer.recorded.toSink.putAll pieces).run (s, past) =
        (((writer.toSink.putAll pieces).run s).1, ((writer.toSink.putAll pieces).run s).2,
          past ++ calls) ∧
      Handed pieces calls ((writer.toSink.putAll pieces).run s).1 := by
  induction pieces generalizing s past with
  | nil =>
    refine ⟨[], ?_, .done⟩
    rw [List.append_nil]
    rfl
  | cons piece pieces ih =>
    obtain ⟨calls, same, handed⟩ := writeAll_recorded writer piece s past
    cases written : writer.writeAll piece s with
    | mk outcome next =>
      rw [written] at same handed
      have put : (writer.toSink.put piece).run s = (outcome, next) := written
      have recorded : (writer.recorded.toSink.put piece).run (s, past) =
          (outcome, next, past ++ calls) := same
      rw [putAll_cons, putAll_cons]
      cases outcome with
      | error e =>
        rw [run_goOn_of_error put, run_goOn_of_error recorded]
        exact ⟨calls, rfl, handed pieces⟩
      | ok done =>
        rw [run_goOn_of_ok put, run_goOn_of_ok recorded]
        obtain ⟨more, same', handed'⟩ := ih next (past ++ calls)
        refine ⟨calls ++ more, ?_, handed pieces more _ handed'⟩
        rw [← List.append_assoc]
        exact same'

end Writer

end MicroBench
