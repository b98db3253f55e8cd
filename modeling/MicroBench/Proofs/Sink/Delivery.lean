import MicroBench.Proofs.Record.Lossless
import MicroBench.Proofs.Sink.Calls

/-! Handing the text of a record to a writer. Whatever the writer answers, it has taken
the beginning of the text at every moment, and the outcome says how far it got. -/
namespace MicroBench

/-! ### Bytes of a text -/

theorem textBytes_append (a b : List Char) : textBytes (a ++ b) = textBytes a ++ textBytes b := by
  simp [textBytes]

theorem flatten_textBytes (pieces : List (List Char)) :
    (pieces.map textBytes).flatten = textBytes pieces.flatten := by
  induction pieces with
  | nil => rfl
  | cons piece pieces ih =>
    rw [List.map_cons, List.flatten_cons, ih, List.flatten_cons, textBytes_append]

/-- The newline behind a record is the only one. -/
theorem Record.newline_not_mem_encode (r : Record) : '\n' ∉ r.encode := by
  intro member
  cases r.dense_encode '\n' member

/-! ### The calls of a writer -/

/-- What the calls of a writer, and the outcome, are when it is to take a text. -/
structure Delivered (text : List UInt8) (calls : List Call) (result : Except Failure Unit) :
    Prop where
  /-- At every moment the bytes taken are the beginning of the text. -/
  inOrder : ∀ before, before <+: calls → before.flatMap Call.taken <+: text
  /-- Every write offers some of the bytes that come next. -/
  offered : ∀ before buffer answer after, calls = before ++ .write buffer answer :: after →
    buffer ≠ [] ∧ before.flatMap Call.taken ++ buffer <+: text
  /-- An interrupted write is made again. -/
  retried : ∀ before buffer after, calls = before ++ .write buffer .interrupted :: after →
    ∃ answer others, after = .write buffer answer :: others
  /-- Unless a write fails or takes nothing, all of the text is taken, and then flushed once. -/
  complete : (∀ call ∈ calls, call.failure = none) →
    ∃ writes answer, calls = writes ++ [.flush answer] ∧ (∀ call ∈ writes, call.IsWrite) ∧
      writes.flatMap Call.taken = text ∧ result = answer.mapError .io
  /-- A write that fails or takes nothing is the last call, and nothing was flushed before. -/
  stopped : ∀ before call after e, calls = before ++ call :: after → call.failure = some e →
    (∀ call ∈ before, call.IsWrite) ∧ after = [] ∧ result = .error (.io e)

theorem append_singleton_split {α : Type} {x y : α} {l before after : List α}
    (h : l ++ [x] = before ++ y :: after) :
    l = before ∧ x = y ∧ after = [] ∨
      ∃ others, after = others ++ [x] ∧ l = before ++ y :: others := by
  rcases List.eq_nil_or_concat after with rfl | ⟨others, z, rfl⟩
  · obtain ⟨same, last⟩ := List.append_inj' h rfl
    cases last
    exact .inl ⟨same, rfl, rfl⟩
  · rw [List.concat_eq_append, ← List.cons_append, ← List.append_assoc] at h
    obtain ⟨same, last⟩ := List.append_inj' h rfl
    cases last
    exact .inr ⟨others, List.concat_eq_append .., same⟩

namespace Handed

variable {pieces : List (List UInt8)} {calls : List Call}

/-- Pieces that were not handed over completely are not flushed. -/
theorem delivered_of_error {e : IoError} (h : Handed pieces calls (.error e)) :
    Delivered pieces.flatten calls (.error (.io e)) where
  inOrder _ part := h.taken_prefix part
  offered _ _ _ _ split := h.offered split
  retried _ _ _ split := h.retried split
  complete smooth := by cases (h.complete smooth).1
  stopped := by
    intro before call after e' split failure
    obtain ⟨last, same⟩ := h.stopped split failure
    cases same
    refine ⟨?_, last, rfl⟩
    intro call' member
    exact h.isWrite call' (split ▸ List.mem_append_left _ member)

/-- After everything was taken, one flush completes the delivery. -/
theorem delivered_of_ok (h : Handed pieces calls (.ok ())) (answer : Except IoError Unit) :
    Delivered pieces.flatten (calls ++ [.flush answer]) (answer.mapError .io) where
  inOrder := by
    intro before part
    rcases List.prefix_concat_iff.1 part with rfl | part
    · rw [List.flatMap_append, List.flatMap_singleton, Call.taken_flush, List.append_nil]
      exact h.taken_prefix (List.prefix_refl calls)
    · exact h.taken_prefix part
  offered := by
    intro before buffer answer' after split
    rcases append_singleton_split split with ⟨-, other, -⟩ | ⟨others, -, split⟩
    · cases other
    · exact h.offered split
  retried := by
    intro before buffer after split
    rcases append_singleton_split split with ⟨-, other, -⟩ | ⟨others, rfl, split'⟩
    · cases other
    · obtain ⟨answer', more, rfl⟩ := h.retried split'
      exact ⟨answer', more ++ [.flush answer], rfl⟩
  complete := by
    intro smooth
    have taken := (h.complete fun call member => smooth call (List.mem_append_left _ member)).2
    exact ⟨calls, answer, rfl, h.isWrite, taken, rfl⟩
  stopped := by
    intro before call after e split failure
    rcases append_singleton_split split with ⟨-, rfl, -⟩ | ⟨others, -, split⟩
    · cases failure
    · cases (h.stopped split failure).2

end Handed

namespace Record

variable {State : Type} (writer : Writer State) (r : Record)

theorem flatten_pieces :
    ((r.fragments ++ [['\n']]).map textBytes).flatten = textBytes (r.encode ++ ['\n']) := by
  rw [flatten_textBytes, List.flatten_append, List.flatten_singleton]
  rfl

theorem writeTo_of_defect {defect : Defect} (h : r.defect? = some defect) (s : State) :
    (r.writeTo writer.toSink).run s = (.error (.illFormed defect), s) := by
  simp only [writeTo, h]
  rfl

section WellFormed

variable {writer r} {s next : State} (wellFormed : r.defect? = none)

include wellFormed

theorem writeTo_of_error {e : IoError}
    (h : (writer.toSink.putAll ((r.fragments ++ [['\n']]).map textBytes)).run s =
      (.error e, next)) :
    (r.writeTo writer.toSink).run s = (.error (.io e), next) := by
  simp only [writeTo, wellFormed, StateT.run_bind, h]
  rfl

theorem writeTo_of_ok
    (h : (writer.toSink.putAll ((r.fragments ++ [['\n']]).map textBytes)).run s =
      (.ok (), next)) :
    (r.writeTo writer.toSink).run s =
      ((writer.flush next).1.mapError .io, (writer.flush next).2) := by
  cases flushed : writer.flush next with
  | mk answer after =>
    have flush : writer.toSink.flush.run next = (answer, after) := flushed
    simp only [writeTo, wellFormed, StateT.run_bind, h]
    change (writer.toSink.flush >>= _ : StateM State (Except Failure Unit)).run next = _
    rw [StateT.run_bind, flush]
    cases answer <;> rfl

variable (writer) in
/-- The text of a well-formed record and a line end are delivered. -/
theorem writeTo_of_wellFormed (s : State) :
    ∃ result after calls,
      (r.writeTo writer.toSink).run s = (result, after) ∧
      (r.writeTo writer.recorded.toSink).run (s, []) = (result, after, calls) ∧
      Delivered (textBytes (r.encode ++ ['\n'])) calls result := by
  obtain ⟨calls, same, handed⟩ := writer.putAll_recorded
    ((r.fragments ++ [['\n']]).map textBytes) s []
  rw [← flatten_pieces]
  cases put : (writer.toSink.putAll ((r.fragments ++ [['\n']]).map textBytes)).run s with
  | mk outcome next =>
    rw [put] at same handed
    cases outcome with
    | error e =>
      exact ⟨_, _, _, writeTo_of_error wellFormed put, writeTo_of_error wellFormed same,
        handed.delivered_of_error⟩
    | ok done =>
      exact ⟨_, _, _, writeTo_of_ok wellFormed put, writeTo_of_ok wellFormed same,
        handed.delivered_of_ok (writer.flush next).1⟩

end WellFormed

/-- A record that is not well formed is refused as it is when it is encoded, and the writer is left
alone. The text of any other record and a line end are delivered to the writer, one that keeps its
calls behaving as any. -/
theorem writeTo_delivers (s : State) :
    ∃ result after calls,
      (r.writeTo writer.toSink).run s = (result, after) ∧
      (r.writeTo writer.recorded.toSink).run (s, []) = (result, after, calls) ∧
      (∀ defect, r.toJson = .error defect →
        result = .error (.illFormed defect) ∧ after = s ∧ calls = []) ∧
      ∀ json, r.toJson = .ok json →
        '\n' ∉ json.toList ∧ Delivered (textBytes (json.toList ++ ['\n'])) calls result := by
  cases defect : r.defect? with
  | some d =>
    have refused : r.toJson = .error d := by rw [toJson, defect]
    refine ⟨_, _, _, writeTo_of_defect _ _ defect _, writeTo_of_defect _ _ defect _, ?_, ?_⟩
    · intro d' same
      rw [refused] at same
      cases same
      exact ⟨rfl, rfl, rfl⟩
    · intro json same
      rw [refused] at same
      cases same
  | none =>
    have written : r.toJson = .ok (.ofList r.encode) := by rw [toJson, defect]
    obtain ⟨result, after, calls, plain, kept, delivered⟩ := writeTo_of_wellFormed writer defect s
    refine ⟨result, after, calls, plain, kept, ?_, ?_⟩
    · intro d refused
      rw [written] at refused
      cases refused
    · intro json same
      rw [written] at same
      cases same
      rw [String.toList_ofList]
      exact ⟨r.newline_not_mem_encode, delivered⟩

end Record

end MicroBench
