import MicroBench.Runner

/-! What a run does to its surroundings, step by step: a thunk with a state of its own,
which may return, fail or panic, and a clock of which nothing is assumed. The steps are
kept in the order in which they are taken, also when a panic ends the run. -/
namespace MicroBench

variable {τ ε π α β : Type}

inductive Ending (ε π : Type) where
  | returned
  | failed (e : ε)
  | panicked (payload : π)

namespace Ending

def outcome : Ending ε π → Except π (Except ε Unit)
  | returned => .ok (.ok ())
  | failed e => .ok (.error e)
  | panicked payload => .error payload

/-- A call that ends this way stops the program that made it, with this result. -/
inductive Stops : Ending ε π → Except π (Except ε α) → Prop where
  | failed (e : ε) : Stops (.failed e) (.ok (.error e))
  | panicked (payload : π) : Stops (.panicked payload) (.error payload)

/-- How often the clock is read around a call: the second reading is not reached by a panic. -/
def readings : Ending ε π → Nat
  | panicked _ => 1
  | _ => 2

end Ending

/-- A thunk and the readings of a clock, in the order in which they are taken. What the thunk does
to the clock shows in the readings. -/
structure Lab (τ ε π : Type) where
  call : τ → Ending ε π × τ
  reading : Nat → Instant

namespace Lab

inductive Step (ε π : Type) where
  | read (time : Instant)
  | called (ending : Ending ε π)
  | reported (event : Event)

def Step.isCall : Step ε π → Bool
  | called _ => true
  | _ => false

/-- How far things have come: the state of the thunk, how often the clock was read, and every step
taken. -/
structure Course (τ ε π : Type) where
  thunk : τ
  readings : Nat
  steps : List (Step ε π)

namespace Course

def start (thunk : τ) : Course τ ε π := ⟨thunk, 0, []⟩

def calls (course : Course τ ε π) : Nat := course.steps.countP Step.isCall

end Course

abbrev Act (τ ε π : Type) := ExceptT π (StateM (Course τ ε π))

def Act.from (act : Act τ ε π α) (course : Course τ ε π) : Except π α × Course τ ε π :=
  Id.run (StateT.run (ExceptT.run act) course)

variable (lab : Lab τ ε π)

def bench : Bench (Act τ ε π) ε where
  now := fun ⟨t, n, past⟩ => (.ok (lab.reading n), ⟨t, n + 1, past ++ [.read (lab.reading n)]⟩)
  call := fun ⟨t, n, past⟩ =>
    ((lab.call t).1.outcome, ⟨(lab.call t).2, n, past ++ [.called (lab.call t).1]⟩)
  log event := fun ⟨t, n, past⟩ => (.ok (), ⟨t, n, past ++ [.reported event]⟩)

def callInfallible (lab : Lab τ Empty π) : Act τ Empty π Unit := do
  match ← lab.bench.call with
  | .ok () => pure ()

/-! ### Calls by their number -/

def after (t : τ) : Nat → τ
  | 0 => t
  | count + 1 => after (lab.call t).2 count

/-- How a call ends, the first one having number zero. -/
def ending (t : τ) (number : Nat) : Ending ε π := (lab.call (lab.after t number)).1

/-- The nanoseconds between the readings around a measured call, the first one having number
zero. -/
def time (number : Nat) : UInt64 :=
  Clock.nanosBetween (lab.reading (2 * number)) (lab.reading (2 * number + 1))

def times (count : Nat) : List UInt64 := (List.range count).map lab.time

/-- The second reading around a measured call, and the event that goes with it if the clock went
backwards. -/
def stopSteps (number : Nat) : List (Step ε π) :=
  .read (lab.reading (2 * number + 1)) ::
    (Clock.eventsBetween (lab.reading (2 * number)) (lab.reading (2 * number + 1))).map .reported

def lapSteps (number : Nat) : Ending ε π → List (Step ε π)
  | .panicked payload => [.read (lab.reading (2 * number)), .called (.panicked payload)]
  | ending => .read (lab.reading (2 * number)) :: .called ending :: lab.stopSteps number

theorem after_add (t : τ) (m n : Nat) : lab.after t (m + n) = lab.after (lab.after t m) n := by
  induction m generalizing t with
  | zero => rw [Nat.zero_add, after]
  | succ m ih =>
    rw [Nat.succ_add]
    exact ih _

theorem ending_after (t : τ) (m k : Nat) :
    lab.ending (lab.after t m) k = lab.ending t (m + k) := by
  rw [ending, ending, after_add]

/-- Steps with so many calls, and no report but that the clock went backwards. -/
structure Quiet (steps : List (Step ε π)) (calls : Nat) : Prop where
  calls : steps.countP Step.isCall = calls
  reports : ∀ event, .reported event ∈ steps → event = Clock.wentBackwards

namespace Quiet

theorem nil : Quiet ([] : List (Step ε π)) 0 := by
  refine ⟨rfl, ?_⟩
  intro event member
  cases member

theorem append {steps steps' : List (Step ε π)} {m n : Nat} (h : Quiet steps m)
    (h' : Quiet steps' n) : Quiet (steps ++ steps') (m + n) := by
  refine ⟨?_, ?_⟩
  · rw [List.countP_append, h.calls, h'.calls]
  · intro event member
    rcases List.mem_append.1 member with member | member
    · exact h.reports event member
    · exact h'.reports event member

theorem called (ending : Ending ε π) : Quiet [.called ending] 1 := by
  refine ⟨rfl, ?_⟩
  intro event member
  cases List.mem_singleton.1 member

theorem read (time : Instant) : Quiet ([.read time] : List (Step ε π)) 0 := by
  refine ⟨rfl, ?_⟩
  intro event member
  cases List.mem_singleton.1 member

theorem replicate (count : Nat) :
    Quiet (List.replicate count (.called .returned) : List (Step ε π)) count := by
  induction count with
  | zero => exact nil
  | succ count ih =>
    rw [List.replicate_succ, Nat.add_comm]
    exact (called .returned).append ih

theorem eventsBetween (start stop : Instant) :
    Quiet ((Clock.eventsBetween start stop).map .reported : List (Step ε π)) 0 := by
  rw [Clock.eventsBetween]
  split
  · refine ⟨rfl, ?_⟩
    intro event member
    cases List.mem_singleton.1 member
    rfl
  · exact nil

theorem lapSteps (number : Nat) (ending : Ending ε π) : Quiet (lab.lapSteps number ending) 1 := by
  have start := (read (lab.reading (2 * number))).append (called ending)
  have stop := (read (ε := ε) (π := π) (lab.reading (2 * number + 1))).append
    (eventsBetween (lab.reading (2 * number)) (lab.reading (2 * number + 1)))
  cases ending with
  | returned => exact start.append stop
  | failed e => exact start.append stop
  | panicked payload => exact start

/-- Measured calls report nothing but a clock that goes backwards. -/
theorem laps (numbers : List Nat) :
    Quiet (numbers.flatMap fun k => lab.lapSteps k .returned) numbers.length := by
  induction numbers with
  | nil => exact nil
  | cons number numbers ih =>
    rw [List.flatMap_cons, List.length_cons, Nat.add_comm]
    exact (lapSteps lab number .returned).append ih

end Quiet

/-! ### One step at a time -/

section Steps

variable {lab} {course between : Course τ ε π} {t : τ} {n : Nat} {past : List (Step ε π)}

theorem from_bind_of_ok {act : Act τ ε π α} {next : α → Act τ ε π β} {a : α}
    (first : act.from course = (.ok a, between)) :
    (act >>= next).from course = (next a).from between := by
  have run : StateT.run (ExceptT.run act) course = pure (.ok a, between) := first
  simp only [Act.from, ExceptT.run_bind, StateT.run_bind, run, pure_bind]

/-- A panic goes through everything that would follow. -/
theorem from_bind_of_panic {act : Act τ ε π α} {next : α → Act τ ε π β} {payload : π}
    (first : act.from course = (.error payload, between)) :
    (act >>= next).from course = (.error payload, between) := by
  have run : StateT.run (ExceptT.run act) course = pure (.error payload, between) := first
  simp only [Act.from, ExceptT.run_bind, StateT.run_bind, run, pure_bind]
  rfl

theorem from_map_of_ok {act : Act τ ε π α} {f : α → β} {a : α}
    (ran : act.from course = (.ok a, between)) :
    (f <$> act).from course = (.ok (f a), between) := by
  rw [← bind_pure_comp, from_bind_of_ok ran]
  rfl

theorem from_map_of_panic {act : Act τ ε π α} {f : α → β} {payload : π}
    (ran : act.from course = (.error payload, between)) :
    (f <$> act).from course = (.error payload, between) := by
  rw [← bind_pure_comp, from_bind_of_panic ran]

/-- Whatever stops a program also stops a longer one, unless that handles errors. -/
theorem from_bind_of_stops {act : Act τ ε π (Except ε α)}
    {next : Except ε α → Act τ ε π (Except ε β)} {ending : Ending ε π}
    {result : Except π (Except ε β)} (stops : ending.Stops result)
    (first : ∀ {result}, ending.Stops result → act.from course = (result, between))
    (passes : ∀ e, next (.error e) = pure (.error e)) :
    (act >>= next).from course = (result, between) := by
  cases stops with
  | failed e =>
    rw [from_bind_of_ok (first (.failed e)), passes]
    rfl
  | panicked payload => exact from_bind_of_panic (first (.panicked payload))

theorem now_from :
    lab.bench.now.from ⟨t, n, past⟩ =
      (.ok (lab.reading n), ⟨t, n + 1, past ++ [.read (lab.reading n)]⟩) := rfl

theorem log_from (event : Event) :
    (lab.bench.log event).from ⟨t, n, past⟩ = (.ok (), ⟨t, n, past ++ [.reported event]⟩) := rfl

theorem call_of_returned (returned : lab.ending t 0 = .returned) :
    lab.bench.call.from ⟨t, n, past⟩ =
      (.ok (.ok ()), ⟨(lab.call t).2, n, past ++ [.called .returned]⟩) := by
  have first : (lab.call t).1 = .returned := returned
  change ((lab.call t).1.outcome, _) = _
  rw [first]
  rfl

theorem call_of_stops {ending : Ending ε π} (ends : lab.ending t 0 = ending)
    {result : Except π (Except ε Unit)} (stops : ending.Stops result) :
    lab.bench.call.from ⟨t, n, past⟩ = (result, ⟨(lab.call t).2, n, past ++ [.called ending]⟩) := by
  have first : (lab.call t).1 = ending := ends
  change ((lab.call t).1.outcome, _) = _
  rw [first]
  cases stops <;> rfl

/-- Events are reported in their order. -/
theorem forM_log_from (events : List Event) :
    (events.forM lab.bench.log).from ⟨t, n, past⟩ =
      (.ok (), ⟨t, n, past ++ events.map .reported⟩) := by
  induction events generalizing past with
  | nil =>
    rw [List.map_nil, List.append_nil]
    rfl
  | cons event events ih =>
    have first : (event :: events).forM lab.bench.log =
        lab.bench.log event >>= fun _ => events.forM lab.bench.log := rfl
    rw [first, from_bind_of_ok (log_from event), ih, List.append_assoc]
    rfl

/-- A reading, and the event that goes with it if the clock went backwards. -/
theorem elapsedNanos_from (start : Instant) :
    (Clock.elapsedNanos lab.bench.now lab.bench.log start).from ⟨t, n, past⟩ =
      (.ok (Clock.nanosBetween start (lab.reading n)), ⟨t, n + 1, past ++
        .read (lab.reading n) :: (Clock.eventsBetween start (lab.reading n)).map .reported⟩) := by
  rw [Clock.elapsedNanos, from_bind_of_ok now_from, from_bind_of_ok (forM_log_from _),
    List.append_assoc]
  rfl

end Steps

end Lab

end MicroBench
