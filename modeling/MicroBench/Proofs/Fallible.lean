/-! Steps that may fail and change a state whether they do or not. A program made of them
stops at the first failure. -/
namespace MicroBench

variable {σ ε α β : Type} {step : StateM σ (Except ε α)} {next : α → StateM σ (Except ε β)}
  {s between after : σ}

def goOn (next : α → StateM σ (Except ε β)) : Except ε α → StateM σ (Except ε β)
  | .error e => pure (.error e)
  | .ok a => next a

theorem run_goOn_of_ok {a : α} (h : step.run s = (.ok a, between)) :
    (step >>= goOn next).run s = (next a).run between := by
  rw [StateT.run_bind, h]
  rfl

theorem run_goOn_of_error {e : ε} (h : step.run s = (.error e, after)) :
    (step >>= goOn next).run s = (.error e, after) := by
  rw [StateT.run_bind, h]
  rfl

/-- A program completes only if its first step does. -/
theorem run_goOn_eq_ok {b : β} (h : (step >>= goOn next).run s = (.ok b, after)) :
    ∃ a between, step.run s = (.ok a, between) ∧ (next a).run between = (.ok b, after) := by
  cases first : step.run s with
  | mk outcome between =>
    cases outcome with
    | error e =>
      rw [run_goOn_of_error first] at h
      cases h
    | ok a =>
      rw [run_goOn_of_ok first] at h
      exact ⟨a, between, rfl, h⟩

end MicroBench
