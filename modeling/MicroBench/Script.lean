import MicroBench.Machine.Host
import MicroBench.Machine.Tree

/-! Thunks that follow a script: at certain calls they sleep, panic or fail. -/
namespace MicroBench

structure Script where
  /-- The calls, counted from 1, that sleep. -/
  slowCalls : List Nat
  /-- The nanoseconds for which they do. -/
  slowNanos : Nat
  panicAt : Option Nat
  failAt : Option Nat
  /-- What the thunk panics or fails with. -/
  message : String
deriving DecidableEq

namespace Script

/-- What has happened while a script was followed. -/
structure Scene where
  time : Machine.Time
  calls : Nat
  /-- The events reported, last first. -/
  reversed : List Event
deriving DecidableEq

namespace Scene

def start : Scene := ⟨.zero, 0, []⟩

def events (scene : Scene) : List Event := scene.reversed.reverse

end Scene

/-- What runs on a scene; a panic ends it. -/
abbrev Act := ExceptT String (StateM Scene)

namespace Act

def now : Act Instant := do
  let scene ← get
  set { scene with time := scene.time.read }
  pure scene.time.steady

def log (e : Event) : Act Unit :=
  modify fun scene => { scene with reversed := e :: scene.reversed }

def sleep (nanos : Nat) : Act Unit :=
  modify fun scene => { scene with time := scene.time.sleep nanos }

def perform (task : Task) : Act Unit :=
  modify fun scene => { scene with time := scene.time.perform task }

def run {α : Type} (act : Act α) : Except String α × Scene :=
  Id.run (StateT.run (ExceptT.run act) .start)

end Act

/-- One call of the thunk. It sleeps before it panics, and panics before it fails. -/
def call (script : Script) : Act (Except String Unit) := do
  let scene ← get
  let number := scene.calls + 1
  set { scene with calls := number }
  if number ∈ script.slowCalls then Act.sleep script.slowNanos
  if script.panicAt = some number then throw script.message
  if script.failAt = some number then pure (.error script.message) else pure (.ok ())

def bench (script : Script) : Bench Act String where
  now := Act.now
  call := script.call
  log := Act.log

end Script

end MicroBench
