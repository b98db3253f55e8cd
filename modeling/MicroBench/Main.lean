import MicroBench.Plugin
import MicroBench.Sink.System

/-! The plugin as a program: its host is the machine it runs on. -/
namespace MicroBench

/-- The number that the system has for a failure, and its own words. -/
def systemParts : IO.Error → Nat × String
  | .alreadyExists _ code details | .otherError code details | .resourceBusy code details
  | .resourceVanished code details | .unsupportedOperation code details
  | .hardwareFault code details | .unsatisfiedConstraints code details
  | .illegalOperation code details | .protocolError code details | .timeExpired code details
  | .interrupted _ code details | .noFileOrDirectory _ code details
  | .invalidArgument _ code details | .permissionDenied _ code details
  | .resourceExhausted _ code details | .inappropriateType _ code details
  | .noSuchThing _ code details => (code.toNat, details)
  | .unexpectedEof => (0, "unexpected end of file")
  | .userError text => (0, text)

/-- An action, its failure told as one of the system. -/
def guarded {α : Type} (action : IO α) : IO (Except IoError α) := do
  try return .ok (← action)
  catch e =>
    let (code, details) := systemParts e
    return .error (.ofCode code details)

def streamSink (stream : IO.FS.Stream) : Sink IO where
  put bytes := guarded (stream.write ⟨bytes.toArray⟩)
  flush := guarded stream.flush

/-- The machine that the program runs on. The product of each task is kept until the next one, so
that it is computed. -/
def systemHost (stdout stderr : IO.FS.Stream) (kept : IO.Ref Product) : Host IO where
  now := return .ofParts 0 (← IO.monoNanosNow)
  perform task := do
    kept.set task.product
    match task with
    | .sleep millis => IO.sleep (.ofNat millis)
    | _ => pure ()
  stdout := streamSink stdout
  create path := guarded do
    return streamSink (.ofHandle (← IO.FS.Handle.mk path .write))
  report line := do
    stderr.putStrLn line
    stderr.flush

def logVariable : String := "RUST_LOG"

end MicroBench

def main (arguments : List String) : IO UInt32 := do
  let kept ← IO.mkRef MicroBench.Product.nothing
  let host := MicroBench.systemHost (← IO.getStdout) (← IO.getStderr) kept
  let outcome ← MicroBench.Plugin.run host arguments (← IO.getEnv MicroBench.logVariable)
  return .ofNat outcome.exitCode
