/-! Where bytes go. A sink takes all the bytes it is handed or fails; what has been
taken may wait in it until it is flushed. -/
namespace MicroBench

structure IoError where
  /-- The number of the failure, if the operating system reported it. -/
  code : Option Nat
  /-- The kind of failure, in the words of the system. -/
  kind : String
  message : String
deriving DecidableEq

namespace IoError

def custom (kind message : String) : IoError := ⟨none, kind, message⟩

/-- A failure that the operating system reported. -/
def system (code : Nat) (kind message : String) : IoError := ⟨some code, kind, message⟩

/-- A writer that takes nothing of what it is offered cannot get on. -/
def writeZero : IoError := custom "WriteZero" "failed to write whole buffer"

def text (e : IoError) : String :=
  match e.code with
  | none => e.message
  | some code => s!"{e.message} (os error {code})"

end IoError

structure Sink (m : Type → Type) where
  put : List UInt8 → m (Except IoError Unit)
  flush : m (Except IoError Unit)

def textBytes (text : List Char) : List UInt8 := (String.ofList text).toUTF8.data.toList

namespace Sink

variable {m : Type → Type} [Monad m]

/-- Hands over the pieces in order, up to the first failure. -/
def putAll (sink : Sink m) : List (List UInt8) → m (Except IoError Unit)
  | [] => pure (.ok ())
  | piece :: pieces => do
    match ← sink.put piece with
    | .error e => pure (.error e)
    | .ok () => sink.putAll pieces

end Sink

end MicroBench
