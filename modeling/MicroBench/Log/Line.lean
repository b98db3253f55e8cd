import MicroBench.Decimal.Layout
import MicroBench.Event
import MicroBench.Text.Quoted

/-! The line that shows an event. -/
namespace MicroBench

def FieldValue.shown : FieldValue → String
  | count n => toString n.toNat
  | number x => .ofList (Layout.logged.renderNumber x)
  | text s => .ofList (Text.quoted s.toList)

/-- The level, the target and the message, and then each field with its value. -/
def Event.line (e : Event) : String :=
  s!"{e.level.name} {e.target}: {e.message}" ++
    String.join (e.fields.map fun (key, value) => s!" {key}={value.shown}")

end MicroBench
