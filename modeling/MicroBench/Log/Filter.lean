import MicroBench.Event
import MicroBench.Log.Directive

/-! Which events are shown. A setting is a list of directives; of those that care about
an event, the most specific one decides. -/
namespace MicroBench.Log

/-- A directive that needs to know nothing but the event. -/
structure Rule where
  ceiling : Nat
  target : Option String
  field : Option String
deriving DecidableEq

namespace Rule

def everywhere (ceiling : Nat) : Rule := ⟨ceiling, none, none⟩

def ofDirective? (d : Directive) : Option Rule :=
  if d.isStatic then some ⟨d.ceiling, d.target, d.field.map FieldPattern.name⟩ else none

/-- A rule cares about the events of its target that have its field; every event has a message. -/
def caresAbout (rule : Rule) (e : Event) : Bool :=
  rule.target.all (fun target => target.toList.isPrefixOf e.target.toList) &&
    rule.field.all fun name => name == "message" || e.fields.any fun (key, _) => key == name

/-- The order of rules: a longer target comes later, then a field, then the texts decide. -/
def order (a b : Rule) : Ordering :=
  (compare (a.target.map String.utf8ByteSize) (b.target.map String.utf8ByteSize)).then <|
    (compare a.field.isSome b.field.isSome).then <|
      (compare a.target b.target).then (compare a.field b.field)

end Rule

/-- Rules, the most specific ones first. -/
structure Filter where
  rules : List Rule
deriving DecidableEq

namespace Filter

/-- Adds a rule at its place; it replaces one for the same events. -/
def place (rule : Rule) : List Rule → List Rule
  | [] => [rule]
  | other :: rules =>
    match rule.order other with
    | .gt => rule :: other :: rules
    | .eq => rule :: rules
    | .lt => other :: place rule rules

/-- Whether an event is shown: the first rule that cares about it decides, and without one it is
not. -/
def shows (filter : Filter) (e : Event) : Bool :=
  (filter.rules.find? (·.caresAbout e)).any fun rule => e.level.verbosity ≤ rule.ceiling

/-- The filter of some directives. Directives that say nothing of the event alone still count as
directives; without any, errors are shown. -/
def ofDirectives (directives : List Directive) : Filter :=
  if directives = [] then ⟨[.everywhere Level.error.verbosity]⟩
  else ⟨(directives.filterMap Rule.ofDirective?).foldl (fun rules rule => place rule rules) []⟩

/-- Warnings and errors, which is all that is shown if nothing is said. -/
def standard : Filter := ⟨[.everywhere Level.warn.verbosity]⟩

/-- The filter of a setting: directives with commas between them. One that is malformed spoils the
whole setting, and from one that divides a character there is no way on. -/
def ofSetting : Option String → Option Filter
  | none => some standard
  | some text =>
    let parts := (text.toList.splitOn ',').filter (· ≠ [])
    match parts.mapM Directive.ofText with
    | .ok directives => some (ofDirectives directives)
    | .error .malformed => some standard
    | .error .divided => none

end Filter

end MicroBench.Log
