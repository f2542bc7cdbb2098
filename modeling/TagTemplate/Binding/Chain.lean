import TagTemplate.Binding.Path
import TagTemplate.Formatter.Catalog

/-!
# `TagTemplate.Binding.Chain`: formatter chains

A chain is applied from left to right. Its dynamic parameters are paths from a
context: the element that is being formatted, or else the whole data. A call of
an unknown name changes nothing, and neither does a reducing formatter among
the calls on a single value; both leave a message.

`applyCalls` gives the value and `callMessages` the messages. The messages do
not depend on the value.
-/

set_option autoImplicit false

namespace TagTemplate

/-- The value of a parameter in a context. -/
def Parameter.resolve (context : Json) : Parameter → Value
  | .literal value => value
  | .dynamic path => Value.ofJson? (context.follow? path)

namespace Call

/-- The formatter that is called, if the catalog has it. -/
def formatter? (call : Call) : Option Formatter :=
  Formatter.named? call.name

/-- The call is one of a reducing formatter. -/
def reduces (call : Call) : Bool :=
  match call.formatter? with
  | some f => f.isReduction
  | none => false

/-- The value after the call. -/
def apply (context : Json) (value : Value) (call : Call) : Value :=
  match call.formatter? with
  | none => value
  | some f => if f.isReduction then value else f.apply value (call.parameters.map (·.resolve context))

/-- The message that the call leaves, if any. -/
def message? (call : Call) : Option String :=
  match call.formatter? with
  | none => some ("unknown formatter '" ++ call.name ++ "'")
  | some f =>
    if f.isReduction then
      some ("aggregation formatter '" ++ call.name ++ "' is only valid once in a [] tag")
    else
      none

end Call

/-- The value after all calls. -/
def applyCalls (context : Json) (calls : List Call) (value : Value) : Value :=
  calls.foldl (Call.apply context) value

/-- The messages of all calls. -/
def callMessages (calls : List Call) : List String :=
  calls.filterMap Call.message?

end TagTemplate
