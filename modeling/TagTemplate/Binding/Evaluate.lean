import TagTemplate.Binding.Chain
import TagTemplate.Binding.Resolved
import TagTemplate.Template.Parsed

/-!
# `TagTemplate.Binding.Evaluate`: filling the tags of a template from data

Evaluation cannot fail. A plain tag has the value at its path, put through its
chain. A repeating tag has one such value for each element of its array, with
the element as the context. A reducing tag splits its chain at the first
reducing formatter: the calls before it are applied to each element, the
formatter reduces the values that are not missing, and the calls after it are
applied to the result.

Every message becomes a warning of its tag, and a tag gives the same warning
once.
-/

set_option autoImplicit false

namespace TagTemplate

namespace Expression

/-- The value of a tag that does not repeat or reduce. -/
def scalarValue (e : Expression) (data : Json) : Value :=
  applyCalls data e.calls (e.baseValue data)

/-- The value that a chain gives for one element of the array. -/
def valueAt (e : Expression) (marker : Marker) (calls : List Call) (element : Json) : Value :=
  applyCalls element calls (e.elementValue marker element)

/-- The values of a repeating tag. -/
def iteratedValues (e : Expression) (marker : Marker) (data : Json) : List Value :=
  (e.elements marker data).map (e.valueAt marker e.calls)

/-- The calls before the first reducing formatter. -/
def callsBefore (e : Expression) : List Call :=
  e.calls.takeWhile fun call => !call.reduces

/-- The calls from the first reducing formatter on. -/
def callsFrom (e : Expression) : List Call :=
  e.calls.dropWhile fun call => !call.reduces

/-- The message of a reducing tag without a reducing formatter. -/
def noReductionMessage : String :=
  "aggregate marker [] without an aggregation formatter"

/-- The value of a reducing tag; missing if its chain reduces nothing. -/
def aggregatedValue (e : Expression) (marker : Marker) (data : Json) : Value :=
  match e.callsFrom with
  | [] => .missing
  | reducer :: after =>
    let values := (e.elements marker data).map (e.valueAt marker e.callsBefore)
    let present := values.filter fun value => !value.isMissing
    let reduced := (reducer.formatter?.bind fun f => f.reduce? present).getD .missing
    applyCalls data after reduced

/-- The messages of a tag, in the order in which they arise. -/
def messages (e : Expression) (data : Json) : List String :=
  match e.marker with
  | some marker =>
    match marker.index with
    | .iterate => (e.elements marker data).flatMap fun _ => callMessages e.calls
    | .aggregate =>
      match e.callsFrom with
      | [] => [noReductionMessage]
      | _ :: after =>
        ((e.elements marker data).flatMap fun _ => callMessages e.callsBefore)
          ++ callMessages after
    | .direct _ => callMessages e.calls
  | none => callMessages e.calls

end Expression

namespace Resolved

/-- Adds a warning unless it is there. -/
def warn (tagId : String) (warnings : List Warning) (message : String) : List Warning :=
  if warnings.contains ⟨tagId, message⟩ then warnings else warnings ++ [⟨tagId, message⟩]

/-- Adds the entry and the warnings of a tag. -/
def addTag (data : Json) (r : Resolved) (tag : Tag) : Resolved :=
  let e := tag.toExpression
  let r := { r with warnings := (e.messages data).foldl (warn tag.id) r.warnings }
  match e.marker with
  | some marker =>
    match marker.index with
    | .iterate =>
      { r with perElement := Dictionary.insert tag.id (e.iteratedValues marker data) r.perElement }
    | .aggregate =>
      { r with aggregated := Dictionary.insert tag.id (e.aggregatedValue marker data) r.aggregated }
    | .direct _ => { r with scalar := Dictionary.insert tag.id (e.scalarValue data) r.scalar }
  | none => { r with scalar := Dictionary.insert tag.id (e.scalarValue data) r.scalar }

end Resolved

/-- The values that the tags of a template have for a data tree. -/
def ParsedTemplate.resolve (t : ParsedTemplate) (data : Json) : Resolved :=
  t.tags.foldl (Resolved.addTag data) Resolved.empty

end TagTemplate
