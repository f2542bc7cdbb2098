import TagTemplate.Binding.Resolved
import TagTemplate.Record.Template

/-!
# `TagTemplate.Record.Resolved`: resolved values as documents

The document of the values of a template: a dictionary for each kind of tag,
and the warnings.
-/

set_option autoImplicit false

namespace TagTemplate.Resolved

open Json (Document)

/-- The document of a dictionary. -/
def dictionaryDocument {α : Type} (toDocument : α → Document) (entries : Dictionary α) : Document :=
  .record (entries.map fun (key, value) => (key, toDocument value))

/-- The document of a warning. -/
def Warning.toDocument (w : Warning) : Document :=
  .record [("tag_id", .text w.tagId), ("message", .text w.message)]

/-- The warning of a document. -/
def Warning.ofDocument? (d : Document) : Option Warning := do
  let fields ← Record.fields? ["tag_id", "message"] d
  let tagId ← Record.required? fields "tag_id" Record.text?
  let message ← Record.required? fields "message" Record.text?
  return ⟨tagId, message⟩

/-- The document of resolved values. -/
def toDocument (r : Resolved) : Document :=
  .record
    [ ("scalar", dictionaryDocument Value.toDocument r.scalar),
      ("perElement",
        dictionaryDocument (fun values => .array (values.map Value.toDocument)) r.perElement),
      ("aggregated", dictionaryDocument Value.toDocument r.aggregated),
      ("warnings", .array (r.warnings.map Warning.toDocument)) ]

/-- The resolved values of a document; without warnings unless they are
given. -/
def ofDocument? (d : Document) : Option Resolved := do
  let fields ← Record.fields? ["scalar", "perElement", "aggregated", "warnings"] d
  let scalar ← Record.required? fields "scalar" (Record.dictionary? Value.ofDocument?)
  let perElement ← Record.required? fields "perElement"
    (Record.dictionary? (Record.list? Value.ofDocument?))
  let aggregated ← Record.required? fields "aggregated" (Record.dictionary? Value.ofDocument?)
  let warnings ← Record.optional? fields "warnings" [] (Record.list? Warning.ofDocument?)
  return { scalar, perElement, aggregated, warnings }

/-- The resolved values whose document a text holds. -/
def ofText? (text : String) : Option Resolved := do
  ofDocument? (← Document.ofText? text)

end TagTemplate.Resolved
