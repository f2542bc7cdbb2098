import TagTemplate.Json.Printer
import TagTemplate.Record.Reading
import TagTemplate.Template.Parsed

/-!
# `TagTemplate.Record.Template`: templates and parsed templates as documents

The documents of templates, tags and parsed templates, written with their
members in a fixed order, and read from documents of the same shape.
-/

set_option autoImplicit false

namespace TagTemplate

open Json (Document)

/-- The document of a value: missing is null. -/
def Value.toDocument : Value → Document
  | missing => .null
  | boolean b => .boolean b
  | number x => .number (Json.numberText x)
  | text s => .text s

/-- The value that a document stands for. Containers stand for none. -/
def Value.ofDocument? : Document → Option Value
  | .null => some missing
  | .boolean b => some (boolean b)
  | .string s => s.map Value.text
  | d => (Record.number? d).map fun n => number n.toBinary64

/-- The document of a format: its name. -/
def Format.toDocument (f : Format) : Document :=
  .text f.name

/-- The format that a document names. -/
def Format.ofDocument? (d : Document) : Option Format := do
  Format.exactly? (← Record.choice? d)

namespace Span

/-- The document of a span. -/
def toDocument (s : Span) : Document :=
  .record [("start", .natural s.start), ("end", .natural s.stop)]

/-- The span of a document, which may have no other members. -/
def ofDocument? (d : Document) : Option Span := do
  let fields ← Record.exactFields? ["start", "end"] d
  let start ← Record.required? fields "start" Record.natural?
  let stop ← Record.required? fields "end" Record.natural?
  return ⟨start, stop⟩

end Span

namespace Index

/-- The document of an index. -/
def toDocument : Index → Document
  | direct position => .record [("direct", .natural position)]
  | iterate => .text "iterate"
  | aggregate => .text "aggregate"

/-- The index of a document. -/
def ofDocument? (d : Document) : Option Index :=
  match Record.content? "direct" d with
  | some content => (Record.natural? content).map direct
  | none => do
    let name ← Record.choice? d
    if name = "iterate" then some iterate
    else if name = "aggregate" then some aggregate
    else none

end Index

namespace Marker

/-- The document of a marker. -/
def toDocument (m : Marker) : Document :=
  .record [("segment", .natural m.segment), ("index", m.index.toDocument)]

/-- The marker of a document. -/
def ofDocument? (d : Document) : Option Marker := do
  let fields ← Record.fields? ["segment", "index"] d
  let segment ← Record.required? fields "segment" Record.natural?
  let index ← Record.required? fields "index" Index.ofDocument?
  return ⟨segment, index⟩

/-- The marker of a document; null is no marker. -/
def maybeOfDocument? : Document → Option (Option Marker)
  | .null => some none
  | d => (ofDocument? d).map some

end Marker

namespace Parameter

/-- The document of a parameter. -/
def toDocument : Parameter → Document
  | literal value => .record [("literal", value.toDocument)]
  | dynamic path => .record [("dynamic", .array (path.map Document.text))]

/-- The parameter of a document. -/
def ofDocument? (d : Document) : Option Parameter :=
  match Record.content? "literal" d with
  | some content => (Value.ofDocument? content).map literal
  | none => do
    let content ← Record.content? "dynamic" d
    (Record.list? Record.text? content).map dynamic

end Parameter

namespace Call

/-- The document of a call. -/
def toDocument (c : Call) : Document :=
  .record [("name", .text c.name), ("params", .array (c.parameters.map Parameter.toDocument))]

/-- The call of a document; without parameters unless they are given. -/
def ofDocument? (d : Document) : Option Call := do
  let fields ← Record.fields? ["name", "params"] d
  let name ← Record.required? fields "name" Record.text?
  let parameters ← Record.optional? fields "params" [] (Record.list? Parameter.ofDocument?)
  return ⟨name, parameters⟩

end Call

namespace Tag

/-- The document of a tag. -/
def toDocument (t : Tag) : Document :=
  .record
    [ ("id", .text t.id), ("raw", .text t.raw), ("span", t.span.toDocument),
      ("path", .array (t.path.map Document.text)),
      ("array", (t.marker.map Marker.toDocument).getD .null),
      ("formatters", .array (t.calls.map Call.toDocument)) ]

/-- The tag of a document; without marker and calls unless they are given. -/
def ofDocument? (d : Document) : Option Tag := do
  let fields ← Record.fields? ["id", "raw", "span", "path", "array", "formatters"] d
  let id ← Record.required? fields "id" Record.text?
  let raw ← Record.required? fields "raw" Record.text?
  let span ← Record.required? fields "span" Span.ofDocument?
  let path ← Record.required? fields "path" (Record.list? Record.text?)
  let marker ← Record.optional? fields "array" none Marker.maybeOfDocument?
  let calls ← Record.optional? fields "formatters" [] (Record.list? Call.ofDocument?)
  return { path, marker, calls, id, raw, span }

end Tag

namespace Template

/-- The document of a warning. -/
def Warning.toDocument (w : Warning) : Document :=
  .record [("offset", .natural w.offset), ("raw", .text w.raw), ("message", .text w.message)]

/-- The warning of a document. -/
def Warning.ofDocument? (d : Document) : Option Warning := do
  let fields ← Record.fields? ["offset", "raw", "message"] d
  let offset ← Record.required? fields "offset" Record.natural?
  let raw ← Record.required? fields "raw" Record.text?
  let message ← Record.required? fields "message" Record.text?
  return ⟨offset, raw, message⟩

/-- The document of a template. -/
def toDocument (t : Template) : Document :=
  .record [("content", .text t.content), ("format", t.format.toDocument)]

/-- The template of a document; its format is `txt` unless given. -/
def ofDocument? (d : Document) : Option Template := do
  let fields ← Record.fields? ["content", "format"] d
  let content ← Record.required? fields "content" Record.text?
  let format ← Record.optional? fields "format" Format.txt Format.ofDocument?
  return ⟨content, format⟩

/-- The template whose document a text holds. -/
def ofText? (text : String) : Option Template := do
  ofDocument? (← Document.ofText? text)

end Template

namespace ParsedTemplate

/-- The document of a parsed template. -/
def toDocument (t : ParsedTemplate) : Document :=
  .record
    [ ("id", .text t.id), ("content", .text t.content), ("format", t.format.toDocument),
      ("tags", .array (t.tags.map Tag.toDocument)),
      ("warnings", .array (t.warnings.map Template.Warning.toDocument)) ]

/-- The parsed template of a document; without warnings unless they are given.
Nothing is checked against the content. -/
def ofDocument? (d : Document) : Option ParsedTemplate := do
  let fields ← Record.fields? ["id", "content", "format", "tags", "warnings"] d
  let id ← Record.required? fields "id" Record.text?
  let content ← Record.required? fields "content" Record.text?
  let format ← Record.required? fields "format" Format.ofDocument?
  let tags ← Record.required? fields "tags" (Record.list? Tag.ofDocument?)
  let warnings ← Record.optional? fields "warnings" [] (Record.list? Template.Warning.ofDocument?)
  return { id, content, format, tags, warnings }

/-- The parsed template whose document a text holds. -/
def ofText? (text : String) : Option ParsedTemplate := do
  ofDocument? (← Document.ofText? text)

end ParsedTemplate

end TagTemplate
