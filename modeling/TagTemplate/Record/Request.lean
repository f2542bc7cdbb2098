import TagTemplate.Record.Template

/-!
# `TagTemplate.Record.Request`: requests to render a template

A request holds a template and the data to fill it with. Its document has the
data as any JSON value; without data the request has null.
-/

set_option autoImplicit false

namespace TagTemplate

open Json (Document)

/-- A template and the data to fill it with. -/
structure Request where
  template : Template
  data : Json

namespace Request

/-- The document of a request. -/
def toDocument (r : Request) : Document :=
  .record [("template", r.template.toDocument), ("data", r.data.toDocument)]

/-- The request of a document. The document itself is one of the containers that
may be nested. -/
def ofDocument? (d : Document) : Option Request := do
  let fields ← Record.fields? ["template", "data"] d
  let template ← Record.required? fields "template" Template.ofDocument?
  let data ← Record.optional? fields "data" Json.null
    (Document.toJson? (Json.nestingLimit - 1))
  return ⟨template, data⟩

/-- The request whose document a text holds. -/
def ofText? (text : String) : Option Request := do
  ofDocument? (← Document.ofText? text)

end Request

end TagTemplate
