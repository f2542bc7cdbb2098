import TagTemplate.Layout.Rendering
import TagTemplate.Record.Request
import TagTemplate.Store

/-!
# `TagTemplate.Engine`: rendering from template and data to text

An engine has options and, if they say so, a store of parsed templates. Each
operation gives its result and the engine afterwards; only the store can
change. `render` parses a template, resolves its tags and puts the values in.
-/

set_option autoImplicit false

namespace TagTemplate

open Json (Document)

/-- How an engine works. -/
structure Options where
  /-- Parsed templates are kept. -/
  cacheEnabled : Bool
  /-- The greatest number of templates that are kept. -/
  cacheCapacity : Nat
  /-- Warnings are logged. -/
  logWarnings : Bool
  deriving DecidableEq

namespace Options

/-- The options that hold unless others are given. -/
def default : Options := ⟨true, 256, true⟩

/-- The options of a document; those that are left out have their defaults. -/
def ofDocument? (d : Document) : Option Options := do
  let fields ← Record.fields? ["cacheEnabled", "cacheCapacity", "logWarnings"] d
  let cacheEnabled ← Record.optional? fields "cacheEnabled" default.cacheEnabled Record.boolean?
  let cacheCapacity ← Record.optional? fields "cacheCapacity" default.cacheCapacity Record.natural?
  let logWarnings ← Record.optional? fields "logWarnings" default.logWarnings Record.boolean?
  return { cacheEnabled, cacheCapacity, logWarnings }

/-- The options whose document a text holds. -/
def ofText? (text : String) : Option Options := do
  ofDocument? (← Document.ofText? text)

end Options

/-- An engine. -/
structure Engine where
  options : Options
  store : Option Store

namespace Engine

/-- An engine with the given options, which has kept nothing yet. -/
def ofOptions (options : Options) : Engine :=
  { options
    store := if options.cacheEnabled then some (Store.empty options.cacheCapacity) else none }

/-- The number of templates that are kept. -/
def cachedTemplates (e : Engine) : Nat :=
  (e.store.map Store.size).getD 0

/-- The parsed form of a template. -/
def parse (e : Engine) (t : Template) : ParsedTemplate × Engine :=
  match e.store with
  | some store =>
    let (found, store) := store.get t
    (found.template, { e with store := some store })
  | none => (t.parse, e)

/-- The values of the tags of a parsed template for some data. -/
def resolve (_ : Engine) (t : ParsedTemplate) (data : Json) : Resolved :=
  t.resolve data

/-- The values of the tags of a template for some data. -/
def process (e : Engine) (t : Template) (data : Json) : Resolved × Engine :=
  let (parsed, e) := e.parse t
  (e.resolve parsed data, e)

/-- The template filled with the data. -/
def render (e : Engine) (t : Template) (data : Json) : Option Rendering × Engine :=
  let (parsed, e) := e.parse t
  (parsed.render? (e.resolve parsed data), e)

/-- The rendering that a request asks for. -/
def renderRequest (e : Engine) (r : Request) : Option Rendering × Engine :=
  e.render r.template r.data

/-- The rendering that the request in a text asks for; `none` if the text holds no
request. -/
def renderText (e : Engine) (text : String) : Option (Option Rendering) × Engine :=
  match Request.ofText? text with
  | some r =>
    let (rendering, e) := e.renderRequest r
    (some rendering, e)
  | none => (none, e)

end Engine

/-- The rendering that a request asks for, by a fresh engine with default
options. -/
def Request.render? (r : Request) : Option Rendering :=
  ((Engine.ofOptions Options.default).renderRequest r).1

end TagTemplate
