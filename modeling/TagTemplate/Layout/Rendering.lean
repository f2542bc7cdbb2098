import TagTemplate.Binding.Evaluate
import TagTemplate.Layout.Region

/-!
# `TagTemplate.Layout.Rendering`: putting values into a template

Outside the regions that repeat, the content is copied once with each tag
replaced by its value. A region is copied once for each element of the longest
array that its tags walk; in copy `k` a repeating tag has its `k`-th value,
which is missing past the end of a shorter array. A region without a line feed
of its own at its end gets a line break between its copies.

Text that replaces a tag is never looked at again.
-/

set_option autoImplicit false

namespace TagTemplate

/-- A rendered template. -/
structure Rendering where
  text : String
  /-- The identifier of the template. -/
  templateId : String
  /-- The warnings of the parse, then those of the evaluation, in words. -/
  warnings : List String
  deriving DecidableEq

/-- The number of bytes of the rendered text. -/
def Rendering.size (r : Rendering) : Nat :=
  r.text.utf8ByteSize

namespace Layout

open Text

/-- The tags that lie inside a span. -/
def tagsWithin (tags : List Tag) (span : Span) : List Tag :=
  tags.filter fun tag => span.start ≤ tag.span.start && tag.span.stop ≤ span.stop

/-- The content from a cursor up to a stop, with each of the listed tags
replaced. -/
def fillFrom? (content : List Char) (valueOf : Tag → String) (stop cursor : Nat) :
    List Tag → Option (List Char)
  | [] => slice? content cursor stop
  | tag :: tags => do
    let literal ← slice? content cursor tag.span.start
    let rest ← fillFrom? content valueOf stop tag.span.stop tags
    return literal ++ (valueOf tag).toList ++ rest

/-- The content of a span with each tag in it replaced. -/
def fill? (t : ParsedTemplate) (valueOf : Tag → String) (span : Span) : Option (List Char) :=
  fillFrom? t.content.toList valueOf span.stop span.start (tagsWithin t.tags span)

/-- The text of a tag outside the regions that repeat. -/
def singleText (r : Resolved) (tag : Tag) : String :=
  (r.single tag.id).render

/-- The text of a tag in the copy of a region for an element. -/
def elementText (r : Resolved) (position : Nat) (tag : Tag) : String :=
  if tag.isIterate then (r.element tag.id position).render else singleText r tag

/-- The text has a carriage return before a line feed. -/
def hasCarriageReturn : List Char → Bool
  | [] => false
  | c :: rest => (c == '\r' && rest.head? == some '\n') || hasCarriageReturn rest

/-- The line break that a text uses. -/
def lineBreak (content : List Char) : List Char :=
  if hasCarriageReturn content then ['\r', '\n'] else ['\n']

/-- The number of copies of a region: the greatest element count of its
repeating tags. -/
def copyCount (t : ParsedTemplate) (r : Resolved) (region : Span) : Nat :=
  let repeating := (tagsWithin t.tags region).filter (·.isIterate)
  repeating.foldl (fun count tag => max count (r.elementCount tag.id)) 0

/-- What stands between the copies of a region. -/
def separator? (content : List Char) (region : Span) : Option (List Char) := do
  let text ← slice? content region.start region.stop
  return if text.getLast? = some '\n' then [] else lineBreak content

/-- The copies of a region, joined. -/
def copies? (t : ParsedTemplate) (r : Resolved) (region : Span) : Option (List Char) := do
  let separator ← separator? t.content.toList region
  let copies ← (List.range (copyCount t r region)).mapM fun position =>
    fill? t (elementText r position) region
  return separator.intercalate copies

/-- The rendered content from a cursor on, given the regions after it. -/
def renderFrom? (t : ParsedTemplate) (r : Resolved) (cursor : Nat) :
    List Span → Option (List Char)
  | [] => fill? t (singleText r) ⟨cursor, byteCount t.content.toList⟩
  | region :: regions => do
    let between ← fill? t (singleText r) ⟨cursor, region.start⟩
    let copies ← copies? t r region
    let rest ← renderFrom? t r region.stop regions
    return between ++ copies ++ rest

/-- The rendered content. -/
def renderText? (t : ParsedTemplate) (r : Resolved) : Option (List Char) := do
  let regions ← repeatRegions? t
  renderFrom? t r 0 regions

end Layout

namespace ParsedTemplate

/-- The template with the given values in the place of its tags. It is `none` if
the spans of the tags do not fit the content, which cannot be of a template that
was parsed here. -/
def render? (t : ParsedTemplate) (r : Resolved) : Option Rendering :=
  (Layout.renderText? t r).map fun text =>
    { text := String.ofList text
      templateId := t.id
      warnings := t.warnings.map Template.Warning.display ++ r.warnings.map Resolved.Warning.display }

end ParsedTemplate

end TagTemplate
