import TagTemplate.Value.Basic

/-!
# `TagTemplate.Template.Tag`: tags and what they say

A tag binds a place of a template to data. Its *expression* is a path into the
data, at most one array marker on a segment of the path, and a chain of
formatter calls. The marker `[n]` picks one element of an array, `[i]` repeats
for each element, and `[]` reduces all elements to one value.
-/

set_option autoImplicit false

namespace TagTemplate

/-- What stands between the brackets of an array marker. -/
inductive Index where
  /-- One element, counted from zero. -/
  | direct (position : Nat)
  /-- Each element in turn. -/
  | iterate
  /-- All elements, to be reduced. -/
  | aggregate
  deriving DecidableEq

/-- An array marker on a segment of a path. -/
structure Marker where
  /-- The position of the segment in the path. -/
  segment : Nat
  index : Index
  deriving DecidableEq

/-- A parameter of a formatter call. -/
inductive Parameter where
  | literal (value : Value)
  /-- The value at a path from the data that the tag is evaluated on. -/
  | dynamic (path : List String)
  deriving DecidableEq

/-- A formatter call of a chain. -/
structure Call where
  name : String
  parameters : List Parameter
  deriving DecidableEq

/-- What a tag says. -/
structure Expression where
  /-- The names of the fields on the way. The empty name stays where it is. -/
  path : List String
  marker : Option Marker
  /-- The formatter calls, the first to be applied first. -/
  calls : List Call
  deriving DecidableEq

/-- A stretch of a text from one byte offset up to another. -/
structure Span where
  start : Nat
  stop : Nat
  deriving DecidableEq

/-- A tag of a template. -/
structure Tag extends Expression where
  id : String
  /-- The text of the tag with its braces. -/
  raw : String
  /-- Where the tag stands in the template. -/
  span : Span
  deriving DecidableEq

namespace Expression

/-- The tag repeats for each element of an array. -/
def isIterate (e : Expression) : Bool :=
  match e.marker with
  | some ⟨_, .iterate⟩ => true
  | _ => false

/-- The tag reduces the elements of an array. -/
def isAggregate (e : Expression) : Bool :=
  match e.marker with
  | some ⟨_, .aggregate⟩ => true
  | _ => false

/-- The dotted path of the array that the marker stands on. Tags that walk one
array have one key. -/
def arrayKey? (e : Expression) : Option String :=
  e.marker.map fun marker => ".".intercalate (e.path.take (marker.segment + 1))

end Expression

end TagTemplate
