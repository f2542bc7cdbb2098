import TagTemplate.Dictionary
import TagTemplate.Value.Basic

/-!
# `TagTemplate.Binding.Resolved`: what the tags of a template resolve to

Each tag has an entry under its identifier: a list of values if it repeats for
the elements of an array, and else a single value. Single values that reduce an
array are kept apart from the others.
-/

set_option autoImplicit false

namespace TagTemplate

/-- A problem found while a tag was evaluated. -/
structure Resolved.Warning where
  tagId : String
  message : String
  deriving DecidableEq

/-- The values of the tags of a template. -/
structure Resolved where
  /-- The values of plain tags and of tags that pick one element. -/
  scalar : Dictionary Value
  /-- The values of repeating tags, one for each element. -/
  perElement : Dictionary (List Value)
  /-- The values of reducing tags. -/
  aggregated : Dictionary Value
  warnings : List Resolved.Warning
  deriving DecidableEq

namespace Resolved

/-- No values. -/
def empty : Resolved := ⟨[], [], [], []⟩

/-- The value of a tag that does not repeat. -/
def single (r : Resolved) (id : String) : Value :=
  ((Dictionary.find? id r.scalar).or (Dictionary.find? id r.aggregated)).getD .missing

/-- The value of a repeating tag for one element, counted from zero. -/
def element (r : Resolved) (id : String) (position : Nat) : Value :=
  ((Dictionary.find? id r.perElement).getD []).getD position .missing

/-- The number of elements for which a tag repeats. -/
def elementCount (r : Resolved) (id : String) : Nat :=
  ((Dictionary.find? id r.perElement).getD []).length

/-- A warning in words. -/
def Warning.display (w : Warning) : String :=
  w.tagId ++ ": " ++ w.message

end Resolved

end TagTemplate
