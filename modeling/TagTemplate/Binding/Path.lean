import TagTemplate.Template.Tag

/-!
# `TagTemplate.Binding.Path`: following paths into data

`Json.follow?` goes down a path of field names; the empty name stays where it
is. A marked path leads to an array first, and from an element of it goes on
along the rest of the path.
-/

set_option autoImplicit false

namespace TagTemplate

namespace Json

/-- The node at the end of a path; `none` where a step leads through something
other than an object or to an absent field. -/
def follow? (data : Json) : List String → Option Json
  | [] => some data
  | name :: names => if name = "" then data.follow? names else do (← data.member? name).follow? names

end Json

namespace Expression

/-- The path up to a marked segment, that segment included. -/
def arrayPath (e : Expression) (marker : Marker) : List String :=
  e.path.take (marker.segment + 1)

/-- The path after a marked segment. -/
def elementPath (e : Expression) (marker : Marker) : List String :=
  e.path.drop (marker.segment + 1)

/-- The elements of the array under a marker; none if there is no array. -/
def elements (e : Expression) (marker : Marker) (data : Json) : List Json :=
  ((data.follow? (e.arrayPath marker)).bind Json.elements?).getD []

/-- The value that an element has at the end of the path. -/
def elementValue (e : Expression) (marker : Marker) (element : Json) : Value :=
  Value.ofJson? (element.follow? (e.elementPath marker))

/-- The value at the end of a path that picks at most one element. A repeating
or reducing marker picks none. -/
def baseValue (e : Expression) (data : Json) : Value :=
  match e.marker with
  | none => Value.ofJson? (data.follow? e.path)
  | some marker =>
    match marker.index with
    | .direct position =>
      match (e.elements marker data)[position]? with
      | some element => e.elementValue marker element
      | none => .missing
    | _ => .missing

end Expression

end TagTemplate
