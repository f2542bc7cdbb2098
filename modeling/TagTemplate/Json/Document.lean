import TagTemplate.Json.Numeral

/-!
# `TagTemplate.Json.Document`: JSON documents as they are written

A document keeps what a data tree forgets: the order of an object's members,
members with one key, and numbers as their literals. Records are written as
documents, whose members stand in a fixed order, and read from documents, whose
members may stand in any order and must not be repeated.

`toJson?` gives the data tree of a document. It fails on a number beyond the
finite values, on a text with half a surrogate pair, and on containers nested
too deep. `Json.toDocument` writes a data tree.
-/

set_option autoImplicit false

namespace TagTemplate.Json

/-- A document. A string is `none` if an escape in it stands for half a
surrogate pair, so that it is no text. -/
inductive Document where
  | null
  | boolean (value : Bool)
  | number (literal : String)
  | string (text : Option String)
  | array (elements : List Document)
  | object (members : List (Option String × Document))

/-- The number of containers that may be nested in each other. -/
def nestingLimit : Nat := 127

namespace Document

/-- A string that is a text. -/
def text (s : String) : Document :=
  string (some s)

/-- An object with the given members. -/
def record (members : List (String × Document)) : Document :=
  object (members.map fun member => (some member.1, member.2))

/-- A natural number. -/
def natural (n : Nat) : Document :=
  number (toString n)

mutual

/-- The data tree of a document with at most `room` nested containers. -/
def toJson? (room : Nat) : Document → Option Json
  | null => some .null
  | boolean b => some (.boolean b)
  | number literal => do
    let numeral ← Numeral.ofText? literal.toList
    let value ← numeral.value?
    return .number value
  | string text => text.map .string
  | array elements =>
    match room with
    | 0 => none
    | room + 1 => (elementsToJson? room elements).map .array
  | object members =>
    match room with
    | 0 => none
    | room + 1 => (membersToJson? room members).map fun pairs => .object (Dictionary.ofList pairs)

/-- The data trees of the elements of an array. -/
def elementsToJson? (room : Nat) : List Document → Option (List Json)
  | [] => some []
  | d :: ds => do
    let first ← toJson? room d
    let others ← elementsToJson? room ds
    return first :: others

/-- The data trees of the members of an object, each with its key. -/
def membersToJson? (room : Nat) : List (Option String × Document) → Option (List (String × Json))
  | [] => some []
  | (key, d) :: ds => do
    let key ← key
    let first ← toJson? room d
    let others ← membersToJson? room ds
    return (key, first) :: others

end

mutual

/-- The document with each object's members in the order of their keys, of
members with one key only the last. -/
def settle : Document → Document
  | array elements => array (settleElements elements)
  | object members =>
    object ((Dictionary.ofList (settleMembers members)).map fun (key, d) => (some key, d))
  | d => d

/-- Settles the elements of an array. -/
def settleElements : List Document → List Document
  | [] => []
  | d :: ds => settle d :: settleElements ds

/-- Settles the members of an object whose keys are texts. -/
def settleMembers : List (Option String × Document) → List (String × Document)
  | [] => []
  | (some key, d) :: ds => (key, settle d) :: settleMembers ds
  | (none, _) :: ds => settleMembers ds

end

end Document

end TagTemplate.Json
