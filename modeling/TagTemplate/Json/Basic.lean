import TagTemplate.Binary64.Basic
import TagTemplate.Dictionary

/-!
# `TagTemplate.Json.Basic`: data trees

The data that a template is filled with is a JSON tree. An object keeps its
members in the order of their keys and holds each key once. A number is either
a 64-bit integer, signed or unsigned, or a binary64 value.
-/

set_option autoImplicit false

namespace TagTemplate

/-- A number of a data tree. -/
inductive Json.Number where
  /-- An integer from `-2 ^ 63` up to `2 ^ 64 - 1`. -/
  | integer (value : Int)
  /-- Any other number, and the negative zero. -/
  | decimal (value : Binary64)

/-- The number as a binary64 value; a long integer is rounded to the nearest. -/
def Json.Number.toBinary64 : Json.Number → Binary64
  | .integer n => Binary64.ofInt n
  | .decimal x => x

/-- A data tree. The members of an object form a `Dictionary`. -/
inductive Json where
  | null
  | boolean (value : Bool)
  | number (value : Json.Number)
  | string (text : String)
  | array (elements : List Json)
  | object (members : List (String × Json))

namespace Json

/-- The member of an object under a key; nothing else has members. -/
def member? (key : String) : Json → Option Json
  | object members => Dictionary.find? key members
  | _ => none

/-- The elements of an array; nothing else has elements. -/
def elements? : Json → Option (List Json)
  | array elements => some elements
  | _ => none

end Json

end TagTemplate
