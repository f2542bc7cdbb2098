import TagTemplate.Json.Printer

/-!
# `TagTemplate.Value.Basic`: the values that tags resolve to

A tag resolves to a truth value, a number or a text, or to nothing. Data that
is a container becomes its compact JSON text; null and empty containers become
nothing, and so does a result that is no finite number.
-/

set_option autoImplicit false

namespace TagTemplate

/-- A resolved value. -/
inductive Value where
  /-- The path leads nowhere, or an operation has no result. -/
  | missing
  | boolean (value : Bool)
  | number (value : Binary64)
  | text (value : String)
  deriving DecidableEq

namespace Value

/-- A number, when it is finite. -/
def ofBinary64 (x : Binary64) : Value :=
  if x.isFinite then number x else missing

/-- A number that an operation may lack. -/
def ofBinary64? : Option Binary64 → Value
  | some x => ofBinary64 x
  | none => missing

/-- The value of a node of the data. -/
def ofJson : Json → Value
  | .null => missing
  | .boolean b => boolean b
  | .number n => ofBinary64 n.toBinary64
  | .string s => text s
  | .array [] => missing
  | .object [] => missing
  | container => text container.compact

/-- The value of a node that may be absent. -/
def ofJson? : Option Json → Value
  | some j => ofJson j
  | none => missing

/-- The value is nothing. -/
def isMissing : Value → Bool
  | missing => true
  | _ => false

end Value

end TagTemplate
