import TagTemplate.Json.Reader

/-!
# `TagTemplate.Record.Reading`: reading records from documents

A record is written as an object with a member for each field. It is also read
from an array of its fields in order, from which trailing fields may be left
out. A field that is left out has its default value, if it has one. Members
that are no field of the record are passed over, and a field must not be given
twice.

A choice without content is written as its name, or as an object whose only
member has that name and is null. A choice with content is an object whose only
member has the name and the content.
-/

set_option autoImplicit false

namespace TagTemplate.Record

open Json (Document)

/-- The fields that a document gives, each with its name. -/
abbrev Fields := List (String × Document)

/-- The members of an object whose keys are texts. -/
def members? (members : List (Option String × Document)) : Option Fields :=
  members.mapM fun (key, d) => key.map fun key => (key, d)

/-- The fields of a record with the given field names. -/
def fields? (names : List String) : Document → Option Fields
  | .object members => do
    let known := (← members? members).filter fun field => names.contains field.1
    if (known.map (·.1)).Nodup then some known else none
  | .array elements =>
    if elements.length ≤ names.length then some (names.zip elements) else none
  | _ => none

/-- The fields of a record that may have no other members. -/
def exactFields? (names : List String) (d : Document) : Option Fields :=
  match d with
  | .object members =>
    if members.all fun member => names.any fun name => member.1 == some name then
      fields? names d
    else
      none
  | _ => fields? names d

/-- A field that must be given. -/
def required? {α : Type} (fields : Fields) (name : String) (read? : Document → Option α) :
    Option α := do
  read? (← fields.lookup name)

/-- A field that has a default value. -/
def optional? {α : Type} (fields : Fields) (name : String) (default : α)
    (read? : Document → Option α) : Option α :=
  match fields.lookup name with
  | some d => read? d
  | none => some default

/-- A text. -/
def text? : Document → Option String
  | .string text => text
  | _ => none

/-- A truth value. -/
def boolean? : Document → Option Bool
  | .boolean b => some b
  | _ => none

/-- The number of a literal. -/
def number? : Document → Option Json.Number
  | .number literal => do (← Json.Numeral.ofText? literal.toList).value?
  | _ => none

/-- A natural number of 64 bits, written as an integer. -/
def natural? (d : Document) : Option Nat :=
  match number? d with
  | some (.integer n) => if 0 ≤ n then some n.toNat else none
  | _ => none

/-- A list. -/
def list? {α : Type} (read? : Document → Option α) : Document → Option (List α)
  | .array elements => elements.mapM read?
  | _ => none

/-- A dictionary; of members with one key the last counts. -/
def dictionary? {α : Type} (read? : Document → Option α) : Document → Option (Dictionary α)
  | .object members => do
    let entries ← (← members? members).mapM fun (key, d) => (read? d).map fun value => (key, value)
    return Dictionary.ofList entries
  | _ => none

/-- The name of a choice without content. -/
def choice? : Document → Option String
  | .string text => text
  | .object [(some name, .null)] => some name
  | _ => none

/-- The content of a choice of the given name. -/
def content? (name : String) : Document → Option Document
  | .object [(some key, d)] => if key = name then some d else none
  | _ => none

end TagTemplate.Record
