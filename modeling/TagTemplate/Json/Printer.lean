import TagTemplate.Binary64.Shortest
import TagTemplate.Json.Document

/-!
# `TagTemplate.Json.Printer`: writing JSON text

`Document.compact` writes a document without blanks, `Document.pretty` with one
member or element a line, indented by two spaces for each container around it.
Strings escape the quote, the backslash and the control characters, and nothing
else. `numberText` fixes how a binary64 value is written.
-/

set_option autoImplicit false

namespace TagTemplate.Json

open Binary64

/-- A decimal as a JSON number. With `10 ^ -5 ≤ x < 10 ^ 16` it is written out,
with `.0` after a whole number, and otherwise with one digit before the point
and a signed exponent. -/
def decimalText (d : Binary64.Decimal) : List Char :=
  let ds := digits d.coefficient
  -- The exponent of the first digit.
  let lead : Int := d.exponent + ds.length - 1
  if -5 ≤ lead ∧ lead < 16 then
    if 0 ≤ d.exponent then d.positional ++ ['.', '0'] else d.positional
  else
    let fraction :=
      match ds.drop 1 with
      | [] => []
      | more => '.' :: more
    let sign := if lead < 0 then '-' else '+'
    ds.take 1 ++ fraction ++ 'e' :: sign :: digits lead.natAbs

/-- A binary64 value as a JSON number: the fewest digits that read back, and of
two equally near the even one. A value that is not finite has no number and is
written as null. -/
def numberText : Binary64 → String
  | .finite negative rank =>
    let text := decimalText (shortest .toEven rank)
    String.ofList (if negative then '-' :: text else text)
  | _ => "null"

/-- The literal of a number of a data tree. -/
def Number.literal : Number → String
  | .integer n => toString n
  | .decimal x => numberText x

mutual

/-- The document that writes a data tree. -/
def toDocument : Json → Document
  | .null => .null
  | .boolean b => .boolean b
  | .number n => .number n.literal
  | .string s => .text s
  | .array elements => .array (elementDocuments elements)
  | .object members => .object (memberDocuments members)

/-- The documents of the elements of an array. -/
def elementDocuments : List Json → List Document
  | [] => []
  | j :: js => toDocument j :: elementDocuments js

/-- The documents of the members of an object. -/
def memberDocuments : List (String × Json) → List (Option String × Document)
  | [] => []
  | (key, j) :: js => (some key, toDocument j) :: memberDocuments js

end

namespace Document

/-- A hexadecimal digit. -/
def hexCharacter (n : Nat) : Char :=
  if n < 10 then Char.ofNat ('0'.toNat + n) else Char.ofNat ('a'.toNat + (n - 10))

/-- A character inside a string. -/
def escape (c : Char) : List Char :=
  if c = '"' then ['\\', '"']
  else if c = '\\' then ['\\', '\\']
  else if c = '\x08' then ['\\', 'b']
  else if c = '\x0c' then ['\\', 'f']
  else if c = '\n' then ['\\', 'n']
  else if c = '\r' then ['\\', 'r']
  else if c = '\t' then ['\\', 't']
  else if c.toNat < 0x20 then
    ['\\', 'u', '0', '0', hexCharacter (c.toNat / 16), hexCharacter (c.toNat % 16)]
  else [c]

/-- A text as a JSON string. -/
def quoted (text : List Char) : List Char :=
  '"' :: text.flatMap escape ++ ['"']

/-- A string of a document; one that is no text is written as an empty one. -/
def stringText (text : Option String) : List Char :=
  quoted (text.getD "").toList

mutual

/-- The document without blanks. -/
def compactText : Document → List Char
  | null => ['n', 'u', 'l', 'l']
  | boolean true => ['t', 'r', 'u', 'e']
  | boolean false => ['f', 'a', 'l', 's', 'e']
  | number literal => literal.toList
  | string text => stringText text
  | array [] => ['[', ']']
  | array (d :: ds) => '[' :: compactText d ++ compactElements ds
  | object [] => ['{', '}']
  | object ((key, d) :: ds) => '{' :: stringText key ++ ':' :: compactText d ++ compactMembers ds

/-- The elements after the first, and the closing bracket. -/
def compactElements : List Document → List Char
  | [] => [']']
  | d :: ds => ',' :: compactText d ++ compactElements ds

/-- The members after the first, and the closing brace. -/
def compactMembers : List (Option String × Document) → List Char
  | [] => ['}']
  | (key, d) :: ds => ',' :: stringText key ++ ':' :: compactText d ++ compactMembers ds

end

/-- A line feed and the indentation of a line inside `depth` containers. -/
def newLine (depth : Nat) : List Char :=
  '\n' :: List.replicate (2 * depth) ' '

mutual

/-- The document with a line for each member and element, inside `depth`
containers. -/
def prettyText (depth : Nat) : Document → List Char
  | array (d :: ds) =>
    '[' :: newLine (depth + 1) ++ prettyText (depth + 1) d ++ prettyElements depth ds
  | object ((key, d) :: ds) =>
    '{' :: newLine (depth + 1) ++ stringText key ++ ':' :: ' ' :: prettyText (depth + 1) d
      ++ prettyMembers depth ds
  | d => compactText d

/-- The elements after the first, and the closing bracket. -/
def prettyElements (depth : Nat) : List Document → List Char
  | [] => newLine depth ++ [']']
  | d :: ds =>
    ',' :: newLine (depth + 1) ++ prettyText (depth + 1) d ++ prettyElements depth ds

/-- The members after the first, and the closing brace. -/
def prettyMembers (depth : Nat) : List (Option String × Document) → List Char
  | [] => newLine depth ++ ['}']
  | (key, d) :: ds =>
    ',' :: newLine (depth + 1) ++ stringText key ++ ':' :: ' ' :: prettyText (depth + 1) d
      ++ prettyMembers depth ds

end

/-- The document as text without blanks. -/
def compact (d : Document) : String :=
  String.ofList (compactText d)

/-- The document as text with one member or element a line. -/
def pretty (d : Document) : String :=
  String.ofList (prettyText 0 d)

end Document

/-- The data tree as text without blanks. -/
def compact (j : Json) : String :=
  j.toDocument.compact

end TagTemplate.Json
