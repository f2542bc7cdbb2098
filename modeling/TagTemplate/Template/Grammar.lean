import TagTemplate.Template.Split
import TagTemplate.Template.Tag
import TagTemplate.Text.Blank
import TagTemplate.Text.Search
import TagTemplate.Unicode.Alphabetic
import TagTemplate.Unicode.Numeric
import TagTemplate.Value.NumberText

/-!
# `TagTemplate.Template.Grammar`: reading what a tag says

The text between the braces of a tag is a path and formatter calls, separated
by colons: `d.items[i].price:mul(.quantity):round(2)`. `Expression.ofText?`
reads it, or says what is wrong. The first fault counts, from the cut at the
colons over the path to the calls in their order.
-/

set_option autoImplicit false

namespace TagTemplate.Template

/-- The text without its last character, if that is the given one. -/
def before? (last : Char) (text : List Char) : Option (List Char) :=
  if text.getLast? = some last then some text.dropLast else none

/-- A character that a name can start with. -/
def isNameStart (c : Char) : Bool :=
  Unicode.isAlphabetic c || c = '_' || c = '$'

/-- A character that a name can go on with. -/
def isNamePart (c : Char) : Bool :=
  Unicode.isAlphabetic c || Unicode.isNumeric c || c = '_' || c = '$' || c = '-'

/-- The text is a name: a letter, `_` or `$`, then letters, digits, `_`, `$` and
`-`. -/
def isName : List Char → Bool
  | [] => false
  | c :: cs => isNameStart c && cs.all isNamePart

/-- The greatest position that an index can have. -/
def indexLimit : Nat := Nat.pow 2 64 - 1

/-- The text between the brackets of an array marker. -/
def readIndex? (text : List Char) : Except Fault Index :=
  let trimmed := Text.trim text
  if trimmed = [] then .ok .aggregate
  else if trimmed = ['i'] then .ok .iterate
  else if trimmed.all Char.isDigit then
    let position := Binary64.digitsValue trimmed
    if position ≤ indexLimit then .ok (.direct position)
    else .error (.indexOutOfRange (String.ofList trimmed))
  else .error (.unsupportedIndex (String.ofList trimmed))

/-- A segment of a path: the name before a bracket and the marker in it. -/
def readSegment? (piece : List Char) : Except Fault (List Char × Option Index) :=
  let name := piece.takeWhile (· ≠ '[')
  match piece.dropWhile (· ≠ '[') with
  | [] => .ok (name, none)
  | _ :: bracket =>
    match before? ']' bracket with
    | none => .error (.unclosedIndex (String.ofList piece))
    | some index => (readIndex? index).map fun index => (name, some index)

/-- The segments of a path from a position on. The first segment may lack its
name if it has a marker; only one segment may have one. -/
def readSegments? (position : Nat) (marker : Option Marker) :
    List (List Char) → Except Fault (List String × Option Marker)
  | [] => .ok ([], marker)
  | piece :: pieces => do
    let (name, index) ← readSegment? piece
    let indexesRoot := position = 0 ∧ name = [] ∧ index.isSome
    if ¬ indexesRoot ∧ !isName name then
      .error (.invalidSegment (String.ofList piece))
    else
      match index, marker with
      | some _, some _ => .error .severalIndices
      | index, marker =>
        let marker := (index.map (Marker.mk position)).or marker
        let (names, marker) ← readSegments? (position + 1) marker pieces
        return (String.ofList name :: names, marker)

/-- A path without its root: `d` alone is the root, and `d` may stand before a
point or a bracket. `none` if nothing is left to be read. -/
def afterRoot? (text : List Char) : Option (List Char) :=
  match text with
  | ['d'] => none
  | 'd' :: '.' :: rest => some rest
  | 'd' :: '[' :: rest => some ('[' :: rest)
  | _ => some text

/-- The path of a tag. -/
def readPath? (text : List Char) : Except Fault (List String × Option Marker) :=
  match afterRoot? text with
  | none => .ok ([], none)
  | some [] => .error .emptyPath
  | some rest => readSegments? 0 none (splitAt '.' rest)

/-- The text inside a quotation, in which a backslash stands before a character
that is meant as it is. A backslash at the end stands for nothing. -/
def unescape : List Char → List Char
  | [] => []
  | ['\\'] => []
  | '\\' :: c :: rest => c :: unescape rest
  | c :: rest => c :: unescape rest

/-- A parameter that begins with a quote must end with the same quote. -/
def readQuoted? (quote : Char) (text rest : List Char) : Except Fault Parameter :=
  match before? quote rest with
  | some body => .ok (.literal (.text (String.ofList (unescape body))))
  | none => .error (.unterminatedParameter (String.ofList text))

/-- A parameter that begins with a point is a path. -/
def readDynamic? (text rest : List Char) : Except Fault Parameter :=
  let names := splitAt '.' rest
  if names.all isName then .ok (.dynamic (names.map String.ofList))
  else .error (.invalidDynamicParameter (String.ofList text))

/-- A parameter that is no quotation: a truth value, a number, a path, or a word
that is taken as text. -/
def readBare? (text : List Char) : Except Fault Parameter :=
  if text = ['t', 'r', 'u', 'e'] then .ok (.literal (.boolean true))
  else if text = ['f', 'a', 'l', 's', 'e'] then .ok (.literal (.boolean false))
  else
    match Value.parseNumber? text with
    | some x => .ok (.literal (.number x))
    | none =>
      match text with
      | '.' :: rest => readDynamic? text rest
      | _ =>
        if text.any fun c => c = '"' || c = '\'' || c = '(' || c = ')' then
          .error (.invalidParameter (String.ofList text))
        else
          .ok (.literal (.text (String.ofList text)))

/-- A parameter of a call. -/
def readParameter? (text : List Char) : Except Fault Parameter :=
  match Text.trim text with
  | [] => .error .emptyParameter
  | c :: rest => if c = '"' ∨ c = '\'' then readQuoted? c (c :: rest) rest else readBare? (c :: rest)

/-- The parameters between the parentheses of a call. -/
def readParameters? (text : List Char) : Except Fault (List Parameter) := do
  if (Text.trim text).isEmpty then
    return []
  let parts ← splitTopLevel? ',' text
  parts.mapM readParameter?

/-- A formatter call: a name, perhaps with parameters in parentheses. -/
def readCall? (text : List Char) : Except Fault Call := do
  let call := Text.trimEnd text
  let name := call.takeWhile (· ≠ '(')
  let inside ←
    match call.dropWhile (· ≠ '(') with
    | [] => pure none
    | _ :: rest =>
      match before? ')' rest with
      | some inside => pure (some inside)
      | none => throw (.missingParenthesis (String.ofList call))
  if !isName name then
    throw (.invalidName (String.ofList name))
  let parameters ←
    match inside with
    | some inside => readParameters? inside
    | none => pure []
  return ⟨String.ofList name, parameters⟩

end TagTemplate.Template

namespace TagTemplate

/-- What the text between the braces of a tag says. -/
def Expression.ofText? (inner : List Char) : Except Fault Expression := do
  let trimmed := Text.trim inner
  if trimmed.isEmpty then
    throw .emptyTag
  let parts ← Template.splitTopLevel? ':' trimmed
  let (path, marker) ← Template.readPath? (Text.trim (parts.headD []))
  let calls ← parts.tail.mapM Template.readCall?
  return ⟨path, marker, calls⟩

end TagTemplate
