import TagTemplate.Json.Document

/-!
# `TagTemplate.Json.Reader`: reading JSON text

`Document.ofText?` reads a text that holds one JSON value and blanks around it.
It checks the grammar alone: literals are kept as they are written, and a
string with half a surrogate pair is kept as one that is no text. What such
parts mean is decided where the document is used, so a part that nobody looks
at cannot fail.

The reader goes down the text with a bound on the number of its steps. Every
second step takes a character, so twice the length of the text is enough.
-/

set_option autoImplicit false

namespace TagTemplate.Json.Document

/-- Blanks between the parts of a document: space, tab, line feed and carriage
return. -/
def isBlank (c : Char) : Bool :=
  c = ' ' || c = '\n' || c = '\t' || c = '\r'

/-- The text after its leading blanks. -/
def skipBlanks (text : List Char) : List Char :=
  text.dropWhile isBlank

/-- The value of a hexadecimal digit. -/
def hexDigit? (c : Char) : Option Nat :=
  if '0' ≤ c ∧ c ≤ '9' then some (c.toNat - '0'.toNat)
  else if 'a' ≤ c ∧ c ≤ 'f' then some (c.toNat - 'a'.toNat + 10)
  else if 'A' ≤ c ∧ c ≤ 'F' then some (c.toNat - 'A'.toNat + 10)
  else none

/-- Four hexadecimal digits at the head of a text, and the rest. -/
def hexUnit? : List Char → Option (Nat × List Char)
  | a :: b :: c :: d :: rest => do
    let a ← hexDigit? a
    let b ← hexDigit? b
    let c ← hexDigit? c
    let d ← hexDigit? d
    return (((a * 16 + b) * 16 + c) * 16 + d, rest)
  | _ => none

/-- The character that a one-letter escape stands for. -/
def escaped? (c : Char) : Option Char :=
  if c = '"' || c = '\\' || c = '/' then some c
  else if c = 'b' then some '\x08'
  else if c = 'f' then some '\x0c'
  else if c = 'n' then some '\n'
  else if c = 'r' then some '\r'
  else if c = 't' then some '\t'
  else none

/-- A part of a string: a character, or a UTF-16 unit that an escape names and
that is half of a surrogate pair. -/
inductive StringPart where
  | character (c : Char)
  | surrogate (unit : Nat)

/-- A UTF-16 unit as a part of a string. -/
def StringPart.ofUnit (unit : Nat) : StringPart :=
  if 0xD800 ≤ unit ∧ unit ≤ 0xDFFF then .surrogate unit else .character (Char.ofNat unit)

/-- The first part of the rest of a string; `none` at the closing quote. The
outer `none` means that the text goes against the grammar. -/
def stringPart? : List Char → Option (Option StringPart × List Char)
  | [] => none
  | '"' :: rest => some (none, rest)
  | '\\' :: 'u' :: rest => (hexUnit? rest).map fun (unit, rest) => (some (.ofUnit unit), rest)
  | '\\' :: c :: rest => (escaped? c).map fun c => (some (.character c), rest)
  | c :: rest => if c.toNat < 0x20 ∨ c = '\\' then none else some (some (.character c), rest)

/-- The parts of a string up to its closing quote, and what follows. -/
def stringParts? : (steps : Nat) → List Char → Option (List StringPart × List Char)
  | 0, _ => none
  | steps + 1, text =>
    match stringPart? text with
    | none => none
    | some (none, rest) => some ([], rest)
    | some (some part, rest) =>
      (stringParts? steps rest).map fun (parts, rest) => (part :: parts, rest)

/-- The character of a surrogate pair. -/
def pairCharacter (high low : Nat) : Char :=
  Char.ofNat (0x10000 + (high - 0xD800) * 0x400 + (low - 0xDC00))

/-- The characters of a string, if its surrogates stand in pairs. -/
def characters? : List StringPart → Option (List Char)
  | [] => some []
  | .character c :: parts => (characters? parts).map (c :: ·)
  | .surrogate high :: .surrogate low :: parts =>
    if high < 0xDC00 ∧ 0xDC00 ≤ low then
      (characters? parts).map (pairCharacter high low :: ·)
    else
      none
  | .surrogate _ :: _ => none

/-- A string after its opening quote, and what follows it. -/
def readString? (steps : Nat) (text : List Char) : Option (Option String × List Char) :=
  (stringParts? steps text).map fun (parts, rest) =>
    ((characters? parts).map String.ofList, rest)

/-- A character that can stand in a number. -/
def isNumberCharacter (c : Char) : Bool :=
  c.isDigit || c = '-' || c = '+' || c = '.' || c = 'e' || c = 'E'

/-- The rest of a text that begins with a word. -/
def afterWord? : List Char → List Char → Option (List Char)
  | [], text => some text
  | w :: word, c :: text => if w = c then afterWord? word text else none
  | _ :: _, [] => none

mutual

/-- A value at the head of a text, and what follows it. -/
def readValue? : (steps : Nat) → List Char → Option (Document × List Char)
  | 0, _ => none
  | steps + 1, text =>
    match skipBlanks text with
    | [] => none
    | '"' :: rest => (readString? steps rest).map fun (s, rest) => (.string s, rest)
    | '[' :: rest =>
      match skipBlanks rest with
      | ']' :: rest => some (.array [], rest)
      | rest => (readElements? steps rest).map fun (ds, rest) => (.array ds, rest)
    | '{' :: rest =>
      match skipBlanks rest with
      | '}' :: rest => some (.object [], rest)
      | rest => (readMembers? steps rest).map fun (ds, rest) => (.object ds, rest)
    | 'n' :: rest => (afterWord? ['u', 'l', 'l'] rest).map fun rest => (.null, rest)
    | 't' :: rest => (afterWord? ['r', 'u', 'e'] rest).map fun rest => (.boolean true, rest)
    | 'f' :: rest => (afterWord? ['a', 'l', 's', 'e'] rest).map fun rest => (.boolean false, rest)
    | rest =>
      let literal := rest.takeWhile isNumberCharacter
      if (Numeral.ofText? literal).isSome then
        some (.number (String.ofList literal), rest.dropWhile isNumberCharacter)
      else
        none

/-- The elements of an array up to its closing bracket, and what follows. -/
def readElements? : (steps : Nat) → List Char → Option (List Document × List Char)
  | 0, _ => none
  | steps + 1, text => do
    let (first, rest) ← readValue? steps text
    match skipBlanks rest with
    | ',' :: rest =>
      let (others, rest) ← readElements? steps rest
      return (first :: others, rest)
    | ']' :: rest => return ([first], rest)
    | _ => none

/-- The members of an object up to its closing brace, and what follows. -/
def readMembers? : (steps : Nat) → List Char → Option (List (Option String × Document) × List Char)
  | 0, _ => none
  | steps + 1, text =>
    match skipBlanks text with
    | '"' :: rest => do
      let (key, rest) ← readString? steps rest
      match skipBlanks rest with
      | ':' :: rest =>
        let (first, rest) ← readValue? steps rest
        match skipBlanks rest with
        | ',' :: rest =>
          let (others, rest) ← readMembers? steps rest
          return ((key, first) :: others, rest)
        | '}' :: rest => return ([(key, first)], rest)
        | _ => none
      | _ => none
    | _ => none

end

/-- The document that a text holds. -/
def ofText? (text : String) : Option Document :=
  match readValue? (2 * text.length + 2) text.toList with
  | some (d, rest) => if (skipBlanks rest).isEmpty then some d else none
  | none => none

end TagTemplate.Json.Document

namespace TagTemplate.Json

/-- The data tree that a text holds. -/
def ofText? (text : String) : Option Json := do
  let d ← Document.ofText? text
  d.toJson? nestingLimit

end TagTemplate.Json
