import TagTemplate.Binary64.Integral
import TagTemplate.Formatter.Parameters
import TagTemplate.Text.LetterCase
import TagTemplate.Text.Search

/-!
# `TagTemplate.Formatter.Text`: formatters on text

Values that are not texts are written as text first, and nothing stays nothing.
`print` alone answers whatever the value is.
-/

set_option autoImplicit false

namespace TagTemplate.Formatter

open Value (missing text)

/-- Maps the text of a value; nothing stays nothing. -/
def mapText (value : Value) (f : String → String) : Value :=
  if value.isMissing then missing else text (f value.render)

/-- `upperCase`: the text in upper case. -/
def upperCase (value : Value) : Value :=
  mapText value Text.toUpper

/-- `lowerCase`: the text in lower case. -/
def lowerCase (value : Value) : Value :=
  mapText value Text.toLower

/-- `ucFirst`: the text with its first character in upper case. -/
def ucFirst (value : Value) : Value :=
  mapText value Text.capitalize

/-- `trim`: the text without white space at its ends. -/
def trim (value : Value) : Value :=
  mapText value fun s => String.ofList (Text.trim s.toList)

/-- A parameter as a whole number, its fraction dropped, or a default where the
parameter is missing; `none` if it is no number. -/
def wholeParameter? (p : Value) (default : Option Int) : Option (Option Int) :=
  match p with
  | .missing => some default
  | p => p.toNumber?.map Binary64.truncate?

/-- The characters from a start on, at most `length?` of them. A negative start
counts from the end and stops at the beginning. -/
def substring (start : Int) (length? : Option Int) (cs : List Char) : List Char :=
  let rest := if start < 0 then cs.drop (cs.length - start.natAbs) else cs.drop start.toNat
  match length? with
  | some length => rest.take length.toNat
  | none => rest

/-- `substr(start, length)`: a part of the text, counted in characters. The
start is 0 unless given, and without a length the rest is taken. -/
def substr (value : Value) (parameters : List Value) : Value :=
  if value.isMissing then missing
  else
    match wholeParameter? (parameter parameters 0) (some 0),
        wholeParameter? (parameter parameters 1) none with
    | some start, some length =>
      text (String.ofList (substring (start.getD 0) length value.render.toList))
    | _, _ => missing

/-- `replace(search, replacement)`: each occurrence of a text replaced. An empty
search text occurs nowhere. -/
def replace (value : Value) (parameters : List Value) : Value :=
  let search := (parameter parameters 0).render.toList
  let replacement := (parameter parameters 1).render.toList
  mapText value fun s =>
    match search with
    | [] => s
    | first :: more => String.ofList (Text.replaceAll first more replacement s.toList)

/-- `print(text)`: the parameter, whatever the value is. -/
def print (parameters : List Value) : Value :=
  parameter parameters 0

end TagTemplate.Formatter
