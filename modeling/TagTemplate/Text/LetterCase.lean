import TagTemplate.Unicode.CaseMapping
import TagTemplate.Unicode.Cased

/-!
# `TagTemplate.Text.LetterCase`: upper and lower case of a text

`toUpper` maps each character on its own. `toLower` does so too, except that a
capital sigma at the end of a word becomes the final small sigma: the nearest
character before it that is not case-ignorable has case, and the nearest one
after it has not.
-/

set_option autoImplicit false

namespace TagTemplate.Text

open Unicode

/-- The first character of the list that is not case-ignorable has case. -/
def meetsCasedLetter (cs : List Char) : Bool :=
  match cs.dropWhile isCaseIgnorable with
  | c :: _ => isCased c
  | [] => false

/-- The lower case of one character between its neighbours; `before` lists the
characters that precede it, the nearest first. -/
def lowerInContext (before : List Char) (c : Char) (after : List Char) : List Char :=
  if c = 'Σ' then
    if meetsCasedLetter before && !meetsCasedLetter after then ['ς'] else ['σ']
  else
    lowerCase c

/-- The lower case of the text that follows `before`. -/
def lowerAfter (before : List Char) : List Char → List Char
  | [] => []
  | c :: after => lowerInContext before c after ++ lowerAfter (c :: before) after

/-- The text in lower case. -/
def toLower (text : String) : String :=
  String.ofList (lowerAfter [] text.toList)

/-- The text in upper case. -/
def toUpper (text : String) : String :=
  String.ofList (text.toList.flatMap upperCase)

/-- The text with its first character in upper case. -/
def capitalize (text : String) : String :=
  match text.toList with
  | [] => ""
  | c :: rest => String.ofList (upperCase c ++ rest)

end TagTemplate.Text
