import TagTemplate.Template.Fault

/-!
# `TagTemplate.Template.Split`: cutting a text at separators

`splitAt` cuts at every separator. `splitTopLevel?` cuts at the separators
outside parentheses and quotes, and fails where those do not close. Inside
quotes a backslash takes the next character with it.
-/

set_option autoImplicit false

namespace TagTemplate.Template

/-- Puts a character at the head of the first part. -/
def extendFirst (c : Char) : List (List Char) → List (List Char)
  | [] => [[c]]
  | part :: parts => (c :: part) :: parts

/-- The parts of a text between separators, at least one. -/
def splitAt (separator : Char) : List Char → List (List Char)
  | [] => [[]]
  | c :: cs =>
    if c = separator then [] :: splitAt separator cs else extendFirst c (splitAt separator cs)

/-- The parts of the rest of a text, inside `depth` parentheses and perhaps
inside a quotation. -/
def splitFrom (separator : Char) (depth : Nat) (quote : Option Char) :
    List Char → Except Fault (List (List Char))
  | [] =>
    if quote.isSome then .error .unterminatedString
    else if depth ≠ 0 then .error .unbalancedOpening
    else .ok [[]]
  | c :: cs =>
    match quote with
    | some q =>
      if c = '\\' then
        match cs with
        | [] => .error .unterminatedString
        | d :: rest =>
          (splitFrom separator depth quote rest).map fun parts =>
            extendFirst c (extendFirst d parts)
      else
        (splitFrom separator depth (if c = q then none else quote) cs).map (extendFirst c)
    | none =>
      if c = '"' ∨ c = '\'' then (splitFrom separator depth (some c) cs).map (extendFirst c)
      else if c = '(' then (splitFrom separator (depth + 1) none cs).map (extendFirst c)
      else if c = ')' then
        match depth with
        | 0 => .error .unbalancedClosing
        | depth + 1 => (splitFrom separator depth none cs).map (extendFirst c)
      else if c = separator ∧ depth = 0 then
        (splitFrom separator depth none cs).map ([] :: ·)
      else
        (splitFrom separator depth none cs).map (extendFirst c)

/-- The parts of a text between the separators outside parentheses and
quotes. -/
def splitTopLevel? (separator : Char) (text : List Char) : Except Fault (List (List Char)) :=
  splitFrom separator 0 none text

end TagTemplate.Template
