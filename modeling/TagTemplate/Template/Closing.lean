/-!
# `TagTemplate.Template.Closing`: where a tag ends

A tag runs from its opening brace to the first closing brace that is not inside
a quoted parameter. Quotes count only inside parentheses, and inside quotes a
backslash takes the next character with it. Another opening brace on the way
interrupts the tag, and a tag may also run out of text.

`closing` is this rule. A quotation that runs out of text makes each later scan
through the same text run out too, so scanning again and again would take
quadratic time. `OpenQuotes.closing` is the scan that is used: it remembers
where a quotation of each kind ran out, and gives up as soon as a later one of
the same kind begins.
-/

set_option autoImplicit false

namespace TagTemplate.Template

/-- How the scan of a tag ends, with the number of characters before the brace
that ends it. -/
inductive Closing where
  /-- A closing brace ends the tag. -/
  | closed (length : Nat)
  /-- Another opening brace comes first. -/
  | interrupted (length : Nat)
  /-- No brace ends the tag. -/
  | unterminated
  deriving DecidableEq

/-- The same end with `n` more characters before it. -/
def Closing.shift (n : Nat) : Closing → Closing
  | closed length => closed (length + n)
  | interrupted length => interrupted (length + n)
  | unterminated => unterminated

/-- A character that opens a quotation. -/
def isQuote (c : Char) : Bool :=
  c = '"' || c = '\''

/-- The nesting of parentheses after a character outside quotes. A closing
parenthesis that closes nothing changes nothing. -/
def depthAfter (depth : Nat) (c : Char) : Nat :=
  if c = '(' then depth + 1 else if c = ')' then depth - 1 else depth

/-- The end of a tag, scanning inside `depth` parentheses and perhaps inside a
quotation. -/
def closing (depth : Nat) (quote : Option Char) : List Char → Closing
  | [] => .unterminated
  | c :: cs =>
    match quote with
    | some q =>
      if c = '\\' then
        match cs with
        | [] => .unterminated
        | _ :: rest => (closing depth quote rest).shift 2
      else
        (closing depth (if c = q then none else quote) cs).shift 1
    | none =>
      if isQuote c && depth > 0 then (closing depth (some c) cs).shift 1
      else if c = '{' then .interrupted 0
      else if c = '}' then .closed 0
      else (closing (depthAfter depth c) none cs).shift 1

/-- For each kind of quote the first place in the content where a quotation of
that kind opens and runs to the end. -/
structure OpenQuotes where
  double : Option Nat
  single : Option Nat

namespace OpenQuotes

/-- Nothing is remembered. -/
def none : OpenQuotes := ⟨.none, .none⟩

/-- The place that is remembered for a kind of quote. -/
def place? (memory : OpenQuotes) (quote : Char) : Option Nat :=
  if quote = '\'' then memory.single else memory.double

/-- Remembers a place for a kind of quote unless there is one. -/
def remember (memory : OpenQuotes) (quote : Char) (place : Nat) : OpenQuotes :=
  if quote = '\'' then { memory with single := memory.single.or (some place) }
  else { memory with double := memory.double.or (some place) }

/-- A quotation of the kind is known to open before the place and to run to the
end. -/
def opensBefore (memory : OpenQuotes) (quote : Char) (place : Nat) : Bool :=
  match memory.place? quote with
  | some earlier => earlier < place
  | .none => false

/-- The end of a tag as `Template.closing` gives it, and what is remembered
afterwards. `place` is the place of the scanned text in the content, `length`
counts the characters since the opening brace, and an open quotation comes with
its place. -/
def closingFrom (memory : OpenQuotes) (place length depth : Nat)
    (quote : Option (Char × Nat)) : List Char → Closing × OpenQuotes
  | [] =>
    match quote with
    | some (q, opened) => (.unterminated, memory.remember q opened)
    | .none => (.unterminated, memory)
  | c :: cs =>
    match quote with
    | some (q, opened) =>
      if c = '\\' then
        match cs with
        | [] => (.unterminated, memory.remember q opened)
        | _ :: rest => closingFrom memory (place + 2) (length + 2) depth quote rest
      else
        closingFrom memory (place + 1) (length + 1) depth (if c = q then .none else quote) cs
    | .none =>
      if isQuote c && depth > 0 then
        if memory.opensBefore c place then (.unterminated, memory)
        else closingFrom memory (place + 1) (length + 1) depth (some (c, place)) cs
      else if c = '{' then (.interrupted length, memory)
      else if c = '}' then (.closed length, memory)
      else closingFrom memory (place + 1) (length + 1) (depthAfter depth c) .none cs

/-- The end of a tag whose text after the opening brace stands at a place of the
content. -/
def closing (memory : OpenQuotes) (place : Nat) (text : List Char) : Closing × OpenQuotes :=
  closingFrom memory place 0 0 .none text

end OpenQuotes

end TagTemplate.Template
