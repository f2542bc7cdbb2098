import TagTemplate.Value.Basic
import TagTemplate.Value.NumberText

/-!
# `TagTemplate.Value.Coercion`: a value as number, truth or text

Formatters take any value and read it as what they need. `toNumber?` reads
truth values as one and zero and texts as decimal numbers; `isTruthy` and
`isEmpty` decide conditions; `render` gives the text that replaces a tag.
-/

set_option autoImplicit false

namespace TagTemplate.Value

/-- The value as a number, if it is one. -/
def toNumber? : Value → Option Binary64
  | missing => none
  | boolean b => some (Binary64.ofNat (if b then 1 else 0))
  | number x => some x
  | text s => parseNumber? s.toList

/-- Nothing, false, zero and the empty text are false, all else is true. -/
def isTruthy : Value → Bool
  | missing => false
  | boolean b => b
  | number x => !x.isZero
  | text s => !s.isEmpty

/-- Nothing and the empty text are empty. -/
def isEmpty : Value → Bool
  | missing => true
  | text s => s.isEmpty
  | _ => false

/-- The text of the value; nothing has the empty text. -/
def render : Value → String
  | missing => ""
  | boolean b => if b then "true" else "false"
  | number x => formatNumber x
  | text s => s

end TagTemplate.Value
