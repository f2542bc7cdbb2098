import TagTemplate.Unicode.WhiteSpace

/-!
# `TagTemplate.Text.Blank`: removing surrounding white space

`trim` drops the white space at both ends of a text, `trimEnd` only that at
its end. White space is the property White_Space, so a no-break space goes and
a zero-width space stays.
-/

set_option autoImplicit false

namespace TagTemplate.Text

open Unicode

/-- The text without the white space it begins with. -/
def trimStart (cs : List Char) : List Char :=
  cs.dropWhile isWhiteSpace

/-- The text without the white space it ends with. -/
def trimEnd (cs : List Char) : List Char :=
  (cs.reverse.dropWhile isWhiteSpace).reverse

/-- The text without the white space at either end. -/
def trim (cs : List Char) : List Char :=
  trimEnd (trimStart cs)

end TagTemplate.Text
