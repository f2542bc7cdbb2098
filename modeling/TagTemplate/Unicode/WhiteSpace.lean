import TagTemplate.Unicode.InversionList

/-!
# `TagTemplate.Unicode.WhiteSpace`: the White_Space property

The twenty-five characters that trimming removes: the ASCII blanks and the
space characters and line breaks of other scripts. A zero-width space is not
among them.
-/

set_option autoImplicit false

namespace TagTemplate.Unicode

/-- The code points that have the property White_Space. -/
def whiteSpace : InversionList :=
  [ 0x9, 0xE, 0x20, 0x21, 0x85, 0x86, 0xA0, 0xA1, 0x1680, 0x1681,
    0x2000, 0x200B, 0x2028, 0x202A, 0x202F, 0x2030, 0x205F, 0x2060, 0x3000, 0x3001 ]

/-- A blank, a line break or another space character. -/
def isWhiteSpace (c : Char) : Bool :=
  whiteSpace.contains c.toNat

end TagTemplate.Unicode
