/-!
# `TagTemplate.Unicode.InversionList`: sets of code points

A property of characters is a set of code points, and such a set is written
as the sorted list of the places where membership changes: the first member,
the first code point after that run, the first member of the next run, and so
on. `InversionList.contains` reads it off by counting the changes up to a code
point: an odd count means that the code point is in.

The sets and case maps of this library are those of Unicode 17.
-/

set_option autoImplicit false

namespace TagTemplate.Unicode

/-- The code points at which membership of a set changes, in increasing order,
beginning with the first member. -/
abbrev InversionList := List Nat

/-- A code point is in the set when an odd number of changes lies at or before
it. -/
def InversionList.contains : InversionList → Nat → Bool
  | [], _ => false
  | change :: later, code => if code < change then false else !(contains later code)

end TagTemplate.Unicode
