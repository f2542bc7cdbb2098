import TagTemplate.Binary64.Shortest

/-!
# `TagTemplate.Binary64.FixedPlaces`: a number to a fixed number of places

The exact value of the number is rounded to the given count of decimal places,
a half to the even neighbour, and written with exactly that many places.
-/

set_option autoImplicit false

namespace TagTemplate.Binary64

/-- The magnitude in units of the last place, rounded to a whole number. -/
def inPlaces (rank places : Nat) : Nat :=
  divNearestEven (steps rank * Nat.pow 10 places) unit

/-- The whole part and the fraction of a magnitude to a number of places; the
fraction has that many digits. -/
def fixedParts (rank places : Nat) : List Char × List Char :=
  let n := inPlaces rank places
  let one := Nat.pow 10 places
  let fraction := digits (n % one)
  (digits (n / one),
    if places = 0 then [] else List.replicate (places - fraction.length) '0' ++ fraction)

end TagTemplate.Binary64
