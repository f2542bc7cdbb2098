import TagTemplate.Binary64.Basic

/-!
# `TagTemplate.Binary64.Integral`: rounding to whole numbers

`floor`, `ceil` and `round` keep the sign of their argument, so a small
negative number that rounds to zero gives negative zero. `round` sends a half
away from zero. `wholePart` is the magnitude without its fraction, as a natural
number.
-/

set_option autoImplicit false

namespace TagTemplate.Binary64

/-- The whole part of a magnitude. -/
def wholePart (rank : Nat) : Nat :=
  steps rank / unit

/-- The magnitude rounded up to a whole number. -/
def wholeAbove (rank : Nat) : Nat :=
  (steps rank + (unit - 1)) / unit

/-- The magnitude rounded to the nearest whole number, a half upwards. -/
def wholeNearest (rank : Nat) : Nat :=
  (2 * steps rank + unit) / (2 * unit)

/-- The greatest whole number that is not greater. -/
def floor : Binary64 → Binary64
  | finite negative rank =>
    ofNatSigned negative (if negative then wholeAbove rank else wholePart rank)
  | x => x

/-- The least whole number that is not less. -/
def ceil : Binary64 → Binary64
  | finite negative rank =>
    ofNatSigned negative (if negative then wholePart rank else wholeAbove rank)
  | x => x

/-- The nearest whole number; a half goes away from zero. -/
def round : Binary64 → Binary64
  | finite negative rank => ofNatSigned negative (wholeNearest rank)
  | x => x

/-- The number with its fraction dropped, as an integer; `none` if the number
is not finite. -/
def truncate? : Binary64 → Option Int
  | finite negative rank =>
    some (if negative then -(wholePart rank : Int) else (wholePart rank : Int))
  | _ => none

end TagTemplate.Binary64
