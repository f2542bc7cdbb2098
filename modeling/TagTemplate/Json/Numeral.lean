import TagTemplate.Binary64.Arithmetic
import TagTemplate.Binary64.Decimal
import TagTemplate.Json.Basic

/-!
# `TagTemplate.Json.Numeral`: the numbers that JSON literals denote

A literal is an optional minus, digits without a needless leading zero, and
optional fraction and exponent parts (`Numeral.ofText?`). A literal without
those parts is an integer if it fits 64 bits. Any other literal is a binary64
value found in two roundings: the leading digits that fit 64 bits form a
coefficient, and that is multiplied or divided by a power of ten. A literal
beyond the finite values denotes no number.
-/

set_option autoImplicit false

namespace TagTemplate.Json

/-- The parts of a number literal. An absent fraction has no digits, an absent
exponent is zero. -/
structure Numeral where
  negative : Bool
  /-- The digits before the point. -/
  whole : List Char
  /-- The digits after the point. -/
  fraction : List Char
  exponent : Int
  /-- The literal has neither point nor exponent. -/
  plain : Bool

namespace Numeral

/-- Splits the leading decimal digits off a text. -/
def spanDigits (text : List Char) : List Char × List Char :=
  (text.takeWhile Char.isDigit, text.dropWhile Char.isDigit)

/-- The digits before the point may start with a zero only if they are a single
zero. -/
def isWholePart : List Char → Bool
  | [] => false
  | ['0'] => true
  | d :: _ => d != '0'

/-- The parts of a literal without its sign. -/
def ofMagnitude? (negative : Bool) (magnitude : List Char) : Option Numeral :=
  let (whole, afterWhole) := spanDigits magnitude
  if !isWholePart whole then none
  else
    match afterWhole with
    | '.' :: more =>
      let (fraction, rest) := spanDigits more
      if fraction.isEmpty then none
      else
        (Binary64.readExponent? rest).map fun exponent =>
          ⟨negative, whole, fraction, exponent, false⟩
    | rest =>
      (Binary64.readExponent? rest).map fun exponent =>
        ⟨negative, whole, [], exponent, rest.isEmpty⟩

/-- The parts of a literal, if the text is one. -/
def ofText? : List Char → Option Numeral
  | '-' :: magnitude => ofMagnitude? true magnitude
  | magnitude => ofMagnitude? false magnitude

/-- The greatest coefficient. -/
def coefficientLimit : Nat := Nat.pow 2 64 - 1

/-- Appends digits to a coefficient until one does not fit; gives the
coefficient and the digits that are left. -/
def appendDigits (coefficient : Nat) : List Char → Nat × List Char
  | [] => (coefficient, [])
  | d :: ds =>
    let next := 10 * coefficient + (d.toNat - '0'.toNat)
    if coefficientLimit < next then (coefficient, d :: ds) else appendDigits next ds

/-- The value `x * 10 ^ exponent`, multiplied or divided by the power of ten
nearest to the exact one. An exponent below `-308` is taken off in parts of
308. `none` if the value is too great. -/
def scale? (x : Binary64) (exponent : Int) : Option Binary64 :=
  if 0 ≤ exponent then
    if x.isZero then some x
    else if 308 < exponent then none
    else
      let y := Binary64.mul x (Binary64.ofDecimal false 1 exponent)
      if y.isFinite then some y else none
  else if -308 ≤ exponent then
    some (Binary64.div x (Binary64.ofDecimal false 1 (-exponent)))
  else if x.isZero then some x
  else scale? (Binary64.div x (Binary64.ofDecimal false 1 308)) (exponent + 308)
termination_by exponent.natAbs
decreasing_by omega

/-- The number that a literal denotes. -/
def value? (n : Numeral) : Option Number :=
  let (coefficient, left) := appendDigits 0 n.whole
  if n.plain && left.isEmpty then
    if !n.negative then some (.integer coefficient)
    else if coefficient ≠ 0 ∧ coefficient ≤ Nat.pow 2 63 then some (.integer (-(coefficient : Int)))
    else some (.decimal (Binary64.ofNatSigned true coefficient))
  else
    let (coefficient, unread) := appendDigits coefficient n.fraction
    let places : Int := n.fraction.length - unread.length
    (scale? (Binary64.ofNat coefficient) (n.exponent + left.length - places)).map fun x =>
      .decimal (if n.negative then Binary64.neg x else x)

end Numeral

end TagTemplate.Json
