import TagTemplate.Binary64.Arithmetic
import TagTemplate.Binary64.FixedPlaces
import TagTemplate.Binary64.Integral
import TagTemplate.Binary64.Order
import TagTemplate.Formatter.Parameters

/-!
# `TagTemplate.Formatter.Arithmetic`: formatters on numbers

The value and the parameters are read as numbers. Where one is no number, where
a divisor is zero, and where a result is not finite, there is no result.

`formatGrouped` writes a number with a fixed count of decimal places and a
comma before each group of three digits of its whole part.
-/

set_option autoImplicit false

namespace TagTemplate.Formatter

open Value (missing ofBinary64 ofBinary64?)

/-- An operation on the value and the first parameter. -/
def binary (op : Binary64 → Binary64 → Option Binary64) (value : Value)
    (parameters : List Value) : Value :=
  match value.toNumber?, (parameter parameters 0).toNumber? with
  | some a, some b => ofBinary64? (op a b)
  | _, _ => missing

/-- An operation on the value alone. -/
def unary (op : Binary64 → Binary64) (value : Value) : Value :=
  match value.toNumber? with
  | some a => ofBinary64 (op a)
  | none => missing

/-- `add(n)`: the sum with the parameter. -/
def add : Value → List Value → Value :=
  binary fun a b => some (a.add b)

/-- `sub(n)`: the value less the parameter. -/
def sub : Value → List Value → Value :=
  binary fun a b => some (a.sub b)

/-- `mul(n)`: the product with the parameter. -/
def mul : Value → List Value → Value :=
  binary fun a b => some (a.mul b)

/-- `div(n)`: the quotient by the parameter, unless that is zero. -/
def div : Value → List Value → Value :=
  binary fun a b => if b.isZero then none else some (a.div b)

/-- `abs`: the magnitude. -/
def abs : Value → Value :=
  unary Binary64.abs

/-- `ceil`: the least whole number that is not less. -/
def ceil : Value → Value :=
  unary Binary64.ceil

/-- `floor`: the greatest whole number that is not greater. -/
def floor : Value → Value :=
  unary Binary64.floor

/-- The greatest count of decimal places that a parameter can ask for. -/
def placesLimit : Nat := 15

/-- The count of decimal places that the first parameter asks for, brought into
the range from zero to `placesLimit`, or a default where it is missing; `none`
if it is no number. -/
def places? (parameters : List Value) (default : Nat) : Option Nat :=
  match parameter parameters 0 with
  | .missing => some default
  | p => p.toNumber?.map fun x => min (x.truncate?.getD 0).toNat placesLimit

/-- The number rounded to a count of decimal places: scaled by a power of ten,
rounded to a whole number with a half away from zero, and scaled back. -/
def roundTo (x : Binary64) (places : Nat) : Binary64 :=
  let factor := Binary64.powerOfTen places
  (x.mul factor).round.div factor

/-- `round(places)`: the number rounded to a count of decimal places, none
unless given. -/
def round (value : Value) (parameters : List Value) : Value :=
  match places? parameters 0 with
  | some places => unary (fun x => roundTo x places) value
  | none => missing

/-- The digits with a comma before each group of three counted from the
right. -/
def groupDigits : List Char → List Char
  | [] => []
  | d :: ds =>
    if ds ≠ [] ∧ ds.length % 3 = 0 then d :: ',' :: groupDigits ds else d :: groupDigits ds

/-- The number with a fixed count of decimal places and its whole part in groups
of three digits. A minus stands before it if the number is negative and a digit
other than zero is written. -/
def formatGrouped (x : Binary64) (places : Nat) : String :=
  match roundTo x.abs places with
  | .finite _ rank =>
    let (whole, fraction) := Binary64.fixedParts rank places
    let sign := if x.isNegative && (whole ++ fraction).any (· != '0') then ['-'] else []
    let point := if places = 0 then [] else '.' :: fraction
    String.ofList (sign ++ groupDigits whole ++ point)
  | .infinite _ => "inf"
  | .nan => "NaN"

/-- `formatN(places)`: the number with grouped digits and a fixed count of
decimal places, two unless given. -/
def formatN (value : Value) (parameters : List Value) : Value :=
  match places? parameters 2, value.toNumber? with
  | some places, some x => .text (formatGrouped x places)
  | _, _ => missing

end TagTemplate.Formatter
