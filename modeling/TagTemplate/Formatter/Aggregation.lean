import TagTemplate.Binary64.Arithmetic
import TagTemplate.Binary64.Order
import TagTemplate.Value.Coercion

/-!
# `TagTemplate.Formatter.Aggregation`: one value from the values of a list

`aggCount` counts every value. The others look at those that read as numbers;
without any, the sum, the average and both extremes are zero.
-/

set_option autoImplicit false

namespace TagTemplate.Formatter

open Value (number ofBinary64)

/-- The values that read as numbers. -/
def numbers (values : List Value) : List Binary64 :=
  values.filterMap Value.toNumber?

/-- The sum from left to right. It begins with negative zero, which changes no
term. -/
def total (xs : List Binary64) : Binary64 :=
  xs.foldl Binary64.add Binary64.negativeZero

/-- `aggSum`: the sum of the numbers. -/
def aggSum (values : List Value) : Value :=
  ofBinary64 (total (numbers values))

/-- `aggAvg`: the sum of the numbers divided by their count. -/
def aggAvg (values : List Value) : Value :=
  match numbers values with
  | [] => number Binary64.zero
  | xs => ofBinary64 ((total xs).div (Binary64.ofNat xs.length))

/-- `aggCount`: the count of the values. The count of a list that fits a memory is
finite. -/
def aggCount (values : List Value) : Value :=
  ofBinary64 (Binary64.ofNat values.length)

/-- The numbers combined from left to right, zero if there are none. -/
def extreme (pick : Binary64 → Binary64 → Binary64) (values : List Value) : Value :=
  match numbers values with
  | [] => number Binary64.zero
  | x :: xs => number (xs.foldl pick x)

/-- `aggMin`: the least number. -/
def aggMin : List Value → Value :=
  extreme Binary64.min

/-- `aggMax`: the greatest number. -/
def aggMax : List Value → Value :=
  extreme Binary64.max

end TagTemplate.Formatter
