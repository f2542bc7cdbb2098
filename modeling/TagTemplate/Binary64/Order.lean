import TagTemplate.Binary64.Basic

/-!
# `TagTemplate.Binary64.Order`: comparing numbers

`position?` places a number on a line of integers: a finite value at its rank
with its sign, an infinity just outside. Numbers compare as their positions
do, so both zeros are equal, and `nan` compares with nothing.
-/

set_option autoImplicit false

namespace TagTemplate.Binary64

/-- A rank with a sign. -/
def signedRank (negative : Bool) (rank : Nat) : Int :=
  if negative then -(rank : Int) else rank

/-- The place of a number on the line; `nan` has none. -/
def position? : Binary64 → Option Int
  | finite negative rank => some (signedRank negative rank)
  | infinite negative => some (signedRank negative rankCount)
  | nan => none

/-- How one number compares with another; `none` if one of them is `nan`. -/
def compare? (x y : Binary64) : Option Ordering :=
  match position? x, position? y with
  | some a, some b => some (compare a b)
  | _, _ => none

/-- The numbers are equal as numbers: zero equals negative zero, and `nan`
equals nothing. -/
def equals (x y : Binary64) : Bool :=
  compare? x y == some .eq

/-- The value lies below zero. -/
def isNegative (x : Binary64) : Bool :=
  compare? x zero == some .lt

/-- The lesser of two numbers; the second of equal ones, which shows in the sign
of zero, and the other one of a `nan`. -/
def min (x y : Binary64) : Binary64 :=
  match y, compare? x y with
  | nan, _ => x
  | _, some .lt => x
  | _, _ => y

/-- The greater of two numbers; the second of equal ones, which shows in the
sign of zero, and the other one of a `nan`. -/
def max (x y : Binary64) : Binary64 :=
  match y, compare? x y with
  | nan, _ => x
  | _, some .gt => x
  | _, _ => y

end TagTemplate.Binary64
