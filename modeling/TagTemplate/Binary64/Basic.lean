/-!
# `TagTemplate.Binary64.Basic`: the binary64 numbers

A number is a 64-bit floating-point value: finite, an infinity, or not a
number. A finite value is held by its sign and its *rank*, the place of its
magnitude among the nonnegative finite values: rank 0 is zero, rank 1 the
least positive value `2 ^ -1074`, and the last rank the greatest finite value.
Ranks and magnitudes increase together, so magnitudes compare as ranks do.

Every magnitude is a whole number of *steps* of `2 ^ -1074`, which `steps`
gives. Arithmetic is therefore exact arithmetic on natural numbers followed by
one rounding, `nearestRank`: of the two neighbouring magnitudes the nearer, and
at equal distance the one of even rank. A magnitude that rounds past the last
rank is infinite.
-/

set_option autoImplicit false

namespace TagTemplate

/-- The number of values in a binade. -/
def binadeSize : Nat := Nat.pow 2 52

/-- The number of nonnegative finite values, those of 2047 binades. -/
def rankCount : Nat := 2047 * binadeSize

/-- A 64-bit floating-point number. Zero has a sign as every finite value
has. -/
inductive Binary64 where
  /-- The finite value whose magnitude has the given rank. -/
  | finite (negative : Bool) (rank : Fin rankCount)
  /-- Greater in magnitude than every finite value. -/
  | infinite (negative : Bool)
  /-- No number, the answer of an operation that has none. -/
  | nan
  deriving DecidableEq

namespace Binary64

/-- The magnitude of a rank in steps of `2 ^ -1074`. In the lowest two binades
it is the rank itself; each further binade doubles the distance between
neighbours. -/
def steps (rank : Nat) : Nat :=
  let shift := rank / binadeSize - 1
  (rank - shift * binadeSize) * Nat.pow 2 shift

/-- The number of steps in one. -/
def unit : Nat := Nat.pow 2 1074

/-- The quotient rounded to the nearest whole number; a half goes to the even
neighbour. -/
def divNearestEven (num den : Nat) : Nat :=
  let whole := num / den
  let rest := num % den
  if 2 * rest < den then whole
  else if den < 2 * rest then whole + 1
  else if whole % 2 = 0 then whole
  else whole + 1

/-- The rank of the magnitude nearest to `num / den` steps. It is at least
`rankCount` when that magnitude is too great to be finite. -/
def nearestRank (num den : Nat) : Nat :=
  -- Above 53 binary digits the neighbours of a magnitude lie `2 ^ shift` steps apart.
  let shift := (num / den).log2 - 52
  shift * binadeSize + divNearestEven num (den * Nat.pow 2 shift)

/-- The value of a rank, infinite past the last one. -/
def ofRank (negative : Bool) (rank : Nat) : Binary64 :=
  if h : rank < rankCount then finite negative ⟨rank, h⟩ else infinite negative

/-- The value nearest to `num / den` steps with the given sign. -/
def ofSteps (negative : Bool) (num den : Nat) : Binary64 :=
  ofRank negative (nearestRank num den)

/-- The value nearest to a natural number with the given sign. -/
def ofNatSigned (negative : Bool) (n : Nat) : Binary64 :=
  ofSteps negative (n * unit) 1

/-- The value nearest to a natural number. -/
def ofNat (n : Nat) : Binary64 :=
  ofNatSigned false n

/-- The value nearest to an integer. -/
def ofInt (n : Int) : Binary64 :=
  ofNatSigned (n < 0) n.natAbs

/-- The value zero. -/
def zero : Binary64 := finite false ⟨0, by decide⟩

/-- Zero with a minus sign, which a sum begins with: added to any number it
gives that number. -/
def negativeZero : Binary64 := finite true ⟨0, by decide⟩

/-- The value is neither an infinity nor `nan`. -/
def isFinite : Binary64 → Bool
  | finite _ _ => true
  | _ => false

/-- The value is zero of either sign. -/
def isZero : Binary64 → Bool
  | finite _ rank => rank.val = 0
  | _ => false

/-- The same magnitude without a minus sign. -/
def abs : Binary64 → Binary64
  | finite _ rank => finite false rank
  | infinite _ => infinite false
  | nan => nan

/-- The same magnitude with the other sign. -/
def neg : Binary64 → Binary64
  | finite negative rank => finite (!negative) rank
  | infinite negative => infinite (!negative)
  | nan => nan

end Binary64

end TagTemplate
