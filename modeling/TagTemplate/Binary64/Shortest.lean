import TagTemplate.Binary64.Decimal

/-!
# `TagTemplate.Binary64.Shortest`: the fewest digits that read back

The reals that round to a given number form an interval around it. `shortest`
gives the decimal in that interval with the fewest digits, and of those the
nearest to the number. It tries 1, 2, … 17 digits in turn; with a number of
digits fixed, only the two neighbours of the number on the decimal grid can be
nearest, so those two are tested. A caller says which of two equally near
neighbours is taken.

`positional` writes the digits out without an exponent.
-/

set_option autoImplicit false

namespace TagTemplate.Binary64

/-- Which of two equally near decimals is taken. -/
inductive Tie where
  /-- The greater one. -/
  | up
  /-- The one whose last digit is even. -/
  | toEven

/-- The decimal `coefficient * 10 ^ exponent`. -/
structure Decimal where
  coefficient : Nat
  exponent : Int
  deriving DecidableEq

/-- Compares `c * 10 ^ k` with `n` half steps of `2 ^ -1075`. -/
def compareHalfSteps (c : Nat) (k : Int) (n : Nat) : Ordering :=
  if 0 ≤ k then compare (c * Nat.pow 10 k.toNat * (2 * unit)) n
  else compare (c * (2 * unit)) (n * Nat.pow 10 (-k).toNat)

/-- The decimal `c * 10 ^ k` rounds to the number of the given rank. The ends
of the interval lie half-way to the neighbouring ranks and belong to it when
the rank is even. -/
def readsBack (rank c : Nat) (k : Int) : Bool :=
  let low := compareHalfSteps c k (steps (rank - 1) + steps rank)
  let high := compareHalfSteps c k (steps rank + steps (rank + 1))
  (low == .gt && high == .lt) || (rank % 2 == 0 && (low == .eq || high == .eq))

/-- The exponent `e` for which the magnitude lies in `10 ^ (e - 1) ≤ m < 10 ^ e`.
The least positive magnitude exceeds `10 ^ -324`. -/
def decimalTop (rank : Nat) : Int :=
  (decimalLength (steps rank * Nat.pow 10 324 / unit) : Int) - 324

/-- The nearest of the two neighbours on the grid of multiples of `10 ^ k` that
rounds to the number, if one does. -/
def onGrid? (tie : Tie) (rank : Nat) (k : Int) : Option Nat :=
  let below :=
    if 0 ≤ k then steps rank / (unit * Nat.pow 10 k.toNat)
    else steps rank * Nat.pow 10 (-k).toNat / unit
  match readsBack rank below k, readsBack rank (below + 1) k with
  | false, false => none
  | true, false => some below
  | false, true => some (below + 1)
  | true, true =>
    -- Half-way between the neighbours is `(2 * below + 1) * 10 ^ k / 2`.
    match compareHalfSteps (2 * below + 1) k (4 * steps rank), tie with
    | .gt, _ => some below
    | .lt, _ => some (below + 1)
    | .eq, .up => some (below + 1)
    | .eq, .toEven => some (if below % 2 = 0 then below else below + 1)

/-- Moves zeros at the end of the coefficient into the exponent, at most `fuel`
of them. -/
def dropZeros (fuel : Nat) (d : Decimal) : Decimal :=
  match fuel with
  | 0 => d
  | n + 1 =>
    if d.coefficient % 10 = 0 then dropZeros n ⟨d.coefficient / 10, d.exponent + 1⟩ else d

/-- The shortest decimal with at least `17 - more` digits. -/
def shortestFrom (tie : Tie) (rank : Nat) : (more : Nat) → Decimal
  | 0 =>
    -- Seventeen digits tell any two numbers apart.
    let k := decimalTop rank - 17
    ⟨(onGrid? tie rank k).getD 0, k⟩
  | more + 1 =>
    let k := decimalTop rank - (16 - more : Nat)
    match onGrid? tie rank k with
    | some c => ⟨c, k⟩
    | none => shortestFrom tie rank more

/-- The shortest decimal that rounds to the number of a rank, without zeros at
its end. -/
def shortest (tie : Tie) (rank : Nat) : Decimal :=
  if rank = 0 then ⟨0, 0⟩ else dropZeros 17 (shortestFrom tie rank 16)

/-- The digits of a natural number. -/
def digits (n : Nat) : List Char :=
  Nat.toDigits 10 n

/-- The decimal written out in full, without an exponent and without a point
after a whole number. -/
def Decimal.positional (d : Decimal) : List Char :=
  let ds := digits d.coefficient
  if 0 ≤ d.exponent then
    ds ++ List.replicate d.exponent.toNat '0'
  else
    let places := (-d.exponent).toNat
    if places < ds.length then
      ds.take (ds.length - places) ++ '.' :: ds.drop (ds.length - places)
    else
      '0' :: '.' :: List.replicate (places - ds.length) '0' ++ ds

end TagTemplate.Binary64
