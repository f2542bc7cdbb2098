import TagTemplate.Binary64.Basic

/-!
# `TagTemplate.Binary64.Arithmetic`: sum, difference, product and quotient

Each operation on finite values is the exact result rounded once. A sum that
is exactly zero is negative only if both terms are. Infinities follow the
usual limits, and an operation without a limit gives `nan`.
-/

set_option autoImplicit false

namespace TagTemplate.Binary64

/-- A finite magnitude in steps with its sign. -/
def signedSteps (negative : Bool) (rank : Nat) : Int :=
  if negative then -(steps rank : Int) else steps rank

/-- The sum. -/
def add : Binary64 → Binary64 → Binary64
  | nan, _ => nan
  | _, nan => nan
  | infinite s, infinite t => if s = t then infinite s else nan
  | infinite s, finite _ _ => infinite s
  | finite _ _, infinite t => infinite t
  | finite s a, finite t b =>
    let sum := signedSteps s a + signedSteps t b
    if sum = 0 then ofRank (s && t) 0 else ofSteps (sum < 0) sum.natAbs 1

/-- The difference. -/
def sub (x y : Binary64) : Binary64 :=
  add x (neg y)

/-- The product. -/
def mul : Binary64 → Binary64 → Binary64
  | nan, _ => nan
  | _, nan => nan
  | infinite s, infinite t => infinite (s != t)
  | infinite s, finite t b => if b.val = 0 then nan else infinite (s != t)
  | finite s a, infinite t => if a.val = 0 then nan else infinite (s != t)
  | finite s a, finite t b => ofSteps (s != t) (steps a * steps b) unit

/-- The quotient. -/
def div : Binary64 → Binary64 → Binary64
  | nan, _ => nan
  | _, nan => nan
  | infinite _, infinite _ => nan
  | infinite s, finite t _ => infinite (s != t)
  | finite s _, infinite t => ofRank (s != t) 0
  | finite s a, finite t b =>
    if b.val = 0 then
      if a.val = 0 then nan else infinite (s != t)
    else
      ofSteps (s != t) (steps a * unit) (steps b)

/-- `acc * x ^ n` by repeated squaring, with a rounding at each product: one
binary digit of `n` a round, from the lowest. -/
def mulPower (acc x : Binary64) (n : Nat) : Binary64 :=
  if n = 0 then acc
  else if n = 1 then mul acc x
  else mulPower (if n % 2 = 1 then mul acc x else acc) (mul x x) (n / 2)

/-- Ten to the power `n`; exact up to `n = 22`. -/
def powerOfTen (n : Nat) : Binary64 :=
  mulPower (ofNat 1) (ofNat 10) n

end TagTemplate.Binary64
