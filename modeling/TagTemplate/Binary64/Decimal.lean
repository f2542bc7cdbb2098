import TagTemplate.Binary64.Basic

/-!
# `TagTemplate.Binary64.Decimal`: the number that a decimal text stands for

A decimal text is an optional sign, digits with an optional point among or
beside them, and an optional exponent of ten. `ofDecimal` gives the number
nearest to `coefficient * 10 ^ exponent`, so reading is rounded once whatever
the number of digits. `readWithNames?` also takes the names of the infinities
and of `nan`, in any letter case.
-/

set_option autoImplicit false

namespace TagTemplate.Binary64

/-- The natural number that a list of decimal digits denotes. -/
def digitsValue (digits : List Char) : Nat :=
  digits.foldl (fun n c => 10 * n + (c.toNat - '0'.toNat)) 0

/-- The number of decimal digits of a natural number; zero has one. -/
def decimalLength (n : Nat) : Nat :=
  if n < 10 then 1 else decimalLength (n / 10) + 1

/-- The value nearest to `coefficient * 10 ^ exponent` with the given sign.
Outside `10 ^ -330` to `10 ^ 310` the answer is plain zero or an infinity, and
the power of ten is not formed. -/
def ofDecimal (negative : Bool) (coefficient : Nat) (exponent : Int) : Binary64 :=
  -- The magnitude lies below `10 ^ top` and, unless it is zero, not below `10 ^ (top - 1)`.
  let top := exponent + decimalLength coefficient
  if coefficient = 0 ∨ top < -330 then ofRank negative 0
  else if 310 < top then infinite negative
  else if 0 ≤ exponent then
    ofSteps negative (coefficient * Nat.pow 10 exponent.toNat * unit) 1
  else
    ofSteps negative (coefficient * unit) (Nat.pow 10 (-exponent).toNat)

/-- A sign at the head of a text: whether it is a minus, and the rest. -/
def readSign : List Char → Bool × List Char
  | '-' :: rest => (true, rest)
  | '+' :: rest => (false, rest)
  | rest => (false, rest)

/-- The exponent part of a decimal text: nothing at all, or a letter `e`, an
optional sign and at least one digit. -/
def readExponent? : List Char → Option Int
  | [] => some 0
  | c :: rest =>
    if c = 'e' ∨ c = 'E' then
      let (negative, digits) := readSign rest
      if digits.isEmpty || !digits.all Char.isDigit then none
      else some (if negative then -(digitsValue digits : Int) else (digitsValue digits : Int))
    else
      none

/-- A decimal text without its sign, as a coefficient and an exponent of
ten. -/
def readMagnitude? (text : List Char) : Option (Nat × Int) :=
  let whole := text.takeWhile Char.isDigit
  let afterWhole := text.dropWhile Char.isDigit
  let (fraction, rest) :=
    match afterWhole with
    | '.' :: more => (more.takeWhile Char.isDigit, more.dropWhile Char.isDigit)
    | _ => ([], afterWhole)
  if whole.isEmpty && fraction.isEmpty then none
  else
    (readExponent? rest).map fun exponent =>
      (digitsValue (whole ++ fraction), exponent - fraction.length)

/-- The number that a decimal text denotes. -/
def read? (text : List Char) : Option Binary64 :=
  let (negative, magnitude) := readSign text
  (readMagnitude? magnitude).map fun (coefficient, exponent) =>
    ofDecimal negative coefficient exponent

/-- The number that a decimal text or one of the names `inf`, `infinity` and
`nan` denotes. -/
def readWithNames? (text : List Char) : Option Binary64 :=
  let (negative, magnitude) := readSign text
  let name := String.ofList (magnitude.map Char.toLower)
  if name = "inf" ∨ name = "infinity" then some (infinite negative)
  else if name = "nan" then some nan
  else read? text

/-- A text without the letter `n` is none of the names. -/
theorem readWithNames?_eq_read? {text : List Char}
    (h : 'n' ∉ (readSign text).2.map Char.toLower) : readWithNames? text = read? text := by
  have hname (name : String) (hn : 'n' ∈ name.toList) :
      String.ofList ((readSign text).2.map Char.toLower) ≠ name := by
    rintro rfl
    rw [String.toList_ofList] at hn
    exact h hn
  unfold readWithNames?
  dsimp only
  rw [if_neg, if_neg (hname "nan" (by decide))]
  rintro (hinf | hinfinity)
  · exact hname "inf" (by decide) hinf
  · exact hname "infinity" (by decide) hinfinity

end TagTemplate.Binary64
