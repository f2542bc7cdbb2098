import Mathlib.Data.List.TakeWhile
import TagTemplate.Json.Printer
import TagTemplate.Json.Reader
import TagTemplate.Proofs.Binary64.Finite

/-!
# `TagTemplate.Proofs.Json.Numerals`: written numbers are read back

A literal is made of number characters (`isNumberCharacter_of_ofText?`), so in a
text it ends where a character of another kind stands. Integers of 64 bits are read
back from their digits (`literalNumber?_integer`). The number of a literal is always such
an integer or a finite binary64 value (`proper_of_value?`).

Whether a binary64 value is read back from the literal that is written for it is a
property of the value, `ReadsBack`: the reader rounds twice and need not agree with
the digits that are written (`not_forall_readsBack`). What is proved here of a literal
that is read back is that it is not taken for an integer
(`literalNumber?_numberText`).
-/

set_option autoImplicit false

namespace TagTemplate.Proofs.Json

open TagTemplate.Json
open TagTemplate.Json.Document (isNumberCharacter)
open TagTemplate.Proofs.Binary64

/-! ### The characters of a literal -/

/-- A digit can stand in a number. -/
theorem isNumberCharacter_of_isDigit {c : Char} (h : c.isDigit = true) :
    isNumberCharacter c = true := by
  rw [isNumberCharacter, h]
  rfl

/-- A text has a sign at most more than what stands after its sign. -/
theorem eq_or_mem_readSign {text : List Char} {c : Char} (h : c ∈ text) :
    (c = '-' ∨ c = '+') ∨ c ∈ (Binary64.readSign text).2 := by
  fun_cases Binary64.readSign text with
  -- A minus.
  | case1 rest => exact (List.mem_cons.mp h).imp .inl id
  -- A plus.
  | case2 rest => exact (List.mem_cons.mp h).imp .inr id
  -- No sign.
  | case3 => exact .inr h

/-- An exponent part is made of number characters. -/
theorem isNumberCharacter_of_readExponent? {text : List Char} {exponent : Int}
    (h : Binary64.readExponent? text = some exponent) :
    ∀ c ∈ text, isNumberCharacter c = true := by
  intro c hc
  cases text with
  | nil => cases hc
  | cons mark rest =>
    rw [Binary64.readExponent?] at h
    by_cases hmark : mark = 'e' ∨ mark = 'E'
    · rw [if_pos hmark] at h
      by_cases hdigits : (Binary64.readSign rest).2.all Char.isDigit = true
      · rcases List.mem_cons.mp hc with rfl | hrest
        · rcases hmark with rfl | rfl <;> rfl
        · rcases eq_or_mem_readSign hrest with (rfl | rfl) | hdigit
          · rfl
          · rfl
          · exact isNumberCharacter_of_isDigit (List.all_eq_true.mp hdigits c hdigit)
      · simp [hdigits] at h
    · rw [if_neg hmark] at h
      cases h

/-- The leading digits of a text and the rest make up the text. -/
theorem eq_append_of_spanDigits {text ds rest : List Char}
    (h : Numeral.spanDigits text = (ds, rest)) :
    text = ds ++ rest ∧ ∀ c ∈ ds, c.isDigit = true := by
  obtain ⟨rfl, rfl⟩ := Prod.mk.inj h
  exact ⟨List.takeWhile_append_dropWhile.symm, List.all_eq_true.mp List.all_takeWhile⟩

/-- A literal without its sign is made of number characters, and of digits alone if
it is plain. -/
theorem isNumberCharacter_of_ofMagnitude? {negative : Bool} {magnitude : List Char} {n : Numeral}
    (h : Numeral.ofMagnitude? negative magnitude = some n) :
    (∀ c ∈ magnitude, isNumberCharacter c = true) ∧
      (n.plain = true → ∀ c ∈ magnitude, c.isDigit = true) := by
  obtain ⟨whole, tail, hspan⟩ : ∃ whole tail, Numeral.spanDigits magnitude = (whole, tail) :=
    ⟨_, _, rfl⟩
  obtain ⟨rfl, hwhole⟩ := eq_append_of_spanDigits hspan
  have hcharacters : ∀ c ∈ whole, isNumberCharacter c = true := fun c hc =>
    isNumberCharacter_of_isDigit (hwhole c hc)
  simp only [Numeral.ofMagnitude?, hspan] at h
  split at h
  · cases h
  split at h
  · -- A point and the digits of a fraction stand before the exponent.
    next more =>
    obtain ⟨fraction, rest, hsplit⟩ : ∃ fraction rest, Numeral.spanDigits more = (fraction, rest) :=
      ⟨_, _, rfl⟩
    obtain ⟨rfl, hfraction⟩ := eq_append_of_spanDigits hsplit
    simp only [hsplit] at h
    split at h
    · cases h
    obtain ⟨exponent, hexponent, rfl⟩ := Option.map_eq_some_iff.mp h
    refine ⟨fun c hc => ?_, fun hplain => nomatch hplain⟩
    rcases List.mem_append.mp hc with hc | hc
    · exact hcharacters c hc
    rcases List.mem_cons.mp hc with rfl | hc
    · rfl
    rcases List.mem_append.mp hc with hc | hc
    · exact isNumberCharacter_of_isDigit (hfraction c hc)
    · exact isNumberCharacter_of_readExponent? hexponent c hc
  · obtain ⟨exponent, hexponent, rfl⟩ := Option.map_eq_some_iff.mp h
    refine ⟨fun c hc => ?_, fun hplain c hc => ?_⟩
    · rcases List.mem_append.mp hc with hc | hc
      · exact hcharacters c hc
      · exact isNumberCharacter_of_readExponent? hexponent c hc
    · rw [List.isEmpty_iff.mp hplain, List.append_nil] at hc
      exact hwhole c hc

/-- A literal is made of number characters, and of digits and a minus alone if it is
plain. -/
theorem isNumberCharacter_of_ofText? {text : List Char} {n : Numeral}
    (h : Numeral.ofText? text = some n) :
    (∀ c ∈ text, isNumberCharacter c = true) ∧
      (n.plain = true → ∀ c ∈ text, c.isDigit = true ∨ c = '-') := by
  revert h
  fun_cases Numeral.ofText? text with
  -- A minus stands before the digits.
  | case1 magnitude =>
    intro h
    obtain ⟨hall, hdigits⟩ := isNumberCharacter_of_ofMagnitude? h
    refine ⟨fun c hc => ?_, fun hplain c hc => ?_⟩
    · rcases List.mem_cons.mp hc with rfl | hc
      · rfl
      · exact hall c hc
    · exact (List.mem_cons.mp hc).symm.imp (hdigits hplain c) id
  -- There is no minus.
  | case2 =>
    intro h
    obtain ⟨hall, hdigits⟩ := isNumberCharacter_of_ofMagnitude? h
    exact ⟨hall, fun hplain c hc => .inl (hdigits hplain c hc)⟩

/-! ### Integers -/

/-- The digit of a number that is not zero is not zero. -/
theorem digitChar_ne_zero : ∀ n < 10, n ≠ 0 → Nat.digitChar n ≠ '0' := by
  decide

/-- The digits of a number that is not zero begin with another digit than zero. -/
theorem exists_toDigits {n : Nat} (h : n ≠ 0) :
    ∃ d ds, Nat.toDigits 10 n = d :: ds ∧ d ≠ '0' := by
  induction n using Nat.strongRecOn with
  | ind n ih =>
    by_cases hsmall : n < 10
    · exact ⟨Nat.digitChar n, [], Nat.toDigits_of_lt_base hsmall, digitChar_ne_zero n hsmall h⟩
    · obtain ⟨d, ds, hdigits, hd⟩ := ih (n / 10) (by omega) (by omega)
      refine ⟨d, ds ++ [Nat.digitChar (n % 10)], ?_, hd⟩
      rw [Nat.toDigits_of_base_le (by decide) (by omega), hdigits, List.cons_append]

/-- The digits of a number can stand before the point. -/
theorem isWholePart_toDigits (n : Nat) : Numeral.isWholePart (Nat.toDigits 10 n) = true := by
  by_cases hzero : n = 0
  · subst hzero
    rfl
  · obtain ⟨d, ds, hdigits, hd⟩ := exists_toDigits hzero
    rw [hdigits]
    simp [Numeral.isWholePart, hd]

/-- A literal that is the digits of a number, with or without a minus. -/
theorem ofMagnitude?_toDigits (negative : Bool) (n : Nat) :
    Numeral.ofMagnitude? negative (Nat.toDigits 10 n)
      = some ⟨negative, Nat.toDigits 10 n, [], 0, true⟩ := by
  have hdigits : ∀ c ∈ Nat.toDigits 10 n, c.isDigit = true := fun c hc =>
    Nat.isDigit_of_mem_toDigits (by decide) (by decide) hc
  have hspan : Numeral.spanDigits (Nat.toDigits 10 n) = (Nat.toDigits 10 n, []) := by
    rw [Numeral.spanDigits, List.takeWhile_eq_self_iff.mpr hdigits,
      List.dropWhile_eq_nil_iff.mpr hdigits]
  simp only [Numeral.ofMagnitude?, hspan, isWholePart_toDigits]
  rfl

/-- Appending digits to a coefficient does not make it less. -/
theorem le_ofDigitChars (ds : List Char) (coefficient : Nat) :
    coefficient ≤ Nat.ofDigitChars 10 ds coefficient := by
  induction ds generalizing coefficient with
  | nil => exact Nat.le_refl _
  | cons d ds ih => exact Nat.le_trans (by omega) (ih (10 * coefficient + (d.toNat - '0'.toNat)))

/-- All digits are appended if the coefficient with them is not too great. -/
theorem appendDigits_eq {ds : List Char} {coefficient : Nat}
    (h : Nat.ofDigitChars 10 ds coefficient ≤ Numeral.coefficientLimit) :
    Numeral.appendDigits coefficient ds = (Nat.ofDigitChars 10 ds coefficient, []) := by
  induction ds generalizing coefficient with
  | nil => rfl
  | cons d ds ih =>
    have hnext := le_ofDigitChars ds (10 * coefficient + (d.toNat - '0'.toNat))
    rw [Numeral.appendDigits, if_neg (Nat.not_lt.mpr (Nat.le_trans hnext h))]
    exact ih h

/-- The digits of a number of 64 bits make up its coefficient. -/
theorem appendDigits_toDigits {n : Nat} (h : n ≤ Numeral.coefficientLimit) :
    Numeral.appendDigits 0 (Nat.toDigits 10 n) = (n, []) := by
  rw [appendDigits_eq (by rwa [Nat.ofDigitChars_ten_toDigits]), Nat.ofDigitChars_ten_toDigits]

/-- An integer that 64 bits hold, with or without a sign. -/
def InRange (n : Int) : Prop :=
  -(Nat.pow 2 63 : Nat) ≤ n ∧ n ≤ Numeral.coefficientLimit

/-- The number of a literal. -/
def literalNumber? (literal : String) : Option Number :=
  (Numeral.ofText? literal.toList).bind Numeral.value?

/-- The digits of a number have no sign. -/
theorem ofText?_toDigits (n : Nat) :
    Numeral.ofText? (Nat.toDigits 10 n) = some ⟨false, Nat.toDigits 10 n, [], 0, true⟩ := by
  have hminus : '-' ∉ Nat.toDigits 10 n := fun hmem =>
    absurd (Nat.isDigit_of_mem_toDigits (by decide) (by decide) hmem) (by decide)
  unfold Numeral.ofText?
  split
  · next heq => exact absurd (heq ▸ List.mem_cons_self) hminus
  · exact ofMagnitude?_toDigits false n

/-- A natural number of 64 bits is read back from its digits. -/
theorem literalNumber?_natural {n : Nat} (h : n ≤ Numeral.coefficientLimit) :
    literalNumber? (toString n) = some (.integer n) := by
  have htext : (toString n).toList = Nat.toDigits 10 n := Nat.toList_repr
  rw [literalNumber?, htext, ofText?_toDigits]
  simp [Numeral.value?, appendDigits_toDigits h]

/-- A negative integer of 64 bits is read back from its digits. -/
theorem literalNumber?_negSucc {n : Nat} (h : n + 1 ≤ Nat.pow 2 63) :
    literalNumber? (toString (Int.negSucc n)) = some (.integer (Int.negSucc n)) := by
  have htext : (toString (Int.negSucc n)).toList = '-' :: Nat.toDigits 10 (n + 1) := by
    show ("-" ++ Nat.repr (n + 1)).toList = _
    rw [String.toList_append, Nat.toList_repr]
    rfl
  have hlimit : n + 1 ≤ Numeral.coefficientLimit := Nat.le_trans h (by decide)
  rw [literalNumber?, htext, Numeral.ofText?, ofMagnitude?_toDigits]
  simp only [Option.bind_some, Numeral.value?, appendDigits_toDigits hlimit]
  rw [if_pos (by rfl), if_neg (by decide), if_pos ⟨Nat.succ_ne_zero n, h⟩]
  rfl

/-- An integer of 64 bits is read back from its digits. -/
theorem literalNumber?_integer {n : Int} (h : InRange n) :
    literalNumber? (toString n) = some (.integer n) := by
  cases n with
  | ofNat n => exact literalNumber?_natural (Int.ofNat_le.mp h.2)
  | negSucc n => exact literalNumber?_negSucc (by have := h.1; omega)

/-! ### The numbers that literals denote -/

/-- A number that a literal can denote: an integer of 64 bits or a finite value. -/
def Proper : Number → Prop
  | .integer n => InRange n
  | .decimal x => x.isFinite = true

/-- A coefficient does not exceed the greatest one. -/
theorem fst_appendDigits_le {coefficient : Nat} (h : coefficient ≤ Numeral.coefficientLimit)
    (ds : List Char) : (Numeral.appendDigits coefficient ds).1 ≤ Numeral.coefficientLimit := by
  induction ds generalizing coefficient with
  | nil => exact h
  | cons d ds ih =>
    rw [Numeral.appendDigits]
    split
    · exact h
    · next hnext => exact ih (Nat.not_lt.mp hnext)

/-- A finite value times a power of ten is finite if it is a value at all. -/
theorem isFinite_of_scale? {x y : Binary64} {exponent : Int} (hx : x.isFinite = true)
    (h : Numeral.scale? x exponent = some y) : y.isFinite = true := by
  fun_induction Numeral.scale? x exponent with
  -- Zero times a power of ten.
  | case1 => exact Option.some.inj h ▸ hx
  -- The power of ten is too great.
  | case2 => cases h
  -- The product is finite.
  | case3 x exponent hexponent hzero hlimit product hfinite => exact Option.some.inj h ▸ hfinite
  -- The product is too great.
  | case4 => cases h
  -- A division by one power of ten.
  | case5 x exponent hnegative hlimit =>
    obtain ⟨k, hk⟩ : ∃ k : Nat, -exponent = k := ⟨(-exponent).toNat, by omega⟩
    rw [← Option.some.inj h, hk]
    exact isFinite_div_ofDecimal hx (by omega)
  -- Zero divided by a power of ten.
  | case6 => exact Option.some.inj h ▸ hx
  -- A part of the power is divided by, and the rest is left.
  | case7 x exponent hnegative hlimit hzero ih =>
    exact ih (isFinite_div_ofDecimal (k := 308) hx (by decide)) h

/-- Every literal denotes a proper number. -/
theorem proper_of_value? {n : Numeral} {number : Number} (h : n.value? = some number) :
    Proper number := by
  obtain ⟨coefficient, left, hsplit⟩ :
      ∃ coefficient left, Numeral.appendDigits 0 n.whole = (coefficient, left) := ⟨_, _, rfl⟩
  have hlimit : coefficient ≤ Numeral.coefficientLimit := by
    have := fst_appendDigits_le (Nat.zero_le _) n.whole
    rwa [hsplit] at this
  simp only [Numeral.value?, hsplit] at h
  split at h
  · split at h
    · obtain rfl := Option.some.inj h
      exact ⟨by omega, Int.ofNat_le.mpr hlimit⟩
    · split at h
      · next hnegative =>
        obtain rfl := Option.some.inj h
        exact ⟨by omega, by omega⟩
      · obtain rfl := Option.some.inj h
        exact isFinite_ofNatSigned (Nat.le_trans hlimit (Nat.sub_le _ _))
  · obtain ⟨x, hx, rfl⟩ := Option.map_eq_some_iff.mp h
    have hmore := fst_appendDigits_le hlimit n.fraction
    have hfinite : x.isFinite = true :=
      isFinite_of_scale? (isFinite_ofNatSigned (Nat.le_trans hmore (Nat.sub_le _ _))) hx
    show (if n.negative then Binary64.neg x else x).isFinite = true
    split
    · rwa [isFinite_neg]
    · exact hfinite

/-- A literal that is not plain denotes a binary64 value. -/
theorem exists_decimal_of_value? {n : Numeral} {number : Number} (hplain : n.plain = false)
    (h : n.value? = some number) : ∃ x, number = .decimal x := by
  simp only [Numeral.value?, hplain, Bool.false_and, Bool.false_eq_true, if_false] at h
  obtain ⟨x, -, rfl⟩ := Option.map_eq_some_iff.mp h
  exact ⟨_, rfl⟩

/-! ### Binary64 values -/

/-- A value is read back from the literal that is written for it. -/
def ReadsBack (x : Binary64) : Prop :=
  (literalNumber? (numberText x)).map Number.toBinary64 = some x

instance (x : Binary64) : Decidable (ReadsBack x) :=
  inferInstanceAs (Decidable (_ = _))

/-- Not every finite value is read back. Of the digits `9033333333333333` and of their
quotient by `10 ^ 14` each is rounded, and the second rounding misses the value that
the digits were written for. -/
theorem not_forall_readsBack : ¬ ∀ x : Binary64, x.isFinite = true → ReadsBack x := by
  intro h
  have hvalue := h (Binary64.div (Binary64.ofNat 271) (Binary64.ofNat 3)) (by decide +kernel)
  exact absurd hvalue (by decide +kernel)

/-- A decimal below one place is written with a point. -/
theorem mem_positional {d : Binary64.Decimal} (h : ¬ 0 ≤ d.exponent) : '.' ∈ d.positional := by
  unfold Binary64.Decimal.positional
  dsimp only
  rw [if_neg h]
  split
  · simp
  · simp

/-- A written decimal has a point or an exponent. -/
theorem mem_decimalText (d : Binary64.Decimal) : '.' ∈ decimalText d ∨ 'e' ∈ decimalText d := by
  unfold decimalText
  dsimp only
  split
  · split
    · exact .inl (by simp)
    · next hexponent => exact .inl (mem_positional hexponent)
  · exact .inr (by simp)

/-- The literal of a finite value has a point or an exponent. -/
theorem mem_numberText {x : Binary64} (hx : x.isFinite = true) :
    '.' ∈ (numberText x).toList ∨ 'e' ∈ (numberText x).toList := by
  cases x with
  | infinite negative => cases hx
  | nan => cases hx
  | finite negative rank =>
    rw [numberText, String.toList_ofList]
    have hmem := mem_decimalText (Binary64.shortest .toEven rank)
    cases negative with
    | true => exact hmem.imp (List.mem_cons_of_mem _) (List.mem_cons_of_mem _)
    | false => exact hmem

/-- A finite value that is read back is read as a value and not as an integer. -/
theorem literalNumber?_numberText {x : Binary64} (hx : x.isFinite = true) (h : ReadsBack x) :
    literalNumber? (numberText x) = some (.decimal x) := by
  obtain ⟨number, hnumber, hvalue⟩ := Option.map_eq_some_iff.mp h
  obtain ⟨n, hn, hread⟩ := Option.bind_eq_some_iff.mp hnumber
  have hplain : n.plain = false := by
    rw [Bool.eq_false_iff]
    intro hplain
    have hdigits := (isNumberCharacter_of_ofText? hn).2 hplain
    rcases mem_numberText hx with hmem | hmem
    · exact absurd (hdigits _ hmem) (by decide)
    · exact absurd (hdigits _ hmem) (by decide)
  obtain ⟨y, rfl⟩ := exists_decimal_of_value? hplain hread
  rw [hnumber, ← hvalue]
  rfl

end TagTemplate.Proofs.Json
