import Mathlib.Data.List.Basic
import TagTemplate.Formatter.Arithmetic
import TagTemplate.Proofs.Binary64.WholeNumbers
import TagTemplate.Proofs.Json.Numerals

/-!
# `TagTemplate.Proofs.Formatter.NumberTexts`: numbers in groups of digits

A number text has its whole part in groups of three digits, a fixed count of decimal
places, and a minus if it is negative and not all zeros (`Spells`). `formatN` scales a
number by a power of ten, and only the product can be too great: what is written for a
finite number is a number text exactly if the product is below `overflowSteps`, and `inf`
otherwise (`isNumberText_formatGrouped`).
-/

set_option autoImplicit false

namespace TagTemplate.Proofs.Formatter

open TagTemplate.Binary64 TagTemplate.Formatter TagTemplate.Proofs.Binary64

/-! ### Number texts -/

/-- Digits with a comma before each group of three counted from the right: no more than
three digits, or such a text and one more group. -/
inductive Grouped : List Char → List Char → Prop where
  | short {digits : List Char} : 0 < digits.length → digits.length ≤ 3 → Grouped digits digits
  | group {digits text : List Char} (a b c : Char) :
    Grouped digits text → Grouped (digits ++ [a, b, c]) (text ++ [',', a, b, c])

/-- A text that spells a number of so many units of its last decimal place. -/
structure Spells (negative : Bool) (places units : Nat) (whole grouped fraction text : List Char) :
    Prop where
  /-- Both parts are digits. -/
  isDigit : ∀ c ∈ whole ++ fraction, c.isDigit = true
  /-- No zero comes before the whole part. -/
  first : whole = ['0'] ∨ whole.head? ≠ some '0'
  /-- Commas separate the groups of the whole part. -/
  groups : Grouped whole grouped
  /-- The fraction has one digit for each place. -/
  length : fraction.length = places
  /-- The digits together are the number of units. -/
  value : Nat.ofDigitChars 10 (whole ++ fraction) 0 = units
  /-- A minus stands before a negative number that has a digit other than zero, and a point
  before the places if there are any. -/
  text_eq : text = (if negative && (whole ++ fraction).any (· != '0') then ['-'] else [])
    ++ grouped ++ (if places = 0 then [] else '.' :: fraction)

/-- A text that spells a number of so many units. -/
def IsNumberText (negative : Bool) (places units : Nat) (text : List Char) : Prop :=
  ∃ whole grouped fraction, Spells negative places units whole grouped fraction text

/-- There is a digit in a group. -/
theorem Grouped.ne_nil {digits text : List Char} (h : Grouped digits text) : digits ≠ [] := by
  cases h with
  | short hpos _ => exact List.ne_nil_of_length_pos hpos
  | group a b c _ => simp

/-- Without the commas a grouped text is its digits. -/
theorem Grouped.filter_isDigit {digits text : List Char} (h : Grouped digits text)
    (hdigits : ∀ c ∈ digits, c.isDigit = true) : text.filter Char.isDigit = digits := by
  induction h with
  | short _ _ => exact List.filter_eq_self.mpr hdigits
  | group a b c _ ih =>
    rw [List.filter_append, ih fun d hd => hdigits d (List.mem_append_left _ hd)]
    have hlast : ∀ d ∈ [a, b, c], d.isDigit = true := fun d hd =>
      hdigits d (List.mem_append_right _ hd)
    exact congrArg _ (List.filter_eq_self.mpr hlast)

/-- The digits in a number text are those of its two parts. -/
theorem Spells.filter_isDigit {negative : Bool} {places units : Nat}
    {whole grouped fraction text : List Char}
    (h : Spells negative places units whole grouped fraction text) :
    text.filter Char.isDigit = whole ++ fraction := by
  have hwhole := h.groups.filter_isDigit fun c hc => h.isDigit c (List.mem_append_left _ hc)
  have hfraction : fraction.filter Char.isDigit = fraction :=
    List.filter_eq_self.mpr fun c hc => h.isDigit c (List.mem_append_right _ hc)
  have hsign : ∀ p : Prop, ∀ [Decidable p],
      (if p then ['-'] else []).filter Char.isDigit = [] := by
    intro p _
    split <;> rfl
  have hpoint : (if places = 0 then [] else '.' :: fraction).filter Char.isDigit = fraction := by
    split
    · next hzero => exact (List.length_eq_zero_iff.mp (h.length.trans hzero)).symm
    · exact hfraction
  rw [h.text_eq, List.filter_append, List.filter_append, hsign, hwhole, hpoint, List.nil_append]

/-- The digits in a number text are the number of its units. -/
theorem IsNumberText.value {negative : Bool} {places units : Nat} {text : List Char}
    (h : IsNumberText negative places units text) :
    Nat.ofDigitChars 10 (text.filter Char.isDigit) 0 = units := by
  obtain ⟨whole, grouped, fraction, h⟩ := h
  rw [h.filter_isDigit, h.value]

/-- There is a digit in a number text. -/
theorem IsNumberText.exists_isDigit {negative : Bool} {places units : Nat} {text : List Char}
    (h : IsNumberText negative places units text) : text.filter Char.isDigit ≠ [] := by
  obtain ⟨whole, grouped, fraction, h⟩ := h
  rw [h.filter_isDigit]
  exact List.append_ne_nil_of_left_ne_nil h.groups.ne_nil fraction

/-! ### Groups of digits -/

/-- The last group stands behind a comma. -/
theorem groupDigits_append {digits : List Char} (h : digits ≠ []) (a b c : Char) :
    groupDigits (digits ++ [a, b, c]) = groupDigits digits ++ [',', a, b, c] := by
  induction digits with
  | nil => exact absurd rfl h
  | cons d ds ih =>
    cases ds with
    | nil => simp [groupDigits]
    | cons e ds =>
      have hrest := ih (List.cons_ne_nil e ds)
      have hlength : ((e :: ds) ++ [a, b, c]).length % 3 = (e :: ds).length % 3 := by
        rw [List.length_append]
        exact Nat.add_mod_right _ 3
      rw [List.cons_append, groupDigits, groupDigits, hlength, hrest]
      by_cases hcomma : (e :: ds).length % 3 = 0
      · rw [if_pos ⟨List.cons_ne_nil _ _, hcomma⟩, if_pos ⟨List.cons_ne_nil _ _, hcomma⟩]
        rfl
      · rw [if_neg fun h => hcomma h.2, if_neg fun h => hcomma h.2]
        rfl

/-- No more than three digits have no comma. -/
theorem groupDigits_short : ∀ {digits : List Char}, digits.length ≤ 3 → groupDigits digits = digits
  | [], _ => rfl
  | [_], _ => rfl
  | [_, _], _ => rfl
  | [_, _, _], _ => rfl

/-- More than three digits end with a group of three. -/
theorem exists_lastGroup {digits : List Char} (h : 3 < digits.length) :
    ∃ before a b c, digits = before ++ [a, b, c] ∧ before ≠ [] := by
  have hsplit := List.take_append_drop (digits.length - 3) digits
  have hlast : (digits.drop (digits.length - 3)).length = 3 := by
    rw [List.length_drop]
    omega
  obtain ⟨a, b, c, hgroup⟩ := List.length_eq_three.mp hlast
  refine ⟨digits.take (digits.length - 3), a, b, c, ?_, ?_⟩
  · rw [← hgroup, hsplit]
  · refine List.ne_nil_of_length_pos ?_
    rw [List.length_take]
    omega

/-- The groups of digits are counted from the right. -/
theorem grouped_groupDigits {digits : List Char} (h : digits ≠ []) :
    Grouped digits (groupDigits digits) := by
  induction hn : digits.length using Nat.strongRecOn generalizing digits with
  | ind n ih =>
    by_cases hshort : digits.length ≤ 3
    · rw [groupDigits_short hshort]
      exact .short (List.length_pos_iff.mpr h) hshort
    · obtain ⟨before, a, b, c, rfl, hbefore⟩ := exists_lastGroup (Nat.lt_of_not_le hshort)
      rw [groupDigits_append hbefore]
      refine .group a b c (ih before.length ?_ hbefore rfl)
      rw [← hn, List.length_append]
      exact Nat.lt_add_of_pos_right (Nat.succ_pos 2)

/-! ### Parts of a number -/

/-- The digits of a number, with zeros before them to a given length. -/
theorem padded_digits {n places : Nat} (hplaces : 0 < places) (h : n < Nat.pow 10 places) :
    let padded := List.replicate (places - (digits n).length) '0' ++ digits n
    padded.length = places ∧ (∀ c ∈ padded, c.isDigit = true) ∧
      Nat.ofDigitChars 10 padded 0 = n := by
  intro padded
  have hlength : (digits n).length ≤ places :=
    (Nat.length_toDigits_le_iff (by decide) hplaces).mpr h
  refine ⟨?_, ?_, ?_⟩
  · rw [List.length_append, List.length_replicate]
    omega
  · intro c hc
    rcases List.mem_append.mp hc with hc | hc
    · rw [List.eq_of_mem_replicate hc]
      rfl
    · exact Nat.isDigit_of_mem_toDigits (by decide) (by decide) hc
  · rw [Nat.ofDigitChars_append, Nat.ofDigitChars_replicate_zero, Nat.mul_zero]
    exact Nat.ofDigitChars_ten_toDigits

/-- The two parts of a number to a count of places. -/
theorem fixedParts_spec (rank places : Nat) :
    let parts := fixedParts rank places
    (∀ c ∈ parts.1 ++ parts.2, c.isDigit = true) ∧
      (parts.1 = ['0'] ∨ parts.1.head? ≠ some '0') ∧ parts.1 ≠ [] ∧ parts.2.length = places ∧
      Nat.ofDigitChars 10 (parts.1 ++ parts.2) 0 = inPlaces rank places := by
  intro parts
  have hone := ten_pow_pos places
  let n := inPlaces rank places
  have hwhole : parts.1 = digits (n / Nat.pow 10 places) := rfl
  have hdigits : ∀ c ∈ parts.1, c.isDigit = true := fun c hc =>
    Nat.isDigit_of_mem_toDigits (by decide) (by decide) hc
  obtain ⟨hlength, hfraction, hvalue⟩ : parts.2.length = places ∧
      (∀ c ∈ parts.2, c.isDigit = true) ∧
      Nat.ofDigitChars 10 parts.2 0 = n % Nat.pow 10 places := by
    by_cases hplaces : places = 0
    · subst hplaces
      have hmod : n % Nat.pow 10 0 = 0 := Nat.mod_one n
      rw [hmod]
      exact ⟨rfl, fun c hc => absurd hc List.not_mem_nil, rfl⟩
    · have hpadded := padded_digits (Nat.pos_of_ne_zero hplaces) (Nat.mod_lt n hone)
      have hparts : parts.2 = List.replicate (places - (digits (n % Nat.pow 10 places)).length) '0'
          ++ digits (n % Nat.pow 10 places) := if_neg hplaces
      rwa [hparts]
  refine ⟨fun c hc => (List.mem_append.mp hc).elim (hdigits c) (hfraction c), ?_,
    Nat.toDigits_ne_nil, hlength, ?_⟩
  · rw [hwhole]
    by_cases hzero : n / Nat.pow 10 places = 0
    · rw [hzero]
      exact .inl rfl
    · obtain ⟨d, ds, hds, hd⟩ := Json.exists_toDigits hzero
      rw [digits, hds]
      exact .inr fun h => hd (Option.some.inj h)
  · rw [Nat.ofDigitChars_append, Nat.ofDigitChars_eq_ofDigitChars_zero, hlength, hvalue, hwhole,
      digits, Nat.ofDigitChars_ten_toDigits]
    exact Nat.div_add_mod n (Nat.pow 10 places)

/-! ### Rounding to places -/

section Rounding

variable {rank : Fin rankCount} {places : Nat}

/-- The rank of a magnitude rounded to a count of places. -/
def roundedRank (rank places : Nat) : Nat :=
  let scaled := nearestRank (steps rank * Nat.pow 10 places) 1
  nearestRank (nearestWhole (wholeNearest scaled) * unit) (Nat.pow 10 places)

/-- A number is rounded if its product with the power of ten is finite. -/
theorem roundTo_of_lt (negative : Bool) (hplaces : places ≤ placesLimit)
    (h : steps rank * Nat.pow 10 places < overflowSteps) :
    ∃ rounded : Fin rankCount, rounded.val = roundedRank rank places ∧
      roundTo (.finite negative rank) places = .finite negative rounded := by
  have hten := ten_pow_pos places
  obtain ⟨factor, hfactor, hsteps⟩ := exists_powerOfTen hplaces
  have hscaled : nearestRank (steps rank * Nat.pow 10 places) 1 < rankCount :=
    (nearestRank_lt_iff Nat.one_pos).mpr (by rwa [Nat.one_mul])
  have hwhole := nearestRank_wholeNearest_lt hscaled
  have hmagnitude := steps_nearestRank_unit
    (wholeNearest (nearestRank (steps rank * Nat.pow 10 places) 1))
  have hquotient : roundedRank rank places < rankCount := by
    refine nearestRank_lt hten (Nat.le_trans ?_ (Nat.le_mul_of_pos_left _ hten))
    rw [← hmagnitude]
    exact steps_le_maxSteps hwhole
  refine ⟨⟨_, hquotient⟩, rfl, ?_⟩
  rw [roundTo, hfactor, mul_whole hsteps, ofRank, dif_pos hscaled, Binary64.round, ofNatSigned,
    ofSteps, ofRank, dif_pos hwhole, div_whole hsteps hten, ofRank, hmagnitude]
  exact dif_pos hquotient

/-- A number is infinite after rounding if its product with the power of ten is. -/
theorem roundTo_of_le (negative : Bool) (hplaces : places ≤ placesLimit)
    (h : overflowSteps ≤ steps rank * Nat.pow 10 places) :
    roundTo (.finite negative rank) places = .infinite negative := by
  obtain ⟨factor, hfactor, hsteps⟩ := exists_powerOfTen hplaces
  have hscaled : ¬ nearestRank (steps rank * Nat.pow 10 places) 1 < rankCount := by
    rw [nearestRank_lt_iff Nat.one_pos, Nat.one_mul]
    exact Nat.not_lt.mpr h
  rw [roundTo, hfactor, mul_whole hsteps, ofRank, dif_neg hscaled]
  show Binary64.infinite (negative != false) = .infinite negative
  rw [Bool.bne_false]

end Rounding

/-! ### Formatted numbers -/

/-- A finite number lies below zero if it has a minus and is not zero. -/
theorem isNegative_finite (negative : Bool) (rank : Fin rankCount) :
    (Binary64.finite negative rank).isNegative = (negative && decide (rank.val ≠ 0)) := by
  show (some (compare (signedRank negative rank) 0) == some .lt) = _
  by_cases hzero : rank.val = 0
  · cases negative <;> simp [signedRank, hzero]
  · have hpos := Nat.pos_of_ne_zero hzero
    cases negative <;> simp [signedRank, compare, compareOfLessAndEq, hzero, hpos]

/-- The text of a number that is rounded to a finite one spells that. -/
theorem isNumberText_of_roundTo {x : Binary64} {places : Nat} {negative : Bool}
    {rank : Fin rankCount} (h : roundTo x.abs places = .finite negative rank) :
    IsNumberText x.isNegative places (inPlaces rank places) (formatGrouped x places).toList := by
  obtain ⟨hdigits, hfirst, hne, hlength, hvalue⟩ := fixedParts_spec rank places
  refine ⟨_, _, _, hdigits, hfirst, grouped_groupDigits hne, hlength, hvalue, ?_⟩
  simp only [formatGrouped, h, String.toList_ofList]

/-- The first parameter asks for a count of places: it is missing or a number. -/
def AsksPlaces (parameters : List Value) : Prop :=
  parameter parameters 0 = .missing ∨ ∃ x, (parameter parameters 0).toNumber? = some x

/-- A count of places that is asked for is brought into its range. -/
theorem exists_places? {parameters : List Value} (h : AsksPlaces parameters) {default : Nat}
    (hdefault : default ≤ placesLimit) :
    ∃ places ≤ placesLimit, places? parameters default = some places := by
  unfold places?
  split
  · exact ⟨default, hdefault, rfl⟩
  · next p hp =>
    rcases h with h | ⟨x, hx⟩
    · exact absurd h hp
    · rw [hx]
      exact ⟨_, Nat.min_le_right _ _, rfl⟩

/-- What is written for a finite number is a number text, of the units that the rounded
magnitude has, exactly if the product with the power of ten stays finite; otherwise it is
`inf`. This is what `formatN` gives for a value that is read as the number. -/
theorem isNumberText_formatGrouped (negative : Bool) (rank : Fin rankCount) :
    let x : Binary64 := .finite negative rank
    (∀ places ≤ placesLimit,
      (steps rank * Nat.pow 10 places < overflowSteps →
        IsNumberText x.isNegative places (inPlaces (roundedRank rank places) places)
          (formatGrouped x places).toList) ∧
      (overflowSteps ≤ steps rank * Nat.pow 10 places →
        formatGrouped x places = "inf" ∧
          ∀ units, ¬ IsNumberText x.isNegative places units (formatGrouped x places).toList)) ∧
    ∀ value parameters, value.toNumber? = some x → AsksPlaces parameters →
      ∃ places ≤ placesLimit, places? parameters 2 = some places ∧
        formatN value parameters = .text (formatGrouped x places) := by
  intro x
  constructor
  · intro places hplaces
    constructor
    · intro h
      obtain ⟨rounded, hrounded, hround⟩ := roundTo_of_lt false hplaces h
      have htext : IsNumberText x.isNegative places (inPlaces rounded places)
          (formatGrouped x places).toList := isNumberText_of_roundTo hround
      rwa [hrounded] at htext
    · intro h
      have hround : roundTo x.abs places = .infinite false := roundTo_of_le false hplaces h
      have hinf : formatGrouped x places = "inf" := by
        simp only [formatGrouped, hround]
      rw [hinf]
      exact ⟨rfl, fun units htext => htext.exists_isDigit rfl⟩
  · intro value parameters hvalue hparameters
    obtain ⟨places, hle, hplaces⟩ := exists_places? hparameters (show 2 ≤ placesLimit by decide)
    refine ⟨places, hle, hplaces, ?_⟩
    rw [formatN, hplaces, hvalue]

/-- An amount below zero, with two decimal places unless asked otherwise. -/
theorem isNumberText_formatGrouped_amount :
    formatN (.text "-1234567.891") [] = .text "-1,234,567.89" ∧
      IsNumberText true 2 123456789 "-1,234,567.89".toList := by
  have hread : Value.toNumber? (.text "-1234567.891")
      = some (.finite true ⟨4698053240436593525, by decide⟩) := by decide +kernel
  obtain ⟨hgrouped, hformat⟩ := isNumberText_formatGrouped true ⟨4698053240436593525, by decide⟩
  have hnumber := (hgrouped 2 (by decide)).1 (by decide +kernel)
  have hunits : inPlaces (roundedRank 4698053240436593525 2) 2 = 123456789 := by decide +kernel
  have htext : formatGrouped (.finite true ⟨4698053240436593525, by decide⟩) 2
      = "-1,234,567.89" := by decide +kernel
  obtain ⟨places, -, hplaces, hresult⟩ := hformat (.text "-1234567.891") [] hread (.inl rfl)
  obtain rfl : 2 = places := Option.some.inj hplaces
  rw [hunits, htext, isNegative_finite] at hnumber
  rw [htext] at hresult
  exact ⟨hresult, hnumber⟩

/-- A number near the end of the range is written as `inf`: `10 ^ 300` to ten places. -/
theorem not_isNumberText_formatGrouped_huge :
    ¬ ∀ (x : Binary64) (places : Nat), x.isFinite = true → places ≤ placesLimit →
      ∃ units, IsNumberText x.isNegative places units (formatGrouped x places).toList := by
  intro h
  obtain ⟨units, hunits⟩ := h (ofDecimal false 1 300) 10 (by decide +kernel) (by decide)
  have hinf : formatGrouped (ofDecimal false 1 300) 10 = "inf" := by
    decide +kernel
  refine hunits.exists_isDigit ?_
  rw [hinf]
  rfl

end TagTemplate.Proofs.Formatter
