import TagTemplate.Proofs.Formatter.NumberTexts

/-!
# `TagTemplate.Proofs.Formatter.WholeNumbers`: whole numbers that are rounded

A number is rounded to decimal places by way of its product with a power of ten, and the
product of a whole number can have more than 53 binary digits. What is lost there comes
back with the quotient: the whole number is `Kept` if the loss is less than half the
distance to its neighbours, and then `round` gives it unchanged and `formatN` writes its
digits and zeros. Otherwise both give another number (`kept_iff`). A product of no more
than 53 binary digits loses nothing (`kept_of_le`).
-/

set_option autoImplicit false

namespace TagTemplate.Proofs.Formatter

open TagTemplate.Binary64 TagTemplate.Formatter TagTemplate.Proofs.Binary64

/-! ### Products with powers of ten -/

/-- The product with the power of ten, rounded to 53 binary digits, is off by less than
half the distance between neighbouring numbers at `n`, times that power. -/
def Kept (n places : Nat) : Prop :=
  let product := n * Nat.pow 10 places
  let slack := Nat.pow 2 n.log2 * Nat.pow 10 places
  Nat.pow 2 53 * nearestWhole product < Nat.pow 2 53 * product + slack ∧
    Nat.pow 2 53 * product < Nat.pow 2 53 * nearestWhole product + slack

instance (n places : Nat) : Decidable (Kept n places) :=
  inferInstanceAs (Decidable (_ ∧ _))

section Products

variable {n places rank : Nat}

/-- A power of ten is one of five with zeros behind it. -/
theorem ten_pow_eq (places : Nat) : Nat.pow 10 places = Nat.pow 5 places * Nat.pow 2 places :=
  Nat.mul_pow 5 2 places

/-- A number is kept if nothing is lost. -/
theorem kept_of_nearestWhole_eq (h : nearestWhole (n * Nat.pow 10 places) = n * Nat.pow 10 places) :
    Kept n places := by
  have hslack : 0 < Nat.pow 2 n.log2 * Nat.pow 10 places :=
    Nat.mul_pos (two_pow_pos _) (ten_pow_pos _)
  unfold Kept
  dsimp only
  rw [h]
  omega

/-- The zeros behind the binary digits of a product do not count. -/
theorem nearestWhole_product_of_le (h : n * Nat.pow 5 places ≤ 2 * binadeSize) :
    nearestWhole (n * Nat.pow 10 places) = n * Nat.pow 10 places := by
  rw [ten_pow_eq, ← Nat.mul_assoc]
  exact nearestWhole_of_le h places

/-- A number is kept if its product with the power of five has no more than 53 binary
digits. -/
theorem kept_of_le (h : n * Nat.pow 5 places ≤ 2 * binadeSize) : Kept n places :=
  kept_of_nearestWhole_eq (nearestWhole_product_of_le h)

/-- The product of a power of two has no more than 53 binary digits. -/
theorem nearestWhole_product_two_pow (hplaces : places ≤ placesLimit) (k : Nat) :
    nearestWhole (Nat.pow 2 k * Nat.pow 10 places) = Nat.pow 2 k * Nat.pow 10 places := by
  have hfive : Nat.pow 5 places ≤ 2 * binadeSize :=
    Nat.le_trans (pow_le_pow (show 0 < 5 by decide) hplaces) (by decide)
  have hsplit : Nat.pow 2 k * Nat.pow 10 places = Nat.pow 5 places * Nat.pow 2 (k + places) := by
    rw [ten_pow_eq, Nat.mul_left_comm]
    exact congrArg _ (Nat.pow_add 2 k places).symm
  rw [hsplit]
  exact nearestWhole_of_le hfive (k + places)

/-- A product with a power of ten has as many binary digits more as the exponent, at
least. -/
theorem le_log2_product (hn : n ≠ 0) (places : Nat) :
    n.log2 + places ≤ (n * Nat.pow 10 places).log2 := by
  have hten := ten_pow_pos places
  refine (Nat.le_log2 (Nat.mul_ne_zero hn (by omega))).mpr ?_
  rw [Nat.pow_add]
  exact Nat.mul_le_mul (Nat.log2_self_le hn) (Nat.pow_le_pow_left (by decide) places)

/-- On a grid as fine as that of the number, the rounded product ends with the zeros that
the power of ten gives it. -/
theorem exists_nearestWhole_mul_eq (hn : n ≠ 0) {k : Nat} (hk : n.log2 + k = 52) (places : Nat) :
    ∃ m, nearestWhole (n * Nat.pow 10 places) * Nat.pow 2 k = m * Nat.pow 2 places := by
  have hlog := le_log2_product hn places
  rw [nearestWhole]
  generalize (n * Nat.pow 10 places).log2 = log at hlog ⊢
  obtain ⟨more, hmore⟩ : ∃ more, log - 52 + k = more + places := ⟨log - 52 + k - places, by omega⟩
  have hsplit : 2 ^ (log - 52) * 2 ^ k = 2 ^ more * 2 ^ places := by
    rw [← Nat.pow_add, ← Nat.pow_add, hmore]
  refine ⟨divNearestEven (n * Nat.pow 10 places) (Nat.pow 2 (log - 52)) * Nat.pow 2 more, ?_⟩
  rw [Nat.mul_assoc, Nat.mul_assoc]
  exact congrArg _ hsplit

/-- A number whose product is rounded lies inside a grid. -/
theorem exists_place (hn : n ≤ 2 * binadeSize) (hplaces : places ≤ placesLimit)
    (hrank : steps rank = n * unit)
    (h : nearestWhole (n * Nat.pow 10 places) ≠ n * Nat.pow 10 places) :
    ∃ k shift, n ≠ 0 ∧ n.log2 + k = 52 ∧ unit = Nat.pow 2 k * Nat.pow 2 shift ∧
      binadeSize < n * Nat.pow 2 k ∧ n * Nat.pow 2 k < 2 * binadeSize ∧
      rank = shift * binadeSize + n * Nat.pow 2 k := by
  have hpower : ∀ k, n ≠ Nat.pow 2 k := by
    rintro k rfl
    exact h (nearestWhole_product_two_pow hplaces k)
  have hnonzero : n ≠ 0 := by
    rintro rfl
    refine h (nearestWhole_product_of_le ?_)
    rw [Nat.zero_mul]
    exact Nat.zero_le _
  have hlower : 2 ^ n.log2 < n :=
    Nat.lt_of_le_of_ne (Nat.log2_self_le hnonzero) (hpower n.log2).symm
  have hupper : n < 2 ^ (n.log2 + 1) := Nat.lt_log2_self
  have hlog : n.log2 < 53 := log2_lt hnonzero (Nat.lt_of_le_of_ne hn (hpower 53))
  obtain ⟨k, hk⟩ : ∃ k, n.log2 + k = 52 := ⟨52 - n.log2, by omega⟩
  obtain ⟨shift, -, hone⟩ := exists_unit_eq
  have hpos := two_pow_pos k
  have hunit : unit = Nat.pow 2 k * Nat.pow 2 (n.log2 + shift) := by
    rw [hone, ← hk]
    show 2 ^ (shift + (n.log2 + k)) = 2 ^ k * 2 ^ (n.log2 + shift)
    rw [← Nat.pow_add, Nat.add_left_comm, ← Nat.add_assoc, Nat.add_comm k, Nat.add_right_comm]
  have hfirst : binadeSize = 2 ^ n.log2 * 2 ^ k := by
    rw [← Nat.pow_add, hk]
    rfl
  have hlast : 2 * binadeSize = 2 ^ (n.log2 + 1) * 2 ^ k := by
    rw [← Nat.pow_add, Nat.add_right_comm, hk]
    rfl
  have habove : binadeSize < n * Nat.pow 2 k := by
    rw [hfirst]
    exact (Nat.mul_lt_mul_right hpos).mpr hlower
  have hbelow : n * Nat.pow 2 k < 2 * binadeSize := by
    rw [hlast]
    exact (Nat.mul_lt_mul_right hpos).mpr hupper
  have hplace : OnGrid (n.log2 + shift) (n * Nat.pow 2 k) :=
    ⟨Nat.le_of_lt hbelow, .inr (Nat.le_of_lt habove)⟩
  refine ⟨k, n.log2 + shift, hnonzero, hk, hunit, habove, hbelow, steps_injective ?_⟩
  rw [steps_binade hplace, hrank, hunit, Nat.mul_assoc]

/-- On the grid of the number the rounded product is compared without its zeros. -/
theorem kept_iff_onGrid {k m : Nat} (hk : n.log2 + k = 52)
    (hm : nearestWhole (n * Nat.pow 10 places) * Nat.pow 2 k = m * Nat.pow 2 places) :
    Kept n places ↔ 2 * m < 2 * (n * Nat.pow 2 k * Nat.pow 5 places) + Nat.pow 5 places ∧
      2 * (n * Nat.pow 2 k * Nat.pow 5 places) < 2 * m + Nat.pow 5 places := by
  -- All terms have the two powers of two in common.
  have hcommon : 0 < Nat.pow 2 n.log2 * Nat.pow 2 places :=
    Nat.mul_pos (two_pow_pos _) (two_pow_pos _)
  have hgrid : Nat.pow 2 n.log2 * Nat.pow 2 k = Nat.pow 2 52 := by
    rw [← hk]
    exact (Nat.pow_add 2 n.log2 k).symm
  have hdigits : Nat.pow 2 53 = 2 * (Nat.pow 2 n.log2 * Nat.pow 2 k) := by
    have htwice : Nat.pow 2 53 = 2 * Nat.pow 2 52 := by decide
    rw [htwice, hgrid]
  have hproduct : Nat.pow 2 53 * nearestWhole (n * Nat.pow 10 places)
      = 2 * m * (Nat.pow 2 n.log2 * Nat.pow 2 places) := by
    calc Nat.pow 2 53 * nearestWhole (n * Nat.pow 10 places)
        = 2 * Nat.pow 2 n.log2 * (nearestWhole (n * Nat.pow 10 places) * Nat.pow 2 k) := by
          rw [hdigits]
          ac_rfl
      _ = 2 * m * (Nat.pow 2 n.log2 * Nat.pow 2 places) := by
          rw [hm]
          ac_rfl
  have hexact : Nat.pow 2 53 * (n * Nat.pow 10 places)
      = 2 * (n * Nat.pow 2 k * Nat.pow 5 places) * (Nat.pow 2 n.log2 * Nat.pow 2 places) := by
    rw [hdigits, ten_pow_eq]
    ac_rfl
  have hslack : Nat.pow 2 n.log2 * Nat.pow 10 places
      = Nat.pow 5 places * (Nat.pow 2 n.log2 * Nat.pow 2 places) := by
    rw [ten_pow_eq]
    ac_rfl
  unfold Kept
  dsimp only
  rw [hproduct, hexact, hslack, ← Nat.add_mul, ← Nat.add_mul, Nat.mul_lt_mul_right hcommon,
    Nat.mul_lt_mul_right hcommon]

end Products

/-! ### Rounded whole numbers -/

section Ranks

variable {n places rank : Nat}

/-- The rank to which a whole number is rounded. -/
theorem roundedRank_of_steps (h : steps rank = n * unit) :
    roundedRank rank places
      = nearestRank (nearestWhole (n * Nat.pow 10 places) * unit) (Nat.pow 10 places) := by
  have hscaled : steps rank * Nat.pow 10 places = n * Nat.pow 10 places * unit := by
    rw [h, Nat.mul_right_comm]
  have hwhole := wholeNearest_of_steps (steps_nearestRank_unit (n * Nat.pow 10 places))
  unfold roundedRank
  dsimp only
  rw [hscaled, hwhole, nearestWhole_nearestWhole]

/-- A whole number is rounded to itself exactly if it is kept. -/
theorem roundedRank_eq_iff (hn : n ≤ 2 * binadeSize) (hplaces : places ≤ placesLimit)
    (h : steps rank = n * unit) : roundedRank rank places = rank ↔ Kept n places := by
  rw [roundedRank_of_steps h]
  by_cases hexact : nearestWhole (n * Nat.pow 10 places) = n * Nat.pow 10 places
  · refine iff_of_true ?_ (kept_of_nearestWhole_eq hexact)
    rw [hexact, Nat.mul_right_comm, Nat.mul_comm, nearestRank_mul_self (ten_pow_pos places), ← h,
      nearestRank_steps]
  · obtain ⟨k, shift, hnonzero, hk, hunit, hlower, hupper, hrank⟩ :=
      exists_place hn hplaces h hexact
    obtain ⟨m, hm⟩ := exists_nearestWhole_mul_eq hnonzero hk places
    have hfactor : 0 < Nat.pow 2 shift * Nat.pow 2 places :=
      Nat.mul_pos (two_pow_pos shift) (two_pow_pos places)
    have hnum : nearestWhole (n * Nat.pow 10 places) * unit
        = Nat.pow 2 shift * Nat.pow 2 places * m := by
      rw [hunit, ← Nat.mul_assoc, hm]
      ac_rfl
    have hden : Nat.pow 10 places * Nat.pow 2 shift
        = Nat.pow 2 shift * Nat.pow 2 places * Nat.pow 5 places := by
      rw [ten_pow_eq]
      ac_rfl
    have hodd : Nat.pow 5 places % 2 = 1 := by
      show 5 ^ places % 2 = 1
      rw [Nat.pow_mod, show 5 % 2 = 1 from rfl, Nat.one_pow]
    rw [hrank, nearestRank_eq_iff (ten_pow_pos places) hlower hupper, hnum, hden,
      divNearestEven_mul_mul hfactor, divNearestEven_eq_iff hodd, kept_iff_onGrid hk hm]

/-- A rounded whole number has the units of the number itself exactly if it is kept. -/
theorem inPlaces_roundedRank_iff (hn : n ≤ 2 * binadeSize) (hplaces : places ≤ placesLimit)
    (h : steps rank = n * unit) :
    inPlaces (roundedRank rank places) places = n * Nat.pow 10 places ↔ Kept n places := by
  have hiff := roundedRank_eq_iff hn hplaces h
  constructor
  · intro hunits
    refine Decidable.byContradiction fun hkept => ?_
    have hexact : nearestWhole (n * Nat.pow 10 places) ≠ n * Nat.pow 10 places :=
      mt kept_of_nearestWhole_eq hkept
    obtain ⟨k, shift, -, -, hunit, hlower, hupper, hrank⟩ := exists_place hn hplaces h hexact
    -- The product has more than 53 digits, so the place of the grid is not as fine as `places`.
    have hlong : 2 * binadeSize < n * Nat.pow 10 places :=
      Nat.lt_of_not_le (mt nearestWhole_eq_self hexact)
    have hfine : Nat.pow 2 k < Nat.pow 10 places :=
      Nat.lt_of_mul_lt_mul_left (Nat.lt_trans hupper hlong)
    have hcoarse : unit < Nat.pow 2 shift * Nat.pow 10 places := by
      rw [hunit, Nat.mul_comm]
      exact (Nat.mul_lt_mul_left (two_pow_pos shift)).mpr hfine
    -- The rounded number is another one, and so at least one place of the grid away.
    have hother : roundedRank rank places ≠ shift * binadeSize + n * Nat.pow 2 k := fun heq =>
      hkept (hiff.mp (heq.trans hrank.symm))
    have hgap := steps_gap hlower hupper hother
    rw [Nat.mul_assoc, ← hunit] at hgap
    have hfar := hgap.imp (Nat.mul_le_mul_right (Nat.pow 10 places))
      (Nat.mul_le_mul_right (Nat.pow 10 places))
    rw [Nat.add_mul, Nat.add_mul, Nat.mul_right_comm n] at hfar
    have herror := divNearestEven_error unit_pos
      (steps (roundedRank rank places) * Nat.pow 10 places)
    rw [← inPlaces, hunits] at herror
    omega
  · intro hkept
    rw [hiff.mpr hkept, inPlaces, h, Nat.mul_right_comm, divNearestEven_mul_self unit_pos]

end Ranks

/-! ### Texts of whole numbers -/

/-- A text of a whole number: its digits in groups, and zeros in all places. -/
def IsWholeText (n : Int) (places : Nat) (text : List Char) : Prop :=
  ∃ grouped, Grouped (digits n.natAbs) grouped ∧
    text = (if n < 0 then ['-'] else []) ++ grouped
      ++ (if places = 0 then [] else '.' :: List.replicate places '0')

/-- The digits of a natural number are decimal digits. -/
theorem isDigit_of_mem_digits {n : Nat} {c : Char} (h : c ∈ digits n) : c.isDigit = true :=
  Nat.isDigit_of_mem_toDigits (by decide) (by decide) h

/-- The digits in the text of a whole number are that number of ones. -/
theorem IsWholeText.value {n : Int} {places : Nat} {text : List Char}
    (h : IsWholeText n places text) :
    Nat.ofDigitChars 10 (text.filter Char.isDigit) 0 = n.natAbs * Nat.pow 10 places := by
  obtain ⟨grouped, hgrouped, rfl⟩ := h
  have hwhole := hgrouped.filter_isDigit fun c hc => isDigit_of_mem_digits hc
  have hsign : (if n < 0 then ['-'] else []).filter Char.isDigit = [] := by
    split <;> rfl
  have hzeros : (if places = 0 then [] else '.' :: List.replicate places '0').filter Char.isDigit
      = List.replicate places '0' := by
    split
    · next hzero => rw [hzero]; rfl
    · exact List.filter_replicate_of_pos rfl
  rw [List.filter_append, List.filter_append, hsign, hwhole, hzeros, List.nil_append,
    Nat.ofDigitChars_append, Nat.ofDigitChars_replicate_zero, digits,
    Nat.ofDigitChars_ten_toDigits, Nat.mul_comm]
  rfl

/-- A number of ones has its digits before the point and zeros behind it. -/
theorem fixedParts_eq {rank places n : Nat} (h : inPlaces rank places = n * Nat.pow 10 places) :
    fixedParts rank places = (digits n, List.replicate places '0') := by
  have hten := ten_pow_pos places
  unfold fixedParts
  dsimp only
  rw [h, Nat.mul_div_cancel n hten, Nat.mul_mod_left]
  cases places with
  | zero => rfl
  | succ places =>
    rw [if_neg (Nat.succ_ne_zero places), List.replicate_succ']
    rfl

/-- A number is written as a whole number exactly if it is rounded to the units of that. -/
theorem isWholeText_formatGrouped_iff {x : Binary64} {n : Int} {places : Nat} {negative : Bool}
    {rounded : Fin rankCount} (hsign : x.isNegative = decide (n < 0))
    (hround : roundTo x.abs places = .finite negative rounded) :
    IsWholeText n places (formatGrouped x places).toList ↔
      inPlaces rounded places = n.natAbs * Nat.pow 10 places := by
  constructor
  · intro htext
    rw [← htext.value, (isNumberText_of_roundTo hround).value]
  · intro hunits
    refine ⟨_, grouped_groupDigits Nat.toDigits_ne_nil, ?_⟩
    have hnonzero : n < 0 →
        (digits n.natAbs ++ List.replicate places '0').any (· != '0') = true := by
      intro hneg
      obtain ⟨d, ds, hds, hd⟩ := Json.exists_toDigits (show n.natAbs ≠ 0 by omega)
      rw [digits, hds]
      simp [hd]
    simp only [formatGrouped, hround, fixedParts_eq hunits, hsign, String.toList_ofList]
    by_cases hneg : n < 0
    · simp [hneg, hnonzero hneg]
    · simp [hneg]

/-! ### Whole numbers as values -/

section Values

variable {n : Int} {places : Nat}

/-- A whole number that is held as it is. -/
theorem exists_ofInt (hn : n.natAbs ≤ Nat.pow 2 53) :
    ∃ rank : Fin rankCount, ofInt n = .finite (n < 0) rank ∧ steps rank = n.natAbs * unit ∧
      (ofInt n).isNegative = decide (n < 0) := by
  obtain ⟨rank, hx, hrank⟩ := exists_ofNatSigned (n < 0) hn
  have hofInt : ofInt n = .finite (n < 0) rank := hx
  refine ⟨rank, hofInt, hrank, ?_⟩
  rw [hofInt, isNegative_finite]
  by_cases hneg : n < 0
  · have hnonzero : rank.val ≠ 0 := by
      intro hzero
      have hpos : 0 < n.natAbs * unit := Nat.mul_pos (by omega) unit_pos
      rw [← hrank, hzero, steps_zero] at hpos
      exact Nat.lt_irrefl 0 hpos
    simp [hneg, hnonzero]
  · simp [hneg]

/-- The product of a whole number of 53 binary digits with a power of ten is finite. -/
theorem product_lt_overflowSteps {m rank : Nat} (hm : m ≤ Nat.pow 2 53)
    (hplaces : places ≤ placesLimit) (hrank : steps rank = m * unit) :
    steps rank * Nat.pow 10 places < overflowSteps := by
  have hten := pow_le_pow (show 0 < 10 by decide) hplaces
  rw [hrank]
  refine Nat.lt_of_le_of_lt (Nat.mul_le_mul (Nat.mul_le_mul_right unit hm) hten) ?_
  decide +kernel

/-- A whole number is rounded to a number, to itself exactly if it is kept. -/
theorem exists_roundTo_ofInt (hn : n.natAbs ≤ Nat.pow 2 53) (hplaces : places ≤ placesLimit) :
    ∃ y, Value.ofBinary64 (roundTo (ofInt n) places) = .number y ∧
      (y = ofInt n ↔ Kept n.natAbs places) := by
  obtain ⟨rank, hofInt, hrank, -⟩ := exists_ofInt hn
  have hproduct := product_lt_overflowSteps hn hplaces hrank
  obtain ⟨rounded, hrounded, hround⟩ := roundTo_of_lt (n < 0) hplaces hproduct
  rw [hofInt]
  refine ⟨.finite (n < 0) rounded, ?_, ?_⟩
  · rw [hround]
    rfl
  · rw [← roundedRank_eq_iff hn hplaces hrank, ← hrounded, Binary64.finite.injEq, Fin.ext_iff,
      and_iff_right rfl]

/-- A whole number is written as one exactly if it is kept. -/
theorem isWholeText_ofInt_iff (hn : n.natAbs ≤ Nat.pow 2 53) (hplaces : places ≤ placesLimit) :
    IsWholeText n places (formatGrouped (ofInt n) places).toList ↔ Kept n.natAbs places := by
  obtain ⟨rank, hofInt, hrank, hsign⟩ := exists_ofInt hn
  have hproduct := product_lt_overflowSteps hn hplaces hrank
  obtain ⟨rounded, hrounded, hround⟩ := roundTo_of_lt false hplaces hproduct
  have habs : roundTo (ofInt n).abs places = .finite false rounded := by
    rw [hofInt]
    exact hround
  rw [isWholeText_formatGrouped_iff hsign habs, hrounded,
    inPlaces_roundedRank_iff hn hplaces hrank]

end Values

/-- Rounding to places gives a whole number unchanged, and `formatN` writes its digits and
zeros, exactly if the number is kept. Otherwise both give another number. A number is kept
if its product with the power of five has no more than 53 binary digits. -/
theorem kept_iff {n : Int} (hn : n.natAbs ≤ Nat.pow 2 53) {parameters : List Value}
    (hparameters : AsksPlaces parameters) :
    (∃ places ≤ placesLimit, places? parameters 0 = some places ∧
      ∃ y, Formatter.round (.number (ofInt n)) parameters = .number y ∧
        (y = ofInt n ↔ Kept n.natAbs places)) ∧
    (∃ places ≤ placesLimit, places? parameters 2 = some places ∧
      ∃ text, formatN (.number (ofInt n)) parameters = .text text ∧
        (IsWholeText n places text.toList ↔ Kept n.natAbs places)) ∧
    ∀ places, n.natAbs * Nat.pow 5 places ≤ Nat.pow 2 53 → Kept n.natAbs places := by
  refine ⟨?_, ?_, fun places h => kept_of_le h⟩
  · obtain ⟨places, hplaces, hsome⟩ := exists_places? hparameters (show 0 ≤ placesLimit by decide)
    refine ⟨places, hplaces, hsome, ?_⟩
    rw [Formatter.round, hsome]
    exact exists_roundTo_ofInt hn hplaces
  · obtain ⟨places, hplaces, hsome⟩ := exists_places? hparameters (show 2 ≤ placesLimit by decide)
    refine ⟨places, hplaces, hsome, formatGrouped (ofInt n) places, ?_, ?_⟩
    · rw [formatN, hsome]
      rfl
    · exact isWholeText_ofInt_iff hn hplaces

/-- Not every whole number is kept with two places. -/
example : ¬ Kept 360287970189641 2 := by
  decide +kernel

/-- A whole number to two places. -/
theorem kept_iff_million :
    Formatter.round (.number (ofInt (-1234567))) [.number (ofInt 2)] = .number (ofInt (-1234567)) ∧
      ∃ text, formatN (.number (ofInt (-1234567))) [.number (ofInt 2)] = .text text ∧
        IsWholeText (-1234567) 2 text.toList := by
  have hn : Int.natAbs (-1234567) ≤ Nat.pow 2 53 := by decide
  have hparameters : AsksPlaces [.number (ofInt 2)] := .inr ⟨_, rfl⟩
  obtain ⟨⟨places, -, hround, y, hy, hkept⟩, ⟨places', -, hformat, text, htext, hkept'⟩, hle⟩ :=
    kept_iff hn hparameters
  have htwo : places? [.number (ofInt 2)] 0 = some 2 ∧ places? [.number (ofInt 2)] 2 = some 2 := by
    decide +kernel
  obtain rfl := Option.some.inj (htwo.1.symm.trans hround)
  obtain rfl := Option.some.inj (htwo.2.symm.trans hformat)
  have hsmall := hle 2 (by decide)
  rw [hkept.mpr hsmall] at hy
  exact ⟨hy, text, htext, hkept'.mpr hsmall⟩

/-- A whole number to two places that is written as another number. -/
theorem not_forall_kept :
    ¬ ∀ (n : Int) (parameters : List Value), n.natAbs ≤ Nat.pow 2 53 → AsksPlaces parameters →
      Formatter.round (.number (ofInt n)) parameters = .number (ofInt n) ∧
        ∃ places text, places? parameters 2 = some places ∧
          formatN (.number (ofInt n)) parameters = .text text ∧
          IsWholeText n places text.toList := by
  intro h
  obtain ⟨-, places, text, hplaces, htext, hwhole⟩ :=
    h 360287970189641 [] (by decide) (.inl rfl)
  have hformat : formatN (.number (ofInt 360287970189641)) []
      = .text "360,287,970,189,640.94" := by
    decide +kernel
  obtain rfl : "360,287,970,189,640.94" = text := Value.text.inj (hformat.symm.trans htext)
  obtain rfl : 2 = places := Option.some.inj hplaces
  exact absurd hwhole.value (by decide +kernel)

end TagTemplate.Proofs.Formatter
