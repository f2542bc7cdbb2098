import TagTemplate.Binary64.Arithmetic
import TagTemplate.Binary64.Decimal
import TagTemplate.Proofs.Binary64.Rounding

/-!
# `TagTemplate.Proofs.Binary64.Finite`: results that stay finite

A rounded magnitude is finite if the exact one is not above the greatest finite
magnitude (`nearestRank_lt`), as the whole numbers of up to 1023 binary digits are not
(`mul_unit_le_maxSteps`). So the natural numbers that 64 bits hold are finite
(`isFinite_ofNatSigned`), and so is the quotient of a finite number by a power of
ten, which is not less than one (`isFinite_div_ofDecimal`).
-/

set_option autoImplicit false

namespace TagTemplate.Proofs.Binary64

open TagTemplate.Binary64

/-! ### The greatest finite magnitude -/

/-- The greatest finite magnitude in steps. -/
def maxSteps : Nat := (2 * binadeSize - 1) * Nat.pow 2 lastShift

/-- A magnitude of finite rank is not above the greatest one. -/
theorem steps_le_maxSteps {rank : Nat} (h : rank < rankCount) : steps rank ≤ maxSteps := by
  have hlast : rankCount - 1 = lastShift * binadeSize + (2 * binadeSize - 1) := by decide
  have hgrid : OnGrid lastShift (2 * binadeSize - 1) := ⟨by decide, .inr (by decide)⟩
  have hgreatest : steps (rankCount - 1) = maxSteps := by
    rw [hlast, steps_binade hgrid, maxSteps]
  rw [← hgreatest]
  exact steps_le_steps (Nat.le_sub_one_of_lt h)

/-- The greatest magnitude lies before the end of its grid. -/
theorem maxSteps_lt : maxSteps < overflowSteps := by
  rw [maxSteps, overflowSteps, two_pow_lastShift, ← Nat.mul_assoc]
  exact (Nat.mul_lt_mul_right (two_pow_pos _)).mpr (by decide)

/-- The powers of two on the last grid are not above the greatest magnitude. -/
theorem two_pow_le_maxSteps {k : Nat} (h : k ≤ lastShift + 52) : Nat.pow 2 k ≤ maxSteps := by
  refine Nat.le_trans (pow_le_pow Nat.two_pos h) ?_
  rw [Nat.add_comm, two_pow_add, maxSteps]
  exact Nat.mul_le_mul_right _ (by decide)

/-- A whole number of up to `1023` binary digits is not above the greatest magnitude. -/
theorem mul_unit_le_maxSteps {n k : Nat} (hn : n ≤ Nat.pow 2 k) (hk : k ≤ 1023) :
    n * unit ≤ maxSteps := by
  obtain ⟨shift, hshift, hunit⟩ := exists_unit_eq
  refine Nat.le_trans (Nat.mul_le_mul_right unit hn) ?_
  rw [hunit, ← two_pow_add]
  exact two_pow_le_maxSteps (by unfold lastShift; omega)

/-- The greatest magnitude is whole. -/
theorem exists_maxSteps_eq : ∃ n, maxSteps = n * unit := by
  obtain ⟨shift, hshift, hunit⟩ := exists_unit_eq
  have hsplit : lastShift = lastShift - (shift + 52) + (shift + 52) := by
    unfold lastShift
    omega
  refine ⟨(2 * binadeSize - 1) * Nat.pow 2 (lastShift - (shift + 52)), ?_⟩
  rw [hunit, Nat.mul_assoc, ← two_pow_add, ← hsplit, maxSteps]

/-! ### Rounding -/

/-- The nearest rank of a magnitude that is not above the greatest one is finite. -/
theorem nearestRank_lt {num den : Nat} (hden : 0 < den) (h : num ≤ den * maxSteps) :
    nearestRank num den < rankCount := by
  refine (nearestRank_lt_iff hden).mpr (Nat.lt_of_le_of_lt h ?_)
  exact (Nat.mul_lt_mul_left hden).mpr maxSteps_lt

/-- A value of finite rank is finite. -/
theorem isFinite_ofRank {negative : Bool} {rank : Nat} (h : rank < rankCount) :
    (ofRank negative rank).isFinite = true := by
  rw [ofRank, dif_pos h]
  rfl

/-- A value that is not above the greatest magnitude is finite. -/
theorem isFinite_ofSteps {negative : Bool} {num den : Nat} (hden : 0 < den)
    (h : num ≤ den * maxSteps) : (ofSteps negative num den).isFinite = true :=
  isFinite_ofRank (nearestRank_lt hden h)

/-! ### Results -/

/-- A natural number of 64 bits is finite. -/
theorem isFinite_ofNatSigned {negative : Bool} {n : Nat} (h : n ≤ Nat.pow 2 64) :
    (ofNatSigned negative n).isFinite = true := by
  refine isFinite_ofSteps Nat.one_pos ?_
  rw [Nat.one_mul]
  exact mul_unit_le_maxSteps h (by decide)

/-- The sign does not matter. -/
@[simp]
theorem isFinite_neg (x : Binary64) : (neg x).isFinite = x.isFinite := by
  cases x <;> rfl

/-- A power of ten that is not too great is rounded once. -/
theorem ofDecimal_one {k : Nat} (hk : k < 309) :
    ofDecimal false 1 k = ofSteps false (Nat.pow 10 k * unit) 1 := by
  have hlength : decimalLength 1 = 1 := by rw [decimalLength, if_pos (by decide)]
  unfold ofDecimal
  dsimp only
  rw [hlength, if_neg (by omega), if_neg (by omega), if_pos (by omega), Nat.one_mul,
    Int.toNat_natCast]

/-- A magnitude of at least `2 ^ (shift + 52)` steps keeps that many when it is
rounded. -/
theorem le_steps_nearestRank {num : Nat} (shift : Nat) (h : Nat.pow 2 (shift + 52) ≤ num) :
    Nat.pow 2 (shift + 52) ≤ steps (nearestRank num 1) := by
  have hnonzero : num ≠ 0 := by
    have := two_pow_pos (shift + 52)
    omega
  have hlog : shift + 52 ≤ num.log2 := (Nat.le_log2 hnonzero).mpr h
  obtain ⟨more, hmore⟩ : ∃ more, num.log2 = 52 + more := ⟨num.log2 - 52, by omega⟩
  have hgrid : gridShift num 1 = more := by
    rw [gridShift, Nat.div_one, hmore, Nat.add_sub_cancel_left]
  have hround : binadeSize ≤ divNearestEven num (Nat.pow 2 more) := by
    refine le_divNearestEven (two_pow_pos more) ?_
    have hle := Nat.log2_self_le hnonzero
    rwa [hmore, Nat.pow_add] at hle
  have hsplit : Nat.pow 2 (shift + 52) = binadeSize * Nat.pow 2 shift := by
    rw [Nat.add_comm]
    exact Nat.pow_add 2 52 shift
  rw [steps_nearestRank Nat.one_pos, hgrid, Nat.one_mul, hsplit]
  exact Nat.mul_le_mul hround (pow_le_pow Nat.two_pos (by omega))

/-- A finite number divided by a power of ten is finite. -/
theorem isFinite_div_ofDecimal {x : Binary64} (hx : x.isFinite = true) {k : Nat} (hk : k < 309) :
    (div x (ofDecimal false 1 k)).isFinite = true := by
  have hpower : unit ≤ Nat.pow 10 k * unit := Nat.le_mul_of_pos_left _ (ten_pow_pos k)
  have hle : unit ≤ steps (nearestRank (Nat.pow 10 k * unit) 1) := by
    obtain ⟨shift, -, hunit⟩ := exists_unit_eq
    rw [hunit] at hpower ⊢
    exact le_steps_nearestRank shift hpower
  have hrank : nearestRank (Nat.pow 10 k * unit) 1 < rankCount := by
    refine nearestRank_lt Nat.one_pos ?_
    have hlast : k ≤ 308 := by omega
    have hpow := pow_le_pow (show 0 < 10 by decide) hlast
    rw [Nat.one_mul]
    exact Nat.le_trans (Nat.mul_le_mul_right unit hpow) (by decide +kernel)
  rw [ofDecimal_one hk, ofSteps, ofRank, dif_pos hrank]
  generalize nearestRank (Nat.pow 10 k * unit) 1 = rank at hrank hle
  cases x with
  | infinite negative => cases hx
  | nan => cases hx
  | finite negative magnitude =>
    have hsteps : 0 < steps rank := Nat.lt_of_lt_of_le unit_pos hle
    have hnonzero : rank ≠ 0 := by
      intro hzero
      rw [hzero, steps_zero] at hsteps
      exact Nat.lt_irrefl 0 hsteps
    rw [div, if_neg hnonzero]
    refine isFinite_ofSteps hsteps ?_
    rw [Nat.mul_comm]
    exact Nat.mul_le_mul hle (steps_le_maxSteps magnitude.isLt)

end TagTemplate.Proofs.Binary64
