import TagTemplate.Binary64.Integral
import TagTemplate.Proofs.Binary64.Finite

/-!
# `TagTemplate.Proofs.Binary64.WholeNumbers`: whole numbers and their products

A whole number is rounded to 53 binary digits (`nearestWhole`), and one of no more digits,
with any zeros behind them, is not rounded at all (`nearestWhole_mul_pow`). So whole
numbers up to `2 ^ 53` and the powers of ten up to `10 ^ 15` are held as they are
(`exists_ofNatSigned`, `exists_powerOfTen`), and products and quotients with them are
rounded once (`mul_whole`, `div_whole`).
-/

set_option autoImplicit false

namespace TagTemplate.Proofs.Binary64

open TagTemplate.Binary64

/-! ### Rounded whole numbers -/

/-- A whole number rounded to 53 binary digits. -/
def nearestWhole (n : Nat) : Nat :=
  divNearestEven n (Nat.pow 2 (n.log2 - 52)) * Nat.pow 2 (n.log2 - 52)

/-- A whole number of steps is rounded as a whole number is. -/
@[simp]
theorem steps_nearestRank_one (n : Nat) : steps (nearestRank n 1) = nearestWhole n := by
  rw [steps_nearestRank Nat.one_pos, gridShift, Nat.div_one, Nat.one_mul, nearestWhole]

/-- A magnitude is not rounded. -/
@[simp]
theorem nearestWhole_steps (rank : Nat) : nearestWhole (steps rank) = steps rank := by
  rw [← steps_nearestRank_one, nearestRank_steps]

/-- A rounded number is not rounded again. -/
@[simp]
theorem nearestWhole_nearestWhole (n : Nat) : nearestWhole (nearestWhole n) = nearestWhole n := by
  rw [← steps_nearestRank_one n, nearestWhole_steps]

/-- A number of 53 binary digits with zeros behind them is a magnitude. -/
theorem exists_steps_eq {n : Nat} (h : n ≤ 2 * binadeSize) (k : Nat) :
    ∃ rank, steps rank = n * Nat.pow 2 k := by
  induction k generalizing n with
  | zero =>
    have hgrid : OnGrid 0 n := ⟨h, .inl rfl⟩
    exact ⟨_, steps_binade hgrid⟩
  | succ k ih =>
    by_cases hle : n ≤ binadeSize
    · -- There is room for one more digit before the zeros.
      obtain ⟨rank, hrank⟩ := ih (Nat.mul_le_mul_left 2 hle)
      refine ⟨rank, hrank.trans ?_⟩
      show 2 * n * 2 ^ k = n * 2 ^ (k + 1)
      rw [Nat.pow_succ', Nat.mul_left_comm, Nat.mul_assoc]
    · exact ⟨_, steps_binade ⟨h, .inr (by omega)⟩⟩

/-- A number of 53 binary digits with zeros behind them is not rounded. -/
theorem nearestWhole_of_le {n : Nat} (h : n ≤ 2 * binadeSize) (k : Nat) :
    nearestWhole (n * Nat.pow 2 k) = n * Nat.pow 2 k := by
  obtain ⟨rank, hrank⟩ := exists_steps_eq h k
  rw [← hrank, nearestWhole_steps]

/-- A number of 53 binary digits is not rounded. -/
theorem nearestWhole_eq_self {n : Nat} (h : n ≤ 2 * binadeSize) : nearestWhole n = n := by
  have hself := nearestWhole_of_le h 0
  rwa [show Nat.pow 2 0 = 1 from rfl, Nat.mul_one] at hself

/-- Zeros behind the binary digits of a number do not matter when it is rounded. -/
theorem nearestWhole_mul_pow (n k : Nat) :
    nearestWhole (n * Nat.pow 2 k) = nearestWhole n * Nat.pow 2 k := by
  by_cases hsmall : n ≤ 2 * binadeSize
  · rw [nearestWhole_of_le hsmall k, nearestWhole_eq_self hsmall]
  · have hnonzero : n ≠ 0 := by omega
    have hlarge : Nat.pow 2 52 ≤ n := Nat.le_trans (by decide) (Nat.le_of_not_le hsmall)
    have hlog : 52 ≤ n.log2 := (Nat.le_log2 hnonzero).mpr hlarge
    have hsplit : Nat.pow 2 (n.log2 + k - 52) = Nat.pow 2 k * Nat.pow 2 (n.log2 - 52) := by
      rw [show n.log2 + k - 52 = k + (n.log2 - 52) by omega]
      exact Nat.pow_add 2 k (n.log2 - 52)
    rw [nearestWhole, log2_mul_pow hnonzero, hsplit, Nat.mul_comm n,
      divNearestEven_mul_mul (two_pow_pos k), Nat.mul_left_comm, Nat.mul_comm]
    rfl

/-! ### Numbers that are whole -/

/-- The magnitude of a whole number is that of the rounded one. -/
theorem steps_nearestRank_unit (n : Nat) :
    steps (nearestRank (n * unit) 1) = nearestWhole n * unit := by
  obtain ⟨shift, -, hunit⟩ := exists_unit_eq
  rw [steps_nearestRank_one, hunit, nearestWhole_mul_pow]

/-- Whole numbers up to `2 ^ 53` are held as they are. -/
theorem exists_ofNatSigned (negative : Bool) {n : Nat} (h : n ≤ 2 * binadeSize) :
    ∃ rank : Fin rankCount, ofNatSigned negative n = .finite negative rank ∧
      steps rank = n * unit := by
  have hfinite : nearestRank (n * unit) 1 < rankCount := by
    refine nearestRank_lt Nat.one_pos ?_
    rw [Nat.one_mul]
    exact mul_unit_le_maxSteps (Nat.le_trans h (by decide : 2 * binadeSize ≤ Nat.pow 2 53))
      (by decide)
  refine ⟨⟨_, hfinite⟩, dif_pos hfinite, ?_⟩
  rw [steps_nearestRank_unit, nearestWhole_eq_self h]

/-- The powers of ten up to `10 ^ 15` are held as they are. -/
theorem exists_powerOfTen {k : Nat} (h : k ≤ 15) :
    ∃ rank : Fin rankCount, powerOfTen k = .finite false rank ∧
      steps rank = Nat.pow 10 k * unit := by
  have hpower : ∀ k ≤ 15, powerOfTen k = ofNatSigned false (Nat.pow 10 k) := by
    decide +kernel
  rw [hpower k h]
  refine exists_ofNatSigned false (Nat.le_trans (pow_le_pow (by decide) h) (by decide))

/-- A product with a whole number is rounded once. -/
theorem mul_whole {s : Bool} {a b : Fin rankCount} {n : Nat} (hb : steps b = n * unit) :
    mul (.finite s a) (.finite false b) = ofRank s (nearestRank (steps a * n) 1) := by
  rw [mul, hb, Bool.bne_false, ofSteps, ← Nat.mul_assoc, Nat.mul_comm _ unit,
    nearestRank_mul_self unit_pos]

/-- A quotient by a whole number is rounded once. -/
theorem div_whole {s : Bool} {a b : Fin rankCount} {n : Nat} (hb : steps b = n * unit)
    (hn : 0 < n) :
    div (.finite s a) (.finite false b) = ofRank s (nearestRank (steps a) n) := by
  have hnonzero : b.val ≠ 0 := by
    intro hzero
    have hsteps : 0 < steps b := hb ▸ Nat.mul_pos hn unit_pos
    rw [hzero, steps_zero] at hsteps
    exact Nat.lt_irrefl 0 hsteps
  rw [div, if_neg hnonzero, hb, Bool.bne_false, ofSteps, Nat.mul_comm _ unit, Nat.mul_comm n,
    nearestRank_mul_mul unit_pos]

/-- A number whose magnitude is whole is rounded to it. -/
theorem wholeNearest_of_steps {rank n : Nat} (h : steps rank = n * unit) :
    wholeNearest rank = n := by
  have hunit := unit_pos
  rw [wholeNearest, h, Nat.div_eq_iff (by omega), Nat.mul_left_comm]
  omega

/-- The nearest whole number of a finite number is finite. -/
theorem nearestRank_wholeNearest_lt {rank : Nat} (h : rank < rankCount) :
    nearestRank (wholeNearest rank * unit) 1 < rankCount := by
  have hunit := unit_pos
  have hsteps := steps_le_maxSteps h
  obtain ⟨greatest, hgreatest⟩ := exists_maxSteps_eq
  have hnext : (greatest + 1) * (2 * unit) = 2 * maxSteps + 2 * unit := by
    rw [hgreatest, Nat.add_mul, Nat.one_mul, Nat.mul_left_comm]
  have hwhole : wholeNearest rank < greatest + 1 := by
    rw [wholeNearest, Nat.div_lt_iff_lt_mul (by omega), hnext]
    omega
  refine nearestRank_lt Nat.one_pos ?_
  rw [Nat.one_mul, hgreatest]
  exact Nat.mul_le_mul_right unit (Nat.le_of_lt_succ hwhole)

end TagTemplate.Proofs.Binary64
