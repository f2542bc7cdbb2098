import Mathlib.Tactic.SplitIfs
import TagTemplate.Binary64.Basic

/-!
# `TagTemplate.Proofs.Binary64.Rounding`: the nearest magnitude

A rounded quotient is at most a whole number exactly if the quotient lies below the half
above it, or on that half and the number is even (`divNearestEven_le_iff`). The bounds on
the error of a rounded quotient and its value where the error is less than a half follow.

A rank is `shift * binadeSize + q`, and `q * 2 ^ shift` is its magnitude
(`steps_binade`). So the magnitude of a nearest rank is a rounded quotient on the grid of
its binade (`steps_nearestRank`), and a magnitude is its own nearest one
(`nearestRank_steps`). Where the grid ends, a magnitude stays finite exactly if it is below
`overflowSteps` (`nearestRank_lt_iff`).
-/

set_option autoImplicit false

namespace TagTemplate.Proofs.Binary64

open TagTemplate.Binary64

/-! ### Powers -/

/-- Powers increase with their exponents. -/
theorem pow_le_pow {base a b : Nat} (hbase : 0 < base) (h : a ≤ b) :
    Nat.pow base a ≤ Nat.pow base b :=
  Nat.pow_le_pow_right hbase h

/-- A power of two is positive. -/
theorem two_pow_pos (k : Nat) : 0 < Nat.pow 2 k :=
  Nat.pow_pos Nat.two_pos

/-- A power of ten is positive. -/
theorem ten_pow_pos (k : Nat) : 0 < Nat.pow 10 k :=
  Nat.pow_pos (show 0 < 10 by decide)

/-- A sum of exponents is a product of powers. -/
theorem two_pow_add (a b : Nat) : Nat.pow 2 (a + b) = Nat.pow 2 a * Nat.pow 2 b :=
  Nat.pow_add 2 a b

/-- The next power of two is twice the power. -/
theorem two_pow_succ (k : Nat) : Nat.pow 2 (k + 1) = 2 * Nat.pow 2 k :=
  Nat.pow_succ'

/-- A binade is not empty. -/
theorem binadeSize_pos : 0 < binadeSize := by
  decide

/-- One in steps is a power of two, and not a great one. -/
theorem exists_unit_eq : ∃ shift ≤ 1022, unit = Nat.pow 2 (shift + 52) :=
  ⟨1022, Nat.le_refl _, by decide +kernel⟩

/-- One is a positive number of steps. -/
theorem unit_pos : 0 < unit := by
  obtain ⟨shift, -, hunit⟩ := exists_unit_eq
  rw [hunit]
  exact two_pow_pos _

/-- A number with at most `k` binary digits has a logarithm below `k`. -/
theorem log2_lt {n k : Nat} (hn : n ≠ 0) (h : n < Nat.pow 2 k) : n.log2 < k :=
  (Nat.log2_lt hn).mpr h

/-- A power of two as a factor adds its exponent to the logarithm. -/
theorem log2_mul_pow {n : Nat} (h : n ≠ 0) (k : Nat) : (n * Nat.pow 2 k).log2 = n.log2 + k := by
  have hlower := Nat.log2_self_le h
  have hupper : n < 2 ^ (n.log2 + 1) := Nat.lt_log2_self
  have hpos := two_pow_pos k
  have hne : n * Nat.pow 2 k ≠ 0 := Nat.mul_ne_zero h (by omega)
  rw [Nat.log2_eq_iff hne, Nat.pow_add, Nat.add_right_comm, Nat.pow_add 2 (n.log2 + 1)]
  exact ⟨Nat.mul_le_mul_right _ hlower, (Nat.mul_lt_mul_right hpos).mpr hupper⟩

/-! ### Rounded quotients -/

/-- A rounded quotient is at most a whole number if the quotient is below the half above
it, and on that half if the number is even. -/
theorem divNearestEven_le_iff {den : Nat} (hden : 0 < den) (num k : Nat) :
    divNearestEven num den ≤ k ↔
      2 * num < (2 * k + 1) * den ∨ (2 * num = (2 * k + 1) * den ∧ k % 2 = 0) := by
  have hparts := Nat.div_add_mod num den
  have hrest := Nat.mod_lt num hden
  unfold divNearestEven
  dsimp only
  generalize num / den = whole at hparts ⊢
  generalize num % den = rest at hparts hrest ⊢
  rw [← hparts, Nat.add_mul, Nat.one_mul, Nat.mul_assoc, Nat.mul_comm k]
  rcases Nat.lt_trichotomy k whole with hlt | rfl | hlt
  · have hle : den * (k + 1) ≤ den * whole := Nat.mul_le_mul_left den hlt
    rw [Nat.mul_succ] at hle
    split_ifs <;> omega
  · split_ifs <;> omega
  · have hle : den * (whole + 1) ≤ den * k := Nat.mul_le_mul_left den hlt
    rw [Nat.mul_succ] at hle
    split_ifs <;> omega

/-- A quotient is rounded by a half at most. -/
theorem divNearestEven_error {den : Nat} (hden : 0 < den) (num : Nat) :
    2 * num ≤ 2 * (divNearestEven num den * den) + den ∧
      2 * (divNearestEven num den * den) ≤ 2 * num + den := by
  have hupper := (divNearestEven_le_iff hden num _).mp (Nat.le_refl _)
  have hlower := fun k => (divNearestEven_le_iff hden num k).mpr
  generalize divNearestEven num den = q at hupper hlower ⊢
  rw [Nat.add_mul, Nat.one_mul, Nat.mul_assoc] at hupper
  refine ⟨by omega, ?_⟩
  cases q with
  | zero => omega
  | succ k =>
    have hnot := mt (hlower k) (Nat.not_succ_le_self k)
    rw [Nat.add_mul, Nat.one_mul, Nat.mul_assoc] at hnot
    rw [Nat.add_mul, Nat.one_mul]
    omega

/-- A quotient that is less than a half away from a whole number is rounded to it. -/
theorem divNearestEven_eq {num den q : Nat} (hden : 0 < den)
    (hupper : 2 * num < 2 * (q * den) + den) (hlower : 2 * (q * den) < 2 * num + den) :
    divNearestEven num den = q := by
  have herror := divNearestEven_error hden num
  generalize divNearestEven num den = p at herror ⊢
  rcases Nat.lt_trichotomy p q with hlt | heq | hlt
  · have hle : (p + 1) * den ≤ q * den := Nat.mul_le_mul_right den hlt
    rw [Nat.add_mul, Nat.one_mul] at hle
    omega
  · exact heq
  · have hle : (q + 1) * den ≤ p * den := Nat.mul_le_mul_right den hlt
    rw [Nat.add_mul, Nat.one_mul] at hle
    omega

/-- A quotient by an odd number is never half-way, so it is rounded to a whole number
exactly if it is less than a half away from it. -/
theorem divNearestEven_eq_iff {num den q : Nat} (hodd : den % 2 = 1) :
    divNearestEven num den = q ↔
      2 * num < 2 * (q * den) + den ∧ 2 * (q * den) < 2 * num + den := by
  have hden : 0 < den := by omega
  constructor
  · rintro rfl
    have herror := divNearestEven_error hden num
    omega
  · rintro ⟨hupper, hlower⟩
    exact divNearestEven_eq hden hupper hlower

/-- A rounded quotient is not above a whole bound of the exact one. -/
theorem divNearestEven_le {num den bound : Nat} (hden : 0 < den) (h : num ≤ bound * den) :
    divNearestEven num den ≤ bound := by
  refine (divNearestEven_le_iff hden num bound).mpr (.inl ?_)
  rw [Nat.add_mul, Nat.one_mul, Nat.mul_assoc]
  omega

/-- A rounded quotient is not below a whole bound of the exact one. -/
theorem le_divNearestEven {num den bound : Nat} (hden : 0 < den) (h : bound * den ≤ num) :
    bound ≤ divNearestEven num den := by
  have herror := divNearestEven_error hden num
  generalize divNearestEven num den = q at herror ⊢
  refine Nat.le_of_not_lt fun hlt => ?_
  have hle : (q + 1) * den ≤ bound * den := Nat.mul_le_mul_right den hlt
  rw [Nat.add_mul, Nat.one_mul] at hle
  omega

/-- A whole quotient is not rounded. -/
@[simp]
theorem divNearestEven_mul_self {den : Nat} (hden : 0 < den) (q : Nat) :
    divNearestEven (q * den) den = q :=
  divNearestEven_eq hden (by omega) (by omega)

/-- A common factor does not change the rounded quotient. -/
theorem divNearestEven_mul_mul {k : Nat} (hk : 0 < k) (num den : Nat) :
    divNearestEven (k * num) (k * den) = divNearestEven num den := by
  unfold divNearestEven
  simp only [Nat.mul_div_mul_left _ _ hk, Nat.mul_mod_mul_left, Nat.mul_left_comm 2 k,
    Nat.mul_lt_mul_left hk]

/-! ### Ranks and grids -/

/-- A place on the grid of a binade: from the first to the last of its magnitudes, and
in the lowest binade from zero on. -/
def OnGrid (shift q : Nat) : Prop :=
  q ≤ 2 * binadeSize ∧ (shift = 0 ∨ binadeSize ≤ q)

/-- The magnitude at a place of a grid. -/
theorem steps_binade {shift q : Nat} (h : OnGrid shift q) :
    steps (shift * binadeSize + q) = q * Nat.pow 2 shift := by
  obtain ⟨hle, hnormal⟩ := h
  have hsize := binadeSize_pos
  have hdiv : (shift * binadeSize + q) / binadeSize = shift + q / binadeSize := by
    rw [Nat.add_comm, Nat.add_mul_div_right _ _ hsize, Nat.add_comm]
  unfold steps
  rw [hdiv]
  dsimp only
  rcases Nat.lt_or_ge q binadeSize with hlow | hhigh
  · -- Below the first whole binade the rank is the magnitude.
    obtain rfl : shift = 0 := by omega
    rw [Nat.div_eq_of_lt hlow]
    simp
  · rcases Nat.eq_or_lt_of_le hle with rfl | hlt
    · -- The last magnitude is the first one of the next binade.
      have hhalf : shift * binadeSize + 2 * binadeSize - (shift + 1) * binadeSize
          = binadeSize := by
        rw [Nat.add_mul]
        omega
      rw [Nat.mul_div_cancel _ hsize]
      show (shift * binadeSize + 2 * binadeSize - (shift + 1) * binadeSize) * 2 ^ (shift + 1)
        = 2 * binadeSize * 2 ^ shift
      rw [hhalf, Nat.pow_succ', ← Nat.mul_assoc, Nat.mul_comm binadeSize 2]
    · have hone : q / binadeSize = 1 := by
        rw [Nat.div_eq_iff hsize]
        omega
      rw [hone, Nat.add_sub_cancel, Nat.add_sub_cancel_left]

/-- Zero is no step. -/
@[simp]
theorem steps_zero : steps 0 = 0 := by
  unfold steps
  exact Nat.zero_mul _

/-- Every rank is a place on a grid. -/
theorem exists_onGrid (rank : Nat) : ∃ shift q, OnGrid shift q ∧ q < 2 * binadeSize ∧
    rank = shift * binadeSize + q := by
  have hsize := binadeSize_pos
  have hwhole := Nat.div_mul_le_self rank binadeSize
  have hnext : rank < binadeSize * (rank / binadeSize + 1) := Nat.lt_mul_div_succ rank hsize
  rw [Nat.mul_comm] at hnext
  cases hbinade : rank / binadeSize with
  | zero =>
    rw [hbinade] at hnext
    exact ⟨0, rank, ⟨by omega, .inl rfl⟩, by omega, by omega⟩
  | succ shift =>
    rw [hbinade, Nat.add_mul] at hwhole
    rw [hbinade, Nat.add_mul, Nat.add_mul] at hnext
    exact ⟨shift, rank - shift * binadeSize, ⟨by omega, .inr (by omega)⟩, by omega, by omega⟩

/-- The shift of a magnitude is that of its grid. -/
theorem log2_sub_of_onGrid {shift q : Nat} (h : OnGrid shift q) (hlt : q < 2 * binadeSize) :
    (q * Nat.pow 2 shift).log2 - 52 = shift := by
  obtain ⟨-, hnormal⟩ := h
  by_cases hzero : q = 0
  · subst hzero
    have hsize := binadeSize_pos
    obtain rfl : shift = 0 := by omega
    rfl
  · have hupper : q.log2 < 53 := log2_lt hzero hlt
    rw [log2_mul_pow hzero]
    rcases hnormal with rfl | hge
    · omega
    · have hlower : 52 ≤ q.log2 := (Nat.le_log2 hzero).mpr hge
      omega

/-- A magnitude is the nearest one to itself. -/
theorem nearestRank_steps (rank : Nat) : nearestRank (steps rank) 1 = rank := by
  obtain ⟨shift, q, hgrid, hlt, rfl⟩ := exists_onGrid rank
  rw [steps_binade hgrid, nearestRank, Nat.div_one, log2_sub_of_onGrid hgrid hlt, Nat.one_mul,
    divNearestEven_mul_self (two_pow_pos shift)]

/-- Different ranks have different magnitudes. -/
theorem steps_injective {a b : Nat} (h : steps a = steps b) : a = b := by
  rw [← nearestRank_steps a, h, nearestRank_steps]

/-- The next rank has a greater magnitude. -/
theorem steps_lt_succ (rank : Nat) : steps rank < steps (rank + 1) := by
  obtain ⟨shift, q, hgrid, hlt, rfl⟩ := exists_onGrid rank
  have hnext : OnGrid shift (q + 1) := ⟨hlt, hgrid.2.imp id Nat.le_succ_of_le⟩
  rw [Nat.add_assoc, steps_binade hgrid, steps_binade hnext]
  exact (Nat.mul_lt_mul_right (two_pow_pos shift)).mpr (Nat.lt_succ_self q)

/-- Magnitudes increase with their ranks. -/
theorem steps_le_steps {a b : Nat} (h : a ≤ b) : steps a ≤ steps b := by
  induction h with
  | refl => exact Nat.le_refl _
  | step _ ih => exact Nat.le_trans ih (Nat.le_of_lt (steps_lt_succ _))

/-- Another magnitude is at least one place of the grid away from a place inside it. -/
theorem steps_gap {shift q rank : Nat} (hlower : binadeSize < q) (hupper : q < 2 * binadeSize)
    (h : rank ≠ shift * binadeSize + q) :
    steps rank + Nat.pow 2 shift ≤ q * Nat.pow 2 shift ∨
      q * Nat.pow 2 shift + Nat.pow 2 shift ≤ steps rank := by
  rcases Nat.lt_or_gt_of_ne h with hlt | hgt
  · left
    have hgrid : OnGrid shift (q - 1) := ⟨by omega, .inr (by omega)⟩
    have hle : steps rank ≤ steps (shift * binadeSize + (q - 1)) := steps_le_steps (by omega)
    rw [steps_binade hgrid] at hle
    have hone : q * Nat.pow 2 shift = (q - 1) * Nat.pow 2 shift + Nat.pow 2 shift := by
      rw [← Nat.succ_mul, Nat.succ_eq_add_one, Nat.sub_add_cancel (by omega)]
    omega
  · right
    have hgrid : OnGrid shift (q + 1) := ⟨hupper, .inr (by omega)⟩
    have hle : steps (shift * binadeSize + (q + 1)) ≤ steps rank := steps_le_steps (by omega)
    rwa [steps_binade hgrid, Nat.add_mul, Nat.one_mul] at hle

/-- The distance of a rounded magnitude's grid as a power of two. -/
def gridShift (num den : Nat) : Nat :=
  (num / den).log2 - 52

/-- A nearest rank is a place on the grid. -/
theorem nearestRank_eq (num den : Nat) : nearestRank num den
    = gridShift num den * binadeSize
      + divNearestEven num (den * Nat.pow 2 (gridShift num den)) := rfl

/-- A rounded magnitude lies on its grid. -/
theorem onGrid_divNearestEven {den : Nat} (hden : 0 < den) (num : Nat) :
    OnGrid (gridShift num den) (divNearestEven num (den * Nat.pow 2 (gridShift num den))) := by
  have hpow : 0 < den * Nat.pow 2 (gridShift num den) := Nat.mul_pos hden (two_pow_pos _)
  have hlog : num / den < 2 ^ ((num / den).log2 + 1) := Nat.lt_log2_self
  have hbelow : num < den * (num / den + 1) := Nat.lt_mul_div_succ num hden
  refine ⟨divNearestEven_le hpow (Nat.le_trans (Nat.le_of_lt hbelow) ?_), ?_⟩
  · rw [Nat.mul_left_comm]
    refine Nat.mul_le_mul_left den (Nat.le_trans hlog ?_)
    show _ ≤ 2 * 2 ^ 52 * 2 ^ gridShift num den
    rw [← Nat.pow_succ', ← Nat.pow_add]
    exact Nat.pow_le_pow_right (by decide) (by unfold gridShift; omega)
  · by_cases hshift : gridShift num den = 0
    · exact .inl hshift
    · -- Above the lowest grid the quotient has all its binary digits.
      refine .inr (le_divNearestEven hpow ?_)
      have hlarge : (num / den).log2 = 52 + gridShift num den := by
        unfold gridShift at hshift ⊢
        omega
      have hne : num / den ≠ 0 := by
        intro hzero
        rw [hzero] at hlarge
        exact absurd hlarge (by rw [Nat.log2_zero]; omega)
      rw [Nat.mul_left_comm]
      have hle := Nat.log2_self_le hne
      rw [hlarge, Nat.pow_add] at hle
      exact Nat.le_trans (Nat.mul_le_mul_left den hle) (Nat.mul_div_le num den)

/-- The magnitude of a nearest rank. -/
theorem steps_nearestRank {num den : Nat} (hden : 0 < den) : steps (nearestRank num den)
    = divNearestEven num (den * Nat.pow 2 (gridShift num den)) * Nat.pow 2 (gridShift num den) :=
  steps_binade (onGrid_divNearestEven hden num)

/-- A place inside a grid is the nearest rank exactly if the quotient on that grid is
rounded to it. -/
theorem nearestRank_eq_iff {num den shift q : Nat} (hden : 0 < den) (hlower : binadeSize < q)
    (hupper : q < 2 * binadeSize) :
    nearestRank num den = shift * binadeSize + q ↔
      divNearestEven num (den * Nat.pow 2 shift) = q := by
  have hpow : 0 < den * Nat.pow 2 shift := Nat.mul_pos hden (two_pow_pos shift)
  rw [nearestRank_eq]
  constructor
  · intro h
    obtain ⟨hle, hnormal⟩ := onGrid_divNearestEven hden num
    -- Another grid has no place there.
    have hshift : gridShift num den = shift := by
      rcases Nat.lt_trichotomy (gridShift num den) shift with hlt | heq | hgt
      · have hgrids : (gridShift num den + 1) * binadeSize ≤ shift * binadeSize :=
          Nat.mul_le_mul_right _ hlt
        rw [Nat.add_mul] at hgrids
        omega
      · exact heq
      · have hgrids : (shift + 1) * binadeSize ≤ gridShift num den * binadeSize :=
          Nat.mul_le_mul_right _ hgt
        rw [Nat.add_mul] at hgrids
        omega
    rw [hshift] at h
    exact Nat.add_left_cancel h
  · intro h
    have herror := divNearestEven_error hpow num
    rw [h] at herror
    have hfirst : (binadeSize + 1) * (den * Nat.pow 2 shift) ≤ q * (den * Nat.pow 2 shift) :=
      Nat.mul_le_mul_right _ hlower
    have hlast : (q + 1) * (den * Nat.pow 2 shift) ≤ 2 * binadeSize * (den * Nat.pow 2 shift) :=
      Nat.mul_le_mul_right _ hupper
    rw [Nat.add_mul, Nat.one_mul] at hfirst hlast
    -- So the whole part has as many binary digits as the places of the grid.
    have hpowers : 2 ^ (52 + shift) = binadeSize * Nat.pow 2 shift ∧
        2 ^ (52 + shift + 1) = 2 * binadeSize * Nat.pow 2 shift := by
      rw [Nat.pow_succ', Nat.pow_add, Nat.mul_assoc]
      exact ⟨rfl, rfl⟩
    have hbelow : 2 ^ (52 + shift) ≤ num / den := by
      rw [Nat.le_div_iff_mul_le hden, hpowers.1, Nat.mul_assoc, Nat.mul_comm (Nat.pow 2 shift)]
      omega
    have habove : num / den < 2 ^ (52 + shift + 1) := by
      rw [Nat.div_lt_iff_lt_mul hden, hpowers.2, Nat.mul_assoc, Nat.mul_comm (Nat.pow 2 shift)]
      omega
    have hne : num / den ≠ 0 := by
      have := Nat.two_pow_pos (52 + shift)
      omega
    have hshift : gridShift num den = shift := by
      rw [gridShift, (Nat.log2_eq_iff hne).mpr ⟨hbelow, habove⟩, Nat.add_sub_cancel_left]
    rw [hshift, h]

/-- A common factor does not change the nearest rank. -/
theorem nearestRank_mul_mul {k : Nat} (hk : 0 < k) (num den : Nat) :
    nearestRank (k * num) (k * den) = nearestRank num den := by
  simp only [nearestRank, Nat.mul_div_mul_left _ _ hk, Nat.mul_assoc, divNearestEven_mul_mul hk]

/-- A multiple of the divisor is rounded as its factor is. -/
theorem nearestRank_mul_self {k : Nat} (hk : 0 < k) (num : Nat) :
    nearestRank (k * num) k = nearestRank num 1 := by
  have hcommon := nearestRank_mul_mul hk num 1
  rwa [Nat.mul_one] at hcommon

/-! ### The end of the grid -/

/-- In the last binade neighbours are `2 ^ lastShift` steps apart. -/
def lastShift : Nat := 2045

/-- Half-way between the greatest finite magnitude and the next place on its grid. -/
def overflowSteps : Nat :=
  (4 * binadeSize - 1) * Nat.pow 2 (lastShift - 1)

/-- A step on the last grid is two of its halves. -/
theorem two_pow_lastShift : Nat.pow 2 lastShift = 2 * Nat.pow 2 (lastShift - 1) := by
  have hhalf : lastShift = lastShift - 1 + 1 := rfl
  calc Nat.pow 2 lastShift = Nat.pow 2 (lastShift - 1 + 1) := congrArg _ hhalf
    _ = 2 * Nat.pow 2 (lastShift - 1) := two_pow_succ _

/-- A magnitude stays finite exactly if it is below `overflowSteps`. -/
theorem nearestRank_lt_iff {num den : Nat} (hden : 0 < den) :
    nearestRank num den < rankCount ↔ num < den * overflowSteps := by
  have hsize := binadeSize_pos
  have hpow : 0 < den * Nat.pow 2 (gridShift num den) := Nat.mul_pos hden (two_pow_pos _)
  obtain ⟨hle, hnormal⟩ := onGrid_divNearestEven hden num
  rw [nearestRank_eq, rankCount]
  rcases Nat.lt_trichotomy (gridShift num den) lastShift with hlt | heq | hgt
  · -- Below the last grid everything is finite.
    have hrank : gridShift num den * binadeSize ≤ 2044 * binadeSize :=
      Nat.mul_le_mul_right _ (Nat.le_of_lt_succ hlt)
    refine iff_of_true (by omega) ?_
    have hlog : num / den < 2 ^ ((num / den).log2 + 1) := Nat.lt_log2_self
    have hlast : Nat.pow 2 (lastShift + 52) ≤ overflowSteps := by
      rw [show lastShift + 52 = 53 + (lastShift - 1) from rfl, two_pow_add, overflowSteps]
      exact Nat.mul_le_mul_right _ (by decide)
    have hbound : Nat.pow 2 ((num / den).log2 + 1) ≤ overflowSteps :=
      Nat.le_trans (pow_le_pow Nat.two_pos (by unfold gridShift at hlt; omega)) hlast
    rw [Nat.mul_comm]
    exact (Nat.div_lt_iff_lt_mul hden).mp (Nat.lt_of_lt_of_le hlog hbound)
  · -- On the last grid the greatest place is odd, so the half above it is infinite.
    rw [heq] at hle hpow ⊢
    have hcount : 2 * (2 * binadeSize - 1) + 1 = 4 * binadeSize - 1 := by decide
    have htwice : (2 * (2 * binadeSize - 1) + 1) * (den * Nat.pow 2 lastShift)
        = 2 * (den * overflowSteps) := by
      rw [hcount, two_pow_lastShift, overflowSteps]
      generalize Nat.pow 2 (lastShift - 1) = half
      ac_rfl
    have hodd : (2 * binadeSize - 1) % 2 ≠ 0 := by decide
    have hiff := divNearestEven_le_iff hpow num (2 * binadeSize - 1)
    have hlower : lastShift * binadeSize = 2045 * binadeSize := rfl
    rw [htwice] at hiff
    omega
  · -- Above it nothing is finite.
    have hrank : 2046 * binadeSize ≤ gridShift num den * binadeSize :=
      Nat.mul_le_mul_right _ hgt
    refine iff_of_false (by unfold lastShift at hgt; omega) (Nat.not_lt.mpr ?_)
    have hlarge : lastShift + 53 ≤ (num / den).log2 := by
      unfold gridShift at hgt
      omega
    have hne : num / den ≠ 0 := by
      intro hzero
      rw [hzero, Nat.log2_zero] at hlarge
      exact absurd hlarge (Nat.not_succ_le_zero _)
    have hlog : 2 ^ (num / den).log2 ≤ num / den := Nat.log2_self_le hne
    have hfirst : overflowSteps ≤ Nat.pow 2 (lastShift + 53) := by
      rw [show lastShift + 53 = 54 + (lastShift - 1) from rfl, two_pow_add, overflowSteps]
      exact Nat.mul_le_mul_right _ (by decide)
    have hbound : overflowSteps ≤ Nat.pow 2 (num / den).log2 :=
      Nat.le_trans hfirst (pow_le_pow Nat.two_pos hlarge)
    rw [Nat.mul_comm]
    exact (Nat.le_div_iff_mul_le hden).mp (Nat.le_trans hbound hlog)

end TagTemplate.Proofs.Binary64
