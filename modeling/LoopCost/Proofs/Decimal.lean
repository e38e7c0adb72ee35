import LoopCost.Number.Count
import LoopCost.Proofs.Nearest

/-! Fractions on decimal grids. A fraction is rounded to the nearest point of a grid. Its order tells between which powers
of ten it lies, so that two significant digits are enough to tell it from its neighbours. -/

namespace LoopCost

theorem pow_le_of_length_toDigits {n : ℕ} (positive : 0 < n) : 10 ^ ((Nat.toDigits 10 n).length - 1) ≤ n := by
  rcases Nat.eq_zero_or_pos ((Nat.toDigits 10 n).length - 1) with one | more
  · rw [one]
    exact positive
  · by_contra! below
    have shorter := (Nat.length_toDigits_le_iff (by decide) more).mpr below
    omega

theorem lt_pow_length_toDigits (n : ℕ) : n < 10 ^ (Nat.toDigits 10 n).length :=
  (Nat.length_toDigits_le_iff (by decide) Nat.length_toDigits_pos).mp le_rfl

namespace Fraction

/-- The number that a fraction stands for. -/
noncomputable def real (fraction : Fraction) : ℝ := fraction.num / fraction.den

variable (fraction : Fraction)

theorem real_shift (power : ℤ) : (fraction.shift power).real = fraction.real * 10 ^ power := by
  have split : (10 : ℝ) ^ power = 10 ^ power.toNat / 10 ^ (-power).toNat := by
    rw [← zpow_natCast, ← zpow_natCast, ← zpow_sub₀ (by norm_num)]
    congr 1
    omega
  simp only [real, shift, Nat.cast_mul, Nat.pow_eq, Nat.cast_pow, Nat.cast_ofNat, split]
  exact mul_div_mul_comm _ _ _ _

theorem real_nonneg : 0 ≤ fraction.real := div_nonneg (Nat.cast_nonneg _) (Nat.cast_nonneg _)

theorem num_pos (above : 0 < fraction.real) : 0 < fraction.num := by
  apply Nat.pos_of_ne_zero
  intro none
  rw [real, none, Nat.cast_zero, zero_div] at above
  exact above.false

theorem den_shift_pos (positive : 0 < fraction.den) (power : ℤ) : 0 < (fraction.shift power).den :=
  Nat.mul_pos positive (Nat.pow_pos (by decide))

variable {fraction} (positive : 0 < fraction.den)

include positive

/-- Rounding takes the nearest integer, of two the even one. -/
theorem nearest_round : Nearest fraction.real fraction.round := by
  have whole : (fraction.num : ℝ) = fraction.den * (fraction.num / fraction.den : ℕ) + (fraction.num % fraction.den : ℕ) := by
    exact_mod_cast (Nat.div_add_mod fraction.num fraction.den).symm
  have above : (0 : ℝ) < fraction.den := by exact_mod_cast positive
  have size : fraction.real = (fraction.num / fraction.den : ℕ) + (fraction.num % fraction.den : ℕ) / fraction.den := by
    rw [real, whole, add_div, mul_div_cancel_left₀ _ above.ne']
  have rest_lt : fraction.num % fraction.den < fraction.den := Nat.mod_lt _ positive
  unfold round floor
  dsimp only
  rw [size]
  generalize fraction.num / fraction.den = low
  generalize fraction.num % fraction.den = rest at *
  generalize fraction.den = den at *
  have below : (rest : ℝ) / den < 1 := (div_lt_one above).mpr (by exact_mod_cast rest_lt)
  have nonneg : (0 : ℝ) ≤ rest / den := by positivity
  split
  next up =>
    rcases up with more | ⟨tie, odd⟩
    · have far : 1 / 2 < (rest : ℝ) / den := by
        rw [lt_div_iff₀ above]
        linarith [show (den : ℝ) < 2 * rest by exact_mod_cast more]
      refine ⟨by push_cast; linarith, by push_cast; linarith, ?_⟩
      push_cast
      intro half
      rcases half with half | half <;> linarith
    · have half : (rest : ℝ) / den = 1 / 2 := by
        rw [div_eq_iff above.ne']
        linarith [show 2 * (rest : ℝ) = den by exact_mod_cast tie]
      refine ⟨by push_cast; linarith, by push_cast; linarith, fun _ => ?_⟩
      exact (Nat.odd_iff.mpr odd).add_one
  next down =>
    rcases lt_trichotomy (2 * rest) den with less | tie | more
    · have near : (rest : ℝ) / den < 1 / 2 := by
        rw [div_lt_iff₀ above]
        linarith [show 2 * (rest : ℝ) < den by exact_mod_cast less]
      refine ⟨by linarith, by linarith, ?_⟩
      intro half
      rcases half with half | half <;> linarith
    · have half : (rest : ℝ) / den = 1 / 2 := by
        rw [div_eq_iff above.ne']
        linarith [show 2 * (rest : ℝ) = den by exact_mod_cast tie]
      refine ⟨by linarith, by linarith, fun _ => ?_⟩
      rw [Nat.even_iff]
      omega
    · exact absurd (.inl more) down

/-- Two significant digits are nearest to the fraction in units of their grid. -/
theorem significant_two :
    (fraction.significant 2).unit = fraction.order - 1 ∧
      Nearest (fraction.real / 10 ^ (fraction.order - 1)) (fraction.significant 2).digits := by
  refine ⟨rfl, ?_⟩
  have nearest := nearest_round (den_shift_pos fraction positive (-(fraction.order - 1)))
  rw [real_shift, zpow_neg, ← div_eq_mul_inv] at nearest
  exact nearest

variable (nonzero : 0 < fraction.num)

include nonzero

/-- A fraction lies between its power of ten and the next one. -/
theorem order_bounds : 10 ^ fraction.order ≤ fraction.real ∧ fraction.real < 10 ^ (fraction.order + 1) := by
  have above : (0 : ℝ) < fraction.den := Nat.cast_pos.mpr positive
  let size := (Nat.toDigits 10 fraction.num).length
  let size' := (Nat.toDigits 10 fraction.den).length
  have nonempty : 0 < size := Nat.length_toDigits_pos
  have nonempty' : 0 < size' := Nat.length_toDigits_pos
  let guess : ℤ := size - size'
  have low : (10 : ℝ) ^ (guess - 1) ≤ fraction.real := by
    have power : guess - 1 = ((size - 1 : ℕ) : ℤ) - size' := by omega
    have num : (10 : ℝ) ^ (size - 1) ≤ fraction.num := by exact_mod_cast pow_le_of_length_toDigits nonzero
    have den : (fraction.den : ℝ) ≤ 10 ^ size' := by exact_mod_cast (lt_pow_length_toDigits fraction.den).le
    rw [power, zpow_sub₀ (by norm_num), zpow_natCast, zpow_natCast]
    exact div_le_div₀ (Nat.cast_nonneg _) num above den
  have high : fraction.real < 10 ^ (guess + 1) := by
    have power : guess + 1 = size - ((size' - 1 : ℕ) : ℤ) := by omega
    have num : (fraction.num : ℝ) < 10 ^ size := by exact_mod_cast lt_pow_length_toDigits fraction.num
    have den : (10 : ℝ) ^ (size' - 1) ≤ fraction.den := by exact_mod_cast pow_le_of_length_toDigits positive
    rw [power, zpow_sub₀ (by norm_num), zpow_natCast, zpow_natCast]
    exact div_lt_div₀ num den (by positivity) (by positivity)
  have scaled : (fraction.shift (-guess)).num < (fraction.shift (-guess)).den ↔ fraction.real < 10 ^ guess := by
    have den : (0 : ℝ) < (fraction.shift (-guess)).den := by exact_mod_cast den_shift_pos fraction positive (-guess)
    have parts : (fraction.shift (-guess)).real < 1 ↔ (fraction.shift (-guess)).num < (fraction.shift (-guess)).den := by
      rw [real, div_lt_one den, Nat.cast_lt]
    rw [← parts, real_shift, zpow_neg, ← div_eq_mul_inv, div_lt_one (by positivity)]
  have order : fraction.order = if (fraction.shift (-guess)).num < (fraction.shift (-guess)).den then guess - 1 else guess := rfl
  rw [order]
  split
  next less =>
    rw [sub_add_cancel]
    exact ⟨low, scaled.mp less⟩
  next enough =>
    rw [scaled, not_lt] at enough
    exact ⟨enough, high⟩

end Fraction

end LoopCost
