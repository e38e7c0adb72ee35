import LoopCost.Proofs.Rounding

/-! Results of arithmetic are the doubles nearest to the exact values. A value lies on a grid: its unit leaves 53 digits,
or fewer where it is the least unit. A result is the integer nearest to the value in these units, and the even one of two
that are as near. So a result never decreases where the exact value grows, also where the unit changes and where the
result leaves the range; and it is exact if the value is a double itself. -/

namespace LoopCost

open Float.Model
open Float.Model.UnpackedFloat hiding unpack infinity

/-- The integer nearest to a number, of two the even one. -/
structure Nearest (x : ℝ) (n : ℕ) : Prop where
  low : n - 1 / 2 ≤ x
  high : x ≤ n + 1 / 2
  even : x = n - 1 / 2 ∨ x = n + 1 / 2 → Even n

namespace Nearest

theorem natCast (n : ℕ) : Nearest n n := by
  refine ⟨by linarith, by linarith, ?_⟩
  rintro (half | half) <;> linarith

theorem mono {x y : ℝ} {n m : ℕ} (first : Nearest x n) (second : Nearest y m) (grows : x ≤ y) : n ≤ m := by
  by_contra! above
  have gap : (m : ℝ) + 1 ≤ n := by exact_mod_cast above
  have low := first.low
  have high := second.high
  -- Both numbers are the middle between two integers, and both integers would have to be even.
  have even : Even n := first.even (.inl (by linarith))
  have even' : Even m := second.even (.inr (by linarith))
  have next : n = m + 1 := by
    have next : (n : ℝ) = m + 1 := by linarith
    exact_mod_cast next
  rw [next, Nat.even_add_one] at even
  exact even even'

end Nearest

/-- A mantissa with its two bits tells in which half of a unit a number lies, and whether it is where this half begins. -/
structure Locates (extended : ExtendedMantissa) (x : ℝ) : Prop where
  low : 2 * (extended.mantissa : ℝ) + extended.roundBit.toNat ≤ 2 * x
  high : 2 * x < 2 * extended.mantissa + extended.roundBit.toNat + 1
  exact : extended.stickyBit = false ↔ 2 * x = 2 * extended.mantissa + extended.roundBit.toNat

namespace Locates

variable {extended : ExtendedMantissa} {x : ℝ}

theorem nearest (located : Locates extended x) : Nearest x extended.roundedMantissa := by
  obtain ⟨mantissa, round, sticky⟩ := extended
  obtain ⟨low, high, exact⟩ := located
  cases round <;> cases sticky <;>
    simp only [Bool.toNat_false, Bool.toNat_true, Nat.cast_zero, Nat.cast_one, reduceCtorEq, true_iff, false_iff]
      at low high exact
  case false.false =>
    have same : x = mantissa := by linarith
    exact same ▸ Nearest.natCast mantissa
  case false.true =>
    change Nearest x mantissa
    refine ⟨by linarith, by linarith, ?_⟩
    rintro (half | half) <;> linarith
  case true.false =>
    change Nearest x (mantissa + mantissa % 2)
    rcases Nat.even_or_odd mantissa with even | odd
    · rw [Nat.even_iff.mp even, Nat.add_zero]
      exact ⟨by linarith, by linarith, fun _ => even⟩
    · rw [Nat.odd_iff.mp odd]
      exact ⟨by push_cast; linarith, by push_cast; linarith, fun _ => odd.add_one⟩
  case true.true =>
    change Nearest x (mantissa + 1)
    refine ⟨by push_cast; linarith, by push_cast; linarith, ?_⟩
    push_cast
    rintro (half | half)
    · exact absurd (by linarith) exact
    · linarith

theorem shiftRightOne (located : Locates extended x) : Locates extended.shiftRightOne (x / 2) := by
  obtain ⟨mantissa, round, sticky⟩ := extended
  obtain ⟨low, high, exact⟩ := located
  have halves : 2 * ((mantissa / 2 : ℕ) : ℝ) + ((mantissa % 2 != 0).toNat : ℝ) = mantissa := by
    have parts : 2 * (mantissa / 2) + (mantissa % 2 != 0).toNat = mantissa := by
      rcases Nat.mod_two_eq_zero_or_one mantissa with even | odd
      · simp [even]
        omega
      · simp [odd]
        omega
    exact_mod_cast parts
  have whole : 2 * (x / 2) = x := by ring
  refine ⟨?_, ?_, ?_⟩ <;> simp only [ExtendedMantissa.shiftRightOne, halves, whole]
  · have : (0 : ℝ) ≤ round.toNat := Nat.cast_nonneg _
    linarith
  · have : (round.toNat : ℝ) ≤ 1 := by exact_mod_cast Bool.toNat_le round
    linarith
  · cases round with
    | false =>
      simp only [Bool.toNat_false, Nat.cast_zero] at exact
      rw [Bool.false_or, exact]
      constructor <;> intro same <;> linarith
    | true =>
      simp only [Bool.toNat_true, Nat.cast_one] at low
      refine iff_of_false (by simp) ?_
      intro same
      linarith

theorem shift (located : Locates extended x) (digits : ℕ) : Locates (extended >>> digits) (x / 2 ^ digits) := by
  induction digits with
  | zero =>
    rw [pow_zero, div_one]
    exact located
  | succ digits ih =>
    rw [pow_succ, ← div_div]
    exact ih.shiftRightOne

end Locates

structure Grid (x : ℝ) (unit : ℤ) : Prop where
  least : -1074 ≤ unit
  below : x < 2 ^ (53 + unit)
  full : unit = -1074 ∨ 2 ^ (52 + unit) ≤ x

/-- A larger number lies on a coarser grid. -/
theorem Grid.mono {x y : ℝ} {unit unit' : ℤ} (first : Grid x unit) (second : Grid y unit') (grows : x ≤ y) :
    unit ≤ unit' := by
  by_contra! finer
  have full := first.full.resolve_left (by have := second.least; omega)
  have between : (2 : ℝ) ^ (53 + unit') ≤ 2 ^ (52 + unit) := zpow_le_zpow_right₀ (by norm_num) (by omega)
  linarith [second.below]

theorem zpow_add_two (digits : ℕ) (unit : ℤ) : (2 : ℝ) ^ (digits + unit) = 2 ^ digits * 2 ^ unit := by
  rw [zpow_add₀ two_ne_zero, zpow_natCast]

namespace Grid

variable {x : ℝ} {unit : ℤ} {n : ℕ}

theorem le_of_nearest (grid : Grid x unit) (nearest : Nearest (x / 2 ^ unit) n) : n ≤ 2 ^ 53 := by
  apply nearest.mono (Nearest.natCast (2 ^ 53))
  rw [div_le_iff₀ (zpow_pos two_pos unit)]
  have below : x < 2 ^ 53 * 2 ^ unit := zpow_add_two 53 unit ▸ grid.below
  exact_mod_cast below.le

theorem full_of_nearest (grid : Grid x unit) (nearest : Nearest (x / 2 ^ unit) n) : 2 ^ 52 ≤ n ∨ unit = -1074 := by
  refine grid.full.symm.imp_left fun full => ?_
  apply (Nearest.natCast (2 ^ 52)).mono nearest
  rw [le_div_iff₀ (zpow_pos two_pos unit)]
  have full : 2 ^ 52 * 2 ^ unit ≤ x := zpow_add_two 52 unit ▸ full
  exact_mod_cast full

end Grid

/-- The form of doubles, where the exponent may be out of range. -/
structure Formed (mantissa : ℕ) (exponent : ℤ) : Prop where
  below : mantissa < 2 ^ 53
  least : -1074 ≤ exponent
  full : 2 ^ 52 ≤ mantissa ∨ exponent = -1074

theorem Canonical.formed {mantissa : ℕ} {exponent : ℤ} (canonical : Canonical mantissa exponent) :
    Formed mantissa exponent := ⟨canonical.below, canonical.least, canonical.full⟩

namespace Formed

variable {mantissa mantissa' : ℕ} {exponent exponent' : ℤ}

theorem lt_of_exponent (formed : Formed mantissa exponent) (formed' : Formed mantissa' exponent')
    (finer : exponent < exponent') : (mantissa : ℝ) * 2 ^ exponent < mantissa' * 2 ^ exponent' := by
  have below : (mantissa : ℝ) < 2 ^ 53 := by exact_mod_cast formed.below
  have full : (2 : ℝ) ^ 52 ≤ mantissa' := by
    have := formed.least
    exact_mod_cast formed'.full.resolve_right (by omega)
  calc (mantissa : ℝ) * 2 ^ exponent
      < 2 ^ 53 * 2 ^ exponent := mul_lt_mul_of_pos_right below (zpow_pos two_pos _)
    _ = 2 ^ (53 + exponent) := (zpow_add_two 53 exponent).symm
    _ ≤ 2 ^ (52 + exponent') := zpow_le_zpow_right₀ one_le_two (by omega)
    _ = 2 ^ 52 * 2 ^ exponent' := zpow_add_two 52 exponent'
    _ ≤ mantissa' * 2 ^ exponent' := mul_le_mul_of_nonneg_right full (zpow_pos two_pos _).le

/-- Numbers in this form are ordered by the exponent first. -/
theorem lexical_iff (formed : Formed mantissa exponent) (formed' : Formed mantissa' exponent') :
    exponent < exponent' ∨ exponent = exponent' ∧ mantissa ≤ mantissa' ↔
      (mantissa : ℝ) * 2 ^ exponent ≤ mantissa' * 2 ^ exponent' := by
  constructor
  · rintro (finer | ⟨rfl, fewer⟩)
    · exact (formed.lt_of_exponent formed' finer).le
    · exact mul_le_mul_of_nonneg_right (by exact_mod_cast fewer) (zpow_pos two_pos _).le
  · intro grows
    rcases lt_trichotomy exponent exponent' with finer | rfl | coarser
    · exact .inl finer
    · have fewer : (mantissa : ℝ) ≤ mantissa' := le_of_mul_le_mul_right grows (zpow_pos two_pos _)
      exact .inr ⟨rfl, by exact_mod_cast fewer⟩
    · exact absurd grows (formed'.lt_of_exponent formed coarser).not_ge

end Formed

/-- The number that a value from zero on stands for, if it is finite. -/
noncomputable def magnitude : UnpackedFloat → ℝ
  | .finite _ mantissa exponent _ => mantissa * 2 ^ exponent
  | _ => 0

theorem magnitude_zero (sign : Sign) : magnitude (.zero sign) = 0 := rfl

inductive Regular (sign : Sign) : UnpackedFloat → Prop
  | zero (any : Sign) : Regular sign (.zero any)
  | finite {mantissa : ℕ} {exponent : ℤ} (positive : 0 < mantissa) (formed : Formed mantissa exponent) :
      Regular sign (.finite sign mantissa exponent positive)

structure Rounds (sign : Sign) (x : ℝ) (value : UnpackedFloat) : Prop where
  regular : Regular sign value
  nearest : ∃ unit n, Grid x unit ∧ Nearest (x / 2 ^ unit) n ∧ magnitude value = n * 2 ^ unit

theorem Rounds.magnitude_le {sign sign' : Sign} {x y : ℝ} {value value' : UnpackedFloat} (first : Rounds sign x value)
    (second : Rounds sign' y value') (grows : x ≤ y) : magnitude value ≤ magnitude value' := by
  obtain ⟨unit, n, grid, nearest, size⟩ := first.nearest
  obtain ⟨unit', n', grid', nearest', size'⟩ := second.nearest
  rw [size, size']
  rcases (grid.mono grid' grows).eq_or_lt with rfl | finer
  · have fewer : n ≤ n' := nearest.mono nearest' (div_le_div_of_nonneg_right grows (zpow_pos two_pos unit).le)
    exact mul_le_mul_of_nonneg_right (by exact_mod_cast fewer) (zpow_pos two_pos unit).le
  · have few : (n : ℝ) ≤ 2 ^ 53 := by exact_mod_cast grid.le_of_nearest nearest
    have full : (2 : ℝ) ^ 52 ≤ n' := by
      have := grid.least
      exact_mod_cast (grid'.full_of_nearest nearest').resolve_right (by omega)
    calc (n : ℝ) * 2 ^ unit
        ≤ 2 ^ 53 * 2 ^ unit := mul_le_mul_of_nonneg_right few (zpow_pos two_pos _).le
      _ = 2 ^ (53 + unit) := (zpow_add_two 53 unit).symm
      _ ≤ 2 ^ (52 + unit') := zpow_le_zpow_right₀ one_le_two (by omega)
      _ = 2 ^ 52 * 2 ^ unit' := zpow_add_two 52 unit'
      _ ≤ n' * 2 ^ unit' := mul_le_mul_of_nonneg_right full (zpow_pos two_pos _).le

/-- A number that has the form of doubles is rounded to itself. -/
theorem Regular.rounds {sign : Sign} {value : UnpackedFloat} (regular : Regular sign value) :
    Rounds sign (magnitude value) value := by
  refine ⟨regular, ?_⟩
  cases regular with
  | zero any =>
    refine ⟨-1074, 0, ⟨le_rfl, zpow_pos two_pos _, .inl rfl⟩, ?_, by simp [magnitude]⟩
    simpa [magnitude] using Nearest.natCast 0
  | @finite mantissa exponent positive formed =>
    have unit : (0 : ℝ) < 2 ^ exponent := zpow_pos two_pos exponent
    refine ⟨exponent, mantissa, ⟨formed.least, ?_, ?_⟩, ?_, rfl⟩
    · have below : (mantissa : ℝ) < 2 ^ 53 := by exact_mod_cast formed.below
      exact zpow_add_two 53 exponent ▸ mul_lt_mul_of_pos_right below unit
    · refine formed.full.symm.imp_right fun full => ?_
      have full : (2 : ℝ) ^ 52 ≤ mantissa := by exact_mod_cast full
      exact zpow_add_two 52 exponent ▸ mul_le_mul_of_nonneg_right full unit.le
    · rw [magnitude, mul_div_cancel_right₀ _ unit.ne']
      exact Nearest.natCast mantissa

theorem targetExponent_eq (mantissa : ℕ) (exponent : ℤ) :
    Format.binary64.targetExponent (totalExponent mantissa exponent) = max (mantissa.log2 + exponent - 52) (-1074) := by
  rw [targetExponent_binary64, totalExponent]
  omega

/-- No digit has to be appended to 53 digits, nor where the unit is the least or smaller. -/
theorem le_targetExponent {mantissa : ℕ} {exponent : ℤ} (enough : 2 ^ 52 ≤ mantissa ∨ exponent ≤ -1074) :
    exponent ≤ Format.binary64.targetExponent (totalExponent mantissa exponent) := by
  rw [targetExponent_eq]
  rcases enough with full | least
  · have digits : 52 ≤ mantissa.log2 := (Nat.le_log2 (by omega)).mpr full
    omega
  · omega

/-- Rounding a mantissa may give one digit more; dropping it loses nothing. -/
theorem exists_formed {n : ℕ} {unit : ℤ} (few : n ≤ 2 ^ 53) (least : -1074 ≤ unit)
    (full : 2 ^ 52 ≤ n ∨ unit = -1074) :
    ∃ extended exponent, shiftToTargetExponent .binary64 n unit .exact = (extended, exponent) ∧
      Formed extended.mantissa exponent ∧ (extended.mantissa : ℝ) * 2 ^ exponent = n * 2 ^ unit := by
  have whole : (ExtendedMantissa.ofMantissaAndAccuracy n .exact).mantissa = n := mantissa_ofMantissaAndAccuracy n .exact
  rcases few.lt_or_eq with below | rfl
  · have digits : n.log2 < 53 := by
      by_cases none : n = 0
      · rw [none]
        decide
      · exact (Nat.log2_lt none).mpr below
    have target : (Format.binary64.targetExponent (totalExponent n unit) - unit).toNat = 0 := by
      rw [targetExponent_eq]
      omega
    refine ⟨ExtendedMantissa.ofMantissaAndAccuracy n .exact >>> 0, unit, ?_, ?_, ?_⟩
    · rw [shiftToTargetExponent, shiftToExponent, target]
      simp
    · rw [shift_mantissa, whole, pow_zero, Nat.div_one]
      exact ⟨below, least, full⟩
    · rw [shift_mantissa, whole, pow_zero, Nat.div_one]
  · have digits : (2 ^ 53).log2 = 53 := Nat.log2_two_pow
    have target : Format.binary64.targetExponent (totalExponent (2 ^ 53) unit) = unit + 1 := by
      rw [targetExponent_eq, digits]
      omega
    refine ⟨ExtendedMantissa.ofMantissaAndAccuracy (2 ^ 53) .exact >>> 1, unit + 1, ?_, ?_, ?_⟩
    · rw [shiftToTargetExponent, shiftToExponent, target]
      simp
    · rw [shift_mantissa, whole]
      exact ⟨by decide, by omega, .inl (by decide)⟩
    · rw [shift_mantissa, whole, zpow_add₀ two_ne_zero]
      norm_num
      ring

/-- The digits of a located number tell its grid. -/
theorem grid_of_locates {mantissa : ℕ} {exponent : ℤ} {accuracy : Accuracy} {x : ℝ}
    (located : Locates (.ofMantissaAndAccuracy mantissa accuracy) (x / 2 ^ exponent)) (positive : 0 < mantissa) :
    Grid x (Format.binary64.targetExponent (totalExponent mantissa exponent)) := by
  have unit : (0 : ℝ) < 2 ^ exponent := zpow_pos two_pos exponent
  obtain ⟨low, high, -⟩ := located
  rw [mantissa_ofMantissaAndAccuracy] at low high
  generalize (ExtendedMantissa.ofMantissaAndAccuracy mantissa accuracy).roundBit = round at low high
  have half : (round.toNat : ℝ) ≤ 1 := by exact_mod_cast Bool.toNat_le round
  have none : (0 : ℝ) ≤ round.toNat := Nat.cast_nonneg _
  have above : (mantissa : ℝ) * 2 ^ exponent ≤ x := (le_div_iff₀ unit).mp (by linarith)
  have below : x < (mantissa + 1) * 2 ^ exponent := (div_lt_iff₀ unit).mp (by linarith)
  have lowest : (2 : ℝ) ^ mantissa.log2 ≤ mantissa := by exact_mod_cast Nat.log2_self_le positive.ne'
  have highest : (mantissa : ℝ) + 1 ≤ 2 ^ (mantissa.log2 + 1) := by exact_mod_cast Nat.lt_log2_self
  rw [targetExponent_eq]
  refine ⟨by omega, ?_, ?_⟩
  · calc x < (mantissa + 1) * 2 ^ exponent := below
      _ ≤ 2 ^ (mantissa.log2 + 1) * 2 ^ exponent := mul_le_mul_of_nonneg_right highest unit.le
      _ = 2 ^ ((mantissa.log2 + 1 : ℕ) + exponent) := (zpow_add_two _ exponent).symm
      _ ≤ _ := zpow_le_zpow_right₀ one_le_two (by omega)
  · rw [or_iff_not_imp_left]
    intro normal
    calc (2 : ℝ) ^ (52 + max _ _) ≤ 2 ^ (mantissa.log2 + exponent) := zpow_le_zpow_right₀ one_le_two (by omega)
      _ = 2 ^ mantissa.log2 * 2 ^ exponent := zpow_add_two _ exponent
      _ ≤ mantissa * 2 ^ exponent := mul_le_mul_of_nonneg_right lowest unit.le
      _ ≤ x := above

theorem rounds_roundWithAccuracy {sign : Sign} {mantissa : ℕ} {exponent : ℤ} {accuracy : Accuracy} {x : ℝ}
    (located : Locates (.ofMantissaAndAccuracy mantissa accuracy) (x / 2 ^ exponent)) (positive : 0 < mantissa)
    (fine : exponent ≤ Format.binary64.targetExponent (totalExponent mantissa exponent)) :
    Rounds sign x (roundWithAccuracy .binary64 sign mantissa exponent accuracy) := by
  have grid := grid_of_locates located positive
  generalize target : Format.binary64.targetExponent (totalExponent mantissa exponent) = unit at *
  have shifted : shiftToTargetExponent .binary64 mantissa exponent accuracy =
      (ExtendedMantissa.ofMantissaAndAccuracy mantissa accuracy >>> (unit - exponent).toNat, unit) := by
    rw [shiftToTargetExponent, shiftToExponent, target]
    congr 1
    omega
  have nearest := (located.shift (unit - exponent).toNat).nearest
  have scaled : x / 2 ^ exponent / 2 ^ (unit - exponent).toNat = x / 2 ^ unit := by
    rw [div_div, ← zpow_natCast, ← zpow_add₀ two_ne_zero]
    congr 2
    omega
  rw [scaled] at nearest
  generalize ExtendedMantissa.ofMantissaAndAccuracy mantissa accuracy >>> (unit - exponent).toNat = first at *
  obtain ⟨second, exponent', shifted', formed, size⟩ :=
    exists_formed (grid.le_of_nearest nearest) grid.least (grid.full_of_nearest nearest)
  unfold roundWithAccuracy
  simp only [shifted, shifted']
  split
  next none =>
    refine ⟨.zero sign, unit, _, grid, nearest, ?_⟩
    rw [← size, none]
    simp [magnitude]
  next some => exact ⟨.finite _ formed, unit, _, grid, nearest, size⟩

theorem locates_exact (mantissa : ℕ) : Locates (.ofMantissaAndAccuracy mantissa .exact) mantissa := by
  change Locates ⟨mantissa, false, false⟩ mantissa
  constructor <;> simp

theorem rounds_exact {sign : Sign} {mantissa : ℕ} {exponent : ℤ} (positive : 0 < mantissa)
    (fine : exponent ≤ Format.binary64.targetExponent (totalExponent mantissa exponent)) :
    Rounds sign (mantissa * 2 ^ exponent) (roundWithAccuracy .binary64 sign mantissa exponent .exact) := by
  have located := locates_exact mantissa
  rw [← mul_div_cancel_right₀ (mantissa : ℝ) (zpow_pos two_pos exponent).ne'] at located
  exact rounds_roundWithAccuracy located positive fine

theorem log2_mul_two_pow {n : ℕ} (positive : 0 < n) (digits : ℕ) : (n * 2 ^ digits).log2 = n.log2 + digits := by
  have product : n * 2 ^ digits ≠ 0 := (Nat.mul_pos positive (Nat.two_pow_pos digits)).ne'
  rw [Nat.log2_eq_iff product]
  constructor
  · rw [Nat.pow_add]
    exact Nat.mul_le_mul_right _ (Nat.log2_self_le positive.ne')
  · rw [Nat.add_right_comm, Nat.pow_add]
    exact Nat.mul_lt_mul_of_pos_right Nat.lt_log2_self (Nat.two_pow_pos digits)

theorem rounds_round {sign : Sign} {mantissa : ℕ} {exponent : ℤ} (positive : 0 < mantissa) :
    Rounds sign (mantissa * 2 ^ exponent) (round .binary64 sign mantissa exponent) := by
  -- Zeros are appended where the number has fewer digits than its grid.
  let zeros := (exponent - Format.binary64.targetExponent (totalExponent mantissa exponent)).toNat
  have rounded : round .binary64 sign mantissa exponent =
      roundWithAccuracy .binary64 sign (mantissa * 2 ^ zeros) (exponent - zeros) .exact := by
    rw [← Nat.shiftLeft_eq]
    rfl
  have total : totalExponent (mantissa * 2 ^ zeros) (exponent - zeros) = totalExponent mantissa exponent := by
    simp only [totalExponent, log2_mul_two_pow positive]
    omega
  have same : ((mantissa * 2 ^ zeros : ℕ) : ℝ) * 2 ^ (exponent - zeros) = mantissa * 2 ^ exponent := by
    rw [Nat.cast_mul, Nat.cast_pow, Nat.cast_two, mul_assoc, ← zpow_add_two]
    congr 2
    omega
  rw [rounded, ← same]
  apply rounds_exact (Nat.mul_pos positive (Nat.two_pow_pos zeros))
  rw [total]
  omega

/-- There is one way to write a number that is not zero in the form of doubles. -/
theorem Rounds.eq_finite {sign : Sign} {mantissa : ℕ} {exponent : ℤ} {value : UnpackedFloat} (positive : 0 < mantissa)
    (formed : Formed mantissa exponent) (rounds : Rounds sign (mantissa * 2 ^ exponent) value) :
    value = .finite sign mantissa exponent positive := by
  have regular : Regular sign (.finite sign mantissa exponent positive) := .finite positive formed
  have exact := regular.rounds
  have size : magnitude value = mantissa * 2 ^ exponent :=
    le_antisymm (rounds.magnitude_le exact le_rfl) (exact.magnitude_le rounds le_rfl)
  have above : (0 : ℝ) < mantissa * 2 ^ exponent := mul_pos (by exact_mod_cast positive) (zpow_pos two_pos exponent)
  cases rounds.regular with
  | zero any => exact absurd size above.ne
  | @finite mantissa' exponent' positive' formed' =>
    have fewer := (formed'.lexical_iff formed).mpr size.le
    have more := (formed.lexical_iff formed').mpr size.ge
    obtain ⟨rfl, rfl⟩ : exponent' = exponent ∧ mantissa' = mantissa := by omega
    rfl

theorem times_comm (x y : Float) : x * y = y * x := by
  have commutes (sign sign' : Sign) : sign * sign' = sign' * sign := by cases sign <;> cases sign' <;> rfl
  rw [← unpack_inj, unpack_mul, unpack_mul]
  congr 1
  cases unpack x <;> cases unpack y <;> simp only [UnpackedFloat.mul, commutes, Nat.mul_comm, Int.add_comm]

/-- One is a factor that changes nothing. -/
theorem times_one (x : Float) : x * 1 = x := by
  rw [← unpack_inj, unpack_mul, unpack_one]
  cases value : unpack x with
  | notANumber => rfl
  | infinity sign => cases sign <;> rfl
  | zero sign => cases sign <;> rfl
  | finite sign mantissa exponent positive =>
    have canonical := canonical_of_unpack value
    have same : sign * .positive = sign := by cases sign <;> rfl
    have size : ((mantissa * 2 ^ 52 : ℕ) : ℝ) * 2 ^ (exponent + -52) = mantissa * 2 ^ exponent := by
      rw [zpow_add₀ two_ne_zero, Nat.cast_mul]
      norm_num
      ring
    have exact : Rounds sign (mantissa * 2 ^ exponent)
        (roundWithAccuracy .binary64 sign (mantissa * 2 ^ 52) (exponent + -52) .exact) := by
      rw [← size]
      exact rounds_exact (Nat.mul_pos positive (Nat.two_pow_pos 52)) (le_targetExponent (.inl (by omega)))
    rw [UnpackedFloat.mul, same, exact.eq_finite positive canonical.formed]
    exact stored_of_canonical canonical

end LoopCost
