import LoopCost.Proofs.Signed

/-! Rounding to integers by adding a half and taking the integer below. The sum is itself rounded, but from a thousand up
to a million this does not matter: it is exact as long as it has no more digits in front of the point than the number, and
otherwise it is at most half above a power of two. -/

namespace LoopCost

open Float.Model
open Float.Model.UnpackedFloat hiding unpack infinity

/-- What has at most 53 digits is not changed by rounding. -/
theorem Rounds.exact {sign : Sign} {value : UnpackedFloat} {n : ℕ} {unit : ℤ} (rounds : Rounds sign (n * 2 ^ unit) value)
    (few : n < 2 ^ 53) (least : -1074 ≤ unit) : magnitude value = n * 2 ^ unit := by
  obtain ⟨unit', n', grid, nearest, size⟩ := rounds.nearest
  have below : (n : ℝ) * 2 ^ unit < 2 ^ (53 + unit) := by
    rw [zpow_add₀ two_ne_zero]
    exact mul_lt_mul_of_pos_right (by exact_mod_cast few) (zpow_pos two_pos unit)
  have finer : unit' ≤ unit := by
    rcases grid.full with same | full
    · omega
    · have powers := (zpow_lt_zpow_iff_right₀ one_lt_two).mp (full.trans_lt below)
      omega
  have whole : (n : ℝ) * 2 ^ unit / 2 ^ unit' = (n * 2 ^ (unit - unit').toNat : ℕ) := by
    rw [← aligned n finer, mul_div_cancel_right₀ _ (zpow_pos two_pos unit').ne']
  rw [whole] at nearest
  have same : n' = n * 2 ^ (unit - unit').toNat :=
    le_antisymm (nearest.mono (.natCast _) le_rfl) ((Nearest.natCast _).mono nearest le_rfl)
  rw [size, same, aligned n finer]

theorem exists_rounds_self {n : ℕ} (unit : ℤ) (positive : 0 < n) (few : n < 2 ^ 53) (least : -1074 ≤ unit) :
    ∃ value, Rounds .positive (n * 2 ^ unit) value ∧ magnitude value = n * 2 ^ unit :=
  ⟨_, rounds_round positive, (rounds_round positive).exact few least⟩

/-- A power of two on a finer grid. -/
theorem power_eq {power unit : ℤ} (finer : unit ≤ power) : (2 : ℝ) ^ power = (2 ^ (power - unit).toNat : ℕ) * 2 ^ unit := by
  rw [Nat.cast_pow, Nat.cast_two, ← zpow_natCast, ← zpow_add₀ two_ne_zero, Int.toNat_of_nonneg (by omega), sub_add_cancel]

theorem half_eq {unit : ℤ} (finer : unit ≤ -1) : (1 / 2 : ℝ) = (2 ^ (-1 - unit).toNat : ℕ) * 2 ^ unit := by
  rw [← power_eq finer]
  norm_num

/-- What is at most half above a power of two is rounded to something that is, too. -/
theorem floor_of_rounds_behind_power {value : UnpackedFloat} {x : ℝ} {power : ℤ} (low : 0 ≤ power) (high : power ≤ 50)
    (rounds : Rounds .positive x value) (reached : 2 ^ power ≤ x) (short : x ≤ 2 ^ power + 1 / 2) :
    ⌊magnitude value⌋ = ⌊x⌋ := by
  have whole : (2 : ℝ) ^ power = ((2 ^ power.toNat : ℕ) : ℤ) := by
    rw [Int.cast_natCast, Nat.cast_pow, Nat.cast_two, ← zpow_natCast, Int.toNat_of_nonneg low]
  obtain ⟨halves, positive, few, start⟩ :
      ∃ halves : ℕ, 0 < halves ∧ halves + 1 < 2 ^ 53 ∧ (2 : ℝ) ^ power = halves * 2 ^ (-1 : ℤ) := by
    refine ⟨2 ^ (power - -1).toNat, Nat.two_pow_pos _, ?_, power_eq (by omega)⟩
    have most : 2 ^ (power - -1).toNat ≤ 2 ^ 51 := Nat.pow_le_pow_right two_pos (by omega)
    omega
  have behind : (2 : ℝ) ^ power + 1 / 2 = (halves + 1 : ℕ) * 2 ^ (-1 : ℤ) := by
    rw [Nat.cast_add, add_mul, ← start]
    norm_num
  obtain ⟨value', rounds', same'⟩ := exists_rounds_self (-1) positive (by omega) (by decide)
  obtain ⟨value'', rounds'', same''⟩ := exists_rounds_self (-1) halves.succ_pos few (by decide)
  have above := rounds'.magnitude_le rounds (start ▸ reached)
  have most := rounds.magnitude_le rounds'' (behind ▸ short)
  rw [same', ← start] at above
  rw [same'', ← behind] at most
  rw [whole] at above most reached short
  rw [Int.floor_eq_iff.mpr ⟨above, by linarith⟩, Int.floor_eq_iff.mpr ⟨reached, by linarith⟩]

/-- The sum of a number and a half is on the grid of the number, or it reaches the power of two that the number is below. -/
theorem floor_of_rounds_add_half {mantissa : ℕ} {exponent : ℤ} {value : UnpackedFloat} (below : mantissa < 2 ^ 53)
    (low : -43 ≤ exponent) (high : exponent ≤ -33) (rounds : Rounds .positive (mantissa * 2 ^ exponent + 1 / 2) value) :
    ⌊magnitude value⌋ = ⌊(mantissa : ℝ) * 2 ^ exponent + 1 / 2⌋ := by
  have unit : (0 : ℝ) < 2 ^ exponent := zpow_pos two_pos exponent
  have sum : (mantissa : ℝ) * 2 ^ exponent + 1 / 2 = (mantissa + 2 ^ (-1 - exponent).toNat : ℕ) * 2 ^ exponent := by
    rw [half_eq (by omega : exponent ≤ -1), Nat.cast_add, add_mul]
  by_cases few : mantissa + 2 ^ (-1 - exponent).toNat < 2 ^ 53
  · rw [sum] at rounds ⊢
    rw [rounds.exact few (by omega)]
  · have reached : (2 : ℝ) ^ (53 + exponent) ≤ mantissa * 2 ^ exponent + 1 / 2 := by
      rw [zpow_add₀ two_ne_zero, sum]
      exact mul_le_mul_of_nonneg_right (by exact_mod_cast not_lt.mp few) unit.le
    have under : (mantissa : ℝ) * 2 ^ exponent < 2 ^ (53 + exponent) := by
      rw [zpow_add₀ two_ne_zero]
      exact mul_lt_mul_of_pos_right (by exact_mod_cast below) unit
    exact floor_of_rounds_behind_power (by omega) (by omega) rounds reached (by linarith)

theorem unpack_half : unpack 0.5 = .finite .positive (2 ^ 52) (-53) (by decide) := rfl

/-- Below zero the sum is smaller in size than the number, on the same grid. -/
theorem add_half_of_negative {mantissa : ℕ} {exponent : ℤ} (positive : 0 < mantissa) (low : -53 ≤ exponent)
    (more : 2 ^ 52 < mantissa * 2 ^ (exponent + 53).toNat) :
    UnpackedFloat.add .binary64 (.finite .negative mantissa exponent positive) (unpack 0.5) =
      round .binary64 .negative (mantissa * 2 ^ (exponent + 53).toNat - 2 ^ 52) (-53) := by
  have smaller : min exponent (-53) = -53 := by omega
  rw [unpack_half]
  unfold UnpackedFloat.add UnpackedFloat.normalize
  simp only [decreaseExponent, Nat.shiftLeft_eq, Sign.apply, smaller, sub_neg_eq_add, sub_self, Int.reduceNeg,
    Int.toNat_zero, pow_zero, mul_one]
  have sum : -((mantissa * 2 ^ (exponent + 53).toNat : ℕ) : ℤ) + (2 ^ 52 : ℕ) < 0 := by omega
  have size : (-(-((mantissa * 2 ^ (exponent + 53).toNat : ℕ) : ℤ) + (2 ^ 52 : ℕ))).toNat =
      mantissa * 2 ^ (exponent + 53).toNat - 2 ^ 52 := by omega
  rw [Int.compare_eq_lt.mpr sum]
  dsimp only
  rw [size]

/-- A double from a thousand up to a million in size has its 53 digits, most of them behind the point. -/
theorem unpack_of_thousands {x : Float} (finite : x.isFinite = true) (low : 1000 ≤ |realOf x|) (high : |realOf x| < 1000000) :
    ∃ sign mantissa exponent positive, unpack x = .finite sign mantissa exponent positive ∧ 2 ^ 52 ≤ mantissa ∧
      mantissa < 2 ^ 53 ∧ -43 ≤ exponent ∧ exponent ≤ -33 ∧ |realOf x| = mantissa * 2 ^ exponent := by
  have size := realOf_abs finite
  rw [realOf, unpack_abs finite] at size
  change (unpack x).isFinite = true at finite
  cases value : unpack x with
  | notANumber | infinity =>
    rw [value] at finite
    cases finite
  | zero sign =>
    rw [← size, value] at low
    norm_num [UnpackedFloat.abs, number, magnitude] at low
  | finite sign mantissa exponent positive =>
    rw [value] at size
    change (mantissa : ℝ) * 2 ^ exponent = |realOf x| at size
    have canonical := canonical_of_unpack value
    have below : (mantissa : ℝ) < 2 ^ (53 : ℤ) := by exact_mod_cast canonical.below
    have unit : (0 : ℝ) < 2 ^ exponent := zpow_pos two_pos exponent
    rw [← size] at low high
    have coarse : -43 ≤ exponent := by
      by_contra! finer
      have small : (2 : ℝ) ^ exponent ≤ 2 ^ (-44 : ℤ) := zpow_le_zpow_right₀ one_le_two (by omega)
      have few : (mantissa : ℝ) * 2 ^ exponent ≤ 2 ^ (53 : ℤ) * 2 ^ (-44 : ℤ) := mul_le_mul below.le small unit.le (by positivity)
      norm_num at few
      linarith
    have full : 2 ^ 52 ≤ mantissa := canonical.full.resolve_right (by omega)
    have fine : exponent ≤ -33 := by
      by_contra! coarser
      have large : (2 : ℝ) ^ (-32 : ℤ) ≤ 2 ^ exponent := zpow_le_zpow_right₀ one_le_two (by omega)
      have many : (2 : ℝ) ^ 52 * 2 ^ (-32 : ℤ) ≤ mantissa * 2 ^ exponent :=
        mul_le_mul (by exact_mod_cast full) large (by positivity) (by positivity)
      norm_num at many
      linarith
    exact ⟨sign, mantissa, exponent, positive, rfl, full, canonical.below, coarse, fine, size.symm⟩

theorem floorOf_of_stored {y : Float} {sign : Sign} {value : UnpackedFloat} (regular : Regular sign value)
    (same : unpack y = stored value) (small : magnitude value < 2 ^ (1024 : ℤ)) : floorOf y = ⌊number value⌋ := by
  rw [regular.stored_of_lt small] at same
  have finite : y.isFinite = true := by
    change (unpack y).isFinite = true
    rw [same]
    cases regular <;> rfl
  rw [floorOf_eq_floor finite, realOf, same]

theorem rounds_add_half {mantissa : ℕ} {exponent : ℤ} (formed : Formed mantissa exponent) (positive : 0 < mantissa) :
    Rounds .positive (mantissa * 2 ^ exponent + 1 / 2)
      (UnpackedFloat.add .binary64 (.finite .positive mantissa exponent positive) (unpack 0.5)) := by
  have half : magnitude (unpack 0.5) = 1 / 2 := by
    rw [unpack_half, magnitude]
    norm_num
  have rounds := rounds_add (.finite positive formed) (regular_unpack (by decide) (by decide) : Regular .positive (unpack 0.5))
  rwa [half] at rounds

/-- Below zero the sum is exact. -/
theorem add_half_exact_of_negative {mantissa : ℕ} {exponent : ℤ} (positive : 0 < mantissa) (full : 2 ^ 52 ≤ mantissa)
    (below : mantissa < 2 ^ 53) (coarse : -43 ≤ exponent) (fine : exponent ≤ -33) :
    Regular .negative (UnpackedFloat.add .binary64 (.finite .negative mantissa exponent positive) (unpack 0.5)) ∧
      magnitude (UnpackedFloat.add .binary64 (.finite .negative mantissa exponent positive) (unpack 0.5)) =
        mantissa * 2 ^ exponent - 1 / 2 := by
  have more : 2 ^ 52 < mantissa * 2 ^ (exponent + 53).toNat := by
    have zeros : 2 ^ 1 ≤ 2 ^ (exponent + 53).toNat := Nat.pow_le_pow_right two_pos (by omega)
    calc 2 ^ 52 < 2 ^ 52 * 2 ^ 1 := by decide
      _ ≤ mantissa * 2 ^ (exponent + 53).toNat := Nat.mul_le_mul full zeros
  have less : 2 ^ (-1 - exponent).toNat ≤ mantissa := (Nat.pow_le_pow_right two_pos (by omega)).trans full
  have difference : ((mantissa - 2 ^ (-1 - exponent).toNat : ℕ) : ℝ) * 2 ^ exponent = mantissa * 2 ^ exponent - 1 / 2 := by
    rw [Nat.cast_sub less, sub_mul, ← half_eq (by omega)]
  have finer : ((mantissa * 2 ^ (exponent + 53).toNat - 2 ^ 52 : ℕ) : ℝ) * 2 ^ (-53 : ℤ) = mantissa * 2 ^ exponent - 1 / 2 := by
    have whole := aligned mantissa (by omega : -53 ≤ exponent)
    rw [Nat.cast_sub more.le, sub_mul, ← sub_neg_eq_add exponent, whole]
    norm_num
  have rounds : Rounds .negative ((mantissa * 2 ^ (exponent + 53).toNat - 2 ^ 52 : ℕ) * 2 ^ (-53 : ℤ)) _ :=
    rounds_round (Nat.sub_pos_of_lt more)
  rw [finer, ← difference, ← add_half_of_negative positive (by omega) more] at rounds
  exact ⟨rounds.regular, (rounds.exact ((Nat.sub_le _ _).trans_lt below) (by omega)).trans difference⟩

/-- The integer below the rounded sum is the integer below the exact one. -/
theorem floorOf_add_half {x : Float} (finite : x.isFinite = true) (low : 1000 ≤ |realOf x|) (high : |realOf x| < 1000000) :
    floorOf (x + 0.5) = ⌊realOf x + 1 / 2⌋ := by
  obtain ⟨sign, mantissa, exponent, positive, value, full, below, coarse, fine, size⟩ := unpack_of_thousands finite low high
  have large : (2 : ℝ) ^ (20 : ℤ) < 2 ^ (1024 : ℤ) := zpow_lt_zpow_right₀ one_lt_two (by decide)
  have sum := unpack_add x 0.5
  rw [size] at high
  rw [value] at sum
  cases sign with
  | positive =>
    have same : realOf x = mantissa * 2 ^ exponent := by rw [realOf, value, number, magnitude]
    have rounds := rounds_add_half (⟨below, by omega, .inl full⟩ : Formed mantissa exponent) positive
    obtain ⟨value', rounds', same'⟩ := exists_rounds_self 20 one_pos (by decide) (by decide)
    have most := rounds.magnitude_le rounds' (by norm_num; linarith)
    rw [same', Nat.cast_one, one_mul] at most
    rw [floorOf_of_stored rounds.regular sum (most.trans_lt large), number_of_positive rounds.regular,
      floor_of_rounds_add_half below coarse fine rounds, same]
  | negative =>
    have same : realOf x = -(mantissa * 2 ^ exponent) := by rw [realOf, value, number, magnitude]
    obtain ⟨regular, size⟩ := add_half_exact_of_negative positive full below coarse fine
    have most : (mantissa : ℝ) * 2 ^ exponent - 1 / 2 ≤ 2 ^ (20 : ℤ) := by
      norm_num
      linarith
    rw [floorOf_of_stored regular sum (by rw [size]; exact most.trans_lt large), number_of_negative regular, size, same, neg_sub]
    ring_nf

end LoopCost
