import LoopCost.Proofs.Nearest
import LoopCost.Proofs.Sign

/-! Arithmetic keeps the order of doubles. Sums, products, roots, conversions of integers and the integers below do not
decrease on doubles from zero on. Infinity is above all others, and an exact value that is out of range becomes
infinite. -/

namespace LoopCost

open Float.Model
open Float.Model.UnpackedFloat hiding unpack infinity

namespace Regular

variable {value value' : UnpackedFloat}

theorem le_iff (regular : Regular .positive value) (regular' : Regular .positive value') :
    value.le value' = true ↔ magnitude value ≤ magnitude value' := by
  cases regular with
  | zero any =>
    cases regular' with
    | zero any' => exact iff_of_true rfl le_rfl
    | finite positive formed =>
      exact iff_of_true rfl (mul_nonneg (Nat.cast_nonneg _) (zpow_pos two_pos _).le)
  | @finite mantissa exponent positive formed =>
    cases regular' with
    | zero any =>
      refine iff_of_false (by simp [UnpackedFloat.le, UnpackedFloat.compare]) ?_
      exact (mul_pos (Nat.cast_pos.mpr positive) (zpow_pos two_pos _)).not_ge
    | @finite mantissa' exponent' positive' formed' =>
      rw [magnitude, magnitude, ← formed.lexical_iff formed']
      simp only [UnpackedFloat.le, UnpackedFloat.compare, Option.any_some]
      rcases lt_trichotomy exponent exponent' with finer | rfl | coarser
      · simp [Int.compare_eq_lt.mpr finer, finer]
      · simp [Nat.isLE_compare]
      · simp [Int.compare_eq_gt.mpr coarser, coarser.not_gt, coarser.ne']

theorem unsigned (regular : Regular .positive value) : Unsigned value := by
  cases regular with
  | zero any => exact .zero any
  | finite positive formed => exact .finite _ _ positive

/-- The powers of two from 1024 on are out of range. -/
theorem stored_of_lt {sign : Sign} (regular : Regular sign value) (inside : magnitude value < 2 ^ (1024 : ℤ)) :
    stored value = value := by
  cases regular with
  | zero any => exact stored_zero any
  | @finite mantissa exponent positive formed =>
    apply stored_of_canonical
    refine ⟨formed.below, formed.least, ?_, formed.full⟩
    by_contra! excess
    have full : (2 : ℝ) ^ 52 ≤ mantissa := by exact_mod_cast formed.full.resolve_right (by omega)
    have large : (2 : ℝ) ^ (1024 : ℤ) ≤ mantissa * 2 ^ exponent := by
      calc (2 : ℝ) ^ (1024 : ℤ) = 2 ^ 52 * 2 ^ (972 : ℤ) := zpow_add_two 52 972
        _ ≤ 2 ^ 52 * 2 ^ exponent := mul_le_mul_of_nonneg_left (zpow_le_zpow_right₀ one_le_two (by omega)) (by positivity)
        _ ≤ mantissa * 2 ^ exponent := mul_le_mul_of_nonneg_right full (zpow_pos two_pos _).le
    exact absurd inside large.not_gt

theorem stored_of_ge (regular : Regular .positive value) (outside : 2 ^ (1024 : ℤ) ≤ magnitude value) :
    stored value = .infinity .positive := by
  cases regular with
  | zero any => exact absurd outside (by simp [magnitude])
  | @finite mantissa exponent positive formed =>
    apply stored_of_excess
    by_contra! inside
    have below : (mantissa : ℝ) < 2 ^ 53 := by exact_mod_cast formed.below
    have small : mantissa * 2 ^ exponent < (2 : ℝ) ^ (1024 : ℤ) := by
      calc (mantissa : ℝ) * 2 ^ exponent < 2 ^ 53 * 2 ^ exponent := mul_lt_mul_of_pos_right below (zpow_pos two_pos _)
        _ ≤ 2 ^ 53 * 2 ^ (971 : ℤ) := mul_le_mul_of_nonneg_left (zpow_le_zpow_right₀ one_le_two (by omega)) (by positivity)
        _ = 2 ^ (1024 : ℤ) := (zpow_add_two 53 971).symm
    exact absurd outside small.not_ge

end Regular

theorem Unsigned.le_infinity {value : UnpackedFloat} (unsigned : Unsigned value) :
    value.le (.infinity .positive) = true := by
  cases unsigned <;> rfl

theorem Unsigned.lt_iff {value value' : UnpackedFloat} (unsigned : Unsigned value) (unsigned' : Unsigned value') :
    value.lt value' = true ↔ ¬ value'.le value = true := by
  have compared : ∃ order : Ordering, value.compare value' = some order ∧ value'.compare value = some order.swap := by
    cases unsigned <;> cases unsigned'
    case finite.finite =>
      refine ⟨_, rfl, ?_⟩
      rw [Ordering.swap_then, Int.compare_swap, Nat.compare_swap]
      rfl
    all_goals exact ⟨_, rfl, rfl⟩
  obtain ⟨order, compared, swapped⟩ := compared
  rw [UnpackedFloat.lt, UnpackedFloat.le, compared, swapped]
  cases order <;> decide

/-- Of two exact values the larger one does not give the smaller result. -/
theorem Rounds.stored_le {x y : ℝ} {value value' : UnpackedFloat} (first : Rounds .positive x value)
    (second : Rounds .positive y value') (grows : x ≤ y) : (stored value).le (stored value') = true := by
  have order := first.magnitude_le second grows
  rcases lt_or_ge (magnitude value') (2 ^ (1024 : ℤ)) with inside | outside
  · rw [first.regular.stored_of_lt (order.trans_lt inside), second.regular.stored_of_lt inside]
    exact (first.regular.le_iff second.regular).mpr order
  · rw [second.regular.stored_of_ge outside]
    exact first.regular.unsigned.stored.le_infinity

/-- A number in a smaller unit. -/
theorem aligned (mantissa : ℕ) {exponent unit : ℤ} (fine : unit ≤ exponent) :
    ((mantissa * 2 ^ (exponent - unit).toNat : ℕ) : ℝ) * 2 ^ unit = mantissa * 2 ^ exponent := by
  rw [Nat.cast_mul, Nat.cast_pow, Nat.cast_two, mul_assoc, ← zpow_add_two]
  congr 2
  omega

/-- A number as a fraction. -/
theorem scaled_eq_div (mantissa : ℕ) (exponent : ℤ) :
    (mantissa : ℝ) * 2 ^ exponent = (mantissa * 2 ^ exponent.toNat : ℕ) / (2 ^ (-exponent).toNat : ℕ) := by
  rw [Nat.cast_mul, Nat.cast_pow, Nat.cast_pow, Nat.cast_two, mul_div_assoc, ← zpow_natCast, ← zpow_natCast,
    ← zpow_sub₀ two_ne_zero]
  congr 2
  omega

theorem log2_sqrt {n : ℕ} (positive : 0 < n) : n.sqrt.log2 = n.log2 / 2 := by
  have root : n.sqrt ≠ 0 := (Nat.sqrt_pos.mpr positive).ne'
  rw [Nat.log2_eq_iff root, Nat.le_sqrt, Nat.sqrt_lt, ← Nat.pow_add, ← Nat.pow_add]
  constructor
  · exact (Nat.pow_le_pow_right two_pos (by omega)).trans (Nat.log2_self_le positive.ne')
  · exact Nat.lt_log2_self.trans_le (Nat.pow_le_pow_right two_pos (by omega))

/-- What is left over of the square tells on which side of the middle the root lies. -/
theorem locates_sqrt (n : ℕ) :
    Locates (.ofMantissaAndAccuracy n.sqrt
      (if n - n.sqrt * n.sqrt = 0 then .exact else .inexact (if n - n.sqrt * n.sqrt ≤ n.sqrt then .lt else .gt)))
      (√ n) := by
  have lower : n.sqrt * n.sqrt ≤ n := Nat.sqrt_le n
  have upper : n < (n.sqrt + 1) * (n.sqrt + 1) := Nat.lt_succ_sqrt n
  generalize n.sqrt = root at *
  split
  next none =>
    have square : n = root ^ 2 := by
      rw [pow_two]
      omega
    rw [square, Nat.cast_pow, Real.sqrt_sq (Nat.cast_nonneg root)]
    exact locates_exact root
  next some =>
    split
    next low =>
      have above : (root : ℝ) < √ n := by
        rw [Real.lt_sqrt (Nat.cast_nonneg root), pow_two]
        exact_mod_cast (by omega : root * root < n)
      have below : √ n < root + 1 / 2 := by
        have size : (n : ℝ) ≤ root * root + root := by exact_mod_cast (by omega : n ≤ root * root + root)
        rw [Real.sqrt_lt' (by positivity)]
        linarith
      refine ⟨?_, ?_, iff_of_false Bool.true_eq_false.mp ?_⟩ <;>
        simp only [ExtendedMantissa.ofMantissaAndAccuracy, Bool.toNat_false, Nat.cast_zero] <;> linarith
    next high =>
      have above : root + 1 / 2 < √ n := by
        have size : root * root + root + 1 ≤ (n : ℝ) := by exact_mod_cast (by omega : root * root + root + 1 ≤ n)
        rw [Real.lt_sqrt (by positivity)]
        linarith
      have below : √ n < root + 1 := by
        rw [Real.sqrt_lt' (by positivity), pow_two]
        exact_mod_cast upper
      refine ⟨?_, ?_, iff_of_false Bool.true_eq_false.mp ?_⟩ <;>
        simp only [ExtendedMantissa.ofMantissaAndAccuracy, Bool.toNat_true, Nat.cast_one] <;> linarith

section Exact

variable {value value' : UnpackedFloat} (regular : Regular .positive value) (regular' : Regular .positive value')

include regular

theorem magnitude_nonneg : 0 ≤ magnitude value := by
  cases regular with
  | zero any => exact le_rfl
  | finite positive formed => exact mul_nonneg (Nat.cast_nonneg _) (zpow_pos two_pos _).le

include regular'

/-- The exact product has digits enough, or it is far below the least unit. -/
theorem rounds_mul : Rounds .positive (magnitude value * magnitude value') (value.mul .binary64 value') := by
  cases regular with
  | zero any =>
    rw [magnitude_zero, zero_mul]
    cases regular' with
    | zero any' => exact (Regular.zero (any * any')).rounds
    | finite positive' formed' => exact (Regular.zero (any * .positive)).rounds
  | @finite mantissa exponent positive formed =>
    cases regular' with
    | zero any' =>
      rw [magnitude_zero, mul_zero]
      exact (Regular.zero (.positive * any')).rounds
    | @finite mantissa' exponent' positive' formed' =>
      have size : magnitude (.finite .positive mantissa exponent positive) *
          magnitude (.finite .positive mantissa' exponent' positive') =
            (mantissa * mantissa' : ℕ) * 2 ^ (exponent + exponent') := by
        rw [magnitude, magnitude, zpow_add₀ two_ne_zero, Nat.cast_mul]
        ring
      rw [size]
      apply rounds_exact (Nat.mul_pos positive positive')
      apply le_targetExponent
      refine or_iff_not_imp_left.mpr fun few => ?_
      have least : exponent = -1074 := formed.full.resolve_left fun full =>
        few (full.trans (Nat.le_mul_of_pos_right _ positive'))
      have least' : exponent' = -1074 := formed'.full.resolve_left fun full =>
        few (full.trans (Nat.le_mul_of_pos_left _ positive))
      omega

theorem rounds_add : Rounds .positive (magnitude value + magnitude value') (value.add .binary64 value') := by
  cases regular with
  | zero any =>
    rw [magnitude_zero, zero_add]
    cases regular' with
    | zero any' =>
      have sum : ∃ sign, (UnpackedFloat.zero any).add .binary64 (.zero any') = .zero sign := by
        cases any <;> cases any' <;> exact ⟨_, rfl⟩
      obtain ⟨sign, sum⟩ := sum
      rw [sum]
      exact (Regular.zero sign).rounds
    | finite positive' formed' => exact (Regular.finite positive' formed').rounds
  | @finite mantissa exponent positive formed =>
    cases regular' with
    | zero any' =>
      rw [magnitude_zero, add_zero]
      exact (Regular.finite positive formed).rounds
    | @finite mantissa' exponent' positive' formed' =>
      have size : magnitude (.finite .positive mantissa exponent positive) +
          magnitude (.finite .positive mantissa' exponent' positive') =
            (mantissa * 2 ^ (exponent - min exponent exponent').toNat +
              mantissa' * 2 ^ (exponent' - min exponent exponent').toNat : ℕ) * 2 ^ min exponent exponent' := by
        rw [magnitude, magnitude, ← aligned mantissa (min_le_left exponent exponent'),
          ← aligned mantissa' (min_le_right exponent exponent'), Nat.cast_add, add_mul]
      rw [size, add_positive]
      exact rounds_round (Nat.add_pos_left (Nat.mul_pos positive (Nat.two_pow_pos _)) _)

omit regular' in
theorem rounds_sqrt : Rounds .positive (√ (magnitude value)) (value.sqrt .binary64) := by
  cases regular with
  | zero any =>
    rw [magnitude_zero, Real.sqrt_zero]
    exact (Regular.zero any).rounds
  | @finite mantissa exponent positive formed =>
    have halves : Int.ediv (totalExponent mantissa exponent + 1) 2 = (totalExponent mantissa exponent + 1) / 2 := rfl
    have half : Int.ediv exponent 2 = exponent / 2 := rfl
    -- Zeros are appended until the root has 53 digits; the exponent is even then.
    simp only [UnpackedFloat.sqrt, sqrtCore, Nat.shiftLeft_eq, halves, half]
    generalize enough : min (exponent / 2)
      (Format.binary64.targetExponent ((totalExponent mantissa exponent + 1) / 2)) = unit
    have fine : 2 * unit ≤ exponent := by omega
    generalize digits : (exponent - 2 * unit).toNat = zeros
    have appended : 0 < mantissa * 2 ^ zeros := Nat.mul_pos positive (Nat.two_pow_pos zeros)
    have root : √ (magnitude (.finite .positive mantissa exponent positive)) / 2 ^ unit = √ (mantissa * 2 ^ zeros : ℕ) := by
      have above : (0 : ℝ) < 2 ^ unit := zpow_pos two_pos unit
      rw [magnitude, ← aligned mantissa fine, digits, two_mul, zpow_add₀ two_ne_zero, Real.sqrt_mul (Nat.cast_nonneg _),
        Real.sqrt_mul_self above.le, mul_div_cancel_right₀ _ above.ne']
    have located := locates_sqrt (mantissa * 2 ^ zeros)
    rw [← root] at located
    apply rounds_roundWithAccuracy located (Nat.sqrt_pos.mpr appended)
    have total : totalExponent (mantissa * 2 ^ zeros).sqrt unit = (totalExponent mantissa exponent + 1) / 2 := by
      simp only [totalExponent, log2_sqrt appended, log2_mul_two_pow positive]
      omega
    rw [total, ← enough]
    exact min_le_right _ _

end Exact

theorem regular_unpack {x : Float} (finite : x.isFinite = true) (nonneg : 0 ≤ x) : Regular .positive (unpack x) := by
  rcases zero_or_pos nonneg with ⟨sign, zero⟩ | positive
  · exact zero ▸ .zero sign
  · obtain ⟨mantissa, exponent, nonzero, value, canonical⟩ := unpack_of_pos finite positive
    exact value ▸ .finite nonzero canonical.formed

theorem lt_iff_not_le {x y : Float} (nonneg : 0 ≤ x) (nonneg' : 0 ≤ y) : x < y ↔ ¬ y ≤ x := by
  rw [nonneg_iff] at nonneg nonneg'
  rw [lt_iff_unpack, le_iff_unpack]
  exact nonneg.lt_iff nonneg'

theorem le_of_lt {x y : Float} (below : x < y) : x ≤ y := by
  rw [lt_iff_unpack, UnpackedFloat.lt, beq_iff_eq] at below
  rw [le_iff_unpack, UnpackedFloat.le, below]
  rfl

section Order

variable {x y z : Float} (nonneg : 0 ≤ x)

include nonneg

theorem le_infinity : x ≤ infinity := by
  rw [nonneg_iff] at nonneg
  rw [le_iff_unpack]
  exact nonneg.le_infinity

theorem nonneg_of_le (below : x ≤ y) : 0 ≤ y := by
  rw [nonneg_iff] at *
  rw [le_iff_unpack] at below
  generalize unpack x = value at *
  cases value' : unpack y with
  | notANumber => cases nonneg <;> (rw [value'] at below; cases below)
  | zero sign => exact .zero sign
  | infinity sign | finite sign =>
    cases sign with
    | positive => constructor
    | negative => cases nonneg <;> (rw [value'] at below; cases below)

theorem le_of_zero {zero : Float} (none : (zero == 0) = true) : zero ≤ x := by
  obtain ⟨sign, value⟩ := beq_zero_iff.mp none
  rw [nonneg_iff] at nonneg
  rw [le_iff_unpack, value]
  generalize unpack x = above at *
  cases nonneg <;> rfl

theorem isFinite_of_le (finite : y.isFinite = true) (below : x ≤ y) : x.isFinite = true := by
  apply isFinite_of_nonneg nonneg
  rintro rfl
  exact ne_infinity_of_isFinite finite (infinity_le_iff.mp below)

theorem le_iff_magnitude (finite : x.isFinite = true) (nonneg' : 0 ≤ y) (finite' : y.isFinite = true) :
    x ≤ y ↔ magnitude (unpack x) ≤ magnitude (unpack y) := by
  rw [le_iff_unpack]
  exact (regular_unpack finite nonneg).le_iff (regular_unpack finite' nonneg')

theorem le_refl_of_nonneg : x ≤ x := by
  by_cases outside : x = infinity
  · rw [outside]
    decide
  · have finite := isFinite_of_nonneg nonneg outside
    exact (le_iff_magnitude nonneg finite nonneg finite).mpr le_rfl

theorem le_trans_of_nonneg (first : x ≤ y) (second : y ≤ z) : x ≤ z := by
  have nonneg' := nonneg_of_le nonneg first
  have nonneg'' := nonneg_of_le nonneg' second
  by_cases outside : z = infinity
  · rw [outside]
    exact le_infinity nonneg
  · have finite'' := isFinite_of_nonneg nonneg'' outside
    have finite' := isFinite_of_le nonneg' finite'' second
    have finite := isFinite_of_le nonneg finite' first
    rw [le_iff_magnitude nonneg finite nonneg' finite'] at first
    rw [le_iff_magnitude nonneg' finite' nonneg'' finite''] at second
    exact (le_iff_magnitude nonneg finite nonneg'' finite'').mpr (first.trans second)

theorem floorOf_eq (finite : x.isFinite = true) : floorOf x = ⌊magnitude (unpack x)⌋₊ := by
  unfold floorOf signAndSize?
  have regular := regular_unpack finite nonneg
  generalize unpack x = value at *
  cases regular with
  | zero any =>
    rw [magnitude_zero, Nat.floor_zero]
    cases any <;> rfl
  | @finite mantissa exponent positive formed =>
    rw [magnitude, scaled_eq_div, Nat.floor_div_eq_div]
    rfl

theorem lt_of_lt_of_le_of_nonneg (first : x < y) (second : y ≤ z) : x < z := by
  have nonneg' := nonneg_of_le nonneg (le_of_lt first)
  rw [lt_iff_not_le nonneg nonneg'] at first
  rw [lt_iff_not_le nonneg (nonneg_of_le nonneg' second)]
  exact fun back => first (le_trans_of_nonneg nonneg' second back)

end Order

/-- Infinity keeps every factor but zero infinite. -/
theorem infinity_times {x : Float} (nonneg : 0 ≤ x) (product : 0 ≤ infinity * x) : infinity * x = infinity := by
  rw [nonneg_iff, unpack_mul, unpack_infinity] at product
  rw [eq_infinity_iff, unpack_mul, unpack_infinity]
  rw [nonneg_iff] at nonneg
  generalize unpack x = value at *
  cases nonneg with
  | zero sign =>
    rw [UnpackedFloat.mul, stored_notANumber] at product
    cases product
  | infinity | finite => exact stored_infinity .positive

structure Within (x y : Float) : Prop where
  nonneg : 0 ≤ x
  le : x ≤ y
  finite : y.isFinite = true

namespace Within

variable {x y x' y' : Float} (within : Within x y)

include within

theorem nonneg_right : 0 ≤ y := nonneg_of_le within.nonneg within.le

theorem isFinite_left : x.isFinite = true := isFinite_of_le within.nonneg within.finite within.le

theorem regular_left : Regular .positive (unpack x) := regular_unpack within.isFinite_left within.nonneg

theorem regular_right : Regular .positive (unpack y) := regular_unpack within.finite within.nonneg_right

theorem magnitude_le : magnitude (unpack x) ≤ magnitude (unpack y) :=
  (le_iff_magnitude within.nonneg within.isFinite_left within.nonneg_right within.finite).mp within.le

theorem sqrt_le : x.sqrt ≤ y.sqrt := by
  rw [le_iff_unpack]
  exact (rounds_sqrt within.regular_left).stored_le (rounds_sqrt within.regular_right)
    (Real.sqrt_le_sqrt within.magnitude_le)

theorem floorOf_le : floorOf x ≤ floorOf y := by
  rw [floorOf_eq within.nonneg within.isFinite_left, floorOf_eq within.nonneg_right within.finite]
  exact_mod_cast Nat.floor_le_floor within.magnitude_le

variable (within' : Within x' y')

include within'

theorem add_le : x + x' ≤ y + y' := by
  rw [le_iff_unpack]
  exact (rounds_add within.regular_left within'.regular_left).stored_le
    (rounds_add within.regular_right within'.regular_right) (add_le_add within.magnitude_le within'.magnitude_le)

/-- The sums stay within each other as long as they stay in range. -/
theorem add (inside : y + y' ≠ infinity) : Within (x + x') (y + y') := by
  have nonneg : 0 ≤ x + x' :=
    nonneg_iff.mpr (rounds_add within.regular_left within'.regular_left).regular.unsigned.stored
  have grows := within.add_le within'
  exact ⟨nonneg, grows, isFinite_of_nonneg (nonneg_of_le nonneg grows) inside⟩

theorem mul_le : x * x' ≤ y * y' := by
  rw [le_iff_unpack]
  exact (rounds_mul within.regular_left within'.regular_left).stored_le
    (rounds_mul within.regular_right within'.regular_right)
    (mul_le_mul within.magnitude_le within'.magnitude_le (magnitude_nonneg within'.regular_left)
      (magnitude_nonneg within.regular_right))

end Within

/-- Products that are numbers do not decrease, also where a factor is infinite. -/
theorem mul_le_mul_of_nonneg {x x' y y' : Float} (nonneg : 0 ≤ x) (nonneg' : 0 ≤ y) (grows : x ≤ x') (grows' : y ≤ y')
    (product : 0 ≤ x * y) (product' : 0 ≤ x' * y') : x * y ≤ x' * y' := by
  have above := nonneg_of_le nonneg grows
  have above' := nonneg_of_le nonneg' grows'
  by_cases infinite : x' = infinity
  · rw [infinite] at product' ⊢
    rw [infinity_times above' product']
    exact le_infinity product
  by_cases infinite' : y' = infinity
  · rw [infinite', times_comm x'] at product' ⊢
    rw [infinity_times above product']
    exact le_infinity product
  have within : Within x x' := ⟨nonneg, grows, isFinite_of_nonneg above infinite⟩
  have within' : Within y y' := ⟨nonneg', grows', isFinite_of_nonneg above' infinite'⟩
  exact within.mul_le within'

theorem rounds_ofNat (n : ℕ) : ∃ value, unpack (Float.ofNat n) = stored value ∧ Rounds .positive n value := by
  change ∃ value, unpack (Float.ofScientific n false 0) = stored value ∧ Rounds .positive n value
  unfold Float.ofScientific
  split
  next small =>
    change ∃ value, unpack (n.toUInt64.toFloat * 1) = stored value ∧ Rounds .positive n value
    rw [times_one]
    refine ⟨UnpackedFloat.normalize .binary64 n.toUInt64.toNat 0 .positive, rfl, ?_⟩
    have same : n.toUInt64.toNat = n := by
      rw [Nat.toUInt64_eq, UInt64.toNat_ofNat']
      omega
    rw [same]
    unfold UnpackedFloat.normalize
    split
    next negative => exact absurd (Int.compare_eq_lt.mp negative) (by omega)
    next zero =>
      obtain rfl : n = 0 := by exact_mod_cast Int.compare_eq_eq.mp zero
      exact_mod_cast (Regular.zero .positive).rounds
    next positive =>
      have exact : Rounds .positive (n * 2 ^ (0 : ℤ)) (round .binary64 .positive n 0) :=
        rounds_round (Int.natCast_pos.mp (Int.compare_eq_gt.mp positive))
      rwa [zpow_zero, mul_one] at exact
  next large =>
    refine ⟨UnpackedFloat.ofScientific .binary64 n 0, rfl, ?_⟩
    have positive : 0 < n := by omega
    have room : ¬ (0 : Int) < -(2 ^ 11 + n.log2) := by omega
    unfold UnpackedFloat.ofScientific
    rw [dif_neg positive.ne', if_neg (by decide), if_neg room, if_pos (Int.le_refl 0)]
    have digits : n <<< Format.binary64.mantissaBits * 10 ^ (0 : ℤ).toNat = n * 2 ^ 53 := by
      rw [Nat.shiftLeft_eq, Int.toNat_zero, Nat.pow_zero, Nat.mul_one]
      rfl
    have unit : -(Format.binary64.mantissaBits : ℤ) + 0 = -53 := rfl
    have sign : Sign.positive * Sign.positive = .positive := rfl
    have size : (n : ℝ) = (n * 2 ^ 53 : ℕ) * 2 ^ (-53 : ℤ) := by
      rw [Nat.cast_mul, mul_assoc]
      norm_num
    rw [UnpackedFloat.mul, digits, unit, sign, size]
    exact rounds_exact (Nat.mul_pos positive (Nat.two_pow_pos 53)) (le_targetExponent (.inl (by omega)))

theorem ofNat_le_ofNat {n m : ℕ} (fewer : n ≤ m) : Float.ofNat n ≤ Float.ofNat m := by
  obtain ⟨value, shown, rounds⟩ := rounds_ofNat n
  obtain ⟨value', shown', rounds'⟩ := rounds_ofNat m
  rw [le_iff_unpack, shown, shown']
  exact rounds.stored_le rounds' (by exact_mod_cast fewer)

end LoopCost
