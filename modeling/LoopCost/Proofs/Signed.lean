import LoopCost.Number.Count
import LoopCost.Proofs.Decimal
import LoopCost.Proofs.Ordered

/-! The numbers that finite doubles of both signs stand for, their order and the integers below them. -/

namespace LoopCost

open Float.Model
open Float.Model.UnpackedFloat hiding unpack infinity

/-- The number that a finite value stands for. -/
noncomputable def number : UnpackedFloat → ℝ
  | .finite .negative mantissa exponent positive => -magnitude (.finite .negative mantissa exponent positive)
  | .finite .positive mantissa exponent positive => magnitude (.finite .positive mantissa exponent positive)
  | _ => 0

/-- The number that a finite double stands for. -/
noncomputable def realOf (x : Float) : ℝ := number (unpack x)

section
variable {value value' : UnpackedFloat}

theorem number_of_positive (regular : Regular .positive value) : number value = magnitude value := by
  cases regular <;> rfl

theorem number_of_negative (regular : Regular .negative value) : number value = -magnitude value := by
  cases regular with
  | zero any => simp [number, magnitude]
  | finite positive formed => rfl

theorem Regular.magnitude_nonneg {sign : Sign} (regular : Regular sign value) : 0 ≤ magnitude value := by
  cases regular with
  | zero any => exact le_rfl
  | finite positive formed => exact mul_nonneg (Nat.cast_nonneg _) (zpow_pos two_pos _).le

theorem Regular.abs {sign : Sign} (regular : Regular sign value) : Regular .positive value.abs := by
  cases regular with
  | zero any => exact .zero .positive
  | finite positive formed => exact .finite positive formed

theorem Regular.magnitude_abs {sign : Sign} (regular : Regular sign value) : magnitude value.abs = magnitude value := by
  cases regular <;> rfl

theorem le_of_negative (regular : Regular .negative value) (regular' : Regular .negative value') :
    value.le value' = value'.abs.le value.abs := by
  cases regular with
  | zero any =>
    cases regular' <;> rfl
  | @finite mantissa exponent positive formed =>
    cases regular' with
    | zero any => rfl
    | @finite mantissa' exponent' positive' formed' =>
      simp only [UnpackedFloat.le, UnpackedFloat.compare, UnpackedFloat.abs, Option.any_some, Ordering.swap_then,
        Int.compare_swap, Nat.compare_swap]

theorem regular_of_isFinite {x : Float} (finite : x.isFinite = true) :
    Regular .positive (unpack x) ∨ Regular .negative (unpack x) := by
  change (unpack x).isFinite = true at finite
  cases value : unpack x with
  | notANumber | infinity =>
    rw [value] at finite
    cases finite
  | zero sign => exact .inl (.zero sign)
  | finite sign mantissa exponent positive =>
    have formed := (canonical_of_unpack value).formed
    cases sign with
    | positive => exact .inl (.finite positive formed)
    | negative => exact .inr (.finite positive formed)

end

/-- The order of finite doubles is that of the numbers. -/
theorem realOf_le {x y : Float} (finite : x.isFinite = true) (finite' : y.isFinite = true) (le : x ≤ y) : realOf x ≤ realOf y := by
  rw [le_iff_unpack] at le
  unfold realOf
  rcases regular_of_isFinite finite with regular | regular <;>
    rcases regular_of_isFinite finite' with regular' | regular'
  · rw [number_of_positive regular, number_of_positive regular']
    exact (regular.le_iff regular').mp le
  · generalize unpack x = value at *
    generalize unpack y = value' at *
    cases regular <;> cases regular' <;> first | exact le_rfl | cases le
  · rw [number_of_negative regular, number_of_positive regular']
    linarith [regular.magnitude_nonneg, regular'.magnitude_nonneg]
  · rw [number_of_negative regular, number_of_negative regular', neg_le_neg_iff, ← regular.magnitude_abs,
      ← regular'.magnitude_abs]
    rw [le_of_negative regular regular'] at le
    exact (regular'.abs.le_iff regular.abs).mp le

theorem unpack_abs {x : Float} (finite : x.isFinite = true) : unpack x.abs = (unpack x).abs := by
  change (unpack x).isFinite = true at finite
  change stored (unpack x).abs = _
  cases value : unpack x with
  | notANumber | infinity =>
    rw [value] at finite
    cases finite
  | zero sign => exact stored_zero .positive
  | finite sign mantissa exponent positive => exact stored_of_canonical (canonical_of_unpack value)

section
variable {x : Float} (finite : x.isFinite = true)

include finite

theorem regular_abs : Regular .positive (unpack x.abs) := by
  rw [unpack_abs finite]
  rcases regular_of_isFinite finite with regular | regular <;> exact regular.abs

theorem realOf_abs : realOf x.abs = |realOf x| := by
  rw [realOf, realOf, number_of_positive (regular_abs finite), unpack_abs finite]
  rcases regular_of_isFinite finite with regular | regular
  · rw [number_of_positive regular, regular.magnitude_abs, abs_of_nonneg regular.magnitude_nonneg]
  · rw [number_of_negative regular, regular.magnitude_abs, abs_neg, abs_of_nonneg regular.magnitude_nonneg]

variable {bound : Float} (above : Regular .positive (unpack bound))

include above

theorem le_abs_iff : bound ≤ x.abs ↔ realOf bound ≤ |realOf x| := by
  rw [← realOf_abs finite, le_iff_unpack, above.le_iff (regular_abs finite), realOf, realOf, number_of_positive above,
    number_of_positive (regular_abs finite)]

theorem abs_lt_iff : x.abs < bound ↔ |realOf x| < realOf bound := by
  rw [lt_iff_unpack, (regular_abs finite).unsigned.lt_iff above.unsigned, ← le_iff_unpack, le_abs_iff finite above, not_le]

theorem lt_abs_iff : bound < x.abs ↔ realOf bound < |realOf x| := by
  rw [lt_iff_unpack, above.unsigned.lt_iff (regular_abs finite).unsigned, (regular_abs finite).le_iff above, not_le,
    ← realOf_abs finite, realOf, realOf, number_of_positive above, number_of_positive (regular_abs finite)]

end

theorem realOf_zero : realOf 0 = 0 := rfl

theorem realOf_thousand : realOf 1000 = 1000 := by
  have value : realOf 1000 = (1000 * 2 ^ 43 : ℕ) * 2 ^ (-43 : ℤ) := rfl
  rw [value]
  norm_num

theorem realOf_million : realOf 1000000 = 1000000 := by
  have value : realOf 1000000 = (1000000 * 2 ^ 33 : ℕ) * 2 ^ (-33 : ℤ) := rfl
  rw [value]
  norm_num

/-- What a finite double is taken apart into: its sign and its size as a fraction. -/
theorem signAndSize?_of_isFinite {x : Float} (finite : x.isFinite = true) :
    ∃ negative size, signAndSize? x = some (negative, size) ∧ 0 < size.den ∧ 0 ≤ size.real ∧
      realOf x = if negative then -size.real else size.real := by
  change (unpack x).isFinite = true at finite
  unfold signAndSize? realOf
  generalize unpack x = value at *
  cases value with
  | notANumber | infinity => cases finite
  | zero sign =>
    refine ⟨_, _, rfl, Nat.one_pos, by simp [Fraction.real], ?_⟩
    simp [number, Fraction.real]
  | finite sign mantissa exponent positive =>
    have size : Fraction.real ⟨mantissa * Nat.pow 2 exponent.toNat, Nat.pow 2 (-exponent).toNat⟩ = mantissa * 2 ^ exponent :=
      (scaled_eq_div mantissa exponent).symm
    refine ⟨_, _, rfl, Nat.two_pow_pos _, ?_, ?_⟩
    · rw [size]
      positivity
    · rw [size]
      cases sign <;> rfl

/-- The integer below a finite double is the one below its number. -/
theorem floorOf_eq_floor {x : Float} (finite : x.isFinite = true) : floorOf x = ⌊realOf x⌋ := by
  obtain ⟨negative, size, parts, positive, -, number⟩ := signAndSize?_of_isFinite finite
  have above : (0 : ℝ) < size.den := Nat.cast_pos.mpr positive
  rw [floorOf, parts, number]
  cases negative with
  | false =>
    rw [if_neg Bool.false_ne_true, Fraction.real, Int.floor_div_natCast, Int.floor_natCast]
    rfl
  | true =>
    have low : (size.num + size.den - 1) / size.den * size.den ≤ size.num + size.den - 1 := Nat.div_mul_le_self _ _
    have high : size.num + size.den - 1 < ((size.num + size.den - 1) / size.den + 1) * size.den :=
      (Nat.div_lt_iff_lt_mul positive).mp (Nat.lt_succ_self _)
    rw [if_pos rfl, eq_comm, Int.floor_eq_iff, Fraction.real]
    dsimp only
    generalize (size.num + size.den - 1) / size.den = up at *
    rw [Nat.succ_mul] at high
    have enough : (size.num : ℝ) ≤ up * size.den := by exact_mod_cast (by omega : size.num ≤ up * size.den)
    have least : (up : ℝ) * size.den < size.num + size.den := by exact_mod_cast (by omega : up * size.den < size.num + size.den)
    push_cast
    constructor
    · rw [neg_le_neg_iff, div_le_iff₀ above]
      exact enough
    · have inside : (up : ℝ) - 1 < size.num / size.den := by
        rw [lt_div_iff₀ above]
        linarith
      linarith

end LoopCost
