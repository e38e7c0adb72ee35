import LoopCost.Cost.Elementary
import Mathlib

/-! Where products of doubles leave the range. A double that is finite has a mantissa below two to 53 and an exponent
up to 971. The exact product of two of them loses the digits beyond 53, is rounded, and loses one more where that has
carried; only then it turns out whether the exponent is still in range. -/

namespace LoopCost

open Float.Model
open Float.Model.UnpackedFloat hiding unpack infinity

theorem le_iff_unpack {x y : Float} : x ≤ y ↔ (unpack x).le (unpack y) = true := by
  show decide (x.toModel ≤ y.toModel) = true ↔ _
  exact decide_eq_true_iff

theorem unpack_infinity : unpack infinity = .infinity .positive := rfl

theorem unpack_inj {x y : Float} : unpack x = unpack y ↔ x = y := by
  constructor
  · intro same
    have bits := (unpack_inj_of_valid x.toModel.valid y.toModel.valid).mp same
    exact Float.toBits_inj.mp (UInt64.toBitVec_inj.mp bits)
  · rintro rfl
    rfl

theorem eq_infinity_iff {x : Float} : x = infinity ↔ unpack x = .infinity .positive := by
  rw [← unpack_inj, unpack_infinity]

theorem infinity_le_iff {x : Float} : infinity ≤ x ↔ x = infinity := by
  rw [le_iff_unpack, eq_infinity_iff, unpack_infinity]
  cases unpack x with
  | infinity sign => cases sign <;> simp [UnpackedFloat.le, UnpackedFloat.compare, compare]
  | notANumber | zero | finite => simp [UnpackedFloat.le, UnpackedFloat.compare]

theorem isFinite_of_isInf {x : Float} (infinite : x.isInf = true) : x.isFinite = false := by
  change (unpack x).isInf = true at infinite
  change (unpack x).isFinite = false
  revert infinite
  cases unpack x with
  | infinity => exact fun _ => rfl
  | notANumber | zero | finite => nofun

def stored (value : UnpackedFloat) : UnpackedFloat := .unpack .binary64 (value.pack .binary64)

theorem stored_notANumber : stored .notANumber = .notANumber := rfl

theorem stored_infinity (sign : Sign) : stored (.infinity sign) = .infinity sign := by
  cases sign <;> rfl

theorem stored_zero (sign : Sign) : stored (.zero sign) = .zero sign := by
  cases sign <;> rfl

theorem unpack_mul (x y : Float) : unpack (x * y) = stored ((unpack x).mul .binary64 (unpack y)) := rfl

/-- A finite double is in range. -/
theorem unpack_finite {b : BitVec Format.binary64.numBits} {sign : Sign} {mantissa : Nat} {exponent : Int}
    {positive : 0 < mantissa} (finite : UnpackedFloat.unpack .binary64 b = .finite sign mantissa exponent positive) :
    mantissa < 2 ^ 53 ∧ exponent ≤ 971 := by
  revert finite
  fun_cases UnpackedFloat.unpack Format.binary64 b with
  | case1 | case2 | case3 =>
    intro finite
    cases finite
  | case4 digits biased unbiased _ _ _ subnormal =>
    intro finite
    obtain ⟨-, rfl, rfl⟩ := UnpackedFloat.finite.inj finite
    refine ⟨Nat.lt_of_lt_of_le digits.isLt (by decide), ?_⟩
    have least : (biased.toNat : Int) = 0 := by simp [subnormal]
    show (biased.toNat : Int) - (1023 + 52) + 1 ≤ 971
    omega
  | case5 digits biased unbiased _ _ inside =>
    intro finite
    obtain ⟨-, rfl, rfl⟩ := UnpackedFloat.finite.inj finite
    refine ⟨(1#1 ++ digits).isLt, ?_⟩
    have largest : biased.toNat ≤ 2046 := by bv_omega
    show (biased.toNat : Int) - (1023 + 52) ≤ 971
    omega

/-- Only the greatest exponent makes a double infinite. -/
theorem isInf_unpack {spec : Format} {b : BitVec spec.numBits} (inside : unpackExponent b ≠ -1#_) :
    (UnpackedFloat.unpack spec b).isInf = false := by
  unfold UnpackedFloat.unpack
  dsimp only
  rw [if_neg inside]
  split
  · split <;> rfl
  · rfl

theorem shift_mantissa (extended : ExtendedMantissa) (digits : Nat) :
    (extended >>> digits).mantissa = extended.mantissa / 2 ^ digits := by
  induction digits with
  | zero => exact (Nat.div_one _).symm
  | succ digits ih =>
    show (extended >>> digits).mantissa / 2 = _
    rw [ih, Nat.div_div_eq_div_mul, Nat.pow_succ]

theorem mantissa_ofMantissaAndAccuracy (mantissa : Nat) (accuracy : Accuracy) :
    (ExtendedMantissa.ofMantissaAndAccuracy mantissa accuracy).mantissa = mantissa := by
  unfold ExtendedMantissa.ofMantissaAndAccuracy
  split <;> rfl

theorem roundedMantissa_le (extended : ExtendedMantissa) : extended.roundedMantissa ≤ extended.mantissa + 1 := by
  obtain ⟨mantissa, round, sticky⟩ := extended
  cases round <;> cases sticky <;>
    simp [ExtendedMantissa.roundedMantissa, ExtendedMantissa.accuracy, Accuracy.roundToNearestEven]
  omega

theorem targetExponent_binary64 (total : Int) : Format.binary64.targetExponent total = max (total - 53) (-1074) := rfl

/-- Shifting leaves 53 digits at most, and drops no more than this asks for. -/
theorem exists_shift (mantissa : Nat) (exponent : Int) (accuracy : Accuracy) :
    ∃ extended : ExtendedMantissa, ∃ digits : Nat,
      shiftToTargetExponent .binary64 mantissa exponent accuracy = (extended, exponent + digits) ∧
      extended.mantissa < 2 ^ 53 ∧
      exponent + digits ≤ max exponent (max (totalExponent mantissa exponent - 53) (-1074)) := by
  let digits := (Format.binary64.targetExponent (totalExponent mantissa exponent) - exponent).toNat
  refine ⟨ExtendedMantissa.ofMantissaAndAccuracy mantissa accuracy >>> digits, digits, rfl, ?_, ?_⟩
  · rw [shift_mantissa, mantissa_ofMantissaAndAccuracy, Nat.div_lt_iff_lt_mul (Nat.two_pow_pos digits), ← Nat.pow_add]
    apply Nat.lt_of_lt_of_le (Nat.lt_log2_self (n := mantissa))
    apply Nat.pow_le_pow_right (by decide)
    simp only [digits, targetExponent_binary64, totalExponent]
    omega
  · simp only [digits, targetExponent_binary64]
    omega

theorem isInf_stored_finite {sign : Sign} {mantissa : Nat} {exponent : Int} {positive : 0 < mantissa}
    (fits : exponent ≤ 971) : (stored (.finite sign mantissa exponent positive)).isInf = false := by
  have bias : Format.binary64.exponentBias = 1023 := rfl
  unfold stored UnpackedFloat.pack
  dsimp only [bias]
  rw [if_neg (by omega)]
  split
  · apply isInf_unpack
    rw [unpackExponent_packComponents]
    bv_omega
  · apply isInf_unpack
    rw [unpackExponent_packComponents]
    decide

theorem isInf_stored_round {sign : Sign} {mantissa : Nat} {exponent : Int} {accuracy : Accuracy}
    (size : totalExponent mantissa exponent ≤ 1023) (unit : exponent ≤ 970) :
    (stored (roundWithAccuracy .binary64 sign mantissa exponent accuracy)).isInf = false := by
  obtain ⟨first, digits, shifted, fewer, bound⟩ := exists_shift mantissa exponent accuracy
  obtain ⟨second, digits', shifted', -, bound'⟩ := exists_shift first.roundedMantissa (exponent + digits) .exact
  have carried : first.roundedMantissa.log2 ≤ 53 := by
    have rounded := roundedMantissa_le first
    by_cases none : first.roundedMantissa = 0
    · rw [none]
      decide
    · exact Nat.lt_succ_iff.mp ((Nat.log2_lt none).mpr (by omega))
  unfold roundWithAccuracy
  simp only [shifted, shifted']
  split
  · cases sign <;> rfl
  · apply isInf_stored_finite
    unfold totalExponent at *
    omega

/-- Less than half of a double is infinite only if the double is. -/
theorem infinity_le_mul {share : Float} {mantissa : Nat} {exponent : Int} {positive : 0 < mantissa}
    (finite : unpack share = .finite .positive mantissa exponent positive) (small : exponent ≤ -54) {x : Float} :
    infinity ≤ x * share ↔ x = infinity := by
  rw [infinity_le_iff, eq_infinity_iff, eq_infinity_iff, unpack_mul, finite]
  cases whole : unpack x with
  | notANumber => simp [UnpackedFloat.mul, stored_notANumber]
  | infinity sign =>
    have unchanged : sign * .positive = sign := by cases sign <;> rfl
    simp only [UnpackedFloat.mul, unchanged, stored_infinity]
  | zero sign => simp [UnpackedFloat.mul, stored_zero]
  | finite sign mantissa' exponent' positive' =>
    have bounded := unpack_finite whole
    have bounded' := unpack_finite finite
    have digits : (mantissa' * mantissa).log2 < 106 :=
      (Nat.log2_lt (Nat.mul_pos positive' positive).ne').mpr (Nat.mul_lt_mul'' bounded.1 bounded'.1 : _ < 2 ^ 53 * 2 ^ 53)
    have size : totalExponent (mantissa' * mantissa) (exponent' + exponent) ≤ 1023 := by
      unfold totalExponent
      omega
    refine iff_of_false ?_ nofun
    intro same
    have fits : (UnpackedFloat.infinity .positive).isInf = false :=
      same ▸ isInf_stored_round size (by omega)
    cases fits

end LoopCost
