import LoopCost.Proofs.Double

/-! How large a rounded double is. A finite double has one canonical form. Rounding what has 53 digits or more gives a
canonical form whose exponent shows the size of the exact value, so that a value with 1025 digits in front of the point
is out of range. On the other side everything below the middle between the greatest double and the next power of two
stays in range. Sums and products of two positive doubles are large or out of range accordingly. -/

namespace LoopCost

open Float.Model
open Float.Model.UnpackedFloat hiding unpack infinity

/-- The one way in which a finite double is written: with 53 digits, or with fewer at the least exponent. -/
structure Canonical (mantissa : Nat) (exponent : Int) : Prop where
  below : mantissa < 2 ^ 53
  least : -1074 ≤ exponent
  greatest : exponent ≤ 971
  full : 2 ^ 52 ≤ mantissa ∨ exponent = -1074

theorem toNat_one_append (digits : BitVec 52) : (1#1 ++ digits).toNat = 2 ^ 52 + digits.toNat := by
  rw [BitVec.toNat_append, ← Nat.shiftLeft_add_eq_or_of_lt digits.isLt, Nat.shiftLeft_eq]
  rfl

theorem canonical_of_unpack {b : BitVec Format.binary64.numBits} {sign : Sign} {mantissa : Nat} {exponent : Int}
    {positive : 0 < mantissa} (finite : UnpackedFloat.unpack .binary64 b = .finite sign mantissa exponent positive) :
    Canonical mantissa exponent := by
  obtain ⟨below, greatest⟩ := unpack_finite finite
  suffices -1074 ≤ exponent ∧ (2 ^ 52 ≤ mantissa ∨ exponent = -1074) from
    ⟨below, this.1, greatest, this.2⟩
  revert finite
  fun_cases UnpackedFloat.unpack Format.binary64 b with
  | case1 | case2 | case3 =>
    intro finite
    cases finite
  | case4 digits biased unbiased _ _ _ subnormal =>
    intro finite
    obtain ⟨-, rfl, rfl⟩ := UnpackedFloat.finite.inj finite
    have least : unbiased + 1 = -1074 := by
      show (biased.toNat : Int) - (1023 + 52) + 1 = -1074
      simp [subnormal]
    omega
  | case5 digits biased unbiased _ _ inside normal =>
    intro finite
    obtain ⟨-, rfl, rfl⟩ := UnpackedFloat.finite.inj finite
    have more : 0 < biased.toNat := by bv_omega
    have unit : unbiased = biased.toNat - 1075 := rfl
    refine ⟨by omega, .inl ?_⟩
    exact (toNat_one_append digits).symm ▸ Nat.le_add_right _ _

theorem unpackSign_packComponents {spec : Format} {sign : Sign} {exponent : BitVec spec.exponentBits}
    {mantissa : BitVec spec.mantissaBitsWithoutImplicit} :
    unpackSign (packComponents spec sign exponent mantissa) = sign.toBitVec := by
  ext i first
  simp [unpackSign, packComponents, BitVec.getLsbD_append, first, Nat.add_assoc]

theorem ofBitVec_toBitVec (sign : Sign) : Sign.ofBitVec sign.toBitVec = sign := by
  cases sign <;> rfl

/-- A value in that form is a double. -/
theorem stored_of_canonical {sign : Sign} {mantissa : Nat} {exponent : Int} {positive : 0 < mantissa}
    (canonical : Canonical mantissa exponent) :
    stored (.finite sign mantissa exponent positive) = .finite sign mantissa exponent positive := by
  obtain ⟨below, least, greatest, full⟩ := canonical
  have bias : Format.binary64.exponentBias = 1023 := rfl
  have biased : (exponent + Format.binary64.exponentBias + (52 : Nat)).toNat = (exponent + 1075).toNat := by omega
  unfold stored UnpackedFloat.pack
  dsimp only
  rw [biased, if_neg (by omega)]
  have log : mantissa.log2 + 1 = Format.binary64.mantissaBits ↔ 2 ^ 52 ≤ mantissa := by
    have digits := (Nat.log2_lt positive.ne').mpr below
    rw [← Nat.le_log2 positive.ne', show Format.binary64.mantissaBits = 53 from rfl]
    omega
  by_cases normal : 2 ^ 52 ≤ mantissa
  · rw [if_pos (log.mpr normal), UnpackedFloat.unpack]
    simp only [unpackExponent_packComponents, unpackMantissa_packComponents, unpackSign_packComponents,
      ofBitVec_toBitVec]
    rw [if_neg (by bv_omega), if_neg (by bv_omega)]
    congr 1
    · rw [toNat_one_append, BitVec.toNat_ofNat]
      omega
    · simp only [bias, BitVec.toNat_ofNat]
      omega
  · rw [if_neg (mt log.mp normal), UnpackedFloat.unpack]
    have kept : (BitVec.ofNat 52 mantissa).toNat = mantissa := by
      rw [BitVec.toNat_ofNat]
      omega
    simp only [unpackExponent_packComponents, unpackMantissa_packComponents, unpackSign_packComponents,
      ofBitVec_toBitVec]
    rw [if_neg (by decide), if_pos trivial, dif_neg (by bv_omega)]
    congr 1
    simp only [bias]
    simp
    omega

theorem le_roundedMantissa (extended : ExtendedMantissa) : extended.mantissa ≤ extended.roundedMantissa := by
  obtain ⟨mantissa, round, sticky⟩ := extended
  cases round <;> cases sticky <;>
    simp [ExtendedMantissa.roundedMantissa, ExtendedMantissa.accuracy, Accuracy.roundToNearestEven]

/-- Of 53 digits or more just as many are left. -/
theorem exists_shift_of_full {mantissa : Nat} {exponent : Int} (accuracy : Accuracy) (full : 2 ^ 52 ≤ mantissa)
    (normal : -1021 ≤ totalExponent mantissa exponent) :
    ∃ extended : ExtendedMantissa,
      shiftToTargetExponent .binary64 mantissa exponent accuracy = (extended, totalExponent mantissa exponent - 53) ∧
      2 ^ 52 ≤ extended.mantissa ∧ extended.mantissa < 2 ^ 53 := by
  have positive : mantissa ≠ 0 := by omega
  have digits : 52 ≤ mantissa.log2 := (Nat.le_log2 positive).mpr full
  have target : Format.binary64.targetExponent (totalExponent mantissa exponent) =
      totalExponent mantissa exponent - 53 := by
    rw [targetExponent_binary64]
    omega
  have dropped : (totalExponent mantissa exponent - 53 - exponent).toNat = mantissa.log2 - 52 := by
    unfold totalExponent
    omega
  refine ⟨ExtendedMantissa.ofMantissaAndAccuracy mantissa accuracy >>> (mantissa.log2 - 52), ?_, ?_, ?_⟩
  · rw [shiftToTargetExponent, target, shiftToExponent, dropped]
    unfold totalExponent
    congr 1
    omega
  · rw [shift_mantissa, mantissa_ofMantissaAndAccuracy, Nat.le_div_iff_mul_le (Nat.two_pow_pos _), ← Nat.pow_add,
      Nat.add_sub_cancel' digits]
    exact Nat.log2_self_le positive
  · rw [shift_mantissa, mantissa_ofMantissaAndAccuracy, Nat.div_lt_iff_lt_mul (Nat.two_pow_pos _), ← Nat.pow_add,
      show 53 + (mantissa.log2 - 52) = mantissa.log2 + 1 by omega]
    exact Nat.lt_log2_self

/-- Rounding keeps all 53 digits and can only raise the exponent. -/
theorem round_of_full {sign : Sign} {mantissa : Nat} {exponent : Int} {accuracy : Accuracy} (full : 2 ^ 52 ≤ mantissa)
    (normal : -1021 ≤ totalExponent mantissa exponent) :
    ∃ (rounded : Nat) (unit : Int) (positive : 0 < rounded),
      roundWithAccuracy .binary64 sign mantissa exponent accuracy = .finite sign rounded unit positive ∧
      2 ^ 52 ≤ rounded ∧ rounded < 2 ^ 53 ∧ totalExponent mantissa exponent - 53 ≤ unit := by
  obtain ⟨first, shifted, lower, -⟩ := exists_shift_of_full accuracy full normal
  have carried : 2 ^ 52 ≤ first.roundedMantissa := lower.trans (le_roundedMantissa first)
  have digits : 52 ≤ first.roundedMantissa.log2 := (Nat.le_log2 (by omega)).mpr carried
  have grown : totalExponent mantissa exponent ≤
      totalExponent first.roundedMantissa (totalExponent mantissa exponent - 53) := by
    unfold totalExponent
    omega
  obtain ⟨second, shifted', lower', upper'⟩ := exists_shift_of_full .exact carried (normal.trans grown)
  refine ⟨second.mantissa, _, by omega, ?_, lower', upper', Int.sub_le_sub_right grown 53⟩
  unfold roundWithAccuracy
  simp only [shifted, shifted']
  exact dif_neg (by omega)

theorem stored_of_excess {sign : Sign} {mantissa : Nat} {exponent : Int} {positive : 0 < mantissa}
    (excess : 972 ≤ exponent) : stored (.finite sign mantissa exponent positive) = .infinity sign := by
  have bias : Format.binary64.exponentBias = 1023 := rfl
  rw [← stored_infinity, stored, stored]
  unfold UnpackedFloat.pack
  dsimp only
  rw [if_pos (by omega)]

/-- With 1025 digits in front of the point a result is out of range. -/
theorem stored_round_of_large {sign : Sign} {mantissa : Nat} {exponent : Int} {accuracy : Accuracy}
    (full : 2 ^ 52 ≤ mantissa) (large : 1025 ≤ totalExponent mantissa exponent) :
    stored (roundWithAccuracy .binary64 sign mantissa exponent accuracy) = .infinity sign := by
  have normal : -1021 ≤ totalExponent mantissa exponent := by omega
  obtain ⟨rounded, unit, positive, whole, -, -, least⟩ := round_of_full full normal
  rw [whole]
  exact stored_of_excess (by omega)

theorem roundedMantissa_of_even {extended : ExtendedMantissa} (below : extended.roundBit = false) :
    extended.roundedMantissa = extended.mantissa := by
  obtain ⟨mantissa, round, sticky⟩ := extended
  cases below
  cases sticky <;> rfl

/-- Half a unit more than the greatest mantissa is the first that is rounded up out of range. -/
theorem roundedMantissa_shift_lt {extended : ExtendedMantissa} {digits : Nat}
    (size : extended.mantissa < (2 ^ 54 - 1) * 2 ^ digits) : (extended >>> (digits + 1)).roundedMantissa < 2 ^ 53 := by
  have halves : (extended >>> digits).mantissa < 2 ^ 54 - 1 := by
    rw [shift_mantissa, Nat.div_lt_iff_lt_mul (Nat.two_pow_pos digits)]
    exact size
  have mantissa : (extended >>> (digits + 1)).mantissa = (extended >>> digits).mantissa / 2 := rfl
  have round : (extended >>> (digits + 1)).roundBit = ((extended >>> digits).mantissa % 2 != 0) := rfl
  by_cases even : (extended >>> digits).mantissa % 2 = 0
  · rw [roundedMantissa_of_even (by rw [round, even]; rfl), mantissa]
    omega
  · have rounded := roundedMantissa_le (extended >>> (digits + 1))
    omega

/-- The greatest double is what is rounded to up to the middle between it and the next power of two. -/
theorem isInf_stored_round_of_lt {sign : Sign} {mantissa : Nat} {exponent : Int} {accuracy : Accuracy}
    (unit : exponent ≤ 970) (size : mantissa < (2 ^ 54 - 1) * 2 ^ (970 - exponent).toNat) :
    (stored (roundWithAccuracy .binary64 sign mantissa exponent accuracy)).isInf = false := by
  by_cases small : totalExponent mantissa exponent ≤ 1023
  · exact isInf_stored_round small unit
  have positive : mantissa ≠ 0 := by
    rintro rfl
    unfold totalExponent at small
    have : Nat.log2 0 = 0 := by decide
    omega
  have digits : mantissa.log2 < 54 + (970 - exponent).toNat := by
    rw [Nat.log2_lt positive, Nat.pow_add]
    exact size.trans_le (Nat.mul_le_mul_right _ (by decide))
  have total : totalExponent mantissa exponent = 1024 := by
    unfold totalExponent at *
    omega
  have dropped : ((971 : Int) - exponent).toNat = (970 - exponent).toNat + 1 := by omega
  have shifted : shiftToTargetExponent .binary64 mantissa exponent accuracy =
      (ExtendedMantissa.ofMantissaAndAccuracy mantissa accuracy >>> ((970 - exponent).toNat + 1), 971) := by
    rw [shiftToTargetExponent, total, show Format.binary64.targetExponent 1024 = 971 from rfl, shiftToExponent, dropped]
    congr 1
    omega
  have rounded : (ExtendedMantissa.ofMantissaAndAccuracy mantissa accuracy >>>
      ((970 - exponent).toNat + 1)).roundedMantissa < 2 ^ 53 :=
    roundedMantissa_shift_lt (by rwa [mantissa_ofMantissaAndAccuracy])
  generalize (ExtendedMantissa.ofMantissaAndAccuracy mantissa accuracy >>> ((970 - exponent).toNat + 1)) = first at *
  obtain ⟨second, more, shifted', -, bound⟩ := exists_shift first.roundedMantissa 971 .exact
  unfold roundWithAccuracy
  simp only [shifted, shifted']
  split
  · cases sign <;> rfl
  · apply isInf_stored_finite
    have few : first.roundedMantissa.log2 ≤ 52 := by
      by_cases none : first.roundedMantissa = 0
      · rw [none]
        decide
      · exact Nat.lt_succ_iff.mp ((Nat.log2_lt none).mpr rounded)
    unfold totalExponent at bound
    omega

/-- Digits are appended first if there are fewer than the format has room for. -/
theorem round_eq (sign : Sign) (mantissa : Nat) (exponent : Int) : ∃ digits : Nat,
    round .binary64 sign mantissa exponent =
      roundWithAccuracy .binary64 sign (mantissa * 2 ^ digits) (exponent - digits) .exact := by
  refine ⟨(exponent - Format.binary64.targetExponent (totalExponent mantissa exponent)).toNat, ?_⟩
  rw [← Nat.shiftLeft_eq]
  rfl

theorem unpack_one : unpack 1 = .finite .positive (2 ^ 52) (-52) (by decide) := rfl

theorem lt_stored_round {mantissa : Nat} {exponent : Int} {accuracy : Accuracy} (full : 2 ^ 52 ≤ mantissa)
    (large : 54 ≤ totalExponent mantissa exponent) :
    (unpack 1).lt (stored (roundWithAccuracy .binary64 .positive mantissa exponent accuracy)) = true := by
  have normal : -1021 ≤ totalExponent mantissa exponent := by omega
  obtain ⟨rounded, unit, positive, whole, lower, upper, least⟩ := round_of_full full normal
  rw [whole, unpack_one]
  by_cases fits : unit ≤ 971
  · rw [stored_of_canonical ⟨upper, by omega, fits, .inl lower⟩]
    have above : compare (-52) unit = .lt := Int.compare_eq_lt.mpr (by omega)
    simp [UnpackedFloat.lt, UnpackedFloat.compare, above]
  · rw [stored_of_excess (by omega)]
    rfl

theorem lt_stored_round_of_le {mantissa : Nat} {exponent : Int} (power : Nat) (full : 2 ^ (52 + power) ≤ mantissa)
    (large : 459 ≤ exponent + power) : (unpack 1).lt (stored (round .binary64 .positive mantissa exponent)) = true := by
  obtain ⟨digits, rounded⟩ := round_eq .positive mantissa exponent
  have longer : 2 ^ (52 + power + digits) ≤ mantissa * 2 ^ digits := by
    rw [Nat.pow_add]
    exact Nat.mul_le_mul_right _ full
  have all : 52 + power + digits ≤ (mantissa * 2 ^ digits).log2 :=
    (Nat.le_log2 (Nat.ne_of_gt ((Nat.two_pow_pos _).trans_le longer))).mpr longer
  rw [rounded]
  apply lt_stored_round
  · exact (Nat.pow_le_pow_right (by decide) (by omega)).trans longer
  · unfold totalExponent
    omega

namespace Canonical

variable {mantissa : Nat} {exponent unit : Int}

/-- The greatest double as a multiple of half the unit it has. -/
theorem aligned_le (canonical : Canonical mantissa exponent) (_ : unit ≤ exponent) (_ : unit ≤ 970) :
    mantissa * 2 ^ (exponent - unit).toNat ≤ (2 ^ 54 - 2) * 2 ^ (970 - unit).toNat := by
  have below := canonical.below
  have greatest := canonical.greatest
  calc mantissa * 2 ^ (exponent - unit).toNat
      ≤ (2 ^ 53 - 1) * 2 ^ ((970 - unit).toNat + 1) :=
        Nat.mul_le_mul (by omega) (Nat.pow_le_pow_right (by decide) (by omega))
    _ = (2 ^ 54 - 2) * 2 ^ (970 - unit).toNat := by
        rw [Nat.pow_succ]
        omega

theorem aligned_lt (canonical : Canonical mantissa exponent) (small : exponent ≤ 459) (_ : unit ≤ exponent) :
    mantissa * 2 ^ (exponent - unit).toNat < 2 ^ (970 - unit).toNat := by
  calc mantissa * 2 ^ (exponent - unit).toNat
      < 2 ^ 53 * 2 ^ (exponent - unit).toNat :=
        Nat.mul_lt_mul_of_pos_right canonical.below (Nat.two_pow_pos _)
    _ = 2 ^ (53 + (exponent - unit).toNat) := (Nat.pow_add ..).symm
    _ ≤ 2 ^ (970 - unit).toNat := Nat.pow_le_pow_right (by decide) (by omega)

/-- A large number has its 53 digits at every smaller unit. -/
theorem le_aligned (canonical : Canonical mantissa exponent) (large : 459 ≤ exponent) :
    2 ^ (52 + (exponent - unit).toNat) ≤ mantissa * 2 ^ (exponent - unit).toNat := by
  rw [Nat.pow_add]
  exact Nat.mul_le_mul_right _ (canonical.full.resolve_right (by omega))

end Canonical

section Sums

variable {mantissa mantissa' : Nat} {exponent exponent' : Int} {positive : 0 < mantissa} {positive' : 0 < mantissa'}

theorem add_positive :
    UnpackedFloat.add .binary64 (.finite .positive mantissa exponent positive)
        (.finite .positive mantissa' exponent' positive') =
      round .binary64 .positive
        (mantissa * 2 ^ (exponent - min exponent exponent').toNat +
          mantissa' * 2 ^ (exponent' - min exponent exponent').toNat)
        (min exponent exponent') := by
  have sum : 0 < mantissa * 2 ^ (exponent - min exponent exponent').toNat +
      mantissa' * 2 ^ (exponent' - min exponent exponent').toNat :=
    Nat.add_pos_left (Nat.mul_pos positive (Nat.two_pow_pos _)) _
  unfold UnpackedFloat.add UnpackedFloat.normalize
  simp only [decreaseExponent, Nat.shiftLeft_eq, Sign.apply]
  rw [← Nat.cast_add, Int.compare_eq_gt.mpr (Int.natCast_pos.mpr sum)]
  rfl

/-- A sum stays in range if one of its terms is far below the greatest double. -/
theorem isInf_stored_add (canonical : Canonical mantissa exponent) (canonical' : Canonical mantissa' exponent')
    (small : exponent ≤ 459 ∨ exponent' ≤ 459) :
    (stored (UnpackedFloat.add .binary64 (.finite .positive mantissa exponent positive)
      (.finite .positive mantissa' exponent' positive'))).isInf = false := by
  rw [add_positive]
  -- At the smaller unit both terms are whole numbers, and one of them is below half a unit of the greatest double.
  have first := canonical.aligned_le (min_le_left exponent exponent') (by omega)
  have second := canonical'.aligned_le (min_le_right exponent exponent') (by omega)
  have few (low : exponent ≤ 459) := canonical.aligned_lt low (min_le_left exponent exponent')
  have few' (low : exponent' ≤ 459) := canonical'.aligned_lt low (min_le_right exponent exponent')
  have low : min exponent exponent' ≤ 459 := by omega
  generalize min exponent exponent' = unit at *
  generalize mantissa * 2 ^ (exponent - unit).toNat = term at *
  generalize mantissa' * 2 ^ (exponent' - unit).toNat = term' at *
  have sum : term + term' < (2 ^ 54 - 1) * 2 ^ (970 - unit).toNat := by
    generalize 2 ^ (970 - unit).toNat = half at *
    rcases small with low | low
    · have := few low
      omega
    · have := few' low
      omega
  obtain ⟨digits, rounded⟩ := round_eq .positive (term + term') unit
  rw [rounded]
  apply isInf_stored_round_of_lt (by omega)
  rw [show (970 - (unit - digits)).toNat = (970 - unit).toNat + digits by omega, Nat.pow_add, ← Nat.mul_assoc]
  exact Nat.mul_lt_mul_of_pos_right sum (Nat.two_pow_pos digits)

/-- A product leaves the range if both of its factors are large. -/
theorem stored_mul_of_large (canonical : Canonical mantissa exponent) (canonical' : Canonical mantissa' exponent')
    (large : 460 ≤ exponent) (large' : 460 ≤ exponent') :
    stored (UnpackedFloat.mul .binary64 (.finite .positive mantissa exponent positive)
      (.finite .positive mantissa' exponent' positive')) = .infinity .positive := by
  have full : 2 ^ 52 ≤ mantissa := canonical.full.resolve_right (by omega)
  have full' : 2 ^ 52 ≤ mantissa' := canonical'.full.resolve_right (by omega)
  have product : 2 ^ 52 * 2 ^ 52 ≤ mantissa * mantissa' := Nat.mul_le_mul full full'
  have digits : 104 ≤ (mantissa * mantissa').log2 := (Nat.le_log2 (by omega)).mpr product
  apply stored_round_of_large (by omega)
  unfold totalExponent
  omega

/-- A product stays in range if no factor is large. -/
theorem isInf_stored_mul (canonical : Canonical mantissa exponent) (canonical' : Canonical mantissa' exponent')
    (small : exponent ≤ 458) (small' : exponent' ≤ 458) :
    (stored (UnpackedFloat.mul .binary64 (.finite .positive mantissa exponent positive)
      (.finite .positive mantissa' exponent' positive'))).isInf = false := by
  have product : mantissa * mantissa' < 2 ^ 53 * 2 ^ 53 := Nat.mul_lt_mul'' canonical.below canonical'.below
  have digits : (mantissa * mantissa').log2 < 106 := (Nat.log2_lt (Nat.mul_pos positive positive').ne').mpr product
  apply isInf_stored_round
  · unfold totalExponent
    omega
  · omega

/-- A sum with a large term is large. -/
theorem lt_stored_add (canonical : Canonical mantissa exponent) (canonical' : Canonical mantissa' exponent')
    (large : 459 ≤ exponent ∨ 459 ≤ exponent') :
    (unpack 1).lt (stored (UnpackedFloat.add .binary64 (.finite .positive mantissa exponent positive)
      (.finite .positive mantissa' exponent' positive'))) = true := by
  rw [add_positive]
  rcases large with high | high
  · apply lt_stored_round_of_le (exponent - min exponent exponent').toNat
    · exact (canonical.le_aligned high).trans (Nat.le_add_right _ _)
    · omega
  · apply lt_stored_round_of_le (exponent' - min exponent exponent').toNat
    · exact (canonical'.le_aligned high).trans (Nat.le_add_left _ _)
    · omega

end Sums

end LoopCost
