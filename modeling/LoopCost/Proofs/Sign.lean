import LoopCost.Proofs.Rounding

/-! Doubles from zero on. Products, roots and integers stay there, with the one exception of infinity times zero. Where
a sum of two leaves the range, so does their product; and where their product does, their sum is large. -/

namespace LoopCost

open Float.Model
open Float.Model.UnpackedFloat hiding unpack infinity

theorem lt_iff_unpack {x y : Float} : x < y ↔ (unpack x).lt (unpack y) = true := by
  show decide (x.toModel < y.toModel) = true ↔ _
  exact decide_eq_true_iff

/-- A number that is not below zero. A zero may have either sign. -/
inductive Unsigned : UnpackedFloat → Prop
  | zero (sign : Sign) : Unsigned (.zero sign)
  | infinity : Unsigned (.infinity .positive)
  | finite (mantissa : Nat) (exponent : Int) (positive : 0 < mantissa) :
      Unsigned (.finite .positive mantissa exponent positive)

theorem unpack_zero : unpack 0 = .zero .positive := rfl

theorem nonneg_iff {x : Float} : 0 ≤ x ↔ Unsigned (unpack x) := by
  rw [le_iff_unpack, unpack_zero]
  generalize unpack x = value
  constructor
  · intro above
    cases value with
    | notANumber => cases above
    | zero sign => exact .zero sign
    | infinity sign | finite sign =>
      cases sign with
      | negative => cases above
      | positive => constructor
  · rintro (_ | _ | _) <;> rfl

theorem pos_iff {x : Float} : 0 < x ↔ Unsigned (unpack x) ∧ ∀ sign, unpack x ≠ .zero sign := by
  rw [← nonneg_iff, lt_iff_unpack, le_iff_unpack, unpack_zero]
  cases unpack x with
  | notANumber | zero => simp [UnpackedFloat.lt, UnpackedFloat.le, UnpackedFloat.compare]
  | infinity sign | finite sign =>
    cases sign <;> simp [UnpackedFloat.lt, UnpackedFloat.le, UnpackedFloat.compare]

theorem zero_or_pos {x : Float} (nonneg : 0 ≤ x) : (∃ sign, unpack x = .zero sign) ∨ 0 < x := by
  by_cases zero : ∃ sign, unpack x = .zero sign
  · exact .inl zero
  · exact .inr (pos_iff.mpr ⟨nonneg_iff.mp nonneg, not_exists.mp zero⟩)

theorem not_neg_of_nonneg {x : Float} (nonneg : 0 ≤ x) : ¬ x < 0 := by
  rw [nonneg_iff] at nonneg
  rw [lt_iff_unpack, unpack_zero]
  generalize unpack x = value at nonneg
  cases nonneg <;> nofun

theorem usable_of_nonneg {x : Float} (finite : x.isFinite = true) (nonneg : 0 ≤ x) : usable x = x := by
  simp [usable, finite, not_neg_of_nonneg nonneg]

theorem ne_infinity_of_isFinite {x : Float} (finite : x.isFinite = true) : x ≠ infinity := by
  rintro rfl
  cases finite

theorem beq_iff_unpack {x y : Float} : (x == y) = true ↔ (unpack x).compare (unpack y) = some .eq := by
  show ((unpack x).compare (unpack y) == some .eq) = true ↔ _
  simp

theorem beq_zero_iff {x : Float} : (x == 0) = true ↔ ∃ sign, unpack x = .zero sign := by
  rw [beq_iff_unpack, unpack_zero]
  generalize unpack x = value
  cases value with
  | notANumber | zero => simp [UnpackedFloat.compare]
  | infinity sign | finite sign => cases sign <;> simp [UnpackedFloat.compare]

theorem eq_one_of_beq {x : Float} (same : (x == 1) = true) : x = 1 := by
  rw [beq_iff_unpack, unpack_one] at same
  rw [← unpack_inj, unpack_one]
  generalize unpack x = value at *
  cases value with
  | notANumber | zero => cases same
  | infinity sign => cases sign <;> cases same
  | finite sign mantissa exponent positive =>
    cases sign with
    | negative => cases same
    | positive =>
      obtain ⟨rfl, rfl⟩ : exponent = -52 ∧ mantissa = 2 ^ 52 := by
        simpa [UnpackedFloat.compare, Ordering.then_eq_eq, Nat.compare_eq_eq, Int.compare_eq_eq] using same
      rfl

theorem nonneg_of_pos {x : Float} (positive : 0 < x) : 0 ≤ x := nonneg_iff.mpr (pos_iff.mp positive).1

theorem pos_of_nonneg {x : Float} (nonneg : 0 ≤ x) (nonzero : (x == 0) = false) : 0 < x := by
  rcases zero_or_pos nonneg with zero | positive
  · cases nonzero.symm.trans (beq_zero_iff.mpr zero)
  · exact positive

theorem beq_zero_of_pos {x : Float} (positive : 0 < x) : (x == 0) = false := by
  rw [Bool.eq_false_iff, Ne, beq_zero_iff, not_exists]
  exact (pos_iff.mp positive).2

theorem pos_of_one_lt {x : Float} (large : 1 < x) : 0 < x := by
  rw [lt_iff_unpack, unpack_one] at large
  rw [lt_iff_unpack, unpack_zero]
  generalize unpack x = value at *
  cases value with
  | notANumber | zero => cases large
  | infinity sign | finite sign =>
    cases sign with
    | negative => cases large
    | positive => rfl

theorem isInf_of_isFinite {x : Float} (finite : x.isFinite = true) : x.isInf = false := by
  rw [Bool.eq_false_iff]
  intro infinite
  cases finite.symm.trans (isFinite_of_isInf infinite)

theorem isNaN_of_isFinite {x : Float} (finite : x.isFinite = true) : x.isNaN = false := by
  change (unpack x).isFinite = true at finite
  change (unpack x).isNaN = false
  generalize unpack x = value at *
  cases value with
  | notANumber => cases finite
  | infinity | zero | finite => rfl

theorem isFinite_of_nonneg {x : Float} (nonneg : 0 ≤ x) (inside : x ≠ infinity) : x.isFinite = true := by
  rw [nonneg_iff] at nonneg
  rw [Ne, eq_infinity_iff] at inside
  change (unpack x).isFinite = true
  generalize unpack x = value at *
  cases nonneg with
  | zero | finite => rfl
  | infinity => exact absurd rfl inside

theorem eq_infinity_of_isInf {x : Float} (nonneg : 0 ≤ x) (infinite : x.isInf = true) : x = infinity := by
  rw [nonneg_iff] at nonneg
  rw [eq_infinity_iff]
  change (unpack x).isInf = true at infinite
  generalize unpack x = value at *
  cases nonneg with
  | zero | finite => cases infinite
  | infinity => rfl

theorem isFinite_usable (x : Float) : (usable x).isFinite = true := by
  unfold usable
  split
  · next kept => exact (Bool.and_eq_true_iff.mp kept).1
  · decide

theorem nonneg_usable (x : Float) : 0 ≤ usable x := by
  unfold usable
  split
  · next kept =>
    obtain ⟨finite, above⟩ := Bool.and_eq_true_iff.mp kept
    change (unpack x).isFinite = true at finite
    have below : ¬ x < 0 := by simpa using above
    rw [lt_iff_unpack, unpack_zero] at below
    rw [nonneg_iff]
    generalize unpack x = value at *
    cases value with
    | notANumber | infinity => cases finite
    | zero sign => exact .zero sign
    | finite sign mantissa exponent positive =>
      cases sign with
      | negative => exact absurd rfl below
      | positive => exact .finite mantissa exponent positive
  · decide

namespace Unsigned

theorem unpack {b : BitVec Format.binary64.numBits} (sign : unpackSign b = 0#1) (inside : unpackExponent b ≠ -1#_) :
    Unsigned (UnpackedFloat.unpack .binary64 b) := by
  unfold UnpackedFloat.unpack
  dsimp only
  rw [if_neg inside, sign]
  split
  · split <;> constructor
  · constructor

theorem stored {value : UnpackedFloat} (unsigned : Unsigned value) : Unsigned (LoopCost.stored value) := by
  cases unsigned with
  | zero sign =>
    rw [stored_zero]
    exact zero sign
  | infinity => exact stored_infinity .positive ▸ infinity
  | finite mantissa exponent positive =>
    by_cases excess : 972 ≤ exponent
    · exact stored_of_excess excess ▸ infinity
    have bias : Format.binary64.exponentBias = 1023 := rfl
    unfold LoopCost.stored UnpackedFloat.pack
    dsimp only
    rw [if_neg (by omega)]
    split
    · apply unpack unpackSign_packComponents
      rw [unpackExponent_packComponents]
      bv_omega
    · apply unpack unpackSign_packComponents
      rw [unpackExponent_packComponents]
      decide

theorem roundWithAccuracy (mantissa : Nat) (exponent : Int) (accuracy : Accuracy) :
    Unsigned (UnpackedFloat.roundWithAccuracy .binary64 .positive mantissa exponent accuracy) := by
  unfold UnpackedFloat.roundWithAccuracy
  dsimp only
  split <;> constructor

theorem normalize (n : Nat) (exponent : Int) : Unsigned (UnpackedFloat.normalize .binary64 n exponent .positive) := by
  unfold UnpackedFloat.normalize
  split
  · next negative => exact absurd (Int.compare_eq_lt.mp negative) (by omega)
  · exact zero .positive
  · obtain ⟨digits, rounded⟩ := round_eq .positive (n : Int).toNat exponent
    rw [rounded]
    exact roundWithAccuracy ..

theorem sqrt {value : UnpackedFloat} (unsigned : Unsigned value) : Unsigned (value.sqrt .binary64) := by
  cases unsigned with
  | zero sign => exact zero sign
  | infinity => exact infinity
  | finite mantissa exponent positive => exact roundWithAccuracy ..

theorem mul {first second : UnpackedFloat} (left : Unsigned first) (right : Unsigned second)
    (first_infinite : first = .infinity .positive → ∀ sign, second ≠ .zero sign)
    (second_infinite : second = .infinity .positive → ∀ sign, first ≠ .zero sign) :
    Unsigned (first.mul .binary64 second) := by
  cases left with
  | zero sign =>
    cases right with
    | zero sign' => exact zero _
    | infinity => exact absurd rfl (second_infinite rfl sign)
    | finite => exact zero _
  | infinity =>
    cases right with
    | zero sign => exact absurd rfl (first_infinite rfl sign)
    | infinity | finite => exact infinity
  | finite =>
    cases right with
    | zero sign => exact zero _
    | infinity => exact infinity
    | finite => exact roundWithAccuracy ..

theorem ofScientific (n : Nat) : Unsigned (UnpackedFloat.ofScientific .binary64 n 0) := by
  have room : ¬ (0 : Int) < -(2 ^ 11 + n.log2) := by omega
  unfold UnpackedFloat.ofScientific
  by_cases none : n = 0
  · rw [dif_pos none]
    exact zero .positive
  · rw [dif_neg none, if_neg (by decide), if_neg room, if_pos (Int.le_refl 0)]
    exact mul (finite ..) (finite ..) nofun nofun

end Unsigned

theorem nonneg_sqrt {x : Float} (nonneg : 0 ≤ x) : 0 ≤ x.sqrt := by
  rw [nonneg_iff] at *
  exact nonneg.sqrt.stored

theorem pos_of_sqrt {x : Float} (nonneg : 0 ≤ x) (infinite : x.sqrt = infinity) : 0 < x := by
  refine (zero_or_pos nonneg).resolve_left ?_
  rintro ⟨sign, zero⟩
  rw [eq_infinity_iff] at infinite
  change stored ((unpack x).sqrt .binary64) = _ at infinite
  simp [zero, UnpackedFloat.sqrt, stored_zero] at infinite

/-- Infinity times zero is no number; every other product of doubles from zero on is from zero on. -/
theorem nonneg_mul {x y : Float} (left : 0 ≤ x) (right : 0 ≤ y) (first : x = infinity → 0 < y)
    (second : y = infinity → 0 < x) : 0 ≤ x * y := by
  rw [nonneg_iff] at *
  apply Unsigned.stored
  apply left.mul right
  · exact fun infinite => (pos_iff.mp (first (eq_infinity_iff.mpr infinite))).2
  · exact fun infinite => (pos_iff.mp (second (eq_infinity_iff.mpr infinite))).2

theorem nonneg_mul_of_isFinite {x y : Float} (first : x.isFinite = true) (left : 0 ≤ x) (second : y.isFinite = true)
    (right : 0 ≤ y) : 0 ≤ x * y :=
  nonneg_mul left right (fun infinite => absurd infinite (ne_infinity_of_isFinite first))
    (fun infinite => absurd infinite (ne_infinity_of_isFinite second))

theorem nonneg_ofNat (n : Nat) : 0 ≤ Float.ofNat n := by
  change 0 ≤ Float.ofScientific n false 0
  unfold Float.ofScientific
  -- Integers of 53 digits go through a machine word, longer ones through a decimal fraction.
  split
  · change 0 ≤ n.toUInt64.toFloat * Float.ofBits 0x3FF0000000000000
    have word : 0 ≤ n.toUInt64.toFloat := nonneg_iff.mpr (Unsigned.normalize n.toUInt64.toNat 0).stored
    apply nonneg_mul word
    · decide
    · exact fun _ => by decide
    · exact fun infinite => absurd infinite (ne_infinity_of_isFinite (by decide))
  · rw [nonneg_iff]
    exact (Unsigned.ofScientific n).stored

theorem unpack_of_pos {x : Float} (finite : x.isFinite = true) (positive : 0 < x) :
    ∃ mantissa exponent nonzero, unpack x = .finite .positive mantissa exponent nonzero ∧
      Canonical mantissa exponent := by
  obtain ⟨unsigned, nonzero⟩ := pos_iff.mp positive
  change (unpack x).isFinite = true at finite
  cases value : unpack x with
  | notANumber | infinity =>
    rw [value] at finite
    cases finite
  | zero sign => exact absurd value (nonzero sign)
  | finite sign mantissa exponent nonzero =>
    rw [value] at unsigned
    cases unsigned
    exact ⟨mantissa, exponent, nonzero, rfl, canonical_of_unpack value⟩

/-- A positive number is below one, one or above it. -/
theorem one_trichotomy {x : Float} (finite : x.isFinite = true) (positive : 0 < x) :
    x < 1 ∨ (x == 1) = true ∨ 1 < x := by
  obtain ⟨mantissa, exponent, nonzero, value, -⟩ := unpack_of_pos finite positive
  rw [lt_iff_unpack, lt_iff_unpack, beq_iff_unpack, unpack_one, value]
  -- Canonical forms are ordered by the exponent first.
  rcases lt_trichotomy exponent (-52) with below | rfl | above
  · left
    simp [UnpackedFloat.lt, UnpackedFloat.compare, Int.compare_eq_lt.mpr below]
  · rcases lt_trichotomy mantissa (2 ^ 52) with below | rfl | above
    · left
      simpa [UnpackedFloat.lt, UnpackedFloat.compare, Nat.compare_eq_lt] using below
    · right
      left
      simp [UnpackedFloat.compare]
    · right
      right
      simpa [UnpackedFloat.lt, UnpackedFloat.compare, Nat.compare_eq_lt] using above
  · right
    right
    simp [UnpackedFloat.lt, UnpackedFloat.compare, Int.compare_eq_lt.mpr above]

theorem abs_of_pos {x : Float} (finite : x.isFinite = true) (positive : 0 < x) : x.abs = x := by
  obtain ⟨mantissa, exponent, nonzero, value, canonical⟩ := unpack_of_pos finite positive
  rw [← unpack_inj]
  change stored (unpack x).abs = _
  rw [value]
  exact stored_of_canonical canonical

section Sums

variable {x y : Float} (first : x.isFinite = true) (left : 0 ≤ x) (second : y.isFinite = true) (right : 0 ≤ y)

theorem unpack_add (x y : Float) : unpack (x + y) = stored ((unpack x).add .binary64 (unpack y)) := rfl

include first left second right

/-- With a zero neither a sum nor a product of sizes leaves the range. -/
theorem in_range_or_pos : x + y ≠ infinity ∧ x * y ≠ infinity ∨ 0 < x ∧ 0 < y := by
  rw [Ne, eq_infinity_iff, unpack_add, Ne, eq_infinity_iff, unpack_mul]
  rcases zero_or_pos left with ⟨sign, zero⟩ | positive <;> rcases zero_or_pos right with ⟨sign', zero'⟩ | positive'
  · left
    rw [zero, zero']
    refine ⟨fun infinite => ?_, fun infinite => ?_⟩ <;> cases sign <;> cases sign' <;> cases infinite
  · left
    obtain ⟨mantissa, exponent, nonzero, value, canonical⟩ := unpack_of_pos second positive'
    simp [zero, value, UnpackedFloat.add, UnpackedFloat.mul, stored_of_canonical canonical, stored_zero]
  · left
    obtain ⟨mantissa, exponent, nonzero, value, canonical⟩ := unpack_of_pos first positive
    simp [zero', value, UnpackedFloat.add, UnpackedFloat.mul, stored_of_canonical canonical, stored_zero]
  · exact .inr ⟨positive, positive'⟩

/-- Two sizes whose sum is out of range have a product that is. -/
theorem mul_eq_infinity_of_add (sum : x + y = infinity) : x * y = infinity := by
  obtain ⟨positive, positive'⟩ := (in_range_or_pos first left second right).resolve_left fun inside => inside.1 sum
  obtain ⟨mantissa, exponent, nonzero, value, canonical⟩ := unpack_of_pos first positive
  obtain ⟨mantissa', exponent', nonzero', value', canonical'⟩ := unpack_of_pos second positive'
  rw [eq_infinity_iff, unpack_add, value, value'] at sum
  rw [eq_infinity_iff, unpack_mul, value, value']
  by_cases small : exponent ≤ 459 ∨ exponent' ≤ 459
  · have fits : (UnpackedFloat.infinity .positive).isInf = false :=
      sum ▸ isInf_stored_add canonical canonical' small
    cases fits
  · exact stored_mul_of_large canonical canonical' (by omega) (by omega)

/-- Two sizes whose product is out of range have a large sum. -/
theorem one_lt_add_of_mul (product : x * y = infinity) : 1 < x + y := by
  obtain ⟨positive, positive'⟩ := (in_range_or_pos first left second right).resolve_left fun inside => inside.2 product
  obtain ⟨mantissa, exponent, nonzero, value, canonical⟩ := unpack_of_pos first positive
  obtain ⟨mantissa', exponent', nonzero', value', canonical'⟩ := unpack_of_pos second positive'
  rw [eq_infinity_iff, unpack_mul, value, value'] at product
  rw [lt_iff_unpack, unpack_add, value, value']
  by_cases large : 459 ≤ exponent ∨ 459 ≤ exponent'
  · exact lt_stored_add canonical canonical' large
  · have fits : (UnpackedFloat.infinity .positive).isInf = false :=
      product ▸ isInf_stored_mul canonical canonical' (by omega) (by omega)
    cases fits

end Sums

end LoopCost
