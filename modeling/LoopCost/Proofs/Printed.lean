import LoopCost.Proofs.Display
import LoopCost.Proofs.HalfSum
import LoopCost.Proofs.ReadBack

/-! Printed counts neither misstate nor reorder the counts. A printed count is read back as what is displayed for its
number, in the notation that its size tells. -/

namespace LoopCost

theorem Nearest.abs_sub_le {size unit : ℝ} {n : ℕ} (nearest : Nearest (size / unit) n) (positive : 0 < unit) :
    |n * unit - size| ≤ unit / 2 := by
  have low := (le_div_iff₀ positive).mp nearest.low
  have high := (div_le_iff₀ positive).mp nearest.high
  rw [abs_sub_le_iff]
  constructor <;> linarith

structure Faithful (x : Float) (reading : Readback) : Prop where
  read : Readback.ofText? (countChars x) = some reading
  near : |(reading.value : ℝ) - realOf x| ≤ reading.slack
  shown : Shown (realOf x) reading.value

namespace Faithful

theorem shown_signed (negative : Bool) {size value : ℝ} (nonneg : 0 ≤ size) (shown : ∀ whole, Displayed whole size value) :
    Shown (if negative then -size else size) (if negative then -value else value) := by
  cases negative with
  | false => exact .nonneg nonneg (shown _)
  | true =>
    simp only [if_true]
    rcases nonneg.eq_or_lt with zero | positive
    · have none := (shown fun _ => 0).value_of_zero zero.symm
      rw [none, ← zero] at shown ⊢
      rw [neg_zero]
      exact .nonneg le_rfl (shown _)
    · apply Shown.negative (neg_lt_zero.mpr positive)
      rw [neg_neg]
      exact shown _

theorem abs_signed_sub (negative : Bool) (value size : ℝ) :
    |(if negative then -value else value) - (if negative then -size else size)| = |value - size| := by
  cases negative with
  | false => rfl
  | true =>
    simp only [if_true]
    rw [neg_sub_neg, abs_sub_comm]

/-- The sign does not matter for how a size is read back. -/
theorem of_signed {x : Float} {negative : Bool} {size : ℝ} {text : List Char} {reading : Readback} (nonneg : 0 ≤ size)
    (number : realOf x = if negative then -size else size) (printed : countChars x = signed negative text)
    (unsigned : '-' ∉ text.head?) (read : Readback.size? text = some reading)
    (near : |(reading.value : ℝ) - size| ≤ reading.slack) (shown : ∀ whole, Displayed whole size reading.value) : ∃ reading, Faithful x reading := by
  have value : (((if negative then -reading.value else reading.value) : ℚ) : ℝ) =
      if negative then -(reading.value : ℝ) else reading.value := by
    cases negative with
    | false => rfl
    | true => exact Rat.cast_neg _
  refine ⟨_, printed ▸ Readback.ofText?_signed negative unsigned read, ?_, ?_⟩
  · rw [value, number, abs_signed_sub]
    exact near
  · rw [value, number]
    exact shown_signed negative nonneg shown

section
variable {x : Float} {negative : Bool} {size : Fraction} (positive : 0 < size.den)
  (number : realOf x = if negative then -size.real else size.real)

include positive number

theorem of_scientific (above : 0 < size.real) (far : 1000000 ≤ size.real ∨ size.real < hundredth)
    (printed : countChars x = signed negative (scientificText size)) : ∃ reading, Faithful x reading := by
  obtain ⟨low, high⟩ := Fraction.order_bounds positive (size.num_pos above)
  obtain ⟨unit, nearest⟩ := Fraction.significant_two positive
  have scientific : Scientific size.real size.order (size.significant 2).digits := ⟨low, high, nearest⟩
  obtain ⟨few, many⟩ := scientific.digits_bounds
  obtain ⟨order, coarse, read⟩ := Readback.size?_scientificText few many
  have grid : (0 : ℝ) < 10 ^ (size.order - 1) := by positivity
  have value : (((size.significant 2).digits * 10 ^ (size.significant 2).unit : ℚ) : ℝ) =
      (size.significant 2).digits * 10 ^ (size.order - 1) := by
    rw [unit]
    push_cast
    rfl
  refine of_signed above.le number printed (Readback.unsigned_scientificText few many) read ?_ ?_
  · have least : (10 : ℝ) * 10 ^ (size.order - 1) ≤ 10 ^ order := by
      rw [← zpow_one_add₀ (by norm_num)]
      exact zpow_le_zpow_right₀ (by norm_num) (by omega)
    have slack : (((10 : ℚ) ^ order / 20 : ℚ) : ℝ) = 10 ^ order / 20 := by
      push_cast
      rfl
    rw [value, slack]
    exact (nearest.abs_sub_le grid).trans (by linarith)
  · intro whole
    rw [value]
    exact .scientific far scientific

theorem of_plain (low : size.real = 0 ∨ hundredth ≤ size.real) (high : size.real < 1000)
    (printed : countChars x = signed negative (plainText (size.shift 2).round)) : ∃ reading, Faithful x reading := by
  have nearest := Fraction.nearest_round (Fraction.den_shift_pos size positive 2)
  have hundred : size.real * 10 ^ (2 : ℤ) = size.real * 100 := by norm_num
  rw [Fraction.real_shift, hundred] at nearest
  refine of_signed size.real_nonneg number printed (Readback.unsigned_plainText _) (Readback.size?_plainText _) ?_ ?_
  · push_cast
    rw [abs_sub_le_iff]
    constructor <;> linarith [nearest.low, nearest.high]
  · intro whole
    push_cast
    exact .plain low high nearest

end

theorem thousand_le_natAbs {size : ℝ} (low : 1000 ≤ |size|) : 1000 ≤ ⌊size + 1 / 2⌋.natAbs := by
  rcases le_abs.mp low with above | below
  · have whole : (1000 : ℤ) ≤ ⌊size + 1 / 2⌋ := Int.le_floor.mpr (by push_cast; linarith)
    omega
  · have whole : ⌊size + 1 / 2⌋ < (-999 : ℤ) := Int.floor_lt.mpr (by push_cast; linarith)
    omega

theorem four_le_length_toDigits {n : ℕ} (low : 1000 ≤ n) : 4 ≤ (Nat.toDigits 10 n).length := by
  by_contra! short
  have small := (Nat.length_toDigits_le_iff (by decide) (by decide : 0 < 3)).mp (by omega : (Nat.toDigits 10 n).length ≤ 3)
  omega

theorem signed_natAbs (n : ℤ) : (if decide (n < 0) then -(n.natAbs : ℚ) else n.natAbs) = n := by
  cases n with
  | ofNat n => rfl
  | negSucc n =>
    rw [if_pos (decide_eq_true (Int.negSucc_lt_zero n)), Int.cast_negSucc]
    rfl

theorem shown_whole {number : ℝ} (low : 1000 ≤ |number|) (high : |number| < 1000000) : Shown number ⌊number + 1 / 2⌋ := by
  rcases le_or_gt 0 number with above | below
  · rw [abs_of_nonneg above] at low high
    exact .nonneg above (.grouped low high)
  · rw [abs_of_neg below] at low high
    have shown := Shown.negative below (.grouped low high)
    rwa [neg_neg, Int.cast_neg, neg_neg] at shown

theorem of_grouped {x : Float} (finite : x.isFinite = true) (low : 1000 ≤ |realOf x|) (high : |realOf x| < 1000000)
    (printed : countChars x = groupedText (floorOf (x + 0.5))) : ∃ reading, Faithful x reading := by
  rw [floorOf_add_half finite low high, groupedText] at printed
  have digits := Readback.digits?_toDigits ⌊realOf x + 1 / 2⌋.natAbs
  have read := Readback.ofText?_signed (⌊realOf x + 1 / 2⌋ < 0) (Readback.unsigned_grouped digits)
    (Readback.size?_grouped digits (four_le_length_toDigits (thousand_le_natAbs low)))
  dsimp only at read
  rw [signed_natAbs, ← printed] at read
  refine ⟨_, read, ?_, ?_⟩
  · push_cast
    rw [abs_sub_le_iff]
    constructor <;> linarith [Int.floor_le (realOf x + 1 / 2), Int.lt_floor_add_one (realOf x + 1 / 2)]
  · push_cast
    exact shown_whole low high

end Faithful

theorem realOf_hundredth : realOf 0.01 = hundredth := number_of_positive (regular_unpack (by decide) (by decide))

/-- The size tells the notation. -/
theorem countChars_of_parts {x : Float} (finite : x.isFinite = true) {negative : Bool} {size : Fraction}
    (parts : signAndSize? x = some (negative, size)) :
    countChars x =
      if 1000000 ≤ |realOf x| ∨ 0 < |realOf x| ∧ |realOf x| < hundredth then signed negative (scientificText size)
      else if 1000 ≤ |realOf x| then groupedText (floorOf (x + 0.5))
      else signed negative (plainText (size.shift 2).round) := by
  have million := le_abs_iff finite (regular_unpack (by decide) (by decide) : Regular .positive (unpack 1000000))
  have thousand := le_abs_iff finite (regular_unpack (by decide) (by decide) : Regular .positive (unpack 1000))
  have zero := lt_abs_iff finite (regular_unpack (by decide) (by decide) : Regular .positive (unpack 0))
  have tiny := abs_lt_iff finite (regular_unpack (by decide) (by decide) : Regular .positive (unpack 0.01))
  rw [realOf_million] at million
  rw [realOf_thousand] at thousand
  rw [realOf_zero] at zero
  rw [realOf_hundredth] at tiny
  rw [countChars, parts]
  refine if_congr ?_ rfl (if_congr thousand rfl rfl)
  simp only [Bool.or_eq_true, Bool.and_eq_true, decide_eq_true_eq, million, zero, tiny]

/-- Whatever the notation, what is printed is read back as the number displayed. -/
theorem exists_faithful {x : Float} (finite : x.isFinite = true) : ∃ reading, Faithful x reading := by
  obtain ⟨negative, size, parts, positive, nonneg, number⟩ := signAndSize?_of_isFinite finite
  have same : |realOf x| = size.real := by
    rw [number]
    cases negative with
    | false => exact abs_of_nonneg nonneg
    | true => exact (abs_neg _).trans (abs_of_nonneg nonneg)
  have printed := countChars_of_parts finite parts
  split at printed
  · next far =>
    rw [same] at far
    have above : 0 < size.real := far.elim (lt_of_lt_of_le (by norm_num)) And.left
    exact Faithful.of_scientific positive number above (far.imp_right And.right) printed
  split at printed
  · next near low =>
    exact Faithful.of_grouped finite low (not_le.mp fun far => near (.inl far)) printed
  · next near high =>
    rw [same] at near high
    have low : size.real = 0 ∨ hundredth ≤ size.real := by
      by_contra! tiny
      exact near (.inr ⟨nonneg.lt_of_ne tiny.1.symm, tiny.2⟩)
    exact Faithful.of_plain positive number low (not_le.mp high) printed

/-- A count is printed near enough to what it is, and of two counts the larger is not printed as the smaller. -/
theorem countText_near_and_ordered {x y : Float} (finite : x.isFinite = true) (finite' : y.isFinite = true) :
    ∃ reading reading', Readback.ofText? (countText x).toList = some reading ∧
      Readback.ofText? (countText y).toList = some reading' ∧
      |(reading.value : ℝ) - realOf x| ≤ reading.slack ∧ (x ≤ y → reading.value ≤ reading'.value) := by
  obtain ⟨reading, faithful⟩ := exists_faithful finite
  obtain ⟨reading', faithful'⟩ := exists_faithful finite'
  refine ⟨reading, reading', ?_, ?_, faithful.near, ?_⟩
  · rw [countText, String.toList_ofList, faithful.read]
  · rw [countText, String.toList_ofList, faithful'.read]
  · intro le
    exact_mod_cast faithful.shown.mono faithful'.shown (realOf_le finite finite' le)

theorem countText_of_thousands_and_millions :
    (12345.6 : Float).isFinite = true ∧ (3600000 : Float).isFinite = true ∧ ∃ reading reading',
      Readback.ofText? "12,346".toList = some reading ∧ Readback.ofText? "3.6x10^6".toList = some reading' ∧
      |(reading.value : ℝ) - realOf 12345.6| ≤ reading.slack ∧ reading.value ≤ reading'.value := by
  have finite : (12345.6 : Float).isFinite = true := by decide
  have finite' : (3600000 : Float).isFinite = true := by decide
  have text : countText 12345.6 = "12,346" := by decide
  have text' : countText 3600000 = "3.6x10^6" := by decide
  obtain ⟨reading, reading', read, read', near, ordered⟩ := countText_near_and_ordered finite finite'
  rw [text] at read
  rw [text'] at read'
  exact ⟨finite, finite', reading, reading', read, read', near, ordered (by decide)⟩

end LoopCost
