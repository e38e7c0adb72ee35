import LoopCost.Proofs.Nearest

/-! Sizes as they are displayed. Each of the three notations rounds to a grid of its own. A larger size never shows as a
smaller value: within one notation because rounding keeps the order, and from one to the next because what is shown on both
sides is parted by a value that both notations show. -/

namespace LoopCost

/-- The double nearest to a hundredth, from which on sizes have decimal places. -/
noncomputable def hundredth : ℝ := magnitude (unpack 0.01)

theorem hundredth_eq : hundredth = (5764607523034235 : ℕ) * 2 ^ (-59 : ℤ) := rfl

/-- Two digits of a size in units of a tenth of its power of ten. -/
structure Scientific (size : ℝ) (order : ℤ) (digits : ℕ) : Prop where
  low : 10 ^ order ≤ size
  high : size < 10 ^ (order + 1)
  nearest : Nearest (size / 10 ^ (order - 1)) digits

namespace Scientific

variable {size larger : ℝ} {order order' : ℤ} {digits digits' : ℕ}

theorem digits_bounds (shown : Scientific size order digits) : 10 ≤ digits ∧ digits ≤ 100 := by
  have unit : (0 : ℝ) < 10 ^ (order - 1) := by positivity
  have low := shown.low
  have high := shown.high.le
  constructor
  · apply (Nearest.natCast 10).mono shown.nearest
    rw [le_div_iff₀ unit]
    calc ((10 : ℕ) : ℝ) * 10 ^ (order - 1) = 10 ^ order := by rw [Nat.cast_ofNat, ← zpow_one_add₀ (by norm_num)]; congr 1; ring
      _ ≤ size := shown.low
  · apply shown.nearest.mono (Nearest.natCast 100)
    rw [div_le_iff₀ unit]
    calc size ≤ 10 ^ (order + 1) := shown.high.le
      _ = 10 ^ (2 : ℤ) * 10 ^ (order - 1) := by rw [← zpow_add₀ (by norm_num)]; congr 1; ring
      _ = (100 : ℕ) * 10 ^ (order - 1) := by norm_num

/-- A size with fewer digits in front of the point shows at most the power of ten that parts it from the larger one. -/
theorem mono (shown : Scientific size order digits) (shown' : Scientific larger order' digits') (grows : size ≤ larger) :
    (digits : ℝ) * 10 ^ (order - 1) ≤ digits' * 10 ^ (order' - 1) := by
  have unit : (0 : ℝ) < 10 ^ (order - 1) := by positivity
  rcases lt_trichotomy order order' with lower | rfl | higher
  · have few : (digits : ℝ) ≤ 10 ^ (2 : ℤ) := by exact_mod_cast shown.digits_bounds.2
    have more : (10 : ℝ) ≤ digits' := by exact_mod_cast shown'.digits_bounds.1
    calc (digits : ℝ) * 10 ^ (order - 1) ≤ 10 ^ (2 : ℤ) * 10 ^ (order - 1) := mul_le_mul_of_nonneg_right few unit.le
      _ = 10 ^ (order + 1) := by rw [← zpow_add₀ (by norm_num)]; congr 1; ring
      _ ≤ 10 ^ order' := zpow_le_zpow_right₀ (by norm_num) lower
      _ = 10 * 10 ^ (order' - 1) := by rw [← zpow_one_add₀ (by norm_num)]; congr 1; ring
      _ ≤ digits' * 10 ^ (order' - 1) := mul_le_mul_of_nonneg_right more (by positivity)
  · have fewer := shown.nearest.mono shown'.nearest (div_le_div_of_nonneg_right grows unit.le)
    exact mul_le_mul_of_nonneg_right (by exact_mod_cast fewer) unit.le
  · have apart : (10 : ℝ) ^ (order' + 1) ≤ 10 ^ order := zpow_le_zpow_right₀ (by norm_num) higher
    exact absurd grows (by linarith [shown.low, shown'.high])

theorem value_nonneg (digits : ℕ) (order : ℤ) : (0 : ℝ) ≤ digits * 10 ^ (order - 1) := by positivity

theorem million : Scientific 1000000 6 10 := by
  refine ⟨by norm_num, by norm_num, ?_⟩
  have same : (1000000 : ℝ) / 10 ^ ((6 : ℤ) - 1) = (10 : ℕ) := by norm_num
  rw [same]
  exact .natCast 10

theorem hundredth : Scientific hundredth (-2) 10 := by
  have unit : (10 : ℝ) ^ ((-2 : ℤ) - 1) = 1 / 1000 := by norm_num
  rw [hundredth_eq]
  refine ⟨by norm_num, by norm_num, ?_⟩
  rw [unit]
  refine ⟨by norm_num, by norm_num, ?_⟩
  norm_num

theorem million_le (shown : Scientific size order digits) (large : 1000000 ≤ size) : 1000000 ≤ (digits : ℝ) * 10 ^ (order - 1) := by
  have above := million.mono shown large
  norm_num at above ⊢
  exact above

theorem le_hundredth (shown : Scientific size order digits) (small : size < LoopCost.hundredth) :
    (digits : ℝ) * 10 ^ (order - 1) ≤ 1 / 100 := by
  have below := shown.mono hundredth small.le
  norm_num at below ⊢
  exact below

end Scientific

/-- How a size is displayed, where `whole` makes integers of the sizes that are shown as integers. -/
inductive Displayed (whole : ℝ → ℤ) (size : ℝ) : ℝ → Prop
  | scientific {order : ℤ} {digits : ℕ} (far : 1000000 ≤ size ∨ size < hundredth) (shown : Scientific size order digits) :
      Displayed whole size (digits * 10 ^ (order - 1))
  | grouped (low : 1000 ≤ size) (high : size < 1000000) : Displayed whole size (whole size)
  | plain {hundredths : ℕ} (low : size = 0 ∨ hundredth ≤ size) (high : size < 1000) (nearest : Nearest (size * 100) hundredths) :
      Displayed whole size (hundredths / 100)

namespace Displayed

variable {whole : ℝ → ℤ} {size larger value value' : ℝ}

/-- What integers a size from a thousand up to a million is shown as. -/
theorem whole_bounds (ordered : Monotone whole) (fixed : ∀ n : ℤ, whole n = n) (low : 1000 ≤ size) (high : size < 1000000) :
    1000 ≤ (whole size : ℝ) ∧ (whole size : ℝ) ≤ 1000000 := by
  have above : whole ((1000 : ℤ) : ℝ) ≤ whole size := ordered (by exact_mod_cast low)
  have below : whole size ≤ whole ((1000000 : ℤ) : ℝ) := ordered (by exact_mod_cast high.le)
  rw [fixed] at above below
  exact ⟨by exact_mod_cast above, by exact_mod_cast below⟩

theorem hundredths_le {hundredths : ℕ} (nearest : Nearest (size * 100) hundredths) (high : size < 1000) :
    (hundredths : ℝ) / 100 ≤ 1000 := by
  have few : hundredths ≤ 100000 := nearest.mono (Nearest.natCast 100000) (by push_cast; linarith)
  rw [div_le_iff₀ (by norm_num)]
  exact_mod_cast few

theorem le_hundredths {hundredths : ℕ} (nearest : Nearest (size * 100) hundredths) (low : hundredth ≤ size) :
    1 / 100 ≤ (hundredths : ℝ) / 100 := by
  have bound : 1 / 100 ≤ hundredth := by norm_num [hundredth_eq]
  have some : 1 ≤ hundredths := (Nearest.natCast 1).mono nearest (by push_cast; linarith)
  rw [div_le_div_iff_of_pos_right (by norm_num)]
  exact_mod_cast some

theorem value_of_zero (shown : Displayed whole size value) (zero : size = 0) : value = 0 := by
  cases shown with
  | @scientific order digits far shown =>
    have positive : (0 : ℝ) < 10 ^ order := by positivity
    exact absurd shown.low (by linarith)
  | grouped low high => exact absurd low (by rw [zero]; norm_num)
  | @plain hundredths low high nearest =>
    have none : hundredths ≤ 0 := nearest.mono (Nearest.natCast 0) (by rw [zero]; simp)
    rw [Nat.le_zero.mp none, Nat.cast_zero, zero_div]

theorem nonneg (ordered : Monotone whole) (fixed : ∀ n : ℤ, whole n = n) (shown : Displayed whole size value) : 0 ≤ value := by
  cases shown with
  | @scientific order digits far shown => exact Scientific.value_nonneg digits order
  | grouped low high => linarith [(whole_bounds ordered fixed low high).1]
  | plain low high nearest => positivity

theorem mono (ordered : Monotone whole) (fixed : ∀ n : ℤ, whole n = n) (shown : Displayed whole size value)
    (shown' : Displayed whole larger value') (grows : size ≤ larger) : value ≤ value' := by
  cases shown with
  | @scientific order digits far shown =>
    have positive : 0 < size := shown.low.trans_lt' (by positivity)
    cases shown' with
    | scientific _ shown' => exact shown.mono shown' grows
    | grouped low high =>
      have above := (whole_bounds ordered fixed low high).1
      have below := shown.le_hundredth (far.resolve_left (by linarith))
      linarith
    | plain low high nearest =>
      have above := le_hundredths nearest (low.resolve_left (by linarith))
      have below := shown.le_hundredth (far.resolve_left (by linarith))
      exact below.trans above
  | grouped low high =>
    have below := (whole_bounds ordered fixed low high).2
    cases shown' with
    | scientific far shown' =>
      have above := shown'.million_le (far.resolve_right ?_)
      · exact below.trans above
      · have small : hundredth < 1000 := by norm_num [hundredth_eq]
        linarith
    | grouped _ _ => exact_mod_cast ordered grows
    | plain _ high' _ => exact absurd grows (by linarith)
  | @plain hundredths low high nearest =>
    cases shown' with
    | @scientific order digits far shown' =>
      rcases low with none | low
      · have shown : Displayed whole size (hundredths / 100) := .plain (.inl none) high nearest
        rw [shown.value_of_zero none]
        exact Scientific.value_nonneg digits order
      · have above := shown'.million_le (far.resolve_right (by linarith))
        have below := hundredths_le nearest high
        linarith
    | grouped low' high' =>
      have above := (whole_bounds ordered fixed low' high').1
      exact (hundredths_le nearest high).trans above
    | plain _ _ nearest' =>
      have fewer := nearest.mono nearest' (by linarith)
      rw [div_le_div_iff_of_pos_right (by norm_num)]
      exact_mod_cast fewer

end Displayed

/-- How a number is displayed, by its size and its sign. Of two integers that are as near the greater one is shown. -/
inductive Shown (number : ℝ) : ℝ → Prop
  | nonneg {value : ℝ} (above : 0 ≤ number) (size : Displayed (fun size => ⌊size + 1 / 2⌋) number value) : Shown number value
  | negative {value : ℝ} (below : number < 0) (size : Displayed (fun size => -⌊-size + 1 / 2⌋) (-number) value) :
      Shown number (-value)

theorem monotone_roundUp : Monotone fun size : ℝ => ⌊size + 1 / 2⌋ := by
  intro size larger grows
  exact Int.floor_mono (by linarith)

theorem roundUp_intCast (n : ℤ) : ⌊(n : ℝ) + 1 / 2⌋ = n := by
  rw [Int.floor_intCast_add]
  norm_num

theorem monotone_roundDown : Monotone fun size : ℝ => -⌊-size + 1 / 2⌋ := by
  intro size larger grows
  exact neg_le_neg (Int.floor_mono (by linarith))

theorem roundDown_intCast (n : ℤ) : -⌊-(n : ℝ) + 1 / 2⌋ = n := by
  rw [← Int.cast_neg, roundUp_intCast, neg_neg]

/-- Of two numbers the larger one does not show as the smaller. -/
theorem Shown.mono {number larger value value' : ℝ} (shown : Shown number value) (shown' : Shown larger value')
    (grows : number ≤ larger) : value ≤ value' := by
  cases shown with
  | nonneg above size =>
    cases shown' with
    | nonneg _ size' => exact size.mono monotone_roundUp roundUp_intCast size' grows
    | negative below _ => exact absurd grows (by linarith)
  | negative below size =>
    cases shown' with
    | nonneg _ size' =>
      have low := size.nonneg monotone_roundDown roundDown_intCast
      have high := size'.nonneg monotone_roundUp roundUp_intCast
      linarith
    | negative _ size' => exact neg_le_neg (size'.mono monotone_roundDown roundDown_intCast size (neg_le_neg grows))

end LoopCost
