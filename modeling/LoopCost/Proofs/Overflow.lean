import LoopCost.Proofs.Fault
import LoopCost.Proofs.Sign

/-! Operation counts that leave the range. A count of finite sizes is a number from zero on or infinite, with one
exception: where the sum of the sizes is infinite, its logarithm is taken for zero, and an infinite product times this
zero is no number. -/

namespace LoopCost

/-- What a platform documents of its two functions where operation counts use them: the logarithm of a number above one
is positive and in range, and a positive number has powers from zero on, up to one if it is below one itself. -/
structure Elementary.Documented (math : Elementary) : Prop where
  log2_pos {x : Float} : x.isFinite = true → 1 < x → 0 < math.log2 x
  log2_finite {x : Float} : x.isFinite = true → 1 < x → (math.log2 x).isFinite = true
  pow_nonneg {x y : Float} : x.isFinite = true → 0 < x → y.isFinite = true → 0 ≤ math.pow x y
  pow_le_one {x y : Float} : 0 < x → x < 1 → y.isFinite = true → 0 < y → math.pow x y ≤ 1

namespace Elementary.Documented

variable {math : Elementary} (documented : math.Documented)

include documented

theorem logSize_nonneg (x : Float) : 0 ≤ logSize math x := by
  unfold logSize
  dsimp only
  split
  · next large => exact nonneg_of_pos (documented.log2_pos (isFinite_usable x) large)
  · decide

theorem isFinite_logSize (x : Float) : (logSize math x).isFinite = true := by
  unfold logSize
  dsimp only
  split
  · next large => exact documented.log2_finite (isFinite_usable x) large
  · decide

theorem logSize_pos {x : Float} (finite : x.isFinite = true) (large : 1 < x) : 0 < logSize math x := by
  have same : usable x = x := usable_of_nonneg finite (nonneg_of_pos (pos_of_one_lt large))
  unfold logSize
  rw [same, if_pos large]
  exact documented.log2_pos finite large

/-- Only numbers above one have a power that is out of range. -/
theorem finitePower_nonneg {base exponent : Float} (finite : base.isFinite = true) (positive : 0 < base)
    (finite' : exponent.isFinite = true) (positive' : 0 < exponent) :
    0 ≤ finitePower math base exponent ∧ (finitePower math base exponent = infinity → 1 < base) := by
  have above : ¬ base < 0 := not_neg_of_nonneg (nonneg_of_pos positive)
  have nonneg : 0 ≤ math.pow base exponent := documented.pow_nonneg finite positive finite'
  unfold finitePower
  simp only [abs_of_pos finite positive, above, if_false]
  cases one : base == 1 with
  | true =>
    have unit : (1 : Float).isFinite = true := by decide
    simp only [if_true, isInf_of_isFinite unit, Bool.false_eq_true, if_false]
    exact ⟨by decide, fun infinite => absurd infinite (ne_infinity_of_isFinite unit)⟩
  | false =>
    cases infinite : (math.pow base exponent).isInf with
    | false =>
      simp only [Bool.false_eq_true, if_false, infinite]
      refine ⟨nonneg, fun same => ?_⟩
      rw [same] at infinite
      cases infinite
    | true =>
      simp only [Bool.false_eq_true, if_false, infinite, if_true]
      refine ⟨by decide, fun _ => ?_⟩
      rcases one_trichotomy finite positive with below | same | large
      · have bounded := documented.pow_le_one positive below finite' positive'
        rw [eq_infinity_of_isInf nonneg infinite] at bounded
        exact absurd bounded (by decide)
      · cases one.symm.trans same
      · exact large

/-- A size to the power of a size is out of range only if the base is above one and the exponent is not zero. -/
theorem power_nonneg (base exponent : Float) (finite : base.isFinite = true) (nonneg : 0 ≤ base)
    (finite' : exponent.isFinite = true) (nonneg' : 0 ≤ exponent) :
    ∃ count, power math base exponent = .ok count ∧ 0 ≤ count ∧ (count = infinity → 0 < exponent ∧ 1 < base) := by
  have one : (1 : Float) ≠ infinity := ne_infinity_of_isFinite (by decide)
  unfold power
  cases none : exponent == 0 with
  | true => exact ⟨1, rfl, by decide, fun infinite => absurd infinite one⟩
  | false =>
    have positive' : 0 < exponent := pos_of_nonneg nonneg' none
    simp only [isNaN_of_isFinite finite, isNaN_of_isFinite finite', isInf_of_isFinite finite, isInf_of_isFinite finite',
      Bool.false_eq_true, if_false]
    cases zero : base == 0 with
    | true =>
      simp only [if_true, not_neg_of_nonneg nonneg', if_false]
      split
      · exact ⟨base, rfl, nonneg, fun infinite => absurd infinite (ne_infinity_of_isFinite finite)⟩
      · exact ⟨0, rfl, by decide, fun infinite => absurd infinite (ne_infinity_of_isFinite (by decide))⟩
    | false =>
      have positive : 0 < base := pos_of_nonneg nonneg zero
      obtain ⟨above, large⟩ := documented.finitePower_nonneg finite positive finite' positive'
      exact ⟨_, rfl, above, fun infinite => ⟨positive', large infinite⟩⟩

end Elementary.Documented

theorem Named.isFinite_size (sizes : Named Float) (name : String) : (sizes.size name).isFinite = true := by
  unfold size
  cases sizes.lookup name with
  | none => decide
  | some x => exact isFinite_usable x

theorem Named.size_nonneg (sizes : Named Float) (name : String) : 0 ≤ sizes.size name := by
  unfold size
  cases sizes.lookup name with
  | none => decide
  | some x => exact nonneg_usable x

theorem factorialSize_nonneg (x : Float) : 0 ≤ factorialSize x := by
  unfold factorialSize
  dsimp only
  split
  · decide
  · exact nonneg_ofNat _

namespace Preset

variable {math : Elementary} (documented : math.Documented) {n m : Float} (finite : n.isFinite = true) (nonneg : 0 ≤ n)
  (finite' : m.isFinite = true) (nonneg' : 0 ≤ m)

include documented finite nonneg finite' nonneg'

/-- An infinite factor never meets a factor that is zero. -/
theorem cost_nonneg {preset : Preset} (other : preset ≠ .productLog) :
    ∃ count, preset.cost math n m = .ok count ∧ 0 ≤ count := by
  have within {P : Prop} (infinite : n = infinity) : P := absurd infinite (ne_infinity_of_isFinite finite)
  have logarithm := documented.logSize_nonneg n
  have modest := documented.isFinite_logSize n
  obtain ⟨square, squared, square_nonneg, square_large⟩ :=
    documented.power_nonneg n 2 finite nonneg (by decide) (by decide)
  obtain ⟨cube, cubed, cube_nonneg, -⟩ :=
    documented.power_nonneg n 3 finite nonneg (by decide) (by decide)
  obtain ⟨double, doubled, double_nonneg, double_large⟩ :=
    documented.power_nonneg 2 n (by decide) (by decide) finite nonneg
  cases preset with
  | constant => exact ⟨1, rfl, by decide⟩
  | log => exact ⟨_, rfl, logarithm⟩
  | sqrt => exact ⟨_, rfl, nonneg_sqrt nonneg⟩
  | linear => exact ⟨_, rfl, nonneg⟩
  | linearLog => exact ⟨_, rfl, nonneg_mul_of_isFinite finite nonneg modest logarithm⟩
  | linearSqrt => exact ⟨_, rfl, nonneg_mul nonneg (nonneg_sqrt nonneg) within (pos_of_sqrt nonneg)⟩
  | square => exact ⟨square, squared, square_nonneg⟩
  | squareLog =>
    refine ⟨square * logSize math n, by rw [cost, squared]; rfl, ?_⟩
    -- A square that is infinite is that of a number above one, whose logarithm is not zero.
    apply nonneg_mul square_nonneg logarithm
    · exact fun infinite => documented.logSize_pos finite (square_large infinite).2
    · exact fun infinite => absurd infinite (ne_infinity_of_isFinite modest)
  | cube => exact ⟨cube, cubed, cube_nonneg⟩
  | exponential => exact ⟨double, doubled, double_nonneg⟩
  | linearExponential =>
    refine ⟨n * double, by rw [cost, doubled]; rfl, ?_⟩
    exact nonneg_mul nonneg double_nonneg within fun infinite => (double_large infinite).1
  | factorial => exact ⟨_, rfl, factorialSize_nonneg n⟩
  | product => exact ⟨_, rfl, nonneg_mul_of_isFinite finite nonneg finite' nonneg'⟩
  | productLog => exact absurd rfl other

theorem productLog_nonneg (sum : n + m ≠ infinity) : 0 ≤ n * m * logSize math (n + m) := by
  have product : 0 ≤ n * m := nonneg_mul_of_isFinite finite nonneg finite' nonneg'
  apply nonneg_mul product (documented.logSize_nonneg (n + m))
  · intro infinite
    have large : 1 < n + m := one_lt_add_of_mul finite nonneg finite' nonneg' infinite
    have inside : (n + m).isFinite = true := isFinite_of_nonneg (nonneg_of_pos (pos_of_one_lt large)) sum
    exact documented.logSize_pos inside large
  · exact fun infinite => absurd infinite (ne_infinity_of_isFinite (documented.isFinite_logSize (n + m)))

omit documented in
/-- The sum is taken for zero because it is not finite, and so is its logarithm. -/
theorem productLog_isNaN (sum : n + m = infinity) : (n * m * logSize math (n + m)).isNaN = true := by
  have none : logSize math infinity = 0 := rfl
  rw [mul_eq_infinity_of_add finite nonneg finite' nonneg' sum, sum, none]
  decide

end Preset

/-- The count is a number from zero on or infinite, except where the sum of both sizes is out of range. -/
theorem count_of_sizes {math : Elementary} (documented : math.Documented) (preset : Preset) (sizes : Named Float) :
    ∃ count, preset.evaluate math (sizes.map fun (name, size) => (name, .double size)) = .ok count ∧
      if preset = .productLog ∧ sizes.size "N" + sizes.size "M" = infinity then count.isNaN = true else 0 ≤ count := by
  rw [Preset.evaluate_doubles]
  have finite := sizes.isFinite_size "N"
  have finite' := sizes.isFinite_size "M"
  have nonneg := sizes.size_nonneg "N"
  have nonneg' := sizes.size_nonneg "M"
  generalize sizes.size "N" = n at *
  generalize sizes.size "M" = m at *
  by_cases exceptional : preset = .productLog
  · subst exceptional
    refine ⟨_, rfl, ?_⟩
    by_cases sum : n + m = infinity
    · rw [if_pos ⟨rfl, sum⟩]
      exact Preset.productLog_isNaN finite nonneg finite' nonneg' sum
    · rw [if_neg fun both => sum both.2]
      exact Preset.productLog_nonneg documented finite nonneg finite' nonneg' sum
  · obtain ⟨count, counted, above⟩ := Preset.cost_nonneg documented finite nonneg finite' nonneg' exceptional
    exact ⟨count, counted, by rwa [if_neg fun both => exceptional both.1]⟩

def Elementary.tabulated : Elementary where
  log2 x := if x == 1024 then 10 else 1
  pow x y := if x < 1 then 1 else if x == 1024 && y == 2 then 1048576 else 1

theorem Elementary.documented_tabulated : tabulated.Documented where
  log2_pos _ _ := by
    unfold tabulated
    dsimp only
    split <;> decide
  log2_finite _ _ := by
    unfold tabulated
    dsimp only
    split <;> decide
  pow_nonneg _ _ _ := by
    unfold tabulated
    dsimp only
    split
    · decide
    · split <;> decide
  pow_le_one _ below _ _ := by
    unfold tabulated
    simp only [below, if_true]
    decide

theorem count_of_thousand : Elementary.tabulated.Documented ∧
    ∃ count, Preset.squareLog.evaluate .tabulated [("N", .double 1024)] = .ok count ∧ 0 ≤ count := by
  obtain ⟨count, counted, above⟩ := count_of_sizes Elementary.documented_tabulated .squareLog [("N", 1024)]
  exact ⟨Elementary.documented_tabulated, count, counted, by simpa using above⟩

/-- The product of these sizes is infinite, and so is their sum. -/
theorem count_is_no_number :
    (1e308 : Float).isFinite = true ∧ 0 ≤ (1e308 : Float) ∧
    ∃ count, Preset.productLog.evaluate .native [("N", .double 1e308), ("M", .double 1e308)] = .ok count ∧
      count.isNaN = true := by
  have undefined : (Preset.productLog.evaluate .native [("N", .double 1e308), ("M", .double 1e308)]).toOption.any
      Float.isNaN = true := by decide +kernel
  refine ⟨by decide +kernel, by decide +kernel, ?_⟩
  cases counted : Preset.productLog.evaluate .native [("N", .double 1e308), ("M", .double 1e308)] with
  | error fault =>
    rw [counted] at undefined
    cases undefined
  | ok count =>
    rw [counted] at undefined
    exact ⟨count, rfl, undefined⟩

end LoopCost
