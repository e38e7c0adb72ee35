import LoopCost.Proofs.Ordered
import LoopCost.Proofs.Overflow

/-! A larger input never gets a better verdict. Every operation count is put together from functions that do not decrease
on sizes, also where one of them is cut off or leaves the range; a count that is no number comes from sizes whose sum is
infinite, and it is judged as infinite for them and for all that are larger. A smaller time limit does not raise any of
the two thresholds. -/

namespace LoopCost

/-- What a platform documents of its two functions where larger sizes are compared with smaller ones: besides the bounds
on their results, that they do not decrease. -/
structure Elementary.Increasing (math : Elementary) : Prop where
  log2_pos {x : Float} : x.isFinite = true → 1 < x → 0 < math.log2 x
  log2_finite {x : Float} : x.isFinite = true → 1 < x → (math.log2 x).isFinite = true
  log2_mono {x y : Float} : y.isFinite = true → 1 < x → x ≤ y → math.log2 x ≤ math.log2 y
  pow_nonneg {x y : Float} : x.isFinite = true → 0 < x → y.isFinite = true → 0 ≤ math.pow x y
  one_pow (y : Float) : math.pow 1 y = 1
  pow_mono_base {x x' y : Float} : 0 < x → x ≤ x' → x'.isFinite = true → 0 < y → y.isFinite = true →
    math.pow x y ≤ math.pow x' y
  pow_mono_exponent {x y y' : Float} : 1 < x → x.isFinite = true → 0 < y → y ≤ y' → y'.isFinite = true →
    math.pow x y ≤ math.pow x y'

namespace Elementary.Increasing

variable {math : Elementary} (increasing : math.Increasing)

include increasing

theorem documented : math.Documented where
  log2_pos := increasing.log2_pos
  log2_finite := increasing.log2_finite
  pow_nonneg := increasing.pow_nonneg
  pow_le_one positive below finite positive' := by
    have bounded := increasing.pow_mono_base positive (le_of_lt below) (by decide) positive' finite
    rwa [increasing.one_pow] at bounded

theorem logSize_mono {x y : Float} (size : Within x y) : logSize math x ≤ logSize math y := by
  have above := increasing.documented.logSize_nonneg y
  have same : usable x = x := usable_of_nonneg size.isFinite_left size.nonneg
  have same' : usable y = y := usable_of_nonneg size.finite size.nonneg_right
  unfold logSize at *
  rw [same'] at above
  rw [same, same']
  by_cases large : 1 < x
  · have large' : 1 < y := lt_of_lt_of_le_of_nonneg (by decide) large size.le
    simp only [large, large', if_true]
    exact increasing.log2_mono size.finite large size.le
  · rw [if_neg large]
    exact above

/-- The special cases around powers do not matter for positive numbers. -/
theorem power_of_pos {base exponent : Float} (finite : base.isFinite = true) (positive : 0 < base)
    (finite' : exponent.isFinite = true) (positive' : 0 < exponent) :
    power math base exponent = .ok (math.pow base exponent) := by
  have above := increasing.pow_nonneg finite positive finite'
  have nonzero : (base == 0) = false := beq_zero_of_pos positive
  have nonzero' : (exponent == 0) = false := beq_zero_of_pos positive'
  have size : (if base == 1 then 1 else math.pow base exponent) = math.pow base exponent := by
    split
    next one => rw [eq_one_of_beq one, increasing.one_pow]
    next => rfl
  have whole : finitePower math base exponent = math.pow base exponent := by
    unfold finitePower
    rw [abs_of_pos finite positive]
    simp only [size, not_neg_of_nonneg (nonneg_of_pos positive), if_false]
    split
    next infinite => exact (eq_infinity_of_isInf above infinite).symm
    next => rfl
  unfold power
  simp only [nonzero, nonzero', isNaN_of_isFinite finite, isNaN_of_isFinite finite', isInf_of_isFinite finite,
    isInf_of_isFinite finite', whole, Bool.false_eq_true, if_false]

theorem nonneg_of_power {base exponent count : Float} (finite : base.isFinite = true) (nonneg : 0 ≤ base)
    (finite' : exponent.isFinite = true) (nonneg' : 0 ≤ exponent) (counted : power math base exponent = .ok count) :
    0 ≤ count := by
  obtain ⟨size, sized, above, -⟩ := increasing.documented.power_nonneg base exponent finite nonneg finite' nonneg'
  exact Except.ok.inj (sized.symm.trans counted) ▸ above

theorem power_mono_base {x x' y count count' : Float} (size : Within x x') (positive : 0 < y)
    (finite' : y.isFinite = true) (counted : power math x y = .ok count) (counted' : power math x' y = .ok count') :
    count ≤ count' := by
  have inside := size.isFinite_left
  cases zero : x == 0 with
  | true =>
    apply le_of_zero
      (increasing.nonneg_of_power size.finite size.nonneg_right finite' (nonneg_of_pos positive) counted')
    simp only [power, beq_zero_of_pos positive, isNaN_of_isFinite inside, isNaN_of_isFinite finite',
      isInf_of_isFinite inside, isInf_of_isFinite finite', zero, not_neg_of_nonneg (nonneg_of_pos positive),
      Bool.false_eq_true, if_false, if_true, Except.ok.injEq] at counted
    rw [← counted]
    split
    · exact zero
    · decide
  | false =>
    have above := pos_of_nonneg size.nonneg zero
    have above' := lt_of_lt_of_le_of_nonneg (by decide) above size.le
    rw [increasing.power_of_pos inside above finite' positive] at counted
    rw [increasing.power_of_pos size.finite above' finite' positive] at counted'
    cases counted
    cases counted'
    exact increasing.pow_mono_base above size.le size.finite positive finite'

theorem power_mono_exponent {x y y' count count' : Float} (large : 1 < x) (finite : x.isFinite = true)
    (size : Within y y') (counted : power math x y = .ok count) (counted' : power math x y' = .ok count') :
    count ≤ count' := by
  have positive := pos_of_one_lt large
  cases zero : y == 0 with
  | true =>
    obtain rfl : 1 = count := by simpa only [power, zero, if_true, Except.ok.injEq] using counted
    cases zero' : y' == 0 with
    | true =>
      obtain rfl : 1 = count' := by simpa only [power, zero', if_true, Except.ok.injEq] using counted'
      decide
    | false =>
      -- The power is compared with that of one.
      have above' := pos_of_nonneg size.nonneg_right zero'
      rw [increasing.power_of_pos finite positive size.finite above'] at counted'
      cases counted'
      have least := increasing.pow_mono_base (by decide) (le_of_lt large) finite above' size.finite
      rwa [increasing.one_pow] at least
  | false =>
    have above := pos_of_nonneg size.nonneg zero
    have above' := lt_of_lt_of_le_of_nonneg (by decide) above size.le
    rw [increasing.power_of_pos finite positive size.isFinite_left above] at counted
    rw [increasing.power_of_pos finite positive size.finite above'] at counted'
    cases counted
    cases counted'
    exact increasing.pow_mono_exponent large finite above size.le size.finite

end Elementary.Increasing

theorem factorial_mono : Monotone factorial :=
  monotone_nat_of_le_succ fun n => Nat.le_mul_of_pos_left (factorial n) (Nat.succ_pos n)

theorem factorialSize_mono {x y : Float} (size : Within x y) : factorialSize x ≤ factorialSize y := by
  have above := factorialSize_nonneg x
  have same : usable x = x := usable_of_nonneg size.isFinite_left size.nonneg
  have same' : usable y = y := usable_of_nonneg size.finite size.nonneg_right
  have floors : (floorOf x).toNat ≤ (floorOf y).toNat := Int.toNat_le_toNat size.floorOf_le
  unfold factorialSize at *
  simp only [same, same'] at above ⊢
  by_cases large : (floorOf y).toNat > 170
  · rw [if_pos large]
    exact le_infinity above
  · rw [if_neg (by omega), if_neg large]
    exact ofNat_le_ofNat (factorial_mono floors)

/-- The count that is judged: what is negative or no number is taken for infinite. -/
def charged (count : Float) : Float := if count.isFinite && !(count < 0) then count else infinity

theorem charged_of_nonneg {count : Float} (nonneg : 0 ≤ count) : charged count = count := by
  by_cases outside : count = infinity
  · rw [outside]
    decide
  · simp [charged, isFinite_of_nonneg nonneg outside, not_neg_of_nonneg nonneg]

theorem charged_of_isNaN {count : Float} (undefined : count.isNaN = true) : charged count = infinity := by
  have infinite : count.isFinite = false := by
    rw [Bool.eq_false_iff]
    intro finite
    cases undefined.symm.trans (isNaN_of_isFinite finite)
  simp [charged, infinite]

theorem nonneg_charged (count : Float) : 0 ≤ charged count := by
  have above := nonneg_usable count
  unfold usable at above
  unfold charged
  split
  next kept => rwa [if_pos kept] at above
  next => decide

namespace Preset

variable {math : Elementary} (increasing : math.Increasing) {n n' m m' : Float} (size : Within n n')
  (size' : Within m m')

include increasing size size'

/-- No larger size makes a cost smaller. -/
theorem cost_mono {preset : Preset} (other : preset ≠ .productLog) {count count' : Float}
    (counted : preset.cost math n m = .ok count) (counted' : preset.cost math n' m' = .ok count') :
    0 ≤ count ∧ count ≤ count' := by
  have logs := increasing.logSize_mono size
  have logs_nonneg := increasing.documented.logSize_nonneg n
  have positive : 0 ≤ count := by
    obtain ⟨cost, found, positive⟩ :=
      cost_nonneg increasing.documented size.isFinite_left size.nonneg size'.isFinite_left size'.nonneg other
    exact Except.ok.inj (found.symm.trans counted) ▸ positive
  have positive' : 0 ≤ count' := by
    obtain ⟨cost, found, positive⟩ :=
      cost_nonneg increasing.documented size.finite size.nonneg_right size'.finite size'.nonneg_right other
    exact Except.ok.inj (found.symm.trans counted') ▸ positive
  refine ⟨positive, ?_⟩
  cases preset with
  | constant =>
    cases counted
    cases counted'
    exact le_refl_of_nonneg positive
  | log =>
    cases counted
    cases counted'
    exact logs
  | sqrt =>
    cases counted
    cases counted'
    exact size.sqrt_le
  | linear =>
    cases counted
    cases counted'
    exact size.le
  | linearLog =>
    cases counted
    cases counted'
    exact mul_le_mul_of_nonneg size.nonneg logs_nonneg size.le logs positive positive'
  | linearSqrt =>
    cases counted
    cases counted'
    exact mul_le_mul_of_nonneg size.nonneg (nonneg_sqrt size.nonneg) size.le size.sqrt_le positive positive'
  | square | cube => exact increasing.power_mono_base size (by decide) (by decide) counted counted'
  | squareLog =>
    obtain ⟨square, squared, rfl⟩ := map_eq_ok.mp counted
    obtain ⟨square', squared', rfl⟩ := map_eq_ok.mp counted'
    have squares := increasing.power_mono_base size (by decide) (by decide) squared squared'
    have square_nonneg := increasing.nonneg_of_power size.isFinite_left size.nonneg (by decide) (by decide) squared
    exact mul_le_mul_of_nonneg square_nonneg logs_nonneg squares logs positive positive'
  | exponential => exact increasing.power_mono_exponent (by decide) (by decide) size counted counted'
  | linearExponential =>
    obtain ⟨double, doubled, rfl⟩ := map_eq_ok.mp counted
    obtain ⟨double', doubled', rfl⟩ := map_eq_ok.mp counted'
    have doubles := increasing.power_mono_exponent (by decide) (by decide) size doubled doubled'
    have double_nonneg := increasing.nonneg_of_power (by decide) (by decide) size.isFinite_left size.nonneg doubled
    exact mul_le_mul_of_nonneg size.nonneg double_nonneg size.le doubles positive positive'
  | factorial =>
    cases counted
    cases counted'
    exact factorialSize_mono size
  | product =>
    cases counted
    cases counted'
    exact size.mul_le size'
  | productLog => exact absurd rfl other

/-- The sum of the sizes has to be in range, for the larger ones at least. -/
theorem productLog_mono (inside : n' + m' ≠ infinity) :
    0 ≤ n * m * logSize math (n + m) ∧ n * m * logSize math (n + m) ≤ n' * m' * logSize math (n' + m') := by
  have sum : Within (n + m) (n' + m') := size.add size' inside
  have product_nonneg := nonneg_mul_of_isFinite size.isFinite_left size.nonneg size'.isFinite_left size'.nonneg
  have positive := productLog_nonneg increasing.documented size.isFinite_left size.nonneg size'.isFinite_left size'.nonneg
    (ne_infinity_of_isFinite sum.isFinite_left)
  have positive' := productLog_nonneg increasing.documented size.finite size.nonneg_right size'.finite size'.nonneg_right
    inside
  have logs_nonneg := increasing.documented.logSize_nonneg (n + m)
  exact ⟨positive, mul_le_mul_of_nonneg product_nonneg logs_nonneg (size.mul_le size') (increasing.logSize_mono sum)
    positive positive'⟩

theorem charged_mono {preset : Preset} {count count' : Float} (counted : preset.cost math n m = .ok count)
    (counted' : preset.cost math n' m' = .ok count') : charged count ≤ charged count' := by
  have kept (monotone : 0 ≤ count ∧ count ≤ count') : charged count ≤ charged count' := by
    rw [charged_of_nonneg monotone.1, charged_of_nonneg (nonneg_of_le monotone.1 monotone.2)]
    exact monotone.2
  by_cases exceptional : preset = .productLog
  · subst exceptional
    cases counted
    cases counted'
    -- If the sum of the smaller sizes is infinite, that of the larger ones is as well.
    by_cases outside : n' + m' = infinity
    · rw [charged_of_isNaN (productLog_isNaN size.finite size.nonneg_right size'.finite size'.nonneg_right outside)]
      exact le_infinity (nonneg_charged _)
    · exact kept (productLog_mono increasing size size' outside)
  · exact kept (cost_mono increasing size size' exceptional counted counted')

end Preset

namespace Verdict

def rank : Verdict → Nat
  | safe => 0
  | borderline => 1
  | exceeded => 2

theorem rank_ofCount_le {count count' budget budget' : Float} (tenth : count' ≤ budget' * 0.1 → count ≤ budget * 0.1)
    (whole : count' ≤ budget' → count ≤ budget) : (ofCount count budget).rank ≤ (ofCount count' budget').rank := by
  unfold ofCount
  by_cases first : count' ≤ budget' * 0.1
  · rw [if_pos first, if_pos (tenth first)]
  rw [if_neg first]
  by_cases second : count' ≤ budget'
  · rw [if_pos second, if_pos (whole second)]
    split <;> decide
  · rw [if_neg second]
    split
    · decide
    · split <;> decide

/-- A smaller budget lowers both thresholds. -/
theorem rank_mono {count count' budget budget' : Float} (nonneg : 0 ≤ count) (grows : count ≤ count')
    (nonneg' : 0 ≤ budget') (shrinks : budget' ≤ budget) :
    (ofCount count budget).rank ≤ (ofCount count' budget').rank := by
  have above := nonneg_of_le nonneg grows
  have share {x : Float} (nonneg : 0 ≤ x) : 0 ≤ x * 0.1 :=
    nonneg_mul nonneg (by decide) (fun _ => by decide) fun infinite => absurd infinite (ne_infinity_of_isFinite (by decide))
  have tenths : budget' * 0.1 ≤ budget * 0.1 :=
    mul_le_mul_of_nonneg nonneg' (by decide) shrinks (by decide) (share nonneg') (share (nonneg_of_le nonneg' shrinks))
  apply rank_ofCount_le
  · exact fun within => le_trans_of_nonneg nonneg grows (le_trans_of_nonneg above within tenths)
  · exact fun within => le_trans_of_nonneg nonneg grows (le_trans_of_nonneg above within shrinks)

end Verdict

namespace Assessment

theorem judge_eq {label : String} {count seconds perSecond : Float} {timeLimit : Entry} {speed : Speed}
    (limit : timeLimit.double? = .ok (some seconds)) (rate : speed.perSecond = .ok perSecond) :
    judge label count timeLimit speed = .ok
      { label
        count := charged count
        budget := usable seconds * perSecond
        verdict := .ofCount (charged count) (usable seconds * perSecond) } := by
  unfold judge Entry.amount
  rw [limit, rate]
  rfl

theorem ofPreset_doubles {math : Elementary} {preset : Preset} {n m count seconds perSecond : Float}
    {timeLimit : Entry} {speed : Speed} (finite : n.isFinite = true) (nonneg : 0 ≤ n) (finite' : m.isFinite = true)
    (nonneg' : 0 ≤ m) (counted : preset.cost math n m = .ok count) (limit : timeLimit.double? = .ok (some seconds))
    (rate : speed.perSecond = .ok perSecond) :
    ofPreset math preset.id [("N", .double n), ("M", .double m)] timeLimit speed = .ok
      { label := preset.label
        count := charged count
        budget := usable seconds * perSecond
        verdict := .ofCount (charged count) (usable seconds * perSecond) } := by
  have same : usable n = n := usable_of_nonneg finite nonneg
  have same' : usable m = m := usable_of_nonneg finite' nonneg'
  have read : normalized [("N", .double n), ("M", .double m)] = .ok [("N", usable n), ("M", usable m)] := rfl
  have first : Named.size [("N", n), ("M", m)] "N" = n := same
  have second : Named.size [("N", n), ("M", m)] "M" = m := same'
  rw [ofPreset_id, read]
  simp only [bind, Except.bind, same, same', first, second, counted]
  exact judge_eq limit rate

end Assessment

/-- At sizes that are as large and a time limit that is as small the verdict is not better. -/
theorem verdict_mono {math : Elementary} (increasing : math.Increasing) (preset : Preset)
    {n n' m m' seconds seconds' perSecond : Float} {timeLimit timeLimit' : Entry} {speed : Speed}
    (nonneg : 0 ≤ n) (grows : n ≤ n') (finite : n'.isFinite = true)
    (nonneg' : 0 ≤ m) (grows' : m ≤ m') (finite' : m'.isFinite = true)
    (limit : timeLimit.double? = .ok (some seconds)) (limit' : timeLimit'.double? = .ok (some seconds'))
    (limit_nonneg : 0 ≤ seconds') (shrinks : seconds' ≤ seconds) (limit_finite : seconds.isFinite = true)
    (rate : speed.perSecond = .ok perSecond) (rate_nonneg : 0 ≤ perSecond)
    (rate_finite : perSecond.isFinite = true) :
    ∃ small large,
      Assessment.ofPreset math preset.id [("N", .double n), ("M", .double m)] timeLimit speed = .ok small ∧
      Assessment.ofPreset math preset.id [("N", .double n'), ("M", .double m')] timeLimit' speed = .ok large ∧
      small.verdict.rank ≤ large.verdict.rank := by
  have size : Within n n' := ⟨nonneg, grows, finite⟩
  have size' : Within m m' := ⟨nonneg', grows', finite'⟩
  have time : Within seconds' seconds := ⟨limit_nonneg, shrinks, limit_finite⟩
  have speeds : Within perSecond perSecond := ⟨rate_nonneg, le_refl_of_nonneg rate_nonneg, rate_finite⟩
  obtain ⟨count, counted⟩ := preset.cost_ok math n m
  obtain ⟨count', counted'⟩ := preset.cost_ok math n' m'
  refine ⟨_, _,
    Assessment.ofPreset_doubles size.isFinite_left nonneg size'.isFinite_left nonneg' counted limit rate,
    Assessment.ofPreset_doubles finite size.nonneg_right finite' size'.nonneg_right counted' limit' rate, ?_⟩
  have same : usable seconds = seconds := usable_of_nonneg limit_finite time.nonneg_right
  have same' : usable seconds' = seconds' := usable_of_nonneg time.isFinite_left limit_nonneg
  have counts := Preset.charged_mono increasing size size' counted counted'
  have budget_nonneg := nonneg_mul_of_isFinite time.isFinite_left limit_nonneg rate_finite rate_nonneg
  simp only [same, same']
  exact Verdict.rank_mono (nonneg_charged count) counts budget_nonneg (time.mul_le speeds)

/-- The functions at the powers of two named here, each with the value there also up to the next of them. -/
def Elementary.steps : Elementary where
  log2 x := if 1024 ≤ x then 10 else 1
  pow x _ := if 1024 ≤ x then 1048576 else if 2 ≤ x then 4 else 1

theorem Elementary.increasing_steps : steps.Increasing where
  log2_pos _ _ := by
    unfold steps
    dsimp only
    split <;> decide
  log2_finite _ _ := by
    unfold steps
    dsimp only
    split <;> decide
  log2_mono {x y} finite large grows := by
    have reached (first : 1024 ≤ x) : 1024 ≤ y := le_trans_of_nonneg (by decide) first grows
    by_cases first : 1024 ≤ x
    · simp only [steps, first, reached first, if_true]
      decide
    · simp only [steps, first, if_false]
      split <;> decide
  pow_nonneg _ _ _ := by
    unfold steps
    dsimp only
    split
    · decide
    · split <;> decide
  one_pow _ := by
    have none : ¬ (1024 : Float) ≤ 1 := by decide
    have none' : ¬ (2 : Float) ≤ 1 := by decide
    simp only [steps, none, none', if_false]
  pow_mono_base {x y _} _ grows _ _ _ := by
    have reached (first : 1024 ≤ x) : 1024 ≤ y := le_trans_of_nonneg (by decide) first grows
    have reached' (second : 2 ≤ x) : 2 ≤ y := le_trans_of_nonneg (by decide) second grows
    by_cases first : 1024 ≤ x
    · simp only [steps, first, reached first, if_true]
      decide
    by_cases second : 2 ≤ x
    · simp only [steps, first, second, reached' second, if_true, if_false]
      split <;> decide
    · simp only [steps, first, second, if_false]
      split
      · decide
      · split <;> decide
  pow_mono_exponent _ _ _ _ _ := by
    unfold steps
    dsimp only
    split
    · decide
    · split <;> decide

theorem squareLog_of_larger :
    Elementary.steps.Increasing ∧ (0 : Float) ≤ 1 ∧ (1 : Float) ≤ 1 ∧ (1 : Float) ≤ 2 ∧ (0 : Float) ≤ 2 ∧
    (2 : Float) ≤ 1024 ∧ (0 : Float) ≤ 100000000 ∧ (1 : Float).isFinite = true ∧ (2 : Float).isFinite = true ∧
    (1024 : Float).isFinite = true ∧ (100000000 : Float).isFinite = true ∧
    ∃ small large,
      Assessment.ofPreset .steps Preset.squareLog.id [("N", .double 2), ("M", .double 1)] (.double 2)
        (.double 100000000) = .ok small ∧
      Assessment.ofPreset .steps Preset.squareLog.id [("N", .double 1024), ("M", .double 1)] (.double 1)
        (.double 100000000) = .ok large ∧
      small.verdict.rank ≤ large.verdict.rank := by
  refine ⟨Elementary.increasing_steps, by decide, by decide, by decide, by decide, by decide, by decide, by decide,
    by decide, by decide, by decide, ?_⟩
  exact verdict_mono Elementary.increasing_steps .squareLog (by decide) (by decide) (by decide) (by decide) (by decide)
    (by decide) rfl rfl (by decide) (by decide) (by decide) rfl (by decide) (by decide)

end LoopCost
