import LoopCost.Proofs.Fault
import LoopCost.Proofs.Nearest
import LoopCost.Proofs.Sign

/-! The class that stands beside a report costs what the report is judged by. The classes have their formulas one by one,
while a report is judged by a power of the size times a power of its logarithm. The two agree bit for bit: the first power
of a double is this double, whatever its sign and also if it is no number, and the power with exponent zero is one, a
factor that changes nothing. -/

namespace LoopCost

open Float.Model
open Float.Model.UnpackedFloat hiding unpack infinity

theorem isOdd_one : isOdd 1 = true := by decide +kernel

theorem one_times (x : Float) : 1 * x = x := by rw [times_comm, times_one]

section Powers

variable {math : Elementary} (pow_one : ∀ x : Float, 0 ≤ x → math.pow x 1 = x)

include pow_one

theorem finitePower_one {x : Float} (number : ¬ x.isNaN = true) (inside : ¬ x.isInf = true) (nonzero : ¬ (x == 0) = true) :
    finitePower math x 1 = x := by
  change ¬ (unpack x).isNaN = true at number
  change ¬ (unpack x).isInf = true at inside
  rw [beq_zero_iff] at nonzero
  cases value : unpack x with
  | notANumber => exact absurd (value ▸ rfl) number
  | infinity => exact absurd (value ▸ rfl) inside
  | zero sign => exact absurd ⟨sign, value⟩ nonzero
  | finite sign mantissa exponent positive =>
    have canonical := canonical_of_unpack value
    have size : unpack x.abs = .finite .positive mantissa exponent positive := by
      change stored (unpack x).abs = _
      rw [value]
      exact stored_of_canonical canonical
    have nonneg : 0 ≤ x.abs := nonneg_iff.mpr (size ▸ .finite mantissa exponent positive)
    have inside : x.abs.isInf = false := by
      change (unpack x.abs).isInf = false
      rw [size]
      rfl
    have first : (if x.abs == 1 then 1 else math.pow x.abs 1) = x.abs := by
      split
      next same => exact (eq_one_of_beq same).symm
      next => exact pow_one x.abs nonneg
    unfold finitePower
    simp only [first, inside, isOdd_one]
    cases sign with
    | negative =>
      have below : x < 0 := by
        rw [lt_iff_unpack, value]
        rfl
      simp only [below, if_true, Bool.false_eq_true, if_false]
      rw [← unpack_inj]
      change stored (unpack x.abs).neg = _
      rw [size, value]
      exact stored_of_canonical canonical
    | positive =>
      have above : 0 ≤ x := nonneg_iff.mpr (value ▸ .finite mantissa exponent positive)
      simp only [not_neg_of_nonneg above, if_false, Bool.false_eq_true]
      rw [← unpack_inj, size, value]

/-- The first power is the number itself, also if it is none. -/
theorem power_one (x : Float) : power math x 1 = .ok x := by
  have unit : ((1 : Float) == 0) = false := by decide
  have number : (1 : Float).isNaN = false := by decide
  have inside : (1 : Float).isInf = false := by decide
  have above : ¬ (1 : Float) < 0 := by decide
  have above' : 0 < (1 : Float) := by decide
  unfold power
  simp only [unit, number, inside, above, isOdd_one, infinitePower, Bool.false_eq_true, if_false, if_true, above']
  split
  · rfl
  split
  · rfl
  split
  · rfl
  next number inside nonzero => rw [finitePower_one pow_one number inside nonzero]

end Powers

theorem power_zero (math : Elementary) (x : Float) : power math x 0 = .ok 1 := rfl

theorem ofInteger?_natCast {n : ℕ} (small : n < doubleBound) : ofInteger? n = some (Float.ofNat n) := by
  have above : ¬ (n : ℤ) < 0 := Int.not_lt.mpr (Int.natCast_nonneg n)
  unfold ofInteger?
  simp only [Int.natAbs_natCast, ge_iff_le, Nat.not_le.mpr small, above, if_false]

theorem powerOfEntries_natCast (math : Elementary) (base : Float) {n : ℕ} (small : n < doubleBound) :
    powerOfEntries math (.double base) (.integer n) = power math base (Float.ofNat n) := by
  have read : (Entry.integer n).double? = .ok (some (Float.ofNat n)) := by
    dsimp only [Entry.double?]
    rw [ofInteger?_natCast small]
  unfold powerOfEntries
  rw [read]
  rfl

theorem Preset.depths_of_ofDepths? {linear log : Int} {preset : Preset} (found : ofDepths? linear log = some preset) :
    ∃ n g : ℕ, preset.depths? = some (n, g) ∧ linear = n ∧ log = g := by
  have fits := List.find?_some found
  cases depths : preset.depths? with
  | none =>
    rw [depths] at fits
    cases fits
  | some pair =>
    obtain ⟨n, g⟩ := pair
    rw [depths] at fits
    simp only [Option.any_some, Bool.and_eq_true, beq_iff_eq] at fits
    exact ⟨n, g, rfl, fits.1.symm, fits.2.symm⟩

/-- An entry that can be read is judged by powers of the double it comes to. -/
theorem costOfDepths_eq (math : Elementary) {entry : Entry} {size : Float} (read : entry.amount = .ok size) {n g : ℕ}
    (small : n < doubleBound) (small' : g < doubleBound) :
    costOfDepths math n g entry = (power math size (Float.ofNat n) >>= fun lines =>
      power math (logSize math size) (Float.ofNat g) >>= fun logs => .ok (lines * logs)) := by
  unfold costOfDepths
  simp only [read, powerOfEntries_natCast math _ small, powerOfEntries_natCast math _ small']
  rfl

/-- The formulas of the classes that stand for depths. -/
theorem powers_eq_cost {math : Elementary} (pow_one : ∀ x : Float, 0 ≤ x → math.pow x 1 = x) {preset : Preset} {n g : ℕ}
    (depths : preset.depths? = some (n, g)) (size m : Float) :
    (power math size (Float.ofNat n) >>= fun lines =>
      power math (logSize math size) (Float.ofNat g) >>= fun logs => .ok (lines * logs)) = preset.cost math size m := by
  have none (x : Float) : power math x (Float.ofNat 0) = .ok 1 := power_zero math x
  have same (x : Float) : power math x (Float.ofNat 1) = .ok x := power_one pow_one x
  have alone (lines : Except Fault Float) :
      (lines >>= fun lines => Except.ok 1 >>= fun logs => .ok (lines * logs)) = lines := by
    cases lines with
    | error fault => rfl
    | ok lines => exact congrArg Except.ok (times_one lines)
  cases preset with
  | sqrt | linearSqrt | exponential | linearExponential | factorial | product | productLog => cases depths
  | constant =>
    cases depths
    rw [none, none, alone]
    rfl
  | log =>
    cases depths
    rw [none, same]
    exact congrArg Except.ok (one_times _)
  | linear =>
    cases depths
    rw [same, none, alone]
    rfl
  | linearLog =>
    cases depths
    rw [same, same]
    rfl
  | square | cube =>
    cases depths
    rw [none, alone]
    rfl
  | squareLog =>
    cases depths
    rw [same]
    exact bind_pure_comp _ _

/-- A class that depths are found to stand for costs what these depths cost, at every entry that can be read. -/
theorem evaluate_of_depths {math : Elementary} (pow_one : ∀ x : Float, 0 ≤ x → math.pow x 1 = x) {linear log : Int}
    {preset : Preset} (found : Preset.ofDepths? linear log = some preset) {entry : Entry} {size : Float}
    (read : entry.amount = .ok size) :
    ∃ count, preset.evaluate math [("N", entry)] = .ok count ∧ costOfDepths math linear log entry = .ok count := by
  obtain ⟨n, g, depths, rfl, rfl⟩ := Preset.depths_of_ofDepths? found
  have few : n ≤ 3 ∧ g ≤ 3 := by cases preset <;> cases depths <;> decide
  have room : 3 < doubleBound := by decide +kernel
  obtain ⟨count, counted⟩ := preset.cost_ok math size 0
  refine ⟨count, ?_, ?_⟩
  · have looked : amountOf [("N", entry)] "N" = .ok size := read
    rw [← counted, Preset.evaluate, looked]
    cases preset <;> cases depths <;> rfl
  · rw [costOfDepths_eq math read (few.1.trans_lt room) (few.2.trans_lt room), powers_eq_cost pow_one depths size 0, counted]

def Elementary.squares : Elementary where
  log2 x := if x == 1024 then 10 else 1
  pow x y := if y == 2 then x * x else x

theorem squareLog_of_depths : (∀ x : Float, 0 ≤ x → Elementary.squares.pow x 1 = x) ∧
    Preset.ofDepths? 2 1 = some .squareLog ∧ (Entry.double 1024).amount = .ok 1024 ∧
    ∃ count, Preset.squareLog.evaluate .squares [("N", .double 1024)] = .ok count ∧
      costOfDepths .squares 2 1 (.double 1024) = .ok count := by
  have pow_one (x : Float) (_ : 0 ≤ x) : Elementary.squares.pow x 1 = x := by
    have other : ((1 : Float) == 2) = false := by decide
    simp only [Elementary.squares, other, Bool.false_eq_true, if_false]
  have found : Preset.ofDepths? 2 1 = some .squareLog := by decide
  have read : (Entry.double 1024).amount = .ok 1024 := by
    have kept : usable 1024 = 1024 := if_pos (by decide)
    exact congrArg Except.ok kept
  exact ⟨pow_one, found, read, evaluate_of_depths pow_one found read⟩

end LoopCost
