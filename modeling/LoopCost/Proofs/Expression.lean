import LoopCost.Cost.Assessment
import Mathlib.Data.List.TakeWhile
import Mathlib.Logic.Function.Defs

/-! An expression names its two depths. Three places decide what a program that sorts and has no loop is taken for: the
expression of its report, the depths that the report is judged by, and the one expression that stands for both. They
agree, so that what is printed and what is judged are the same depths. -/

namespace LoopCost

def exponent (depth : Nat) : List Char :=
  if depth = 1 then [] else '^' :: Nat.toDigits 10 depth

theorem exponent_injective : Function.Injective exponent := by
  intro first second same
  unfold exponent at same
  split at same <;> split at same
  · omega
  · cases same
  · cases same
  · have digits := congrArg (Nat.ofDigitChars 10 · 0) (List.tail_eq_of_cons_eq same)
    simpa only [Nat.ofDigitChars_ten_toDigits] using digits

def isExponentMark (c : Char) : Bool := c == '^' || c.isDigit

theorem exponent_marks (depth : Nat) : ∀ c ∈ exponent depth, isExponentMark c = true := by
  intro c member
  unfold exponent at member
  split at member
  · cases member
  · rcases List.mem_cons.mp member with rfl | digit
    · rfl
    · have digit := Nat.isDigit_of_mem_toDigits (by decide) (by decide) digit
      rw [isExponentMark, digit, Bool.or_true]

/-- An exponent ends where the first character follows that is none of its marks. -/
theorem exponent_append_inj {first second : Nat} {rest rest' : List Char}
    (ends : ∀ c ∈ rest.head?, isExponentMark c = false) (ends' : ∀ c ∈ rest'.head?, isExponentMark c = false)
    (same : exponent first ++ rest = exponent second ++ rest') : first = second ∧ rest = rest' := by
  have alone (depth : Nat) {rest : List Char} (ends : ∀ c ∈ rest.head?, isExponentMark c = false) :
      (exponent depth ++ rest).takeWhile isExponentMark = exponent depth := by
    rw [List.takeWhile_append_of_pos (exponent_marks depth)]
    cases rest with
    | nil => rw [List.takeWhile_nil, List.append_nil]
    | cons stop rest => rw [List.takeWhile_cons_of_neg (by simp [ends stop rfl]), List.append_nil]
  have taken := congrArg (List.takeWhile isExponentMark) same
  rw [alone first ends, alone second ends'] at taken
  rw [taken] at same
  exact ⟨exponent_injective taken, List.append_cancel_left same⟩

theorem toString_natCast (depth : Nat) : toString (depth : Int) = String.ofList (Nat.toDigits 10 depth) := rfl

theorem linearFactor_succ (depth : Nat) :
    linearFactor (depth + 1 : Nat) = [String.ofList ("N".toList ++ exponent (depth + 1))] := by
  unfold linearFactor exponent
  rw [if_neg (by omega)]
  by_cases one : depth + 1 = 1
  · rw [if_pos one, if_pos (by omega)]
    rfl
  · rw [if_neg one, if_neg (by omega), toString_natCast]
    simp [← String.toList_inj]

theorem logFactor_succ (depth : Nat) :
    logFactor (depth + 1 : Nat) = [String.ofList ("log".toList ++ exponent (depth + 1) ++ " N".toList)] := by
  unfold logFactor exponent
  rw [if_neg (by omega)]
  by_cases one : depth + 1 = 1
  · rw [if_pos one, if_pos (by omega)]
    rfl
  · rw [if_neg one, if_neg (by omega), toString_natCast]
    simp [← String.toList_inj]

def behindLinear : Nat → List Char
  | 0 => ")".toList
  | log + 1 => " × log".toList ++ (exponent (log + 1) ++ " N)".toList)

def spelling : Nat → Nat → List Char
  | 0, 0 => "O(1)".toList
  | 0, log + 1 => "O(log".toList ++ (exponent (log + 1) ++ " N)".toList)
  | linear + 1, log => "O(N".toList ++ (exponent (linear + 1) ++ behindLinear log)

theorem toList_expression (linear log : Nat) : (expression linear log).toList = spelling linear log := by
  match linear, log with
  | 0, 0 => rfl
  | 0, log + 1 =>
    rw [expression, logFactor_succ]
    simp [linearFactor, spelling]
  | linear + 1, 0 =>
    rw [expression, linearFactor_succ]
    simp [logFactor, spelling, behindLinear]
  | linear + 1, log + 1 =>
    rw [expression, linearFactor_succ, logFactor_succ]
    simp [spelling, behindLinear]

private theorem log_ends : ∀ c ∈ " N)".toList.head?, isExponentMark c = false := by
  simp [isExponentMark]

theorem behindLinear_ends (log : Nat) : ∀ c ∈ (behindLinear log).head?, isExponentMark c = false := by
  cases log <;> simp [behindLinear, isExponentMark]

theorem behindLinear_injective : Function.Injective behindLinear := by
  intro first second same
  match first, second with
  | 0, 0 => rfl
  | 0, _ + 1 | _ + 1, 0 => simp [behindLinear] at same
  | first + 1, second + 1 => exact (exponent_append_inj log_ends log_ends (List.append_cancel_left same)).1

theorem expression_injective : Function.Injective fun depths : Nat × Nat => expression depths.1 depths.2 := by
  rintro ⟨linear, log⟩ ⟨linear', log'⟩ same
  have same : spelling linear log = spelling linear' log' := by
    rw [← toList_expression, ← toList_expression]
    exact congrArg String.toList same
  match linear, log, linear', log' with
  | 0, 0, 0, 0 => rfl
  | 0, log + 1, 0, log' + 1 =>
    rw [(exponent_append_inj log_ends log_ends (List.append_cancel_left same)).1]
  | linear + 1, log, linear' + 1, log' =>
    have ends := behindLinear_ends
    obtain ⟨same, behind⟩ := exponent_append_inj (ends log) (ends log') (List.append_cancel_left same)
    rw [same, behindLinear_injective behind]
  | 0, 0, 0, _ + 1 | 0, 0, _ + 1, _ | 0, _ + 1, 0, 0 | 0, _ + 1, _ + 1, _ | _ + 1, _, 0, 0 | _ + 1, _, 0, _ + 1 =>
    simp [spelling] at same

/-- A report is judged by the depths that its expression names, and no other depths have this expression. -/
theorem judged_as_printed (sortNames : List Name) (source : List Char) :
    let report := (Analysis.ofSource sortNames source).report
    (∃ linear log : Nat, report.depths = ((linear : Int), (log : Int)) ∧ report.expression = expression linear log ∧
      (∀ math n timeLimit speed, Assessment.ofReport math report n timeLimit speed =
        costOfDepths math linear log n >>= fun count => Assessment.judge (expression linear log) count timeLimit speed) ∧
      ∀ depths : Nat × Nat, expression depths.1 depths.2 = report.expression ↔ depths = (linear, log)) ∧
    Function.Injective fun depths : Nat × Nat => expression depths.1 depths.2 := by
  intro report
  refine ⟨?_, expression_injective⟩
  suffices ∃ linear log : Nat, report.depths = ((linear : Int), (log : Int)) ∧ report.expression = expression linear log by
    obtain ⟨linear, log, depths, printed⟩ := this
    refine ⟨linear, log, depths, printed, ?_, ?_⟩
    · intro math n timeLimit speed
      rw [Assessment.ofReport, depths, printed]
    · intro other
      rw [printed]
      exact expression_injective.eq_iff (b := (linear, log))
  -- The report holds integers, so that the two places ask the same of different numbers.
  have asked : report.loops = 0 ∧ report.sorts > 0 ↔
      (scan (mask source)).metrics.loops = 0 ∧ callCount sortNames (mask source) > 0 :=
    and_congr Int.natCast_eq_zero Int.natCast_pos
  by_cases sorted : (scan (mask source)).metrics.loops = 0 ∧ callCount sortNames (mask source) > 0
  · exact ⟨1, 1, if_pos (asked.mpr sorted), if_pos sorted⟩
  · exact ⟨_, _, if_neg (sorted ∘ asked.mp), if_neg sorted⟩

end LoopCost
