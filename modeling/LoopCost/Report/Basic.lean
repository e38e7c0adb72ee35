import LoopCost.Report.CallCount
import LoopCost.Report.Expression
import LoopCost.Scan.State
import LoopCost.Source.Mask

/-! The estimate for a program text: nesting depths of its loops, calls that sort, and the Big-O expression
that follows from them. Nothing is run and nothing is rejected, so the estimate is advice and no proof. -/

namespace LoopCost

/-- Counts are integers because a report may also be handed in from outside. -/
structure Report where
  expression : String
  loops : Int
  linear : Int
  log : Int
  sorts : Int
  note : String

namespace Report

def disclaimer : String :=
  "Heuristic estimate only. Recursion and work hidden inside called functions are not analyzed."

def composeNote (loops sorts : Nat) : String :=
  let found :=
    if sorts = 0 then [] else ["Found " ++ toString sorts ++ " sort call(s), each O(N log N)."]
  let alone :=
    if sorts ≠ 0 ∧ loops = 0 then ["No loops detected, so the sort cost sets the estimate."] else []
  String.intercalate " " (found ++ alone ++ [disclaimer])

/-- The depths that a report is judged by: a sort counts as one linear and one logarithmic factor, but only
where there is no loop. -/
def depths (report : Report) : Int × Int :=
  if report.loops = 0 ∧ report.sorts > 0 then (1, 1) else (report.linear, report.log)

def summary (report : Report) : String :=
  report.expression ++ " | Loops: " ++ toString report.loops ++ " (linear depth " ++ toString report.linear ++
    ", log depth " ++ toString report.log ++ ") | Sort calls: " ++ toString report.sorts

end Report

def defaultSortNames : List String := ["sort", "stable_sort"]

/-- What is found in a program text. -/
structure Analysis where
  size : Nat
  outcome : Outcome
  sorts : Nat

namespace Analysis

def ofSource (sortNames : List Name) (source : List Char) : Analysis :=
  let code := mask source
  { size := code.length, outcome := scan code, sorts := callCount sortNames code }

def expression (analysis : Analysis) : String :=
  let metrics := analysis.outcome.metrics
  if metrics.loops = 0 ∧ analysis.sorts > 0 then sortExpression
  else LoopCost.expression metrics.linear metrics.log

def report (analysis : Analysis) : Report :=
  let metrics := analysis.outcome.metrics
  { expression := analysis.expression
    loops := metrics.loops
    linear := metrics.linear
    log := metrics.log
    sorts := analysis.sorts
    note := Report.composeNote metrics.loops analysis.sorts }

end Analysis

end LoopCost
