import LoopCost.Cost.Preset
import LoopCost.Number.Count
import LoopCost.Report.Basic

/-! Whether an operation count fits into a time limit. The limit in seconds times the operations per second
makes a budget; up to a tenth of it is safe, up to all of it is borderline. -/

namespace LoopCost

inductive Verdict
  | safe
  | borderline
  | exceeded
  deriving DecidableEq

namespace Verdict

def id : Verdict → String
  | safe => "safe"
  | borderline => "borderline"
  | exceeded => "unsafe"

def label : Verdict → String
  | safe => "comfortably within the limit"
  | borderline => "just within the limit"
  | exceeded => "exceeds the limit"

def marker : Verdict → String
  | safe => "OK"
  | borderline => "WARN"
  | exceeded => "NG"

/-- A budget that is no number is exceeded by every count. -/
def ofCount (count budget : Float) : Verdict :=
  if count ≤ budget * 0.1 then safe else if count ≤ budget then borderline else exceeded

end Verdict

/-- Operations per second. -/
inductive Speed
  | integer (value : Int)
  | double (value : Float)

def Speed.perSecond : Speed → Except Fault Float
  | integer value =>
    match ofInteger? value with
    | some x => .ok x
    | none => .error .integerTooLarge
  | double value => .ok value

structure Assessment where
  label : String
  count : Float
  budget : Float
  verdict : Verdict

namespace Assessment

def defaultTimeLimit : Entry := .double 2

def defaultSpeed : Speed := .integer 100000000

/-- A count that is negative or no number is taken for infinite. -/
def judge (label : String) (count : Float) (timeLimit : Entry) (speed : Speed) : Except Fault Assessment := do
  let count := if count.isFinite && !(count < 0) then count else infinity
  let seconds ← timeLimit.amount
  let perSecond ← speed.perSecond
  let budget := seconds * perSecond
  return { label, count, budget, verdict := .ofCount count budget }

/-- Judges a complexity class at the given sizes. -/
def ofPreset (math : Elementary) (id : String) (entries : Named Entry) (timeLimit : Entry) (speed : Speed) :
    Except Fault Assessment := do
  let preset ← Preset.find id
  let sizes ← normalized entries
  let count ← preset.evaluate math (sizes.map fun (name, size) => (name, .double size))
  judge preset.label count timeLimit speed

/-- Judges a report at the size `n`. -/
def ofReport (math : Elementary) (report : Report) (n timeLimit : Entry) (speed : Speed) :
    Except Fault Assessment := do
  let (linear, log) := report.depths
  let count ← costOfDepths math linear log n
  judge report.expression count timeLimit speed

def summary (assessment : Assessment) : String :=
  assessment.label ++ " -> ~" ++ countText assessment.count ++ " " ++ assessment.verdict.marker

end Assessment

def defaultUncheckedLabel : String := "O(N log N)"

def uncheckedSummary (label : String) : String := label ++ " unchecked"

end LoopCost
