import LoopCost.Cost.Assessment

/-! Settings that an environment may change: the names of routines that sort, and the numbers that estimates
are judged by. A variable that is missing or blank leaves its default. -/

namespace LoopCost

structure Settings where
  sortNames : List String := defaultSortNames
  timeLimit : Float := 2
  speed : Float := 100000000
  size : Entry := .integer 200000

namespace Settings

def sortNamesKey : String := "BIGOLENS_SORT_CALLS"

def timeLimitKey : String := "BIGOLENS_TIME_LIMIT"

def speedKey : String := "BIGOLENS_OPS_PER_SECOND"

def sizeKey : String := "BIGOLENS_DEFAULT_N"

/-- The parts of a text between commas, trimmed, without the blank ones. -/
def listed (text : List Char) : List String :=
  (text.splitOn ',').filterMap fun part =>
    match Unicode.trim part with
    | [] => none
    | letters => some (String.ofList letters)

def numberOf? (environment : Named String) (name : String) : Except Fault (Option Float) :=
  match environment.lookup name with
  | none => .ok none
  | some value =>
    if Unicode.isBlankText value.toList then .ok none
    else match doubleOfText? value.toList with
      | some x => .ok (some x)
      | none => .error (.notANumber name value)

def ofEnvironment (environment : Named String) : Except Fault Settings := do
  let defaults : Settings := {}
  let timeLimit ← numberOf? environment timeLimitKey
  let speed ← numberOf? environment speedKey
  let size ← numberOf? environment sizeKey
  return {
    sortNames :=
      match environment.lookup sortNamesKey with
      | some value => listed value.toList
      | none => defaults.sortNames
    timeLimit := timeLimit.getD defaults.timeLimit
    speed := speed.getD defaults.speed
    size := (size.map Entry.double).getD defaults.size }

end Settings

end LoopCost
