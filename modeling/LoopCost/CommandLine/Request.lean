import LoopCost.CommandLine.Token
import LoopCost.Cost.Preset

/-! What a command line asks for. A command line is accepted as a whole or rejected as a whole: an unknown
option, a value that is missing or cannot be read, and a word too many all reject it. One that asks for help makes
no request either. -/

namespace LoopCost

inductive Command
  | analyze (path : String) (json showSource : Bool) (size timeLimit : Option Float)
  | check (preset : Preset) (assignments : List String) (timeLimit : Option Float)
  | presets

structure Request where
  verbose : Bool
  command : Command

/-- What the words of one command have given so far. -/
structure Given where
  path : Option (List Char) := none
  json : Bool := false
  showSource : Bool := false
  size : Option Float := none
  timeLimit : Option Float := none
  preset : Option Preset := none
  /-- Latest first. -/
  assignments : List String := []

namespace Given

/-- An option that is repeated takes the last value; assignments add up. -/
def set? (given : Given) (switch : Switch) (value : List Char) : Option Given :=
  match switch with
  | .help => none
  | .json => some { given with json := true }
  | .showSource => some { given with showSource := true }
  | .size => (doubleOfText? value).map fun size => { given with size := some size }
  | .timeLimit => (doubleOfText? value).map fun limit => { given with timeLimit := some limit }
  | .preset => (Preset.ofId? (String.ofList value)).map fun preset => { given with preset := some preset }
  | .assign => some { given with assignments := String.ofList value :: given.assignments }

/-- Only one word may stand for itself, as the path. -/
def setPath? (given : Given) (path : List Char) : Option Given :=
  match given.path with
  | none => some { given with path := some path }
  | some _ => none

/-- Reads the tokens of a command. Two dashes may stand before the path or right after it. -/
def read? (allowsPath : Bool) (given : Given) : List Token → Option Given
  | [] => some given
  | .unknown :: _ => none
  | .switch switch (some value) :: rest =>
    if switch.takesValue then (given.set? switch value).bind (·.read? allowsPath rest) else none
  | .switch switch none :: rest =>
    if switch.takesValue then
      match rest with
      | .plain value :: later => (given.set? switch value).bind (·.read? allowsPath later)
      | _ => none
    else (given.set? switch []).bind (·.read? allowsPath rest)
  | .plain path :: .ending :: rest =>
    if allowsPath then (given.setPath? path).bind (·.read? allowsPath rest) else none
  | .plain path :: rest => if allowsPath then (given.setPath? path).bind (·.read? allowsPath rest) else none
  | .ending :: .plain path :: rest =>
    if allowsPath then (given.setPath? path).bind (·.read? allowsPath rest) else none
  | .ending :: _ => none

end Given

namespace Command

def ofAnalyze? (words : List (List Char)) : Option Command := do
  let given ← ({} : Given).read? true (Token.ofWords analyzeSwitches words)
  let path ← given.path
  return analyze (String.ofList path) given.json given.showSource given.size given.timeLimit

def ofCheck? (words : List (List Char)) : Option Command := do
  let given ← ({} : Given).read? false (Token.ofWords checkSwitches words)
  let preset ← given.preset
  return check preset given.assignments.reverse given.timeLimit

def ofPresets? (words : List (List Char)) : Option Command := if words.isEmpty then some presets else none

def ofWords? : List (List Char) → Option Command
  | [] => none
  | name :: words =>
    if name = "analyze".toList then ofAnalyze? words
    else if name = "check".toList then ofCheck? words
    else if name = "presets".toList then ofPresets? words
    else none

end Command

namespace Request

/-- The option for more output, in its long spelling, which may be cut short, or as a dash and any number of
letters `v`. -/
def isVerbose (word : List Char) : Bool :=
  match word with
  | '-' :: 'v' :: more => more.all (· == 'v')
  | '-' :: '-' :: letter :: more => (letter :: more).isPrefixOf "verbose".toList
  | _ => false

/-- Options of the program itself stand before the command. -/
def ofWords? (words : List (List Char)) : Option Request :=
  (Command.ofWords? (words.dropWhile isVerbose)).map fun command =>
    { verbose := words.head?.any isVerbose, command }

end Request

end LoopCost
