import LoopCost.CommandLine.Event
import LoopCost.CommandLine.Inputs
import LoopCost.CommandLine.Request
import LoopCost.Report.Log
import LoopCost.Settings

/-! Running a command. The settings come from the environment, the source from a file or from standard input;
what is printed and the exit code are a function of both, unless the run ends without a result. -/

namespace LoopCost

/-- What a finished run leaves: its exit code and what it printed. -/
structure Result where
  exit : Nat
  events : List Event

namespace Result

def done (events : List Event) : Result := { exit := 0, events }

def failed (message : String) : Result := { exit := 1, events := [.fault message] }

end Result

/-- The estimate and its verdict, laid out for reading. -/
def reportEvents (math : Elementary) (settings : Settings) (size timeLimit : Option Float) (report : Report) :
    Except Fault (List Event) := do
  let n := (size.map Entry.double).getD settings.size
  let limit := timeLimit.getD settings.timeLimit
  let assessment ← Assessment.ofReport math report n (.double limit) (.double settings.speed)
  let count ← n.double?
  let verdict := assessment.verdict
  let lines := [
    "[bold " ++ verdict.style ++ "]" ++ verdict.marker ++ ": " ++ verdict.label ++ "[/bold " ++ verdict.style ++ "]",
    "N = " ++ countText (count.getD 0) ++ " | Time limit: " ++ briefText limit ++ "s",
    assessment.summary]
  let preset :=
    match Preset.ofDepths? report.linear report.log with
    | some preset => if report.loops = 0 then [] else ["Preset: " ++ preset.id ++ " " ++ preset.label]
    | none => []
  return [
    .properties ("Estimated: [bold cyan]" ++ report.expression ++ "[/bold cyan]") [
      ["Loops", toString report.loops],
      ["Linear depth", toString report.linear],
      ["Log depth", toString report.log],
      ["Sort calls", toString report.sorts]],
    .panel (String.intercalate "\n" (lines ++ preset)) "Feasibility" verdict.style,
    .text ("[dim]" ++ report.note ++ "[/dim]")]

/-- The names and values of assignments, each trimmed. The value starts after the first equals sign. -/
def assignmentsOf : List String → Except String (Named Entry)
  | pairs => do
    let named ← pairs.mapM fun pair =>
      let name := Unicode.trim (pair.toList.takeWhile (· != '='))
      match pair.toList.dropWhile (· != '='), name with
      | _ :: value, _ :: _ => .ok (String.ofList name, Entry.text (String.ofList (Unicode.trim value)))
      | _, _ => .error ("Expected NAME=VALUE, got " ++ quotedText pair)
    return Named.ofPairs named

def runCheck (math : Elementary) (settings : Settings) (preset : Preset) (assignments : List String)
    (timeLimit : Option Float) : Except Fault Result :=
  match assignmentsOf assignments with
  | .error message => .ok (.failed message)
  | .ok given => do
    let entries := if given.isEmpty then [("N", settings.size), ("M", settings.size)] else given
    let limit := Entry.double (timeLimit.getD settings.timeLimit)
    let assessment ← Assessment.ofPreset math preset.id entries limit (.double settings.speed)
    let verdict := assessment.verdict
    let sizes := entries.map fun (name, entry) =>
      ["Variable " ++ String.ofList (Unicode.upper (Unicode.trim name.toList)), entry.shown]
    return .done [
      .properties ("Feasibility: " ++ assessment.label) (sizes ++ [
        ["Estimated ops", countText assessment.count],
        ["Budget ops", countText assessment.budget],
        ["Verdict", "[" ++ verdict.style ++ "]" ++ verdict.label ++ "[/" ++ verdict.style ++ "]"]]),
      .text assessment.summary]

def presetTable : Event :=
  .table "Complexity Presets" [("ID", "cyan"), ("Label", "green")]
    (Preset.all.map fun preset => [preset.id, preset.label])

/-- `logging` adds the account of the analysis, which comes first. -/
def runAnalyze (math : Elementary) (settings : Settings) (logging json showSource : Bool)
    (size timeLimit : Option Float) (source : List Char) : Except Fault Result :=
  let analysis := Analysis.ofSource (settings.sortNames.map String.toList) source
  let account := if logging then analysis.log.map Event.log else []
  if json then .ok (.done (account ++ [.stdout analysis.report.json]))
  else do
    let events ← reportEvents math settings size timeLimit analysis.report
    let shown := if showSource then [.source (String.ofList source), .text ""] else []
    return .done (account ++ shown ++ events)

namespace Request

/-- Runs a request. Only a fault of the system is reported as a source that cannot be read. -/
def run (math : Elementary) (inputs : Inputs) (environment : Named String) (logging : Bool) (request : Request) :
    Except Escape Result :=
  match Settings.ofEnvironment environment with
  | .error fault => .ok (.failed fault.message)
  | .ok settings =>
    match request.command with
    | .analyze path json showSource size timeLimit =>
      match inputs.text path with
      | .error escape => .error escape
      | .ok (.error message) => .ok (.failed ("Cannot read " ++ path ++ ": " ++ message))
      | .ok (.ok text) =>
        (runAnalyze math settings logging json showSource size timeLimit text).mapError .computation
    | .check preset assignments timeLimit =>
      (runCheck math settings preset assignments timeLimit).mapError .computation
    | .presets => .ok (.done [presetTable])

end Request

/-- One run among several in a row. The account of analyses is switched on for good by the first request for
it that is accepted. A command line that makes no request is not run. -/
def runLine (math : Elementary) (inputs : Inputs) (environment : Named String) (logging : Bool)
    (words : List String) : Option (Except Escape Result) × Bool :=
  match Request.ofWords? (words.map String.toList) with
  | none => (none, logging)
  | some request =>
    let logging := logging || request.verbose
    (some (request.run math inputs environment logging), logging)

end LoopCost
