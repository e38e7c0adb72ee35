import LoopCost.CommandLine.Plain
import LoopCost.CommandLine.Run

/-! The program: reads the environment and the source, runs one request and prints what it has to say. -/

namespace LoopCost

def readEnvironment : IO (Named String) :=
  [Settings.sortNamesKey, Settings.timeLimitKey, Settings.speedKey, Settings.sizeKey].filterMapM fun key => do
    return (← IO.getEnv key).map fun value => (key, value)

def faultOf : IO.Error → ReadFault
  | .noFileOrDirectory .. => { code := 2, reason := "No such file or directory" }
  | .inappropriateType _ code _ =>
    { code := code.toNat, reason := if code = 21 then "Is a directory" else "Not a directory" }
  | .permissionDenied .. => { code := 13, reason := "Permission denied" }
  | other => { code := 5, reason := toString other }

def readStream (bytes : IO ByteArray) : IO Stream := do
  try
    return .ok (← bytes).toList
  catch fault =>
    return .error (faultOf fault)

/-- A folder opens here, and counts as a file that does not. -/
def openFile (path : String) : IO (Except ReadFault Stream) := do
  try
    let handle ← IO.FS.Handle.mk path .read
    match ← readStream handle.readBinToEnd with
    | .error fault => return if fault.code = 21 then .error fault else .ok (.error fault)
    | .ok bytes => return .ok (.ok bytes)
  catch fault =>
    return .error (faultOf fault)

/-- Reads ahead what a request asks for, and nothing else. -/
def readInputs (request : Request) : IO Inputs := do
  let closed : ReadFault := { code := 9, reason := "Bad file descriptor" }
  match request.command with
  | .analyze "-" .. =>
    let stdin ← readStream (do (← IO.getStdin).readBinToEnd)
    return { stdin, openFile := fun _ => .error closed }
  | .analyze path .. =>
    let file ← openFile (String.ofList (plainPath path.toList))
    return { stdin := .error closed, openFile := fun _ => file }
  | _ => return { stdin := .error closed, openFile := fun _ => .error closed }

def usage : String :=
  "usage: loopcost [-v] analyze [--json] [--show-source] [-n N] [-t SECONDS] PATH\n" ++
  "       loopcost [-v] check -p PRESET [--var NAME=VALUE] [-t SECONDS]\n" ++
  "       loopcost [-v] presets"

end LoopCost

open LoopCost in
def main (words : List String) : IO UInt32 := do
  match Request.ofWords? (words.map String.toList) with
  | none =>
    IO.eprintln usage
    return 2
  | some request =>
    let inputs ← readInputs request
    match request.run .native inputs (← readEnvironment) request.verbose with
    | .error escape =>
      IO.eprintln escape.message
      return 1
    | .ok result =>
      for event in result.events do
        for line in event.lines do
          IO.println line
      return result.exit.toUInt32
