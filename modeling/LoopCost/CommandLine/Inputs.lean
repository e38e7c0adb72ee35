import LoopCost.Cost.Entry
import LoopCost.Text.Decoding

/-! Reading a source by its path. A path is first made plain: empty parts and single dots go, two dots stay. What
files there are is up to the system. The bytes of a file are decoded leniently, those of standard input strictly. -/

namespace LoopCost

/-- Why the system does not open or read a file, with the number of the cause. -/
structure ReadFault where
  code : Nat
  reason : String
  deriving DecidableEq

def ReadFault.message (fault : ReadFault) : String := "[Errno " ++ toString fault.code ++ "] " ++ fault.reason

/-- What comes from a file that is open: its bytes to the end, or a fault. -/
abbrev Stream := Except ReadFault (List UInt8)

/-- What a run can read. Files are opened by plain paths. -/
structure Inputs where
  stdin : Stream
  openFile : List Char → Except ReadFault Stream

def pathParts (path : List Char) : List (List Char) :=
  (path.splitOn '/').filter fun part => !part.isEmpty && part != ['.']

/-- What a plain path starts with: nothing, one slash, or exactly two. -/
def pathRoot (path : List Char) : List Char :=
  match path.takeWhile (· == '/') with
  | [] => []
  | ['/', '/'] => ['/', '/']
  | _ => ['/']

def plainPath (path : List Char) : List Char :=
  match pathRoot path ++ List.intercalate ['/'] (pathParts path) with
  | [] => ['.']
  | plain => plain

/-- What ends a run before it has a result. No command handles it. -/
inductive Escape
  | computation (fault : Fault)
  | undecodable (fault : DecodeFault)
  | nulInPath

def Escape.message : Escape → String
  | computation fault => fault.message
  | undecodable fault => fault.message
  | nulInPath => "embedded null byte"

namespace Inputs

/-- The text of standard input, or why the system does not give it. -/
def stdinText (inputs : Inputs) : Except Escape (Except String (List Char)) :=
  match inputs.stdin with
  | .error fault => .ok (.error fault.message)
  | .ok bytes =>
    match decodeStrict bytes with
    | .error fault => .error (.undecodable fault)
    | .ok text => .ok (.ok text)

/-- The text of a file, or why the system does not give it. A file that cannot be opened is named. -/
def fileText (inputs : Inputs) (path : List Char) : Except Escape (Except String (List Char)) :=
  if path.contains '\x00' then .error .nulInPath
  else match inputs.openFile (plainPath path) with
    | .error fault => .ok (.error (fault.message ++ ": " ++ String.ofList (quoted (plainPath path))))
    | .ok stream => .ok ((stream.mapError ReadFault.message).map decode)

/-- The text at a path, where a dash alone is standard input. -/
def text (inputs : Inputs) (path : String) : Except Escape (Except String (List Char)) :=
  if path = "-" then inputs.stdinText else inputs.fileText path.toList

end Inputs

end LoopCost
