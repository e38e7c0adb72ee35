import LoopCost.Cost.Elementary
import LoopCost.Unicode.Blank
import LoopCost.Unicode.Uppercase

/-! Named complexity classes with their operation counts. A class looks up the sizes it needs, `N` and
sometimes `M`, and takes a size that is missing for zero. -/

namespace LoopCost

inductive Preset
  | constant
  | log
  | sqrt
  | linear
  | linearLog
  | linearSqrt
  | square
  | squareLog
  | cube
  | exponential
  | linearExponential
  | factorial
  | product
  | productLog
  deriving DecidableEq

namespace Preset

/-- In the order in which they are listed. -/
def all : List Preset :=
  [constant, log, sqrt, linear, linearLog, linearSqrt, square, squareLog, cube, exponential,
    linearExponential, factorial, product, productLog]

def id : Preset → String
  | constant => "O1"
  | log => "O_LOG_N"
  | sqrt => "O_SQRT_N"
  | linear => "O_N"
  | linearLog => "O_N_LOG_N"
  | linearSqrt => "O_N_SQRT_N"
  | square => "O_N2"
  | squareLog => "O_N2_LOG_N"
  | cube => "O_N3"
  | exponential => "O_2N"
  | linearExponential => "O_N_2N"
  | factorial => "O_N_FACT"
  | product => "O_N_M"
  | productLog => "O_N_M_LOG_NM"

def label : Preset → String
  | constant => "O(1)"
  | log => "O(log N)"
  | sqrt => "O(√N)"
  | linear => "O(N)"
  | linearLog => "O(N log N)"
  | linearSqrt => "O(N√N)"
  | square => "O(N²)"
  | squareLog => "O(N² log N)"
  | cube => "O(N³)"
  | exponential => "O(2^N)"
  | linearExponential => "O(N × 2^N)"
  | factorial => "O(N!)"
  | product => "O(N × M)"
  | productLog => "O(N × M × log(N+M))"

def ofId? (id : String) : Option Preset := all.find? (·.id == id)

def find (id : String) : Except Fault Preset :=
  match ofId? id with
  | some preset => .ok preset
  | none => .error (.unknownPreset id)

/-- The nesting depths of linear and logarithmic loops that a class stands for, if loops alone make it. -/
def depths? : Preset → Option (Nat × Nat)
  | constant => some (0, 0)
  | log => some (0, 1)
  | linear => some (1, 0)
  | linearLog => some (1, 1)
  | square => some (2, 0)
  | squareLog => some (2, 1)
  | cube => some (3, 0)
  | _ => none

def ofDepths? (linear log : Int) : Option Preset :=
  all.find? fun preset => preset.depths?.any fun (n, g) => n == linear && g == log

def needsN : Preset → Bool
  | constant => false
  | _ => true

def needsM : Preset → Bool
  | product | productLog => true
  | _ => false

/-- The operation count at the sizes `n` and `m`. -/
def cost (math : Elementary) (preset : Preset) (n m : Float) : Except Fault Float :=
  match preset with
  | constant => .ok 1
  | log => .ok (logSize math n)
  | sqrt => .ok n.sqrt
  | linear => .ok n
  | linearLog => .ok (n * logSize math n)
  | linearSqrt => .ok (n * n.sqrt)
  | square => power math n 2
  | squareLog => (· * logSize math n) <$> power math n 2
  | cube => power math n 3
  | exponential => power math 2 n
  | linearExponential => (n * ·) <$> power math 2 n
  | factorial => .ok (factorialSize n)
  | product => .ok (n * m)
  | productLog => .ok (n * m * logSize math (n + m))

end Preset

/-- Named values in the order in which the names first came. -/
abbrev Named (α : Type) := List (String × α)

/-- A name that is there already keeps its place and takes the new value. -/
def Named.put {α : Type} (name : String) (value : α) : Named α → Named α
  | [] => [(name, value)]
  | (other, old) :: rest =>
    if other == name then (name, value) :: rest else (other, old) :: Named.put name value rest

def Named.ofPairs {α : Type} (pairs : List (String × α)) : Named α :=
  pairs.foldl (fun named (name, value) => named.put name value) []

/-- Names are trimmed and in capitals, blank ones are dropped, and values are amounts. -/
def normalized (entries : Named Entry) : Except Fault (Named Float) :=
  entries.foldlM (fun sizes (name, entry) =>
    match Unicode.upper (Unicode.trim name.toList) with
    | [] => .ok sizes
    | letters => (fun amount => sizes.put (String.ofList letters) amount) <$> entry.amount) []

def amountOf (entries : Named Entry) (name : String) : Except Fault Float :=
  match entries.lookup name with
  | some entry => entry.amount
  | none => .ok 0

/-- The operation count of a class, which reads only the sizes it needs. -/
def Preset.evaluate (math : Elementary) (preset : Preset) (entries : Named Entry) : Except Fault Float := do
  let n ← if preset.needsN then amountOf entries "N" else .ok 0
  let m ← if preset.needsM then amountOf entries "M" else .ok 0
  preset.cost math n m

/-- The operation count of nested loops: a power of the size times a power of its logarithm. -/
def costOfDepths (math : Elementary) (linear log : Int) (entry : Entry) : Except Fault Float := do
  let n ← entry.amount
  let lines ← powerOfEntries math (.double n) (.integer linear)
  let logs ← powerOfEntries math (.double (logSize math n)) (.integer log)
  return lines * logs

end LoopCost
