import LoopCost.Growth.Header
import LoopCost.Growth.Rescaling

/-! How the number of turns of a loop grows with the size of the input. The guess uses surface syntax only:
a bound that names nothing is constant, a variable that is multiplied, divided or shifted gives a logarithm,
and all else is linear. -/

namespace LoopCost

open Lexeme (somewhere skipBlanks)

inductive Growth
  | constant
  | linear
  | logarithmic
  deriving DecidableEq

namespace Growth

def label : Growth → String
  | constant => "constant"
  | linear => "linear"
  | logarithmic => "logarithmic"

/-- Fewer than three parts make a loop over a range, which is linear. -/
def ofFor (header : List Char) : Growth :=
  match headerParts header with
  | _ :: condition :: third :: more =>
    if scalesAnything (List.intercalate [';'] (third :: more)) then logarithmic
    else if (freeNames condition).isEmpty then constant
    else linear
  | _ => linear

def startsShift : List Lexeme → Bool
  | .mark '>' :: .mark '>' :: _ => true
  | .mark '<' :: .mark '<' :: _ => true
  | _ => false

def streams : List Name := ["cin", "cout", "cerr", "wcin", "wcout", "wcerr"].map String.toList

def isStream : Lexeme → Bool
  | .word letters => streams.contains letters
  | .mark _ => false

/-- Starts with a division by two or a multiplication by one half. -/
def startsHalving : List Lexeme → Bool
  | .mark '/' :: rest => nextIs ['2'] rest
  | .mark '*' :: rest =>
    match skipBlanks rest with
    | .mark '.' :: .word ['5'] :: _ => true
    | .word ['0'] :: .mark '.' :: .word ['5'] :: _ => true
    | _ => false
  | _ => false

/-- The condition itself shifts or halves. Two angle brackets beside a standard stream are input or output. -/
def conditionShrinks (condition : List Char) : Bool :=
  let lexemes := Lexeme.ofText condition
  (somewhere startsShift lexemes && !lexemes.any isStream) || somewhere startsHalving lexemes

/-- `shrinks` says that the body is known to rescale a name of the condition. -/
def ofWhile (condition body : List Char) (shrinks : Bool) : Growth :=
  let names := freeNames condition
  if names.isEmpty then constant
  else if conditionShrinks condition then logarithmic
  else if shrinks || rescales body names then logarithmic
  else linear

end Growth

end LoopCost
