import LoopCost.Growth.Name

/-! Assignments by which a variable grows or shrinks geometrically. A variable is rescaled by a compound
assignment that multiplies, divides or shifts (`n /= 2`, `n >>= 1`) or by an assignment that starts with the
variable itself times or divided by something (`n = n * 3`). Two variables close in on each other if an
assigned value mentions both and halves something, as the midpoint of a binary search does. -/

namespace LoopCost

open Lexeme (somewhere skipBlanks)

/-- Starts with one of the signs `*=`, `/=`, `>>=` and `<<=`. -/
def startsScaling : List Lexeme → Bool
  | .mark '*' :: .mark '=' :: _ => true
  | .mark '/' :: .mark '=' :: _ => true
  | .mark '>' :: .mark '>' :: .mark '=' :: _ => true
  | .mark '<' :: .mark '<' :: .mark '=' :: _ => true
  | _ => false

def startsFactor : List Lexeme → Bool
  | .mark '*' :: _ => true
  | .mark '/' :: _ => true
  | _ => false

/-- The name that is assigned to at the head of a text, and what follows the single equals sign. -/
def assignment? : List Lexeme → Option (Name × List Lexeme)
  | .word name :: rest =>
    if startsName name then
      match skipBlanks rest with
      | .mark '=' :: .mark '=' :: _ => none
      | .mark '=' :: value => some (name, value)
      | _ => none
    else none
  | _ => none

/-- The name that a compound assignment at the head of a text rescales. -/
def compoundScaled? : List Lexeme → Option Name
  | .word name :: rest => if startsName name && startsScaling (skipBlanks rest) then some name else none
  | _ => none

/-- The name that is set to a multiple or a fraction of itself at the head of a text. -/
def selfScaled? (place : List Lexeme) : Option Name :=
  match assignment? place with
  | some (name, value) =>
    match skipBlanks value with
    | .word again :: rest => if again = name && startsFactor (skipBlanks rest) then some name else none
    | _ => none
  | none => none

/-- Multiplies, divides or shifts something in place. -/
def scalesAnything (text : List Char) : Bool :=
  somewhere (fun place => startsScaling place || (selfScaled? place).isSome) (Lexeme.ofText text)

def rescalesOneOf (names : List Name) (place : List Lexeme) : Bool :=
  (compoundScaled? place).any names.contains || (selfScaled? place).any names.contains

def nextIs (letters : List Char) (rest : List Lexeme) : Bool :=
  (skipBlanks rest).head? == some (.word letters)

/-- Starts with a division by two or a shift to the right by one. -/
def startsMidpoint : List Lexeme → Bool
  | .mark '/' :: rest => nextIs ['2'] rest
  | .mark '>' :: .mark '>' :: rest => nextIs ['1'] rest
  | _ => false

def endsValue : Lexeme → Bool
  | .mark c => c == ';' || c == '{' || c == '}'
  | .word _ => false

def mentionsTwoOf (names : List Name) (value : List Lexeme) : Bool :=
  match (value.filterMap Lexeme.name?).filter names.contains with
  | [] => false
  | first :: others => others.any (· != first)

def halvesBetween (names : List Name) (value : List Lexeme) : Bool :=
  somewhere startsMidpoint value && mentionsTwoOf names value

/-- The pieces of a text between the marks that end a value. -/
def valuePieces (lexemes : List Lexeme) : List (List Lexeme) :=
  lexemes.foldr (fun lexeme pieces =>
    match pieces with
    | [] => [[lexeme]]
    | piece :: later => if endsValue lexeme then [] :: piece :: later else (lexeme :: piece) :: later) [[]]

/-- What the first assignment of a text assigns. -/
def firstValue? : List Lexeme → Option (List Lexeme)
  | [] => none
  | lexeme :: rest =>
    match assignment? (lexeme :: rest) with
    | some (_, value) => some value
    | none => firstValue? rest

/-- Some value assigned in the text halves something between two of the names. Only the first assignment of a
piece has to be looked at, because the values of the later ones are part of its value. -/
def closesIn (names : List Name) (lexemes : List Lexeme) : Bool :=
  (valuePieces lexemes).any fun piece => (firstValue? piece).any (halvesBetween names)

/-- A piece of code that makes a loop over the names take a logarithmic number of turns. -/
def rescales (code : List Char) (names : List Name) : Bool :=
  let lexemes := Lexeme.ofText code
  somewhere (rescalesOneOf names) lexemes || closesIn names lexemes

end LoopCost
