import LoopCost.Unicode.Numeric

/-! The words of a command line. A word that starts with a dash is an option, unless it is a dash alone, a
plain negative number or holds a space; two dashes end the options. An option's value may stand in the same
word, after an equals sign or right behind a single letter. A long option may be cut short, as long as no other
one starts in the same way. -/

namespace LoopCost

inductive Switch
  | help
  | json
  | showSource
  | size
  | timeLimit
  | preset
  | assign
  deriving DecidableEq

def Switch.takesValue : Switch → Bool
  | help | json | showSource => false
  | size | timeLimit | preset | assign => true

/-- The options of a command with their spellings, each spelling once. -/
abbrev Switches := List (List Char × Switch)

def analyzeSwitches : Switches :=
  [("-h".toList, .help), ("--help".toList, .help), ("--json".toList, .json),
    ("--show-source".toList, .showSource), ("-n".toList, .size), ("-t".toList, .timeLimit),
    ("--time-limit".toList, .timeLimit)]

def checkSwitches : Switches :=
  [("-h".toList, .help), ("--help".toList, .help), ("-p".toList, .preset), ("--preset".toList, .preset),
    ("--var".toList, .assign), ("-t".toList, .timeLimit), ("--time-limit".toList, .timeLimit)]

inductive Token
  | plain (word : List Char)
  | switch (switch : Switch) (given : Option (List Char))
  | unknown
  | ending

def isDecimal (c : Char) : Bool := (Unicode.decimalValue? c).isSome

/-- A dash and digits, with at most one point, which needs a digit after it. A line feed may follow. -/
def isNegativeNumber (word : List Char) : Bool :=
  match word with
  | '-' :: size =>
    let size := if size.getLast? = some '\n' then size.dropLast else size
    match size.dropWhile isDecimal with
    | [] => !size.isEmpty
    | '.' :: places => !places.isEmpty && places.all isDecimal
    | _ => false
  | _ => false

namespace Token

def nameOf (word : List Char) : List Char := word.takeWhile (· != '=')

def valueOf? (word : List Char) : Option (List Char) :=
  match word.dropWhile (· != '=') with
  | [] => none
  | _ :: value => some value

/-- The option that a word spells out, as a whole or up to an equals sign. -/
def spelled? (switches : Switches) (word : List Char) : Option Token :=
  ((switches.lookup word).map (switch · none)).or
    ((valueOf? word).bind fun value => (switches.lookup (nameOf word)).map (switch · (some value)))

/-- The options that a word may stand for if it spells out none: long ones that start like it, or the one of a
single letter that its value follows without a gap. -/
def shortened (switches : Switches) (word : List Char) : List Token :=
  if ['-', '-'].isPrefixOf word then
    (switches.filter fun option => (nameOf word).isPrefixOf option.1).map fun option =>
      switch option.2 (valueOf? word)
  else
    (switches.filter fun option => option.1 == word.take 2).map fun option =>
      switch option.2 (some (word.drop 2))

def ofWord (switches : Switches) (word : List Char) : Token :=
  if word.head? ≠ some '-' ∨ word = ['-'] then plain word
  else match spelled? switches word with
    | some token => token
    | none =>
      match shortened switches word with
      | [] => if isNegativeNumber word || word.contains ' ' then plain word else unknown
      | [token] => token
      | _ => unknown

/-- After two dashes every word stands for itself, a second pair of dashes too. -/
def ofWords (switches : Switches) : List (List Char) → List Token
  | [] => []
  | word :: rest =>
    if word = "--".toList then ending :: rest.map plain else ofWord switches word :: ofWords switches rest

end Token

end LoopCost
