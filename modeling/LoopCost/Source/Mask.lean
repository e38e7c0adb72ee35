import LoopCost.Unicode.Numeric

/-! Masking blanks out what is not code. Every character of a comment or of a literal becomes a space, its
delimiters included; line breaks stay, so that every later offset and line number still holds.

A quote between the digits of a number (`1'000'000`) is a separator and opens nothing. To tell it apart the
reader remembers whether the token it is in started with a digit. -/

namespace LoopCost

/-- Where the reader stands in a token. The characters that can prolong a number are the alphanumeric ones,
underscore, point and quote. -/
inductive Run
  | none
  | word
  | number
  deriving DecidableEq

inductive Mode
  | code (run : Run)
  | lineComment
  /-- Before the star of an opening `/*`, which cannot close the comment. -/
  | blockOpening
  | blockComment
  /-- Before the slash of a closing `*/`. -/
  | blockClosing
  | literal (quote : Char) (escaped : Bool)
  deriving DecidableEq

def isTokenChar (c : Char) : Bool :=
  Unicode.isAlphanumeric c || c == '_' || c == '.' || c == '\''

def Run.next (run : Run) (c : Char) : Run :=
  if !isTokenChar c then none
  else if run = none then (if Unicode.isDigit c then number else word)
  else run

def isSeparator (run : Run) (next : Option Char) : Bool :=
  run == .number && next.any Unicode.isAlphanumeric

/-- What comments and literals look like after masking. -/
def blanked (c : Char) : Char := if c = '\n' then '\n' else ' '

namespace Mode

/-- The mode after a character of code. A closing quote of a character literal is itself a token character,
so a token that touches it is no number. -/
def afterCode (run : Run) (c : Char) (next : Option Char) : Mode :=
  if c = '/' ∧ next = some '/' then lineComment
  else if c = '/' ∧ next = some '*' then blockOpening
  else if c = '"' ∨ c = '\'' ∧ !isSeparator run next then literal c false
  else code (run.next c)

def afterLiteral (quote : Char) (escaped : Bool) (c : Char) : Mode :=
  if c = '\n' then literal quote false
  else if escaped then literal quote false
  else if c = '\\' then literal quote true
  else if c = quote then code (if quote = '\'' then .word else .none)
  else literal quote false

/-- One character, with a view of the one after it. -/
def next (mode : Mode) (c : Char) (following : Option Char) : Mode :=
  match mode with
  | code run => afterCode run c following
  | lineComment => if c = '\n' then code .none else lineComment
  | blockOpening => blockComment
  | blockComment => if c = '*' ∧ following = some '/' then blockClosing else blockComment
  | blockClosing => code .none
  | literal quote escaped => afterLiteral quote escaped c

/-- A character of code stays as it is, unless a comment or a literal begins with it. -/
def shows (mode : Mode) (c : Char) (following : Option Char) : Bool :=
  match mode, mode.next c following with
  | code _, code _ => true
  | _, _ => false

end Mode

/-- Masks on in a mode, in front of what is masked already, which is kept in reverse. -/
def maskFrom (mode : Mode) (masked : List Char) : List Char → List Char
  | [] => masked.reverse
  | c :: rest =>
    let shown := if mode.shows c rest.head? then c else blanked c
    maskFrom (mode.next c rest.head?) (shown :: masked) rest

def mask (source : List Char) : List Char := maskFrom (.code .none) [] source

theorem maskFrom_eq_append (mode : Mode) (masked source : List Char) :
    maskFrom mode masked source = masked.reverse ++ maskFrom mode [] source := by
  induction source generalizing mode masked with
  | nil => simp [maskFrom]
  | cons c rest ih =>
    unfold maskFrom
    rw [ih _ (_ :: masked), ih _ [_]]
    simp

theorem maskFrom_cons (mode : Mode) (c : Char) (rest : List Char) :
    maskFrom mode [] (c :: rest) =
      (if mode.shows c rest.head? then c else blanked c) :: maskFrom (mode.next c rest.head?) [] rest := by
  rw [maskFrom, maskFrom_eq_append]
  rfl

end LoopCost
