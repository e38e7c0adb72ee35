import LoopCost.Growth.Basic
import LoopCost.Scan.Place

/-! How a statement begins. A statement either ends where no other statement has to be read first, or opens a
construct that contains statements. Everything that is no control flow is a simple statement, and so is a
keyword whose header is missing or never closes. -/

namespace LoopCost

/-- A statement that contains others: a block, or one that takes a single statement as its body. -/
inductive Construct
  | program
  | block
  | forLoop (header : List Char)
  | whileLoop (condition : List Char)
  | doLoop
  /-- An `if` whose `else` may still come. -/
  | conditional
  /-- A `switch`, an `else`, or an `if` whose `else` has come. -/
  | branch
  deriving DecidableEq

inductive Keyword
  | forWord
  | whileWord
  | doWord
  | ifWord
  | switchWord
  | elseWord
  | caseWord
  deriving DecidableEq

namespace Keyword

def spelling : Keyword → String
  | forWord => "for"
  | whileWord => "while"
  | doWord => "do"
  | ifWord => "if"
  | switchWord => "switch"
  | elseWord => "else"
  | caseWord => "case"

def ofWord? (word : List Char) : Option Keyword :=
  [forWord, whileWord, doWord, ifWord, switchWord, elseWord, caseWord].find? (·.spelling.toList == word)

end Keyword

/-- What the scan of a text has to tell: a loop keyword without a header, with the text after it, or a loop
with the growth it was given. -/
inductive Note
  | headless (keyword : Keyword) (after : Place)
  | loop (keyword : Keyword) (header : List Char) (growth : Growth)

/-- What the first characters of a statement settle. -/
structure Beginning where
  /-- Where the statement ends, or where the first statement inside it starts. -/
  place : Place
  opens : Option Construct := none
  /-- The text of a simple statement. -/
  simple : Option (List Char) := none
  note : Option Note := none

namespace Place

/-- Reads a simple statement on from inside parentheses and square brackets of the given depth. A semicolon
outside them ends it; an opening brace turns into a block; a closing brace is left where it is. The
characters read so far are kept in reverse. -/
def readSimple (depth : Nat) (seen : List Char) : Place → Beginning
  | [] => { place := [], simple := some seen.reverse }
  | glyph :: rest =>
    if glyph.char = '(' ∨ glyph.char = '[' then readSimple (depth + 1) (glyph.char :: seen) rest
    else if glyph.char = ')' ∨ glyph.char = ']' then readSimple (depth - 1) (glyph.char :: seen) rest
    else if depth = 0 ∧ glyph.char = ';' then { place := rest, simple := some (';' :: seen).reverse }
    else if depth = 0 ∧ glyph.char = '{' then
      { place := rest, opens := some .block, simple := some seen.reverse }
    else if depth = 0 ∧ glyph.char = '}' then { place := glyph :: rest, simple := some seen.reverse }
    else readSimple depth (glyph.char :: seen) rest

def beginSimple (place : Place) : Beginning := readSimple 0 [] place

/-- A keyword with a header opens a construct after it; without one a simple statement follows the keyword. -/
def beginHeaded (place : Place) (construct : List Char → Construct) (note : Option Note) : Beginning :=
  match place.readHeader? with
  | some (header, body) => { place := body, opens := some (construct header) }
  | none => { place.beginSimple with note }

/-- Begins at a word. -/
def beginWord (place : Place) : Beginning :=
  let (word, rest) := place.readWord
  let ordinary (label : Option Place) : Beginning :=
    match label with
    | some after => { place := after }
    | none => place.beginSimple
  match Keyword.ofWord? word with
  | some .forWord => rest.beginHeaded .forLoop (some (.headless .forWord rest))
  | some .whileWord => rest.beginHeaded .whileLoop (some (.headless .whileWord rest))
  | some .ifWord => rest.beginHeaded (fun _ => .conditional) none
  | some .switchWord => rest.beginHeaded (fun _ => .branch) none
  | some .doWord => { place := rest, opens := some .doLoop }
  | some .elseWord => { place := rest, opens := some .branch }
  | some .caseWord => ordinary rest.skipBlanks.afterCase?
  | none => ordinary rest.afterLabel?

def begin (place : Place) : Beginning :=
  match place.skipBlanks with
  | [] => { place := [] }
  | first :: rest =>
    if first.char = '}' then { place := first :: rest }
    else if first.char = '{' then { place := rest, opens := some .block }
    else if first.char = ';' then { place := rest }
    else if first.char = '#' then { place := afterDirective .other rest }
    else if first.char = '_' || Unicode.isLetter first.char then beginWord (first :: rest)
    else beginSimple (first :: rest)

theorem readSimple_bounds (depth : Nat) (seen : List Char) (place : Place) :
    (readSimple depth seen place).place.length ≤ place.length ∧
      ((readSimple depth seen place).opens.isSome → (readSimple depth seen place).place.length < place.length) := by
  fun_induction readSimple depth seen place <;> simp_all <;> omega

theorem length_beginSimple_lt {first : Glyph} {rest : Place} (unclosed : first.char ≠ '}') :
    (beginSimple (first :: rest)).place.length < (first :: rest).length := by
  have bound (depth : Nat) (seen : List Char) : (readSimple depth seen rest).place.length < rest.length + 1 :=
    Nat.lt_succ_of_le (readSimple_bounds depth seen rest).1
  simp only [beginSimple]
  unfold readSimple
  repeat' split
  all_goals simp_all

theorem beginHeaded_bounds (place : Place) (construct : List Char → Construct) (note : Option Note) :
    (place.beginHeaded construct note).place.length ≤ place.length ∧
      ((place.beginHeaded construct note).opens.isSome →
        (place.beginHeaded construct note).place.length < place.length) := by
  unfold beginHeaded
  split
  · next found => have := length_readHeader?_lt found; simp; omega
  · exact readSimple_bounds 0 [] place

theorem length_beginWord_lt {first : Glyph} {rest : Place} (starts : isWordChar first.char = true) :
    (beginWord (first :: rest)).place.length < (first :: rest).length := by
  have shorter : (readWord (first :: rest)).2.length < (first :: rest).length := length_readWord_lt starts
  have unclosed : first.char ≠ '}' := by
    intro closed
    rw [closed] at starts
    exact absurd starts (by decide)
  have simple : (beginSimple (first :: rest)).place.length < (first :: rest).length := length_beginSimple_lt unclosed
  have headed (construct : List Char → Construct) (note : Option Note) :=
    (beginHeaded_bounds (readWord (first :: rest)).2 construct note).1
  unfold beginWord
  dsimp only
  split
  · have := headed .forLoop (some (.headless .forWord (readWord (first :: rest)).2)); omega
  · have := headed .whileLoop (some (.headless .whileWord (readWord (first :: rest)).2)); omega
  · have := headed (fun _ => .conditional) none; omega
  · have := headed (fun _ => .branch) none; omega
  · exact shorter
  · exact shorter
  · split
    · next found =>
      have := length_afterCase?_le found
      have := length_skipBlanks_le (readWord (first :: rest)).2
      simp only
      omega
    · exact simple
  · split
    · next found => have := length_afterLabel?_le found; simp only; omega
    · exact simple

/-- A statement gets ahead unless nothing is left or a closing brace stands in its way. -/
theorem length_begin_lt {place rest : Place} {first : Glyph} (here : place.skipBlanks = first :: rest)
    (unclosed : first.char ≠ '}') : (begin place).place.length < place.length := by
  have bound := length_skipBlanks_le place
  rw [here] at bound
  refine Nat.lt_of_lt_of_le ?_ bound
  unfold begin
  simp only [here, unclosed, if_false]
  split
  · simp
  split
  · simp
  split
  · have := length_afterDirective_le .other rest; simp; omega
  split
  · next starts =>
    apply length_beginWord_lt
    simp only [Bool.or_eq_true] at starts
    simp only [isWordChar, Unicode.isAlphanumeric, Bool.or_eq_true]
    rcases starts with underscore | letter
    · exact .inl underscore
    · exact .inr (.inl letter)
  · exact length_beginSimple_lt unclosed

/-- No statement moves back, and one that opens a construct gets ahead. -/
theorem length_begin_le (place : Place) :
    (begin place).place.length ≤ place.length ∧
      ((begin place).opens.isSome → (begin place).place.length < place.length) := by
  cases here : place.skipBlanks with
  | nil => simp [begin, here]
  | cons first rest =>
    by_cases closed : first.char = '}'
    · have bound := length_skipBlanks_le place
      rw [here] at bound
      simpa [begin, here, closed] using bound
    · have := length_begin_lt here closed
      exact ⟨Nat.le_of_lt this, fun _ => this⟩

end Place

end LoopCost
