import LoopCost.Unicode.Blank
import LoopCost.Unicode.Numeric

/-! Text seen as words and marks. A word is a maximal run of alphanumeric characters and underscores; every
other character, white space included, is a mark of its own. Two words are never neighbours, so a word of
the view is bounded on both sides, and nothing of the text is lost. -/

namespace LoopCost

def isWordChar (c : Char) : Bool := c == '_' || Unicode.isAlphanumeric c

inductive Lexeme
  | word (letters : List Char)
  | mark (char : Char)
  deriving DecidableEq

namespace Lexeme

def text : Lexeme → List Char
  | word letters => letters
  | mark char => [char]

/-- Puts one character in front: it prolongs the first word if it can. -/
def cons (c : Char) (lexemes : List Lexeme) : List Lexeme :=
  if isWordChar c then
    match lexemes with
    | word letters :: rest => word (c :: letters) :: rest
    | _ => word [c] :: lexemes
  else mark c :: lexemes

def ofText (text : List Char) : List Lexeme := text.foldr cons []

theorem flatMap_text_cons (c : Char) (lexemes : List Lexeme) :
    (cons c lexemes).flatMap text = c :: lexemes.flatMap text := by
  unfold cons
  split
  · split <;> simp [text]
  · simp [text]

/-- The lexemes of a text, put together, give the text back. -/
theorem flatMap_text_ofText (source : List Char) : (ofText source).flatMap text = source := by
  induction source with
  | nil => rfl
  | cons c rest ih => simpa [ofText, flatMap_text_cons] using ih

def isBlank : Lexeme → Bool
  | word _ => false
  | mark char => Unicode.isBlank char

def skipBlanks (lexemes : List Lexeme) : List Lexeme := lexemes.dropWhile isBlank

/-- The pattern holds at some place, the end of the text included. -/
def somewhere (pattern : List Lexeme → Bool) : List Lexeme → Bool
  | [] => pattern []
  | lexeme :: rest => pattern (lexeme :: rest) || somewhere pattern rest

/-- A pattern holds somewhere exactly if it holds of a suffix. -/
theorem somewhere_iff (pattern : List Lexeme → Bool) (lexemes : List Lexeme) :
    somewhere pattern lexemes = true ↔ ∃ place, place <:+ lexemes ∧ pattern place = true := by
  induction lexemes with
  | nil => simp [somewhere]
  | cons lexeme rest ih =>
    simp only [somewhere, Bool.or_eq_true, ih, List.suffix_cons_iff]
    constructor
    · rintro (here | ⟨place, later, holds⟩)
      · exact ⟨_, .inl rfl, here⟩
      · exact ⟨place, .inr later, holds⟩
    · rintro ⟨place, rfl | later, holds⟩
      · exact .inl holds
      · exact .inr ⟨place, later, holds⟩

end Lexeme

end LoopCost
