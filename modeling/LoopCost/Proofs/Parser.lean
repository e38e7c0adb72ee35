import LoopCost.Proofs.Tree
import LoopCost.Scan.Frame

/-! A recursive descent parser for statements. It has one function for each form in the grammar and calls them
where one statement stands inside another, with the same readers of words, headers, directives and labels as
the scan. What is left of the text never gets longer, and that is all its recursion needs. -/

namespace LoopCost

/-- What was read at the front of a text of at most `bound` characters, and what is left of it. -/
structure Parsed (α : Type) (bound : Nat) where
  found : α
  rest : Place
  bounded : rest.length ≤ bound

namespace Parsed

def map (f : α → β) (parsed : Parsed α bound) : Parsed β bound := ⟨f parsed.found, parsed.rest, parsed.bounded⟩

def within (parsed : Parsed α bound) (larger : bound ≤ other) : Parsed α other :=
  ⟨parsed.found, parsed.rest, Nat.le_trans parsed.bounded larger⟩

end Parsed

namespace Place

/-- The depth of parentheses and square brackets after a character; a closer with nothing to close is skipped. -/
def nesting (depth : Nat) (c : Char) : Nat :=
  if c = '(' ∨ c = '[' then depth + 1
  else if c = ')' ∨ c = ']' then depth - 1
  else depth

/-- The text in front of the first semicolon or brace outside parentheses and square brackets. -/
def takeSimple (depth : Nat) : Place → List Char × Place
  | [] => ([], [])
  | glyph :: rest =>
    if depth = 0 ∧ (glyph.char = ';' ∨ glyph.char = '{' ∨ glyph.char = '}') then ([], glyph :: rest)
    else
      let (text, stop) := takeSimple (nesting depth glyph.char) rest
      (glyph.char :: text, stop)

theorem length_takeSimple_le (depth : Nat) (place : Place) : (takeSimple depth place).2.length ≤ place.length := by
  fun_induction takeSimple depth place with
  | case1 => simp
  | case2 => simp
  | case3 depth glyph rest open? text stop taken ih =>
    rw [taken] at ih
    simp only [List.length_cons] at ih ⊢
    omega

theorem length_lt_of_skipBlanks {place rest : Place} {first : Glyph} (here : place.skipBlanks = first :: rest) :
    rest.length < place.length := by
  have bound := length_skipBlanks_le place
  rw [here, List.length_cons] at bound
  omega

theorem length_lt_of_takeSimple {depth : Nat} {place rest : Place} {text : List Char} {stop : Glyph}
    (stopped : place.takeSimple depth = (text, stop :: rest)) : rest.length < place.length := by
  have bound := length_takeSimple_le depth place
  rw [stopped, List.length_cons] at bound
  omega

mutual

def parseStatement (first : Glyph) (rest : Place) : Parsed Tree rest.length :=
  if first.char = '{' then (parseBlock rest).map .block
  else if first.char = ';' then ⟨.blank, rest, Nat.le_refl _⟩
  else if first.char = '#' then ⟨.blank, afterDirective .other rest, length_afterDirective_le _ _⟩
  else if first.char = '_' || Unicode.isLetter first.char then
    have shorter := length_readWord_le rest
    (parseWord (first.char :: rest.readWord.1) rest.readWord.2).within shorter
  else parseSimple [first.char] (nesting 0 first.char) rest
termination_by 3 * rest.length + 2

def parseWord (word : List Char) (after : Place) : Parsed Tree after.length :=
  match Keyword.ofWord? word with
  | some .forWord =>
    match found : after.readHeader? with
    | some (header, start) =>
      have shorter := length_readHeader?_lt found
      ((parseBody start).map (.loop (.forHead header))).within (Nat.le_of_lt shorter)
    | none => parseSimple [] 0 after
  | some .whileWord =>
    match found : after.readHeader? with
    | some (condition, start) =>
      have shorter := length_readHeader?_lt found
      ((parseBody start).map (.loop (.whileHead condition))).within (Nat.le_of_lt shorter)
    | none => parseSimple [] 0 after
  | some .doWord =>
    let body := parseBody after
    ⟨.loop .doHead body.found, body.rest.afterDo, Nat.le_trans (length_afterDo_le _) body.bounded⟩
  | some .ifWord =>
    match found : after.readHeader? with
    | some (_, start) =>
      have shorter := length_readHeader?_lt found
      (parseBranches start).within (Nat.le_of_lt shorter)
    | none => parseSimple [] 0 after
  | some .switchWord =>
    match found : after.readHeader? with
    | some (_, start) =>
      have shorter := length_readHeader?_lt found
      ((parseBody start).map .branch).within (Nat.le_of_lt shorter)
    | none => parseSimple [] 0 after
  | some .elseWord => (parseBody after).map .branch
  | some .caseWord =>
    match found : after.skipBlanks.afterCase? with
    | some place => ⟨.blank, place, Nat.le_trans (length_afterCase?_le found) (length_skipBlanks_le _)⟩
    | none => parseSimple word 0 after
  | none =>
    match found : after.afterLabel? with
    | some place => ⟨.blank, place, length_afterLabel?_le found⟩
    | none => parseSimple word 0 after
termination_by 3 * after.length + 1

def parseBranches (place : Place) : Parsed Tree place.length :=
  let body := parseBody place
  match found : body.rest.afterElse? with
  | some other =>
    have shorter : other.length ≤ place.length :=
      Nat.le_trans (Nat.le_of_lt (length_afterElse?_lt found)) body.bounded
    ((parseBody other).map (.choice body.found)).within shorter
  | none => body.map .branch
termination_by 3 * place.length + 1

def parseSimple (front : List Char) (depth : Nat) (place : Place) : Parsed Tree place.length :=
  match stopped : place.takeSimple depth with
  | (text, []) => ⟨.simple (front ++ text), [], Nat.zero_le _⟩
  | (text, stop :: rest) =>
    have shorter := length_lt_of_takeSimple stopped
    if stop.char = ';' then ⟨.simple (front ++ text ++ [';']), rest, Nat.le_of_lt shorter⟩
    else if stop.char = '{' then ((parseBlock rest).map (.bodied (front ++ text))).within (Nat.le_of_lt shorter)
    else ⟨.simple (front ++ text), stop :: rest, shorter⟩
termination_by 3 * place.length

/-- The single statement that a construct takes as its body. The end of the text or a closing brace cuts it off. -/
def parseBody (place : Place) : Parsed Tree place.length :=
  match here : place.skipBlanks with
  | [] => ⟨.blank, [], Nat.zero_le _⟩
  | first :: rest =>
    have shorter := length_lt_of_skipBlanks here
    if first.char = '}' then ⟨.blank, first :: rest, shorter⟩
    else (parseStatement first rest).within (Nat.le_of_lt shorter)
termination_by 3 * place.length

def parseBlock (place : Place) : Parsed (List Tree) place.length :=
  match here : place.skipBlanks with
  | [] => ⟨[], [], Nat.zero_le _⟩
  | first :: rest =>
    have shorter := length_lt_of_skipBlanks here
    if first.char = '}' then ⟨[], rest, Nat.le_of_lt shorter⟩
    else
      let statement := parseStatement first rest
      have still := Nat.lt_of_le_of_lt statement.bounded shorter
      ((parseBlock statement.rest).map (statement.found :: ·)).within (Nat.le_of_lt still)
termination_by 3 * place.length

end

/-- The statements at top level, where closers that close nothing are skipped. -/
def parseProgram (place : Place) : List Tree :=
  match here : place.skipClosers with
  | [] => []
  | first :: rest =>
    let statement := parseStatement first rest
    have shorter : statement.rest.length < place.length := by
      have bound := length_skipClosers_le place
      rw [here, List.length_cons] at bound
      exact Nat.lt_of_le_of_lt statement.bounded bound
    statement.found :: parseProgram statement.rest
termination_by place.length

end Place

def Tree.ofText (text : List Char) : Tree := .block (Place.parseProgram (glyphs text))

end LoopCost
