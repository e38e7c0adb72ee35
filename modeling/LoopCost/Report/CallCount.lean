import LoopCost.Growth.Name

/-! Calls of routines whose cost matters although no loop shows. A call is one of the names, not inside a
longer word, followed after optional white space by an opening parenthesis. A qualifier before the name does
not hide it. -/

namespace LoopCost

/-- The length of a call of the name at the head of a text, up to its opening parenthesis. -/
def callSpan? (text : List Char) (name : Name) : Option Nat :=
  if name.isPrefixOf text then
    let after := text.drop name.length
    match after.dropWhile Unicode.isBlank with
    | '(' :: _ => some (name.length + (after.takeWhile Unicode.isBlank).length + 1)
    | _ => none
  else none

/-- Counts on, after `skip` characters that belong to a call already counted. `inWord` says that the
character before is part of a word. -/
def callCountFrom (names : List Name) (count skip : Nat) (inWord : Bool) : List Char → Nat
  | [] => count
  | c :: rest =>
    match skip with
    | more + 1 => callCountFrom names count more (isWordChar c) rest
    | 0 =>
      match if inWord then none else names.findSome? (callSpan? (c :: rest)) with
      | some span => callCountFrom names (count + 1) (span - 1) (isWordChar c) rest
      | none => callCountFrom names count 0 (isWordChar c) rest

/-- Where several names fit at one place, the first of the list is the one called. -/
def callCount (names : List Name) (text : List Char) : Nat := callCountFrom names 0 0 false text

end LoopCost
