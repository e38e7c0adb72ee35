/-! The parts of a loop header. Semicolons separate the parts, but only outside all brackets: one inside a
lambda or an initializer belongs to its part. -/

namespace LoopCost

/-- Any opening bracket deepens the nesting, any closing bracket undoes one level, and one with nothing to
close is ignored. -/
def bracketDepth (depth : Nat) (c : Char) : Nat :=
  if c = '(' ∨ c = '[' ∨ c = '{' then depth + 1
  else if c = ')' ∨ c = ']' ∨ c = '}' then depth - 1
  else depth

/-- Splits on from inside a part. Both the part read so far and the parts before it are kept in reverse. -/
def headerPartsFrom (parts : List (List Char)) (depth : Nat) (part : List Char) : List Char → List (List Char)
  | [] => (part.reverse :: parts).reverse
  | c :: rest =>
    if c = ';' ∧ depth = 0 then headerPartsFrom (part.reverse :: parts) 0 [] rest
    else headerPartsFrom parts (bracketDepth depth c) (c :: part) rest

def headerParts (header : List Char) : List (List Char) := headerPartsFrom [] 0 [] header

private theorem headerPartsFrom_eq (parts : List (List Char)) (depth : Nat) (part header : List Char) :
    headerPartsFrom parts depth part header =
      parts.reverse ++ (headerPartsFrom [] depth [] header).modifyHead (part.reverse ++ ·) := by
  induction header generalizing parts depth part with
  | nil => simp [headerPartsFrom]
  | cons c rest ih =>
    unfold headerPartsFrom
    split
    · rw [ih, ih [[].reverse] 0 []]
      simp
    · rw [ih, ih [] _ [c]]
      cases headerPartsFrom [] (bracketDepth depth c) [] rest <;> simp

theorem headerPartsFrom_cons (depth : Nat) (c : Char) (rest : List Char) :
    headerPartsFrom [] depth [] (c :: rest) =
      if c = ';' ∧ depth = 0 then [] :: headerPartsFrom [] 0 [] rest
      else (headerPartsFrom [] (bracketDepth depth c) [] rest).modifyHead (c :: ·) := by
  rw [headerPartsFrom]
  split
  · rw [headerPartsFrom_eq]
    cases headerPartsFrom [] 0 [] rest <;> simp
  · rw [headerPartsFrom_eq]
    rfl

end LoopCost
