/-! Text whose parentheses know their partners. One pass from the right pairs them all: a closing parenthesis
waits until the nearest opening one before it takes it. A partner therefore depends only on the text that
follows, never on what stands in front. -/

namespace LoopCost

/-- A character; for an opening parenthesis that is closed, with the number of characters between the two. -/
structure Glyph where
  char : Char
  span : Option Nat
  deriving DecidableEq

/-- What is known of a text read from the right. -/
structure Pairing where
  glyphs : List Glyph
  size : Nat
  /-- For each closing parenthesis that still waits, nearest first, how many characters follow it. -/
  waiting : List Nat

def Pairing.cons (c : Char) (after : Pairing) : Pairing :=
  let size := after.size + 1
  if c = ')' then ⟨⟨c, none⟩ :: after.glyphs, size, after.size :: after.waiting⟩
  else if c = '(' then
    match after.waiting with
    | [] => ⟨⟨c, none⟩ :: after.glyphs, size, []⟩
    | follow :: waiting => ⟨⟨c, some (after.size - follow - 1)⟩ :: after.glyphs, size, waiting⟩
  else ⟨⟨c, none⟩ :: after.glyphs, size, after.waiting⟩

def Pairing.ofText (text : List Char) : Pairing := text.foldr Pairing.cons ⟨[], 0, []⟩

def glyphs (text : List Char) : List Glyph := (Pairing.ofText text).glyphs

def plain (glyphs : List Glyph) : List Char := glyphs.map Glyph.char

theorem glyphs_cons_tail (c : Char) (rest : List Char) : (glyphs (c :: rest)).tail = glyphs rest := by
  simp only [glyphs, Pairing.ofText, List.foldr_cons, Pairing.cons]
  repeat' split
  all_goals rfl

theorem plain_glyphs (text : List Char) : plain (glyphs text) = text := by
  induction text with
  | nil => rfl
  | cons c rest ih =>
    simp only [plain, glyphs, Pairing.ofText, List.foldr_cons, Pairing.cons] at ih ⊢
    repeat' split
    all_goals simpa using ih

end LoopCost
