import LoopCost.Source.Glyph
import LoopCost.Text.Lexeme

/-! A place in a text is the text from there on. What can be read at a place is a word, a parenthesised
header, a directive line or a label; each reader answers with the place after what it read, which is never
in front of where it started. -/

namespace LoopCost

abbrev Place := List Glyph

namespace Place

def skipBlanks (place : Place) : Place := place.dropWhile (Unicode.isBlank ·.char)

/-- The closers that stand at top level, where they close nothing. -/
def skipClosers (place : Place) : Place :=
  place.dropWhile fun glyph => Unicode.isBlank glyph.char || glyph.char == ')' || glyph.char == '}'

def readWord (place : Place) : List Char × Place :=
  (plain (place.takeWhile (isWordChar ·.char)), place.dropWhile (isWordChar ·.char))

/-- The text between the parentheses that come next, if they do and are balanced. -/
def readHeader? (place : Place) : Option (List Char × Place) :=
  match place.skipBlanks with
  | ⟨'(', some span⟩ :: rest => some (plain (rest.take span), rest.drop (span + 1))
  | _ => none

end Place

/-- What a directive line ends with so far: a backslash before the line break carries it on, also with a
carriage return between the two. -/
inductive LineTail
  | other
  | backslash
  | backslashReturn

def LineTail.next (tail : LineTail) (c : Char) : LineTail :=
  if c = '\\' then backslash
  else match tail with
    | backslash => if c = '\r' then backslashReturn else other
    | _ => other

namespace Place

def afterDirective (tail : LineTail) : Place → Place
  | [] => []
  | glyph :: rest =>
    if glyph.char = '\n' then
      match tail with
      | .other => rest
      | _ => afterDirective .other rest
    else afterDirective (tail.next glyph.char) rest

/-- After the colon of a `case` label. A double colon qualifies a name and ends no label. -/
def afterCase? : Place → Option Place
  | [] => none
  | [glyph] => if glyph.char = ':' then some [] else none
  | glyph :: next :: rest =>
    if glyph.char = ':' then
      if next.char = ':' then afterCase? rest else some (next :: rest)
    else if glyph.char = ';' ∨ glyph.char = '{' ∨ glyph.char = '}' then none
    else afterCase? (next :: rest)

/-- After the colon that makes the word before this place a label. -/
def afterLabel? (place : Place) : Option Place :=
  match place.skipBlanks with
  | [] => none
  | glyph :: rest =>
    if glyph.char = ':' ∧ rest.head?.map Glyph.char ≠ some ':' then some rest else none

theorem length_skipBlanks_le (place : Place) : place.skipBlanks.length ≤ place.length :=
  (List.dropWhile_suffix _).length_le

theorem length_skipClosers_le (place : Place) : place.skipClosers.length ≤ place.length :=
  (List.dropWhile_suffix _).length_le

theorem length_readWord_le (place : Place) : place.readWord.2.length ≤ place.length :=
  (List.dropWhile_suffix _).length_le

theorem length_readWord_lt {first : Glyph} {rest : Place} (starts : isWordChar first.char = true) :
    (readWord (first :: rest)).2.length < (first :: rest).length := by
  have bound := length_readWord_le rest
  have moved : (readWord (first :: rest)).2 = rest.readWord.2 := by simp [readWord, starts]
  rw [moved, List.length_cons]
  omega

theorem length_readHeader?_lt {place : Place} {header : List Char} {after : Place}
    (found : place.readHeader? = some (header, after)) : after.length < place.length := by
  have bound := length_skipBlanks_le place
  unfold readHeader? at found
  split at found
  · next span rest here =>
    rw [here] at bound
    simp only [Option.some.injEq, Prod.mk.injEq] at found
    simp only [← found.2, List.length_drop, List.length_cons] at bound ⊢
    omega
  · simp at found

theorem length_afterDirective_le (tail : LineTail) (place : Place) :
    (afterDirective tail place).length ≤ place.length := by
  fun_induction afterDirective tail place with
  | case1 => simp
  | case2 => simp
  | case3 tail glyph rest _ _ ih => simp only [List.length_cons]; omega
  | case4 tail glyph rest _ ih => simp only [List.length_cons]; omega

theorem length_afterCase?_le {place after : Place} (found : place.afterCase? = some after) :
    after.length ≤ place.length := by
  fun_induction afterCase? place with
  | case1 => simp at found
  | case2 => simp_all
  | case3 => simp at found
  | case4 glyph next rest _ _ ih => have := ih found; simp only [List.length_cons]; omega
  | case5 => cases found; simp
  | case6 => simp at found
  | case7 glyph next rest _ _ ih => have := ih found; simp only [List.length_cons] at this ⊢; omega

theorem length_afterLabel?_le {place after : Place} (found : place.afterLabel? = some after) :
    after.length ≤ place.length := by
  have bound := length_skipBlanks_le place
  unfold afterLabel? at found
  split at found
  · simp at found
  · next glyph rest here =>
    rw [here] at bound
    split at found
    · simp only [Option.some.injEq] at found
      simp only [← found, List.length_cons] at bound ⊢
      omega
    · simp at found

end Place

end LoopCost
