import LoopCost.Scan.Place
import Mathlib.Data.List.Basic

/-! Headers as texts. A parenthesis is paired with the first one behind it that closes it, however the text goes on;
so what is read at a place is told by the text from there on, and a header is what stands between parentheses that
close each other. -/

namespace LoopCost

/-- How many parentheses are open behind a text, or nothing if one closes that none has opened. -/
def openBehind? (level : Nat) : List Char → Option Nat
  | [] => some level
  | c :: rest =>
    if c = '(' then openBehind? (level + 1) rest
    else if c = ')' then
      match level with
      | 0 => none
      | level + 1 => openBehind? level rest
    else openBehind? level rest

def Balanced (text : List Char) : Prop := openBehind? 0 text = some 0

instance (text : List Char) : Decidable (Balanced text) := inferInstanceAs (Decidable (_ = _))

theorem exists_glyphs_cons (c : Char) (rest : List Char) : ∃ span, glyphs (c :: rest) = ⟨c, span⟩ :: glyphs rest := by
  have whole := plain_glyphs (c :: rest)
  have tail := glyphs_cons_tail c rest
  cases here : glyphs (c :: rest) with
  | nil => simp [here, plain] at whole
  | cons glyph place =>
    rw [here] at whole tail
    simp only [plain, List.map_cons, List.cons.injEq] at whole
    exact ⟨glyph.span, by rw [← whole.1, ← tail, List.tail_cons]⟩

theorem glyphs_nil : glyphs [] = [] := rfl

theorem char_head?_glyphs (text : List Char) : (glyphs text).head?.map Glyph.char = text.head? := by
  rw [← List.head?_map, ← plain, plain_glyphs]

theorem length_glyphs (text : List Char) : (glyphs text).length = text.length := by
  have whole := congrArg List.length (plain_glyphs text)
  rwa [plain, List.length_map] at whole

theorem drop_glyphs (n : Nat) (text : List Char) : (glyphs text).drop n = glyphs (text.drop n) := by
  induction text generalizing n with
  | nil => simp [glyphs_nil]
  | cons c rest ih =>
    cases n with
    | zero => rfl
    | succ n =>
      obtain ⟨span, here⟩ := exists_glyphs_cons c rest
      rw [here, List.drop_succ_cons, List.drop_succ_cons, ih]

/-- A later place of a text is the place of the text from there on. -/
theorem eq_glyphs_of_suffix {place : Place} {text : List Char} (within : place <:+ glyphs text) :
    place = glyphs (plain place) := by
  have same := List.suffix_iff_eq_drop.mp within
  rw [drop_glyphs] at same
  rw [same, plain_glyphs]

theorem dropWhile_glyphs (skipped : Char → Bool) (text : List Char) :
    (glyphs text).dropWhile (skipped ·.char) = glyphs (text.dropWhile skipped) := by
  induction text with
  | nil => rfl
  | cons c rest ih =>
    obtain ⟨span, here⟩ := exists_glyphs_cons c rest
    by_cases skips : skipped c = true
    · simp only [here, List.dropWhile_cons, skips, if_true, ih]
    · simp [here, skips]

theorem plain_takeWhile_glyphs (taken : Char → Bool) (text : List Char) :
    plain ((glyphs text).takeWhile (taken ·.char)) = text.takeWhile taken := by
  have whole := congrArg (List.takeWhile taken) (plain_glyphs text)
  rw [plain, List.takeWhile_map] at whole
  exact whole

namespace Pairing

theorem size_ofText (text : List Char) : (ofText text).size = text.length := by
  induction text with
  | nil => rfl
  | cons c rest ih =>
    have next : (ofText (c :: rest)).size = (ofText rest).size + 1 := by
      simp only [ofText, List.foldr_cons, cons]
      repeat' split
      all_goals rfl
    rw [next, ih, List.length_cons]

/-- The closing parentheses that wait at a place are those that close what is open in front of it, in this order. -/
theorem getElem?_waiting_ofText (text : List Char) (level follow : Nat) :
    (ofText text).waiting[level]? = some follow ↔ ∃ inside after,
      text = inside ++ ')' :: after ∧ openBehind? level inside = some 0 ∧ after.length = follow := by
  induction text generalizing level with
  | nil => simp [ofText]
  | cons c rest ih =>
    have shift {next : Nat} (goes : ∀ inside, openBehind? level (c :: inside) = openBehind? next inside)
        (stays : c = ')' → level ≠ 0) :
        (ofText rest).waiting[next]? = some follow ↔ ∃ inside after,
          c :: rest = inside ++ ')' :: after ∧ openBehind? level inside = some 0 ∧ after.length = follow := by
      rw [ih]
      constructor
      · rintro ⟨inside, after, whole, closes, length⟩
        exact ⟨c :: inside, after, by rw [whole]; rfl, by rw [goes]; exact closes, length⟩
      · rintro ⟨inside, after, whole, closes, length⟩
        cases inside with
        | nil =>
          obtain ⟨rfl, rfl⟩ := List.cons.inj whole
          exact absurd (Option.some.inj closes) (stays rfl)
        | cons d inside =>
          obtain ⟨rfl, rfl⟩ := List.cons.inj whole
          exact ⟨inside, after, rfl, by rw [← goes]; exact closes, length⟩
    have step : (ofText (c :: rest)).waiting = ((ofText rest).cons c).waiting := rfl
    rw [step]
    by_cases closing : c = ')'
    · subst closing
      cases level with
      | zero =>
        have first : ((ofText rest).cons ')').waiting[0]? = some rest.length := by simp [cons, size_ofText]
        rw [first]
        constructor
        · intro same
          exact ⟨[], rest, rfl, rfl, Option.some.inj same⟩
        · rintro ⟨inside, after, whole, closes, length⟩
          cases inside with
          | nil =>
            obtain ⟨-, rfl⟩ := List.cons.inj whole
            rw [length]
          | cons d inside =>
            obtain ⟨rfl, -⟩ := List.cons.inj whole
            simp [openBehind?] at closes
      | succ level =>
        have later : ((ofText rest).cons ')').waiting[level + 1]? = (ofText rest).waiting[level]? := by simp [cons]
        rw [later]
        exact shift (by simp [openBehind?]) (by simp)
    by_cases opening : c = '('
    · subst opening
      have later : ((ofText rest).cons '(').waiting[level]? = (ofText rest).waiting[level + 1]? := by
        cases waits : (ofText rest).waiting <;> simp [cons, waits]
      rw [later]
      exact shift (by simp [openBehind?]) (by simp)
    · have same : ((ofText rest).cons c).waiting = (ofText rest).waiting := by simp [cons, closing, opening]
      rw [same]
      exact shift (by simp [openBehind?, closing, opening]) (by simp [closing])

end Pairing

/-- An opening parenthesis knows the length of the balanced text up to its partner. -/
theorem glyphs_opening (rest : List Char) (span : Nat) :
    glyphs ('(' :: rest) = ⟨'(', some span⟩ :: glyphs rest ↔
      ∃ inside after, rest = inside ++ ')' :: after ∧ Balanced inside ∧ inside.length = span := by
  have whole : glyphs ('(' :: rest) = ((Pairing.ofText rest).cons '(').glyphs := rfl
  have first := Pairing.getElem?_waiting_ofText rest 0
  rw [whole]
  cases waits : (Pairing.ofText rest).waiting with
  | nil =>
    have alone : ((Pairing.ofText rest).cons '(').glyphs = ⟨'(', none⟩ :: glyphs rest := by simp [Pairing.cons, waits, glyphs]
    rw [alone]
    constructor
    · intro same
      simp at same
    · rintro ⟨inside, after, same, balanced, length⟩
      have found := (first after.length).mpr ⟨inside, after, same, balanced, rfl⟩
      simp [waits] at found
  | cons follow waiting =>
    have paired : ((Pairing.ofText rest).cons '(').glyphs = ⟨'(', some (rest.length - follow - 1)⟩ :: glyphs rest := by
      simp [Pairing.cons, waits, glyphs, Pairing.size_ofText]
    rw [paired]
    constructor
    · intro same
      obtain ⟨inside, after, rfl, balanced, rfl⟩ := (first follow).mp (by simp [waits])
      refine ⟨inside, after, rfl, balanced, ?_⟩
      simp only [List.length_append, List.length_cons, List.cons.injEq, Glyph.mk.injEq, Option.some.injEq] at same
      omega
    · rintro ⟨inside, after, same, balanced, length⟩
      have found := (first after.length).mpr ⟨inside, after, same, balanced, rfl⟩
      simp only [waits, List.getElem?_cons_zero, Option.some.injEq] at found
      have distance : rest.length - follow - 1 = span := by
        rw [same, List.length_append, List.length_cons]
        omega
      rw [distance]

namespace Place

theorem skipBlanks_glyphs (text : List Char) : skipBlanks (glyphs text) = glyphs (text.dropWhile Unicode.isBlank) :=
  dropWhile_glyphs Unicode.isBlank text

theorem readWord_glyphs (text : List Char) :
    readWord (glyphs text) = (text.takeWhile isWordChar, glyphs (text.dropWhile isWordChar)) := by
  rw [readWord, plain_takeWhile_glyphs, dropWhile_glyphs]

/-- A header is a balanced text in parentheses, behind blanks. -/
theorem readHeader?_glyphs (text header : List Char) (place : Place) :
    readHeader? (glyphs text) = some (header, place) ↔ ∃ after,
      text.dropWhile Unicode.isBlank = '(' :: (header ++ ')' :: after) ∧ Balanced header ∧ place = glyphs after := by
  have behind (inside after : List Char) :
      (glyphs (inside ++ ')' :: after)).drop (inside.length + 1) = glyphs after := by
    rw [drop_glyphs, ← List.drop_drop, List.drop_left]
    rfl
  have between (inside after : List Char) :
      plain ((glyphs (inside ++ ')' :: after)).take inside.length) = inside := by
    rw [plain, List.map_take, ← plain, plain_glyphs, List.take_left]
  constructor
  · intro found
    unfold readHeader? at found
    rw [skipBlanks_glyphs] at found
    split at found
    · next span rest here =>
      have spelled := congrArg plain here
      rw [plain_glyphs] at spelled
      have start : text.dropWhile Unicode.isBlank = '(' :: plain rest := spelled
      rw [start] at here ⊢
      obtain ⟨span', here'⟩ := exists_glyphs_cons '(' (plain rest)
      have rest_eq : rest = glyphs (plain rest) := (List.cons.inj (here.symm.trans here')).2
      rw [rest_eq, plain_glyphs] at here
      obtain ⟨inside, after, same, balanced, length⟩ := (glyphs_opening _ span).mp here
      rw [rest_eq, same, ← length, between, behind] at found
      cases found
      exact ⟨after, by rw [same], balanced, rfl⟩
    · cases found
  · rintro ⟨after, start, balanced, same⟩
    have here := (glyphs_opening _ header.length).mpr ⟨header, after, rfl, balanced, rfl⟩
    rw [readHeader?, skipBlanks_glyphs, start, here]
    simp only [between, behind, same]

theorem afterCase?_other {c : Char} (other : c ≠ ':') (text : List Char) :
    afterCase? (glyphs (c :: text)) =
      if c = ';' ∨ c = '{' ∨ c = '}' then none else afterCase? (glyphs text) := by
  obtain ⟨span, here⟩ := exists_glyphs_cons c text
  rw [here]
  cases text with
  | nil => simp [glyphs_nil, afterCase?, other]
  | cons d rest =>
    obtain ⟨span', here'⟩ := exists_glyphs_cons d rest
    rw [here', afterCase?, if_neg other]

theorem afterCase?_colon (text : List Char) :
    afterCase? (glyphs (':' :: text)) =
      if text.head? = some ':' then afterCase? (glyphs text.tail) else some (glyphs text) := by
  obtain ⟨span, here⟩ := exists_glyphs_cons ':' text
  rw [here]
  cases text with
  | nil => rfl
  | cons d rest =>
    obtain ⟨span', here'⟩ := exists_glyphs_cons d rest
    rw [here', afterCase?, if_pos rfl, ← here']
    simp

end Place

end LoopCost
