import LoopCost.Source.Mask
import Mathlib.Data.List.TakeWhile

/-! How a source text falls into code, comments and literals. The rules say where each piece ends by looking at
the piece as a whole, and whether a quote separates digits by looking at what is in front of it. They determine
the pieces of every text. -/

namespace LoopCost

inductive Piece
  | code (c : Char)
  /-- A comment up to the end of its line; the two slashes are left out. -/
  | lineComment (inside : List Char)
  /-- A comment with its closing mark, if it has one, but without the opening one. -/
  | blockComment (inside : List Char)
  | literal (quote : Char) (inside : List Char)
  deriving DecidableEq

namespace Piece

def text : Piece → List Char
  | code c => [c]
  | lineComment inside => '/' :: '/' :: inside
  | blockComment inside => '/' :: '*' :: inside
  | literal quote inside => quote :: inside

def masked : Piece → List Char
  | code c => [c]
  | piece => piece.text.map blanked

/-- Whether a backslash waits for the character it escapes, at the end of a literal that was read this far. -/
def escaping (waits : Bool) (read : List Char) : Bool := read.foldl (fun waits c => c == '\\' && !waits) waits

def EndsLiteral (quote : Char) (waits : Bool) (text : List Char) : Prop :=
  ∃ front, text = front ++ [quote] ∧ escaping waits front = false

def EndsComment (text : List Char) : Prop := ['*', '/'] <:+ text

/-- The piece goes on inside until it ends for the first time, or else to the end of the text. -/
def Extends (ends : List Char → Prop) (inside rest : List Char) : Prop :=
  (∀ front, front <+: inside → ends front → front = inside) ∧ (ends inside ∨ rest = [])

/-- Some digit starts a token, and everything from it on is characters of the token read as code. -/
def InNumber (before : List Piece) : Prop :=
  ∃ earlier digit others, before = earlier ++ (digit :: others).map code ∧ Unicode.isDigit digit = true ∧
    (∀ c ∈ digit :: others, isTokenChar c = true) ∧ ∀ c ∈ (earlier.flatMap text).getLast?, isTokenChar c = false

def Separates (before : List Piece) (rest : List Char) : Prop :=
  InNumber before ∧ ∃ next ∈ rest.head?, Unicode.isAlphanumeric next = true

def Stands (before : List Piece) (rest : List Char) : Piece → Prop
  | code c =>
    ¬ (c = '/' ∧ (rest.head? = some '/' ∨ rest.head? = some '*')) ∧ c ≠ '"' ∧ (c = '\'' → Separates before rest)
  | lineComment inside => '\n' ∉ inside ∧ ∀ next ∈ rest.head?, next = '\n'
  | blockComment inside => Extends EndsComment inside rest
  | literal quote inside =>
    (quote = '"' ∨ quote = '\'' ∧ ¬ Separates before (inside ++ rest)) ∧ Extends (EndsLiteral quote false) inside rest

/-- The source falls into the pieces, read from left to right behind the pieces before. -/
inductive Splits : List Piece → List Char → List Piece → Prop
  | done {before} : Splits before [] []
  | next {before piece rest pieces} (stands : Stands before rest piece)
      (others : Splits (before ++ [piece]) rest pieces) : Splits before (piece.text ++ rest) (piece :: pieces)

theorem Extends.unique {ends : List Char → Prop} {inside inside' rest rest' : List Char}
    (first : Extends ends inside rest) (second : Extends ends inside' rest')
    (same : inside ++ rest = inside' ++ rest') : inside = inside' ∧ rest = rest' := by
  have agree : inside = inside' := by
    rcases List.prefix_or_prefix_of_prefix ⟨rest, same⟩ (List.prefix_append inside' rest') with shorter | longer
    · rcases first.2 with ended | rfl
      · exact second.1 inside shorter ended
      · rw [List.append_nil] at same
        exact shorter.eq_of_length_le (by rw [same]; simp)
    · rcases second.2 with ended | rfl
      · exact (first.1 inside' longer ended).symm
      · rw [List.append_nil] at same
        exact (longer.eq_of_length_le (by rw [← same]; simp)).symm
  subst agree
  exact ⟨rfl, List.append_cancel_left same⟩

theorem Extends.tail {ends ends' : List Char → Prop} {c : Char} {inside rest : List Char}
    (stays : Extends ends (c :: inside) rest) (later : ∀ front, ends' front → ends (c :: front))
    (still : ends (c :: inside) → ends' inside) : Extends ends' inside rest := by
  refine ⟨?_, stays.2.imp_left still⟩
  intro front leads ended
  exact (List.cons.inj (stays.1 (c :: front) (List.cons_prefix_cons.mpr ⟨rfl, leads⟩) (later front ended))).2

theorem exists_extends (ends : List Char → Prop) (source : List Char) :
    ∃ inside rest, source = inside ++ rest ∧ Extends ends inside rest := by
  induction source generalizing ends with
  | nil => exact ⟨[], [], rfl, fun front empty _ => List.prefix_nil.mp empty, .inr rfl⟩
  | cons c source ih =>
    by_cases ended : ends []
    · exact ⟨[], c :: source, rfl, fun front empty _ => List.prefix_nil.mp empty, .inl ended⟩
    · obtain ⟨inside, rest, rfl, shortest, ended'⟩ := ih fun front => ends (c :: front)
      refine ⟨c :: inside, rest, rfl, ?_, ended'⟩
      intro front leads finished
      rcases List.prefix_cons_iff.mp leads with rfl | ⟨front, rfl, leads'⟩
      · exact absurd finished ended
      · rw [shortest front leads' finished]

private theorem lineComment_unique {inside inside' rest rest' : List Char} (first : '\n' ∉ inside)
    (second : '\n' ∉ inside') (stops : ∀ next ∈ rest.head?, next = '\n') (stops' : ∀ next ∈ rest'.head?, next = '\n')
    (same : inside ++ rest = inside' ++ rest') : inside = inside' ∧ rest = rest' := by
  induction inside generalizing inside' with
  | nil =>
    cases inside' with
    | nil => exact ⟨rfl, same⟩
    | cons c inside' =>
      subst same
      have newline : c = '\n' := stops c rfl
      simp [newline] at second
  | cons c inside ih =>
    cases inside' with
    | nil =>
      subst same
      have newline : c = '\n' := stops' c rfl
      simp [newline] at first
    | cons d inside' =>
      simp only [List.cons_append, List.cons.injEq, List.mem_cons, not_or] at same first second
      obtain ⟨agree, equal⟩ := ih first.2 second.2 same.2
      exact ⟨by rw [same.1, agree], equal⟩

/-- A character of code starts no comment and no literal. -/
private theorem code_unique {before : List Piece} {c : Char} {rest rest' : List Char} {piece : Piece}
    (first : Stands before rest (code c)) (second : Stands before rest' piece)
    (same : c :: rest = piece.text ++ rest') : code c = piece ∧ rest = rest' := by
  obtain ⟨plain, double, single⟩ := first
  cases piece with
  | code d =>
    simp only [text, List.singleton_append, List.cons.injEq] at same
    exact ⟨by rw [same.1], same.2⟩
  | lineComment inside =>
    simp only [text, List.cons_append, List.cons.injEq] at same
    exact absurd ⟨same.1, .inl (by rw [same.2]; rfl)⟩ plain
  | blockComment inside =>
    simp only [text, List.cons_append, List.cons.injEq] at same
    exact absurd ⟨same.1, .inr (by rw [same.2]; rfl)⟩ plain
  | literal quote inside =>
    simp only [text, List.cons_append, List.cons.injEq] at same
    obtain ⟨rfl, rfl⟩ := same
    rcases second.1 with quoted | ⟨quoted, literal⟩
    · exact absurd quoted double
    · exact absurd (single quoted) literal

theorem Stands.unique {before : List Piece} {rest rest' : List Char} {piece piece' : Piece}
    (first : Stands before rest piece) (second : Stands before rest' piece')
    (same : piece.text ++ rest = piece'.text ++ rest') : piece = piece' ∧ rest = rest' := by
  cases piece with
  | code c => exact code_unique first second same
  | lineComment inside =>
    cases piece' with
    | code c => exact (code_unique second first same.symm).imp Eq.symm Eq.symm
    | lineComment inside' =>
      simp only [text, List.cons_append, List.cons.injEq, true_and] at same
      obtain ⟨rfl, equal⟩ := lineComment_unique first.1 second.1 first.2 second.2 same
      exact ⟨rfl, equal⟩
    | blockComment inside' => simp [text] at same
    | literal quote inside' =>
      simp only [text, List.cons_append, List.cons.injEq] at same
      rcases second.1 with quoted | ⟨quoted, _⟩ <;> simp [quoted] at same
  | blockComment inside =>
    cases piece' with
    | code c => exact (code_unique second first same.symm).imp Eq.symm Eq.symm
    | lineComment inside' => simp [text] at same
    | blockComment inside' =>
      simp only [text, List.cons_append, List.cons.injEq, true_and] at same
      obtain ⟨rfl, equal⟩ := Extends.unique first second same
      exact ⟨rfl, equal⟩
    | literal quote inside' =>
      simp only [text, List.cons_append, List.cons.injEq] at same
      rcases second.1 with quoted | ⟨quoted, _⟩ <;> simp [quoted] at same
  | literal quote inside =>
    cases piece' with
    | code c => exact (code_unique second first same.symm).imp Eq.symm Eq.symm
    | lineComment inside' | blockComment inside' =>
      simp only [text, List.cons_append, List.cons.injEq] at same
      rcases first.1 with quoted | ⟨quoted, _⟩ <;> simp [quoted] at same
    | literal quote' inside' =>
      simp only [text, List.cons_append, List.cons.injEq] at same
      obtain ⟨rfl, same⟩ := same
      obtain ⟨rfl, equal⟩ := Extends.unique first.2 second.2 same
      exact ⟨rfl, equal⟩

theorem Splits.text_eq {before : List Piece} {source : List Char} {pieces : List Piece}
    (splits : Splits before source pieces) : pieces.flatMap text = source := by
  induction splits with
  | done => rfl
  | next stands others ih => rw [List.flatMap_cons, ih]

theorem Splits.unique {before : List Piece} {source : List Char} {pieces pieces' : List Piece}
    (first : Splits before source pieces) (second : Splits before source pieces') : pieces' = pieces := by
  induction first generalizing pieces' with
  | done =>
    generalize whole : ([] : List Char) = source at second
    cases second with
    | done => rfl
    | @next _ piece => cases piece <;> simp [text] at whole
  | @next before piece rest pieces stands others ih =>
    generalize whole : piece.text ++ rest = source at second
    cases second with
    | done => cases piece <;> simp [text] at whole
    | next stands' others' =>
      obtain ⟨rfl, rfl⟩ := stands.unique stands' whole
      rw [ih others']

private theorem exists_stands (before : List Piece) (c : Char) (source : List Char) :
    ∃ piece rest, c :: source = piece.text ++ rest ∧ Stands before rest piece := by
  by_cases line : c = '/' ∧ source.head? = some '/'
  · obtain ⟨rfl, next⟩ := line
    obtain ⟨tail, rfl⟩ := List.head?_eq_some_iff.mp next
    refine ⟨.lineComment (tail.takeWhile (· != '\n')), tail.dropWhile (· != '\n'), ?_, ?_, ?_⟩
    · simp [text, List.takeWhile_append_dropWhile]
    · intro member
      simpa using List.mem_takeWhile_imp member
    · intro next member
      have stops := List.head?_dropWhile_not (· != '\n') tail
      rw [Option.mem_def.mp member] at stops
      simpa using stops
  by_cases block : c = '/' ∧ source.head? = some '*'
  · obtain ⟨rfl, next⟩ := block
    obtain ⟨tail, rfl⟩ := List.head?_eq_some_iff.mp next
    obtain ⟨inside, rest, rfl, extends_⟩ := exists_extends EndsComment tail
    exact ⟨.blockComment inside, rest, rfl, extends_⟩
  by_cases quoted : c = '"' ∨ c = '\'' ∧ ¬ Separates before source
  · obtain ⟨inside, rest, rfl, extends_⟩ := exists_extends (EndsLiteral c false) source
    exact ⟨.literal c inside, rest, rfl, quoted, extends_⟩
  · refine ⟨.code c, source, rfl, ?_, ?_, ?_⟩
    · rintro ⟨slash, next | next⟩
      · exact line ⟨slash, next⟩
      · exact block ⟨slash, next⟩
    · exact fun double => quoted (.inl double)
    · intro single
      by_contra literal
      exact quoted (.inr ⟨single, literal⟩)

theorem exists_splits (before : List Piece) (source : List Char) : ∃ pieces, Splits before source pieces := by
  match source with
  | [] => exact ⟨[], .done⟩
  | c :: source =>
    obtain ⟨piece, rest, whole, stands⟩ := exists_stands before c source
    have shorter : rest.length < (c :: source).length := by
      rw [whole, List.length_append]
      cases piece <;> simp [text]
    obtain ⟨pieces, others⟩ := exists_splits (before ++ [piece]) rest
    exact ⟨piece :: pieces, whole ▸ .next stands others⟩
termination_by source.length
decreasing_by exact shorter

end Piece

end LoopCost
