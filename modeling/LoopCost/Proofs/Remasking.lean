import LoopCost.Proofs.Masking
import LoopCost.Report.Basic

/-! Masking what is masked already changes nothing. A second reader finds blanks where the first one was in a comment or
in a literal, and so it never leaves the code. It may take a word for a number, since the quote in front of the word may
be blank by now. But no quote shows in a word, and in a number of the first reader the second one is in a number too. -/

namespace LoopCost

open Piece

def Run.Follows (second : Run) : Mode → Prop
  | .code run => (run = .none → second = .none) ∧ (run = .number → second = .number)
  | _ => second = .none

def Glimpses (masked next : Option Char) : Prop :=
  masked = next ∨ masked = some ' ' ∨ masked = some '\n'

theorem blanked_eq (c : Char) : blanked c = ' ' ∨ blanked c = '\n' := by
  unfold blanked
  split
  · exact .inr rfl
  · exact .inl rfl

theorem isTokenChar_blanked (c : Char) : isTokenChar (blanked c) = false := by
  have space : isTokenChar ' ' = false := by decide +kernel
  have newline : isTokenChar '\n' = false := by decide +kernel
  rcases blanked_eq c with blank | blank
  · rw [blank, space]
  · rw [blank, newline]

theorem Run.next_blanked (run : Run) (c : Char) : run.next (blanked c) = .none := by
  simp [Run.next, isTokenChar_blanked]

theorem Mode.next_blanked (run : Run) (c : Char) (next : Option Char) :
    (Mode.code run).next (blanked c) next = .code .none := by
  have plain : blanked c ≠ '/' ∧ blanked c ≠ '"' ∧ blanked c ≠ '\'' := by
    rcases blanked_eq c with blank | blank <;> rw [blank] <;> decide
  simp [Mode.next, Mode.afterCode, plain, Run.next_blanked]

/-- What begins neither a comment nor a literal is code, and only that. -/
theorem Mode.afterCode_eq_code {run run' : Run} {c : Char} {next : Option Char} :
    Mode.afterCode run c next = .code run' ↔
      run' = run.next c ∧ ¬ (c = '/' ∧ (next = some '/' ∨ next = some '*')) ∧ c ≠ '"' ∧
        (c = '\'' → isSeparator run next = true) := by
  unfold Mode.afterCode
  by_cases line : c = '/' ∧ next = some '/'
  · simp [line]
  by_cases block : c = '/' ∧ next = some '*'
  · simp [block]
  by_cases quoted : c = '"' ∨ c = '\'' ∧ (!isSeparator run next) = true
  · rw [if_neg line, if_neg block, if_pos quoted]
    grind
  · rw [if_neg line, if_neg block, if_neg quoted, Mode.code.injEq]
    grind

theorem Mode.shows_iff (mode : Mode) (c : Char) (next : Option Char) :
    mode.shows c next = true ↔ ∃ run, mode = .code run ∧ mode.next c next = .code (run.next c) := by
  cases mode with
  | code run =>
    unfold Mode.shows
    cases turned : (Mode.code run).next c next with
    | code run' => simp [(Mode.afterCode_eq_code.mp turned).1]
    | _ => simp
  | _ => simp [Mode.shows]

/-- Out of comments and literals no reader comes into a number. -/
theorem Mode.next_of_hidden {mode : Mode} {c : Char} {next : Option Char} (hidden : mode.shows c next = false) :
    Run.none.Follows (mode.next c next) := by
  cases entered : mode.next c next with
  | code run =>
    refine ⟨fun _ => rfl, ?_⟩
    rintro rfl
    cases mode with
    | code run => simp [Mode.shows, entered] at hidden
    | lineComment | blockComment =>
      unfold Mode.next at entered
      dsimp only at entered
      split at entered <;> cases entered
    | blockOpening | blockClosing => cases entered
    | literal quote escaped =>
      change Mode.afterLiteral quote escaped c = _ at entered
      unfold Mode.afterLiteral at entered
      grind
  | _ => rfl

theorem Run.Follows.next {run second : Run} (follows : second.Follows (.code run)) (c : Char) :
    (second.next c).Follows (.code (run.next c)) := by
  obtain ⟨outside, inside⟩ := follows
  by_cases token : isTokenChar c = true
  · cases run with
    | none => rw [outside rfl]; exact ⟨id, id⟩
    | word => simp [Run.next, token, Run.Follows]
    | number => simp [Run.next, token, Run.Follows, inside rfl]
  · simp [Run.next, token, Run.Follows]

/-- A character that shows is code for the second reader as well. -/
theorem Run.Follows.stays {run second : Run} (follows : second.Follows (.code run)) {c : Char} {next masked : Option Char}
    (shown : (Mode.code run).next c next = .code (run.next c)) (glimpses : Glimpses masked next)
    (letters : next.any Unicode.isAlphanumeric = true → masked = next) :
    (Mode.code second).next c masked = .code (second.next c) := by
  obtain ⟨-, plain, double, single⟩ := Mode.afterCode_eq_code.mp shown
  apply Mode.afterCode_eq_code.mpr
  refine ⟨rfl, ?_, double, ?_⟩
  · rintro ⟨slash, opens⟩
    rcases glimpses with same | blank | blank
    · exact plain ⟨slash, same ▸ opens⟩
    · simp [blank] at opens
    · simp [blank] at opens
  · -- The first reader saw a separator, so the letter behind it shows.
    intro quote
    obtain ⟨number, letter⟩ := Bool.and_eq_true_iff.mp (single quote)
    have inside : second = .number := follows.2 (beq_iff_eq.mp number)
    simp [isSeparator, inside, letters letter, letter]

theorem glimpses_maskFrom (mode : Mode) (source : List Char) :
    Glimpses (maskFrom mode [] source).head? source.head? := by
  cases source with
  | nil => exact .inl rfl
  | cons c rest =>
    rw [maskFrom_cons]
    simp only [List.head?_cons]
    split
    · exact .inl rfl
    · exact .inr ((blanked_eq c).imp (congrArg some) (congrArg some))

/-- A letter or a digit of code always shows. -/
theorem head?_maskFrom_code (run : Run) {source : List Char}
    (letter : source.head?.any Unicode.isAlphanumeric = true) :
    (maskFrom (.code run) [] source).head? = source.head? := by
  cases source with
  | nil => rfl
  | cons c rest =>
    have slash : Unicode.isAlphanumeric '/' = false := by decide +kernel
    have double : Unicode.isAlphanumeric '"' = false := by decide +kernel
    have single : Unicode.isAlphanumeric '\'' = false := by decide +kernel
    have plain : c ≠ '/' ∧ c ≠ '"' ∧ c ≠ '\'' := by
      refine ⟨?_, ?_, ?_⟩ <;> rintro rfl <;> simp_all
    have stays : (Mode.code run).next c rest.head? = .code (run.next c) := by
      simp [Mode.next, Mode.afterCode, plain]
    have shown : (Mode.code run).shows c rest.head? = true := (Mode.shows_iff ..).mpr ⟨run, rfl, stays⟩
    rw [maskFrom_cons, shown]
    rfl

/-- The second reader leaves everything as the first one has left it. -/
theorem maskFrom_maskFrom {mode : Mode} {second : Run} (follows : second.Follows mode) (source : List Char) :
    maskFrom (.code second) [] (maskFrom mode [] source) = maskFrom mode [] source := by
  induction source generalizing mode second with
  | nil => rfl
  | cons c rest ih =>
    rw [maskFrom_cons mode]
    cases hidden : mode.shows c rest.head? with
    | false =>
      have stays := Mode.next_blanked second c (maskFrom (mode.next c rest.head?) [] rest).head?
      have shown : (Mode.code second).shows (blanked c) (maskFrom (mode.next c rest.head?) [] rest).head? = true :=
        (Mode.shows_iff ..).mpr ⟨second, rfl, by rw [stays, Run.next_blanked]⟩
      simp only [Bool.false_eq_true, if_false]
      rw [maskFrom_cons, shown, stays, ih (Mode.next_of_hidden hidden), if_pos rfl]
    | true =>
      obtain ⟨run, rfl, goesOn⟩ := (Mode.shows_iff ..).mp hidden
      have glimpses := glimpses_maskFrom (.code (run.next c)) rest
      have letters (letter : rest.head?.any Unicode.isAlphanumeric = true) := head?_maskFrom_code (run.next c) letter
      have stays := follows.stays goesOn glimpses letters
      have shown := (Mode.shows_iff ..).mpr ⟨second, rfl, stays⟩
      simp only [if_true, goesOn]
      rw [maskFrom_cons, shown, stays, ih (follows.next c), if_pos rfl]

theorem Run.follows_start : Run.none.Follows (.code .none) := ⟨fun _ => rfl, by simp⟩

theorem mask_mask (source : List Char) : mask (mask source) = mask source :=
  maskFrom_maskFrom Run.follows_start source

/-- Where masking changes nothing there is nothing but code. -/
theorem Piece.Splits.eq_map_code {before : List Piece} {source : List Char} {pieces : List Piece}
    (splits : Splits before source pieces) (unchanged : pieces.flatMap masked = source) : pieces = source.map code := by
  have slash : blanked '/' ≠ '/' := by decide
  have double : blanked '"' ≠ '"' := by decide
  have single : blanked '\'' ≠ '\'' := by decide
  induction splits with
  | done => rfl
  | @next before piece rest pieces stands others ih =>
    rw [List.flatMap_cons] at unchanged
    cases piece with
    | code c =>
      obtain ⟨-, later⟩ := List.cons.inj unchanged
      rw [ih later]
      rfl
    | lineComment inside | blockComment inside => exact absurd (List.cons.inj unchanged).1 slash
    | literal quote inside =>
      obtain ⟨first, -⟩ := List.cons.inj unchanged
      rcases stands.1 with rfl | ⟨rfl, -⟩
      · exact absurd first double
      · exact absurd first single

theorem Piece.Splits.stands_code {before : List Piece} {front rest : List Char} {c : Char}
    (splits : Splits before (front ++ c :: rest) ((front ++ c :: rest).map code)) :
    Stands (before ++ front.map code) rest (code c) := by
  induction front generalizing before with
  | nil =>
    rw [List.nil_append, List.map_cons] at splits
    generalize whole : c :: rest = source at splits
    generalize listed : code c :: rest.map code = pieces at splits
    cases splits with
    | done => cases whole
    | next stands others =>
      obtain ⟨rfl, -⟩ := List.cons.inj listed
      obtain ⟨-, rfl⟩ := List.cons.inj whole
      simpa using stands
  | cons d front ih =>
    rw [List.cons_append, List.map_cons] at splits
    generalize whole : d :: (front ++ c :: rest) = source at splits
    generalize listed : code d :: (front ++ c :: rest).map code = pieces at splits
    cases splits with
    | done => cases whole
    | next stands others =>
      obtain ⟨rfl, rfl⟩ := List.cons.inj listed
      obtain ⟨-, rfl⟩ := List.cons.inj whole
      simpa using ih others

/-- A masked text is code alone: every quote in it separates digits. Masking and analysing it give what they give for the
source. -/
theorem masked_is_code (source : List Char) :
    mask (mask source) = mask source ∧
      (∀ pieces, Splits [] (mask source) pieces ↔ pieces = (mask source).map code) ∧
      (∀ front rest, mask source = front ++ '\'' :: rest → Separates (front.map code) rest) ∧
      ∀ names, Analysis.ofSource names (mask source) = Analysis.ofSource names source := by
  have unchanged := mask_mask source
  have alone : ∀ pieces, Splits [] (mask source) pieces → pieces = (mask source).map code := by
    intro pieces splits
    exact splits.eq_map_code ((maskFrom_splits splits Run.agrees_start).symm.trans unchanged)
  obtain ⟨pieces, splits⟩ := exists_splits [] (mask source)
  have code : Splits [] (mask source) ((mask source).map code) := alone pieces splits ▸ splits
  refine ⟨unchanged, fun pieces => ⟨alone pieces, ?_⟩, ?_, ?_⟩
  · rintro rfl
    exact code
  · intro front rest whole
    have stands := Splits.stands_code (whole ▸ code)
    exact stands.2.2 rfl
  · intro names
    simp only [Analysis.ofSource, unchanged]

end LoopCost
