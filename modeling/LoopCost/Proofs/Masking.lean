import LoopCost.Proofs.Pieces
import Mathlib.Data.List.Basic

/-! Masking works on the pieces of a source as their rules demand. While it reads on behind some pieces, its mode is
the run that agrees with them. -/

namespace LoopCost

open Piece

/-- The run tells how the token that ends behind the pieces began. -/
def Run.Agrees (run : Run) (before : List Piece) : Prop :=
  (run = .none ↔ ∀ c ∈ (before.flatMap text).getLast?, isTokenChar c = false) ∧ (run = .number ↔ InNumber before)

theorem isSeparator_iff {run : Run} {before : List Piece} (agrees : run.Agrees before) (rest : List Char) :
    isSeparator run rest.head? = true ↔ Separates before rest := by
  rw [isSeparator, Bool.and_eq_true, beq_iff_eq, agrees.2, Option.any_eq_true]
  rfl

namespace Piece

theorem inNumber_append_code (before : List Piece) (c : Char) :
    InNumber (before ++ [code c]) ↔ isTokenChar c = true ∧
      (InNumber before ∨ Unicode.isDigit c = true ∧ ∀ last ∈ (before.flatMap text).getLast?, isTokenChar last = false) := by
  constructor
  · intro ⟨earlier, digit, others, whole, isDigit, tokens, starts⟩
    rcases List.eq_nil_or_concat others with rfl | ⟨others, final, rfl⟩
    · obtain ⟨rfl, same⟩ := List.append_inj' whole rfl
      obtain rfl : c = digit := by simpa using same
      exact ⟨tokens _ (by simp), .inr ⟨isDigit, starts⟩⟩
    · have parts : before ++ [code c] = (earlier ++ (digit :: others).map code) ++ [code final] := by simp [whole]
      obtain ⟨rfl, same⟩ := List.append_inj' parts rfl
      obtain rfl : c = final := by simpa using same
      refine ⟨tokens _ (by simp), .inl ⟨earlier, digit, others, rfl, isDigit, ?_, starts⟩⟩
      intro d member
      exact tokens d (List.concat_eq_append ▸ List.mem_append_left [c] member)
  · rintro ⟨token, ⟨earlier, digit, others, rfl, isDigit, tokens, starts⟩ | ⟨isDigit, starts⟩⟩
    · refine ⟨earlier, digit, others ++ [c], by simp, isDigit, ?_, starts⟩
      intro d member
      rw [← List.cons_append, List.mem_append] at member
      rcases member with member | member
      · exact tokens d member
      · rw [List.mem_singleton.mp member, token]
    · exact ⟨before, c, [], by simp, isDigit, by simpa using token, starts⟩

theorem text_ne_nil (piece : Piece) : piece.text ≠ [] := by cases piece <;> simp [text]

theorem not_inNumber_append {before : List Piece} {piece : Piece} (other : ∀ c, piece ≠ code c) :
    ¬ InNumber (before ++ [piece]) := by
  intro ⟨earlier, digit, others, whole, _, _, _⟩
  have last : piece ∈ (digit :: others).map code := by
    have ends := congrArg List.getLast? whole
    rw [List.getLast?_append, List.getLast?_append] at ends
    exact List.mem_of_getLast? (by simpa using ends.symm)
  obtain ⟨c, -, same⟩ := List.mem_map.mp last
  exact other c same.symm

end Piece

theorem Run.Agrees.next {run : Run} {before : List Piece} (agrees : run.Agrees before) (c : Char) :
    (run.next c).Agrees (before ++ [code c]) := by
  constructor
  · rw [List.flatMap_append, List.getLast?_append]
    cases run <;> simp [Run.next, text]
    grind
  · rw [inNumber_append_code, ← agrees.1, ← agrees.2]
    cases run <;> simp [Run.next] <;> grind

theorem Run.agrees_start : Run.none.Agrees [] := by
  constructor
  · simp
  · simp [InNumber]

/-- Behind a comment or a literal no number goes on. -/
theorem Run.agrees_behind {before : List Piece} {piece : Piece} {run : Run} (other : ∀ c, piece ≠ code c)
    (known : run ≠ .number) (ends : run = .none ↔ ∀ c ∈ piece.text.getLast?, isTokenChar c = false) :
    run.Agrees (before ++ [piece]) := by
  refine ⟨?_, iff_of_false known (not_inNumber_append other)⟩
  rw [List.flatMap_append, List.flatMap_singleton, List.getLast?_append_of_ne_nil _ piece.text_ne_nil]
  exact ends

theorem Run.exists_agrees (before : List Piece) {piece : Piece} (other : ∀ c, piece ≠ code c) :
    ∃ run : Run, run.Agrees (before ++ [piece]) := by
  by_cases ends : ∀ c ∈ piece.text.getLast?, isTokenChar c = false
  · exact ⟨.none, agrees_behind other (by simp) (iff_of_true rfl ends)⟩
  · exact ⟨.word, agrees_behind other (by simp) (iff_of_false (by simp) ends)⟩

/-- Inside of comments and literals nothing shows. -/
theorem maskFrom_hidden {mode : Mode} (hidden : ∀ run, mode ≠ .code run) (c : Char) (rest : List Char) :
    maskFrom mode [] (c :: rest) = blanked c :: maskFrom (mode.next c rest.head?) [] rest := by
  rw [maskFrom_cons]
  cases mode with
  | code run => exact absurd rfl (hidden run)
  | _ => rfl

theorem maskFrom_lineComment {inside : List Char} (single : '\n' ∉ inside) (rest : List Char) :
    maskFrom .lineComment [] (inside ++ rest) = inside.map blanked ++ maskFrom .lineComment [] rest := by
  induction inside with
  | nil => rfl
  | cons c inside ih =>
    rw [List.mem_cons, not_or] at single
    have stays : Mode.lineComment.next c (inside ++ rest).head? = .lineComment := if_neg (Ne.symm single.1)
    rw [List.cons_append, maskFrom_hidden (by simp), stays, ih single.2]
    rfl

/-- The line break that ends a comment is code for every run. -/
theorem maskFrom_behind_lineComment (run : Run) {rest : List Char} (stops : ∀ next ∈ rest.head?, next = '\n') :
    maskFrom .lineComment [] rest = maskFrom (.code run) [] rest := by
  cases rest with
  | nil => rfl
  | cons c rest =>
    obtain rfl : c = '\n' := stops c rfl
    have breaks : run.next '\n' = .none := by
      have plain : isTokenChar '\n' = false := by decide +kernel
      simp [Run.next, plain]
    rw [maskFrom_cons, maskFrom_cons]
    simp [Mode.shows, Mode.next, Mode.afterCode, breaks, blanked]

theorem endsComment_cons (c : Char) (tail : List Char) :
    EndsComment (c :: tail) ↔ c = '*' ∧ tail = ['/'] ∨ EndsComment tail := by
  rw [EndsComment, List.suffix_cons_iff, List.cons.injEq, @eq_comm _ '*', @eq_comm _ ['/']]
  rfl

theorem not_endsComment_singleton (c : Char) : ¬ EndsComment [c] := by
  intro ended
  exact absurd ended.length_le (by simp)

theorem maskFrom_blockComment {inside rest : List Char} (stays : Extends EndsComment inside rest) :
    maskFrom .blockComment [] (inside ++ rest) = inside.map blanked ++ maskFrom (.code .none) [] rest := by
  induction inside with
  | nil =>
    rcases stays.2 with ended | rfl
    · exact absurd ended.length_le (by decide)
    · rfl
  | cons c inside ih =>
    rw [List.cons_append, maskFrom_hidden (by simp)]
    by_cases closes : c = '*' ∧ (inside ++ rest).head? = some '/'
    · have turns : Mode.blockComment.next c (inside ++ rest).head? = .blockClosing := if_pos closes
      rw [turns]
      obtain ⟨rfl, next⟩ := closes
      cases inside with
      | nil =>
        rcases stays.2 with ended | rfl
        · exact absurd ended (not_endsComment_singleton '*')
        · simp at next
      | cons d inside =>
        obtain rfl : d = '/' := by simpa using next
        have whole := stays.1 ['*', '/'] ⟨inside, rfl⟩ (List.suffix_refl _)
        obtain rfl : inside = [] := by simpa using whole.symm
        rw [List.singleton_append, maskFrom_hidden (by simp)]
        rfl
    · have goesOn : Mode.blockComment.next c (inside ++ rest).head? = .blockComment := if_neg closes
      have still : EndsComment (c :: inside) → EndsComment inside := by
        intro ended
        rcases (endsComment_cons c inside).mp ended with ⟨star, rfl⟩ | ended
        · exact absurd ⟨star, rfl⟩ closes
        · exact ended
      rw [goesOn, ih (Extends.tail stays (fun front ended => (endsComment_cons c front).mpr (.inr ended)) still)]
      rfl

theorem endsLiteral_cons (quote : Char) (waits : Bool) (c : Char) (tail : List Char) :
    EndsLiteral quote waits (c :: tail) ↔
      c = quote ∧ waits = false ∧ tail = [] ∨ EndsLiteral quote (c == '\\' && !waits) tail := by
  constructor
  · intro ⟨front, whole, ready⟩
    cases front with
    | nil =>
      obtain ⟨same, rfl⟩ := List.cons.inj whole
      exact .inl ⟨same, ready, rfl⟩
    | cons d front =>
      obtain ⟨rfl, rfl⟩ := List.cons.inj whole
      exact .inr ⟨front, rfl, ready⟩
  · rintro (⟨rfl, ready, rfl⟩ | ⟨front, rfl, ready⟩)
    · exact ⟨[], rfl, ready⟩
    · exact ⟨c :: front, rfl, ready⟩

theorem afterLiteral_stays {quote c : Char} {waits : Bool} (further : ¬ (c = quote ∧ waits = false)) :
    Mode.afterLiteral quote waits c = .literal quote (c == '\\' && !waits) := by
  unfold Mode.afterLiteral
  by_cases newline : c = '\n'
  · simp [newline]
  · cases waits with
    | true => simp [newline]
    | false =>
      by_cases backslash : c = '\\'
      · simp [backslash]
      · have other : c ≠ quote := fun same => further ⟨same, rfl⟩
        simp [newline, backslash, other]

/-- The run behind a closed literal: only the quote of a character literal belongs to tokens. -/
def Run.behind (quote : Char) : Run := if quote = '\'' then .word else .none

theorem maskFrom_literal {quote : Char} (delimits : quote = '"' ∨ quote = '\'') {waits : Bool} {inside rest : List Char}
    (stays : Extends (EndsLiteral quote waits) inside rest) :
    maskFrom (.literal quote waits) [] (inside ++ rest) =
      inside.map blanked ++ maskFrom (.code (Run.behind quote)) [] rest := by
  induction inside generalizing waits with
  | nil =>
    rcases stays.2 with ⟨front, whole, -⟩ | rfl
    · exact absurd whole (by simp)
    · rfl
  | cons c inside ih =>
    rw [List.cons_append, maskFrom_hidden (by simp)]
    by_cases closes : c = quote ∧ waits = false
    · obtain ⟨rfl, rfl⟩ := closes
      have whole := stays.1 [c] ⟨inside, rfl⟩ ⟨[], rfl, rfl⟩
      obtain rfl : inside = [] := by simpa using whole.symm
      have turns : (Mode.literal c false).next c rest.head? = .code (Run.behind c) := by
        rcases delimits with rfl | rfl <;> rfl
      rw [List.nil_append, turns]
      rfl
    · have goesOn : (Mode.literal quote waits).next c (inside ++ rest).head? = .literal quote (c == '\\' && !waits) :=
        afterLiteral_stays closes
      have still : EndsLiteral quote waits (c :: inside) → EndsLiteral quote (c == '\\' && !waits) inside := by
        intro ended
        rcases (endsLiteral_cons quote waits c inside).mp ended with ⟨same, ready, -⟩ | ended
        · exact absurd ⟨same, ready⟩ closes
        · exact ended
      rw [goesOn, ih (Extends.tail stays (fun front ended => (endsLiteral_cons quote waits c front).mpr (.inr ended)) still)]
      rfl

theorem maskFrom_code {run : Run} {before : List Piece} {c : Char} {rest : List Char} (agrees : run.Agrees before)
    (stands : Stands before rest (code c)) :
    maskFrom (.code run) [] (c :: rest) = c :: maskFrom (.code (run.next c)) [] rest := by
  obtain ⟨plain, double, single⟩ := stands
  have stays : (Mode.code run).next c rest.head? = .code (run.next c) := by
    have noLine : ¬ (c = '/' ∧ rest.head? = some '/') := fun opens => plain ⟨opens.1, .inl opens.2⟩
    have noBlock : ¬ (c = '/' ∧ rest.head? = some '*') := fun opens => plain ⟨opens.1, .inr opens.2⟩
    have noLiteral : ¬ (c = '"' ∨ c = '\'' ∧ (!isSeparator run rest.head?) = true) := by
      rintro (quoted | ⟨quoted, opens⟩)
      · exact double quoted
      · rw [(isSeparator_iff agrees rest).mpr (single quoted)] at opens
        exact absurd opens (by decide)
    rw [Mode.next, Mode.afterCode, if_neg noLine, if_neg noBlock, if_neg noLiteral]
  have shown : (Mode.code run).shows c rest.head? = true := by
    unfold Mode.shows
    rw [stays]
  rw [maskFrom_cons, stays, shown, if_pos rfl]

/-- The character that leads out of the code is hidden already. -/
theorem maskFrom_leaving {run : Run} {c : Char} {rest : List Char} {mode : Mode}
    (turns : (Mode.code run).next c rest.head? = mode) (outside : ∀ run, mode ≠ .code run) :
    maskFrom (.code run) [] (c :: rest) = blanked c :: maskFrom mode [] rest := by
  have hidden : (Mode.code run).shows c rest.head? = false := by
    unfold Mode.shows
    rw [turns]
    cases mode with
    | code run => exact absurd rfl (outside run)
    | _ => rfl
  rw [maskFrom_cons, turns, hidden, if_neg (by decide)]

theorem maskFrom_opening {run : Run} {before : List Piece} {quote : Char} {rest : List Char} (agrees : run.Agrees before)
    (opens : quote = '"' ∨ quote = '\'' ∧ ¬ Separates before rest) :
    maskFrom (.code run) [] (quote :: rest) = blanked quote :: maskFrom (.literal quote false) [] rest := by
  apply maskFrom_leaving _ (by simp)
  rw [← isSeparator_iff agrees] at opens
  rcases opens with rfl | ⟨rfl, closed⟩ <;> simp [Mode.next, Mode.afterCode, *]

theorem Run.agrees_behind_blockComment {before : List Piece} {inside rest : List Char}
    (stays : Extends EndsComment inside rest) (more : rest ≠ []) :
    Run.none.Agrees (before ++ [blockComment inside]) := by
  obtain ⟨front, rfl⟩ := stays.2.resolve_right more
  apply Run.agrees_behind (by simp) (by simp)
  have whole : (blockComment (front ++ ['*', '/'])).text = ('/' :: '*' :: front) ++ ['*', '/'] := rfl
  have slash : isTokenChar '/' = false := by decide +kernel
  rw [whole, List.getLast?_append_of_ne_nil _ (by simp)]
  simpa using slash

theorem Run.agrees_behind_literal {before : List Piece} {quote : Char} {inside rest : List Char}
    (opens : quote = '"' ∨ quote = '\'') (stays : Extends (EndsLiteral quote false) inside rest) (more : rest ≠ []) :
    (Run.behind quote).Agrees (before ++ [literal quote inside]) := by
  obtain ⟨front, rfl, -⟩ := stays.2.resolve_right more
  have whole : (literal quote (front ++ [quote])).text = (quote :: front) ++ [quote] := rfl
  apply Run.agrees_behind (by simp) (by rcases opens with rfl | rfl <;> decide)
  have double : isTokenChar '"' = false := by decide +kernel
  have single : isTokenChar '\'' = true := by decide +kernel
  rw [whole, List.getLast?_append_of_ne_nil _ (by simp)]
  rcases opens with rfl | rfl <;> simp [Run.behind, double, single]

/-- Where a piece ends with the text, it does not matter what the run behind it is. -/
theorem maskFrom_behind {before : List Piece} {piece : Piece} {rest shown : List Char} (other : ∀ c, piece ≠ code c)
    (later : ∀ {run : Run}, run.Agrees (before ++ [piece]) → maskFrom (.code run) [] rest = shown) {run : Run}
    (agrees : rest ≠ [] → run.Agrees (before ++ [piece])) : maskFrom (.code run) [] rest = shown := by
  by_cases done : rest = []
  · obtain ⟨run', agrees'⟩ := Run.exists_agrees before other
    rw [← later agrees', done]
    rfl
  · exact later (agrees done)

/-- Whatever comes before the source, masking goes by its pieces. -/
theorem maskFrom_splits {before : List Piece} {source : List Char} {pieces : List Piece}
    (splits : Splits before source pieces) {run : Run} (agrees : run.Agrees before) :
    maskFrom (.code run) [] source = pieces.flatMap masked := by
  induction splits generalizing run with
  | done => rfl
  | @next before piece rest pieces stands others ih =>
    rw [List.flatMap_cons]
    cases piece with
    | code c =>
      rw [text, List.singleton_append, maskFrom_code agrees stands, ih (agrees.next c)]
      rfl
    | lineComment inside =>
      -- The last letter of the comment may be one of a token, so the run behind it can be either.
      obtain ⟨run', agrees'⟩ := Run.exists_agrees before (show ∀ c, lineComment inside ≠ code c by simp)
      have opens : (Mode.code run).next '/' (some '/') = .lineComment := by simp [Mode.next, Mode.afterCode]
      rw [← ih agrees', ← maskFrom_behind_lineComment run' stands.2, text, List.cons_append, List.cons_append,
        maskFrom_leaving opens (by simp), maskFrom_hidden (by simp)]
      exact congrArg (' ' :: ' ' :: ·) (maskFrom_lineComment stands.1 rest)
    | blockComment inside =>
      have opens : (Mode.code run).next '/' (some '*') = .blockOpening := by simp [Mode.next, Mode.afterCode]
      rw [← maskFrom_behind (by simp) ih (Run.agrees_behind_blockComment stands), text, List.cons_append, List.cons_append,
        maskFrom_leaving opens (by simp), maskFrom_hidden (by simp)]
      exact congrArg (' ' :: ' ' :: ·) (maskFrom_blockComment stands)
    | literal quote inside =>
      have delimits := stands.1.imp_right And.left
      rw [← maskFrom_behind (by simp) ih (Run.agrees_behind_literal delimits stands.2), text, List.cons_append,
        maskFrom_opening agrees stands.1, maskFrom_literal delimits stands.2]
      rfl

example : mask "n = 1'000; c = '\\''; // '".toList = "n = 1'000; c =     ;     ".toList := by decide +kernel

end LoopCost
