import LoopCost.Proofs.Descent

/-! The scan of a text measures its statement tree. The scan never builds the tree, and it collects depths from
the inside out; the parser and the depths passed downward know nothing of open constructs. -/

namespace LoopCost.Place
open State

private theorem readSimple_cons {depth : Nat} {seen : List Char} {glyph : Glyph} {rest : Place}
    (goes : ¬ (depth = 0 ∧ (glyph.char = ';' ∨ glyph.char = '{' ∨ glyph.char = '}'))) :
    readSimple depth seen (glyph :: rest) = readSimple (nesting depth glyph.char) (glyph.char :: seen) rest := by
  rw [readSimple]
  unfold nesting
  split
  · rfl
  split
  · rfl
  · rw [if_neg fun stops => goes ⟨stops.1, .inl stops.2⟩, if_neg fun stops => goes ⟨stops.1, .inr (.inl stops.2)⟩,
      if_neg fun stops => goes ⟨stops.1, .inr (.inr stops.2)⟩]

def endSimple (text : List Char) : Place → Beginning
  | [] => { place := [], simple := some text }
  | stop :: rest =>
    if stop.char = ';' then { place := rest, simple := some (text ++ [';']) }
    else if stop.char = '{' then { place := rest, opens := some .block, simple := some text }
    else { place := stop :: rest, simple := some text }

theorem readSimple_eq (depth : Nat) (seen : List Char) (place : Place) :
    readSimple depth seen place =
      endSimple (seen.reverse ++ (place.takeSimple depth).1) (place.takeSimple depth).2 := by
  fun_induction takeSimple depth place generalizing seen with
  | case1 => simp [readSimple, endSimple]
  | case2 depth glyph rest stops =>
    obtain ⟨rfl, same | same | same⟩ := stops <;> simp [readSimple, endSimple, same]
  | case3 depth glyph rest goes text stop taken ih =>
    rw [readSimple_cons goes, ih, taken]
    simp

/-- Nothing in a word ends a simple statement. -/
theorem readSimple_readWord (seen : List Char) (place : Place) :
    readSimple 0 seen place = readSimple 0 (place.readWord.1.reverse ++ seen) place.readWord.2 := by
  induction place generalizing seen with
  | nil => rfl
  | cons glyph rest ih =>
    by_cases letter : isWordChar glyph.char = true
    · have goes : ∀ c ∈ [';', '{', '}', '(', '[', ')', ']'], glyph.char ≠ c := by
        rintro c member rfl
        revert letter
        simp only [List.mem_cons, List.not_mem_nil, or_false] at member
        rcases member with same | same | same | same | same | same | same <;> rw [same] <;> decide
      simp only [List.mem_cons, List.not_mem_nil, or_false, forall_eq_or_imp, forall_eq] at goes
      have flat : nesting 0 glyph.char = 0 := by simp [nesting, goes]
      rw [readSimple_cons (by simp [goes]), flat, ih]
      simp [readWord, plain, letter]
    · simp [readWord, plain, letter]

theorem readWord_cons {first : Glyph} {rest : Place} (letter : isWordChar first.char = true) :
    readWord (first :: rest) = (first.char :: rest.readWord.1, rest.readWord.2) := by
  simp [readWord, plain, letter]

theorem isWordChar_of_letter {c : Char} (letter : (c = '_' || Unicode.isLetter c) = true) : isWordChar c = true := by
  simp only [Bool.or_eq_true, decide_eq_true_eq] at letter
  simp only [isWordChar, Unicode.isAlphanumeric, Bool.or_eq_true, beq_iff_eq]
  exact letter.imp_right .inl

private theorem note_readSimple (depth : Nat) (seen : List Char) (place : Place) :
    (readSimple depth seen place).note = none := by
  fun_induction readSimple depth seen place <;> simp_all

mutual

theorem reads_statement (first : Glyph) (rest : Place) (stands : skipBlanks (first :: rest) = first :: rest)
    (unclosed : first.char ≠ '}') :
    Reads (begin (first :: rest)) (parseStatement first rest).found (parseStatement first rest).rest := by
  unfold begin parseStatement
  simp only [stands, unclosed, if_false]
  split
  · exact reads_block (readsBlock_parse rest)
  split
  · exact reads_blank rest
  split
  · exact reads_blank (afterDirective .other rest)
  split
  · next letter =>
    have shorter := length_readWord_le rest
    have word := @readWord_cons first rest (isWordChar_of_letter letter)
    have simple : beginSimple (first :: rest) =
        readSimple 0 (first.char :: rest.readWord.1).reverse rest.readWord.2 := by
      rw [beginSimple, readSimple_readWord, word, List.append_nil]
    exact reads_word _ _ word simple
  · next brace semicolon _ _ =>
    have goes : ¬ (0 = 0 ∧ (first.char = ';' ∨ first.char = '{' ∨ first.char = '}')) := by
      simp [brace, semicolon, unclosed]
    rw [beginSimple, readSimple_cons goes]
    exact reads_parseSimple [first.char] (nesting 0 first.char) rest
termination_by 3 * rest.length + 2

theorem reads_word {place : Place} (word : List Char) (after : Place) (read : place.readWord = (word, after))
    (simple : place.beginSimple = readSimple 0 word.reverse after) :
    Reads place.beginWord (parseWord word after).found (parseWord word after).rest := by
  have headless (note : Option Note) : Reads { after.beginSimple with note } (parseSimple [] 0 after).found
      (parseSimple [] 0 after).rest :=
    (reads_parseSimple [] 0 after).note (note_readSimple 0 [] after) note
  have ordinary : Reads place.beginSimple (parseSimple word 0 after).found (parseSimple word 0 after).rest := by
    have reads := reads_parseSimple word.reverse 0 after
    rwa [List.reverse_reverse, ← simple] at reads
  rw [parseWord]
  cases keyword : Keyword.ofWord? word with
  | none =>
    dsimp only
    split
    · next place found =>
      simp only [beginWord, read, keyword, found]
      exact reads_blank place
    · next found =>
      simp only [beginWord, read, keyword, found]
      exact ordinary
  | some keyword' =>
    cases keyword' with
    | forWord =>
      dsimp only
      split
      · next header start found =>
        have shorter := length_readHeader?_lt found
        simp only [beginWord, read, keyword, beginHeaded, found]
        exact reads_loop (.forHead header) (reads_body start) rfl
      · next found =>
        simp only [beginWord, read, keyword, beginHeaded, found]
        exact headless _
    | whileWord =>
      dsimp only
      split
      · next condition start found =>
        have shorter := length_readHeader?_lt found
        simp only [beginWord, read, keyword, beginHeaded, found]
        exact reads_loop (.whileHead condition) (reads_body start) rfl
      · next found =>
        simp only [beginWord, read, keyword, beginHeaded, found]
        exact headless _
    | ifWord =>
      dsimp only
      split
      · next _ start found =>
        have shorter := length_readHeader?_lt found
        simp only [beginWord, read, keyword, beginHeaded, found]
        exact reads_branches start
      · next found =>
        simp only [beginWord, read, keyword, beginHeaded, found]
        exact headless none
    | switchWord =>
      dsimp only
      split
      · next _ start found =>
        have shorter := length_readHeader?_lt found
        simp only [beginWord, read, keyword, beginHeaded, found]
        exact reads_branch (.inl rfl) (reads_body start) nofun
      · next found =>
        simp only [beginWord, read, keyword, beginHeaded, found]
        exact headless none
    | doWord =>
      simp only [beginWord, read, keyword]
      exact reads_loop .doHead (reads_body after) rfl
    | elseWord =>
      simp only [beginWord, read, keyword]
      exact reads_branch (.inl rfl) (reads_body after) nofun
    | caseWord =>
      dsimp only
      split
      · next place found =>
        simp only [beginWord, read, keyword, found]
        exact reads_blank place
      · next found =>
        simp only [beginWord, read, keyword, found]
        exact ordinary
termination_by 3 * after.length + 1

theorem reads_branches (place : Place) :
    Reads { place, opens := some .conditional } (parseBranches place).found (parseBranches place).rest := by
  have inner := reads_body place
  unfold parseBranches
  dsimp only
  split
  · next other found =>
    have shorter : other.length ≤ place.length :=
      Nat.le_trans (Nat.le_of_lt (length_afterElse?_lt found)) (parseBody place).bounded
    exact reads_choice inner found (reads_body other)
  · next found => exact reads_branch (.inr rfl) inner fun _ => found
termination_by 3 * place.length + 1

theorem reads_parseSimple (seen : List Char) (depth : Nat) (place : Place) :
    Reads (readSimple depth seen place) (parseSimple seen.reverse depth place).found
      (parseSimple seen.reverse depth place).rest := by
  rw [readSimple_eq, parseSimple]
  split
  · next text stopped =>
    rw [stopped]
    exact reads_simple _ []
  · next text stop rest stopped =>
    have shorter := length_lt_of_takeSimple stopped
    simp only [stopped, endSimple]
    split
    · exact reads_simple _ rest
    split
    · exact reads_bodied (readsBlock_parse rest) _
    · exact reads_simple _ (stop :: rest)
termination_by 3 * place.length

theorem reads_body (place : Place) : Reads place.begin (parseBody place).found (parseBody place).rest := by
  rw [parseBody]
  split
  · next here =>
    rw [begin, here]
    exact reads_blank []
  · next first rest here =>
    have shorter := length_lt_of_skipBlanks here
    have stands := skipBlanks_head here
    split
    · next closed =>
      simp only [begin, here, closed, if_true]
      exact reads_blank (first :: rest)
    · next unclosed =>
      have same : place.begin = begin (first :: rest) := by rw [begin, begin, here, stands]
      rw [same]
      exact reads_statement first rest stands unclosed
termination_by 3 * place.length

theorem readsBlock_parse (place : Place) : ReadsBlock place (parseBlock place).found (parseBlock place).rest := by
  rw [parseBlock]
  split
  · next here => exact readsBlock_nil fun frame block => by simp [Frame.resume, block, here]
  · next first rest here =>
    have shorter := length_lt_of_skipBlanks here
    have stands := skipBlanks_head here
    split
    · next closed => exact readsBlock_nil fun frame block => by simp [Frame.resume, block, here, closed]
    · next unclosed =>
      have bounded := (parseStatement first rest).bounded
      exact readsBlock_cons (fun frame block => by simp [Frame.resume, block, here, unclosed])
        (reads_statement first rest stands unclosed) (readsBlock_parse (parseStatement first rest).rest)
termination_by 3 * place.length

end

/-- At top level the scan reads one statement after the other and then ends. -/
theorem run_program (place : Place) (state : State) (here : state.place = place) (top : state.around = [])
    (program : state.frame.construct = .program) : state.run.metrics = {
      loops := state.loops + Tree.loopsOf place.parseProgram
      linear := max state.frame.linear (Tree.deepestOf .linear 0 place.parseProgram)
      log := max state.frame.log (Tree.deepestOf .logarithmic 0 place.parseProgram) } := by
  rw [parseProgram]
  split
  · next found =>
    have growth : state.frame.growth? = none := by simp [Frame.growth?, program]
    have ends : state.frame.resume state.place = .finish [] := by simp [Frame.resume, program, here, found]
    have done : ∃ outcome, state.advance = .done outcome ∧
        outcome.metrics = { loops := state.loops, linear := state.frame.linear, log := state.frame.log } := by
      simp [advance, ends, endFrame, top, growth, Frame.deepen]
    obtain ⟨outcome, ended, metrics⟩ := done
    rw [run_of_done ended, metrics]
    simp [Tree.loopsOf, Tree.deepestOf]
  · next first rest found =>
    obtain ⟨unclosed, stands⟩ := skipClosers_head found
    have bound := length_skipClosers_le place
    rw [found, List.length_cons] at bound
    have shorter := Nat.lt_of_le_of_lt (parseStatement first rest).bounded bound
    have starts : state.frame.resume state.place = .start state.frame (first :: rest) := by
      simp [Frame.resume, program, here, found]
    obtain ⟨notes, reached⟩ := reads_statement first rest stands unclosed state state.frame
    have others := run_program (parseStatement first rest).rest
      (state.after state.frame (parseStatement first rest).found (parseStatement first rest).rest notes)
      rfl top program
    rw [Reaches.run_eq (.head (goes_of_start starts) reached), others]
    simp [after, Frame.take, Frame.gather, Frame.absorb, Tree.loopsOf, Tree.deepestOf, Nat.add_assoc, Nat.max_assoc]
termination_by place.length

end LoopCost.Place

namespace LoopCost

/-- The scan measures the statement tree of the text. -/
theorem metrics_scan (text : List Char) : (scan text).metrics = {
    loops := (Tree.ofText text).loops
    linear := (Tree.ofText text).deepest .linear 0
    log := (Tree.ofText text).deepest .logarithmic 0 } := by
  have program := Place.run_program (glyphs text) (.initial text) rfl rfl rfl
  simpa [scan, State.initial, Frame.enter, Tree.ofText, Tree.loops, Tree.deepest] using program

/-- Open constructs and recursive descent agree on every text: the scan counts the loops of the statement tree,
and its depths are those passed downward through the tree, which are the most loops of a kind on any path from
the root. -/
theorem scan_eq_descent (text : List Char) :
    (scan text).metrics = {
      loops := (Tree.ofText text).loops
      linear := (Tree.ofText text).deepest .linear 0
      log := (Tree.ofText text).deepest .logarithmic 0 } ∧
    ∀ kind, IsGreatest {depth | ∃ path ∈ (Tree.ofText text).paths [], path.count kind = depth}
      ((Tree.ofText text).deepest kind 0) :=
  ⟨metrics_scan text, fun kind => (Tree.ofText text).isGreatest_deepest kind⟩

end LoopCost
