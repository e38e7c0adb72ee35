import LoopCost.Proofs.Boundary

/-! Words as runs of a text. What a text is read as can be followed back to the text: a word is a maximal run of word
characters, a mark is the character itself, and the lexemes from some place on are those of the text from there on. -/

namespace LoopCost

structure IsRun (front word back : List Char) : Prop where
  nonempty : word ≠ []
  letters : ∀ c ∈ word, isWordChar c = true
  starts : ∀ last ∈ front.getLast?, isWordChar last = false
  ends : ∀ first ∈ back.head?, isWordChar first = false

namespace IsRun

variable {front word back : List Char} (run : IsRun front word back)

include run

theorem takeWhile_eq : (word ++ back).takeWhile isWordChar = word := by
  rw [List.takeWhile_append_of_pos run.letters]
  cases back with
  | nil => exact List.append_nil word
  | cons first back => simp [run.ends first rfl]

/-- A word of the text from here on is a word of the whole text if no word goes on here. -/
theorem behind {before : List Char} (starts : ∀ last ∈ before.getLast?, isWordChar last = false) :
    IsRun before word back := ⟨run.nonempty, run.letters, starts, run.ends⟩

/-- A word of the text from here on is a word of the whole text if the text is cut here. -/
theorem of_cut {before : List Char} (cut : Cut before (word ++ back)) : IsRun before word back := by
  refine run.behind ?_
  intro last ends
  obtain ⟨first, letters, rfl⟩ := List.exists_cons_of_ne_nil run.nonempty
  have letter := run.letters first List.mem_cons_self
  by_contra goes
  rw [cut last ends first rfl (Bool.of_not_eq_false goes)] at letter
  cases letter

theorem cut_front : Cut front (word ++ back) := by
  intro last ends _ _ letter
  rw [run.starts last ends] at letter
  cases letter

theorem cut_back : Cut word back := fun _ _ first begins _ => run.ends first begins

theorem dropWhile_blank : (word ++ back).dropWhile Unicode.isBlank = word ++ back := by
  obtain ⟨first, letters, rfl⟩ := List.exists_cons_of_ne_nil run.nonempty
  refine List.dropWhile_cons_of_neg ?_
  intro blank
  have letter := run.letters first List.mem_cons_self
  rw [isWordChar_of_isBlank blank] at letter
  cases letter

end IsRun

theorem isRun_takeWhile {c : Char} (letter : isWordChar c = true) (text : List Char) :
    IsRun [] ((c :: text).takeWhile isWordChar) ((c :: text).dropWhile isWordChar) := by
  refine ⟨by simp [letter], fun d member => List.all_eq_true.mp List.all_takeWhile d member, by simp, ?_⟩
  intro first begins
  have stops := List.head?_dropWhile_not isWordChar (c :: text)
  rw [Option.mem_def.mp begins] at stops
  exact stops

namespace Lexeme

theorem ofText_word {word : List Char} (nonempty : word ≠ []) (letters : ∀ c ∈ word, isWordChar c = true) :
    ofText word = [.word word] := by
  induction word with
  | nil => exact absurd rfl nonempty
  | cons c word ih =>
    have letter := letters c List.mem_cons_self
    cases word with
    | nil => simp [ofText, cons, letter]
    | cons d word =>
      have later := ih (by simp) fun e member => letters e (List.mem_cons_of_mem c member)
      have step : ofText (c :: d :: word) = cons c (ofText (d :: word)) := rfl
      rw [step, later, cons, if_pos letter]

inductive Starts : List Char → Prop
  | nil : Starts []
  | mark {c : Char} {back : List Char} (unlettered : isWordChar c = false)
      (read : ofText (c :: back) = .mark c :: ofText back) : Starts (c :: back)
  | word {letters back : List Char} (run : IsRun [] letters back)
      (read : ofText (letters ++ back) = .word letters :: ofText back) : Starts (letters ++ back)

theorem ofText_append_run {front word back : List Char} (run : IsRun front word back) :
    ofText (word ++ back) = .word word :: ofText back := by
  rw [ofText_append run.cut_back, ofText_word run.nonempty run.letters]
  rfl

theorem starts (text : List Char) : Starts text := by
  cases text with
  | nil => exact .nil
  | cons c text =>
    by_cases letter : isWordChar c = true
    · have run := isRun_takeWhile letter text
      have starts := Starts.word run (ofText_append_run run)
      rwa [List.takeWhile_append_dropWhile] at starts
    · have unlettered := Bool.eq_false_iff.mpr letter
      exact .mark unlettered (ofText_cons_mark unlettered text)

theorem ofText_eq_word_cons {text word : List Char} {rest : List Lexeme} (read : ofText text = .word word :: rest) :
    ∃ back, text = word ++ back ∧ IsRun [] word back ∧ rest = ofText back := by
  cases starts text with
  | nil => cases read
  | mark _ same =>
    rw [same] at read
    cases read
  | @word letters back run same =>
    rw [same] at read
    cases read
    exact ⟨back, rfl, run, rfl⟩

theorem ofText_eq_mark_cons {text : List Char} {c : Char} {rest : List Lexeme} (read : ofText text = .mark c :: rest) :
    ∃ back, text = c :: back ∧ isWordChar c = false ∧ rest = ofText back := by
  cases starts text with
  | nil => cases read
  | @mark d back unlettered same =>
    rw [same] at read
    cases read
    exact ⟨back, rfl, unlettered, rfl⟩
  | word _ same =>
    rw [same] at read
    cases read

theorem exists_split_of_suffix {place : List Lexeme} {code : List Char} (within : place <:+ ofText code) :
    ∃ front text, code = front ++ text ∧ Cut front text ∧ place = ofText text := by
  by_cases whole : place = ofText code
  · exact ⟨[], code, rfl, by simp [Cut], whole⟩
  cases starts code with
  | nil => exact absurd (List.suffix_nil.mp within) whole
  | @mark c back unlettered read =>
    rw [read] at within whole
    obtain ⟨front, text, rfl, cut, same⟩ := exists_split_of_suffix ((List.suffix_cons_iff.mp within).resolve_left whole)
    refine ⟨c :: front, text, rfl, ?_, same⟩
    cases front with
    | nil => exact cut_behind unlettered [] text
    | cons d front =>
      have longer : Cut ([c] ++ (d :: front)) text := cut.append (by simp)
      exact longer
  | @word letters back run read =>
    rw [read] at within whole
    obtain ⟨front, text, rfl, cut, same⟩ := exists_split_of_suffix ((List.suffix_cons_iff.mp within).resolve_left whole)
    refine ⟨letters ++ front, text, (List.append_assoc ..).symm, ?_, same⟩
    cases front with
    | nil =>
      rw [List.append_nil]
      exact run.cut_back
    | cons d front => exact cut.append (by simp)
termination_by code.length
decreasing_by
  · next same _ _ =>
    rw [same]
    exact Nat.lt_succ_self _
  · next same _ _ =>
    rw [same, List.length_append]
    exact Nat.lt_add_of_pos_left (List.length_pos_iff.mpr run.nonempty)

/-- The lexemes from some place on are those of the text from there on. -/
theorem suffix_ofText_iff (place : List Lexeme) (code : List Char) :
    place <:+ ofText code ↔ ∃ front text, code = front ++ text ∧ Cut front text ∧ place = ofText text := by
  refine ⟨exists_split_of_suffix, ?_⟩
  intro ⟨front, text, whole, cut, same⟩
  rw [whole, ofText_append cut, same]
  exact List.suffix_append _ _

theorem skipBlanks_ofText (text : List Char) : skipBlanks (ofText text) = ofText (text.dropWhile Unicode.isBlank) := by
  induction text with
  | nil => rfl
  | cons c text ih =>
    by_cases blank : Unicode.isBlank c = true
    · rw [ofText_cons_mark (isWordChar_of_isBlank blank), List.dropWhile_cons_of_pos blank, ← ih]
      simp [skipBlanks, isBlank, blank]
    · rw [List.dropWhile_cons_of_neg blank]
      generalize same : c :: text = code
      cases starts code with
      | nil => rfl
      | word _ read => 
        rw [read]
        rfl
      | mark _ read =>
        cases same
        rw [read]
        simp [skipBlanks, isBlank, blank]

theorem ofText_eq_word_cons_iff (text word : List Char) (rest : List Lexeme) :
    ofText text = .word word :: rest ↔ ∃ back, text = word ++ back ∧ IsRun [] word back ∧ rest = ofText back := by
  refine ⟨ofText_eq_word_cons, ?_⟩
  intro ⟨back, whole, run, same⟩
  rw [whole, ofText_append_run run, same]

/-- The word that comes next after blanks. -/
theorem skipBlanks_ofText_eq_word_cons_iff (text word : List Char) (rest : List Lexeme) :
    skipBlanks (ofText text) = .word word :: rest ↔ ∃ gap back, text = gap ++ (word ++ back) ∧
      (∀ c ∈ gap, Unicode.isBlank c = true) ∧ IsRun gap word back ∧ rest = ofText back := by
  rw [skipBlanks_ofText, ofText_eq_word_cons_iff]
  constructor
  · intro ⟨back, stops, run, same⟩
    have blank : ∀ c ∈ text.takeWhile Unicode.isBlank, Unicode.isBlank c = true := List.all_eq_true.mp List.all_takeWhile
    refine ⟨text.takeWhile Unicode.isBlank, back, ?_, blank, run.behind ?_, same⟩
    · rw [← stops, List.takeWhile_append_dropWhile]
    · intro last ends
      exact isWordChar_of_isBlank (blank last (List.mem_of_getLast? ends))
  · intro ⟨gap, back, whole, blank, run, same⟩
    refine ⟨back, ?_, run.behind (by simp), same⟩
    rw [whole, List.dropWhile_append_of_pos blank, run.dropWhile_blank]

/-- The words of a text are its runs. -/
theorem word_mem_ofText_iff (text word : List Char) :
    .word word ∈ ofText text ↔ ∃ front back, text = front ++ (word ++ back) ∧ IsRun front word back := by
  constructor
  · intro member
    obtain ⟨before, after, whole⟩ := List.append_of_mem member
    obtain ⟨front, place, same, cut, read⟩ := (suffix_ofText_iff _ _).mp ⟨before, whole.symm⟩
    obtain ⟨back, rfl, run, -⟩ := ofText_eq_word_cons read.symm
    exact ⟨front, back, same, run.of_cut cut⟩
  · intro ⟨front, back, whole, run⟩
    rw [whole, ofText_append run.cut_front, ofText_append_run run]
    exact List.mem_append_right _ List.mem_cons_self

theorem head?_ofText_iff {c : Char} (unlettered : isWordChar c = false) (text : List Char) :
    (ofText text).head? = some (mark c) ↔ text.head? = some c := by
  constructor
  · intro starts
    obtain ⟨rest, read⟩ := List.head?_eq_some_iff.mp starts
    obtain ⟨back, rfl, -⟩ := ofText_eq_mark_cons read
    rfl
  · intro starts
    obtain ⟨back, rfl⟩ := List.head?_eq_some_iff.mp starts
    rw [ofText_cons_mark unlettered]
    rfl

/-- The marks of a sign are the characters that the text starts with. -/
theorem prefix_ofText_iff {sign : List Char} (unlettered : ∀ c ∈ sign, isWordChar c = false) (text : List Char) :
    sign.map mark <+: ofText text ↔ sign <+: text := by
  induction sign generalizing text with
  | nil => simp
  | cons c sign ih =>
    have later := ih fun d member => unlettered d (List.mem_cons_of_mem c member)
    constructor
    · intro ⟨rest, read⟩
      obtain ⟨back, rfl, -, same⟩ := ofText_eq_mark_cons read.symm
      exact List.cons_prefix_cons.mpr ⟨rfl, (later back).mp (same ▸ List.prefix_append ..)⟩
    · intro ⟨back, same⟩
      have inside := (later (sign ++ back)).mpr (List.prefix_append ..)
      rw [← same, List.cons_append, ofText_cons_mark (unlettered c List.mem_cons_self)]
      exact List.cons_prefix_cons.mpr ⟨rfl, inside⟩

/-- What stands in front of the first of some marks is read alone. -/
theorem takeWhile_ofText {stops : Lexeme → Bool} (words : ∀ letters, stops (.word letters) = false)
    (unlettered : ∀ c, stops (mark c) = true → isWordChar c = false) (text : List Char) :
    (ofText text).takeWhile (!stops ·) = ofText (text.takeWhile fun c => !stops (mark c)) := by
  have whole := List.takeWhile_append_dropWhile (p := fun c => !stops (mark c)) (l := text)
  have inside : ∀ lexeme ∈ ofText (text.takeWhile fun c => !stops (mark c)), (!stops lexeme) = true := by
    intro lexeme member
    cases lexeme with
    | word letters => rw [words letters, Bool.not_false]
    | mark c => exact List.all_eq_true.mp List.all_takeWhile c (mem_of_mark_mem member)
  have stop := List.head?_dropWhile_not (fun c => !stops (mark c)) text
  generalize text.takeWhile (fun c => !stops (mark c)) = front at whole inside ⊢
  generalize text.dropWhile (fun c => !stops (mark c)) = back at whole stop
  cases back with
  | nil => rw [← whole, List.append_nil, List.takeWhile_eq_self_iff.mpr inside]
  | cons c back =>
    have ends : stops (mark c) = true := by simpa using stop
    rw [← whole, ofText_append_mark (unlettered c ends), List.takeWhile_append_of_pos inside]
    simp [ends]

end Lexeme

end LoopCost
