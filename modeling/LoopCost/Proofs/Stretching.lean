import LoopCost.Proofs.Ending
import LoopCost.Proofs.Spacing

/-! A scan of a text does not depend on how many blanks stand in a row: directives and labels, headers and statements
are read alike, and both scans end with the same loops and depths. -/

namespace LoopCost

def Stretched (place other : Place) : Prop :=
  ∃ text text', place = glyphs text ∧ other = glyphs text' ∧ Spread ' ' text text'

namespace Stretched

variable {text text' : List Char} (spread : Spread ' ' text text')
include spread

theorem of_spread : Stretched (glyphs text) (glyphs text') := ⟨text, text', rfl, rfl, spread⟩

theorem dropWhile (skipped : Char → Bool) :
    Stretched ((glyphs text).dropWhile (skipped ·.char)) ((glyphs text').dropWhile (skipped ·.char)) := by
  rw [dropWhile_glyphs, dropWhile_glyphs]
  exact of_spread (spread.dropWhile skipped)

theorem skipBlanks : Stretched (Place.skipBlanks (glyphs text)) (Place.skipBlanks (glyphs text')) :=
  dropWhile spread Unicode.isBlank

theorem skipClosers : Stretched (Place.skipClosers (glyphs text)) (Place.skipClosers (glyphs text')) :=
  dropWhile spread fun c => Unicode.isBlank c || c == ')' || c == '}'

theorem readWord : (Place.readWord (glyphs text')).1 = (Place.readWord (glyphs text)).1 ∧
    Stretched (Place.readWord (glyphs text)).2 (Place.readWord (glyphs text')).2 := by
  rw [Place.readWord_glyphs, Place.readWord_glyphs]
  exact ⟨(spread.takeWhile_eq isWordChar_space).symm, of_spread (spread.dropWhile isWordChar)⟩

theorem openBehind?_eq (level : Nat) : openBehind? level text = openBehind? level text' := by
  induction spread generalizing level with
  | nil => rfl
  | keep c _ ih => simp only [openBehind?, ih]
  | more _ ih => exact ih level

theorem balanced_iff : Balanced text ↔ Balanced text' := by rw [Balanced, Balanced, openBehind?_eq spread]

/-- The header may contain blanks, and so may what stands in front of it. -/
theorem readHeader? :
    Place.readHeader? (glyphs text) = none ∧ Place.readHeader? (glyphs text') = none ∨
      ∃ header after header' after', Place.readHeader? (glyphs text) = some (header, after) ∧
        Place.readHeader? (glyphs text') = some (header', after') ∧ SameHeader header header' ∧ Stretched after after' := by
  have start := spread.dropWhile Unicode.isBlank
  cases found : Place.readHeader? (glyphs text) with
  | some read =>
    obtain ⟨header, place⟩ := read
    obtain ⟨after, here, balanced, rfl⟩ := (Place.readHeader?_glyphs text header place).mp found
    rw [here] at start
    obtain ⟨inner, here', inside⟩ := start.cons_left (by decide)
    obtain ⟨header', after', rfl, headers, afters⟩ := inside.split_left (by decide)
    have found' := (Place.readHeader?_glyphs text' header' _).mpr ⟨after', here', (balanced_iff headers).mp balanced, rfl⟩
    exact .inr ⟨header, _, header', _, rfl, found', sameHeader_of_spread headers, of_spread afters⟩
  | none =>
    refine .inl ⟨rfl, ?_⟩
    rw [Option.eq_none_iff_forall_ne_some]
    intro ⟨header', place⟩ found'
    obtain ⟨after', here', balanced, -⟩ := (Place.readHeader?_glyphs text' header' place).mp found'
    rw [here'] at start
    obtain ⟨inner, here, inside⟩ := start.cons_right (by decide)
    obtain ⟨header, after, rfl, headers, -⟩ := inside.split_right (by decide)
    rw [(Place.readHeader?_glyphs text header _).mpr ⟨after, here, (balanced_iff headers).mpr balanced, rfl⟩] at found
    cases found

/-- Of several blanks at the end of a line all but the first change nothing. -/
theorem afterDirective (tail : LineTail) :
    Stretched (Place.afterDirective tail (glyphs text)) (Place.afterDirective tail (glyphs text')) := by
  induction spread generalizing tail with
  | nil => exact of_spread .nil
  | @keep c text text' rest ih =>
    obtain ⟨span, here⟩ := exists_glyphs_cons c text
    obtain ⟨span', here'⟩ := exists_glyphs_cons c text'
    rw [here, here']
    by_cases newline : c = '\n'
    · cases tail with
      | other => simpa [Place.afterDirective, newline] using of_spread rest
      | _ => simpa [Place.afterDirective, newline] using ih .other
    · simpa [Place.afterDirective, newline] using ih (tail.next c)
  | @more text text' rest ih =>
    obtain ⟨span, here⟩ := exists_glyphs_cons ' ' text'
    obtain ⟨span', here'⟩ := exists_glyphs_cons ' ' (' ' :: text')
    have blank (tail : LineTail) (place : Place) (span : Option Nat) :
        Place.afterDirective tail (⟨' ', span⟩ :: place) = Place.afterDirective .other place := by
      cases tail <;> rfl
    have later := ih tail
    rw [here, blank] at later
    rw [here', blank, here, blank]
    exact later

theorem takeSimple (depth : Nat) :
    Spread ' ' (Place.takeSimple depth (glyphs text)).1 (Place.takeSimple depth (glyphs text')).1 ∧
      Stretched (Place.takeSimple depth (glyphs text)).2 (Place.takeSimple depth (glyphs text')).2 := by
  induction spread generalizing depth with
  | nil => exact ⟨.nil, of_spread .nil⟩
  | @keep c text text' rest ih =>
    have whole := of_spread (rest.keep c)
    obtain ⟨span, here⟩ := exists_glyphs_cons c text
    obtain ⟨span', here'⟩ := exists_glyphs_cons c text'
    rw [here, here'] at whole ⊢
    rw [Place.takeSimple, Place.takeSimple]
    dsimp only
    split
    · exact ⟨.nil, whole⟩
    · obtain ⟨texts, stops⟩ := ih (Place.nesting depth c)
      exact ⟨texts.keep c, stops⟩
  | @more text text' rest ih =>
    obtain ⟨span, here⟩ := exists_glyphs_cons ' ' text'
    obtain ⟨span', here'⟩ := exists_glyphs_cons ' ' (' ' :: text')
    have blank (place : Place) (span : Option Nat) : Place.takeSimple depth (⟨' ', span⟩ :: place) =
        (' ' :: (Place.takeSimple depth place).1, (Place.takeSimple depth place).2) := by
      rw [Place.takeSimple, if_neg (by simp)]
      rfl
    obtain ⟨texts, stops⟩ := ih depth
    rw [here, blank] at texts stops
    rw [here', blank, here, blank]
    exact ⟨texts.more, stops⟩

theorem afterLabel? : Option.Rel Stretched (Place.afterLabel? (glyphs text)) (Place.afterLabel? (glyphs text')) := by
  have start := spread.dropWhile Unicode.isBlank
  unfold Place.afterLabel?
  rw [Place.skipBlanks_glyphs, Place.skipBlanks_glyphs]
  cases here : text.dropWhile Unicode.isBlank with
  | nil =>
    rw [here] at start
    rw [start.nil_left]
    exact .none
  | cons c rest =>
    rw [here] at start
    obtain ⟨rest', here'⟩ := List.head?_eq_some_iff.mp start.head?_eq.symm
    rw [here']
    obtain ⟨span, first⟩ := exists_glyphs_cons c rest
    obtain ⟨span', first'⟩ := exists_glyphs_cons c rest'
    rw [first, first']
    dsimp only
    by_cases colon : c = ':'
    · subst colon
      rw [here'] at start
      obtain ⟨tail, same, tails⟩ := start.cons_left (by decide)
      obtain rfl := (List.cons.inj same).2
      simp only [char_head?_glyphs, tails.head?_eq]
      split
      · exact .some (of_spread tails)
      · exact .none
    · rw [if_neg (by simp [colon]), if_neg (by simp [colon])]
      exact .none

theorem afterCase? : Option.Rel Stretched (Place.afterCase? (glyphs text)) (Place.afterCase? (glyphs text')) := by
  induction size : text'.length using Nat.strongRecOn generalizing text text' with
  | ind size ih =>
    cases spread with
    | nil => exact .none
    | @keep c text text' rest =>
      by_cases colon : c = ':'
      · subst colon
        rw [Place.afterCase?_colon, Place.afterCase?_colon, rest.head?_eq]
        split
        · next double =>
          obtain ⟨tail', rfl⟩ := List.head?_eq_some_iff.mp double
          obtain ⟨tail, rfl, tails⟩ := rest.cons_right (by decide)
          exact ih tail'.length (by simp at size; omega) tails rfl
        · exact .some (of_spread rest)
      · rw [Place.afterCase?_other colon, Place.afterCase?_other colon]
        split
        · exact .none
        · exact ih text'.length (by simp at size; omega) rest rfl
    | @more _ text' rest =>
      have later := ih (' ' :: text').length (by simp at size ⊢; omega) rest rfl
      rwa [Place.afterCase?_other (by decide), if_neg (by decide)]

omit spread in
theorem tail {first other : Glyph} {rest rest' : Place} (visible : first.char ≠ ' ')
    (places : Stretched (first :: rest) (other :: rest')) : Stretched rest rest' := by
  obtain ⟨text, text', whole, whole', spread⟩ := places
  cases text with
  | nil => cases whole
  | cons c text =>
    obtain ⟨span, here⟩ := exists_glyphs_cons c text
    cases whole.trans here
    obtain ⟨text', rfl, tails⟩ := spread.cons_left visible
    obtain ⟨span', here'⟩ := exists_glyphs_cons c text'
    cases whole'.trans here'
    exact of_spread tails

end Stretched

def stretching : Reading where
  places := Stretched
  further := Reading.never_further
  nil enclosed := enclosed.elim
  head := by
    rintro place other ⟨text, text', rfl, rfl, spread⟩ _
    cases text with
    | nil => exact .inl ⟨rfl, .inl (by rw [spread.nil_left]; rfl)⟩
    | cons c rest =>
      obtain ⟨rest', rfl⟩ := List.head?_eq_some_iff.mp spread.head?_eq.symm
      obtain ⟨span, here⟩ := exists_glyphs_cons c rest
      obtain ⟨span', here'⟩ := exists_glyphs_cons c rest'
      refine .inr ⟨_, _, _, _, here, here', rfl, ?_⟩
      intro visible
      have whole := Stretched.of_spread spread
      rw [here, here'] at whole
      apply whole.tail
      rintro rfl
      cases visible
  blanks := by
    rintro place other ⟨text, text', rfl, rfl, spread⟩ _
    exact ⟨.skipBlanks spread, trivial⟩
  closers := by
    rintro place other - ⟨text, text', rfl, rfl, spread⟩ _
    exact ⟨.skipClosers spread, trivial⟩
  word := by
    rintro place other ⟨text, text', rfl, rfl, spread⟩ _
    exact ⟨(Stretched.readWord spread).1, (Stretched.readWord spread).2, trivial⟩
  header := by
    rintro place other ⟨text, text', rfl, rfl, spread⟩ _
    refine (Stretched.readHeader? spread).imp id ?_
    rintro ⟨header, after, header', after', found, found', same, behind⟩
    exact .inl ⟨header, after, header', after', found, found', same, behind, trivial⟩
  directive := by
    intro first other rest rest' hash places _
    obtain ⟨text, text', rfl, rfl, spread⟩ := places.tail (by rw [hash]; decide)
    exact .inl (.afterDirective spread .other)
  caseLabel := by
    rintro place other ⟨text, text', rfl, rfl, spread⟩ _
    exact Stretched.afterCase? spread
  label := by
    rintro place other ⟨text, text', rfl, rfl, spread⟩ _
    exact Stretched.afterLabel? spread
  simple := by
    rintro place other ⟨text, text', rfl, rfl, spread⟩ _
    obtain ⟨texts, stops⟩ := Stretched.takeSimple spread 0
    exact .inl ⟨sameEvidence_of_spread texts, stops, trivial⟩

/-- Repeated blanks change no metric. -/
theorem metrics_scan_spread {text text' : List Char} (spread : Spread ' ' text text') :
    (scan text).metrics = (scan text').metrics := by
  have start : State.Mirrors stretching [] (.initial text) (.initial text') :=
    ⟨.of_spread spread, .enter (.same fun enclosed => enclosed.elim) rfl, ⟨[], rfl, .nil⟩, rfl⟩
  obtain ⟨last, reached, ends⟩ := (State.initial text).exists_last
  obtain ⟨top, ⟨place, finishes⟩, metrics⟩ := State.advance_done ends
  obtain ⟨after, reached', mirrors⟩ := start.reaches reached (fun _ _ _ _ _ => ⟨trivial, id⟩) fun enclosed => enclosed.elim
  have enclosed : after.around = [] := by
    obtain ⟨within, same, others⟩ := mirrors.around
    rw [top] at others
    cases others
    exact same
  have finishes' : ∃ place', after.frame.resume after.place = .finish place' := by
    have moves := Reading.resume mirrors.frame mirrors.places trivial fun enclosed => enclosed.elim
    rw [finishes] at moves
    rcases moves with moves | ⟨_, _, beyond⟩
    · generalize after.frame.resume after.place = move at moves
      cases moves with
      | finish => exact ⟨_, rfl⟩
    · exact beyond.elim
  obtain ⟨place', finishes'⟩ := finishes'
  have ends' : ∃ outcome, after.advance = .done outcome := by
    simp only [State.advance, finishes', State.endFrame, enclosed, Progress.done.injEq, exists_eq']
  obtain ⟨outcome, ends'⟩ := ends'
  have metrics' := (State.advance_done ends').2.2
  rw [scan, scan, metrics, reached'.run_eq, State.run_of_done ends', metrics', mirrors.loops_eq, mirrors.frame.growth?_eq]
  simp only [Metrics.enclose, mirrors.frame.linear_eq, mirrors.frame.log_eq]

end LoopCost
