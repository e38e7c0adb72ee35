import LoopCost.Proofs.Ending
import LoopCost.Proofs.Entry
import LoopCost.Proofs.Mirror
import LoopCost.Proofs.Balance

/-! A text that is cut behind a semicolon or an opening brace. Up to the cut the scan of the front goes along with the
scan of the whole text, unless that reads across the cut in one go; then it does not come to stand at the cut. -/

namespace LoopCost

def EndsStatement (text : List Char) : Prop := ∀ last ∈ text.getLast?, last = ';' ∨ last = '{'

theorem EndsStatement.of_append {read rest : List Char} (ends : EndsStatement (read ++ rest)) (more : rest ≠ []) :
    EndsStatement rest := by
  intro last here
  apply ends last
  rwa [List.getLast?_append_of_ne_nil _ more]

theorem EndsStatement.tail {c : Char} {rest : List Char} (ends : EndsStatement (c :: rest)) : EndsStatement rest := by
  intro last here
  cases rest with
  | nil => cases here
  | cons d rest => exact ends last (by rwa [List.getLast?_cons_cons])

theorem EndsStatement.ne_nil {c : Char} {rest : List Char} (ends : EndsStatement (c :: rest)) (other : c ≠ ';' ∧ c ≠ '{') :
    rest ≠ [] := by
  rintro rfl
  rcases ends c rfl with same | same
  · exact other.1 same
  · exact other.2 same

/-- What is skipped ends in front of the end of a statement. -/
theorem EndsStatement.dropWhile {text : List Char} (ends : EndsStatement text) (more : text ≠ []) {skipped : Char → Bool}
    (stops : skipped ';' = false ∧ skipped '{' = false) (back : List Char) :
    text.dropWhile skipped ≠ [] ∧ EndsStatement (text.dropWhile skipped) ∧
      (text ++ back).dropWhile skipped = text.dropWhile skipped ++ back ∧
      (text ++ back).takeWhile skipped = text.takeWhile skipped := by
  induction text with
  | nil => exact absurd rfl more
  | cons c rest ih =>
    by_cases skips : skipped c = true
    · have other : c ≠ ';' ∧ c ≠ '{' := by
        constructor <;> rintro rfl
        · rw [stops.1] at skips
          cases skips
        · rw [stops.2] at skips
          cases skips
      obtain ⟨some, still, dropped, taken⟩ := ih ends.tail (ends.ne_nil other)
      simp only [List.cons_append, List.dropWhile_cons, List.takeWhile_cons, skips, if_true]
      exact ⟨some, still, dropped, congrArg (c :: ·) taken⟩
    · simp only [List.cons_append, List.dropWhile_cons, List.takeWhile_cons, skips]
      exact ⟨more, ends, rfl, rfl⟩

theorem isBlank_stops : Unicode.isBlank ';' = false ∧ Unicode.isBlank '{' = false := by decide

/-- In front of the cut the second place has the same text, up to the cut. -/
def CutAt (back : List Char) (place other : Place) : Prop :=
  ∃ text, EndsStatement text ∧ place = glyphs (text ++ back) ∧ other = glyphs text

namespace CutAt

variable {back text : List Char} (ends : EndsStatement text)
include ends

theorem of_ends : CutAt back (glyphs (text ++ back)) (glyphs text) := ⟨text, ends, rfl, rfl⟩

variable (more : text ≠ [])
include more

theorem dropWhile {skipped : Char → Bool} (stops : skipped ';' = false ∧ skipped '{' = false) :
    CutAt back ((glyphs (text ++ back)).dropWhile (skipped ·.char)) ((glyphs text).dropWhile (skipped ·.char)) ∧
      back.length < ((glyphs (text ++ back)).dropWhile (skipped ·.char)).length := by
  obtain ⟨some, still, dropped, -⟩ := ends.dropWhile more stops back
  rw [dropWhile_glyphs, dropWhile_glyphs, dropped]
  refine ⟨of_ends still, ?_⟩
  have size := List.length_pos_iff.mpr some
  rw [length_glyphs, List.length_append]
  omega

theorem readHeader? :
    Place.readHeader? (glyphs (text ++ back)) = none ∧ Place.readHeader? (glyphs text) = none ∨
    (∃ header after after', Place.readHeader? (glyphs (text ++ back)) = some (header, after) ∧
      Place.readHeader? (glyphs text) = some (header, after') ∧ CutAt back after after' ∧ back.length < after.length) ∨
    ∃ header after, Place.readHeader? (glyphs (text ++ back)) = some (header, after) ∧ after.length < back.length := by
  obtain ⟨some, still, dropped, -⟩ := ends.dropWhile more isBlank_stops back
  cases found : Place.readHeader? (glyphs (text ++ back)) with
  | none =>
    refine .inl ⟨rfl, ?_⟩
    rw [Option.eq_none_iff_forall_ne_some]
    intro ⟨header, place⟩ found'
    obtain ⟨after, start, balanced, -⟩ := (Place.readHeader?_glyphs text header place).mp found'
    have again := (Place.readHeader?_glyphs (text ++ back) header (glyphs (after ++ back))).mpr
      ⟨after ++ back, by rw [dropped, start]; simp, balanced, rfl⟩
    rw [again] at found
    cases found
  | some read =>
    right
    obtain ⟨header, place⟩ := read
    obtain ⟨after, start, balanced, rfl⟩ := (Place.readHeader?_glyphs _ header place).mp found
    have parts : text.dropWhile Unicode.isBlank ++ back = ('(' :: header ++ [')']) ++ after := by
      rw [← dropped, start]
      simp
    have unclosed : text.dropWhile Unicode.isBlank ≠ '(' :: header ++ [')'] := by
      intro same
      rw [same] at still
      have last := still ')' (by rw [List.getLast?_concat]; rfl)
      revert last
      decide
    rcases List.append_eq_append_iff.mp parts with ⟨inside, whole, behind⟩ | ⟨rest, whole, behind⟩
    · right
      refine ⟨header, _, rfl, ?_⟩
      have crosses : inside ≠ [] := by
        rintro rfl
        exact unclosed (by rw [whole, List.append_nil])
      have size := List.length_pos_iff.mpr crosses
      rw [length_glyphs, behind, List.length_append]
      omega
    · left
      have inside : rest ≠ [] := by
        rintro rfl
        exact unclosed (by rw [whole, List.append_nil])
      have found' := (Place.readHeader?_glyphs text header (glyphs rest)).mpr ⟨rest, by rw [whole]; simp, balanced, rfl⟩
      have size := List.length_pos_iff.mpr inside
      rw [whole] at still
      refine ⟨header, _, _, rfl, found', behind ▸ of_ends (still.of_append inside), ?_⟩
      rw [length_glyphs, behind, List.length_append]
      omega

theorem afterCase? :
    Option.Rel (CutAt back) (Place.afterCase? (glyphs (text ++ back))) (Place.afterCase? (glyphs text)) := by
  induction size : text.length using Nat.strongRecOn generalizing text with
  | ind size ih =>
    cases text with
    | nil => exact absurd rfl more
    | cons c rest =>
      rw [List.cons_append]
      by_cases colon : c = ':'
      · subst colon
        have some := ends.ne_nil (by decide)
        rw [Place.afterCase?_colon, Place.afterCase?_colon, List.head?_append_of_ne_nil _ some]
        split
        · next double =>
          obtain ⟨tail, rfl⟩ := List.head?_eq_some_iff.mp double
          exact ih tail.length (by simp at size; omega) ends.tail.tail (ends.tail.ne_nil (by decide)) rfl
        · exact .some (of_ends ends.tail)
      · rw [Place.afterCase?_other colon, Place.afterCase?_other colon]
        split
        · exact .none
        · next other =>
          rw [not_or, not_or] at other
          exact ih rest.length (by simp at size; omega) ends.tail (ends.ne_nil ⟨other.1, other.2.1⟩) rfl

theorem afterLabel? :
    Option.Rel (CutAt back) (Place.afterLabel? (glyphs (text ++ back))) (Place.afterLabel? (glyphs text)) := by
  obtain ⟨some, still, dropped, -⟩ := ends.dropWhile more isBlank_stops back
  unfold Place.afterLabel?
  rw [Place.skipBlanks_glyphs, Place.skipBlanks_glyphs, dropped]
  cases here : text.dropWhile Unicode.isBlank with
  | nil => exact absurd here some
  | cons c rest =>
    rw [here] at still
    obtain ⟨span, first⟩ := exists_glyphs_cons c (rest ++ back)
    obtain ⟨span', first'⟩ := exists_glyphs_cons c rest
    rw [List.cons_append, first, first']
    dsimp only
    by_cases colon : c = ':'
    · subst colon
      rw [char_head?_glyphs, char_head?_glyphs, List.head?_append_of_ne_nil _ (still.ne_nil (by decide))]
      split
      · exact .some (of_ends still.tail)
      · exact .none
    · rw [if_neg (by simp [colon]), if_neg (by simp [colon])]
      exact .none

omit more in
/-- A directive ends in front of the cut, or it takes part of the text behind it along. -/
theorem afterDirective (longer : back ≠ []) (tail : LineTail) :
    CutAt back (Place.afterDirective tail (glyphs (text ++ back))) (Place.afterDirective tail (glyphs text)) ∨
      (Place.afterDirective tail (glyphs (text ++ back))).length < back.length := by
  induction text generalizing tail with
  | nil =>
    right
    cases back with
    | nil => exact absurd rfl longer
    | cons c back =>
      obtain ⟨span, here⟩ := exists_glyphs_cons c back
      have shorter (tail : LineTail) : (Place.afterDirective tail (glyphs back)).length < back.length + 1 :=
        Nat.lt_succ_of_le (length_glyphs back ▸ Place.length_afterDirective_le tail (glyphs back))
      rw [List.nil_append, here, List.length_cons]
      by_cases newline : c = '\n'
      · cases tail with
        | other => simp [Place.afterDirective, newline, length_glyphs]
        | _ => simpa [Place.afterDirective, newline] using shorter .other
      · simpa [Place.afterDirective, newline] using shorter (tail.next c)
  | cons c rest ih =>
    obtain ⟨span, here⟩ := exists_glyphs_cons c (rest ++ back)
    obtain ⟨span', here'⟩ := exists_glyphs_cons c rest
    rw [List.cons_append, here, here']
    by_cases newline : c = '\n'
    · cases tail with
      | other => simpa [Place.afterDirective, newline] using .inl (of_ends ends.tail)
      | _ => simpa [Place.afterDirective, newline] using ih ends.tail .other
    · simpa [Place.afterDirective, newline] using ih ends.tail (tail.next c)

omit more in
/-- A simple statement ends in front of the cut, or it takes part of the text behind it along. -/
theorem takeSimple (longer : back ≠ []) (depth : Nat) (reads : text ≠ [] ∨ 0 < depth) :
    ((Place.takeSimple depth (glyphs (text ++ back))).1 = (Place.takeSimple depth (glyphs text)).1 ∧
        CutAt back (Place.takeSimple depth (glyphs (text ++ back))).2 (Place.takeSimple depth (glyphs text)).2 ∧
        back.length < (Place.takeSimple depth (glyphs (text ++ back))).2.length) ∨
      (Place.takeSimple depth (glyphs (text ++ back))).2.length < back.length := by
  induction text generalizing depth with
  | nil =>
    right
    have deep : depth ≠ 0 := Nat.pos_iff_ne_zero.mp (reads.resolve_left (absurd rfl))
    cases back with
    | nil => exact absurd rfl longer
    | cons c back =>
      obtain ⟨span, here⟩ := exists_glyphs_cons c back
      have shorter := Place.length_takeSimple_le (Place.nesting depth c) (glyphs back)
      rw [length_glyphs] at shorter
      rw [List.nil_append, here, Place.takeSimple, if_neg fun stops => deep stops.1]
      exact Nat.lt_succ_of_le shorter
  | cons c rest ih =>
    have whole : CutAt back _ _ := of_ends ends
    obtain ⟨span, here⟩ := exists_glyphs_cons c (rest ++ back)
    obtain ⟨span', here'⟩ := exists_glyphs_cons c rest
    rw [List.cons_append, here, here'] at whole ⊢
    rw [Place.takeSimple, Place.takeSimple]
    dsimp only
    split
    · refine .inl ⟨rfl, whole, ?_⟩
      rw [List.length_cons, length_glyphs, List.length_append]
      omega
    · next goes =>
      have reads : rest ≠ [] ∨ 0 < Place.nesting depth c := by
        by_cases empty : rest = []
        · subst empty
          right
          have last : c = ';' ∨ c = '{' := ends c rfl
          have deep : depth ≠ 0 := by
            intro top
            exact goes ⟨top, last.imp_right .inl⟩
          rcases last with rfl | rfl <;> exact Nat.pos_of_ne_zero deep
        · exact .inl empty
      refine (ih ends.tail _ reads).imp_left ?_
      intro ⟨texts, stops, inside⟩
      exact ⟨congrArg (c :: ·) texts, stops, inside⟩

omit ends more in
theorem tail {first other : Glyph} {rest rest' : Place} (places : CutAt back (first :: rest) (other :: rest')) :
    CutAt back rest rest' := by
  obtain ⟨text, ends, whole, whole'⟩ := places
  cases text with
  | nil => cases whole'
  | cons c text =>
    obtain ⟨span, here⟩ := exists_glyphs_cons c (text ++ back)
    obtain ⟨span', here'⟩ := exists_glyphs_cons c text
    cases whole.trans here
    cases whole'.trans here'
    exact of_ends ends.tail

omit ends more in
theorem ne_nil (inside : back.length < (glyphs (text ++ back)).length) : text ≠ [] := by
  rintro rfl
  rw [length_glyphs] at inside
  exact Nat.lt_irrefl _ inside

end CutAt

def cutting (back : List Char) (longer : back ≠ []) : Reading where
  places := CutAt back
  inside place := back.length < place.length
  beyond place := place.length < back.length
  further beyond shorter := Nat.lt_of_le_of_lt shorter beyond
  nil enclosed := enclosed.elim
  head := by
    rintro place other ⟨text, ends, rfl, rfl⟩ inside
    cases text with
    | nil => exact absurd inside (by simp [length_glyphs])
    | cons c rest =>
      obtain ⟨span, here⟩ := exists_glyphs_cons c (rest ++ back)
      obtain ⟨span', here'⟩ := exists_glyphs_cons c rest
      exact .inr ⟨_, _, _, _, here, here', rfl, fun _ => .of_ends ends.tail⟩
  blanks := by
    rintro place other ⟨text, ends, rfl, rfl⟩ inside
    exact CutAt.dropWhile ends (CutAt.ne_nil inside) isBlank_stops
  closers := by
    rintro place other - ⟨text, ends, rfl, rfl⟩ inside
    exact @CutAt.dropWhile back text ends (CutAt.ne_nil inside) (fun c => Unicode.isBlank c || c == ')' || c == '}')
      (by decide)
  word := by
    rintro place other ⟨text, ends, rfl, rfl⟩ inside
    have stops : isWordChar ';' = false ∧ isWordChar '{' = false := ⟨isWordChar_sign (by simp), isWordChar_sign (by simp)⟩
    obtain ⟨some, still, dropped, taken⟩ := ends.dropWhile (CutAt.ne_nil inside) stops back
    have behind := @CutAt.dropWhile back text ends (CutAt.ne_nil inside) isWordChar stops
    refine ⟨?_, behind⟩
    rw [Place.readWord_glyphs, Place.readWord_glyphs, taken]
  header := by
    rintro place other ⟨text, ends, rfl, rfl⟩ inside
    refine (CutAt.readHeader? ends (CutAt.ne_nil inside)).imp_right (Or.imp_left ?_)
    intro ⟨header, after, after', found, found', behind, inside⟩
    exact ⟨header, after, header, after', found, found', .refl header, behind, inside⟩
  directive := by
    intro first other rest rest' _ places _
    obtain ⟨text, ends, rfl, rfl⟩ := places.tail
    exact CutAt.afterDirective ends longer .other
  caseLabel := by
    rintro place other ⟨text, ends, rfl, rfl⟩ inside
    exact CutAt.afterCase? ends (CutAt.ne_nil inside)
  label := by
    rintro place other ⟨text, ends, rfl, rfl⟩ inside
    exact CutAt.afterLabel? ends (CutAt.ne_nil inside)
  simple := by
    rintro place other ⟨text, ends, rfl, rfl⟩ inside
    refine (CutAt.takeSimple ends longer 0 (.inl (CutAt.ne_nil inside))).imp_left ?_
    intro ⟨texts, stops, inside⟩
    exact ⟨texts ▸ .refl _, stops, inside⟩

theorem Frame.Alike.growths_eq {enclosed : Prop} {frame other : Frame} (alike : frame.Alike enclosed other)
    {around within : List Frame} (outer : List.Forall₂ (Frame.Alike enclosed) around within) :
    frame.growths around = other.growths within := by
  induction outer generalizing frame other with
  | nil => rw [growths, growths, alike.growth?_eq]
  | cons first _ ih => rw [growths, growths, alike.growth?_eq, ih (first.absorbFrame (alike.deepen _))]

theorem Metrics.settle_alike {enclosed : Prop} {frames others : List Frame}
    (alike : List.Forall₂ (Frame.Alike enclosed) frames others) (inside : Metrics) (growths : List (Option Growth)) :
    inside.settle frames growths = inside.settle others growths := by
  induction alike generalizing inside growths with
  | nil => rfl
  | cons first _ ih =>
    cases growths with
    | nil => rfl
    | cons growth growths =>
      simp only [settle, enclose, first.linear_eq, first.log_eq]
      exact ih _ growths

namespace State

theorem Mirrors.settled_eq {reading : Reading} {state other : State} (mirrors : Mirrors reading [] state other) :
    state.settled = other.settled := by
  obtain ⟨within, around_eq, around⟩ := mirrors.around
  rw [List.append_nil] at around_eq
  unfold settled
  rw [mirrors.frame.growths_eq around, mirrors.loops_eq, around_eq, Metrics.settle_alike (.cons mirrors.frame around)]

/-- Where the scan comes to the end of a statement in one step, the scan of the text up to there ends in the same way. -/
theorem metrics_scan_front {front back : List Char} (ends : EndsStatement front) {before state : State}
    (reached : (initial (front ++ back)).Reaches before) (goes : before.Goes state)
    (inside : back.length < before.place.length) (here : state.place.length = back.length) :
    (scan front).metrics = state.settled := by
  by_cases empty : back = []
  · subst empty
    rw [List.append_nil] at reached
    rw [scan, reached.run_eq, run_of_goes goes, metrics_run_nil (List.eq_nil_of_length_eq_zero here)]
  · have start : Mirrors (cutting back empty) [] (initial (front ++ back)) (initial front) :=
      ⟨.of_ends ends, .enter (.same fun enclosed => enclosed.elim) rfl, ⟨[], rfl, .nil⟩, rfl⟩
    have common (first second : State) (reached' : (initial (front ++ back)).Reaches first) (goes' : first.Goes second)
        (reaches' : second.Reaches before) :
        back.length < first.place.length ∧ ¬ second.place.length < back.length := by
      have shorter := (goes'.step.leads (paired_of_reaches reached')).length_le
      have shortest := (reaches'.leads (paired_of_reaches (reached'.tail goes'))).length_le
      omega
    obtain ⟨before', reached', mirrors⟩ := start.reaches reached common fun enclosed => enclosed.elim
    obtain ⟨after, goes', mirrors⟩ := mirrors.step goes inside (Nat.not_lt_of_le (Nat.le_of_eq here.symm))
      fun enclosed => enclosed.elim
    obtain ⟨text, -, whole, whole'⟩ := mirrors.places
    rw [whole, length_glyphs, List.length_append, Nat.add_eq_right, List.length_eq_zero_iff] at here
    rw [here] at whole'
    rw [scan, reached'.run_eq, run_of_goes goes', metrics_run_nil whole', mirrors.settled_eq]

end State

end LoopCost
