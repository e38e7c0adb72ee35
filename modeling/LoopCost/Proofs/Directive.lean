import LoopCost.Proofs.Independence
import Mathlib.Data.List.Infix

/-! A directive hides what is in it. It goes on as long as each of its line breaks stands behind a backslash, and the scan
behind it is the scan of the rest alone. A parenthesis that the directive leaves open does take its partner from the
rest, but nothing in the rest looks back at it. -/

namespace LoopCost

/-- A line break behind this text does not end the line. -/
def CarriesOn (line : List Char) : Prop := ['\\'] <:+ line ∨ ['\\', '\r'] <:+ line

instance (line : List Char) : Decidable (CarriesOn line) := inferInstanceAs (Decidable (_ ∨ _))

structure WholeLine (line : List Char) : Prop where
  carried : ∀ front, front ++ ['\n'] <+: line → CarriesOn front
  ends : ¬ CarriesOn line

theorem wholeLine_iff (line : List Char) :
    WholeLine line ↔ (∀ front ∈ line.inits, front ++ ['\n'] <+: line → CarriesOn front) ∧ ¬ CarriesOn line := by
  constructor
  · intro whole
    exact ⟨fun front _ => whole.carried front, whole.ends⟩
  · intro ⟨carried, ends⟩
    refine ⟨?_, ends⟩
    intro front breaks
    exact carried front ((List.mem_inits ..).mpr ((List.prefix_append ..).trans breaks)) breaks

instance (line : List Char) : Decidable (WholeLine line) := decidable_of_iff' _ (wholeLine_iff line)

def LineTail.ofLine (line : List Char) : LineTail := line.foldl next .other

namespace LineTail

theorem ofLine_append_singleton (line : List Char) (c : Char) : ofLine (line ++ [c]) = (ofLine line).next c :=
  List.foldl_concat ..

theorem next_eq_backslash (tail : LineTail) (c : Char) : tail.next c = .backslash ↔ c = '\\' := by
  unfold next
  split
  · next same => simp [same]
  · next other =>
    refine iff_of_false ?_ other
    split
    · split <;> simp
    · simp

theorem next_newline (tail : LineTail) : tail.next '\n' = .other := by
  cases tail <;> rfl

theorem next_eq_backslashReturn (tail : LineTail) (c : Char) :
    tail.next c = .backslashReturn ↔ tail = .backslash ∧ c = '\r' := by
  cases tail <;> simp only [next] <;> split <;> simp_all

private theorem suffix_append_singleton (line front : List Char) (last c : Char) :
    line ++ [last] <:+ front ++ [c] ↔ line <:+ front ∧ c = last := by
  constructor
  · intro ⟨before, whole⟩
    rw [← List.append_assoc] at whole
    obtain ⟨same, ends⟩ := List.append_inj' whole rfl
    exact ⟨⟨before, same⟩, (List.cons.inj ends).1.symm⟩
  · intro ⟨⟨before, whole⟩, same⟩
    exact ⟨before, by rw [← whole, same, List.append_assoc]⟩

theorem ofLine_eq_backslash (line : List Char) : ofLine line = .backslash ↔ ['\\'] <:+ line := by
  rcases List.eq_nil_or_concat line with rfl | ⟨front, c, rfl⟩
  · simp [ofLine]
  · have last := suffix_append_singleton [] front '\\' c
    rw [List.concat_eq_append, ofLine_append_singleton, next_eq_backslash]
    simpa using last.symm

theorem ofLine_eq_backslashReturn (line : List Char) : ofLine line = .backslashReturn ↔ ['\\', '\r'] <:+ line := by
  rcases List.eq_nil_or_concat line with rfl | ⟨front, c, rfl⟩
  · simp [ofLine]
  · have last := suffix_append_singleton ['\\'] front '\r' c
    rw [List.concat_eq_append, ofLine_append_singleton, next_eq_backslashReturn, ofLine_eq_backslash]
    exact last.symm

theorem ofLine_eq_other (line : List Char) : ofLine line = .other ↔ ¬ CarriesOn line := by
  rw [CarriesOn, ← ofLine_eq_backslash, ← ofLine_eq_backslashReturn]
  cases ofLine line <;> simp

end LineTail

namespace Place

theorem afterDirective_ended (rest : List Char) : afterDirective .other (glyphs ('\n' :: rest)) = glyphs rest := by
  obtain ⟨span, here⟩ := exists_glyphs_cons '\n' rest
  rw [here]
  rfl

theorem afterDirective_carried {tail : LineTail} (carried : tail ≠ .other) (rest : List Char) :
    afterDirective tail (glyphs ('\n' :: rest)) = afterDirective .other (glyphs rest) := by
  obtain ⟨span, here⟩ := exists_glyphs_cons '\n' rest
  rw [here]
  cases tail with
  | other => exact absurd rfl carried
  | backslash | backslashReturn => rfl

theorem afterDirective_cons {c : Char} (inside : c ≠ '\n') (tail : LineTail) (rest : List Char) :
    afterDirective tail (glyphs (c :: rest)) = afterDirective (tail.next c) (glyphs rest) := by
  obtain ⟨span, here⟩ := exists_glyphs_cons c rest
  simp [here, afterDirective, inside]

/-- A directive takes its whole line, wherever in the line its reader stands. -/
theorem afterDirective_line {front line : List Char} (rest : List Char)
    (carried : ∀ middle, middle ++ ['\n'] <+: line → CarriesOn (front ++ middle))
    (ends : ¬ CarriesOn (front ++ line)) :
    afterDirective (.ofLine front) (glyphs (line ++ '\n' :: rest)) = glyphs rest := by
  induction line generalizing front with
  | nil =>
    rw [List.append_nil, ← LineTail.ofLine_eq_other] at ends
    rw [List.nil_append, ends]
    exact afterDirective_ended rest
  | cons c line ih =>
    have later : afterDirective (.ofLine (front ++ [c])) (glyphs (line ++ '\n' :: rest)) = glyphs rest := by
      apply ih
      · intro middle breaks
        rw [List.append_assoc]
        exact carried (c :: middle) (List.cons_prefix_cons.mpr ⟨rfl, breaks⟩)
      · rwa [List.append_assoc]
    rw [LineTail.ofLine_append_singleton] at later
    by_cases newline : c = '\n'
    · have open_ : LineTail.ofLine front ≠ .other := by
        intro closed
        apply (LineTail.ofLine_eq_other front).mp closed
        have here := carried [] (newline ▸ List.prefix_append ['\n'] line)
        rwa [List.append_nil] at here
      rw [newline, LineTail.next_newline] at later
      rw [newline, List.cons_append, afterDirective_carried open_]
      exact later
    · rw [List.cons_append, afterDirective_cons newline]
      exact later

end Place

/-- A directive at the head of a text counts for nothing, whatever is in it. -/
theorem metrics_behind_directive {line : List Char} (whole : WholeLine line) (rest : List Char) :
    (scan ('#' :: (line ++ '\n' :: rest))).metrics = (scan rest).metrics := by
  let start := State.initial ('#' :: (line ++ '\n' :: rest))
  have starts : start.frame.resume start.place = .start start.frame start.place :=
    State.resume_initial ⟨'#', _, rfl, by decide⟩
  have begins : Place.begin start.place = { place := glyphs rest } := by
    obtain ⟨span, here⟩ := exists_glyphs_cons '#' (line ++ '\n' :: rest)
    have taken : Place.afterDirective .other (glyphs (line ++ '\n' :: rest)) = glyphs rest :=
      @Place.afterDirective_line [] line rest whole.carried whole.ends
    rw [← taken]
    exact congrArg Place.begin here
  have goes : start.Goes { start with place := glyphs rest, frame := start.frame.absorb 0 0 } := by
    apply (State.goes_of_start starts).trans
    simp only [State.beginInside, begins]
    rfl
  have behind := Place.run_program (glyphs rest) { start with place := glyphs rest, frame := start.frame.absorb 0 0 } rfl rfl rfl
  have alone := Place.run_program (glyphs rest) (.initial rest) rfl rfl rfl
  rw [scan, State.run_of_goes goes, behind, scan, alone]
  rfl

/-- The directive opens two parentheses, and the rest closes one of them. -/
theorem metrics_behind_carried_directive :
    WholeLine "define LOOP for(\\\r\n\x7b while(n\\\n; \x7d".toList ∧
      (scan ('#' :: ("define LOOP for(\\\r\n\x7b while(n\\\n; \x7d".toList ++ '\n' :: ")for(;i<n;);".toList))).metrics =
        { loops := 1, linear := 1, log := 0 } := by
  have whole : WholeLine "define LOOP for(\\\r\n\x7b while(n\\\n; \x7d".toList := by decide +kernel
  refine ⟨whole, ?_⟩
  rw [metrics_behind_directive whole, metrics_scan]
  decide +kernel

end LoopCost
