import LoopCost.Proofs.Ending
import LoopCost.Proofs.Independence
import LoopCost.Proofs.Mirror

/-! A text in braces, with or without a construct around it. The scan inside of the braces is the scan of the text
alone, also where the end of the text swallows the closing brace. -/

namespace LoopCost

def closingBrace : Glyph := ⟨'}', none⟩

theorem Pairing.ofText_brace (text : List Char) :
    ofText (text ++ ['}']) =
      ⟨(ofText text).glyphs ++ [closingBrace], (ofText text).size + 1, (ofText text).waiting.map (· + 1)⟩ := by
  induction text with
  | nil => rfl
  | cons c rest ih =>
    have step (text : List Char) : ofText (c :: text) = (ofText text).cons c := rfl
    rw [List.cons_append, step, ih, step]
    unfold Pairing.cons
    split
    · simp
    split
    · cases (ofText rest).waiting with
      | nil => simp
      | cons follow waiting => simp only [List.map_cons, List.cons_append, Nat.add_sub_add_right]
    · simp

theorem glyphs_brace (text : List Char) : glyphs (text ++ ['}']) = glyphs text ++ [closingBrace] := by
  rw [glyphs, Pairing.ofText_brace, glyphs]

namespace Place

private theorem dropWhile_brace {skipped : Glyph → Bool} (stays : skipped closingBrace = false) (place : Place) :
    (place ++ [closingBrace]).dropWhile skipped = place.dropWhile skipped ++ [closingBrace] := by
  rw [List.dropWhile_append]
  split
  · next empty => rw [List.isEmpty_iff.mp empty, List.dropWhile_cons, stays]; rfl
  · rfl

theorem skipBlanks_brace (place : Place) : skipBlanks (place ++ [closingBrace]) = place.skipBlanks ++ [closingBrace] :=
  dropWhile_brace (by decide) place

theorem readWord_brace (place : Place) :
    readWord (place ++ [closingBrace]) = (place.readWord.1, place.readWord.2 ++ [closingBrace]) := by
  have stays : isWordChar closingBrace.char = false := isWordChar_sign (by simp [closingBrace])
  have taken : (place ++ [closingBrace]).takeWhile (isWordChar ·.char) = place.takeWhile (isWordChar ·.char) := by
    rw [List.takeWhile_append]
    split
    · next whole => rw [List.takeWhile_cons, stays, (List.takeWhile_prefix _).eq_of_length whole]; simp
    · rfl
  rw [readWord, taken, dropWhile_brace stays]
  rfl

theorem readHeader?_brace {place : Place} (paired : place.Paired) :
    readHeader? (place ++ [closingBrace]) = place.readHeader?.map fun (header, after) => (header, after ++ [closingBrace]) := by
  have within : place.skipBlanks <:+ place := List.dropWhile_suffix _
  unfold readHeader?
  rw [skipBlanks_brace]
  cases here : place.skipBlanks with
  | nil => rfl
  | cons first rest =>
    obtain ⟨c, span⟩ := first
    by_cases opening : c = '('
    · subst opening
      cases span with
      | none => rfl
      | some span =>
        obtain ⟨inside, close, after, rfl, -, rfl⟩ := paired span rest (here ▸ within)
        simp only [List.cons_append, Option.map_some, List.append_assoc, List.take_left, ← List.drop_drop, List.drop_left]
        rfl
    · split
      · next same => cases same; exact absurd rfl opening
      · split
        · next same => cases same; exact absurd rfl opening
        · rfl

/-- A directive at the end of the text takes the brace along. -/
theorem afterDirective_brace (tail : LineTail) (place : Place) :
    afterDirective tail (place ++ [closingBrace]) = afterDirective tail place ++ [closingBrace] ∨
      afterDirective tail place = [] ∧ afterDirective tail (place ++ [closingBrace]) = [] := by
  fun_induction afterDirective tail place with
  | case1 tail => exact .inr ⟨rfl, rfl⟩
  | case2 glyph rest newline => left; simp [afterDirective, newline]
  | case3 tail glyph rest newline carried ih => simpa [afterDirective, newline] using ih
  | case4 tail glyph rest goes ih => simpa [afterDirective, goes] using ih

theorem afterCase?_brace (place : Place) :
    afterCase? (place ++ [closingBrace]) = place.afterCase?.map (· ++ [closingBrace]) := by
  fun_induction afterCase? place with
  | case1 => rfl
  | case2 glyph colon => simp [afterCase?, colon, closingBrace]
  | case3 glyph other => simp [afterCase?, other, closingBrace]
  | case4 glyph next rest colon double ih => simpa [afterCase?, colon, double] using ih
  | case5 glyph next rest colon single => simp [afterCase?, colon, single]
  | case6 glyph next rest other stops => simp [afterCase?, other, stops]
  | case7 glyph next rest other goes ih => simpa [afterCase?, other, goes] using ih

theorem afterLabel?_brace (place : Place) :
    afterLabel? (place ++ [closingBrace]) = place.afterLabel?.map (· ++ [closingBrace]) := by
  unfold afterLabel?
  rw [skipBlanks_brace]
  cases place.skipBlanks with
  | nil => rfl
  | cons glyph rest =>
    cases rest with
    | nil => by_cases colon : glyph.char = ':' <;> simp [colon, closingBrace]
    | cons next rest => by_cases colon : glyph.char = ':' <;> by_cases double : next.char = ':' <;> simp [colon, double]

/-- A simple statement takes the brace along if it ends inside of parentheses or square brackets. -/
theorem takeSimple_brace (depth : Nat) (place : Place) :
    takeSimple depth (place ++ [closingBrace]) =
        ((place.takeSimple depth).1, (place.takeSimple depth).2 ++ [closingBrace]) ∨
      (place.takeSimple depth).2 = [] ∧
        takeSimple depth (place ++ [closingBrace]) = ((place.takeSimple depth).1 ++ ['}'], []) := by
  fun_induction takeSimple depth place with
  | case1 depth =>
    cases depth with
    | zero => exact .inl rfl
    | succ depth => exact .inr ⟨rfl, by simp [takeSimple, closingBrace]⟩
  | case2 depth glyph rest stops => left; simp [takeSimple, stops]
  | case3 depth glyph rest goes text stop taken ih =>
    rw [taken] at ih
    rw [List.cons_append, takeSimple, if_neg goes]
    rcases ih with ih | ⟨rfl, ih⟩
    · left
      rw [ih]
    · right
      rw [ih]
      exact ⟨rfl, rfl⟩

end Place

private theorem sameEvidence_brace (text : List Char) : SameEvidence text (text ++ ['}']) := by
  intro names
  rw [rescales_append_stop (by simp), rescales_nil, Bool.or_false]

/-- The second text is the rest of the first one and the brace behind it, unless the end of the text has taken that
along. -/
def InBraces (place other : Place) : Prop :=
  place.Paired ∧ other = place ++ [closingBrace] ∨ place = [] ∧ other = []

namespace InBraces

variable {place other rest : Place}

/-- What leaves the brace where it is. -/
theorem behind (paired : place.Paired) (leads : place.Leads rest) :
    InBraces rest (rest ++ [closingBrace]) := .inl ⟨leads.paired paired, rfl⟩

theorem optional (paired : place.Paired) {found : Option Place} (leads : ∀ rest, found = some rest → place.Leads rest) :
    Option.Rel InBraces found (found.map (· ++ [closingBrace])) := by
  cases found with
  | none => exact .none
  | some rest => exact .some (behind paired (leads rest rfl))

end InBraces

def enclosing : Reading where
  places := InBraces
  enclosed := True
  further := Reading.never_further
  nil _ := .inr ⟨rfl, rfl⟩
  head := by
    intro place other places _
    rcases places with ⟨paired, rfl⟩ | ⟨rfl, rfl⟩
    · cases place with
      | nil => exact .inl ⟨rfl, .inr ⟨trivial, closingBrace, rfl, rfl⟩⟩
      | cons first rest =>
        exact .inr ⟨first, rest, first, _, rfl, rfl, rfl, fun _ => .inl ⟨paired.suffix (List.suffix_cons _ _), rfl⟩⟩
    · exact .inl ⟨rfl, .inl rfl⟩
  blanks := by
    intro place other places _
    refine ⟨?_, trivial⟩
    rcases places with ⟨paired, rfl⟩ | ⟨rfl, rfl⟩
    · rw [Place.skipBlanks_brace]
      exact .behind paired place.leads_skipBlanks
    · exact .inr ⟨rfl, rfl⟩
  closers top := absurd trivial top
  word := by
    intro place other places _
    rcases places with ⟨paired, rfl⟩ | ⟨rfl, rfl⟩
    · rw [Place.readWord_brace]
      exact ⟨rfl, .behind paired place.leads_readWord, trivial⟩
    · exact ⟨rfl, .inr ⟨rfl, rfl⟩, trivial⟩
  header := by
    intro place other places _
    rcases places with ⟨paired, rfl⟩ | ⟨rfl, rfl⟩
    · rw [Place.readHeader?_brace paired]
      cases found : place.readHeader? with
      | none => exact .inl ⟨rfl, rfl⟩
      | some read =>
        obtain ⟨header, after⟩ := read
        exact .inr (.inl ⟨header, after, header, _, rfl, rfl, .refl header,
          .behind paired (Place.leads_readHeader? paired found), trivial⟩)
    · exact .inl ⟨rfl, rfl⟩
  directive := by
    intro first other rest rest' _ places _
    rcases places with ⟨paired, same⟩ | ⟨absent, -⟩
    · obtain ⟨-, rfl⟩ := List.cons.inj same
      left
      rcases Place.afterDirective_brace .other rest with same | ends
      · exact .inl ⟨(Place.leads_afterDirective .other rest).paired (paired.suffix (List.suffix_cons _ _)), same⟩
      · exact .inr ends
    · cases absent
  caseLabel := by
    intro place other places _
    rcases places with ⟨paired, rfl⟩ | ⟨rfl, rfl⟩
    · rw [Place.afterCase?_brace]
      exact InBraces.optional paired fun _ found => Place.leads_afterCase? found
    · exact .none
  label := by
    intro place other places _
    rcases places with ⟨paired, rfl⟩ | ⟨rfl, rfl⟩
    · rw [Place.afterLabel?_brace]
      exact InBraces.optional paired fun _ found => Place.leads_afterLabel? found
    · exact .none
  simple := by
    intro place other places _
    left
    rcases places with ⟨paired, rfl⟩ | ⟨rfl, rfl⟩
    · rcases place.takeSimple_brace 0 with same | ⟨ends, same⟩
      · obtain ⟨read, whole, -⟩ := place.takeSimple_eq 0
        rw [same]
        exact ⟨.refl _, .inl ⟨paired.suffix ⟨read, whole.symm⟩, rfl⟩, trivial⟩
      · rw [ends, same]
        exact ⟨sameEvidence_brace _, .inr ⟨rfl, rfl⟩, trivial⟩
    · exact ⟨.refl _, .inr ⟨rfl, rfl⟩, trivial⟩

/-- The scan of the text meets no closer at top level. -/
def NoStrays (text : List Char) : Prop :=
  ∀ state : State, (State.initial text).Reaches state → state.frame.construct = .program →
    state.place.skipClosers = state.place.skipBlanks

def braced (text : List Char) : List Char := '{' :: (text ++ ['}'])

def Metrics.inLoop (body : Metrics) (growth : Growth) : Metrics where
  loops := body.loops + 1
  linear := body.linear + if growth = .linear then 1 else 0
  log := body.log + if growth = .logarithmic then 1 else 0

namespace Place

theorem begin_braced (text : List Char) :
    begin (glyphs (braced text)) = { place := glyphs (text ++ ['}']), opens := some .block } := by
  obtain ⟨span, here⟩ := exists_glyphs_cons '{' (text ++ ['}'])
  rw [braced, here]
  rfl

theorem readWord_keyword (keyword : Keyword) (rest : List Char) (ends : ∀ c ∈ rest.head?, isWordChar c = false) :
    readWord (glyphs (keyword.spelling.toList ++ rest)) = (keyword.spelling.toList, glyphs rest) := by
  have spelled : keyword.spelling.toList.all isWordChar = true := by cases keyword <;> decide +kernel
  have letters := List.all_eq_true.mp spelled
  have none : rest.takeWhile isWordChar = [] ∧ rest.dropWhile isWordChar = rest := by
    cases rest with
    | nil => exact ⟨rfl, rfl⟩
    | cons c rest => simp [ends c rfl]
  rw [readWord_glyphs, List.takeWhile_append_of_pos letters, List.dropWhile_append_of_pos letters, none.1, none.2,
    List.append_nil]

theorem begin_keyword (keyword : Keyword) (rest : List Char) :
    begin (glyphs (keyword.spelling.toList ++ rest)) = beginWord (glyphs (keyword.spelling.toList ++ rest)) := by
  have starts : ∃ c word, keyword.spelling.toList = c :: word ∧ Unicode.isBlank c = false ∧
      c ∉ ['}', '{', ';', '#'] ∧ (c = '_' || Unicode.isLetter c) = true := by
    cases keyword <;> exact ⟨_, _, rfl, by decide +kernel⟩
  obtain ⟨c, word, same, visible, sign, letter⟩ := starts
  obtain ⟨span, here⟩ := exists_glyphs_cons c (word ++ rest)
  simp only [List.mem_cons, List.not_mem_nil, or_false, not_or] at sign
  rw [same, List.cons_append, here]
  simp [begin, skipBlanks, visible, sign, letter]

private theorem readHeader?_parenthesised {header : List Char} (balanced : Balanced header) (rest : List Char) :
    readHeader? (glyphs ('(' :: (header ++ ')' :: rest))) = some (header, glyphs rest) :=
  (readHeader?_glyphs _ header _).mpr ⟨rest, rfl, balanced, rfl⟩

/-- A keyword with a header opens its construct. -/
theorem begin_headed {keyword : Keyword} {construct : List Char → Construct}
    (opens : (keyword, construct) ∈ [(.forWord, .forLoop), (.ifWord, fun _ => .conditional), (.switchWord, fun _ => .branch)])
    {header : List Char} (balanced : Balanced header) (rest : List Char) :
    begin (glyphs (keyword.spelling.toList ++ '(' :: (header ++ ')' :: rest))) =
      { place := glyphs rest, opens := some (construct header) } := by
  have word := readWord_keyword keyword ('(' :: (header ++ ')' :: rest)) fun c first => by
    cases first
    exact isWordChar_sign (by simp)
  have found := readHeader?_parenthesised balanced rest
  have headed (construct : List Char → Construct) (note : Option Note) :
      beginHeaded (glyphs ('(' :: (header ++ ')' :: rest))) construct note =
        { place := glyphs rest, opens := some (construct header) } := by
    rw [beginHeaded, found]
  rw [begin_keyword, beginWord, word]
  simp only [List.mem_cons, List.not_mem_nil, or_false, Prod.mk.injEq] at opens
  rcases opens with ⟨rfl, rfl⟩ | ⟨rfl, rfl⟩ | ⟨rfl, rfl⟩
  · exact headed .forLoop _
  · exact headed _ none
  · exact headed _ none

/-- A keyword without a header opens its construct. -/
theorem begin_headless {keyword : Keyword} {construct : Construct}
    (opens : (keyword, construct) ∈ [(.doWord, .doLoop), (.elseWord, .branch)]) (text : List Char) :
    begin (glyphs (keyword.spelling.toList ++ braced text)) =
      { place := glyphs (braced text), opens := some construct } := by
  have word := readWord_keyword keyword (braced text) fun c first => by
    cases first
    exact isWordChar_sign (by simp)
  rw [begin_keyword, beginWord, word]
  simp only [List.mem_cons, List.not_mem_nil, or_false, Prod.mk.injEq] at opens
  rcases opens with ⟨rfl, rfl⟩ | ⟨rfl, rfl⟩ <;> rfl

end Place

namespace State

structure EntersFirst (state : State) (construct : Construct) (rest : List Char) : Prop where
  place_eq : state.place = glyphs rest
  frame_eq : state.frame = .enter construct none
  around_eq : state.around = [.enter .program none]
  loops_eq : state.loops = 0

theorem initial_enters {text rest : List Char} {construct : Construct}
    (starts : ∃ c tail, text = c :: tail ∧ Unicode.isBlank c = false ∧ c ≠ ')' ∧ c ≠ '}')
    (begins : Place.begin (glyphs text) = { place := glyphs rest, opens := some construct }) :
    ∃ state, (initial text).Goes state ∧ state.EntersFirst construct rest := by
  refine ⟨_, goes_of_start (resume_initial starts), ?_⟩
  unfold beginInside
  rw [begins]
  exact ⟨rfl, rfl, rfl, rfl⟩

/-- The scan inside of the braces finds what the scan of the text finds. -/
theorem exists_block {text : List Char} (calm : NoStrays text) {state : State} {outer : Frame} {around : List Frame}
    (place_eq : state.place = glyphs (text ++ ['}'])) (frame_eq : state.frame = .enter .block none)
    (around_eq : state.around = outer :: around) (loops_eq : state.loops = 0) :
    ∃ last : State, state.run.metrics = last.settled ∧ last.frame.construct = .block ∧ last.around = outer :: around ∧
      (scan text).metrics = ⟨last.loops, last.frame.linear, last.frame.log⟩ := by
  have start : Mirrors enclosing (outer :: around) (initial text) state := by
    refine ⟨.inl ⟨paired_glyphs text, place_eq.trans (glyphs_brace text)⟩, ?_, ⟨[], around_eq, .nil⟩, loops_eq.symm⟩
    rw [frame_eq]
    exact .enter (.top trivial) rfl
  obtain ⟨last, reached, ends⟩ := (initial text).exists_last
  obtain ⟨top, finishes, metrics⟩ := advance_done ends
  obtain ⟨after, reached', mirrors⟩ := start.reaches reached (fun _ _ _ _ _ => ⟨trivial, id⟩) fun _ => calm
  have program := program_of_top reached top
  have block : after.frame.construct = .block := by
    have alike := mirrors.frame.construct
    rw [program] at alike
    generalize after.frame.construct = construct at alike
    cases alike with
    | same inner => exact absurd rfl (inner trivial)
    | top => rfl
  have enclosed : after.around = outer :: around := by
    obtain ⟨within, same, others⟩ := mirrors.around
    rw [top] at others
    cases others
    exact same
  have blank : last.place.skipBlanks = [] := by
    obtain ⟨place, finishes⟩ := finishes
    rw [← calm last reached program]
    unfold Frame.resume at finishes
    rw [program] at finishes
    dsimp only at finishes
    split at finishes
    · assumption
    · cases finishes
  have closes : after.frame.resume after.place = .finish [] := by
    unfold Frame.resume
    rw [block]
    rcases mirrors.places with ⟨-, same⟩ | ⟨-, same⟩
    · rw [same, Place.skipBlanks_brace, blank]
      rfl
    · rw [same]
      rfl
  obtain ⟨notes, goes⟩ := goes_of_finish after closes enclosed
  refine ⟨after, ?_, block, enclosed, ?_⟩
  · rw [reached'.run_eq, run_of_goes goes, metrics_run_nil rfl, settled_returned enclosed]
  · have none : last.frame.growth? = none := by rw [Frame.growth?, program]
    rw [scan, metrics, none, mirrors.loops_eq]
    simp only [Metrics.enclose, mirrors.frame.linear_eq, mirrors.frame.log_eq, Nat.max_zero]
    rfl

/-- The growth of a construct that watches nothing does not depend on its body. -/
private theorem growth?_absorbFrame {outer : Frame} (unwatched : ∀ condition, outer.construct ≠ .whileLoop condition)
    (inner : Frame) : (outer.absorbFrame inner).growth? = outer.growth? := by
  unfold Frame.growth?
  rw [Frame.absorbFrame_construct]
  split
  · rfl
  · next condition same => exact absurd same (unwatched condition)
  · rfl
  · rfl

def Bodied (construct : Construct) : Prop :=
  construct = .doLoop ∨ construct = .conditional ∨ construct = .branch ∨ ∃ header, construct = .forLoop header

/-- A text in braces as the body of a construct counts like the text alone, but for the growth of the construct. -/
theorem metrics_of_body {text : List Char} (calm : NoStrays text) {state : State} {construct : Construct}
    (bodied : Bodied construct) (enters : state.EntersFirst construct (braced text)) :
    state.run.metrics = match (Frame.enter construct none).growth? with
      | none => (scan text).metrics
      | some growth => (scan text).metrics.inLoop growth := by
  have unwatched : ∀ condition, (Frame.enter construct none).construct ≠ .whileLoop condition := by
    intro condition same
    rcases bodied with rfl | rfl | rfl | ⟨header, rfl⟩ <;> cases same
  have nothing : (Frame.enter construct none).watch = none := by
    rcases bodied with rfl | rfl | rfl | ⟨header, rfl⟩ <;> rfl
  have starts : state.frame.resume state.place = .start (.enter construct none) (glyphs (braced text)) := by
    rw [enters.frame_eq, enters.place_eq]
    rcases bodied with rfl | rfl | rfl | ⟨header, rfl⟩ <;> rfl
  obtain ⟨next, goes, place_eq, frame_eq, around_eq, loops_eq⟩ : ∃ next, state.Goes next ∧
      next.place = glyphs (text ++ ['}']) ∧ next.frame = .enter .block none ∧
      next.around = .enter construct none :: state.around ∧ next.loops = state.loops := by
    refine ⟨_, goes_of_start starts, ?_⟩
    unfold beginInside
    rw [Place.begin_braced]
    exact ⟨rfl, congrArg (Frame.enter .block) nothing, rfl, rfl⟩
  obtain ⟨last, settles, block, enclosed, metrics⟩ :=
    exists_block calm place_eq frame_eq around_eq (loops_eq.trans enters.loops_eq)
  have silent : last.frame.growth? = none := by rw [Frame.growth?, block]
  have ends : (Frame.enter .program none).growth? = none := rfl
  rw [run_of_goes goes, settles, metrics, settled, enclosed, enters.around_eq, Frame.growths, Frame.growths,
    Frame.growths, silent, growth?_absorbFrame unwatched, growth?_absorbFrame (by simp [Frame.enter]), ends]
  cases (Frame.enter construct none).growth? with
  | none => simp [Metrics.settle, Metrics.enclose, Frame.enter]
  | some growth => simp [Metrics.settle, Metrics.enclose, Metrics.inLoop, Frame.enter]

end State

section
variable {text : List Char} (calm : NoStrays text)
include calm

theorem metrics_braced : (scan (braced text)).metrics = (scan text).metrics := by
  have starts : ∃ state, (State.initial (braced text)).Goes state ∧ state.EntersFirst .block (text ++ ['}']) :=
    State.initial_enters ⟨'{', _, rfl, by decide⟩ (Place.begin_braced text)
  obtain ⟨state, goes, enters⟩ := starts
  obtain ⟨last, settles, block, enclosed, metrics⟩ :=
    State.exists_block calm enters.place_eq enters.frame_eq enters.around_eq enters.loops_eq
  have silent : last.frame.growth? = none := by rw [Frame.growth?, block]
  have ends : (Frame.enter .program none).growth? = none := rfl
  rw [scan, State.run_of_goes goes, settles, metrics, State.settled, enclosed, Frame.growths, Frame.growths, silent,
    State.growth?_absorbFrame (by simp [Frame.enter]), ends]
  simp [Metrics.settle, Metrics.enclose, Frame.enter]

private theorem metrics_behind (keyword : Keyword) (header : List Char) {construct : Construct}
    (bodied : State.Bodied construct)
    (begins : Place.begin (glyphs (keyword.spelling.toList ++ (header ++ braced text))) =
      { place := glyphs (braced text), opens := some construct }) :
    (scan (keyword.spelling.toList ++ (header ++ braced text))).metrics =
      match (Frame.enter construct none).growth? with
      | none => (scan text).metrics
      | some growth => (scan text).metrics.inLoop growth := by
  have visible : ∃ c tail, keyword.spelling.toList ++ (header ++ braced text) = c :: tail ∧
      Unicode.isBlank c = false ∧ c ≠ ')' ∧ c ≠ '}' := by
    cases keyword <;> exact ⟨_, _, rfl, by decide⟩
  obtain ⟨state, goes, enters⟩ := State.initial_enters visible begins
  rw [scan, State.run_of_goes goes]
  exact State.metrics_of_body calm bodied enters

theorem metrics_behind_header (keyword : Keyword) (construct : List Char → Construct)
    (opens : (keyword, construct) ∈ [(.forWord, .forLoop), (.ifWord, fun _ => .conditional), (.switchWord, fun _ => .branch)])
    {header : List Char} (balanced : Balanced header) :
    (scan (keyword.spelling.toList ++ '(' :: (header ++ ')' :: braced text))).metrics =
      match (Frame.enter (construct header) none).growth? with
      | none => (scan text).metrics
      | some growth => (scan text).metrics.inLoop growth := by
  have bodied : State.Bodied (construct header) := by
    simp only [List.mem_cons, List.not_mem_nil, or_false, Prod.mk.injEq] at opens
    rcases opens with ⟨-, rfl⟩ | ⟨-, rfl⟩ | ⟨-, rfl⟩
    · exact .inr (.inr (.inr ⟨header, rfl⟩))
    · exact .inr (.inl rfl)
    · exact .inr (.inr (.inl rfl))
  have begins := Place.begin_headed opens balanced (braced text)
  have same : '(' :: (header ++ ')' :: braced text) = ('(' :: (header ++ [')'])) ++ braced text := by simp
  rw [same] at begins ⊢
  exact metrics_behind calm keyword _ bodied begins

/-- Braces around a text, also as a branch, change nothing; a loop around it counts once, with its own growth. What is
open at the end of the text and what the text makes of the closing brace do not matter. -/
theorem metrics_nested {header : List Char} (balanced : Balanced header) :
    (scan (braced text)).metrics = (scan text).metrics ∧
    (scan ("if(".toList ++ header ++ ')' :: braced text)).metrics = (scan text).metrics ∧
    (scan ("switch(".toList ++ header ++ ')' :: braced text)).metrics = (scan text).metrics ∧
    (scan ("else".toList ++ braced text)).metrics = (scan text).metrics ∧
    (scan ("do".toList ++ braced text)).metrics = (scan text).metrics.inLoop .linear ∧
    (scan ("for(".toList ++ header ++ ')' :: braced text)).metrics =
      (scan text).metrics.inLoop (.ofFor header) := by
  have headed (word : List Char) :
      (word ++ ['(']) ++ header ++ ')' :: braced text = word ++ '(' :: (header ++ ')' :: braced text) := by
    simp
  refine ⟨metrics_braced calm, ?_, ?_, ?_, ?_, ?_⟩
  · have nested := metrics_behind_header calm .ifWord (fun _ => .conditional) (by simp) balanced
    rwa [← headed] at nested
  · have nested := metrics_behind_header calm .switchWord (fun _ => .branch) (by simp) balanced
    rwa [← headed] at nested
  · exact metrics_behind calm .elseWord [] (.inr (.inr (.inl rfl))) (Place.begin_headless (by simp) text)
  · exact metrics_behind calm .doWord [] (.inl rfl) (Place.begin_headless (by simp) text)
  · have nested := metrics_behind_header calm .forWord .forLoop (by simp) balanced
    rwa [← headed] at nested

end

/-- The call at the end of the text is never closed and takes the brace along. -/
theorem metrics_nested_unclosed :
    NoStrays "for(;i<n;)f(".toList ∧ Balanced ";i<m;i*=g(2)".toList ∧
      (scan ("for(".toList ++ ";i<m;i*=g(2)".toList ++ ')' :: braced "for(;i<n;)f(".toList)).metrics =
        { loops := 2, linear := 1, log := 1 } := by
  have calm : NoStrays "for(;i<n;)f(".toList := by
    intro state reached program
    let start := State.initial "for(;i<n;)f(".toList
    let loop := start.beginInside start.frame start.place
    let body := loop.beginInside loop.frame loop.place
    have first : start.Goes loop := rfl
    have second : loop.Goes body := rfl
    obtain ⟨notes, third⟩ : ∃ notes, body.Goes (body.returned start.frame [] [] notes) :=
      State.goes_of_finish body rfl rfl
    rcases reached.eq_or first with rfl | reached
    · rfl
    rcases reached.eq_or second with rfl | reached
    · cases program
    rcases reached.eq_or third with rfl | reached
    · cases program
    rcases reached.cases_head with rfl | ⟨next, goes, -⟩
    · rfl
    · cases goes
  have balanced : Balanced ";i<m;i*=g(2)".toList := by decide
  refine ⟨calm, balanced, ?_⟩
  rw [(metrics_nested calm balanced).2.2.2.2.2, metrics_scan]
  decide +kernel

end LoopCost
