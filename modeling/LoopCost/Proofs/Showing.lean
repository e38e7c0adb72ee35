import LoopCost.Proofs.Boundary

/-! Whether a text rescales a name can be told statement by statement: what a simple statement shows by itself it
shows as a part of the text, and a text without control flow shows nothing that no simple statement of it does. -/

namespace LoopCost.Place

variable {names : List Name}

def Shows (names : List Name) (place rest : Place) : Prop :=
  ∃ read, place = read ++ rest ∧ rescales (plain read) names = true

/-- However far the text is read on, all that it shows is known already or shown by what is read on alone. -/
def Tells (names : List Name) (known : Bool) (place rest : Place) : Prop :=
  ∃ read, place = read ++ rest ∧
    ∀ more, more <+: rest → rescales (plain (read ++ more)) names = true →
      known = true ∨ rescales (plain more) names = true

theorem Shows.before {place middle rest : Place} (shows_ : Shows names place middle) (cut : place.Leads middle)
    (later : middle.Leads rest) : Shows names place rest := by
  obtain ⟨read, rfl, found⟩ := shows_
  obtain ⟨more, rfl, -⟩ := later
  obtain ⟨read', same, cut⟩ := cut
  obtain rfl := List.append_cancel_right same
  refine ⟨read ++ more, by rw [List.append_assoc], ?_⟩
  rw [plain_append] at cut ⊢
  exact rescales_append_right cut.of_append found

theorem Leads.shows {place middle rest : Place} (cut : place.Leads middle) (later : Shows names middle rest) :
    Shows names place rest := by
  obtain ⟨more, rfl, found⟩ := later
  obtain ⟨read, rfl, cut⟩ := cut
  refine ⟨read ++ more, by rw [List.append_assoc], ?_⟩
  rw [plain_append] at cut ⊢
  exact rescales_append_left cut.of_append found

theorem Tells.refl (place : Place) : Tells names false place place := ⟨[], rfl, fun _ _ found => .inr found⟩

theorem Tells.trans {place middle rest : Place} {known more : Bool} (first : Tells names known place middle)
    (second : Tells names more middle rest) : Tells names (known || more) place rest := by
  obtain ⟨read, rfl, told⟩ := first
  obtain ⟨read', rfl, told'⟩ := second
  refine ⟨read ++ read', by rw [List.append_assoc], ?_⟩
  intro further leads found
  rw [List.append_assoc] at found
  rcases told (read' ++ further) ((List.prefix_append_right_inj read').mpr leads) found with seen | later
  · exact .inl (by rw [seen, Bool.true_or])
  · rcases told' further leads later with seen | later
    · exact .inl (by rw [seen, Bool.or_true])
    · exact .inr later

theorem tells_skipBlanks (place : Place) : Tells names false place place.skipBlanks := by
  refine ⟨place.takeWhile (Unicode.isBlank ·.char), List.takeWhile_append_dropWhile.symm, ?_⟩
  intro more _ found
  rw [plain_append, rescales_marks_append] at found
  · exact .inr found
  · intro c member
    obtain ⟨glyph, listed, rfl⟩ := List.mem_map.mp member
    exact isWordChar_of_isBlank (List.all_eq_true.mp List.all_takeWhile glyph listed)

theorem tells_behind {stop : Glyph} (ends : stop.char ∈ [';', '{', '}']) (front rest : Place) :
    Tells names (rescales (plain front) names) (front ++ stop :: rest) rest := by
  refine ⟨front ++ [stop], by simp, ?_⟩
  intro more _ found
  rw [List.append_assoc, plain_append] at found
  rwa [← Bool.or_eq_true, ← rescales_append_stop ends]

theorem tells_cons {stop : Glyph} (ends : stop.char ∈ [';', '{', '}']) (rest : Place) :
    Tells names false (stop :: rest) rest := by
  have told := @tells_behind names stop ends [] rest
  rwa [plain, List.map_nil, rescales_nil] at told

theorem tells_beginSimple (place : Place) :
    Tells names (place.beginSimple.simple.any (rescales · names)) place place.beginSimple.place := by
  obtain ⟨read, whole, text_eq, ends⟩ := place.takeSimple_eq 0
  rw [beginSimple, readSimple_eq, List.reverse_nil, List.nil_append, text_eq]
  generalize (place.takeSimple 0).2 = stop at whole ends
  subst whole
  cases stop with
  | nil =>
    refine ⟨read, rfl, ?_⟩
    intro more none found
    rw [List.prefix_nil.mp none, List.append_nil] at found
    exact .inl found
  | cons stop rest =>
    have ends : stop.char ∈ [';', '{', '}'] := by simpa using ends stop rfl
    have told := @tells_behind names stop ends read rest
    rw [endSimple]
    split
    · next semicolon =>
      have same : rescales (plain read ++ [';']) names = rescales (plain read) names := by
        rw [rescales_append_stop (by simp), rescales_nil, Bool.or_false]
      simpa [same] using told
    split
    · exact told
    · refine ⟨read, rfl, ?_⟩
      intro more leads found
      rcases List.prefix_cons_iff.mp leads with rfl | ⟨more, rfl, -⟩
      · rw [List.append_nil] at found
        exact .inl found
      · rw [plain_append, plain_cons, rescales_append_stop ends, Bool.or_eq_true] at found
        refine found.imp_right ?_
        intro later
        exact (rescales_append_stop ends [] (plain more) names).trans (by rw [rescales_nil, Bool.false_or]; exact later)

/-- The characters of a label are no equals signs. -/
theorem tells_label {place after : Place} (found : place.readWord.2.afterLabel? = some after) :
    Tells names false place after := by
  obtain ⟨stop, colon, here⟩ := afterLabel?_eq_some found
  have word : place.takeWhile (isWordChar ·.char) ++ place.readWord.2 = place := List.takeWhile_append_dropWhile
  have blanks : place.readWord.2.takeWhile (Unicode.isBlank ·.char) ++ place.readWord.2.skipBlanks = place.readWord.2 :=
    List.takeWhile_append_dropWhile
  let front := place.takeWhile (isWordChar ·.char) ++ place.readWord.2.takeWhile (Unicode.isBlank ·.char)
  have absent : '=' ∉ plain front := by
    intro member
    obtain ⟨glyph, listed, same⟩ := List.mem_map.mp member
    rcases List.mem_append.mp listed with listed | listed
    · have letter := List.all_eq_true.mp List.all_takeWhile glyph listed
      rw [same, isWordChar_sign (by simp)] at letter
      cases letter
    · have blank := List.all_eq_true.mp List.all_takeWhile glyph listed
      rw [same] at blank
      exact absurd blank (by decide)
  refine ⟨front ++ [stop], ?_, ?_⟩
  · rw [List.append_assoc, List.append_assoc, List.singleton_append, ← here, blanks, word]
  · intro more _ found
    rw [List.append_assoc, plain_append, List.singleton_append, plain_cons, colon, rescales_append_colon absent] at found
    exact .inr found

def Controls (place : Place) : Prop :=
  place.skipBlanks.head?.map Glyph.char = some '#' ∨ (Keyword.ofWord? place.skipBlanks.readWord.1).isSome = true

structure Plainly (names : List Name) (place : Place) (beginning : Beginning) : Prop where
  opens : beginning.opens = none ∨ beginning.opens = some .block
  tells : Tells names (beginning.simple.any (rescales · names)) place beginning.place

theorem plainly_beginSimple (place : Place) : Plainly names place place.beginSimple := by
  refine ⟨?_, place.tells_beginSimple⟩
  rw [beginSimple, readSimple_eq]
  unfold endSimple
  split
  · exact .inl rfl
  split
  · exact .inl rfl
  split
  · exact .inr rfl
  · exact .inl rfl

theorem plainly_beginWord {place : Place} (word : Keyword.ofWord? place.readWord.1 = none) :
    Plainly names place place.beginWord := by
  simp only [beginWord, word]
  split
  · next after found => exact ⟨.inl rfl, tells_label found⟩
  · exact plainly_beginSimple place

theorem plainly_begin {place : Place} (free : ¬ place.Controls) : Plainly names place place.begin := by
  have blanks := @tells_skipBlanks names place
  have behind {beginning : Beginning} (plainly : Plainly names place.skipBlanks beginning) :
      Plainly names place beginning := ⟨plainly.opens, blanks.trans plainly.tells⟩
  rw [Controls, not_or] at free
  obtain ⟨noDirective, noKeyword⟩ := free
  unfold begin
  split
  · next here => exact ⟨.inl rfl, here ▸ blanks⟩
  · next first rest here =>
    rw [here] at behind noDirective noKeyword blanks
    split
    · exact ⟨.inl rfl, blanks⟩
    split
    · next opening => exact behind ⟨.inr rfl, tells_cons (by simp [opening]) rest⟩
    split
    · next semicolon => exact behind ⟨.inl rfl, tells_cons (by simp [semicolon]) rest⟩
    split
    · next hash => exact absurd (congrArg some hash) noDirective
    split
    · exact behind (plainly_beginWord (by simpa using noKeyword))
    · exact behind (plainly_beginSimple _)

end LoopCost.Place

namespace LoopCost

/-- A simple statement shows whatever its text does, with all that is read along with it. -/
theorem Begins.shows {names : List Name} {place : Place} {beginning : Beginning} (begins : Begins place beginning)
    {text : List Char} (simple : beginning.simple = some text) (found : rescales text names = true) :
    place.Shows names beginning.place := by
  obtain ⟨start, read, stop, leads, rfl, rfl, cut, later⟩ := begins.simple text simple
  have here : Place.Shows names (read ++ stop) stop := ⟨read, rfl, found⟩
  exact leads.shows (here.before ⟨read, rfl, cut⟩ later)

end LoopCost
