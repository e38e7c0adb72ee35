import LoopCost.Proofs.Parting
import LoopCost.Proofs.ScanTree

/-! Every place the scan stops at is behind a piece of the text that ends where no word goes on. This holds for the
headers as well, because each parenthesis that knows its partner has one. -/

namespace LoopCost

private theorem blank_points :
    ∀ range ∈ Unicode.blanks, ∀ point ∈ List.range' range.1 (range.2 + 1 - range.1),
      (point == 0x5F || Unicode.letters.contains point || Unicode.numerics.contains point) = false := by
  decide +kernel

theorem isWordChar_of_isBlank {c : Char} (blank : Unicode.isBlank c = true) : isWordChar c = false := by
  obtain ⟨range, member, lower, upper⟩ := Unicode.Ranges.exists_of_contains blank
  have point := blank_points range member c.toNat (List.mem_range'_1.mpr ⟨lower, by omega⟩)
  rw [Bool.or_eq_false_iff, Bool.or_eq_false_iff] at point
  have other : c ≠ '_' := by
    rintro rfl
    exact absurd point.1.1 (by decide)
  simp [isWordChar, Unicode.isAlphanumeric, Unicode.isLetter, Unicode.isNumeric, other, point]

theorem Cut.append {front middle back : List Char} (cut : Cut middle back) (nonempty : middle ≠ []) :
    Cut (front ++ middle) back := by
  intro last ends
  rw [List.getLast?_append_of_ne_nil _ nonempty] at ends
  exact cut last ends

theorem Cut.of_append {front middle back : List Char} (cut : Cut front (middle ++ back)) : Cut front middle := by
  intro last ends first begins
  cases middle with
  | nil => cases begins
  | cons c middle => exact cut last ends first begins

theorem cut_behind {stop : Char} (unlettered : isWordChar stop = false) (front back : List Char) :
    Cut (front ++ [stop]) back := by
  intro last ends first _ letter
  obtain rfl : stop = last := by simpa using ends
  rw [unlettered] at letter
  cases letter

theorem plain_append (front back : Place) : plain (front ++ back) = plain front ++ plain back := List.map_append

theorem plain_cons (glyph : Glyph) (rest : Place) : plain (glyph :: rest) = glyph.char :: plain rest := rfl

namespace Place

/-- The text read from one place to the other does not end inside of a word. -/
def Leads (place rest : Place) : Prop := ∃ read, place = read ++ rest ∧ Cut (plain read) (plain rest)

theorem Leads.refl (place : Place) : place.Leads place := ⟨[], rfl, by simp [Cut, plain]⟩

theorem Leads.trans {place middle rest : Place} (first : place.Leads middle) (second : middle.Leads rest) :
    place.Leads rest := by
  obtain ⟨read, rfl, cut⟩ := first
  obtain ⟨more, rfl, cut'⟩ := second
  refine ⟨read ++ more, by rw [List.append_assoc], ?_⟩
  rw [plain_append]
  by_cases empty : more = []
  · subst empty
    simpa [plain] using cut
  · exact cut'.append (by simpa [plain] using empty)

theorem Leads.suffix {place rest : Place} (leads : place.Leads rest) : rest <:+ place := by
  obtain ⟨read, rfl, -⟩ := leads
  exact List.suffix_append _ _

theorem Leads.length_le {place rest : Place} (leads : place.Leads rest) : rest.length ≤ place.length :=
  leads.suffix.length_le

theorem leads_nil (place : Place) : place.Leads [] := ⟨place, by simp, by simp [Cut, plain]⟩

theorem leads_behind {stop : Glyph} (unlettered : isWordChar stop.char = false) (front rest : Place) :
    Leads (front ++ stop :: rest) rest := by
  refine ⟨front ++ [stop], by simp, ?_⟩
  rw [plain_append]
  exact cut_behind unlettered (plain front) (plain rest)

theorem leads_cons {stop : Glyph} (unlettered : isWordChar stop.char = false) (rest : Place) : Leads (stop :: rest) rest :=
  leads_behind unlettered [] rest

theorem leads_dropWhile {skipped : Glyph → Bool} (unlettered : ∀ glyph, skipped glyph = true → isWordChar glyph.char = false)
    (place : Place) : place.Leads (place.dropWhile skipped) := by
  induction place with
  | nil => exact .refl []
  | cons glyph rest ih =>
    rw [List.dropWhile_cons]
    split
    · next skips => exact (leads_cons (unlettered glyph skips) rest).trans ih
    · exact .refl _

theorem leads_skipBlanks (place : Place) : place.Leads place.skipBlanks :=
  leads_dropWhile (fun _ blank => isWordChar_of_isBlank blank) place

theorem leads_skipClosers (place : Place) : place.Leads place.skipClosers := by
  apply leads_dropWhile
  intro glyph closer
  rw [Bool.or_eq_true, Bool.or_eq_true, beq_iff_eq, beq_iff_eq] at closer
  rcases closer with (blank | same) | same
  · exact isWordChar_of_isBlank blank
  all_goals exact isWordChar_sign (by simp [same])

theorem leads_readWord (place : Place) : place.Leads place.readWord.2 := by
  refine ⟨place.takeWhile (isWordChar ·.char), List.takeWhile_append_dropWhile.symm, ?_⟩
  intro last _ first begins _
  have stops := List.head?_dropWhile_not (fun glyph : Glyph => isWordChar glyph.char) place
  rw [plain, List.head?_map, Option.mem_def, Option.map_eq_some_iff] at begins
  obtain ⟨glyph, here, rfl⟩ := begins
  rw [readWord] at here
  rw [here] at stops
  exact stops

theorem leads_afterDirective (tail : LineTail) (place : Place) : place.Leads (afterDirective tail place) := by
  suffices afterDirective tail place = [] ∨
      ∃ front stop, stop.char = '\n' ∧ place = front ++ stop :: afterDirective tail place by
    rcases this with ends | ⟨front, stop, newline, whole⟩
    · rw [ends]
      exact leads_nil place
    · have unlettered : isWordChar stop.char = false := isWordChar_sign (by simp [newline])
      have leads := leads_behind unlettered front (afterDirective tail place)
      rwa [← whole] at leads
  fun_induction afterDirective tail place with
  | case1 => exact .inl rfl
  | case2 glyph rest newline => exact .inr ⟨[], glyph, newline, rfl⟩
  | case3 tail glyph rest _ _ ih | case4 tail glyph rest _ ih =>
    refine ih.imp_right ?_
    intro found
    obtain ⟨front, stop, newline, whole⟩ := found
    exact ⟨glyph :: front, stop, newline, congrArg (glyph :: ·) whole⟩

private theorem leads_behind_colon {stop : Glyph} (colon : stop.char = ':') (front rest : Place) :
    Leads (front ++ stop :: rest) rest :=
  leads_behind (isWordChar_sign (by simp [colon])) front rest

theorem leads_afterCase? {place after : Place} (found : place.afterCase? = some after) : place.Leads after := by
  suffices ∃ front stop, stop.char = ':' ∧ place = front ++ stop :: after by
    obtain ⟨front, stop, colon, rfl⟩ := this
    exact leads_behind_colon colon front after
  fun_induction afterCase? place with
  | case1 => cases found
  | case2 glyph colon => cases found; exact ⟨[], glyph, colon, rfl⟩
  | case3 => cases found
  | case4 glyph next rest _ _ ih =>
    obtain ⟨front, stop, colon, whole⟩ := ih found
    exact ⟨glyph :: next :: front, stop, colon, by rw [whole]; rfl⟩
  | case5 glyph next rest colon _ => cases found; exact ⟨[], glyph, colon, rfl⟩
  | case6 => cases found
  | case7 glyph next rest _ _ ih =>
    obtain ⟨front, stop, colon, whole⟩ := ih found
    exact ⟨glyph :: front, stop, colon, by rw [whole]; rfl⟩

theorem afterLabel?_eq_some {place after : Place} (found : place.afterLabel? = some after) :
    ∃ stop, stop.char = ':' ∧ place.skipBlanks = stop :: after := by
  unfold afterLabel? at found
  split at found
  · cases found
  · next stop rest here =>
    rw [Option.ite_none_right_eq_some] at found
    obtain ⟨⟨colon, -⟩, same⟩ := found
    cases same
    exact ⟨stop, colon, here⟩

theorem leads_afterLabel? {place after : Place} (found : place.afterLabel? = some after) : place.Leads after := by
  obtain ⟨stop, colon, here⟩ := afterLabel?_eq_some found
  have leads := place.leads_skipBlanks
  rw [here] at leads
  exact leads.trans (leads_behind_colon colon [] after)

def Paired (place : Place) : Prop :=
  ∀ span rest, ⟨'(', some span⟩ :: rest <:+ place →
    ∃ inside close after, rest = inside ++ close :: after ∧ close.char = ')' ∧ inside.length = span

theorem Paired.suffix {place rest : Place} (paired : place.Paired) (within : rest <:+ place) : rest.Paired :=
  fun span after here => paired span after (here.trans within)

theorem Leads.paired {place rest : Place} (leads : place.Leads rest) (paired : place.Paired) : rest.Paired := by
  obtain ⟨read, rfl, -⟩ := leads
  exact paired.suffix (List.suffix_append _ _)

theorem Paired.cons {place : Place} (paired : place.Paired) {glyph : Glyph}
    (known : ∀ span, glyph = ⟨'(', some span⟩ →
      ∃ inside close after, place = inside ++ close :: after ∧ close.char = ')' ∧ inside.length = span) :
    Paired (glyph :: place) := by
  intro span rest within
  rcases List.suffix_cons_iff.mp within with same | later
  · obtain ⟨rfl, rfl⟩ := List.cons.inj same
    exact known span rfl
  · exact paired span rest later

end Place

structure Pairing.Sound (pairing : Pairing) : Prop where
  size_eq : pairing.size = pairing.glyphs.length
  waits : ∀ follow ∈ pairing.waiting,
    ∃ inside close after, pairing.glyphs = inside ++ close :: after ∧ close.char = ')' ∧ after.length = follow
  paired : Place.Paired pairing.glyphs

theorem Pairing.Sound.cons {pairing : Pairing} (sound : pairing.Sound) (c : Char) : (pairing.cons c).Sound := by
  have still (glyph : Glyph) : ∀ follow ∈ pairing.waiting,
      ∃ inside close after, glyph :: pairing.glyphs = inside ++ close :: after ∧ close.char = ')' ∧ after.length = follow := by
    intro follow member
    obtain ⟨inside, close, after, whole, closes, length⟩ := sound.waits follow member
    exact ⟨glyph :: inside, close, after, by rw [whole]; rfl, closes, length⟩
  unfold Pairing.cons
  dsimp only
  split
  · next closes =>
    refine ⟨by simp [sound.size_eq], ?_, sound.paired.cons (by simp)⟩
    intro follow member
    rcases List.mem_cons.mp member with rfl | member
    · exact ⟨[], ⟨c, none⟩, pairing.glyphs, rfl, closes, sound.size_eq.symm⟩
    · exact still _ follow member
  split
  · split
    · exact ⟨by simp [sound.size_eq], by simp, sound.paired.cons (by simp)⟩
    · next follow waiting here =>
      have member : follow ∈ pairing.waiting := by rw [here]; exact List.mem_cons_self
      refine ⟨by simp [sound.size_eq], ?_, sound.paired.cons ?_⟩
      · intro later member
        apply still _ later
        rw [here]
        exact List.mem_cons_of_mem _ member
      · intro span same
        obtain ⟨inside, close, after, whole, closes, length⟩ := sound.waits follow member
        refine ⟨inside, close, after, whole, closes, ?_⟩
        have size := sound.size_eq
        rw [whole, List.length_append, List.length_cons, length] at size
        have distance : pairing.size - follow - 1 = span := by simpa using congrArg Glyph.span same
        omega
  · exact ⟨by simp [sound.size_eq], still _, sound.paired.cons (by simp)⟩

theorem Pairing.sound_ofText (text : List Char) : (Pairing.ofText text).Sound := by
  induction text with
  | nil => exact ⟨rfl, by simp [ofText], fun span rest within => absurd (List.suffix_nil.mp within) (by simp)⟩
  | cons c text ih => exact ih.cons c

theorem paired_glyphs (text : List Char) : Place.Paired (glyphs text) := (Pairing.sound_ofText text).paired

namespace Place

/-- A header is followed by the parenthesis that closes it. -/
theorem readHeader?_eq_some {place after : Place} {header : List Char} (paired : place.Paired)
    (found : place.readHeader? = some (header, after)) :
    ∃ front close, close.char = ')' ∧ place = front ++ close :: after ∧
      ∃ blanks, (∀ c ∈ blanks, Unicode.isBlank c = true) ∧ plain front = blanks ++ '(' :: header := by
  unfold readHeader? at found
  split at found
  · next span rest here =>
    cases found
    have whole : place.takeWhile (Unicode.isBlank ·.char) ++ place.skipBlanks = place := List.takeWhile_append_dropWhile
    have within : ⟨'(', some span⟩ :: rest <:+ place := here ▸ List.dropWhile_suffix _
    obtain ⟨inside, close, after, rfl, closes, length⟩ := paired span rest within
    have header : (inside ++ close :: after).take span = inside := by rw [← length, List.take_left]
    have behind : (inside ++ close :: after).drop (span + 1) = after := by
      rw [← length, ← List.drop_drop, List.drop_left]
      rfl
    rw [header, behind]
    refine ⟨place.takeWhile (Unicode.isBlank ·.char) ++ ⟨'(', some span⟩ :: inside, close, closes, ?_,
      plain (place.takeWhile (Unicode.isBlank ·.char)), ?_, ?_⟩
    · rw [List.append_assoc, List.cons_append, ← here, whole]
    · intro c member
      obtain ⟨glyph, listed, rfl⟩ := List.mem_map.mp member
      exact List.all_eq_true.mp List.all_takeWhile glyph listed
    · rw [plain_append]
      rfl
  · cases found

theorem leads_readHeader? {place after : Place} {header : List Char} (paired : place.Paired)
    (found : place.readHeader? = some (header, after)) : place.Leads after := by
  obtain ⟨front, close, closes, rfl, -⟩ := readHeader?_eq_some paired found
  exact leads_behind (isWordChar_sign (by simp [closes])) front after

theorem leads_afterDo {place : Place} (paired : place.Paired) : place.Leads place.afterDo := by
  have word := place.leads_skipBlanks.trans place.skipBlanks.leads_readWord
  unfold afterDo
  dsimp only
  split
  · split
    · next header after found =>
      have closed := (word.trans (leads_readHeader? (word.paired paired) found)).trans after.leads_skipBlanks
      split
      · next semicolon next here =>
        rw [here] at closed
        exact closed.trans (leads_cons (isWordChar_sign (by simp)) next)
      · exact closed
    · exact word
  · exact .refl place

theorem leads_afterElse? {place after : Place} (found : place.afterElse? = some after) : place.Leads after := by
  unfold afterElse? at found
  dsimp only at found
  split at found
  · cases found
    exact place.leads_skipBlanks.trans place.skipBlanks.leads_readWord
  · cases found

/-- A simple statement stops in front of a mark or at the end of the text. -/
theorem takeSimple_eq (depth : Nat) (place : Place) :
    ∃ read, place = read ++ (place.takeSimple depth).2 ∧ (place.takeSimple depth).1 = plain read ∧
      ∀ stop ∈ (place.takeSimple depth).2.head?, stop.char = ';' ∨ stop.char = '{' ∨ stop.char = '}' := by
  fun_induction takeSimple depth place with
  | case1 => exact ⟨[], rfl, rfl, by simp⟩
  | case2 depth glyph rest stops =>
    refine ⟨[], rfl, rfl, ?_⟩
    intro stop here
    cases here
    exact stops.2
  | case3 depth glyph rest goes text stop taken ih =>
    rw [taken] at ih
    obtain ⟨read, whole, same, ends⟩ := ih
    exact ⟨glyph :: read, congrArg (glyph :: ·) whole, congrArg (glyph.char :: ·) same, ends⟩

end Place

structure Begins (place : Place) (beginning : Beginning) : Prop where
  leads : place.Leads beginning.place
  simple : ∀ text ∈ beginning.simple, ∃ start read stop, place.Leads start ∧ start = read ++ stop ∧ plain read = text ∧
    Cut text (plain stop) ∧ stop.Leads beginning.place

theorem Begins.behind {place start : Place} {beginning : Beginning} (leads : place.Leads start)
    (begins : Begins start beginning) : Begins place beginning := by
  refine ⟨leads.trans begins.leads, ?_⟩
  intro text member
  obtain ⟨first, read, stop, later, parts⟩ := begins.simple text member
  exact ⟨first, read, stop, leads.trans later, parts⟩

/-- Nothing but the place counts where there is no simple statement. -/
theorem Begins.silent {place : Place} {beginning : Beginning} (leads : place.Leads beginning.place)
    (silent : beginning.simple = none) : Begins place beginning :=
  ⟨leads, fun text member => absurd member (by simp [silent])⟩

namespace Place

theorem begins_beginSimple (place : Place) : Begins place place.beginSimple := by
  obtain ⟨read, whole, text_eq, ends⟩ := place.takeSimple_eq 0
  rw [beginSimple, readSimple_eq, List.reverse_nil, List.nil_append, text_eq]
  generalize (place.takeSimple 0).2 = stop at whole ends
  subst whole
  cases stop with
  | nil =>
    refine ⟨leads_nil _, ?_⟩
    intro text member
    cases member
    exact ⟨_, read, [], .refl _, rfl, rfl, by simp [Cut, plain], .refl _⟩
  | cons stop rest =>
    have unlettered : isWordChar stop.char = false := by
      apply isWordChar_sign
      rcases ends stop rfl with same | same | same <;> simp [same]
    have cut : Cut (plain read) (plain (stop :: rest)) := cut_cons unlettered _ _
    rw [endSimple]
    split
    · next semicolon =>
      refine ⟨leads_behind unlettered read rest, ?_⟩
      intro text member
      cases member
      exact ⟨_, read ++ [stop], rest, .refl _, by simp, by simp [plain, semicolon],
        cut_behind (isWordChar_sign (by simp)) _ _, .refl _⟩
    split
    · refine ⟨leads_behind unlettered read rest, ?_⟩
      intro text member
      cases member
      exact ⟨_, read, stop :: rest, .refl _, rfl, rfl, cut, leads_cons unlettered rest⟩
    · refine ⟨⟨read, rfl, cut⟩, ?_⟩
      intro text member
      cases member
      exact ⟨_, read, stop :: rest, .refl _, rfl, rfl, cut, .refl _⟩

theorem begins_beginHeaded {place : Place} (paired : place.Paired) (construct : List Char → Construct) (note : Option Note) :
    Begins place (place.beginHeaded construct note) := by
  unfold beginHeaded
  split
  · next header body found => exact .silent (leads_readHeader? paired found) rfl
  · exact ⟨place.begins_beginSimple.leads, place.begins_beginSimple.simple⟩

theorem begins_beginWord {place : Place} (paired : place.Paired) : Begins place place.beginWord := by
  have word := place.leads_readWord
  have headed (construct : List Char → Construct) (note : Option Note) :=
    Begins.behind word (begins_beginHeaded (word.paired paired) construct note)
  unfold beginWord
  dsimp only
  split
  · exact headed _ _
  · exact headed _ _
  · exact headed _ _
  · exact headed _ _
  · exact .silent word rfl
  · exact .silent word rfl
  · split
    · next found => exact .silent ((word.trans (leads_skipBlanks _)).trans (leads_afterCase? found)) rfl
    · exact place.begins_beginSimple
  · split
    · next found => exact .silent (word.trans (leads_afterLabel? found)) rfl
    · exact place.begins_beginSimple

theorem begins_begin {place : Place} (paired : place.Paired) : Begins place place.begin := by
  have blanks := place.leads_skipBlanks
  unfold begin
  split
  · exact .silent (leads_nil place) rfl
  · next first rest here =>
    rw [here] at blanks
    have behind (unlettered : isWordChar first.char = false) : place.Leads rest :=
      blanks.trans (leads_cons unlettered rest)
    split
    · exact .silent blanks rfl
    split
    · next opening => exact .silent (behind (isWordChar_sign (by simp [opening]))) rfl
    split
    · next semicolon => exact .silent (behind (isWordChar_sign (by simp [semicolon]))) rfl
    split
    · next hash => exact .silent ((behind (isWordChar_sign (by simp [hash]))).trans (leads_afterDirective _ _)) rfl
    split
    · exact .behind blanks (begins_beginWord (blanks.paired paired))
    · exact .behind blanks (begins_beginSimple _)

end Place

end LoopCost
