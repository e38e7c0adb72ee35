import LoopCost.Proofs.Balance
import Mathlib.Data.List.Induction
import Mathlib.Order.Bounds.Basic

/-! Partners by counting. An opening parenthesis is closed at the nearest place up to which, counted from it, as many
parentheses have been closed as opened. A pass from the left that keeps everything that is open on one stack finds the
same partners, whatever is left open and whatever closes nothing. -/

namespace LoopCost

def partner? (text : List Char) (start : Nat) : Option Nat :=
  (glyphs text)[start]?.bind fun glyph => glyph.span.map (start + 1 + ·)

/-- The later offsets up to which a text, from an offset on and both included, closes as many parentheses as it opens. -/
def evenStops (text : List Char) (start : Nat) : Set Nat :=
  {stop | start < stop ∧ stop < text.length ∧
    (text.extract start (stop + 1)).count ')' = (text.extract start (stop + 1)).count '('}

theorem openBehind?_append (level : Nat) (front back : List Char) :
    openBehind? level (front ++ back) = (openBehind? level front).bind (openBehind? · back) := by
  fun_induction openBehind? level front with
  | case1 => rfl
  | case2 level rest ih => simpa [openBehind?] using ih
  | case3 rest closing => rfl
  | case4 rest level closing ih => simpa [openBehind?] using ih
  | case5 level c rest other letter ih => simpa [openBehind?, other, letter] using ih

theorem count_of_openBehind? {level behind : Nat} {text : List Char} (known : openBehind? level text = some behind) :
    behind + text.count ')' = level + text.count '(' := by
  fun_induction openBehind? level text with
  | case1 =>
    cases known
    rfl
  | case2 level rest ih =>
    have later := ih known
    rw [List.count_cons_self, List.count_cons_of_ne (by decide)]
    omega
  | case3 => cases known
  | case4 rest level closing ih =>
    have later := ih known
    rw [List.count_cons_self, List.count_cons_of_ne (by decide)]
    omega
  | case5 level c rest other letter ih =>
    rw [List.count_cons_of_ne letter, List.count_cons_of_ne other]
    exact ih known

/-- Where more parentheses are closed than are open, one of them is the first to close too many. -/
theorem exists_closing {level : Nat} {text : List Char} (excess : level + text.count '(' < text.count ')') :
    ∃ inside, inside ++ [')'] <+: text ∧ openBehind? level inside = some 0 := by
  fun_induction openBehind? level text with
  | case1 => simp at excess
  | case2 level rest ih =>
    rw [List.count_cons_self, List.count_cons_of_ne (by decide)] at excess
    obtain ⟨inside, within, closes⟩ := ih (by omega)
    exact ⟨'(' :: inside, List.cons_prefix_cons.mpr ⟨rfl, within⟩, closes⟩
  | case3 rest => exact ⟨[], List.prefix_append [')'] rest, rfl⟩
  | case4 rest level closing ih =>
    rw [List.count_cons_self, List.count_cons_of_ne (by decide)] at excess
    obtain ⟨inside, within, closes⟩ := ih (by omega)
    exact ⟨')' :: inside, List.cons_prefix_cons.mpr ⟨rfl, within⟩, closes⟩
  | case5 level c rest other letter ih =>
    rw [List.count_cons_of_ne letter, List.count_cons_of_ne other] at excess
    obtain ⟨inside, within, closes⟩ := ih excess
    exact ⟨c :: inside, List.cons_prefix_cons.mpr ⟨rfl, within⟩, by simpa [openBehind?, other, letter] using closes⟩

theorem Balanced.count_eq {text : List Char} (balanced : Balanced text) : text.count ')' = text.count '(' := by
  simpa using count_of_openBehind? balanced

theorem Balanced.count_le {text front : List Char} (balanced : Balanced text) (within : front <+: text) :
    front.count ')' ≤ front.count '(' := by
  obtain ⟨back, rfl⟩ := within
  rw [Balanced, openBehind?_append] at balanced
  obtain ⟨behind, known, -⟩ := Option.bind_eq_some_iff.mp balanced
  have counted := count_of_openBehind? known
  omega

theorem glyphs_other {c : Char} (other : c ≠ '(') (rest : List Char) : glyphs (c :: rest) = ⟨c, none⟩ :: glyphs rest := by
  have whole : glyphs (c :: rest) = ((Pairing.ofText rest).cons c).glyphs := rfl
  rw [whole]
  by_cases closing : c = ')' <;> simp [Pairing.cons, closing, other, glyphs]

/-- Nothing in front of a parenthesis has a say in its partner. -/
theorem partner?_append (front text : List Char) (start : Nat) :
    partner? (front ++ text) (front.length + start) = (partner? text start).map (front.length + ·) := by
  have here : (glyphs (front ++ text))[front.length + start]? = (glyphs text)[start]? := by
    rw [← List.getElem?_drop, drop_glyphs, List.drop_left]
  unfold partner?
  rw [here]
  cases (glyphs text)[start]? with
  | none => rfl
  | some glyph => simp only [Option.bind_some, Option.map_map, Function.comp_def, Nat.add_assoc]

theorem partner?_head (text : List Char) (stop : Nat) :
    partner? text 0 = some stop ↔ ∃ inside after,
      text = '(' :: (inside ++ ')' :: after) ∧ Balanced inside ∧ stop = inside.length + 1 := by
  cases text with
  | nil => simp [partner?, glyphs_nil]
  | cons c rest =>
    by_cases opening : c = '('
    · subst opening
      obtain ⟨span?, here⟩ := exists_glyphs_cons '(' rest
      have known (span : Nat) : span? = some span ↔
          ∃ inside after, rest = inside ++ ')' :: after ∧ Balanced inside ∧ inside.length = span := by
        rw [← glyphs_opening, here]
        simp
      simp only [partner?, here, List.getElem?_cons_zero, Option.bind_some, Option.map_eq_some_iff, known]
      constructor
      · rintro ⟨_, ⟨inside, after, rfl, balanced, rfl⟩, rfl⟩
        exact ⟨inside, after, rfl, balanced, by omega⟩
      · rintro ⟨inside, after, same, balanced, rfl⟩
        exact ⟨_, ⟨inside, after, (List.cons.inj same).2, balanced, rfl⟩, by omega⟩
    · have alone : partner? (c :: rest) 0 = none := by simp [partner?, glyphs_other opening]
      rw [alone]
      refine iff_of_false (by simp) ?_
      rintro ⟨inside, after, same, -⟩
      exact opening (List.cons.inj same).1

/-- A parenthesis and its partner have a balanced text between them. -/
theorem partner?_eq_some_iff (text : List Char) (start stop : Nat) :
    partner? text start = some stop ↔ ∃ front inside after,
      text = front ++ '(' :: (inside ++ ')' :: after) ∧ Balanced inside ∧
        front.length = start ∧ stop = start + (inside.length + 1) := by
  constructor
  · intro found
    have within : start ≤ text.length := by
      by_contra beyond
      have outside : (glyphs text)[start]? = none := List.getElem?_eq_none (by rw [length_glyphs]; omega)
      simp [partner?, outside] at found
    have split := List.take_append_drop start text
    have length : (text.take start).length = start := List.length_take_of_le within
    have shifted := partner?_append (text.take start) (text.drop start) 0
    rw [split, length, Nat.add_zero, found] at shifted
    obtain ⟨distance, alone, rfl⟩ := Option.map_eq_some_iff.mp shifted.symm
    obtain ⟨inside, after, same, balanced, rfl⟩ := (partner?_head _ _).mp alone
    exact ⟨text.take start, inside, after, by rw [← same, split], balanced, length, rfl⟩
  · rintro ⟨front, inside, after, rfl, balanced, rfl, rfl⟩
    have here := (partner?_head _ _).mpr ⟨inside, after, rfl, balanced, rfl⟩
    rw [← Nat.add_zero front.length, partner?_append, here]
    rfl

/-- An opening parenthesis is evened out by one closing parenthesis too many behind it. -/
theorem mem_evenStops (front rest : List Char) (stop : Nat) :
    stop ∈ evenStops (front ++ '(' :: rest) front.length ↔ ∃ length, length < rest.length ∧
      stop = front.length + (length + 1) ∧ (rest.take (length + 1)).count ')' = (rest.take (length + 1)).count '(' + 1 := by
  have upTo (length : Nat) : (front ++ '(' :: rest).extract front.length (front.length + (length + 1) + 1) =
      '(' :: rest.take (length + 1) := by
    have size : front.length + (length + 1) + 1 - front.length = length + 1 + 1 := by omega
    rw [List.extract_eq_take_drop, List.drop_left, size, List.take_succ_cons]
  have size : (front ++ '(' :: rest).length = front.length + (rest.length + 1) := by simp
  constructor
  · rintro ⟨behind, inside, even⟩
    obtain ⟨length, rfl⟩ : ∃ length, stop = front.length + (length + 1) := ⟨stop - front.length - 1, by omega⟩
    rw [upTo] at even
    exact ⟨length, by omega, rfl, by simpa using even⟩
  · rintro ⟨length, inside, rfl, excess⟩
    refine ⟨by omega, by omega, ?_⟩
    rw [upTo]
    simpa using excess

/-- A parenthesis behind a balanced text is the first to even out the one in front of it. -/
theorem isLeast_evenStops {inside : List Char} (balanced : Balanced inside) (front after : List Char) :
    IsLeast (evenStops (front ++ '(' :: (inside ++ ')' :: after)) front.length) (front.length + (inside.length + 1)) := by
  constructor
  · refine (mem_evenStops ..).mpr ⟨inside.length, by simp, rfl, ?_⟩
    have upTo : (inside ++ ')' :: after).take (inside.length + 1) = inside ++ [')'] := by
      rw [List.append_cons, List.take_left' (by simp)]
    rw [upTo, List.count_append, List.count_append, balanced.count_eq]
    rfl
  · intro stop even
    obtain ⟨length, -, rfl, excess⟩ := (mem_evenStops ..).mp even
    by_contra earlier
    have short : length + 1 ≤ inside.length := by omega
    rw [List.take_append_of_le_length short] at excess
    have bound := balanced.count_le (List.take_prefix (length + 1) inside)
    omega

/-- Where a parenthesis is evened out at all, it is closed. -/
theorem exists_partner {text : List Char} {start stop : Nat} (opening : text[start]? = some '(')
    (even : stop ∈ evenStops text start) :
    ∃ front inside after, text = front ++ '(' :: (inside ++ ')' :: after) ∧ Balanced inside ∧ front.length = start := by
  obtain ⟨front, rest, rfl, rfl⟩ : ∃ front rest, text = front ++ '(' :: rest ∧ front.length = start := by
    obtain ⟨within, here⟩ := List.getElem?_eq_some_iff.mp opening
    have tail := List.drop_eq_getElem_cons within
    rw [here] at tail
    exact ⟨text.take start, _, by rw [← tail, List.take_append_drop], List.length_take_of_le within.le⟩
  obtain ⟨length, -, -, excess⟩ := (mem_evenStops ..).mp even
  obtain ⟨inside, closes, balanced⟩ := @exists_closing 0 (rest.take (length + 1)) (by omega)
  obtain ⟨after, rfl⟩ := closes.trans (List.take_prefix _ _)
  exact ⟨front, inside, after, by rw [← List.append_cons], balanced, rfl⟩

theorem partner?_eq_some_iff_isLeast (text : List Char) (start stop : Nat) :
    partner? text start = some stop ↔ text[start]? = some '(' ∧ IsLeast (evenStops text start) stop := by
  rw [partner?_eq_some_iff]
  constructor
  · rintro ⟨front, inside, after, rfl, balanced, rfl, rfl⟩
    exact ⟨by simp, isLeast_evenStops balanced front after⟩
  · rintro ⟨opening, least⟩
    obtain ⟨front, inside, after, rfl, balanced, rfl⟩ := exists_partner opening least.1
    exact ⟨front, inside, after, rfl, balanced, rfl, least.unique (isLeast_evenStops balanced front after)⟩

def LeftOpen (text : List Char) (start behind : Nat) : Prop :=
  ∃ front inside, text = front ++ '(' :: inside ∧ front.length = start ∧ openBehind? 0 inside = some behind

theorem leftOpen_concat (text : List Char) (c : Char) (start behind : Nat) :
    LeftOpen (text ++ [c]) start behind ↔
      c = '(' ∧ start = text.length ∧ behind = 0 ∨ ∃ level, LeftOpen text start level ∧ openBehind? level [c] = some behind := by
  constructor
  · rintro ⟨front, inside, whole, rfl, known⟩
    rcases List.eq_nil_or_concat inside with rfl | ⟨inside, last, rfl⟩
    · obtain ⟨rfl, same⟩ := List.append_inj' whole rfl
      exact .inl ⟨(List.cons.inj same).1, rfl, (Option.some.inj known).symm⟩
    · rw [List.concat_eq_append, ← List.cons_append, ← List.append_assoc] at whole
      obtain ⟨rfl, same⟩ := List.append_inj' whole rfl
      rw [List.concat_eq_append, ← same, openBehind?_append] at known
      obtain ⟨level, inner, last⟩ := Option.bind_eq_some_iff.mp known
      exact .inr ⟨level, ⟨front, inside, rfl, rfl, inner⟩, last⟩
  · rintro (⟨rfl, rfl, rfl⟩ | ⟨level, ⟨front, inside, rfl, rfl, inner⟩, last⟩)
    · exact ⟨text, [], rfl, rfl, rfl⟩
    · refine ⟨front, inside ++ [c], by simp, rfl, ?_⟩
      rw [openBehind?_append, inner]
      exact last

theorem leftOpen_opening (text : List Char) (start behind : Nat) :
    LeftOpen (text ++ ['(']) start behind ↔
      start = text.length ∧ behind = 0 ∨ ∃ level, LeftOpen text start level ∧ level + 1 = behind := by
  simp [leftOpen_concat, openBehind?]

theorem leftOpen_closing (text : List Char) (start behind : Nat) :
    LeftOpen (text ++ [')']) start behind ↔ LeftOpen text start (behind + 1) := by
  have last (level : Nat) : openBehind? level [')'] = some behind ↔ level = behind + 1 := by
    cases level <;> simp [openBehind?]
  simp [leftOpen_concat, last]

theorem leftOpen_other {c : Char} (other : c ≠ '(') (letter : c ≠ ')') (text : List Char) (start behind : Nat) :
    LeftOpen (text ++ [c]) start behind ↔ LeftOpen text start behind := by
  simp [leftOpen_concat, openBehind?, other, letter]

theorem partner?_concat (text : List Char) (c : Char) (start stop : Nat) :
    partner? (text ++ [c]) start = some stop ↔
      partner? text start = some stop ∨ c = ')' ∧ LeftOpen text start 0 ∧ stop = text.length := by
  rw [partner?_eq_some_iff, partner?_eq_some_iff]
  constructor
  · rintro ⟨front, inside, after, whole, balanced, rfl, rfl⟩
    rw [← List.cons_append, ← List.append_assoc] at whole
    rcases List.eq_nil_or_concat after with rfl | ⟨after, last, rfl⟩
    · obtain ⟨rfl, same⟩ := List.append_inj' whole rfl
      exact .inr ⟨(List.cons.inj same).1, ⟨front, inside, rfl, rfl, balanced⟩, by simp⟩
    · rw [List.concat_eq_append, ← List.cons_append, ← List.append_assoc] at whole
      obtain ⟨rfl, -⟩ := List.append_inj' whole rfl
      exact .inl ⟨front, inside, after, by simp, balanced, rfl, rfl⟩
  · rintro (⟨front, inside, after, rfl, balanced, rfl, rfl⟩ | ⟨rfl, ⟨front, inside, rfl, rfl, balanced⟩, rfl⟩)
    · exact ⟨front, inside, after ++ [c], by simp, balanced, rfl, rfl⟩
    · exact ⟨front, inside, [], by simp, balanced, rfl, by simp⟩

theorem partner?_closing {text : List Char} {start : Nat} (opened : LeftOpen text start 0) :
    partner? (text ++ [')']) start = some text.length :=
  (partner?_concat ..).mpr (.inr ⟨rfl, opened, rfl⟩)

theorem partner?_kept {text : List Char} {c : Char} {start : Nat} (kept : c = ')' → ¬ LeftOpen text start 0) :
    partner? (text ++ [c]) start = partner? text start := by
  apply Option.ext
  intro stop
  rw [partner?_concat]
  exact ⟨fun found => found.resolve_right fun ⟨closing, opened, _⟩ => kept closing opened, .inl⟩

structure LeftPairing where
  size : Nat
  /-- Where parentheses are open, nearest first. -/
  opened : List Nat
  /-- Each parenthesis that has been closed, with its partner. -/
  partners : List (Nat × Nat)

namespace LeftPairing

def next (before : LeftPairing) (c : Char) : LeftPairing :=
  let size := before.size + 1
  if c = '(' then { before with size, opened := before.size :: before.opened }
  else if c = ')' then
    match before.opened with
    | [] => { before with size }
    | start :: opened => ⟨size, opened, (start, before.size) :: before.partners⟩
  else { before with size }

def ofText (text : List Char) : LeftPairing := text.foldl next ⟨0, [], []⟩

/-- A parenthesis lies as deep on the stack as there are others open behind it, and those that have been closed have the
partners they have in the text. -/
structure Knows (pairing : LeftPairing) (text : List Char) : Prop where
  size : pairing.size = text.length
  opened : ∀ behind start, pairing.opened[behind]? = some start ↔ LeftOpen text start behind
  partners : ∀ start, pairing.partners.lookup start = partner? text start

theorem Knows.next {pairing : LeftPairing} {text : List Char} (knows : pairing.Knows text) (c : Char) :
    (pairing.next c).Knows (text ++ [c]) := by
  have longer : pairing.size + 1 = (text ++ [c]).length := by rw [knows.size, List.length_append, List.length_singleton]
  unfold LeftPairing.next
  split
  · next opening =>
    subst opening
    refine ⟨longer, ?_, ?_⟩
    · intro behind start
      rw [leftOpen_opening]
      cases behind with
      | zero => simp [knows.size, eq_comm]
      | succ behind => simp [knows.opened]
    · intro start
      rw [partner?_kept (by simp), knows.partners]
  · next other =>
    split
    · next closing =>
      subst closing
      cases opened : pairing.opened with
      | nil =>
        have closed (behind start : Nat) : ¬ LeftOpen text start behind := by
          rw [← knows.opened, opened]
          simp
        refine ⟨longer, ?_, ?_⟩
        · intro behind start
          simp [leftOpen_closing, closed]
        · intro start
          rw [partner?_kept fun _ => closed 0 start, knows.partners]
      | cons top rest =>
        refine ⟨longer, ?_, ?_⟩
        · intro behind start
          rw [leftOpen_closing, ← knows.opened, opened, List.getElem?_cons_succ]
        · intro start
          -- Of the open parentheses only the one on top has none open behind it, so it alone is closed here.
          have nearest : LeftOpen text start 0 ↔ start = top := by
            rw [← knows.opened, opened, List.getElem?_cons_zero, Option.some.injEq, eq_comm]
          rw [List.lookup_cons]
          by_cases here : start = top
          · rw [partner?_closing (nearest.mpr here), here, beq_self_eq_true, knows.size]
          · rw [partner?_kept fun _ found => here (nearest.mp found), beq_false_of_ne here, knows.partners]
    · next letter =>
      refine ⟨longer, ?_, ?_⟩
      · intro behind start
        rw [leftOpen_other other letter, knows.opened]
      · intro start
        rw [partner?_kept fun closing => absurd closing letter, knows.partners]

theorem knows_ofText (text : List Char) : (ofText text).Knows text := by
  induction text using List.reverseRecOn with
  | nil => exact ⟨rfl, by simp [ofText, LeftOpen], by simp [ofText, partner?, glyphs_nil]⟩
  | append_singleton text c ih =>
    rw [ofText, List.foldl_concat]
    exact ih.next c

end LeftPairing

/-- A parenthesis has the partner that counting forward from it finds, and has one if counting finds any. The pass from the
left comes to the same, and the text in front of the parenthesis only shifts it. -/
theorem partner?_by_counting (text : List Char) (start : Nat) :
    (∀ stop, partner? text start = some stop ↔ text[start]? = some '(' ∧ IsLeast (evenStops text start) stop) ∧
      (LeftPairing.ofText text).partners.lookup start = partner? text start ∧
      ∀ front, partner? (front ++ text) (front.length + start) = (partner? text start).map (front.length + ·) := by
  refine ⟨?_, ?_, ?_⟩
  · exact partner?_eq_some_iff_isLeast text start
  · exact (LeftPairing.knows_ofText text).partners start
  · intro front
    exact partner?_append front text start

end LoopCost
