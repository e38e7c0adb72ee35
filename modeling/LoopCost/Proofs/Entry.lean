import LoopCost.Proofs.Steps
import Mathlib.Data.List.Basic

/-! Each open construct was entered at some earlier step, and since then the scan has stayed inside of it. A `while`
loop was entered right behind the parenthesis that closes its header. -/

namespace LoopCost

open Relation

theorem Keyword.spelling_of_ofWord? {word : List Char} {keyword : Keyword} (found : ofWord? word = some keyword) :
    word = keyword.spelling.toList := by
  have same := List.find?_some (found : List.find? (fun keyword : Keyword => keyword.spelling.toList == word) _ = _)
  exact (beq_iff_eq.mp same).symm

namespace Place

theorem not_while_beginSimple (place : Place) (condition : List Char) :
    place.beginSimple.opens ≠ some (.whileLoop condition) := by
  rcases (@plainly_beginSimple [] place).opens with none | block
  · simp [none]
  · simp [block]

theorem not_while_beginHeaded (place : Place) {construct : List Char → Construct} (note : Option Note)
    {condition : List Char} (other : ∀ header, construct header ≠ .whileLoop condition) :
    (place.beginHeaded construct note).opens ≠ some (.whileLoop condition) := by
  unfold beginHeaded
  split
  · simp [other]
  · exact place.not_while_beginSimple condition

/-- Only a header behind the word opens a `while` loop. -/
theorem beginWord_while {place : Place} {condition : List Char} (paired : place.Paired)
    (opens : place.beginWord.opens = some (.whileLoop condition)) :
    ∃ blanks, (∀ c ∈ blanks, Unicode.isBlank c = true) ∧
      plain place = "while".toList ++ (blanks ++ '(' :: (condition ++ ')' :: plain place.beginWord.place)) := by
  unfold beginWord at opens ⊢
  dsimp only at opens ⊢
  split at opens
  · exact absurd opens (not_while_beginHeaded _ _ (by simp))
  · next word =>
    unfold beginHeaded at opens ⊢
    split at opens
    · next header body found =>
      cases opens
      have whole : place.takeWhile (isWordChar ·.char) ++ place.readWord.2 = place := List.takeWhile_append_dropWhile
      obtain ⟨front, close, closes, behind, blanks, blank, same⟩ :=
        readHeader?_eq_some (place.leads_readWord.paired paired) found
      refine ⟨blanks, blank, ?_⟩
      have spelled : plain (place.takeWhile (isWordChar ·.char)) = "while".toList := Keyword.spelling_of_ofWord? word
      rw [← whole, plain_append, spelled, behind, plain_append, same, plain_cons, closes, List.append_assoc]
      rfl
    · exact absurd opens (not_while_beginSimple _ _)
  · exact absurd opens (not_while_beginHeaded _ _ (by simp))
  · exact absurd opens (not_while_beginHeaded _ _ (by simp))
  · cases opens
  · cases opens
  all_goals
    split at opens
    · cases opens
    · exact absurd opens (not_while_beginSimple _ _)

theorem begin_while {place : Place} {condition : List Char} (paired : place.Paired)
    (opens : place.begin.opens = some (.whileLoop condition)) :
    ∃ front blanks, (∀ c ∈ blanks, Unicode.isBlank c = true) ∧
      plain place = front ++ ("while".toList ++ (blanks ++ '(' :: (condition ++ ')' :: plain place.begin.place))) := by
  unfold begin at opens ⊢
  split at opens
  · cases opens
  · next first rest here =>
    split at opens
    · cases opens
    split at opens
    · cases opens
    split at opens
    · cases opens
    split at opens
    · cases opens
    split at opens
    · next closing opening semicolon hash letter =>
      have leads := place.leads_skipBlanks
      rw [here] at leads
      obtain ⟨blanks, blank, whole⟩ := beginWord_while (leads.paired paired) opens
      obtain ⟨read, same, -⟩ := leads
      refine ⟨plain read, blanks, blank, ?_⟩
      simp only [closing, opening, semicolon, hash, letter, if_true, if_false]
      rw [← whole, ← plain_append, ← same]
    · exact absurd opens (not_while_beginSimple _ _)

end Place

namespace State

/-- The scan gets from one state to the other and does not leave the construct that is the innermost one at first. -/
def Within (entry : State) : State → Prop :=
  ReflTransGen (fun state next => state.Goes next ∧ entry.around.length ≤ next.around.length) entry

theorem Within.reaches {entry state : State} (within : entry.Within state) : entry.Reaches state := by
  induction within with
  | refl => exact .refl
  | tail _ goes ih => exact ih.tail goes.1

theorem Within.deep {entry state : State} (within : entry.Within state) :
    entry.around.length ≤ state.around.length := by
  cases within with
  | refl => exact Nat.le_refl _
  | tail _ goes => exact goes.2

structure Entered (text : List Char) (entry : State) (construct : Construct) : Prop where
  reached : (State.initial text).Reaches entry
  frame_eq : ∃ watch, entry.frame = .enter construct watch
  behind : ∀ condition, construct = .whileLoop condition →
    ∃ front blanks, (∀ c ∈ blanks, Unicode.isBlank c = true) ∧
      text = front ++ ("while".toList ++ (blanks ++ '(' :: (condition ++ ')' :: plain entry.place)))

theorem initial_leads {text : List Char} {state : State} (reached : (initial text).Reaches state) :
    Place.Leads (glyphs text) state.place := reached.leads (paired_glyphs text)

theorem paired_of_reaches {text : List Char} {state : State} (reached : (initial text).Reaches state) :
    state.place.Paired := (initial_leads reached).paired (paired_glyphs text)

/-- The construct was entered with the given ones around it, and the scan has not left it since. -/
def Opened (text : List Char) (state : State) (frame : Frame) (around : List Frame) : Prop :=
  ∃ entry construct, Entered text entry construct ∧ entry.Within state ∧ entry.around = around ∧
    (frame.construct = construct ∨ construct = .conditional ∧ frame.construct = .branch)

theorem Opened.next {text : List Char} {state next : State} {frame inner : Frame} {around : List Frame}
    (opened : Opened text state frame around) (goes : state.Goes next) (deep : around.length ≤ next.around.length)
    (turns : inner.construct = frame.construct ∨ frame.construct = .conditional ∧ inner.construct = .branch) :
    Opened text next inner around := by
  obtain ⟨entry, construct, entered, within, rfl, same⟩ := opened
  refine ⟨entry, construct, entered, within.tail ⟨goes, deep⟩, rfl, ?_⟩
  rcases turns with turns | ⟨conditional, turns⟩
  · rwa [turns]
  · rcases same with same | ⟨-, branch⟩
    · exact .inr ⟨same ▸ conditional, turns⟩
    · rw [conditional] at branch
      cases branch

theorem opened_of_reaches {text : List Char} {state : State} (reached : (initial text).Reaches state) :
    ∀ frame around, frame :: around <:+ state.frame :: state.around → Opened text state frame around := by
  induction reached with
  | refl =>
    intro frame around suffix
    obtain ⟨rfl, rfl⟩ : frame = .enter .program none ∧ around = [] := by
      rcases List.suffix_cons_iff.mp suffix with same | nothing
      · exact List.cons.inj same
      · exact absurd (List.suffix_nil.mp nothing) (by simp)
    exact ⟨initial text, .program, ⟨.refl, ⟨none, rfl⟩, by simp⟩, .refl, rfl, .inl rfl⟩
  | @tail state next reached goes ih =>
    intro frame around suffix
    have deep : around.length ≤ next.around.length := Nat.le_of_succ_le_succ suffix.length_le
    have deeper (opened : Opened text state frame around) : Opened text next frame around :=
      opened.next goes deep (.inl rfl)
    -- Only the innermost construct can have changed. If it is new, this step has entered it.
    cases goes.step with
    | @stays turned start starts opens place_eq frame_eq around_eq =>
      rw [frame_eq, around_eq] at suffix
      rcases List.suffix_cons_iff.mp suffix with same | outer
      · obtain ⟨rfl, rfl⟩ := List.cons.inj same
        have turns := (Frame.resume_start starts).1.construct
        rw [← turned.observe_construct start.begin.simple] at turns
        exact (ih state.frame state.around (List.suffix_refl _)).next goes deep turns
      · exact deeper (ih frame around (outer.trans (List.suffix_cons _ _)))
    | @enters turned start construct starts opens place_eq frame_eq around_eq =>
      rw [frame_eq, around_eq] at suffix
      rcases List.suffix_cons_iff.mp suffix with same | outer
      · obtain ⟨rfl, rfl⟩ := List.cons.inj same
        refine ⟨next, construct, ⟨reached.tail goes, ⟨_, frame_eq⟩, ?_⟩, .refl, around_eq, .inl rfl⟩
        rintro condition rfl
        have leads := (initial_leads reached).trans (Frame.resume_start starts).2
        obtain ⟨front, blanks, blank, whole⟩ := Place.begin_while (leads.paired (paired_glyphs text)) opens
        obtain ⟨read, same, -⟩ := leads
        refine ⟨plain read ++ front, blanks, blank, ?_⟩
        rw [place_eq, List.append_assoc, ← whole, ← plain_append, ← same, plain_glyphs]
      rcases List.suffix_cons_iff.mp outer with same | outer
      · obtain ⟨rfl, rfl⟩ := List.cons.inj same
        have turns := (Frame.resume_start starts).1.construct
        rw [← turned.observe_construct start.begin.simple] at turns
        exact (ih state.frame state.around (List.suffix_refl _)).next goes deep turns
      · exact deeper (ih frame around (outer.trans (List.suffix_cons _ _)))
    | @leaves outer ends enclosed frame_eq =>
      rw [enclosed] at ih
      rw [frame_eq] at suffix
      rcases List.suffix_cons_iff.mp suffix with same | outer'
      · obtain ⟨rfl, rfl⟩ := List.cons.inj same
        exact (ih outer next.around (List.suffix_cons _ _)).next goes deep (.inl (Frame.absorbFrame_construct _ _))
      · exact deeper (ih frame around ((outer'.trans (List.suffix_cons _ _)).trans (List.suffix_cons _ _)))

end State

end LoopCost
