import LoopCost.Growth.Header
import Mathlib.Data.List.Infix

/-! The parts of a header are its only split at the semicolons outside all brackets: put together with semicolons they
give the header back, none of them splits further, and no bracket is open where one of them ends and the next begins. -/

namespace LoopCost

/-- How many brackets of any kind are open behind a text. A closing bracket with nothing to close is passed over. -/
def bracketsOpen (level : Nat) : List Char → Nat
  | [] => level
  | c :: rest =>
    if c ∈ ['(', '[', '{'] then bracketsOpen (level + 1) rest
    else if c ∈ [')', ']', '}'] then bracketsOpen (level - 1) rest
    else bracketsOpen level rest

theorem bracketsOpen_cons (level : Nat) (c : Char) (rest : List Char) :
    bracketsOpen level (c :: rest) = bracketsOpen (bracketDepth level c) rest := by
  simp only [bracketsOpen, bracketDepth, List.mem_cons, List.not_mem_nil, or_false]
  split
  · rfl
  · split <;> rfl

def Undivided (level : Nat) (part : List Char) : Prop :=
  ∀ front, front ++ [';'] <+: part → bracketsOpen level front ≠ 0

theorem undivided_nil (level : Nat) : Undivided level [] := by
  intro front within
  simp at within

theorem undivided_cons (level : Nat) (c : Char) (rest : List Char) :
    Undivided level (c :: rest) ↔ ¬ (c = ';' ∧ level = 0) ∧ Undivided (bracketDepth level c) rest := by
  constructor
  · intro undivided
    refine ⟨?_, ?_⟩
    · rintro ⟨rfl, rfl⟩
      exact undivided [] (List.prefix_append [';'] rest) rfl
    · intro front within
      rw [← bracketsOpen_cons]
      exact undivided (c :: front) (List.cons_prefix_cons.mpr ⟨rfl, within⟩)
  · rintro ⟨inside, undivided⟩ front within
    cases front with
    | nil =>
      intro outside
      exact inside ⟨(List.cons_prefix_cons.mp within).1.symm, outside⟩
    | cons d front =>
      obtain ⟨rfl, later⟩ := List.cons_prefix_cons.mp within
      rw [bracketsOpen_cons]
      exact undivided front later

theorem headerPartsFrom_append {level : Nat} {part : List Char} (undivided : Undivided level part) (rest : List Char) :
    headerPartsFrom [] level [] (part ++ rest) =
      (headerPartsFrom [] (bracketsOpen level part) [] rest).modifyHead (part ++ ·) := by
  induction part generalizing level with
  | nil => cases read : headerPartsFrom [] (bracketsOpen level []) [] rest <;> simp_all [bracketsOpen]
  | cons c part ih =>
    obtain ⟨inside, later⟩ := (undivided_cons ..).mp undivided
    rw [List.cons_append, headerPartsFrom_cons, if_neg inside, ih later, bracketsOpen_cons, List.modifyHead_modifyHead]
    rfl

theorem headerParts_of_undivided {part : List Char} (undivided : Undivided 0 part) : headerParts part = [part] := by
  have read := headerPartsFrom_append undivided []
  rw [List.append_nil] at read
  rw [headerParts, read, headerPartsFrom]
  simp

theorem headerParts_semicolon {part : List Char} (undivided : Undivided 0 part) (closed : bracketsOpen 0 part = 0)
    (rest : List Char) : headerParts (part ++ ';' :: rest) = part :: headerParts rest := by
  rw [headerParts, headerPartsFrom_append undivided, closed, headerPartsFrom_cons, if_pos ⟨rfl, rfl⟩]
  simp [headerParts]

/-- What stands in front of the first semicolon outside all brackets is undivided. -/
theorem undivided_or_semicolon (level : Nat) (text : List Char) :
    Undivided level text ∨ ∃ part rest, text = part ++ ';' :: rest ∧ Undivided level part ∧ bracketsOpen level part = 0 := by
  induction text generalizing level with
  | nil => exact .inl (undivided_nil level)
  | cons c text ih =>
    by_cases divides : c = ';' ∧ level = 0
    · obtain ⟨rfl, rfl⟩ := divides
      exact .inr ⟨[], text, rfl, undivided_nil 0, rfl⟩
    · rcases ih (bracketDepth level c) with undivided | ⟨part, rest, rfl, undivided, closed⟩
      · exact .inl ((undivided_cons ..).mpr ⟨divides, undivided⟩)
      · exact .inr ⟨c :: part, rest, rfl, (undivided_cons ..).mpr ⟨divides, undivided⟩, by rw [bracketsOpen_cons, closed]⟩

theorem headerParts_eq_singleton_iff (part : List Char) : headerParts part = [part] ↔ Undivided 0 part := by
  constructor
  · intro whole
    rcases undivided_or_semicolon 0 part with undivided | ⟨first, rest, rfl, undivided, closed⟩
    · exact undivided
    · -- The first part is then the whole header, semicolon included, although it ends in front of it.
      rw [headerParts_semicolon undivided closed] at whole
      have short := congrArg List.length (List.cons.inj whole).1
      simp at short
  · exact headerParts_of_undivided

/-- Parts that together make up a header, none of which splits further, with all brackets closed in each but the last. -/
structure LevelSplit (header : List Char) (parts : List (List Char)) : Prop where
  nonempty : parts ≠ []
  lossless : List.intercalate [';'] parts = header
  whole : ∀ part ∈ parts, headerParts part = [part]
  closed : ∀ part ∈ parts.dropLast, bracketsOpen 0 part = 0

theorem levelSplit_headerParts (header : List Char) : LevelSplit header (headerParts header) := by
  rcases undivided_or_semicolon 0 header with undivided | ⟨part, rest, same, undivided, closed⟩
  · have whole := headerParts_of_undivided undivided
    rw [whole]
    exact ⟨by simp, by simp, by simpa using whole, by simp⟩
  · have shorter : rest.length < header.length := by
      rw [same, List.length_append, List.length_cons]
      omega
    have later := levelSplit_headerParts rest
    rw [same, headerParts_semicolon undivided closed]
    refine ⟨by simp, ?_, ?_, ?_⟩
    · rw [List.intercalate_cons_of_ne_nil later.nonempty, later.lossless, List.append_assoc]
      rfl
    · rintro other (_ | ⟨_, member⟩)
      · exact headerParts_of_undivided undivided
      · exact later.whole other member
    · rw [List.dropLast_cons_of_ne_nil later.nonempty]
      rintro other (_ | ⟨_, member⟩)
      · exact closed
      · exact later.closed other member
termination_by header.length

theorem LevelSplit.headerParts_eq {header : List Char} {parts : List (List Char)} (split : LevelSplit header parts) :
    headerParts header = parts := by
  obtain ⟨nonempty, rfl, whole, closed⟩ := split
  induction parts with
  | nil => exact absurd rfl nonempty
  | cons part others ih =>
    cases others with
    | nil => simpa using whole part
    | cons second others =>
      have undivided := (headerParts_eq_singleton_iff part).mp (whole part (.head _))
      have later := ih (by simp) (fun other member => whole other (.tail _ member)) fun other member => closed other (.tail _ member)
      rw [List.intercalate_cons_of_ne_nil (by simp), List.append_assoc, List.singleton_append]
      rw [headerParts_semicolon undivided (closed part (.head _)), later]

/-- A header has one such split, and its parts are it. -/
theorem headerParts_eq_iff (header : List Char) (parts : List (List Char)) :
    headerParts header = parts ↔ LevelSplit header parts := by
  constructor
  · rintro rfl
    exact levelSplit_headerParts header
  · intro split
    exact split.headerParts_eq

end LoopCost
