import LoopCost.Growth.Rescaling
import Mathlib.Data.List.Basic
import Mathlib.Data.List.TakeWhile

/-! Evidence that a text rescales a name, place by place. A place keeps its evidence however the text goes on behind
it, and the search for assigned values piece by piece finds just the values that are assigned at places. -/

namespace LoopCost

open Lexeme

theorem Lexeme.skipBlanks_append {front : List Lexeme} (more : skipBlanks front ≠ []) (back : List Lexeme) :
    skipBlanks (front ++ back) = skipBlanks front ++ back := by
  rw [skipBlanks, List.dropWhile_append, if_neg (by simpa [skipBlanks] using more)]
  rfl

/-! A pattern that has matched goes on to match when more text follows. -/

theorem startsScaling_iff (lexemes : List Lexeme) :
    startsScaling lexemes = true ↔
      ∃ sign ∈ [['*', '='], ['/', '='], ['>', '>', '='], ['<', '<', '=']], sign.map mark <+: lexemes := by
  constructor
  · intro found
    revert found
    fun_cases startsScaling lexemes <;> simp
  · rintro ⟨sign, member, tail, rfl⟩
    simp only [List.mem_cons, List.not_mem_nil, or_false] at member
    rcases member with rfl | rfl | rfl | rfl <;> rfl

theorem startsScaling_append {front : List Lexeme} (found : startsScaling front = true) (back : List Lexeme) :
    startsScaling (front ++ back) = true := by
  rw [startsScaling_iff] at found ⊢
  obtain ⟨sign, member, leads⟩ := found
  exact ⟨sign, member, leads.trans (List.prefix_append front back)⟩

theorem startsFactor_append {front : List Lexeme} (found : startsFactor front = true) (back : List Lexeme) :
    startsFactor (front ++ back) = true := by
  revert found
  fun_cases startsFactor front <;> simp [startsFactor]

theorem nextIs_append {letters : List Char} {front : List Lexeme} (found : nextIs letters front = true) (back : List Lexeme) :
    nextIs letters (front ++ back) = true := by
  have more : skipBlanks front ≠ [] := by
    intro empty
    simp [nextIs, empty] at found
  rw [nextIs, skipBlanks_append more, List.head?_append_of_ne_nil _ more]
  exact found

theorem startsMidpoint_append {front : List Lexeme} (found : startsMidpoint front = true) (back : List Lexeme) :
    startsMidpoint (front ++ back) = true := by
  revert found
  fun_cases startsMidpoint front <;> simp [startsMidpoint] <;> exact fun found => nextIs_append found back

theorem selfScaled?_eq_some {place : List Lexeme} {name : Name} (found : selfScaled? place = some name) :
    ∃ value rest, assignment? place = some (name, value) ∧ skipBlanks value = .word name :: rest ∧
      startsFactor (skipBlanks rest) = true := by
  unfold selfScaled? at found
  split at found
  · next target value assigned =>
    split at found
    · next again rest read =>
      rw [Option.ite_none_right_eq_some, Bool.and_eq_true, decide_eq_true_eq] at found
      obtain ⟨⟨rfl, factor⟩, same⟩ := found
      cases same
      exact ⟨value, rest, assigned, read, factor⟩
    · cases found
  · cases found

theorem selfScaled?_of {place value rest : List Lexeme} {name : Name} (assigned : assignment? place = some (name, value))
    (read : skipBlanks value = .word name :: rest) (factor : startsFactor (skipBlanks rest) = true) :
    selfScaled? place = some name := by
  simp [selfScaled?, assigned, read, factor]

/-- The name, blanks and a single equals sign are what an assignment starts with. -/
theorem assignment?_eq_some {place value : List Lexeme} {name : Name} (found : assignment? place = some (name, value)) :
    ∃ rest, place = .word name :: rest ∧ startsName name = true ∧ skipBlanks rest = .mark '=' :: value ∧
      value.head? ≠ some (.mark '=') := by
  unfold assignment? at found
  split at found
  · next target rest =>
    rw [Option.ite_none_right_eq_some] at found
    obtain ⟨starts, found⟩ := found
    split at found
    · cases found
    · next other single read =>
      cases found
      refine ⟨rest, rfl, starts, read, ?_⟩
      intro again
      obtain ⟨tail, whole⟩ := List.head?_eq_some_iff.mp again
      exact single tail whole
    · cases found
  · cases found

theorem assignment?_of {rest value : List Lexeme} {name : Name} (starts : startsName name = true)
    (read : skipBlanks rest = .mark '=' :: value) (single : value.head? ≠ some (.mark '=')) :
    assignment? (.word name :: rest) = some (name, value) := by
  rw [assignment?, if_pos starts, read]
  split
  · next again => rw [List.cons.inj again |>.2] at single; exact absurd rfl single
  · next other same => rw [List.cons.inj same |>.2]
  · next no => exact absurd rfl (no value)

theorem assignment?_append {front value : List Lexeme} {name : Name} (found : assignment? front = some (name, value))
    (more : value ≠ []) (back : List Lexeme) : assignment? (front ++ back) = some (name, value ++ back) := by
  obtain ⟨rest, rfl, starts, read, single⟩ := assignment?_eq_some found
  have filled : skipBlanks rest ≠ [] := by simp [read]
  apply assignment?_of starts
  · rw [List.append_eq, skipBlanks_append filled, read, List.cons_append]
  · rwa [List.head?_append_of_ne_nil _ more]

theorem compoundScaled?_append {front : List Lexeme} {name : Name} (found : compoundScaled? front = some name)
    (back : List Lexeme) : compoundScaled? (front ++ back) = some name := by
  unfold compoundScaled? at found
  split at found
  · next target rest =>
    rw [Option.ite_none_right_eq_some, Bool.and_eq_true] at found
    obtain ⟨⟨starts, scaling⟩, same⟩ := found
    have more : skipBlanks rest ≠ [] := by
      intro empty
      simp [empty, startsScaling] at scaling
    rw [List.cons_append, compoundScaled?, skipBlanks_append more, startsScaling_append scaling, starts]
    exact same
  · cases found

theorem selfScaled?_append {front : List Lexeme} {name : Name} (found : selfScaled? front = some name)
    (back : List Lexeme) : selfScaled? (front ++ back) = some name := by
  obtain ⟨value, rest, assigned, read, factor⟩ := selfScaled?_eq_some found
  have filled : skipBlanks value ≠ [] := by simp [read]
  have more : skipBlanks rest ≠ [] := by
    intro empty
    simp [empty, startsFactor] at factor
  have value_ne : value ≠ [] := by
    rintro rfl
    exact filled rfl
  apply selfScaled?_of (assignment?_append assigned value_ne back)
  · rw [skipBlanks_append filled, read, List.cons_append]
  · rw [skipBlanks_append more]
    exact startsFactor_append factor back

theorem rescalesOneOf_append {names : List Name} {front : List Lexeme} (found : rescalesOneOf names front = true)
    (back : List Lexeme) : rescalesOneOf names (front ++ back) = true := by
  rw [rescalesOneOf, Bool.or_eq_true, Option.any_eq_true, Option.any_eq_true] at found ⊢
  obtain ⟨name, scaled, listed⟩ | ⟨name, scaled, listed⟩ := found
  · exact .inl ⟨name, compoundScaled?_append scaled back, listed⟩
  · exact .inr ⟨name, selfScaled?_append scaled back, listed⟩

theorem mentionsTwoOf_iff (names : List Name) (value : List Lexeme) :
    mentionsTwoOf names value = true ↔ ∃ first second,
      (∀ name ∈ [first, second], name ∈ (value.filterMap Lexeme.name?).filter names.contains) ∧ first ≠ second := by
  simp only [List.mem_cons, List.not_mem_nil, or_false, forall_eq_or_imp, forall_eq]
  unfold mentionsTwoOf
  split
  · next empty =>
    rw [empty]
    simp
  · next head others whole =>
    rw [whole, List.any_eq_true]
    constructor
    · intro ⟨second, member, other⟩
      exact ⟨head, second, ⟨List.mem_cons_self, List.mem_cons_of_mem _ member⟩, (bne_iff_ne.mp other).symm⟩
    · intro ⟨first, second, ⟨left, right⟩, differ⟩
      by_cases same : first = head
      · subst same
        exact ⟨second, (List.mem_cons.mp right).resolve_left differ.symm, bne_iff_ne.mpr differ.symm⟩
      · exact ⟨first, (List.mem_cons.mp left).resolve_left same, bne_iff_ne.mpr same⟩

theorem halvesBetween_infix {names : List Name} {value longer : List Lexeme} (inside : value <:+: longer)
    (found : halvesBetween names value = true) : halvesBetween names longer = true := by
  rw [halvesBetween, Bool.and_eq_true, somewhere_iff, mentionsTwoOf_iff] at found ⊢
  obtain ⟨⟨place, ⟨front, rfl⟩, halves⟩, first, second, mentioned, differ⟩ := found
  refine ⟨?_, first, second, ?_, differ⟩
  · obtain ⟨before, behind, rfl⟩ := inside
    exact ⟨place ++ behind, ⟨before ++ front, by simp⟩, startsMidpoint_append halves behind⟩
  · intro name member
    exact ((inside.filterMap Lexeme.name?).filter names.contains).subset (mentioned name member)

theorem halvesBetween_nil (names : List Name) : halvesBetween names [] = false := by
  simp [halvesBetween, somewhere, startsMidpoint]

/-- Something at the head of the text rescales one of the names. The value that is assigned there ends with the statement. -/
def Evidence (names : List Name) (place : List Lexeme) : Prop :=
  rescalesOneOf names place = true ∨
    ∃ name value, assignment? place = some (name, value) ∧ halvesBetween names (value.takeWhile (!endsValue ·)) = true

theorem Evidence.append {names : List Name} {front : List Lexeme} (evidence : Evidence names front) (back : List Lexeme) :
    Evidence names (front ++ back) := by
  obtain scaled | ⟨name, value, assigned, halves⟩ := evidence
  · exact .inl (rescalesOneOf_append scaled back)
  · have more : value ≠ [] := by
      rintro rfl
      simp [halvesBetween_nil] at halves
    refine .inr ⟨name, value ++ back, assignment?_append assigned more back, halvesBetween_infix ?_ halves⟩
    rw [List.takeWhile_append]
    split
    · next whole =>
      rw [(List.takeWhile_prefix _).eq_of_length whole]
      exact (List.prefix_append _ _).isInfix
    · exact List.infix_rfl

/-! The search piece by piece finds just the evidence at places. -/

theorem valuePieces_cons (lexeme : Lexeme) (rest : List Lexeme) :
    ∃ piece later, valuePieces rest = piece :: later ∧ piece = rest.takeWhile (!endsValue ·) ∧
      valuePieces (lexeme :: rest) = if endsValue lexeme then [] :: piece :: later else (lexeme :: piece) :: later := by
  induction rest generalizing lexeme with
  | nil => exact ⟨[], [], rfl, rfl, rfl⟩
  | cons first rest ih =>
    obtain ⟨piece, later, whole, leads, split⟩ := ih first
    by_cases ends : endsValue first = true
    · rw [if_pos ends] at split
      refine ⟨[], piece :: later, split, by simp [ends], ?_⟩
      rw [valuePieces, List.foldr_cons, ← valuePieces, split]
    · rw [if_neg ends] at split
      refine ⟨first :: piece, later, split, by simp [ends, leads], ?_⟩
      rw [valuePieces, List.foldr_cons, ← valuePieces, split]

/-- A piece goes on up to a mark that ends values or to the end of the text. -/
theorem mem_valuePieces {lexemes piece : List Lexeme} (member : piece ∈ valuePieces lexemes) :
    ∃ front, front <:+ lexemes ∧ piece = front.takeWhile (!endsValue ·) := by
  induction lexemes with
  | nil =>
    obtain rfl := List.mem_singleton.mp member
    exact ⟨[], List.suffix_refl _, rfl⟩
  | cons lexeme rest ih =>
    obtain ⟨first, later, whole, leads, split⟩ := valuePieces_cons lexeme rest
    rw [whole] at ih
    rw [split] at member
    by_cases ends : endsValue lexeme = true
    · rw [if_pos ends] at member
      rcases List.mem_cons.mp member with rfl | member
      · exact ⟨lexeme :: rest, List.suffix_refl _, by simp [ends]⟩
      · obtain ⟨front, within, same⟩ := ih member
        exact ⟨front, within.trans (List.suffix_cons _ _), same⟩
    · rw [if_neg ends] at member
      rcases List.mem_cons.mp member with rfl | member
      · exact ⟨lexeme :: rest, List.suffix_refl _, by simp [ends, leads]⟩
      · obtain ⟨front, within, same⟩ := ih (List.mem_cons_of_mem _ member)
        exact ⟨front, within.trans (List.suffix_cons _ _), same⟩

theorem firstValue?_eq_some {lexemes value : List Lexeme} (found : firstValue? lexemes = some value) :
    ∃ place name, place <:+ lexemes ∧ assignment? place = some (name, value) := by
  fun_induction firstValue? lexemes with
  | case1 => cases found
  | case2 lexeme rest name assigned same =>
    cases found
    exact ⟨lexeme :: rest, name, List.suffix_refl _, same⟩
  | case3 lexeme rest none ih =>
    obtain ⟨place, name, within, assigned⟩ := ih found
    exact ⟨place, name, within.trans (List.suffix_cons _ _), assigned⟩

theorem firstValue?_skipBlanks (lexemes : List Lexeme) : firstValue? (skipBlanks lexemes) = firstValue? lexemes := by
  induction lexemes with
  | nil => rfl
  | cons lexeme rest ih =>
    cases lexeme with
    | word letters => rfl
    | mark c =>
      by_cases blank : Unicode.isBlank c = true
      · have skipped : skipBlanks (.mark c :: rest) = skipBlanks rest := by simp [skipBlanks, isBlank, blank]
        rw [skipped, ih]
        rfl
      · have stays : skipBlanks (.mark c :: rest) = .mark c :: rest := by simp [skipBlanks, isBlank, blank]
        rw [stays]

theorem assignment?_suffix {place value : List Lexeme} {name : Name} (found : assignment? place = some (name, value)) :
    value <:+ place := by
  obtain ⟨rest, rfl, -, read, -⟩ := assignment?_eq_some found
  have skipped : skipBlanks rest <:+ rest := List.dropWhile_suffix _
  exact ((List.suffix_cons _ _).trans (read ▸ skipped)).trans (List.suffix_cons _ _)

/-- The value of a later assignment is part of the value of an earlier one. -/
theorem firstValue?_suffix {lexeme : Lexeme} {rest value later : List Lexeme} {name : Name}
    (assigned : assignment? (lexeme :: rest) = some (name, value)) (found : firstValue? rest = some later) :
    later <:+ value := by
  obtain ⟨tail, whole, -, read, -⟩ := assignment?_eq_some assigned
  obtain ⟨rfl, rfl⟩ := List.cons.inj whole
  rw [← firstValue?_skipBlanks, read] at found
  obtain ⟨place, name, within, assigned⟩ := firstValue?_eq_some (show firstValue? value = some later from found)
  exact (assignment?_suffix assigned).trans within

theorem endsValue_of_isBlank {lexeme : Lexeme} (blank : lexeme.isBlank = true) : endsValue lexeme = false := by
  cases lexeme with
  | word letters => rfl
  | mark c =>
    have other : ∀ stop ∈ [';', '{', '}'], c ≠ stop := by
      rintro stop member rfl
      simp only [List.mem_cons, List.not_mem_nil, or_false] at member
      rcases member with rfl | rfl | rfl <;> exact absurd blank (by decide)
    simp [endsValue, other]

theorem skipBlanks_takeWhile (lexemes : List Lexeme) :
    skipBlanks (lexemes.takeWhile (!endsValue ·)) = (skipBlanks lexemes).takeWhile (!endsValue ·) := by
  induction lexemes with
  | nil => rfl
  | cons lexeme rest ih =>
    by_cases blank : lexeme.isBlank = true
    · have inside := endsValue_of_isBlank blank
      simpa [skipBlanks, blank, inside] using ih
    · by_cases ends : endsValue lexeme = true <;> simp [skipBlanks, blank, ends]

theorem assignment?_takeWhile {place value : List Lexeme} {name : Name} (found : assignment? place = some (name, value)) :
    assignment? (place.takeWhile (!endsValue ·)) = some (name, value.takeWhile (!endsValue ·)) := by
  obtain ⟨rest, rfl, starts, read, single⟩ := assignment?_eq_some found
  apply assignment?_of starts
  · rw [skipBlanks_takeWhile, read]
    rfl
  · cases value with
    | nil => simp
    | cons lexeme value =>
      rw [List.takeWhile_cons]
      split
      · exact single
      · simp

theorem closesIn_cons {names : List Name} {rest : List Lexeme} (found : closesIn names rest = true) (lexeme : Lexeme) :
    closesIn names (lexeme :: rest) = true := by
  obtain ⟨first, later, whole, -, split⟩ := valuePieces_cons lexeme rest
  rw [closesIn, whole] at found
  rw [closesIn, split]
  by_cases ends : endsValue lexeme = true
  · rw [if_pos ends, List.any_cons, found, Bool.or_true]
  · rw [if_neg ends, List.any_cons, Bool.or_eq_true]
    rw [List.any_cons, Bool.or_eq_true] at found
    refine found.imp_left ?_
    intro found
    obtain ⟨value, read, halves⟩ := (Option.any_eq_true _ _).mp found
    rw [firstValue?]
    split
    · next assigned => exact halvesBetween_infix (firstValue?_suffix assigned read).isInfix halves
    · rw [read]
      exact halves

theorem closesIn_iff (names : List Name) (lexemes : List Lexeme) :
    closesIn names lexemes = true ↔ ∃ place name value, place <:+ lexemes ∧ assignment? place = some (name, value) ∧
      halvesBetween names (value.takeWhile (!endsValue ·)) = true := by
  constructor
  · intro found
    obtain ⟨piece, member, found⟩ := List.any_eq_true.mp found
    obtain ⟨value, read, halves⟩ := (Option.any_eq_true _ _).mp found
    obtain ⟨front, within, rfl⟩ := mem_valuePieces member
    obtain ⟨place, name, suffix, assigned⟩ := firstValue?_eq_some read
    have more : value ≠ [] := by
      rintro rfl
      simp [halvesBetween_nil] at halves
    have inside : ∀ lexeme ∈ value, (!endsValue lexeme) = true := by
      intro lexeme member
      have listed := suffix.subset ((assignment?_suffix assigned).subset member)
      exact List.all_eq_true.mp List.all_takeWhile lexeme listed
    obtain ⟨before, whole⟩ := suffix
    refine ⟨_, name, _, List.IsSuffix.trans ⟨before, ?_⟩ within,
      assignment?_append assigned more (front.dropWhile (!endsValue ·)), ?_⟩
    · rw [← List.append_assoc, whole, List.takeWhile_append_dropWhile]
    · rw [List.takeWhile_append_of_pos inside]
      exact halvesBetween_infix (List.prefix_append _ _).isInfix halves
  · intro ⟨place, name, value, within, assigned, halves⟩
    induction lexemes with
    | nil =>
      rw [List.suffix_nil.mp within] at assigned
      cases assigned
    | cons lexeme rest ih =>
      rcases List.suffix_cons_iff.mp within with rfl | later
      · obtain ⟨first, pieces, -, leads, split⟩ := valuePieces_cons lexeme rest
        obtain ⟨tail, whole, -⟩ := assignment?_eq_some assigned
        obtain ⟨rfl, rfl⟩ := List.cons.inj whole
        have cut := assignment?_takeWhile assigned
        rw [closesIn, split, if_neg (by simp [endsValue]), List.any_cons, leads, firstValue?]
        rw [show (Lexeme.word name :: rest).takeWhile (!endsValue ·) = .word name :: rest.takeWhile (!endsValue ·) from rfl] at cut
        rw [cut, Bool.or_eq_true]
        exact .inl halves
      · -- An assignment in front hides the place from the search, but its value contains that of the place.
        exact closesIn_cons (ih later) lexeme

/-- A text rescales a name just where it has evidence for it. -/
theorem rescales_iff (code : List Char) (names : List Name) :
    rescales code names = true ↔ ∃ place, place <:+ Lexeme.ofText code ∧ Evidence names place := by
  rw [rescales, Bool.or_eq_true, somewhere_iff, closesIn_iff]
  constructor
  · rintro (⟨place, within, scaled⟩ | ⟨place, name, value, within, assigned, halves⟩)
    · exact ⟨place, within, .inl scaled⟩
    · exact ⟨place, within, .inr ⟨name, value, assigned, halves⟩⟩
  · rintro ⟨place, within, scaled | ⟨name, value, assigned, halves⟩⟩
    · exact .inl ⟨place, within, scaled⟩
    · exact .inr ⟨place, name, value, within, assigned, halves⟩

end LoopCost
