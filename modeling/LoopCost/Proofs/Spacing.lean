import LoopCost.Proofs.Mirror
import LoopCost.Proofs.Spread

/-! How many blanks stand in a row does not matter to a loop: its header has the same parts, a statement is evidence
for the same names, and both make the same growth. -/

namespace LoopCost

open Lexeme

theorem isWordChar_space : isWordChar ' ' = false := isWordChar_of_isBlank (by decide)

namespace Lexeme

theorem spread_cons {lexemes other : List Lexeme} (spread : Spread (mark ' ') lexemes other) (c : Char) :
    Spread (mark ' ') (cons c lexemes) (cons c other) := by
  by_cases letter : isWordChar c = true
  · cases lexemes with
    | nil =>
      rw [spread.nil_left]
      exact .refl _
    | cons lexeme rest =>
      cases lexeme with
      | word letters =>
        obtain ⟨rest', rfl, tails⟩ := spread.cons_left (by simp)
        simp only [cons, letter, if_true]
        exact tails.keep _
      | mark d =>
        obtain ⟨rest', rfl⟩ := List.head?_eq_some_iff.mp spread.head?_eq.symm
        simp only [cons, letter, if_true]
        exact spread.keep _
  · simp only [cons, letter]
    exact spread.keep _

theorem spread_ofText {text other : List Char} (spread : Spread ' ' text other) :
    Spread (mark ' ') (ofText text) (ofText other) := by
  induction spread with
  | nil => exact .nil
  | keep c _ ih => exact spread_cons ih c
  | more _ ih =>
    rw [ofText_cons_mark isWordChar_space] at ih
    rw [ofText_cons_mark isWordChar_space, ofText_cons_mark isWordChar_space]
    exact ih.more

end Lexeme

namespace Respaced

variable {lexemes other : List Lexeme} (alike : Respaced (mark ' ') lexemes other)
include alike

theorem skipBlanks : Respaced (mark ' ') (skipBlanks lexemes) (skipBlanks other) := alike.dropWhile isBlank

theorem somewhere {pattern : List Lexeme → Bool}
    (transfers : ∀ {place place'}, Respaced (mark ' ') place place' → pattern place = true → pattern place' = true)
    (found : somewhere pattern lexemes = true) : somewhere pattern other = true := by
  rw [somewhere_iff] at found ⊢
  obtain ⟨place, within, holds⟩ := found
  obtain ⟨place', within', alike'⟩ := alike.exists_suffix within
  exact ⟨place', within', transfers alike' holds⟩

/-- A sign is found wherever it was. -/
theorem prefix_of_sign {sign : List Char} (solid : ' ' ∉ sign) (leads : sign.map mark <+: lexemes) :
    sign.map mark <+: other := by
  apply alike.prefix_of_prefix _ leads
  simpa using solid

theorem startsScaling (found : startsScaling lexemes = true) : startsScaling other = true := by
  rw [startsScaling_iff] at found ⊢
  obtain ⟨sign, member, leads⟩ := found
  refine ⟨sign, member, alike.prefix_of_sign ?_ leads⟩
  simp only [List.mem_cons, List.not_mem_nil, or_false] at member
  rcases member with rfl | rfl | rfl | rfl <;> decide

theorem startsFactor (found : startsFactor lexemes = true) : startsFactor other = true := by
  have same := alike.head?_eq
  revert found
  fun_cases LoopCost.startsFactor lexemes with
  | case1 rest | case2 rest =>
    obtain ⟨rest', rfl⟩ := List.head?_eq_some_iff.mp same.symm
    exact id
  | case3 => simp

theorem compoundScaled? {name : Name} (found : compoundScaled? lexemes = some name) : compoundScaled? other = some name := by
  revert found
  fun_cases LoopCost.compoundScaled? lexemes with
  | case1 target rest scales =>
    obtain ⟨rest', rfl, tails⟩ := alike.cons (by simp)
    rw [Bool.and_eq_true] at scales
    rw [LoopCost.compoundScaled?, scales.1, tails.skipBlanks.startsScaling scales.2]
    exact id
  | case2 | case3 => simp

theorem assignment? {name : Name} {value : List Lexeme} (found : assignment? lexemes = some (name, value)) :
    ∃ value', assignment? other = some (name, value') ∧ Respaced (mark ' ') value value' := by
  obtain ⟨rest, rfl, starts, read, single⟩ := assignment?_eq_some found
  obtain ⟨rest', rfl, tails⟩ := alike.cons (by simp)
  have skipped := tails.skipBlanks
  rw [read] at skipped
  obtain ⟨value', read', values⟩ := skipped.cons (by simp)
  rw [values.head?_eq] at single
  exact ⟨value', assignment?_of starts read' single, values⟩

theorem selfScaled? {name : Name} (found : selfScaled? lexemes = some name) : selfScaled? other = some name := by
  obtain ⟨value, rest, assigned, read, factor⟩ := selfScaled?_eq_some found
  obtain ⟨value', assigned', values⟩ := alike.assignment? assigned
  have skipped := values.skipBlanks
  rw [read] at skipped
  obtain ⟨rest', read', tails⟩ := skipped.cons (by simp)
  exact selfScaled?_of assigned' read' (tails.skipBlanks.startsFactor factor)

theorem rescalesOneOf {names : List Name} (found : rescalesOneOf names lexemes = true) :
    rescalesOneOf names other = true := by
  rw [LoopCost.rescalesOneOf, Bool.or_eq_true, Option.any_eq_true, Option.any_eq_true] at found ⊢
  obtain ⟨name, scaled, listed⟩ | ⟨name, scaled, listed⟩ := found
  · exact .inl ⟨name, alike.compoundScaled? scaled, listed⟩
  · exact .inr ⟨name, alike.selfScaled? scaled, listed⟩

theorem nextIs {letters : List Char} (found : nextIs letters lexemes = true) : nextIs letters other = true := by
  rwa [LoopCost.nextIs, ← alike.skipBlanks.head?_eq]

theorem startsMidpoint (found : startsMidpoint lexemes = true) : startsMidpoint other = true := by
  revert found
  fun_cases LoopCost.startsMidpoint lexemes with
  | case1 rest =>
    obtain ⟨rest', rfl, tails⟩ := alike.cons (by simp)
    exact tails.nextIs
  | case2 rest =>
    obtain ⟨rest', rfl, tails⟩ := alike.cons (by simp)
    obtain ⟨rest'', rfl, later⟩ := tails.cons (by simp)
    exact later.nextIs
  | case3 => simp

theorem halvesBetween {names : List Name} (found : halvesBetween names lexemes = true) : halvesBetween names other = true := by
  rw [LoopCost.halvesBetween, Bool.and_eq_true] at found ⊢
  refine ⟨alike.somewhere (fun alike => alike.startsMidpoint) found.1, ?_⟩
  rw [mentionsTwoOf, ← alike.filterMap_eq rfl]
  exact found.2

theorem evidence {names : List Name} (found : Evidence names lexemes) : Evidence names other := by
  rcases found with scaled | ⟨name, value, assigned, halves⟩
  · exact .inl (alike.rescalesOneOf scaled)
  · obtain ⟨value', assigned', values⟩ := alike.assignment? assigned
    exact .inr ⟨name, value', assigned', (values.takeWhile _).halvesBetween halves⟩

theorem startsShift (found : Growth.startsShift lexemes = true) : Growth.startsShift other = true := by
  revert found
  fun_cases Growth.startsShift lexemes with
  | case1 rest | case2 rest =>
    obtain ⟨rest', rfl, tails⟩ := alike.cons (by simp)
    obtain ⟨rest'', rfl, -⟩ := tails.cons (by simp)
    exact id
  | case3 => simp

theorem startsHalving (found : Growth.startsHalving lexemes = true) : Growth.startsHalving other = true := by
  revert found
  fun_cases Growth.startsHalving lexemes with
  | case1 rest =>
    obtain ⟨rest', rfl, tails⟩ := alike.cons (by simp)
    exact tails.nextIs
  | case2 rest tail read =>
    obtain ⟨rest', rfl, tails⟩ := alike.cons (by simp)
    have skipped := tails.skipBlanks
    rw [read] at skipped
    obtain ⟨rest₁, read', later⟩ := skipped.cons (by simp)
    obtain ⟨rest₂, rfl, -⟩ := later.cons (by simp)
    simp [Growth.startsHalving, read']
  | case3 rest tail read =>
    obtain ⟨rest', rfl, tails⟩ := alike.cons (by simp)
    have skipped := tails.skipBlanks
    rw [read] at skipped
    obtain ⟨rest₁, read', later⟩ := skipped.cons (by simp)
    obtain ⟨rest₂, rfl, last⟩ := later.cons (by simp)
    obtain ⟨rest₃, rfl, -⟩ := last.cons (by simp)
    simp [Growth.startsHalving, read']
  | case4 | case5 => simp

end Respaced

theorem headerPartsFrom_space (depth : Nat) (rest : List Char) :
    headerPartsFrom [] depth [] (' ' :: rest) = (headerPartsFrom [] depth [] rest).modifyHead (' ' :: ·) := by
  rw [headerPartsFrom_cons, if_neg (by simp)]
  rfl

private theorem forall₂_modifyHead {parts others : List (List Char)} (alike : List.Forall₂ (Spread ' ') parts others)
    (c : Char) : List.Forall₂ (Spread ' ') (parts.modifyHead (c :: ·)) (others.modifyHead (c :: ·)) := by
  cases alike with
  | nil => exact .nil
  | cons first later => exact .cons (first.keep c) later

private theorem forall₂_modifyHead_more {parts others : List (List Char)}
    (alike : List.Forall₂ (Spread ' ') parts (others.modifyHead (' ' :: ·))) :
    List.Forall₂ (Spread ' ') parts ((others.modifyHead (' ' :: ·)).modifyHead (' ' :: ·)) := by
  cases others with
  | nil => exact alike
  | cons part others =>
    cases alike with
    | cons first later => exact .cons first.more later

theorem spread_headerPartsFrom {header other : List Char} (spread : Spread ' ' header other) (depth : Nat) :
    List.Forall₂ (Spread ' ') (headerPartsFrom [] depth [] header) (headerPartsFrom [] depth [] other) := by
  induction spread generalizing depth with
  | nil => exact .cons .nil .nil
  | keep c rest ih =>
    rw [headerPartsFrom_cons, headerPartsFrom_cons]
    split
    · exact .cons .nil (ih 0)
    · exact forall₂_modifyHead (ih _) c
  | more rest ih =>
    have parts := ih depth
    rw [headerPartsFrom_space] at parts
    rw [headerPartsFrom_space, headerPartsFrom_space]
    exact forall₂_modifyHead_more parts

theorem spread_intercalate {parts others : List (List Char)} (alike : List.Forall₂ (Spread ' ') parts others) (between : List Char) :
    Spread ' ' (List.intercalate between parts) (List.intercalate between others) := by
  induction alike with
  | nil => exact .nil
  | @cons first first' rest rest' spread others ih =>
    cases others with
    | nil => simpa using spread
    | cons => 
      rw [List.intercalate_cons_cons, List.intercalate_cons_cons]
      exact (spread.append (.refl between)).append ih

section
variable {text other : List Char} (spread : Spread ' ' text other)
include spread

private theorem alike_ofText : Respaced (mark ' ') (ofText text) (ofText other) := .inl (spread_ofText spread)

/-- A pattern that blanks cannot break is in both texts or in none. -/
private theorem somewhere_eq {pattern : List Lexeme → Bool}
    (transfers : ∀ {place place'}, Respaced (mark ' ') place place' → pattern place = true → pattern place' = true) :
    somewhere pattern (ofText text) = somewhere pattern (ofText other) := by
  rw [Bool.eq_iff_iff]
  exact ⟨(alike_ofText spread).somewhere transfers, (alike_ofText spread).symm.somewhere transfers⟩

theorem sameEvidence_of_spread : SameEvidence text other := by
  intro names
  rw [Bool.eq_iff_iff, rescales_iff, rescales_iff]
  have carries {lexemes lexemes' : List Lexeme} (alike : Respaced (mark ' ') lexemes lexemes') :
      (∃ place, place <:+ lexemes ∧ Evidence names place) → ∃ place, place <:+ lexemes' ∧ Evidence names place := by
    intro ⟨place, within, evidence⟩
    obtain ⟨place', within', alike'⟩ := alike.exists_suffix within
    exact ⟨place', within', alike'.evidence evidence⟩
  exact ⟨carries (alike_ofText spread), carries (alike_ofText spread).symm⟩

theorem freeNames_spread : freeNames text = freeNames other := (alike_ofText spread).filterMap_eq rfl

theorem scalesAnything_spread : scalesAnything text = scalesAnything other := by
  apply somewhere_eq spread
  intro place place' alike found
  rw [Bool.or_eq_true, Option.isSome_iff_exists] at found ⊢
  refine found.imp alike.startsScaling ?_
  intro ⟨name, scaled⟩
  exact ⟨name, alike.selfScaled? scaled⟩

theorem conditionShrinks_spread : Growth.conditionShrinks text = Growth.conditionShrinks other := by
  unfold Growth.conditionShrinks
  dsimp only
  rw [somewhere_eq spread fun alike => alike.startsShift, somewhere_eq spread fun alike => alike.startsHalving,
    (alike_ofText spread).any_eq Growth.isStream]

theorem ofFor_spread : Growth.ofFor text = Growth.ofFor other := by
  have parts := spread_headerPartsFrom spread 0
  unfold Growth.ofFor headerParts
  generalize headerPartsFrom [] 0 [] text = list, headerPartsFrom [] 0 [] other = list' at parts
  rcases parts with _ | ⟨-, _ | ⟨condition, _ | ⟨third, more⟩⟩⟩
  · rfl
  · rfl
  · rfl
  · dsimp only
    rw [freeNames_spread condition, scalesAnything_spread (spread_intercalate (.cons third more) [';'])]

theorem sameHeader_of_spread : SameHeader text other := by
  refine ⟨ofFor_spread spread, freeNames_spread spread, ?_⟩
  intro shrinks
  unfold Growth.ofWhile
  rw [freeNames_spread spread, conditionShrinks_spread spread]

end

end LoopCost
