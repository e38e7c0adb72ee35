import LoopCost.Proofs.Evidence

/-! How a text that is put together from two rescales a name. More text on either side takes no evidence away, as long
as no word is cut in two, and no evidence reaches across a mark that ends a statement. So a text can be taken apart
into statements without evidence being lost or made up. -/

namespace LoopCost

def Cut (front back : List Char) : Prop :=
  ∀ last ∈ front.getLast?, ∀ first ∈ back.head?, isWordChar last = true → isWordChar first = false

namespace Lexeme

theorem cons_ne_nil (c : Char) (lexemes : List Lexeme) : cons c lexemes ≠ [] := by
  unfold cons
  split
  · split <;> simp
  · simp

theorem cons_append (c : Char) {front : List Lexeme} (nonempty : front ≠ []) (back : List Lexeme) :
    cons c (front ++ back) = cons c front ++ back := by
  cases front with
  | nil => exact absurd rfl nonempty
  | cons lexeme front => cases lexeme <;> unfold cons <;> split <;> rfl

theorem ofText_ne_nil {text : List Char} (nonempty : text ≠ []) : ofText text ≠ [] := by
  cases text with
  | nil => exact absurd rfl nonempty
  | cons c text => exact cons_ne_nil c _

theorem ofText_cons_mark {c : Char} (unlettered : isWordChar c = false) (text : List Char) :
    ofText (c :: text) = mark c :: ofText text := by
  simp [ofText, cons, unlettered]

/-- The lexemes of a text that starts with no letter of a word do not start with a word. -/
theorem cons_ofText {c : Char} {text : List Char} (cut : Cut [c] text) : cons c (ofText text) = cons c [] ++ ofText text := by
  cases text with
  | nil => simp [ofText]
  | cons d text =>
    by_cases letter : isWordChar c = true
    · have other : isWordChar d = false := cut c rfl d rfl letter
      rw [ofText_cons_mark other]
      simp [cons, letter]
    · simp [cons, letter]

theorem ofText_append {front back : List Char} (cut : Cut front back) : ofText (front ++ back) = ofText front ++ ofText back := by
  induction front with
  | nil => rfl
  | cons c front ih =>
    cases front with
    | nil => exact cons_ofText cut
    | cons d front =>
      have later : Cut (d :: front) back := by simpa [Cut] using cut
      have whole : ofText (c :: d :: front ++ back) = cons c (ofText (d :: front ++ back)) := rfl
      rw [whole, ih later, cons_append c (ofText_ne_nil (by simp))]
      rfl

theorem skipBlanks_append_mark {stop : Char} (visible : Unicode.isBlank stop = false) (front back : List Lexeme) :
    skipBlanks (front ++ mark stop :: back) = skipBlanks front ++ mark stop :: back := by
  have stays : (mark stop :: back).dropWhile isBlank = mark stop :: back := by simp [isBlank, visible]
  rw [skipBlanks, List.dropWhile_append]
  split
  · next empty => rw [stays, skipBlanks, List.isEmpty_iff.mp empty]; rfl
  · rfl

end Lexeme

open Lexeme

/-- A word does not start with a mark, so evidence does not either. -/
theorem not_evidence_mark (names : List Name) (c : Char) (rest : List Lexeme) : ¬ Evidence names (.mark c :: rest) := by
  rintro (scaled | ⟨name, value, assigned, -⟩)
  · simp [rescalesOneOf, compoundScaled?, selfScaled?, assignment?] at scaled
  · simp [assignment?] at assigned

/-! No pattern reaches across a mark that is neither a blank nor part of an operator. -/

private theorem prefix_of_prefix_append_cons {part front back : List Lexeme} {stop : Lexeme}
    (leads : part <+: front ++ stop :: back) (absent : stop ∉ part) : part <+: front := by
  rcases List.prefix_or_prefix_of_prefix leads (List.prefix_append front (stop :: back)) with inside | ⟨tail, rfl⟩
  · exact inside
  · cases tail with
    | nil => simp
    | cons first tail =>
      obtain ⟨rest, whole⟩ := leads
      simp only [List.append_assoc, List.append_cancel_left_eq, List.cons_append, List.cons.injEq] at whole
      exact absurd (List.mem_append_right front (whole.1 ▸ List.mem_cons_self)) absent

def Inert (stop : Char) : Prop := Unicode.isBlank stop = false ∧ stop ∉ ['=', '*', '/', '<', '>']

namespace Inert
variable {stop : Char} (inert : Inert stop) (front back : List Lexeme)
include inert

theorem startsScaling_append : startsScaling (front ++ .mark stop :: back) = startsScaling front := by
  have absent : ∀ sign ∈ [['*', '='], ['/', '='], ['>', '>', '='], ['<', '<', '=']], .mark stop ∉ sign.map mark := by
    have other := inert.2
    intro sign member
    simp only [List.mem_cons, List.not_mem_nil, or_false] at member
    rcases member with rfl | rfl | rfl | rfl <;> simp_all
  rw [Bool.eq_iff_iff, startsScaling_iff, startsScaling_iff]
  constructor
  · intro ⟨sign, member, leads⟩
    exact ⟨sign, member, prefix_of_prefix_append_cons leads (absent sign member)⟩
  · intro ⟨sign, member, leads⟩
    exact ⟨sign, member, leads.trans (List.prefix_append _ _)⟩

theorem startsFactor_append : startsFactor (front ++ .mark stop :: back) = startsFactor front := by
  have other := inert.2
  cases front with
  | nil => simp_all [startsFactor]
  | cons lexeme front =>
    rw [List.cons_append]
    unfold startsFactor
    split <;> simp_all

theorem compoundScaled?_append : compoundScaled? (front ++ .mark stop :: back) = compoundScaled? front := by
  cases front with
  | nil => rfl
  | cons lexeme front =>
    cases lexeme with
    | mark c => rfl
    | word name =>
      rw [List.cons_append, compoundScaled?, skipBlanks_append_mark inert.1, inert.startsScaling_append]
      rfl

theorem assignment?_append :
    assignment? (front ++ .mark stop :: back) =
      (assignment? front).map (Prod.map id (· ++ .mark stop :: back)) := by
  have other : stop ≠ '=' := fun same => inert.2 (by simp [same])
  cases front with
  | nil => rfl
  | cons lexeme front =>
    cases lexeme with
    | mark c => rfl
    | word name =>
      rw [List.cons_append, assignment?, assignment?, skipBlanks_append_mark inert.1]
      split
      · rcases skipBlanks front with _ | ⟨first, _ | ⟨second, rest⟩⟩
        · simp [other]
        · by_cases same : first = .mark '=' <;> simp [same, other]
        · by_cases same : first = .mark '=' <;> by_cases twice : second = .mark '=' <;> simp [same, twice]
      · rfl

theorem selfScaled?_append : selfScaled? (front ++ .mark stop :: back) = selfScaled? front := by
  rw [selfScaled?, selfScaled?, inert.assignment?_append]
  cases assignment? front with
  | none => rfl
  | some found =>
    obtain ⟨name, value⟩ := found
    simp only [Option.map_some, Prod.map_apply, id, skipBlanks_append_mark inert.1]
    cases skipBlanks value with
    | nil => rfl
    | cons lexeme rest =>
      cases lexeme with
      | mark c => rfl
      | word again => simp only [List.cons_append, skipBlanks_append_mark inert.1, inert.startsFactor_append]

theorem rescalesOneOf_append (names : List Name) :
    rescalesOneOf names (front ++ .mark stop :: back) = rescalesOneOf names front := by
  rw [rescalesOneOf, inert.compoundScaled?_append, inert.selfScaled?_append, rescalesOneOf]

end Inert

theorem rescales_append_left {front back : List Char} {names : List Name} (cut : Cut front back)
    (found : rescales back names = true) : rescales (front ++ back) names = true := by
  rw [rescales_iff, ofText_append cut]
  obtain ⟨place, within, evidence⟩ := (rescales_iff back names).mp found
  exact ⟨place, within.trans (List.suffix_append _ _), evidence⟩

theorem rescales_append_right {front back : List Char} {names : List Name} (cut : Cut front back)
    (found : rescales front names = true) : rescales (front ++ back) names = true := by
  rw [rescales_iff, ofText_append cut]
  obtain ⟨place, ⟨before, whole⟩, evidence⟩ := (rescales_iff front names).mp found
  exact ⟨place ++ ofText back, ⟨before, by rw [← whole, List.append_assoc]⟩, evidence.append (ofText back)⟩

theorem rescales_nil (names : List Name) : rescales [] names = false := by
  simp [rescales, ofText, somewhere, rescalesOneOf, compoundScaled?, selfScaled?, assignment?, closesIn, valuePieces,
    firstValue?]

/-- Where no word can start, no evidence can. -/
theorem rescales_marks_append {front : List Char} (unlettered : ∀ c ∈ front, isWordChar c = false) (back : List Char)
    (names : List Name) : rescales (front ++ back) names = rescales back names := by
  induction front with
  | nil => rfl
  | cons c front ih =>
    rw [← ih fun d member => unlettered d (List.mem_cons_of_mem c member), Bool.eq_iff_iff, rescales_iff, rescales_iff,
      List.cons_append, ofText_cons_mark (unlettered c List.mem_cons_self)]
    constructor
    · intro ⟨place, within, evidence⟩
      rcases List.suffix_cons_iff.mp within with rfl | later
      · exact absurd evidence (not_evidence_mark names c _)
      · exact ⟨place, later, evidence⟩
    · intro ⟨place, within, evidence⟩
      exact ⟨place, within.trans (List.suffix_cons _ _), evidence⟩

/-- The signs that the scan looks for belong to no word. -/
theorem isWordChar_sign {c : Char} (sign : c ∈ ['\n', '#', '(', ')', '*', '/', ':', ';', '<', '=', '>', '{', '}']) :
    isWordChar c = false := by
  have known : ['\n', '#', '(', ')', '*', '/', ':', ';', '<', '=', '>', '{', '}'].all (!isWordChar ·) = true := by
    decide +kernel
  simpa using List.all_eq_true.mp known c sign

theorem cut_cons {stop : Char} (unlettered : isWordChar stop = false) (front back : List Char) : Cut front (stop :: back) := by
  intro last _ first member _
  cases member
  exact unlettered

theorem rescales_behind {stop : Char} (unlettered : isWordChar stop = false) (front : List Char) {back : List Char}
    {names : List Name} (found : rescales back names = true) : rescales (front ++ stop :: back) names = true := by
  apply rescales_append_left (cut_cons unlettered front back)
  rw [← List.singleton_append, rescales_marks_append (by simpa using unlettered)]
  exact found

theorem ofText_append_mark {stop : Char} (unlettered : isWordChar stop = false) (front back : List Char) :
    ofText (front ++ stop :: back) = ofText front ++ .mark stop :: ofText back := by
  rw [ofText_append (cut_cons unlettered front back), ofText_cons_mark unlettered]

theorem suffix_append_cons {place front back : List Lexeme} {stop : Lexeme} (within : place <:+ front ++ stop :: back) :
    place <:+ back ∨ ∃ inside, inside <:+ front ∧ place = inside ++ stop :: back := by
  obtain ⟨before, whole⟩ := within
  rcases List.append_eq_append_iff.mp whole with ⟨inside, rfl, rfl⟩ | ⟨inside, rfl, same⟩
  · exact .inr ⟨inside, ⟨before, rfl⟩, rfl⟩
  · cases inside with
    | nil => exact .inr ⟨[], List.nil_suffix, same.symm⟩
    | cons first inside => exact .inl ⟨inside, (List.cons.inj same).2.symm⟩

theorem Inert.evidence {stop : Char} (inert : Inert stop) (ends : endsValue (.mark stop) = true) {names : List Name}
    {front back : List Lexeme} (evidence : Evidence names (front ++ .mark stop :: back)) : Evidence names front := by
  rcases evidence with scaled | ⟨name, value, assigned, halves⟩
  · exact .inl (inert.rescalesOneOf_append front back names ▸ scaled)
  · rw [inert.assignment?_append, Option.map_eq_some_iff] at assigned
    obtain ⟨⟨name, value⟩, assigned, same⟩ := assigned
    cases same
    have cut : (value ++ .mark stop :: back).takeWhile (!endsValue ·) = value.takeWhile (!endsValue ·) := by
      rw [List.takeWhile_append]
      split
      · next whole => rw [List.takeWhile_cons, ends, (List.takeWhile_prefix _).eq_of_length whole]; simp
      · rfl
    exact .inr ⟨name, value, assigned, cut ▸ halves⟩

/-- A mark that ends a statement parts the evidence in front of it from the evidence behind it. -/
theorem rescales_append_stop {stop : Char} (ends : stop ∈ [';', '{', '}']) (front back : List Char) (names : List Name) :
    rescales (front ++ stop :: back) names = (rescales front names || rescales back names) := by
  have known : isWordChar stop = false ∧ Inert stop ∧ endsValue (.mark stop) = true := by
    simp only [List.mem_cons, List.not_mem_nil, or_false] at ends
    rcases ends with rfl | rfl | rfl <;> exact ⟨isWordChar_sign (by simp), ⟨by decide, by decide⟩, rfl⟩
  obtain ⟨unlettered, inert, ends⟩ := known
  rw [Bool.eq_iff_iff, Bool.or_eq_true]
  constructor
  · intro found
    obtain ⟨place, within, evidence⟩ := (rescales_iff _ names).mp found
    rw [ofText_append_mark unlettered] at within
    rcases suffix_append_cons within with later | ⟨inside, earlier, rfl⟩
    · exact .inr ((rescales_iff back names).mpr ⟨place, later, evidence⟩)
    · exact .inl ((rescales_iff front names).mpr ⟨inside, earlier, inert.evidence ends evidence⟩)
  · rintro (found | found)
    · exact rescales_append_right (cut_cons unlettered front back) found
    · exact rescales_behind unlettered front found

theorem equals_mem_of_assignment? {place value : List Lexeme} {name : Name}
    (found : assignment? place = some (name, value)) : .mark '=' ∈ place := by
  obtain ⟨rest, rfl, -, read, -⟩ := assignment?_eq_some found
  have skipped : skipBlanks rest <:+ rest := List.dropWhile_suffix _
  exact List.mem_cons_of_mem _ (skipped.subset (by rw [read]; exact List.mem_cons_self))

theorem equals_mem_of_rescalesOneOf {names : List Name} {place : List Lexeme} (found : rescalesOneOf names place = true) :
    .mark '=' ∈ place := by
  rw [rescalesOneOf, Bool.or_eq_true, Option.any_eq_true, Option.any_eq_true] at found
  obtain ⟨name, scaled, -⟩ | ⟨name, scaled, -⟩ := found
  · unfold compoundScaled? at scaled
    split at scaled
    · next target rest =>
      rw [Option.ite_none_right_eq_some, Bool.and_eq_true, startsScaling_iff] at scaled
      obtain ⟨⟨-, sign, member, leads⟩, -⟩ := scaled
      have skipped : skipBlanks rest <:+ rest := List.dropWhile_suffix _
      have equals : '=' ∈ sign := by
        simp only [List.mem_cons, List.not_mem_nil, or_false] at member
        rcases member with rfl | rfl | rfl | rfl <;> decide
      exact List.mem_cons_of_mem _ (skipped.subset (leads.subset (List.mem_map_of_mem equals)))
    · cases scaled
  · obtain ⟨value, rest, assigned, -⟩ := selfScaled?_eq_some scaled
    exact equals_mem_of_assignment? assigned

theorem mem_of_mark_mem {c : Char} {text : List Char} (member : .mark c ∈ ofText text) : c ∈ text := by
  rw [← flatMap_text_ofText text, List.mem_flatMap]
  exact ⟨.mark c, member, List.mem_singleton_self c⟩

/-- A label adds no evidence to the statement behind it. -/
theorem rescales_append_colon {front : List Char} (plain : '=' ∉ front) (back : List Char) (names : List Name) :
    rescales (front ++ ':' :: back) names = rescales back names := by
  have unlettered : isWordChar ':' = false := isWordChar_sign (by simp)
  have inert : Inert ':' := ⟨by decide, by decide⟩
  rw [Bool.eq_iff_iff]
  constructor
  · intro found
    obtain ⟨place, within, evidence⟩ := (rescales_iff _ names).mp found
    rw [ofText_append_mark unlettered] at within
    rcases suffix_append_cons within with later | ⟨inside, earlier, rfl⟩
    · exact (rescales_iff back names).mpr ⟨place, later, evidence⟩
    · refine absurd (mem_of_mark_mem (earlier.subset ?_)) plain
      rcases evidence with scaled | ⟨name, value, assigned, -⟩
      · exact equals_mem_of_rescalesOneOf (inert.rescalesOneOf_append inside (ofText back) names ▸ scaled)
      · rw [inert.assignment?_append, Option.map_eq_some_iff] at assigned
        obtain ⟨⟨name, value⟩, assigned, -⟩ := assigned
        exact equals_mem_of_assignment? assigned
  · exact rescales_behind unlettered front

end LoopCost
