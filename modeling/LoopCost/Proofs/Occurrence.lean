import LoopCost.Proofs.Evidence
import LoopCost.Proofs.Words

/-! Rescaling followed back to the characters of the text: the words that are scaled, assigned or halved are runs of the
text, and what stands between them and the signs is blank. -/

namespace LoopCost

open Lexeme (ofText skipBlanks mark somewhere)

/-- Behind the text in front, the name is set by a single equals sign to the value and what follows it. -/
structure Sets (front name back value : List Char) : Prop where
  run : IsRun front name back
  starts : startsName name = true
  sign : back.dropWhile Unicode.isBlank = '=' :: value
  single : value.head? ≠ some '='

theorem Sets.of_cut {front name back value : List Char} (assigned : Sets [] name back value)
    (cut : Cut front (name ++ back)) : Sets front name back value :=
  ⟨assigned.run.of_cut cut, assigned.starts, assigned.sign, assigned.single⟩

theorem Sets.alone {front name back value : List Char} (assigned : Sets front name back value) :
    Sets [] name back value :=
  ⟨assigned.run.behind (by simp), assigned.starts, assigned.sign, assigned.single⟩

def untilEnd (text : List Char) : List Char := text.takeWhile fun c => !(c == ';' || c == '{' || c == '}')

/-- The name stands somewhere in the text as a word of its own and is not reserved. -/
structure Mentions (text : List Char) (name : Name) : Prop where
  run : ∃ front back, text = front ++ (name ++ back) ∧ IsRun front name back
  starts : startsName name = true
  free : name ∉ reservedWords

def Halves (text : List Char) : Prop :=
  ∃ half ∈ [(['/'], ['2']), (['>', '>'], ['1'])], ∃ front gap back, text = front ++ (half.1 ++ (gap ++ (half.2 ++ back))) ∧
    (∀ c ∈ gap, Unicode.isBlank c = true) ∧ IsRun gap half.2 back

/-- The ways to rescale one of the names or to halve something between two of them. -/
inductive Rescaled (names : List Name) (code : List Char) : Prop
  | compound {front name back sign : List Char} (whole : code = front ++ (name ++ back)) (run : IsRun front name back)
      (starts : startsName name = true) (listed : name ∈ names)
      (scaling : sign ∈ [['*', '='], ['/', '='], ['>', '>', '='], ['<', '<', '=']])
      (leads : sign <+: back.dropWhile Unicode.isBlank)
  | itself {front name back gap rest : List Char} {sign : Char} (whole : code = front ++ (name ++ back))
      (assigned : Sets front name back (gap ++ (name ++ rest))) (listed : name ∈ names)
      (blank : ∀ c ∈ gap, Unicode.isBlank c = true) (run : IsRun gap name rest)
      (factor : sign = '*' ∨ sign = '/') (follows : (rest.dropWhile Unicode.isBlank).head? = some sign)
  | halving {front name back value : List Char} {lower upper : Name} (whole : code = front ++ (name ++ back))
      (assigned : Sets front name back value) (halves : Halves (untilEnd value)) (listed : lower ∈ names ∧ upper ∈ names)
      (bounds : Mentions (untilEnd value) lower ∧ Mentions (untilEnd value) upper) (different : lower ≠ upper)

theorem compoundScaled?_ofText_iff (text : List Char) (name : Name) :
    compoundScaled? (ofText text) = some name ↔ ∃ back, text = name ++ back ∧ IsRun [] name back ∧ startsName name = true ∧
      ∃ sign ∈ [['*', '='], ['/', '='], ['>', '>', '='], ['<', '<', '=']], sign <+: back.dropWhile Unicode.isBlank := by
  have scaling (back : List Char) : startsScaling (skipBlanks (ofText back)) = true ↔
      ∃ sign ∈ [['*', '='], ['/', '='], ['>', '>', '='], ['<', '<', '=']], sign <+: back.dropWhile Unicode.isBlank := by
    rw [Lexeme.skipBlanks_ofText, startsScaling_iff]
    apply exists_congr
    intro sign
    apply and_congr_right
    intro member
    apply Lexeme.prefix_ofText_iff
    intro c within
    apply isWordChar_sign
    simp only [List.mem_cons, List.not_mem_nil, or_false] at member
    rcases member with rfl | rfl | rfl | rfl <;> simp at within ⊢ <;> tauto
  constructor
  · intro found
    unfold compoundScaled? at found
    split at found
    · next target rest read =>
      rw [Option.ite_none_right_eq_some, Bool.and_eq_true] at found
      obtain ⟨⟨starts, scales⟩, same⟩ := found
      cases same
      obtain ⟨back, whole, run, rfl⟩ := Lexeme.ofText_eq_word_cons read
      exact ⟨back, whole, run, starts, (scaling back).mp scales⟩
    · cases found
  · intro found
    obtain ⟨back, whole, run, starts, scales⟩ := found
    rw [whole, Lexeme.ofText_append_run run, compoundScaled?, starts, (scaling back).mpr scales]
    rfl

theorem assignment?_ofText_iff (text : List Char) (name : Name) (place : List Lexeme) :
    assignment? (ofText text) = some (name, place) ↔
      ∃ back value, text = name ++ back ∧ Sets [] name back value ∧ place = ofText value := by
  have single (value : List Char) : (ofText value).head? = some (mark '=') ↔ value.head? = some '=' :=
    Lexeme.head?_ofText_iff (isWordChar_sign (by simp)) value
  constructor
  · intro found
    obtain ⟨rest, read, starts, sign, once⟩ := assignment?_eq_some found
    obtain ⟨back, whole, run, rfl⟩ := Lexeme.ofText_eq_word_cons read
    rw [Lexeme.skipBlanks_ofText] at sign
    obtain ⟨value, same, -, rfl⟩ := Lexeme.ofText_eq_mark_cons sign
    exact ⟨back, value, whole, ⟨run, starts, same, mt (single value).mpr once⟩, rfl⟩
  · intro ⟨back, value, whole, assigned, same⟩
    rw [whole, Lexeme.ofText_append_run assigned.run, same]
    apply assignment?_of assigned.starts
    · rw [Lexeme.skipBlanks_ofText, assigned.sign, Lexeme.ofText_cons_mark (isWordChar_sign (by simp))]
    · exact mt (single value).mp assigned.single

theorem startsFactor_iff (lexemes : List Lexeme) :
    startsFactor lexemes = true ↔ ∃ sign, (sign = '*' ∨ sign = '/') ∧ lexemes.head? = some (mark sign) := by
  unfold startsFactor
  split
  · simp
  · simp
  · next times divided =>
    refine iff_of_false Bool.false_ne_true ?_
    intro ⟨sign, factor, starts⟩
    obtain ⟨rest, whole⟩ := List.head?_eq_some_iff.mp starts
    rcases factor with rfl | rfl
    · exact times rest whole
    · exact divided rest whole

theorem startsFactor_ofText_iff (text : List Char) :
    startsFactor (ofText text) = true ↔ ∃ sign, (sign = '*' ∨ sign = '/') ∧ text.head? = some sign := by
  rw [startsFactor_iff]
  apply exists_congr
  intro sign
  apply and_congr_right
  intro factor
  apply Lexeme.head?_ofText_iff
  apply isWordChar_sign
  rcases factor with rfl | rfl <;> simp

theorem selfScaled?_ofText_iff (text : List Char) (name : Name) :
    selfScaled? (ofText text) = some name ↔ ∃ back gap rest, text = name ++ back ∧
      Sets [] name back (gap ++ (name ++ rest)) ∧ (∀ c ∈ gap, Unicode.isBlank c = true) ∧ IsRun gap name rest ∧
      ∃ sign, (sign = '*' ∨ sign = '/') ∧ (rest.dropWhile Unicode.isBlank).head? = some sign := by
  constructor
  · intro found
    obtain ⟨place, others, assigned, again, factor⟩ := selfScaled?_eq_some found
    obtain ⟨back, value, whole, set, rfl⟩ := (assignment?_ofText_iff ..).mp assigned
    obtain ⟨gap, rest, rfl, blank, run, rfl⟩ := (Lexeme.skipBlanks_ofText_eq_word_cons_iff ..).mp again
    rw [Lexeme.skipBlanks_ofText, startsFactor_ofText_iff] at factor
    exact ⟨back, gap, rest, whole, set, blank, run, factor⟩
  · intro ⟨back, gap, rest, whole, assigned, blank, run, factor⟩
    apply selfScaled?_of ((assignment?_ofText_iff ..).mpr ⟨back, _, whole, assigned, rfl⟩)
    · exact (Lexeme.skipBlanks_ofText_eq_word_cons_iff ..).mpr ⟨gap, rest, rfl, blank, run, rfl⟩
    · rw [Lexeme.skipBlanks_ofText, startsFactor_ofText_iff]
      exact factor

theorem nextIs_ofText_iff (letters text : List Char) :
    nextIs letters (ofText text) = true ↔
      ∃ gap back, text = gap ++ (letters ++ back) ∧ (∀ c ∈ gap, Unicode.isBlank c = true) ∧ IsRun gap letters back := by
  rw [nextIs, beq_iff_eq, List.head?_eq_some_iff]
  simp only [Lexeme.skipBlanks_ofText_eq_word_cons_iff]
  constructor
  · intro found
    obtain ⟨rest, gap, back, whole, blank, run, -⟩ := found
    exact ⟨gap, back, whole, blank, run⟩
  · intro found
    obtain ⟨gap, back, whole, blank, run⟩ := found
    exact ⟨_, gap, back, whole, blank, run, rfl⟩

theorem startsMidpoint_ofText_iff (text : List Char) :
    startsMidpoint (ofText text) = true ↔ ∃ half ∈ [(['/'], ['2']), (['>', '>'], ['1'])], ∃ gap back,
      text = half.1 ++ (gap ++ (half.2 ++ back)) ∧ (∀ c ∈ gap, Unicode.isBlank c = true) ∧ IsRun gap half.2 back := by
  constructor
  · intro found
    unfold startsMidpoint at found
    split at found
    · next rest read =>
      obtain ⟨text, rfl, -, rfl⟩ := Lexeme.ofText_eq_mark_cons read
      obtain ⟨gap, back, rfl, number⟩ := (nextIs_ofText_iff ..).mp found
      exact ⟨(['/'], ['2']), by simp, gap, back, rfl, number⟩
    · next rest read =>
      obtain ⟨text, rfl, -, read⟩ := Lexeme.ofText_eq_mark_cons read
      obtain ⟨text, rfl, -, rfl⟩ := Lexeme.ofText_eq_mark_cons read.symm
      obtain ⟨gap, back, rfl, number⟩ := (nextIs_ofText_iff ..).mp found
      exact ⟨(['>', '>'], ['1']), by simp, gap, back, rfl, number⟩
    · cases found
  · intro ⟨half, member, gap, back, whole, number⟩
    have reads := (nextIs_ofText_iff ..).mpr ⟨gap, back, rfl, number⟩
    simp only [List.mem_cons, List.not_mem_nil, or_false] at member
    rcases member with rfl | rfl
    · rw [whole, List.singleton_append, Lexeme.ofText_cons_mark (isWordChar_sign (by simp))]
      exact reads
    · rw [whole, List.cons_append, List.singleton_append, Lexeme.ofText_cons_mark (isWordChar_sign (by simp)),
        Lexeme.ofText_cons_mark (isWordChar_sign (by simp))]
      exact reads

theorem somewhere_startsMidpoint_iff (text : List Char) :
    somewhere startsMidpoint (ofText text) = true ↔ Halves text := by
  rw [Lexeme.somewhere_iff]
  constructor
  · intro ⟨place, within, here⟩
    obtain ⟨front, rest, rfl, -, rfl⟩ := (Lexeme.suffix_ofText_iff ..).mp within
    obtain ⟨half, member, gap, back, rfl, number⟩ := (startsMidpoint_ofText_iff rest).mp here
    exact ⟨half, member, front, gap, back, rfl, number⟩
  · intro ⟨half, member, front, gap, back, whole, number⟩
    have here := (startsMidpoint_ofText_iff _).mpr ⟨half, member, gap, back, rfl, number⟩
    refine ⟨_, (Lexeme.suffix_ofText_iff ..).mpr ⟨front, _, whole, ?_, rfl⟩, here⟩
    simp only [List.mem_cons, List.not_mem_nil, or_false] at member
    rcases member with rfl | rfl
    all_goals exact cut_cons (isWordChar_sign (by simp)) _ _

theorem mem_name?_ofText_iff (text : List Char) (name : Name) :
    name ∈ (ofText text).filterMap Lexeme.name? ↔ Mentions text name := by
  rw [List.mem_filterMap]
  constructor
  · intro ⟨lexeme, member, named⟩
    unfold Lexeme.name? at named
    split at named
    · next letters =>
      rw [Option.ite_none_right_eq_some, Bool.and_eq_true, Bool.not_eq_true', List.contains_eq_mem, decide_eq_false_iff_not] at named
      obtain ⟨⟨starts, free⟩, same⟩ := named
      cases same
      exact ⟨(Lexeme.word_mem_ofText_iff text name).mp member, starts, free⟩
    · cases named
  · intro mentions
    refine ⟨.word name, (Lexeme.word_mem_ofText_iff text name).mpr mentions.run, ?_⟩
    simp [Lexeme.name?, mentions.starts, mentions.free]

theorem halvesBetween_ofText_iff (names : List Name) (text : List Char) :
    halvesBetween names (ofText text) = true ↔ Halves text ∧ ∃ lower upper, (lower ∈ names ∧ upper ∈ names) ∧
      (Mentions text lower ∧ Mentions text upper) ∧ lower ≠ upper := by
  rw [halvesBetween, Bool.and_eq_true, somewhere_startsMidpoint_iff, mentionsTwoOf_iff]
  apply and_congr_right
  intro _
  apply exists_congr
  intro lower
  apply exists_congr
  intro upper
  simp only [List.mem_cons, List.not_mem_nil, or_false, forall_eq_or_imp, forall_eq, List.mem_filter, mem_name?_ofText_iff,
    List.contains_eq_mem, decide_eq_true_eq]
  tauto

theorem takeWhile_endsValue_ofText (text : List Char) :
    (ofText text).takeWhile (!endsValue ·) = ofText (untilEnd text) := by
  apply Lexeme.takeWhile_ofText
  · intro letters
    rfl
  · intro c ends
    simp only [endsValue, Bool.or_eq_true, beq_iff_eq] at ends
    apply isWordChar_sign
    rcases ends with (rfl | rfl) | rfl <;> simp

/-- What is found lexeme by lexeme stands in the characters of the text. -/
theorem rescaled_iff (names : List Name) (code : List Char) : Rescaled names code ↔ rescales code names = true := by
  rw [rescales_iff]
  apply Iff.symm
  constructor
  · intro ⟨place, within, evidence⟩
    obtain ⟨front, text, rfl, cut, rfl⟩ := (Lexeme.suffix_ofText_iff ..).mp within
    rcases evidence with scaled | ⟨name, place, assigned, halves⟩
    · rw [rescalesOneOf, Bool.or_eq_true, Option.any_eq_true, Option.any_eq_true] at scaled
      rcases scaled with ⟨name, scaled, listed⟩ | ⟨name, scaled, listed⟩
      · obtain ⟨back, rfl, run, starts, sign, scaling, leads⟩ := (compoundScaled?_ofText_iff ..).mp scaled
        exact .compound rfl (run.of_cut cut) starts (List.contains_iff_mem.mp listed) scaling leads
      · obtain ⟨back, gap, rest, rfl, assigned, blank, run, sign, factor, follows⟩ := (selfScaled?_ofText_iff ..).mp scaled
        exact .itself rfl (assigned.of_cut cut) (List.contains_iff_mem.mp listed) blank run factor follows
    · obtain ⟨back, value, rfl, set, rfl⟩ := (assignment?_ofText_iff ..).mp assigned
      rw [takeWhile_endsValue_ofText, halvesBetween_ofText_iff] at halves
      obtain ⟨halves, lower, upper, listed, bounds, different⟩ := halves
      exact .halving rfl (set.of_cut cut) halves listed bounds different
  · intro rescaled
    cases rescaled with
    | @compound front name back sign whole run starts listed scaling leads =>
      have scaled := (compoundScaled?_ofText_iff ..).mpr ⟨back, rfl, run.behind (by simp), starts, sign, scaling, leads⟩
      refine ⟨_, (Lexeme.suffix_ofText_iff ..).mpr ⟨front, _, whole, run.cut_front, rfl⟩, .inl ?_⟩
      rw [rescalesOneOf, scaled, Option.any_some, List.contains_iff_mem.mpr listed, Bool.true_or]
    | @itself front name back gap rest sign whole assigned listed blank run factor follows =>
      have scaled := (selfScaled?_ofText_iff ..).mpr ⟨back, gap, rest, rfl, assigned.alone, blank, run, sign, factor, follows⟩
      refine ⟨_, (Lexeme.suffix_ofText_iff ..).mpr ⟨front, _, whole, assigned.run.cut_front, rfl⟩, .inl ?_⟩
      rw [rescalesOneOf, scaled, Option.any_some, List.contains_iff_mem.mpr listed, Bool.or_true]
    | @halving front name back value lower upper whole assigned halves listed bounds different =>
      have set := (assignment?_ofText_iff ..).mpr ⟨back, value, rfl, assigned.alone, rfl⟩
      refine ⟨_, (Lexeme.suffix_ofText_iff ..).mpr ⟨front, _, whole, assigned.run.cut_front, rfl⟩, .inr ⟨name, _, set, ?_⟩⟩
      rw [takeWhile_endsValue_ofText, halvesBetween_ofText_iff]
      exact ⟨halves, lower, upper, listed, bounds, different⟩

end LoopCost
