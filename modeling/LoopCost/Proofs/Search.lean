import LoopCost.Proofs.Occurrence

/-! Searches from left to right that go on behind each match. What begins inside of a match finds nothing that the match
does not find as well, so such searches miss nothing. -/

namespace LoopCost

open Lexeme (skipBlanks mark somewhere)

/-- What a search from left to right finds that goes on behind each match. The first `skip` lexemes belong to a match. -/
def search {α : Type} (read? : List Lexeme → Option (α × List Lexeme)) : Nat → List Lexeme → List α
  | _, [] => []
  | skip + 1, _ :: rest => search read? skip rest
  | 0, lexeme :: rest =>
    match read? (lexeme :: rest) with
    | some (found, behind) => found :: search read? (rest.length - behind.length) rest
    | none => search read? 0 rest

/-- A match leaves a part of the text behind it, and what begins inside of it gives no more than the match itself. -/
structure Swallows {α : Type} (read? : List Lexeme → Option (α × List Lexeme)) (wanted : α → Bool) : Prop where
  behind : ∀ {place found rest}, read? place = some (found, rest) → rest <:+ place.tail
  inside : ∀ {place found rest}, read? place = some (found, rest) → ∀ {later other left}, later <:+ place → ¬ later <:+ rest →
    read? later = some (other, left) → wanted other = true → wanted found = true

section
variable {α : Type} {read? : List Lexeme → Option (α × List Lexeme)}

theorem search_skip (skip : Nat) (lexemes : List Lexeme) : search read? skip lexemes = search read? 0 (lexemes.drop skip) := by
  induction lexemes generalizing skip with
  | nil => simp [search]
  | cons lexeme rest ih =>
    cases skip with
    | zero => rfl
    | succ skip => exact ih skip

theorem search_cons {place behind : List Lexeme} {found : α} (here : read? place = some (found, behind))
    (suffix : behind <:+ place.tail) (nonempty : place ≠ []) : search read? 0 place = found :: search read? 0 behind := by
  obtain ⟨lexeme, rest, rfl⟩ := List.exists_cons_of_ne_nil nonempty
  obtain ⟨front, rfl : front ++ behind = rest⟩ := suffix
  simp only [search, here]
  rw [search_skip, List.length_append, Nat.add_sub_cancel, List.drop_left]

theorem any_search_iff {wanted : α → Bool} (swallows : Swallows read? wanted) (empty : read? [] = none) (lexemes : List Lexeme) :
    (search read? 0 lexemes).any wanted = true ↔
      ∃ place found rest, place <:+ lexemes ∧ read? place = some (found, rest) ∧ wanted found = true := by
  induction size : lexemes.length using Nat.strongRecOn generalizing lexemes with
  | ind size ih =>
    cases lexemes with
    | nil => simp [search, empty]
    | cons lexeme later =>
      cases here : read? (lexeme :: later) with
      | none =>
        have on := ih later.length (by simp at size; omega) later rfl
        simp only [search, here]
        rw [on]
        constructor
        · intro ⟨place, found, rest, within, match_⟩
          exact ⟨place, found, rest, within.trans (List.suffix_cons _ _), match_⟩
        · intro ⟨place, found, rest, within, read, holds⟩
          rcases List.suffix_cons_iff.mp within with rfl | within
          · rw [here] at read
            cases read
          · exact ⟨place, found, rest, within, read, holds⟩
      | some found =>
        obtain ⟨found, behind⟩ := found
        have suffix := swallows.behind here
        have on := ih behind.length (by have := suffix.length_le; simp at size this; omega) behind rfl
        rw [search_cons here suffix (by simp), List.any_cons, Bool.or_eq_true, on]
        constructor
        · intro first
          rcases first with holds | ⟨place, other, rest, within, read⟩
          · exact ⟨_, found, behind, List.suffix_refl _, here, holds⟩
          · exact ⟨place, other, rest, within.trans (suffix.trans (List.suffix_cons _ _)), read⟩
        · intro ⟨place, other, rest, within, read, holds⟩
          by_cases later : place <:+ behind
          · exact .inr ⟨place, other, rest, later, read, holds⟩
          · exact .inl (swallows.inside here within later read holds)

end

def behindFirst (signs : List Char) (lexemes : List Lexeme) : List Lexeme :=
  (lexemes.dropWhile fun lexeme => !(signs.map mark).contains lexeme).tail

structure Echo (signs : List Char) (name : Name) (read : List Lexeme) : Prop where
  starts : read.head? = some (.word name)
  only : ∀ letters, .word letters ∈ read → letters = name
  last : ∃ front, ∃ sign ∈ signs, read = front ++ [mark sign] ∧ ∀ other ∈ signs, mark other ∉ front

theorem Echo.behindFirst_eq {signs : List Char} {name : Name} {read : List Lexeme} (echo : Echo signs name read)
    (behind : List Lexeme) : behindFirst signs (read ++ behind) = behind := by
  obtain ⟨front, sign, member, rfl, others⟩ := echo.last
  have passed : ∀ lexeme ∈ front, (!(signs.map mark).contains lexeme) = true := by
    intro lexeme member
    rw [Bool.not_eq_true', List.contains_eq_mem, decide_eq_false_iff_not, List.mem_map]
    intro ⟨other, listed, same⟩
    exact others other listed (same ▸ member)
  rw [behindFirst, List.append_assoc, List.dropWhile_append_of_pos passed]
  simp [member]

theorem mem_of_suffix_append {read behind rest : List Lexeme} {lexeme : Lexeme} (within : lexeme :: rest <:+ read ++ behind)
    (inside : ¬ lexeme :: rest <:+ behind) : ∃ front, lexeme :: front <:+ read ∧ rest = front ++ behind := by
  rcases List.suffix_or_suffix_of_suffix within (List.suffix_append read behind) with later | ⟨front, whole⟩
  · exact absurd later inside
  · cases front with
    | nil => exact absurd (by rw [← whole]; exact List.suffix_refl _) inside
    | cons first front =>
      obtain ⟨rfl, rfl⟩ := List.cons.inj whole
      obtain ⟨before, same⟩ := within
      have split : (before ++ first :: front) ++ behind = read ++ behind := by rw [← same, List.append_assoc]; rfl
      exact ⟨front, ⟨before, List.append_cancel_right split⟩, rfl⟩

theorem swallows_of_echo {scaled? : List Lexeme → Option Name} {signs : List Char}
    (echoes : ∀ place name, scaled? place = some name → ∃ read behind, place = read ++ behind ∧ Echo signs name read)
    (wanted : Name → Bool) : Swallows (fun place => (scaled? place).map (·, behindFirst signs place)) wanted := by
  constructor
  · intro place found rest here
    obtain ⟨name, scaled, same⟩ := Option.map_eq_some_iff.mp here
    obtain ⟨read, behind, rfl, echo⟩ := echoes place name scaled
    obtain ⟨more, rfl⟩ := List.head?_eq_some_iff.mp echo.starts
    cases same
    rw [echo.behindFirst_eq behind]
    exact List.suffix_append _ _
  · intro place found rest here later other left within inside there holds
    obtain ⟨name, scaled, same⟩ := Option.map_eq_some_iff.mp here
    obtain ⟨read, behind, rfl, echo⟩ := echoes place name scaled
    cases same
    obtain ⟨_, again, same⟩ := Option.map_eq_some_iff.mp there
    cases same
    obtain ⟨read', behind', rfl, echo'⟩ := echoes later _ again
    obtain ⟨more, rfl⟩ := List.head?_eq_some_iff.mp echo'.starts
    rw [echo.behindFirst_eq behind] at inside
    obtain ⟨front, suffix, -⟩ := mem_of_suffix_append within inside
    rw [← echo.only other (suffix.subset List.mem_cons_self)]
    exact holds

theorem exists_blanks (lexemes : List Lexeme) :
    ∃ gap, lexemes = gap ++ skipBlanks lexemes ∧ ∀ lexeme ∈ gap, lexeme.isBlank = true :=
  ⟨lexemes.takeWhile Lexeme.isBlank, List.takeWhile_append_dropWhile.symm, List.all_eq_true.mp List.all_takeWhile⟩

/-- The names scaled by compound assignments, each match up to its equals sign. -/
def compounds : List Lexeme → List Name :=
  search (fun place => (compoundScaled? place).map (·, behindFirst ['='] place)) 0

/-- The names scaled by assignments to themselves, each match up to the sign that multiplies or divides. -/
def selfScalings : List Lexeme → List Name :=
  search (fun place => (selfScaled? place).map (·, behindFirst ['*', '/'] place)) 0

def values : List Lexeme → List (List Lexeme) :=
  search (fun place => (assignment? place).map fun (_, value) =>
    (value.takeWhile (!endsValue ·), value.dropWhile (!endsValue ·))) 0

theorem word_not_blank {letters : List Char} {gap : List Lexeme} (blank : ∀ lexeme ∈ gap, lexeme.isBlank = true) :
    .word letters ∉ gap := fun member => Bool.false_ne_true (blank _ member)

theorem mark_not_blank {c : Char} {gap : List Lexeme} (blank : ∀ lexeme ∈ gap, lexeme.isBlank = true)
    (visible : Unicode.isBlank c = false) : mark c ∉ gap := fun member => Bool.false_ne_true (visible ▸ blank _ member)

theorem compoundScaled?_echo (place : List Lexeme) (name : Name) (found : compoundScaled? place = some name) :
    ∃ read behind, place = read ++ behind ∧ Echo ['='] name read := by
  unfold compoundScaled? at found
  split at found
  · next target rest =>
    rw [Option.ite_none_right_eq_some, Bool.and_eq_true, startsScaling_iff] at found
    obtain ⟨⟨-, sign, member, behind, scales⟩, same⟩ := found
    cases same
    obtain ⟨gap, whole, blank⟩ := exists_blanks rest
    obtain ⟨operator, rfl, other⟩ : ∃ operator, sign = operator ++ ['='] ∧ '=' ∉ operator := by
      refine ⟨sign.dropLast, ?_⟩
      simp only [List.mem_cons, List.not_mem_nil, or_false] at member
      rcases member with rfl | rfl | rfl | rfl <;> decide
    refine ⟨(.word name :: (gap ++ operator.map mark)) ++ [mark '='], behind, ?_, rfl, ?_, _, '=', by simp, rfl, ?_⟩
    · rw [whole, ← scales]
      simp
    · simp [word_not_blank blank]
    · simp [mark_not_blank blank, other, show Unicode.isBlank '=' = false by decide]
  · cases found

theorem selfScaled?_echo (place : List Lexeme) (name : Name) (found : selfScaled? place = some name) :
    ∃ read behind, place = read ++ behind ∧ Echo ['*', '/'] name read := by
  obtain ⟨value, rest, assigned, again, factor⟩ := selfScaled?_eq_some found
  obtain ⟨behind, rfl, -, sign, -⟩ := assignment?_eq_some assigned
  obtain ⟨gap, whole, blank⟩ := exists_blanks behind
  obtain ⟨gap', whole', blank'⟩ := exists_blanks value
  obtain ⟨gap'', whole'', blank''⟩ := exists_blanks rest
  obtain ⟨c, times, starts⟩ := (startsFactor_iff _).mp factor
  obtain ⟨tail, reads⟩ := List.head?_eq_some_iff.mp starts
  rw [sign] at whole
  rw [again] at whole'
  rw [reads] at whole''
  refine ⟨(.word name :: (gap ++ mark '=' :: (gap' ++ .word name :: gap''))) ++ [mark c], tail, ?_, rfl, ?_, _, c,
    by simpa using times, rfl, ?_⟩
  · rw [whole, whole', whole'']
    simp
  · simp [word_not_blank blank, word_not_blank blank', word_not_blank blank'']
  · intro other listed
    obtain ⟨unblank, different⟩ : Unicode.isBlank other = false ∧ other ≠ '=' := by
      simp only [List.mem_cons, List.not_mem_nil, or_false] at listed
      rcases listed with rfl | rfl <;> decide
    simp [mark_not_blank blank unblank, mark_not_blank blank' unblank, mark_not_blank blank'' unblank, different]

theorem swallows_values (names : List Name) :
    Swallows (fun place => (assignment? place).map fun (_, value) =>
      (value.takeWhile (!endsValue ·), value.dropWhile (!endsValue ·))) (halvesBetween names) := by
  constructor
  · intro place found rest here
    obtain ⟨⟨name, value⟩, assigned, same⟩ := Option.map_eq_some_iff.mp here
    cases same
    obtain ⟨behind, rfl, -, read, -⟩ := assignment?_eq_some assigned
    have skipped : skipBlanks behind <:+ behind := List.dropWhile_suffix _
    rw [read] at skipped
    exact (List.dropWhile_suffix _).trans ((List.suffix_cons _ _).trans skipped)
  · intro place found rest here later other left within inside there holds
    obtain ⟨⟨name, value⟩, assigned, same⟩ := Option.map_eq_some_iff.mp here
    cases same
    obtain ⟨⟨again, longer⟩, assigned', same⟩ := Option.map_eq_some_iff.mp there
    cases same
    obtain ⟨behind, rfl, -, sign, -⟩ := assignment?_eq_some assigned
    obtain ⟨tail, rfl, -⟩ := assignment?_eq_some assigned'
    refine halvesBetween_infix ?_ holds
    rcases List.suffix_cons_iff.mp within with same | within
    · rw [← same] at assigned
      cases assigned.symm.trans assigned'
      exact List.infix_rfl
    -- A word behind the equals sign stands in the value, so what is assigned there ends where the value ends.
    have later : .word again :: tail <:+ value := by
      obtain ⟨gap, whole, blank⟩ := exists_blanks behind
      rw [whole, sign, List.append_cons] at within
      by_contra outside
      obtain ⟨front, suffix, -⟩ := mem_of_suffix_append within outside
      have member := suffix.subset List.mem_cons_self
      simp [word_not_blank blank] at member
    rw [← List.takeWhile_append_dropWhile (p := (!endsValue ·)) (l := value)] at later
    obtain ⟨front, suffix, rfl⟩ := mem_of_suffix_append later inside
    have unended : ∀ lexeme ∈ .word again :: front, (!endsValue lexeme) = true :=
      fun lexeme member => List.all_eq_true.mp List.all_takeWhile lexeme (suffix.subset member)
    have ends : (value.dropWhile (!endsValue ·)).takeWhile (!endsValue ·) = [] :=
      List.takeWhile_eq_nil_iff.mpr (List.dropWhile_get_zero_not _ _)
    have cut := assignment?_takeWhile assigned'
    rw [← List.cons_append, List.takeWhile_append_of_pos unended, ends, List.append_nil] at cut
    exact ((assignment?_suffix cut).trans suffix).isInfix

def searched (names : List Name) (lexemes : List Lexeme) : Bool :=
  (compounds lexemes ++ selfScalings lexemes).any names.contains || (values lexemes).any (halvesBetween names)

theorem rescales_eq_searched (names : List Name) (code : List Char) :
    rescales code names = searched names (Lexeme.ofText code) := by
  rw [Bool.eq_iff_iff, rescales_iff, searched, List.any_append, Bool.or_eq_true, Bool.or_eq_true, compounds, selfScalings,
    values, any_search_iff (swallows_of_echo compoundScaled?_echo _) rfl, any_search_iff (swallows_of_echo selfScaled?_echo _) rfl,
    any_search_iff (swallows_values names) rfl]
  simp only [Option.map_eq_some_iff]
  constructor
  · intro ⟨place, within, evidence⟩
    rcases evidence with scaled | ⟨name, value, assigned, halves⟩
    · rw [rescalesOneOf, Bool.or_eq_true, Option.any_eq_true, Option.any_eq_true] at scaled
      rcases scaled with ⟨name, scaled, listed⟩ | ⟨name, scaled, listed⟩
      · exact .inl (.inl ⟨place, name, _, within, ⟨name, scaled, rfl⟩, listed⟩)
      · exact .inl (.inr ⟨place, name, _, within, ⟨name, scaled, rfl⟩, listed⟩)
    · exact .inr ⟨place, _, _, within, ⟨_, assigned, rfl⟩, halves⟩
  · intro found
    rcases found with (⟨place, _, _, within, ⟨name, scaled, same⟩, listed⟩ | ⟨place, _, _, within, ⟨name, scaled, same⟩, listed⟩) |
      ⟨place, _, _, within, ⟨_, assigned, same⟩, halves⟩
    all_goals cases same; refine ⟨place, within, ?_⟩
    · exact .inl (by rw [rescalesOneOf, scaled, Option.any_some, listed, Bool.true_or])
    · exact .inl (by rw [rescalesOneOf, scaled, Option.any_some, listed, Bool.or_true])
    · exact .inr ⟨_, _, assigned, halves⟩

/-- A text rescales one of the names just if one of the ways to do so stands somewhere in it, and searches that go on behind
each match find it. -/
theorem rescales_iff_rescaled (code : List Char) (names : List Name) :
    (rescales code names = true ↔ Rescaled names code) ∧ rescales code names = searched names (Lexeme.ofText code) :=
  ⟨(rescaled_iff names code).symm, rescales_eq_searched names code⟩

end LoopCost
