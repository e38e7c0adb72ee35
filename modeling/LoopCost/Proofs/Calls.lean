import LoopCost.Proofs.Boundary
import LoopCost.Proofs.Spread
import LoopCost.Report.CallCount

/-! Counting calls step by step: the count goes on behind the parenthesis of a call, or else behind one character. Where
no name contains a blank, the number of blanks in a row does not matter, unless an empty name comes too late in the
list. -/

namespace LoopCost

def behindCall? : List Name → List Char → Option (List Char)
  | [], _ => none
  | name :: names, text =>
    match callSpan? text name with
    | some span => some (text.drop span)
    | none => behindCall? names text

theorem callSpan?_eq_some {text : List Char} {name : Name} {span : Nat} (found : callSpan? text name = some span) :
    ∃ blanks after, text = name ++ (blanks ++ '(' :: after) ∧ (∀ c ∈ blanks, Unicode.isBlank c = true) ∧
      span = name.length + blanks.length + 1 := by
  unfold callSpan? at found
  split at found
  · next leads =>
    obtain ⟨rest, rfl⟩ := List.isPrefixOf_iff_prefix.mp leads
    rw [List.drop_left] at found
    dsimp only at found
    split at found
    · next after stops =>
      cases found
      refine ⟨rest.takeWhile Unicode.isBlank, after, ?_, fun c member => List.all_eq_true.mp List.all_takeWhile c member, rfl⟩
      rw [← stops, List.takeWhile_append_dropWhile]
    · cases found
  · cases found

theorem callSpan?_of (name : Name) {blanks : List Char} (blank : ∀ c ∈ blanks, Unicode.isBlank c = true) (after : List Char) :
    callSpan? (name ++ (blanks ++ '(' :: after)) name = some (name.length + blanks.length + 1) := by
  have leads : name.isPrefixOf (name ++ (blanks ++ '(' :: after)) = true :=
    List.isPrefixOf_iff_prefix.mpr (List.prefix_append _ _)
  have visible : Unicode.isBlank '(' = false := by decide
  unfold callSpan?
  rw [if_pos leads, List.drop_left]
  simp [List.dropWhile_append_of_pos blank, List.takeWhile_append_of_pos blank, visible]

theorem drop_call (name blanks after : List Char) :
    (name ++ (blanks ++ '(' :: after)).drop (name.length + blanks.length + 1) = after := by
  have whole : name ++ (blanks ++ '(' :: after) = (name ++ blanks ++ ['(']) ++ after := by simp
  have length : name.length + blanks.length + 1 = (name ++ blanks ++ ['(']).length := by simp [Nat.add_assoc]
  rw [whole, length, List.drop_left]

theorem drop_of_callSpan? {text : List Char} {name : Name} {span : Nat} (found : callSpan? text name = some span) :
    ∃ read, text = (read ++ ['(']) ++ text.drop span ∧ read.length + 1 = span := by
  obtain ⟨blanks, after, rfl, -, rfl⟩ := callSpan?_eq_some found
  exact ⟨name ++ blanks, by rw [drop_call]; simp, by simp⟩

theorem behindCall?_eq_some {names : List Name} {text after : List Char} (found : behindCall? names text = some after) :
    ∃ name ∈ names, ∃ span, callSpan? text name = some span ∧ after = text.drop span := by
  induction names with
  | nil => cases found
  | cons name names ih =>
    unfold behindCall? at found
    split at found
    · next span here =>
      cases found
      exact ⟨name, List.mem_cons_self, span, here, rfl⟩
    · obtain ⟨other, member, rest⟩ := ih found
      exact ⟨other, List.mem_cons_of_mem name member, rest⟩

theorem behindCall?_append {earlier : List Name} {text : List Char} (without : ∀ name ∈ earlier, callSpan? text name = none)
    (later : List Name) : behindCall? (earlier ++ later) text = behindCall? later text := by
  induction earlier with
  | nil => rfl
  | cons name earlier ih =>
    rw [List.cons_append, behindCall?, without name List.mem_cons_self]
    exact ih fun other member => without other (List.mem_cons_of_mem name member)

theorem length_behindCall?_lt {names : List Name} {text after : List Char} (found : behindCall? names text = some after) :
    after.length < text.length := by
  obtain ⟨name, -, span, here, rfl⟩ := behindCall?_eq_some found
  obtain ⟨read, whole, -⟩ := drop_of_callSpan? here
  have length := congrArg List.length whole
  simp only [List.length_append, List.length_singleton] at length
  omega

theorem findSome?_callSpan? (names : List Name) (text : List Char) :
    (names.findSome? (callSpan? text)).map text.drop = behindCall? names text := by
  induction names with
  | nil => rfl
  | cons name names ih =>
    rw [List.findSome?_cons, behindCall?]
    cases callSpan? text name with
    | some span => rfl
    | none => exact ih

/-- The rest of a call is passed over, up to its parenthesis. -/
private theorem callCountFrom_skip (names : List Name) (count : Nat) {c : Char} {read : List Char}
    (ends : (c :: read).getLast? = some '(') (rest : List Char) :
    callCountFrom names count read.length (isWordChar c) (read ++ rest) = callCountFrom names count 0 false rest := by
  induction read generalizing c with
  | nil =>
    obtain rfl := Option.some.inj ends
    rw [isWordChar_sign (by simp)]
    rfl
  | cons d read ih =>
    rw [List.getLast?_cons_cons] at ends
    exact ih ends

theorem callCountFrom_cons (names : List Name) (count : Nat) (c : Char) (rest : List Char) :
    callCountFrom names count 0 false (c :: rest) =
      match behindCall? names (c :: rest) with
      | some after => callCountFrom names (count + 1) 0 false after
      | none => callCountFrom names count 0 (isWordChar c) rest := by
  rw [← findSome?_callSpan?, callCountFrom]
  cases found : names.findSome? (callSpan? (c :: rest)) with
  | none => rfl
  | some span =>
    obtain ⟨name, -, here⟩ := List.exists_of_findSome?_eq_some found
    obtain ⟨read, whole, length⟩ := drop_of_callSpan? here
    obtain ⟨inside, ends, behind⟩ : ∃ inside, read ++ ['('] = c :: inside ∧ rest = inside ++ (c :: rest).drop span := by
      cases read with
      | nil => exact ⟨[], by rw [(List.cons.inj whole).1]; rfl, (List.cons.inj whole).2⟩
      | cons d read => exact ⟨read ++ ['('], by rw [(List.cons.inj whole).1]; rfl, (List.cons.inj whole).2⟩
    have last : (c :: inside).getLast? = some '(' := by rw [← ends, List.getLast?_concat]
    have size : inside.length = span - 1 := by
      have same := congrArg List.length ends
      simp at same
      omega
    have skipped := callCountFrom_skip names (count + 1) last ((c :: rest).drop span)
    rw [← behind, size] at skipped
    exact skipped

/-- In front of a word character's end no call begins. -/
theorem callCountFrom_inWord (names : List Name) (count : Nat) (c : Char) (rest : List Char) :
    callCountFrom names count 0 true (c :: rest) = callCountFrom names count 0 (isWordChar c) rest := rfl

section
variable {names : List Name} (visible : ∀ name ∈ names, ∀ c ∈ name, Unicode.isBlank c = false)
include visible

theorem callSpan?_spread {text text' : List Char} (spread : Spread ' ' text text') {name : Name} (listed : name ∈ names) :
    Option.Rel (Spread ' ') ((callSpan? text name).map text.drop) ((callSpan? text' name).map text'.drop) := by
  have solid : ' ' ∉ name := by
    intro member
    have blank := visible name listed ' ' member
    revert blank
    decide
  cases found : callSpan? text name with
  | some span =>
    obtain ⟨blanks, after, rfl, blank, rfl⟩ := callSpan?_eq_some found
    obtain ⟨rest, rfl, tails⟩ := spread.append_left solid
    obtain ⟨blanks', after', rfl, fronts, backs⟩ := tails.split_left (by decide)
    have found' := callSpan?_of name (fun c member => blank c ((fronts.mem_iff c).mpr member)) after'
    rw [found', Option.map_some, Option.map_some, drop_call, drop_call]
    exact .some backs
  | none =>
    cases found' : callSpan? text' name with
    | none => exact .none
    | some span =>
      obtain ⟨blanks', after', rfl, blank, rfl⟩ := callSpan?_eq_some found'
      obtain ⟨rest, rfl, tails⟩ := spread.append_right solid
      obtain ⟨blanks, after, rfl, fronts, -⟩ := tails.split_right (by decide)
      have again := callSpan?_of name (fun c member => blank c ((fronts.mem_iff c).mp member)) after
      rw [again] at found
      cases found

theorem behindCall?_spread {text text' : List Char} (spread : Spread ' ' text text') :
    Option.Rel (Spread ' ') (behindCall? names text) (behindCall? names text') := by
  induction names with
  | nil => exact .none
  | cons name names ih =>
    have first := callSpan?_spread visible spread List.mem_cons_self
    have others := ih fun other member => visible other (List.mem_cons_of_mem name member)
    unfold behindCall?
    cases here : callSpan? text name with
    | none =>
      rw [here] at first
      cases here' : callSpan? text' name with
      | none => exact others
      | some => rw [here'] at first; cases first
    | some span =>
      rw [here] at first
      cases here' : callSpan? text' name with
      | none => rw [here'] at first; cases first
      | some span' => rw [here'] at first; exact first

/-- A name that is called starts with the parenthesis itself if one comes next, unless it is empty. -/
theorem head?_of_callSpan? {text after : List Char} (next : text.dropWhile Unicode.isBlank = '(' :: after) {name : Name}
    (listed : name ∈ names) (called : ∃ span, callSpan? text name = some span) : name = [] ∨ name.head? = some '(' := by
  obtain ⟨span, found⟩ := called
  obtain ⟨blanks, behind, rfl, -⟩ := callSpan?_eq_some found
  cases name with
  | nil => exact .inl rfl
  | cons c name =>
    have solid := visible _ listed c List.mem_cons_self
    rw [List.cons_append, List.dropWhile_cons_of_neg (by simp [solid])] at next
    exact .inr (congrArg some (List.cons.inj next).1)

/-- Where a parenthesis comes next, the empty name is called unless an earlier one starts with the parenthesis. -/
theorem behindCall?_of_nil (empty : [] ∈ names)
    (ordered : ∀ earlier later, names = earlier ++ [] :: later → ∀ name ∈ earlier, name.head? ≠ some '(')
    {text after : List Char} (next : text.dropWhile Unicode.isBlank = '(' :: after) : behindCall? names text = some after := by
  obtain ⟨earlier, later, whole, first⟩ := List.eq_append_cons_of_mem empty
  have uncalled : ∀ name ∈ earlier, callSpan? text name = none := by
    intro name member
    rw [Option.eq_none_iff_forall_ne_some]
    intro span found
    rcases head?_of_callSpan? visible next (whole ▸ List.mem_append_left _ member) ⟨span, found⟩ with rfl | starts
    · exact first member
    · exact ordered earlier later whole name member starts
  obtain ⟨blanks, blank, rfl⟩ : ∃ blanks, (∀ c ∈ blanks, Unicode.isBlank c = true) ∧ text = [] ++ (blanks ++ '(' :: after) := by
    refine ⟨text.takeWhile Unicode.isBlank, List.all_eq_true.mp List.all_takeWhile, ?_⟩
    rw [← next, List.nil_append, List.takeWhile_append_dropWhile]
  have behind := drop_call [] blanks after
  rw [whole, behindCall?_append uncalled, behindCall?, callSpan?_of [] blank after]
  exact congrArg some behind

/-- A blank in front changes nothing. -/
theorem callCountFrom_space (ordered : ∀ earlier later, names = earlier ++ [] :: later → ∀ name ∈ earlier, name.head? ≠ some '(')
    (count : Nat) (rest : List Char) :
    callCountFrom names count 0 false (' ' :: rest) = callCountFrom names count 0 false rest := by
  have space : Unicode.isBlank ' ' = true := by decide
  rw [callCountFrom_cons]
  cases called : behindCall? names (' ' :: rest) with
  | none => rw [isWordChar_of_isBlank space]
  | some after =>
    obtain ⟨name, listed, span, found, -⟩ := behindCall?_eq_some called
    obtain ⟨blanks, behind, whole, blank, -⟩ := callSpan?_eq_some found
    cases name with
    | cons c name =>
      have solid := visible _ listed c List.mem_cons_self
      rw [← (List.cons.inj whole).1, space] at solid
      cases solid
    | nil =>
      have next : (' ' :: rest).dropWhile Unicode.isBlank = '(' :: behind := by
        rw [whole, List.nil_append, List.dropWhile_append_of_pos blank]
        rfl
      have next' : rest.dropWhile Unicode.isBlank = '(' :: behind := by
        rwa [List.dropWhile_cons_of_pos space] at next
      have here := behindCall?_of_nil visible listed ordered next
      have here' := behindCall?_of_nil visible listed ordered next'
      cases rest with
      | nil => cases next'
      | cons c rest => rw [callCountFrom_cons, here', ← here, called]

/-- Repeated blanks change no count of calls. -/
theorem callCountFrom_spread (ordered : ∀ earlier later, names = earlier ++ [] :: later → ∀ name ∈ earlier, name.head? ≠ some '(')
    {text text' : List Char} (spread : Spread ' ' text text') (count : Nat) (inWord : Bool) :
    callCountFrom names count 0 inWord text = callCountFrom names count 0 inWord text' := by
  induction size : text'.length using Nat.strongRecOn generalizing text text' count inWord with
  | ind size ih =>
    cases spread with
    | nil => rfl
    | @keep c text text' rest =>
      have on := ih text'.length (by simp at size; omega) rest
      cases inWord with
      | true => exact on count (isWordChar c) rfl
      | false =>
        rw [callCountFrom_cons, callCountFrom_cons]
        have behind := behindCall?_spread visible (rest.keep c)
        cases called : behindCall? names (c :: text) with
        | none =>
          rw [called] at behind
          cases called' : behindCall? names (c :: text') with
          | none => exact on count (isWordChar c) rfl
          | some => rw [called'] at behind; cases behind
        | some after =>
          rw [called] at behind
          cases called' : behindCall? names (c :: text') with
          | none => rw [called'] at behind; cases behind
          | some after' =>
            rw [called'] at behind
            cases behind with
            | some spread =>
              have shorter := length_behindCall?_lt called'
              exact ih after'.length (by omega) spread (count + 1) false rfl
    | @more _ text' rest =>
      rw [ih (' ' :: text').length (by simp at size ⊢; omega) rest count inWord rfl]
      cases inWord with
      | true =>
        rw [callCountFrom_inWord, callCountFrom_inWord, isWordChar_of_isBlank (by decide),
          callCountFrom_space visible ordered]
      | false => rw [callCountFrom_space visible ordered count (' ' :: text')]

end

end LoopCost
