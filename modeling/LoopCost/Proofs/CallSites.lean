import LoopCost.Proofs.Calls
import LoopCost.Proofs.Words
import Mathlib.Data.Set.Card

/-! Calls counted by the places where they stand. Where the names are words, the count is the number of runs of the text
that are one of the names and have an opening parenthesis behind them, whatever the order of the names. -/

namespace LoopCost

/-- A run that is one of the names begins between the two texts, and a parenthesis opens behind it. -/
def CallHere (names : List Name) (front text : List Char) : Prop :=
  ∃ name ∈ names, ∃ back, text = name ++ back ∧ IsRun front name back ∧ (back.dropWhile Unicode.isBlank).head? = some '('

def callSitesFrom (names : List Name) (front text : List Char) : Set Nat :=
  {offset | CallHere names (front ++ text.take offset) (text.drop offset)}

def callSites (names : List Name) (text : List Char) : Set Nat := callSitesFrom names [] text

theorem callHere_congr {names others : List Name} (same : ∀ name, name ∈ others ↔ name ∈ names) (front text : List Char) :
    CallHere others front text ↔ CallHere names front text := by
  simp only [CallHere, same]

theorem callSitesFrom_nil (names : List Name) (front : List Char) : callSitesFrom names front [] = ∅ := by
  rw [Set.eq_empty_iff_forall_notMem]
  intro offset ⟨name, _, back, whole, run, _⟩
  rw [List.drop_nil] at whole
  exact run.nonempty (List.append_eq_nil_iff.mp whole.symm).1

theorem callSitesFrom_cons (names : List Name) (front : List Char) (c : Char) (rest : List Char) :
    callSitesFrom names front (c :: rest) =
      {offset | offset = 0 ∧ CallHere names front (c :: rest)} ∪ Nat.succ '' callSitesFrom names (front ++ [c]) rest := by
  ext offset
  cases offset with
  | zero => simp [callSitesFrom]
  | succ offset => simp [callSitesFrom]

theorem encard_of_call {names : List Name} {front : List Char} {c : Char} {rest : List Char}
    (here : CallHere names front (c :: rest)) :
    (callSitesFrom names front (c :: rest)).encard = (callSitesFrom names (front ++ [c]) rest).encard + 1 := by
  have first : {offset | offset = 0 ∧ CallHere names front (c :: rest)} = {0} := by simp [here]
  rw [callSitesFrom_cons, first, Set.singleton_union, Set.encard_insert_of_notMem (by simp),
    Nat.succ_injective.encard_image]

theorem encard_of_no_call {names : List Name} {front : List Char} {c : Char} {rest : List Char}
    (no : ¬ CallHere names front (c :: rest)) :
    (callSitesFrom names front (c :: rest)).encard = (callSitesFrom names (front ++ [c]) rest).encard := by
  have first : {offset | offset = 0 ∧ CallHere names front (c :: rest)} = ∅ := by simp [no]
  rw [callSitesFrom_cons, first, Set.empty_union, Nat.succ_injective.encard_image]

/-- No call begins behind a word character. -/
theorem not_callHere_inWord {names : List Name} {front text : List Char}
    (inWord : front.getLast?.any isWordChar = true) : ¬ CallHere names front text := by
  intro ⟨name, _, back, _, run, _⟩
  obtain ⟨last, ends, letter⟩ := (Option.any_eq_true _ _).mp inWord
  rw [run.starts last ends] at letter
  cases letter

/-- No call begins with what is not a word character. -/
theorem not_callHere_unlettered {names : List Name} {front rest : List Char} {c : Char} (unlettered : isWordChar c = false) :
    ¬ CallHere names front (c :: rest) := by
  intro ⟨name, _, back, whole, run, _⟩
  obtain ⟨first, more, rfl⟩ := List.exists_cons_of_ne_nil run.nonempty
  have letter := run.letters first List.mem_cons_self
  rw [← (List.cons.inj whole).1, unlettered] at letter
  cases letter

theorem encard_behind_letters (names : List Name) {front letters : List Char} (inWord : front.getLast?.any isWordChar = true)
    (word : ∀ c ∈ letters, isWordChar c = true) (rest : List Char) :
    (callSitesFrom names front (letters ++ rest)).encard = (callSitesFrom names (front ++ letters) rest).encard := by
  induction letters generalizing front with
  | nil => simp
  | cons c letters ih =>
    have inWord' : (front ++ [c]).getLast?.any isWordChar = true := by simpa using word c List.mem_cons_self
    have later := ih inWord' fun d member => word d (List.mem_cons_of_mem c member)
    rw [List.cons_append, encard_of_no_call (not_callHere_inWord inWord), later, List.append_assoc, List.singleton_append]

theorem encard_behind_signs (names : List Name) (front : List Char) {signs : List Char}
    (unlettered : ∀ c ∈ signs, isWordChar c = false) (rest : List Char) :
    (callSitesFrom names front (signs ++ rest)).encard = (callSitesFrom names (front ++ signs) rest).encard := by
  induction signs generalizing front with
  | nil => simp
  | cons c signs ih =>
    have later := ih (front ++ [c]) fun d member => unlettered d (List.mem_cons_of_mem c member)
    rw [List.cons_append, encard_of_no_call (not_callHere_unlettered (unlettered c List.mem_cons_self)), later,
      List.append_assoc, List.singleton_append]

theorem behindCall?_of_callHere {names : List Name} {front text : List Char} (here : CallHere names front text) :
    ∃ after, behindCall? names text = some after := by
  obtain ⟨name, listed, back, rfl, -, opens⟩ := here
  obtain ⟨after, stops⟩ := List.head?_eq_some_iff.mp opens
  have blank : ∀ c ∈ back.takeWhile Unicode.isBlank, Unicode.isBlank c = true := List.all_eq_true.mp List.all_takeWhile
  have found := callSpan?_of name blank after
  rw [← stops, List.takeWhile_append_dropWhile] at found
  have some_call : (names.findSome? (callSpan? (name ++ back))).isSome = true :=
    List.findSome?_isSome_iff.mpr ⟨name, listed, by rw [found]; rfl⟩
  rw [← Option.isSome_iff_exists, ← findSome?_callSpan?, Option.isSome_map]
  exact some_call

section
variable {names : List Name} (words : ∀ name ∈ names, name ≠ [] ∧ ∀ c ∈ name, isWordChar c = true)
include words

/-- What is read as a call at the head of a text is a call by its place as well. -/
theorem callHere_of_behindCall? {front text after : List Char} (outside : front.getLast?.any isWordChar = false)
    (called : behindCall? names text = some after) :
    ∃ name blanks, text = name ++ (blanks ++ ['('] ++ after) ∧ name ≠ [] ∧ (∀ c ∈ name, isWordChar c = true) ∧
      (∀ c ∈ blanks ++ ['('], isWordChar c = false) ∧ CallHere names front text := by
  obtain ⟨name, listed, span, found, rfl⟩ := behindCall?_eq_some called
  obtain ⟨blanks, after, rfl, blank, rfl⟩ := callSpan?_eq_some found
  obtain ⟨nonempty, letters⟩ := words name listed
  have signs : ∀ c ∈ blanks ++ ['('], isWordChar c = false := by
    intro c member
    rcases List.mem_append.mp member with member | member
    · exact isWordChar_of_isBlank (blank c member)
    · exact isWordChar_sign (by simp [List.mem_singleton.mp member])
  have run : IsRun front name (blanks ++ '(' :: after) := by
    refine ⟨nonempty, letters, ?_, ?_⟩
    · intro last ends
      rw [Option.mem_def.mp ends] at outside
      exact outside
    · intro first begins
      apply signs
      rw [List.append_cons, List.head?_append_of_ne_nil _ (by simp)] at begins
      exact List.mem_of_head? begins
  rw [drop_call]
  refine ⟨name, blanks, by simp, nonempty, letters, signs, name, listed, _, rfl, run, ?_⟩
  rw [List.dropWhile_append_of_pos blank]
  rfl

theorem callCountFrom_eq_encard (text front : List Char) (count : Nat) :
    (callCountFrom names count 0 (front.getLast?.any isWordChar) text : ℕ∞) =
      count + (callSitesFrom names front text).encard := by
  induction size : text.length using Nat.strongRecOn generalizing text front count with
  | ind size ih =>
    cases text with
    | nil => simp [callCountFrom, callSitesFrom_nil]
    | cons c rest =>
      have step := ih rest.length (by simp at size; omega) rest (front ++ [c]) count rfl
      rw [List.getLast?_concat, Option.any_some] at step
      cases inWord : front.getLast?.any isWordChar with
      | true =>
        rw [callCountFrom_inWord, step, encard_of_no_call (not_callHere_inWord inWord)]
      | false =>
        rw [callCountFrom_cons]
        cases called : behindCall? names (c :: rest) with
        | none =>
          dsimp only
          rw [step, encard_of_no_call]
          intro here
          obtain ⟨after, found⟩ := behindCall?_of_callHere here
          rw [called] at found
          cases found
        | some after =>
          obtain ⟨name, blanks, whole, nonempty, letters, signs, here⟩ := callHere_of_behindCall? words inWord called
          obtain ⟨first, more, rfl⟩ := List.exists_cons_of_ne_nil nonempty
          obtain ⟨rfl, rfl⟩ := List.cons.inj whole
          have behind := ih after.length (by simp at size; omega) after (front ++ [c] ++ more ++ (blanks ++ ['('])) (count + 1) rfl
          rw [List.getLast?_append_of_ne_nil _ (by simp), List.getLast?_concat, Option.any_some,
            signs '(' (by simp)] at behind
          have word : (front ++ [c]).getLast?.any isWordChar = true := by simpa using letters c List.mem_cons_self
          dsimp only
          rw [behind, encard_of_call here, List.append_eq,
            encard_behind_letters names word fun d member => letters d (List.mem_cons_of_mem c member),
            encard_behind_signs names _ signs, Nat.cast_add, add_right_comm, add_assoc]
          rfl

end

/-- The word that begins at an offset is the run there, so no two names are called at one place. -/
theorem not_mem_callSites {names others : List Name} (apart : names.Disjoint others) {text : List Char} {offset : Nat}
    (site : offset ∈ callSites names text) : offset ∉ callSites others text := by
  intro site'
  obtain ⟨name, listed, back, whole, run, -⟩ := site
  obtain ⟨other, listed', back', whole', run', -⟩ := site'
  have same : name = other := by rw [← run.takeWhile_eq, ← whole, whole', run'.takeWhile_eq]
  exact apart listed (same ▸ listed')

theorem callSites_append (names others : List Name) (text : List Char) :
    callSites (names ++ others) text = callSites names text ∪ callSites others text := by
  ext offset
  simp only [callSites, callSitesFrom, CallHere, Set.mem_ofPred_eq, Set.mem_union, List.mem_append, or_and_right, exists_or]

/-- Calls of names that are words are counted by their places, so neither the order of the names counts nor how often they
are listed, and the counts of names that are listed apart add up. -/
theorem callCount_eq_encard {names : List Name} (words : ∀ name ∈ names, name ≠ [] ∧ ∀ c ∈ name, isWordChar c = true)
    (text : List Char) :
    (callCount names text : ℕ∞) = (callSites names text).encard ∧
      (∀ others : List Name, (∀ name, name ∈ others ↔ name ∈ names) → callCount others text = callCount names text) ∧
      ∀ others : List Name, (∀ name ∈ others, name ≠ [] ∧ ∀ c ∈ name, isWordChar c = true) → names.Disjoint others →
        callCount (names ++ others) text = callCount names text + callCount others text := by
  have counted {names : List Name} (words : ∀ name ∈ names, name ≠ [] ∧ ∀ c ∈ name, isWordChar c = true) :
      (callCount names text : ℕ∞) = (callSites names text).encard := by
    have count := callCountFrom_eq_encard words text [] 0
    rwa [Nat.cast_zero, zero_add] at count
  refine ⟨counted words, ?_, ?_⟩
  · intro others same
    rw [← Nat.cast_inj (R := ℕ∞), counted words, counted fun name listed => words name ((same name).mp listed)]
    simp only [callSites, callSitesFrom, callHere_congr same]
  · intro others words' apart
    have all : ∀ name ∈ names ++ others, name ≠ [] ∧ ∀ c ∈ name, isWordChar c = true := by
      intro name listed
      exact (List.mem_append.mp listed).elim (words name) (words' name)
    rw [← Nat.cast_inj (R := ℕ∞), Nat.cast_add, counted words, counted words', counted all, callSites_append,
      Set.encard_union_eq (Set.disjoint_left.mpr fun offset => not_mem_callSites apart)]

/-- One name may start like the other, and the call of one may stand inside that of the other. -/
theorem callCount_of_sort_and_sorted :
    (∀ name ∈ ["sort".toList], name ≠ [] ∧ ∀ c ∈ name, isWordChar c = true) ∧
      callCount ["sort".toList, "sorted".toList] "sort(sorted (v), sorting(v))".toList =
        callCount ["sort".toList] "sort(sorted (v), sorting(v))".toList +
          callCount ["sorted".toList] "sort(sorted (v), sorting(v))".toList := by
  have words : ∀ name ∈ ["sort".toList], name ≠ [] ∧ ∀ c ∈ name, isWordChar c = true := by
    intro name listed
    obtain rfl := List.mem_singleton.mp listed
    exact ⟨by decide, List.all_eq_true.mp (by decide +kernel)⟩
  have words' : ∀ name ∈ ["sorted".toList], name ≠ [] ∧ ∀ c ∈ name, isWordChar c = true := by
    intro name listed
    obtain rfl := List.mem_singleton.mp listed
    exact ⟨by decide, List.all_eq_true.mp (by decide +kernel)⟩
  exact ⟨words, (callCount_eq_encard words _).2.2 ["sorted".toList] words' (by simp)⟩

end LoopCost
