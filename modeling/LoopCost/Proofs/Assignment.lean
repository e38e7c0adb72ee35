import LoopCost.CommandLine.Run
import LoopCost.Proofs.Fault
import LoopCost.Proofs.Sign
import Mathlib.Data.List.Nodup

/-! Which of several assignments to one variable decides. Values are first gathered by name, where a name that comes
again keeps its place and takes the new value. Only then are names read without regard to case, in the order of those
places. So among the spellings of a variable the one that came up last decides, by the value that it was given last. -/

namespace LoopCost

namespace Named

variable {α : Type}

theorem lookup_cons (name other : String) (value : α) (named : Named α) :
    List.lookup other ((name, value) :: named) = if other = name then some value else List.lookup other named := by
  rw [List.lookup_cons]
  by_cases here : other = name
  · simp [here]
  · simp [here, beq_eq_false_iff_ne.mpr here]

theorem lookup_put (name other : String) (value : α) (named : Named α) :
    (named.put name value).lookup other = if other = name then some value else named.lookup other := by
  induction named with
  | nil => exact lookup_cons name other value []
  | cons entry named ih =>
    obtain ⟨first, old⟩ := entry
    unfold put
    split
    · next same =>
      obtain rfl := beq_iff_eq.mp same
      simp only [lookup_cons]
      by_cases here : other = first <;> simp [here]
    · next differs =>
      have differs : first ≠ name := fun same => differs (beq_iff_eq.mpr same)
      simp only [lookup_cons, ih]
      by_cases here : other = first
      · subst here
        simp [differs]
      · simp [here]

theorem map_fst_put (name : String) (value : α) (named : Named α) :
    (named.put name value).map Prod.fst =
      if name ∈ named.map Prod.fst then named.map Prod.fst else named.map Prod.fst ++ [name] := by
  induction named with
  | nil => rfl
  | cons entry named ih =>
    obtain ⟨first, old⟩ := entry
    unfold put
    split
    · next same =>
      obtain rfl := beq_iff_eq.mp same
      simp
    · next differs =>
      have differs : name ≠ first := fun same => differs (beq_iff_eq.mpr same.symm)
      rw [List.map_cons, ih]
      by_cases listed : name ∈ named.map Prod.fst <;> simp [listed, differs]

theorem ofPairs_append_singleton (pairs : List (String × α)) (name : String) (value : α) :
    ofPairs (pairs ++ [(name, value)]) = (ofPairs pairs).put name value := by
  rw [ofPairs, List.foldl_append]
  rfl

/-- Names stand where they first came up. -/
theorem map_fst_ofPairs (pairs : List (String × α)) :
    (ofPairs pairs).map Prod.fst = (pairs.map Prod.fst).eraseDups := by
  induction pairs using List.reverseRecOn with
  | nil => rfl
  | append_singleton pairs last ih =>
    rw [ofPairs_append_singleton, map_fst_put, ih, List.map_append, List.eraseDups_append]
    by_cases listed : last.1 ∈ pairs.map Prod.fst 
    · simp [listed, List.removeAll]
    · simp [listed, List.removeAll, List.eraseDups_cons]

/-- A name has the value that it was given last. -/
theorem lookup_ofPairs (pairs : List (String × α)) (name : String) :
    (ofPairs pairs).lookup name = pairs.reverse.lookup name := by
  induction pairs using List.reverseRecOn with
  | nil => rfl
  | append_singleton pairs last ih =>
    rw [ofPairs_append_singleton, lookup_put, ih, List.reverse_concat, lookup_cons]

theorem nodup_ofPairs (pairs : List (String × α)) : ((ofPairs pairs).map Prod.fst).Nodup := by
  induction pairs using List.reverseRecOn with
  | nil => exact List.nodup_nil
  | append_singleton pairs last ih =>
    rw [ofPairs_append_singleton, map_fst_put]
    split
    · exact ih
    · next absent => simpa using ih.concat absent

theorem lookup_of_mem {named : Named α} (distinct : (named.map Prod.fst).Nodup) {name : String} {value : α}
    (member : (name, value) ∈ named) : named.lookup name = some value := by
  obtain ⟨before, after, rfl⟩ := List.append_of_mem member
  refine List.lookup_eq_some_iff.mpr ⟨before, after, rfl, ?_⟩
  intro entry earlier
  rw [List.map_append, List.map_cons] at distinct
  have differs := (List.nodup_append.mp distinct).2.2 entry.1 (List.mem_map_of_mem earlier) name List.mem_cons_self
  exact bne_iff_ne.mpr differs.symm

def texts (named : Named String) : Named Entry := named.map fun (name, value) => (name, .text value)

theorem put_texts (name value : String) (named : Named String) :
    named.texts.put name (.text value) = (named.put name value).texts := by
  induction named with
  | nil => rfl
  | cons entry named ih =>
    obtain ⟨first, old⟩ := entry
    unfold texts at ih ⊢
    rw [List.map_cons]
    unfold put
    split
    · rfl
    · rw [ih]
      rfl

theorem ofPairs_texts (pairs : Named String) : ofPairs pairs.texts = (ofPairs pairs).texts := by
  induction pairs using List.reverseRecOn with
  | nil => rfl
  | append_singleton pairs last ih =>
    rw [ofPairs_append_singleton, ← put_texts, ← ih, ← ofPairs_append_singleton]
    simp [texts]

end Named

def spells (key name : String) : Bool :=
  Unicode.upper (Unicode.trim name.toList) == key.toList

def amountOfText (text : String) : Float := ((doubleOfText? text.toList).map usable).getD 0

theorem amount_text (text : String) : (Entry.text text).amount = .ok (amountOfText text) := rfl

theorem readEntry_text (sizes : Named Float) (name value : String) :
    ∃ later, readEntry sizes (name, .text value) = .ok later ∧ ∀ key, key ≠ "" →
      later.lookup key = if spells key name then some (amountOfText value) else sizes.lookup key := by
  unfold readEntry spells
  rw [amount_text]
  split
  · next blank =>
    refine ⟨sizes, rfl, ?_⟩
    intro key named
    have differs : Unicode.upper (Unicode.trim name.toList) ≠ key.toList := by
      intro same
      exact named (String.toList_eq_nil_iff.mp (same.symm.trans blank))
    simp [differs]
  · next named =>
    refine ⟨_, rfl, ?_⟩
    intro key _
    have same : key = String.ofList (Unicode.upper (Unicode.trim name.toList)) ↔
        Unicode.upper (Unicode.trim name.toList) = key.toList := by
      rw [← String.toList_inj, String.toList_ofList, eq_comm]
    simp [Named.lookup_put, same]

/-- Of the names that are spellings of a key the last one decides. -/
theorem normalized_texts (pairs : Named String) :
    ∃ sizes, normalized pairs.texts = .ok sizes ∧ ∀ key, key ≠ "" →
      sizes.lookup key = (pairs.findRev? (spells key ·.1)).map (amountOfText ·.2) := by
  rw [normalized_eq]
  induction pairs using List.reverseRecOn with
  | nil => exact ⟨[], rfl, fun _ _ => rfl⟩
  | append_singleton pairs last ih =>
    obtain ⟨name, value⟩ := last
    obtain ⟨sizes, read, found⟩ := ih
    obtain ⟨later, readLast, foundLast⟩ := readEntry_text sizes name value
    refine ⟨later, ?_, ?_⟩
    · have whole : Named.texts (pairs ++ [(name, value)]) = Named.texts pairs ++ [(name, .text value)] := by
        simp [Named.texts]
      rw [whole, List.foldlM_append, read]
      show readEntry sizes (name, .text value) >>= pure = .ok later
      rw [readLast]
      rfl
    · intro key named
      rw [foundLast key named, found key named]
      simp only [List.findRev?_eq_find?_reverse, List.reverse_concat, List.find?_cons]
      cases spells key name <;> rfl

/-- An argument gives a value to a name: they stand around its first equals sign, with white space around them, and the
name is not blank. -/
def Assigns (argument : String) (assignment : String × String) : Prop :=
  ∃ before after, argument.toList = before ++ '=' :: after ∧ '=' ∉ before ∧ Unicode.isBlankText before = false ∧
    assignment = (String.ofList (Unicode.trim before), String.ofList (Unicode.trim after))

def readAssignment (argument : String) : Except String (String × Entry) :=
  let name := Unicode.trim (argument.toList.takeWhile (· != '='))
  match argument.toList.dropWhile (· != '='), name with
  | _ :: value, _ :: _ => .ok (String.ofList name, .text (String.ofList (Unicode.trim value)))
  | _, _ => .error ("Expected NAME=VALUE, got " ++ quotedText argument)

theorem assignmentsOf_eq_mapM (arguments : List String) :
    assignmentsOf arguments = arguments.mapM readAssignment >>= fun assignments => .ok (Named.ofPairs assignments) :=
  rfl

theorem readAssignment_of {argument : String} {assignment : String × String} (assigns : Assigns argument assignment) :
    readAssignment argument = .ok (assignment.1, .text assignment.2) := by
  obtain ⟨before, after, whole, free, named, rfl⟩ := assigns
  have front : ∀ c ∈ before, (c != '=') = true := by
    intro c member
    exact bne_iff_ne.mpr (ne_of_mem_of_not_mem member free)
  have name : Unicode.trim before ≠ [] := by
    intro blank
    rw [Unicode.trim_eq_nil, named] at blank
    cases blank
  unfold readAssignment
  rw [whole, List.dropWhile_append_of_pos front, List.takeWhile_append_of_pos front]
  simp only [List.dropWhile_cons, List.takeWhile_cons, bne_self_eq_false, Bool.false_eq_true, if_false, List.append_nil]
  split
  · next value _ _ behind _ =>
    cases behind
    rfl
  · next other =>
    obtain ⟨first, rest, name⟩ := List.exists_cons_of_ne_nil name
    cases other _ _ _ _ rfl name

theorem assignmentsOf_ok {arguments : List String} {assignments : Named String}
    (given : List.Forall₂ Assigns arguments assignments) :
    assignmentsOf arguments = .ok (Named.ofPairs assignments).texts := by
  have read : arguments.mapM readAssignment = .ok assignments.texts := by
    induction given with
    | nil => rfl
    | cons assigns _ ih =>
      rw [List.mapM_cons, readAssignment_of assigns, ih]
      rfl
  rw [assignmentsOf_eq_mapM, read, ← Named.ofPairs_texts]
  rfl

/-- The value that a key has in the end: of its spellings the one that came up last counts, and that has the value it
was given last. -/
def decidingValue (key : String) (assignments : Named String) : Option String :=
  ((assignments.map Prod.fst).eraseDups.findRev? (spells key)).bind fun name => assignments.reverse.lookup name

theorem decidingValue_eq (key : String) (assignments : Named String) :
    decidingValue key assignments = ((Named.ofPairs assignments).findRev? (spells key ·.1)).map Prod.snd := by
  unfold decidingValue
  rw [← Named.map_fst_ofPairs]
  simp only [← Named.lookup_ofPairs, List.findRev?_eq_find?_reverse, ← List.map_reverse, List.find?_map]
  cases found : (Named.ofPairs assignments).reverse.find? (spells key ·.1) with
  | none => simp [found]
  | some entry =>
    have member : entry ∈ Named.ofPairs assignments := by simpa using List.mem_of_find?_eq_some found
    simp [found, Named.lookup_of_mem (Named.nodup_ofPairs assignments) member]

/-- The last assignment to a key decides if no other spelling came up after its own. -/
theorem decidingValue_eq_last {key : String} {assignments : Named String}
    (latest : (assignments.map Prod.fst).eraseDups.findRev? (spells key) =
      (assignments.map Prod.fst).findRev? (spells key)) :
    decidingValue key assignments = (assignments.findRev? (spells key ·.1)).map Prod.snd := by
  unfold decidingValue
  rw [latest]
  simp only [List.findRev?_eq_find?_reverse, ← List.map_reverse, List.find?_map]
  cases found : assignments.reverse.find? (spells key ·.1) with
  | none => simp [found]
  | some assignment =>
    obtain ⟨spelled, behind, front, whole, others⟩ := List.find?_eq_some_iff_append.mp found
    have given : assignments.reverse.lookup assignment.1 = some assignment.2 := by
      refine List.lookup_eq_some_iff.mpr ⟨behind, front, whole, ?_⟩
      intro other member
      apply bne_iff_ne.mpr
      intro same
      have differs := others other member
      rw [← same, spelled] at differs
      cases differs
    simp [found, given]

theorem usable_usable (x : Float) : usable (usable x) = usable x :=
  usable_of_nonneg (isFinite_usable x) (nonneg_usable x)

theorem usable_amountOfText (text : String) : usable (amountOfText text) = amountOfText text := by
  unfold amountOfText
  cases doubleOfText? text.toList with
  | none => rfl
  | some x => exact usable_usable x

def checkEvents (entries : Named Entry) (assessment : Assessment) : List Event :=
  let verdict := assessment.verdict
  [.properties ("Feasibility: " ++ assessment.label)
    (entries.map (fun (name, entry) =>
      ["Variable " ++ String.ofList (Unicode.upper (Unicode.trim name.toList)), entry.shown]) ++ [
      ["Estimated ops", countText assessment.count],
      ["Budget ops", countText assessment.budget],
      ["Verdict", "[" ++ verdict.style ++ "]" ++ verdict.label ++ "[/" ++ verdict.style ++ "]"]]),
    .text assessment.summary]

theorem runCheck_eq {math : Elementary} {settings : Settings} {preset : Preset} {assignments : List String}
    {timeLimit : Option Float} {given : Named Entry} (read : assignmentsOf assignments = .ok given) :
    runCheck math settings preset assignments timeLimit = do
      let entries := if given.isEmpty then [("N", settings.size), ("M", settings.size)] else given
      let limit := Entry.double (timeLimit.getD settings.timeLimit)
      let assessment ← Assessment.ofPreset math preset.id entries limit (.double settings.speed)
      return .done (checkEvents entries assessment) := by
  unfold runCheck
  rw [read]
  rfl

theorem texts_ofPairs_ne_nil {arguments : List String} {assignments : Named String} (some : arguments ≠ [])
    (given : List.Forall₂ Assigns arguments assignments) : (Named.ofPairs assignments).texts.isEmpty = false := by
  cases given with
  | nil => exact absurd rfl some
  | @cons argument assignment arguments assignments =>
    have names := Named.map_fst_ofPairs (assignment :: assignments)
    rw [List.map_cons, List.eraseDups_cons] at names
    cases gathered : Named.ofPairs (assignment :: assignments) with
    | nil => simp [gathered] at names
    | cons => rfl

/-- A check assesses its class at the deciding values and shows every name with the value that it was given last. The
last assignment to a key decides wherever no other spelling of it came up after its own. -/
theorem check_by_latest_spelling (math : Elementary) (settings : Settings) (preset : Preset) (timeLimit : Option Float)
    {arguments : List String} {assignments : Named String} (some : arguments ≠ [])
    (given : List.Forall₂ Assigns arguments assignments) :
    (∃ count assessment,
      preset.cost math (((decidingValue "N" assignments).map amountOfText).getD 0)
        (((decidingValue "M" assignments).map amountOfText).getD 0) = .ok count ∧
      Assessment.judge preset.label count (.double (timeLimit.getD settings.timeLimit)) (.double settings.speed) =
        .ok assessment ∧
      runCheck math settings preset arguments timeLimit =
        .ok (.done (checkEvents (Named.ofPairs assignments).texts assessment))) ∧
    ∀ key, (assignments.map Prod.fst).eraseDups.findRev? (spells key) =
        (assignments.map Prod.fst).findRev? (spells key) →
      decidingValue key assignments = (assignments.findRev? (spells key ·.1)).map Prod.snd := by
  refine ⟨?_, fun key => decidingValue_eq_last⟩
  obtain ⟨sizes, read, found⟩ := normalized_texts (Named.ofPairs assignments)
  have size (key : String) (named : key ≠ "") :
      sizes.size key = ((decidingValue key assignments).map amountOfText).getD 0 := by
    rw [Named.size, found key named, decidingValue_eq]
    simp [Function.comp_def, usable_amountOfText]
  rw [← size "N" (by decide), ← size "M" (by decide)]
  obtain ⟨count, counted⟩ := preset.cost_ok math (sizes.size "N") (sizes.size "M")
  obtain ⟨assessment, judged⟩ :=
    Assessment.judge_ok preset.label count (timeLimit.getD settings.timeLimit) settings.speed
  refine ⟨count, assessment, counted, judged, ?_⟩
  rw [runCheck_eq (assignmentsOf_ok given), texts_ofPairs_ne_nil some given]
  simp only [Bool.false_eq_true, if_false, Assessment.ofPreset_id, read, bind, Except.bind, counted, judged]
  rfl

theorem check_by_latest_spelling_respelled :
    ["N=1", " n = 2 ", "N=3"] ≠ [] ∧
    List.Forall₂ Assigns ["N=1", " n = 2 ", "N=3"] [("N", "1"), ("n", "2"), ("N", "3")] ∧
    ∃ count assessment,
      Preset.linear.cost .native (amountOfText "2") 0 = .ok count ∧
      Assessment.judge Preset.linear.label count (.double 2) (.double 100000000) = .ok assessment ∧
      runCheck .native {} .linear ["N=1", " n = 2 ", "N=3"] none =
        .ok (.done (checkEvents [("N", .text "3"), ("n", .text "2")] assessment)) := by
  have some : ["N=1", " n = 2 ", "N=3"] ≠ [] := by decide
  have given : List.Forall₂ Assigns ["N=1", " n = 2 ", "N=3"] [("N", "1"), ("n", "2"), ("N", "3")] :=
    .cons ⟨['N'], ['1'], by decide, by decide, by decide, by decide⟩
      (.cons ⟨[' ', 'n', ' '], [' ', '2', ' '], by decide, by decide, by decide, by decide⟩
        (.cons ⟨['N'], ['3'], by decide, by decide, by decide, by decide⟩ .nil))
  have deciding : decidingValue "N" [("N", "1"), ("n", "2"), ("N", "3")] = Option.some "2" ∧
      decidingValue "M" [("N", "1"), ("n", "2"), ("N", "3")] = none := by decide +kernel
  obtain ⟨⟨count, assessment, counted, judged, shown⟩, -⟩ :=
    check_by_latest_spelling .native {} .linear none some given
  rw [deciding.1, deciding.2] at counted
  exact ⟨some, given, count, assessment, counted, judged, shown⟩

/-- Here the last value stands under a spelling that another one came up after. -/
theorem last_value_passed_over :
    ([("N", "1"), ("n", "2"), ("N", "3")].findRev? (spells "N" ·.1)).map Prod.snd = some "3" ∧
    (runCheck .native {} .linear ["N=1", "n=2", "N=3"] none).toOption.map (fun result => result.events.any
      fun event => match event with | .text line => line == "O(N) -> ~2 OK" | _ => false) = some true := by
  decide +kernel

end LoopCost
