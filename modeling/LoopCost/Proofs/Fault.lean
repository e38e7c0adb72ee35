import LoopCost.Proofs.Verdict

/-! What refuses the assessment of a complexity class. Entries are read forgivingly and the operation count has no fault
at any sizes. So besides a class that does not exist only an integer beyond the doubles is refused, as the time limit or
under a name that is not blank, whether the class reads that name or not. -/

namespace LoopCost

theorem bind_eq_error {α β : Type} {first : Except Fault α} {next : α → Except Fault β} {fault : Fault} :
    first >>= next = .error fault ↔
      first = .error fault ∨ ∃ value, first = .ok value ∧ next value = .error fault := by
  cases first <;> simp [bind, Except.bind]

theorem map_eq_ok {α β : Type} {result : Except Fault α} {f : α → β} {value : β} :
    f <$> result = .ok value ↔ ∃ first, result = .ok first ∧ f first = value := by
  cases result <;> simp [Functor.map, Except.map]

theorem map_eq_error {α β : Type} {result : Except Fault α} {f : α → β} {fault : Fault} :
    f <$> result = .error fault ↔ result = .error fault := by
  cases result <;> simp [Functor.map, Except.map]

theorem exists_ok_of_no_error {α : Type} {result : Except Fault α} (never : ∀ fault, result ≠ .error fault) :
    ∃ value, result = .ok value := by
  cases result with
  | error fault => exact absurd rfl (never fault)
  | ok value => exact ⟨value, rfl⟩

theorem ofInteger?_eq_none {value : Int} : ofInteger? value = none ↔ doubleBound ≤ value.natAbs := by
  unfold ofInteger?
  split
  · next huge => exact iff_of_true rfl huge
  · next small => exact iff_of_false nofun small

namespace Entry

def IsHuge (entry : Entry) : Prop := ∃ value : Int, entry = .integer value ∧ doubleBound ≤ value.natAbs

theorem isHuge_integer {value : Int} : (integer value).IsHuge ↔ ofInteger? value = none := by
  rw [ofInteger?_eq_none]
  constructor
  · rintro ⟨_, ⟨⟩, huge⟩
    exact huge
  · exact fun huge => ⟨value, rfl, huge⟩

theorem not_isHuge_text (value : String) : ¬ (text value).IsHuge := by
  rintro ⟨_, ⟨⟩, _⟩

theorem not_isHuge_double (value : Float) : ¬ (double value).IsHuge := by
  rintro ⟨_, ⟨⟩, _⟩

theorem double?_eq_error {entry : Entry} {fault : Fault} :
    entry.double? = .error fault ↔ fault = .integerTooLarge ∧ entry.IsHuge := by
  cases entry with
  | text value => exact iff_of_false nofun fun huge => not_isHuge_text value huge.2
  | double value => exact iff_of_false nofun fun huge => not_isHuge_double value huge.2
  | other => exact iff_of_false nofun fun huge => nomatch huge.2
  | integer value =>
    rw [isHuge_integer]
    dsimp only [double?]
    generalize ofInteger? value = nearest
    cases nearest <;> simp [eq_comm]

theorem amount_eq_error {entry : Entry} {fault : Fault} :
    entry.amount = .error fault ↔ fault = .integerTooLarge ∧ entry.IsHuge := by
  rw [amount, map_eq_error, double?_eq_error]

end Entry

namespace Unicode

theorem upperChar_ne_nil (c : Char) : upperChar c ≠ [] := by
  have filled : ∀ entry ∈ longCapitals, entry.2 ≠ [] := by decide +kernel
  unfold upperChar
  split
  · next capitals found =>
    obtain ⟨before, after, whole, -⟩ := List.lookup_eq_some_iff.mp found
    have member : (c.toNat, capitals) ∈ longCapitals := by simp [whole]
    simpa using filled _ member
  · split <;> simp

theorem upper_eq_nil {text : List Char} : upper text = [] ↔ text = [] := by
  cases text with
  | nil => simp [upper]
  | cons c rest => simp [upper, upperChar_ne_nil]

/-- Nothing is left of a text only if it was blank throughout. -/
theorem trim_eq_nil {text : List Char} : trim text = [] ↔ isBlankText text = true := by
  rw [trim, List.reverse_eq_nil_iff, List.dropWhile_eq_nil_iff, isBlankText, List.all_eq_true]
  constructor
  · intro blank c member
    rw [← List.takeWhile_append_dropWhile (p := isBlank) (l := text)] at member
    rcases List.mem_append.mp member with first | later
    · exact List.all_eq_true.mp List.all_takeWhile c first
    · exact blank c (List.mem_reverse.mpr later)
  · intro blank c member
    exact blank c (List.dropWhile_subset isBlank (List.mem_reverse.mp member))

end Unicode

def readEntry (sizes : Named Float) (entry : String × Entry) : Except Fault (Named Float) :=
  match Unicode.upper (Unicode.trim entry.1.toList) with
  | [] => .ok sizes
  | letters => (fun amount => sizes.put (String.ofList letters) amount) <$> entry.2.amount

theorem normalized_eq (entries : Named Entry) : normalized entries = entries.foldlM readEntry [] := rfl

theorem readEntry_eq_error {sizes : Named Float} {entry : String × Entry} {fault : Fault} :
    readEntry sizes entry = .error fault ↔
      fault = .integerTooLarge ∧ Unicode.isBlankText entry.1.toList = false ∧ entry.2.IsHuge := by
  have blank : Unicode.upper (Unicode.trim entry.1.toList) = [] ↔ Unicode.isBlankText entry.1.toList = true := by
    rw [Unicode.upper_eq_nil, Unicode.trim_eq_nil]
  unfold readEntry
  split
  · next unnamed => simp [blank.mp unnamed]
  · next named => simp [map_eq_error, Entry.amount_eq_error, Bool.eq_false_iff.mpr (named ∘ blank.mpr)]

/-- Entries with a blank name are dropped unread. -/
theorem normalized_eq_error {entries : Named Entry} {fault : Fault} :
    normalized entries = .error fault ↔ fault = .integerTooLarge ∧
      ∃ entry ∈ entries, Unicode.isBlankText entry.1.toList = false ∧ entry.2.IsHuge := by
  rw [normalized_eq]
  generalize ([] : Named Float) = sizes
  induction entries generalizing sizes with
  | nil => simp [pure, Except.pure]
  | cons entry entries ih =>
    rw [List.foldlM_cons, bind_eq_error, readEntry_eq_error]
    simp only [ih]
    constructor
    · rintro (⟨same, refused⟩ | ⟨-, -, same, other, member, refused⟩)
      · exact ⟨same, entry, List.mem_cons_self, refused⟩
      · exact ⟨same, other, List.mem_cons_of_mem entry member, refused⟩
    · rintro ⟨same, other, member, refused⟩
      cases read : readEntry sizes entry with
      | error earlier => exact .inl ⟨same, (readEntry_eq_error.mp read).2⟩
      | ok later =>
        rcases List.mem_cons.mp member with rfl | member
        · exact .inl ⟨same, refused⟩
        · exact .inr ⟨later, rfl, same, other, member, refused⟩

/-- Only zero to a power below zero is no number. -/
theorem power_ok {math : Elementary} {base exponent : Float} (defined : (base == 0) = true → ¬ exponent < 0) :
    ∃ count, power math base exponent = .ok count := by
  unfold power
  split
  · exact ⟨_, rfl⟩
  split
  · exact ⟨_, rfl⟩
  split
  · exact ⟨_, rfl⟩
  split
  · exact ⟨_, rfl⟩
  split
  · exact ⟨_, rfl⟩
  split
  · next zero =>
    rw [if_neg (defined zero)]
    exact ⟨_, rfl⟩
  · exact ⟨_, rfl⟩

def Named.size (sizes : Named Float) (name : String) : Float := ((sizes.lookup name).map usable).getD 0

theorem amountOf_doubles (sizes : Named Float) (name : String) :
    amountOf (sizes.map fun (name, size) => (name, .double size)) name = .ok (sizes.size name) := by
  unfold amountOf Named.size
  induction sizes with
  | nil => rfl
  | cons entry sizes ih =>
    obtain ⟨other, size⟩ := entry
    rw [List.map_cons, List.lookup_cons, List.lookup_cons]
    cases name == other with
    | true => rfl
    | false => exact ih

namespace Preset

theorem find_id (preset : Preset) : find preset.id = .ok preset := by
  cases preset <;> rfl

theorem find_eq_ok {id : String} {preset : Preset} : find id = .ok preset ↔ preset.id = id := by
  constructor
  · intro found
    unfold find ofId? at found
    split at found
    · next listed =>
      cases found
      simpa using List.find?_some listed
    · cases found
  · rintro rfl
    exact preset.find_id

theorem find_eq_error {id : String} {fault : Fault} :
    find id = .error fault ↔ (∀ preset : Preset, preset.id ≠ id) ∧ fault = .unknownPreset id := by
  have listed (preset : Preset) : preset ∈ all := by cases preset <;> decide
  have unknown : ofId? id = none ↔ ∀ preset : Preset, preset.id ≠ id := by
    simp [ofId?, listed]
  rw [← unknown]
  unfold find
  cases ofId? id <;> simp [eq_comm]

theorem cost_ok (math : Elementary) (preset : Preset) (n m : Float) : ∃ count, preset.cost math n m = .ok count := by
  obtain ⟨square, squared⟩ : ∃ count, power math n 2 = .ok count := power_ok fun _ => by decide
  obtain ⟨cube, cubed⟩ : ∃ count, power math n 3 = .ok count := power_ok fun _ => by decide
  obtain ⟨double, doubled⟩ : ∃ count, power math 2 n = .ok count := power_ok fun zero => absurd zero (by decide)
  cases preset with
  | square => exact ⟨square, squared⟩
  | cube => exact ⟨cube, cubed⟩
  | exponential => exact ⟨double, doubled⟩
  | squareLog => exact ⟨square * logSize math n, by rw [cost, squared]; rfl⟩
  | linearExponential => exact ⟨n * double, by rw [cost, doubled]; rfl⟩
  | _ => exact ⟨_, rfl⟩

/-- A size that a class does not look up has no part in its cost. -/
theorem evaluate_doubles (math : Elementary) (preset : Preset) (sizes : Named Float) :
    preset.evaluate math (sizes.map fun (name, size) => (name, .double size)) =
      preset.cost math (sizes.size "N") (sizes.size "M") := by
  unfold evaluate
  rw [amountOf_doubles, amountOf_doubles]
  cases preset <;> rfl

end Preset

namespace Assessment

theorem judge_eq_error {label : String} {count : Float} {timeLimit : Entry} {speed : Float} {fault : Fault} :
    judge label count timeLimit (.double speed) = .error fault ↔ fault = .integerTooLarge ∧ timeLimit.IsHuge := by
  have perSecond : (Speed.double speed).perSecond = .ok speed := rfl
  simp only [judge, perSecond, bind_eq_error, Entry.amount_eq_error]
  simp [pure, Except.pure]

theorem judge_ok (label : String) (count : Float) (timeLimit speed : Float) :
    ∃ assessment, judge label count (.double timeLimit) (.double speed) = .ok assessment := by
  apply exists_ok_of_no_error
  intro fault refused
  exact Entry.not_isHuge_double timeLimit (judge_eq_error.mp refused).2

/-- A class that exists is assessed by its cost at the sizes that the entries come to. -/
theorem ofPreset_id (math : Elementary) (preset : Preset) (entries : Named Entry) (timeLimit : Entry)
    (speed : Speed) :
    ofPreset math preset.id entries timeLimit speed = normalized entries >>= fun sizes =>
      preset.cost math (sizes.size "N") (sizes.size "M") >>= fun count =>
        judge preset.label count timeLimit speed := by
  rw [ofPreset, Preset.find_id]
  simp only [Preset.evaluate_doubles]
  rfl

theorem ofPreset_id_eq_error {math : Elementary} {preset : Preset} {entries : Named Entry} {timeLimit : Entry}
    {speed : Float} {fault : Fault} :
    ofPreset math preset.id entries timeLimit (.double speed) = .error fault ↔ fault = .integerTooLarge ∧
      (timeLimit.IsHuge ∨ ∃ entry ∈ entries, Unicode.isBlankText entry.1.toList = false ∧ entry.2.IsHuge) := by
  have judged (n m : Float) :
      (preset.cost math n m >>= fun count => judge preset.label count timeLimit (.double speed)) = .error fault ↔
        fault = .integerTooLarge ∧ timeLimit.IsHuge := by
    obtain ⟨count, counted⟩ := preset.cost_ok math n m
    rw [counted]
    exact judge_eq_error
  simp only [ofPreset_id, bind_eq_error, normalized_eq_error, judged]
  constructor
  · rintro (⟨same, named⟩ | ⟨-, -, same, huge⟩)
    · exact ⟨same, .inr named⟩
    · exact ⟨same, .inl huge⟩
  · rintro ⟨same, huge | named⟩
    · cases read : normalized entries with
      | error earlier => exact .inl ⟨same, (normalized_eq_error.mp read).2⟩
      | ok sizes => exact .inr ⟨sizes, rfl, same, huge⟩
    · exact .inl ⟨same, named⟩

end Assessment

/-- An assessment is refused for a class that does not exist, and else exactly for an integer beyond the doubles. -/
theorem assessment_refused_iff {math : Elementary} {id : String} {entries : Named Entry} {timeLimit : Entry}
    {speed : Float} {fault : Fault} :
    Assessment.ofPreset math id entries timeLimit (.double speed) = .error fault ↔
      (∀ preset : Preset, preset.id ≠ id) ∧ fault = .unknownPreset id ∨
      (∃ preset : Preset, preset.id = id) ∧ fault = .integerTooLarge ∧
        (timeLimit.IsHuge ∨
          ∃ entry ∈ entries, Unicode.isBlankText entry.1.toList = false ∧ entry.2.IsHuge) := by
  cases found : Preset.find id with
  | ok preset =>
    obtain rfl := Preset.find_eq_ok.mp found
    have listed : ¬ ∀ other : Preset, other.id ≠ preset.id := fun unknown => unknown preset rfl
    rw [Assessment.ofPreset_id_eq_error]
    simp [listed]
  | error refusal =>
    obtain ⟨unknown, rfl⟩ := Preset.find_eq_error.mp found
    rw [Assessment.ofPreset, bind_eq_error, Preset.find_eq_error]
    simp [found, unknown]

/-- The class is known and reads no size, and yet a name beside it makes it fail. -/
theorem unread_integer_refused :
    Preset.constant.id = "O1" ∧
    Assessment.ofPreset .native "O1" [("X", .integer (10 ^ 400))] (.double 2) (.double 100000000) =
      .error .integerTooLarge := by
  have huge : (Entry.integer (10 ^ 400)).IsHuge := ⟨10 ^ 400, rfl, by decide +kernel⟩
  refine ⟨rfl, ?_⟩
  rw [show "O1" = Preset.constant.id from rfl, Assessment.ofPreset_id_eq_error]
  exact ⟨rfl, .inr ⟨("X", .integer (10 ^ 400)), List.mem_cons_self, by decide, huge⟩⟩

end LoopCost
