import LoopCost.Proofs.Remasking
import Mathlib.Data.List.DropRight

/-! Which quotes separate digits. The reader goes forward and remembers how the token it is in began. The same can be told
by looking back from the quote: a separator stands behind a row of token characters that starts with a digit, and in front
of a letter or a digit. But the row must be code as a whole. A quote that closes a character literal is a token character
too, and what is in front of it belongs to the literal. -/

namespace LoopCost

def Mode.through (mode : Mode) (rest : List Char) : List Char → Mode
  | [] => mode
  | c :: front => (mode.next c (front ++ rest).head?).through rest front

theorem Mode.through_concat (mode : Mode) (c : Char) (rest front : List Char) :
    mode.through rest (front ++ [c]) = (mode.through (c :: rest) front).next c rest.head? := by
  induction front generalizing mode with
  | nil => rfl
  | cons d front ih =>
    have joined : front ++ [c] ++ rest = front ++ c :: rest := List.append_cons front c rest |>.symm
    rw [List.cons_append, Mode.through, ih, Mode.through, joined]

/-- Behind the front, masking goes on in the mode that is reached there. -/
theorem drop_maskFrom (mode : Mode) (front rest : List Char) :
    (maskFrom mode [] (front ++ rest)).drop front.length = maskFrom (mode.through rest front) [] rest := by
  induction front generalizing mode with
  | nil => rfl
  | cons c front ih =>
    rw [List.cons_append, maskFrom_cons, List.length_cons, List.drop_succ_cons, ih, Mode.through]

theorem take_mask_concat (front rest : List Char) (c : Char) :
    (mask (front ++ c :: rest)).take (front ++ [c]).length =
      (mask (front ++ c :: rest)).take front.length ++
        [if ((Mode.code .none).through (c :: rest) front).shows c rest.head? then c else blanked c] := by
  have behind := drop_maskFrom (.code .none) front (c :: rest)
  rw [maskFrom_cons] at behind
  have here : (mask (front ++ c :: rest))[front.length]? =
      some (if ((Mode.code .none).through (c :: rest) front).shows c rest.head? then c else blanked c) := by
    rw [← List.head?_drop, mask, behind]
    rfl
  rw [List.length_append, List.length_singleton, List.take_add_one, here]
  rfl

def tokenRow (front : List Char) : List Char := front.rtakeWhile isTokenChar

/-- What is known of a reader in a mode, where the front as masked is in sight: whether it is in a token, and whether this
is a number. -/
def Mode.Recalls (front masked : List Char) (following : Option Char) : Mode → Prop
  | .code run =>
    (run = .none ↔ tokenRow front = []) ∧
      (run = .number ↔ (tokenRow front).head?.any Unicode.isDigit = true ∧ tokenRow front <:+ masked)
  | .blockClosing => following = some '/'
  | .literal quote _ => quote = '"' ∨ quote = '\''
  | _ => True

theorem tokenRow_concat {c : Char} (token : isTokenChar c = true) (front : List Char) :
    tokenRow (front ++ [c]) = tokenRow front ++ [c] := List.rtakeWhile_concat_pos _ _ _ token

theorem tokenRow_concat_other {c : Char} (other : isTokenChar c = false) (front : List Char) :
    tokenRow (front ++ [c]) = [] := List.rtakeWhile_concat_neg _ _ _ (by simp [other])

/-- Behind a character of no token a reader of code is in none. -/
theorem Mode.recalls_none {c : Char} (other : isTokenChar c = false) (front masked : List Char)
    (following : Option Char) : Mode.Recalls (front ++ [c]) masked following (.code .none) := by
  constructor <;> simp [tokenRow_concat_other other]

/-- A word begins behind the quote that closes a character literal, whatever is in the literal. -/
theorem Mode.recalls_word (front masked : List Char) (following : Option Char) :
    Mode.Recalls (front ++ ['\'']) (masked ++ [blanked '\'']) following (.code .word) := by
  have single : isTokenChar '\'' = true := by decide +kernel
  have hidden : blanked '\'' ≠ '\'' := by decide
  constructor
  · simp [tokenRow_concat single]
  · have apart : ¬ tokenRow front ++ ['\''] <:+ masked ++ [blanked '\''] := by
      intro row
      have single : ['\''].length = [blanked '\''].length := rfl
      have last := (List.suffix_append_inj_of_length_eq single).mp row
      simp [hidden.symm] at last
    simp [tokenRow_concat single, apart]

theorem Mode.recalls_code {run : Run} {front masked : List Char} {c : Char} {following : Option Char}
    (recalls : Mode.Recalls front masked (some c) (.code run)) :
    Mode.Recalls (front ++ [c]) (masked ++ [c]) following (.code (run.next c)) := by
  obtain ⟨outside, number⟩ := recalls
  cases token : isTokenChar c with
  | false =>
    have next : run.next c = .none := by simp [Run.next, token]
    rw [next]
    exact recalls_none token ..
  | true =>
    unfold Recalls
    rw [tokenRow_concat token, List.suffix_append_inj_of_length_eq rfl]
    by_cases starts : run = .none
    · have row : tokenRow front = [] := outside.mp starts
      cases digit : Unicode.isDigit c <;> simp [Run.next, token, starts, row, digit]
    · -- The row goes on as it has begun.
      have row : tokenRow front ≠ [] := mt outside.mpr starts
      have next : run.next c = run := by simp [Run.next, token, starts]
      rw [next, List.head?_append_of_ne_nil _ row]
      simp [starts, number]

/-- What a reader knows it still knows behind the next character. -/
theorem Mode.Recalls.next {mode : Mode} {front masked : List Char} {c : Char}
    (recalls : mode.Recalls front masked (some c)) (following : Option Char) :
    (mode.next c following).Recalls (front ++ [c]) (masked ++ [if mode.shows c following then c else blanked c])
      following := by
  cases hidden : mode.shows c following with
  | true =>
    obtain ⟨run, rfl, stays⟩ := (Mode.shows_iff ..).mp hidden
    rw [stays]
    exact recalls_code recalls
  | false =>
    rw [if_neg Bool.false_ne_true]
    cases mode with
    | code run =>
      cases turned : (Mode.code run).next c following with
      | code run' => simp [Mode.shows, turned] at hidden
      | blockClosing =>
        change Mode.afterCode run c following = _ at turned
        unfold Mode.afterCode at turned
        grind
      | literal quote escaped =>
        change Mode.afterCode run c following = _ at turned
        unfold Mode.afterCode at turned
        unfold Recalls
        grind
      | lineComment | blockOpening | blockComment => trivial
    | lineComment =>
      unfold Mode.next
      dsimp only
      split
      next newline =>
        rw [newline]
        exact recalls_none (by decide +kernel) ..
      next => trivial
    | blockOpening => trivial
    | blockComment =>
      unfold Mode.next
      dsimp only
      split
      next closes => exact closes.2
      next => trivial
    | blockClosing =>
      obtain rfl : c = '/' := Option.some.inj recalls
      exact recalls_none (by decide +kernel) ..
    | literal quote escaped =>
      change Mode.Recalls _ _ _ (Mode.afterLiteral quote escaped c)
      by_cases closes : c = quote ∧ escaped = false
      · obtain ⟨rfl, rfl⟩ := closes
        rcases recalls with rfl | rfl
        · exact recalls_none (by decide +kernel) ..
        · exact recalls_word ..
      · rw [afterLiteral_stays closes]
        exact recalls

theorem recalls_through (front rest : List Char) :
    ((Mode.code .none).through rest front).Recalls front ((mask (front ++ rest)).take front.length) rest.head? := by
  induction front using List.reverseRecOn generalizing rest with
  | nil => simp [Mode.through, Mode.Recalls, tokenRow]
  | append_singleton front c ih =>
    have joined : front ++ [c] ++ rest = front ++ c :: rest := (List.append_cons front c rest).symm
    rw [joined, take_mask_concat, Mode.through_concat]
    exact (ih (c :: rest)).next rest.head?

/-- The letters and digits of numbers and identifiers, and what may stand between the digits of a number. -/
def isNumberChar (c : Char) : Bool := c.isAlphanum || c == '_' || c == '.' || c == '\''

theorem ascii_classes {c : Char} (ascii : c.toNat < 128) :
    isTokenChar c = isNumberChar c ∧ Unicode.isDigit c = c.isDigit ∧ Unicode.isAlphanumeric c = c.isAlphanum := by
  have all : ∀ point : Fin 128, isTokenChar (Char.ofNat point) = isNumberChar (Char.ofNat point) ∧
      Unicode.isDigit (Char.ofNat point) = (Char.ofNat point).isDigit ∧
      Unicode.isAlphanumeric (Char.ofNat point) = (Char.ofNat point).isAlphanum := by decide +kernel
  have this := all ⟨c.toNat, ascii⟩
  rwa [Char.ofNat_toNat] at this

theorem tokenRow_ascii {front : List Char} (ascii : ∀ c ∈ front, c.toNat < 128) :
    tokenRow front = front.rtakeWhile isNumberChar := by
  induction front using List.reverseRecOn with
  | nil => rfl
  | append_singleton front c ih =>
    have earlier : ∀ d ∈ front, d.toNat < 128 := fun d member => ascii d (List.mem_append_left _ member)
    have same := (ascii_classes (ascii c (by simp))).1
    rw [tokenRow, List.rtakeWhile_concat, List.rtakeWhile_concat, ← tokenRow, ih earlier, same]

/-- In ASCII a quote of code passes for a separator exactly where the row of number characters in front of it starts with
a digit and is passed itself, and a letter or a digit follows. -/
theorem separator_iff {front rest : List Char} (ascii : ∀ c ∈ front ++ '\'' :: rest, c.toNat < 128) {run : Run}
    (normal : (Mode.code .none).through ('\'' :: rest) front = .code run) :
    (mask (front ++ '\'' :: rest))[front.length]? = some '\'' ↔
      (∃ digit ∈ (front.rtakeWhile isNumberChar).head?, digit.isDigit = true) ∧
        front.rtakeWhile isNumberChar <:+ (mask (front ++ '\'' :: rest)).take front.length ∧
        ∃ next ∈ rest.head?, next.isAlphanum = true := by
  have recalls := recalls_through front ('\'' :: rest)
  rw [normal] at recalls
  have row : tokenRow front = front.rtakeWhile isNumberChar :=
    tokenRow_ascii fun c member => ascii c (List.mem_append_left _ member)
  have digits : (front.rtakeWhile isNumberChar).head?.any Unicode.isDigit = true ↔
      ∃ digit ∈ (front.rtakeWhile isNumberChar).head?, digit.isDigit = true := by
    rw [Option.any_eq_true]
    refine exists_congr fun digit => and_congr_right fun first => ?_
    have member : digit ∈ front := (List.rtakeWhile_suffix _ _).subset (List.mem_of_head? first)
    rw [(ascii_classes (ascii digit (List.mem_append_left _ member))).2.1]
  have letters : rest.head?.any Unicode.isAlphanumeric = true ↔ ∃ next ∈ rest.head?, next.isAlphanum = true := by
    rw [Option.any_eq_true]
    refine exists_congr fun next => and_congr_right fun first => ?_
    have member : next ∈ rest := List.mem_of_head? first
    rw [(ascii_classes (ascii next (List.mem_append_right _ (List.mem_cons_of_mem _ member)))).2.2]
  have passes : (mask (front ++ '\'' :: rest))[front.length]? = some '\'' ↔ isSeparator run rest.head? = true := by
    have behind := drop_maskFrom (.code .none) front ('\'' :: rest)
    have shown : (Mode.code run).shows '\'' rest.head? = true ↔ isSeparator run rest.head? = true := by
      simp [Mode.shows_iff, Mode.next, Mode.afterCode_eq_code]
    have hidden : blanked '\'' ≠ '\'' := by decide
    rw [normal, maskFrom_cons] at behind
    rw [mask, ← List.head?_drop, behind, ← shown]
    cases (Mode.code run).shows '\'' rest.head? <;> simp [hidden]
  rw [passes, isSeparator, Bool.and_eq_true, beq_iff_eq, recalls.2, row, digits, letters, and_assoc]

theorem ascii_of_all {text : List Char} (all : text.all (·.toNat < 128) = true) : ∀ c ∈ text, c.toNat < 128 := by
  simpa using all

/-- The row goes back to the blank behind the comma; the literal in front of it is no part of it. -/
theorem separator_behind_literal :
    (∀ c ∈ "'\\0', 0x1F".toList ++ '\'' :: "FFu;".toList, c.toNat < 128) ∧
      (Mode.code .none).through ('\'' :: "FFu;".toList) "'\\0', 0x1F".toList = .code .number ∧
      ((mask ("'\\0', 0x1F".toList ++ '\'' :: "FFu;".toList))["'\\0', 0x1F".toList.length]? = some '\'' ↔
        (∃ digit ∈ ("'\\0', 0x1F".toList.rtakeWhile isNumberChar).head?, digit.isDigit = true) ∧
          "'\\0', 0x1F".toList.rtakeWhile isNumberChar <:+
            (mask ("'\\0', 0x1F".toList ++ '\'' :: "FFu;".toList)).take "'\\0', 0x1F".toList.length ∧
          ∃ next ∈ "FFu;".toList.head?, next.isAlphanum = true) := by
  have ascii : ∀ c ∈ "'\\0', 0x1F".toList ++ '\'' :: "FFu;".toList, c.toNat < 128 :=
    ascii_of_all (by decide)
  have normal : (Mode.code .none).through ('\'' :: "FFu;".toList) "'\\0', 0x1F".toList = .code .number := by
    decide +kernel
  exact ⟨ascii, normal, separator_iff ascii normal⟩

/-- The quote that opens the second literal stands behind a zero and a quote of the first one, which look like a number.
It is no separator. -/
theorem literal_behind_literal :
    (∀ c ∈ "'\\0'".toList ++ '\'' :: "a'".toList, c.toNat < 128) ∧
      (Mode.code .none).through ('\'' :: "a'".toList) "'\\0'".toList = .code .word ∧
      (∃ digit ∈ ("'\\0'".toList.rtakeWhile isNumberChar).head?, digit.isDigit = true) ∧
      (∃ next ∈ "a'".toList.head?, next.isAlphanum = true) ∧
      (mask ("'\\0'".toList ++ '\'' :: "a'".toList))["'\\0'".toList.length]? ≠ some '\'' := by
  refine ⟨ascii_of_all (by decide), by decide +kernel, ⟨'0', by decide +kernel, by decide⟩, ⟨'a', by decide, by decide⟩,
    by decide +kernel⟩

end LoopCost
