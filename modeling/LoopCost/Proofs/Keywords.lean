import LoopCost.Proofs.Entry
import LoopCost.Report.Basic

/-! Each loop has a keyword of its own in the text. The keywords of the loops, in the order of the statement tree, are
some of the words `for`, `while` and `do` of the text in this order; so what stands in a comment, in a literal or in a
longer word makes no loop. No loop adds to both depths, and so they are never more than the loops together. -/

namespace LoopCost

/-- The maximal runs of word characters that are the keyword of a loop, in order. -/
def loopWords (text : List Char) : List (List Char) :=
  (text.splitOnP fun c => !isWordChar c).filter (["for", "while", "do"].map String.toList).contains

theorem loopWords_nil : loopWords [] = [] := rfl

/-- A character outside of words belongs to no run on either side. -/
theorem loopWords_append_mark {stop : Char} (unlettered : isWordChar stop = false) (front back : List Char) :
    loopWords (front ++ stop :: back) = loopWords front ++ loopWords back := by
  unfold loopWords
  rw [List.splitOnP_append_cons front back (by simp [unlettered]), List.filter_append]

theorem loopWords_append {front back : List Char} (cut : Cut front back) :
    loopWords (front ++ back) = loopWords front ++ loopWords back := by
  rcases List.eq_nil_or_concat front with rfl | ⟨front, last, rfl⟩
  · rw [loopWords_nil, List.nil_append, List.nil_append]
  cases back with
  | nil => rw [loopWords_nil, List.append_nil, List.append_nil]
  | cons first back =>
    by_cases letter : isWordChar last = true
    · have unlettered : isWordChar first = false := cut last (by simp) first rfl letter
      have alone := loopWords_append_mark unlettered [] back
      rw [List.nil_append, loopWords_nil, List.nil_append] at alone
      rw [loopWords_append_mark unlettered, alone]
    · have unlettered : isWordChar last = false := Bool.eq_false_iff.mpr letter
      have alone := loopWords_append_mark unlettered front []
      rw [loopWords_nil, List.append_nil] at alone
      rw [List.concat_eq_append, List.append_assoc, List.singleton_append, loopWords_append_mark unlettered, alone]

theorem loopWords_word {word : List Char} (letters : ∀ c ∈ word, isWordChar c = true)
    (keyword : word ∈ ["for", "while", "do"].map String.toList) : loopWords word = [word] := by
  unfold loopWords
  rw [List.splitOnP_eq_singleton (by simpa using letters)]
  simp only [List.filter_cons, List.contains_iff_mem, keyword, if_true, List.filter_nil]

def LoopHead.word : LoopHead → List Char
  | forHead _ => "for".toList
  | whileHead _ => "while".toList
  | doHead => "do".toList

theorem LoopHead.word_mem (head : LoopHead) : head.word ∈ ["for", "while", "do"].map String.toList := by
  cases head <;> simp [word]

namespace Tree

mutual

def keywords : Tree → List (List Char)
  | blank => []
  | simple _ => []
  | block statements => keywordsOf statements
  | bodied _ statements => keywordsOf statements
  | loop head body => head.word :: body.keywords
  | branch body => body.keywords
  | choice body otherwise => body.keywords ++ otherwise.keywords

def keywordsOf : List Tree → List (List Char)
  | [] => []
  | tree :: trees => tree.keywords ++ keywordsOf trees

end

mutual

theorem length_keywords (tree : Tree) : tree.keywords.length = tree.loops := by
  match tree with
  | blank | simple _ => rfl
  | block statements | bodied _ statements => exact length_keywordsOf statements
  | branch body => exact length_keywords body
  | choice body otherwise =>
    rw [keywords, loops, List.length_append, length_keywords body, length_keywords otherwise]
  | loop head body => rw [keywords, loops, List.length_cons, length_keywords body]
termination_by structural tree

theorem length_keywordsOf (trees : List Tree) : (keywordsOf trees).length = loopsOf trees := by
  match trees with
  | [] => rfl
  | tree :: trees => rw [keywordsOf, loopsOf, List.length_append, length_keywords tree, length_keywordsOf trees]
termination_by structural trees

end

mutual

/-- The two depths may come from different nests, but no loop is part of both. -/
theorem deepest_add_deepest_le (tree : Tree) :
    tree.deepest .linear 0 + tree.deepest .logarithmic 0 ≤ tree.loops := by
  match tree with
  | blank | simple _ => exact Nat.le_refl 0
  | block statements | bodied _ statements => exact deepestOf_add_deepestOf_le statements
  | branch body => exact deepest_add_deepest_le body
  | choice body otherwise =>
    have first := deepest_add_deepest_le body
    have second := deepest_add_deepest_le otherwise
    simp only [deepest, loops]
    omega
  | loop head body =>
    have inside := deepest_add_deepest_le body
    simp only [deepest, loops]
    rw [deepest_eq_add .linear, deepest_eq_add .logarithmic]
    cases head.growth body.own <;> simp <;> omega
termination_by structural tree

theorem deepestOf_add_deepestOf_le (trees : List Tree) :
    deepestOf .linear 0 trees + deepestOf .logarithmic 0 trees ≤ loopsOf trees := by
  match trees with
  | [] => exact Nat.le_refl 0
  | tree :: trees =>
    have first := deepest_add_deepest_le tree
    have others := deepestOf_add_deepestOf_le trees
    simp only [deepestOf, loopsOf]
    omega
termination_by structural trees

end

end Tree

namespace Place

/-- From one place to the other these keywords are read in this order, whatever else is. -/
structure Spells (place : Place) (keywords : List (List Char)) (rest : Place) : Prop where
  leads : place.Leads rest
  sublist : (keywords ++ loopWords (plain rest)).Sublist (loopWords (plain place))

theorem Leads.spells {place rest : Place} (leads : place.Leads rest) : place.Spells [] rest := by
  obtain ⟨read, rfl, cut⟩ := leads
  refine ⟨⟨read, rfl, cut⟩, ?_⟩
  rw [plain_append, loopWords_append cut]
  exact List.sublist_append_right _ _

theorem Spells.trans {place middle rest : Place} {keywords more : List (List Char)}
    (first : place.Spells keywords middle) (second : middle.Spells more rest) : place.Spells (keywords ++ more) rest := by
  refine ⟨first.leads.trans second.leads, ?_⟩
  rw [List.append_assoc]
  exact (second.sublist.append_left keywords).trans first.sublist

/-- A loop is read behind its keyword. -/
theorem spells_head {place : Place} (head : LoopHead) (word : place.readWord.1 = head.word) :
    place.Spells [head.word] place.readWord.2 := by
  have leads := place.leads_readWord
  refine ⟨leads, ?_⟩
  obtain ⟨read, whole, cut⟩ := leads
  have taken : read = place.takeWhile (isWordChar ·.char) := by
    have same : place.takeWhile (isWordChar ·.char) ++ place.readWord.2 = place := List.takeWhile_append_dropWhile
    exact List.append_cancel_right (whole.symm.trans same.symm)
  have spelled : plain read = head.word := by rw [taken]; exact word
  have letters : ∀ c ∈ head.word, isWordChar c = true := by
    rw [← spelled, taken]
    intro c member
    obtain ⟨glyph, listed, rfl⟩ := List.mem_map.mp member
    exact List.all_eq_true.mp List.all_takeWhile glyph listed
  conv_rhs => rw [whole, plain_append, loopWords_append cut, spelled, loopWords_word letters head.word_mem]

mutual

theorem spells_statement (first : Glyph) (rest : Place) (paired : Paired (first :: rest)) :
    Spells (first :: rest) (parseStatement first rest).found.keywords (parseStatement first rest).rest := by
  have behind : rest <:+ first :: rest := List.suffix_cons first rest
  unfold parseStatement
  split
  · next opening =>
    have brace : Leads (first :: rest) rest := leads_cons (isWordChar_sign (by simp [opening])) rest
    exact brace.spells.trans (spells_block rest (paired.suffix behind))
  split
  · next semicolon => exact (leads_cons (isWordChar_sign (by simp [semicolon])) rest).spells
  split
  · next hash => exact ((leads_cons (isWordChar_sign (by simp [hash])) rest).trans (leads_afterDirective _ _)).spells
  split
  · next letter =>
    have shorter := length_readWord_le rest
    exact spells_word _ _ (readWord_cons (isWordChar_of_letter letter)) paired
  · exact spells_simple _ _ rest behind paired
termination_by 3 * rest.length + 2

theorem spells_word {place : Place} (word : List Char) (after : Place) (read : place.readWord = (word, after))
    (paired : place.Paired) : Spells place (parseWord word after).found.keywords (parseWord word after).rest := by
  have leads : place.Leads after := by
    have leads := place.leads_readWord
    rwa [read] at leads
  have behind := leads.paired paired
  have simple (front : List Char) := spells_simple front 0 after leads.suffix paired
  have loop (head : LoopHead) (same : word = head.word) : Spells place [head.word] after := by
    have spells := spells_head head (by rw [read, same])
    rwa [read] at spells
  rw [parseWord]
  cases keyword : Keyword.ofWord? word with
  | none =>
    dsimp only
    split
    · next found => exact (leads.trans (leads_afterLabel? found)).spells
    · exact simple word
  | some keyword' =>
    have spelled := Keyword.spelling_of_ofWord? keyword
    cases keyword' with
    | forWord =>
      dsimp only
      split
      · next header start found =>
        have shorter := length_readHeader?_lt found
        have opened := leads_readHeader? behind found
        exact (loop (.forHead header) spelled).trans (opened.spells.trans (spells_body start (opened.paired behind)))
      · exact simple []
    | whileWord =>
      dsimp only
      split
      · next condition start found =>
        have shorter := length_readHeader?_lt found
        have opened := leads_readHeader? behind found
        exact (loop (.whileHead condition) spelled).trans (opened.spells.trans (spells_body start (opened.paired behind)))
      · exact simple []
    | doWord =>
      have body := spells_body after behind
      have tail := (leads_afterDo (body.leads.paired behind)).spells
      have whole := ((loop .doHead spelled).trans body).trans tail
      rwa [List.append_nil] at whole
    | ifWord =>
      dsimp only
      split
      · next header start found =>
        have shorter := length_readHeader?_lt found
        have opened := leads.trans (leads_readHeader? behind found)
        exact opened.spells.trans (spells_branches start (opened.paired paired))
      · exact simple []
    | switchWord =>
      dsimp only
      split
      · next header start found =>
        have shorter := length_readHeader?_lt found
        have opened := leads.trans (leads_readHeader? behind found)
        exact opened.spells.trans (spells_body start (opened.paired paired))
      · exact simple []
    | elseWord => exact leads.spells.trans (spells_body after behind)
    | caseWord =>
      dsimp only
      split
      · next found => exact ((leads.trans (leads_skipBlanks _)).trans (leads_afterCase? found)).spells
      · exact simple word
termination_by 3 * after.length + 1

theorem spells_branches (place : Place) (paired : place.Paired) :
    Spells place (parseBranches place).found.keywords (parseBranches place).rest := by
  have body := spells_body place paired
  unfold parseBranches
  dsimp only
  split
  · next other found =>
    have shorter : other.length ≤ place.length :=
      Nat.le_trans (Nat.le_of_lt (length_afterElse?_lt found)) (parseBody place).bounded
    have onward := leads_afterElse? found
    have otherwise := spells_body other (onward.paired (body.leads.paired paired))
    exact body.trans (onward.spells.trans otherwise)
  · exact body
termination_by 3 * place.length + 1

/-- A simple statement ends at a mark, wherever in a word it may be read on. -/
theorem spells_simple (front : List Char) (depth : Nat) (place : Place) {whole : Place} (within : place <:+ whole)
    (paired : whole.Paired) : Spells whole (parseSimple front depth place).found.keywords (parseSimple front depth place).rest := by
  obtain ⟨before, rfl⟩ := within
  obtain ⟨read, same, -, ends⟩ := place.takeSimple_eq depth
  rw [parseSimple]
  split
  · exact (leads_nil _).spells
  · next text stop rest stopped =>
    have shorter := length_lt_of_takeSimple stopped
    rw [stopped] at same ends
    have unlettered : isWordChar stop.char = false := by
      apply isWordChar_sign
      rcases ends stop rfl with same | same | same <;> simp [same]
    have split : before ++ place = (before ++ read) ++ stop :: rest := by rw [same, List.append_assoc]
    have behind : Leads (before ++ place) rest := by
      rw [split]
      exact leads_behind unlettered _ rest
    split
    · exact behind.spells
    split
    · exact behind.spells.trans (spells_block rest (behind.paired paired))
    · have here : Leads (before ++ place) (stop :: rest) := ⟨before ++ read, split, cut_cons unlettered _ _⟩
      exact here.spells
termination_by 3 * place.length

theorem spells_body (place : Place) (paired : place.Paired) :
    Spells place (parseBody place).found.keywords (parseBody place).rest := by
  have blanks := place.leads_skipBlanks
  rw [parseBody]
  split
  · exact (leads_nil place).spells
  · next first rest here =>
    have shorter := length_lt_of_skipBlanks here
    rw [here] at blanks
    split
    · exact blanks.spells
    · exact blanks.spells.trans (spells_statement first rest (blanks.paired paired))
termination_by 3 * place.length

theorem spells_block (place : Place) (paired : place.Paired) :
    Spells place (Tree.keywordsOf (parseBlock place).found) (parseBlock place).rest := by
  have blanks := place.leads_skipBlanks
  rw [parseBlock]
  split
  · exact (leads_nil place).spells
  · next first rest here =>
    have shorter := length_lt_of_skipBlanks here
    rw [here] at blanks
    split
    · next closing => exact (blanks.trans (leads_cons (isWordChar_sign (by simp [closing])) rest)).spells
    · have bounded := (parseStatement first rest).bounded
      have statement := blanks.spells.trans (spells_statement first rest (blanks.paired paired))
      exact statement.trans (spells_block (parseStatement first rest).rest (statement.leads.paired paired))
termination_by 3 * place.length

end

theorem spells_program (place : Place) (paired : place.Paired) : Spells place (Tree.keywordsOf place.parseProgram) [] := by
  have closers := place.leads_skipClosers
  rw [parseProgram]
  split
  · exact (leads_nil place).spells
  · next first rest here =>
    have bound := length_skipClosers_le place
    rw [here] at closers
    rw [here, List.length_cons] at bound
    have shorter := Nat.lt_of_le_of_lt (parseStatement first rest).bounded bound
    have statement := closers.spells.trans (spells_statement first rest (closers.paired paired))
    exact statement.trans (spells_program (parseStatement first rest).rest (statement.leads.paired paired))
termination_by place.length

end Place

/-- Every loop that is counted has a keyword in the text that no other loop has, and adds to one of the two depths at
most. -/
theorem loops_have_keywords (sortNames : List Name) (source : List Char) :
    let report := (Analysis.ofSource sortNames source).report
    let tree := Tree.ofText (mask source)
    report.linear + report.log ≤ report.loops ∧ report.loops ≤ (loopWords (mask source)).length ∧
      tree.keywords.length = report.loops ∧ tree.keywords.Sublist (loopWords (mask source)) := by
  have metrics := metrics_scan (mask source)
  have spells := Place.spells_program (glyphs (mask source)) (paired_glyphs (mask source))
  have sublist : (Tree.ofText (mask source)).keywords.Sublist (loopWords (mask source)) := by
    have sublist := spells.sublist
    rwa [plain_glyphs, plain, List.map_nil, loopWords_nil, List.append_nil] at sublist
  have count := (Tree.ofText (mask source)).length_keywords
  have depths := (Tree.ofText (mask source)).deepest_add_deepest_le
  have fewer := sublist.length_le
  rw [count] at fewer
  simp only [Analysis.report, Analysis.ofSource, metrics]
  exact ⟨by exact_mod_cast depths, by exact_mod_cast fewer, by exact_mod_cast count, sublist⟩

end LoopCost
