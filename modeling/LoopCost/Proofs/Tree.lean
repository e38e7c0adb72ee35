import LoopCost.Growth.Basic
import Mathlib.Order.Bounds.Defs
import Mathlib.Data.List.Basic

/-! Statement trees. Depths are passed downward here: a statement is given the number of loops around it, and
the deepest nesting of a kind of loop is the largest number that arrives anywhere. -/

namespace LoopCost

inductive LoopHead
  | forHead (header : List Char)
  | whileHead (condition : List Char)
  | doHead
  deriving DecidableEq

/-- The growth of a loop, given the simple statements that belong to it. -/
def LoopHead.growth (head : LoopHead) (own : List (List Char)) : Growth :=
  match head with
  | forHead header => .ofFor header
  | whileHead condition => .ofWhile condition [] (own.any fun statement => rescales statement (freeNames condition))
  | doHead => .linear

inductive Tree
  /-- Nothing to look into: a lone semicolon, a directive line, a label, or no statement at all. -/
  | blank
  | simple (text : List Char)
  | block (statements : List Tree)
  /-- A simple statement that an opening brace turns into a block, as at the body of a function. -/
  | bodied (text : List Char) (statements : List Tree)
  | loop (head : LoopHead) (body : Tree)
  /-- A `switch`, an `else` on its own, or an `if` without one. -/
  | branch (body : Tree)
  | choice (body otherwise : Tree)

namespace Tree

mutual

/-- The simple statements that no loop inside the tree encloses. -/
def own : Tree → List (List Char)
  | blank => []
  | simple text => [text]
  | block statements => ownOf statements
  | bodied text statements => text :: ownOf statements
  | loop _ _ => []
  | branch body => body.own
  | choice body otherwise => body.own ++ otherwise.own

def ownOf : List Tree → List (List Char)
  | [] => []
  | tree :: trees => tree.own ++ ownOf trees

end

mutual

def loops : Tree → Nat
  | blank => 0
  | simple _ => 0
  | block statements => loopsOf statements
  | bodied _ statements => loopsOf statements
  | loop _ body => body.loops + 1
  | branch body => body.loops
  | choice body otherwise => body.loops + otherwise.loops

def loopsOf : List Tree → Nat
  | [] => 0
  | tree :: trees => tree.loops + loopsOf trees

end

mutual

def deepest (kind : Growth) (depth : Nat) : Tree → Nat
  | blank => depth
  | simple _ => depth
  | block statements => deepestOf kind depth statements
  | bodied _ statements => deepestOf kind depth statements
  | loop head body => body.deepest kind (if head.growth body.own = kind then depth + 1 else depth)
  | branch body => body.deepest kind depth
  | choice body otherwise => max (body.deepest kind depth) (otherwise.deepest kind depth)

def deepestOf (kind : Growth) (depth : Nat) : List Tree → Nat
  | [] => depth
  | tree :: trees => max (tree.deepest kind depth) (deepestOf kind depth trees)

end

mutual

/-- For every statement of the tree the loops on the way to it, itself included, outermost first, behind the
loops `above` the tree. -/
def paths (above : List Growth) : Tree → List (List Growth)
  | blank => [above]
  | simple _ => [above]
  | block statements => above :: pathsOf above statements
  | bodied _ statements => above :: pathsOf above statements
  | loop head body =>
    (above ++ [head.growth body.own]) :: body.paths (above ++ [head.growth body.own])
  | branch body => above :: body.paths above
  | choice body otherwise => above :: (body.paths above ++ otherwise.paths above)

def pathsOf (above : List Growth) : List Tree → List (List Growth)
  | [] => []
  | tree :: trees => tree.paths above ++ pathsOf above trees

end

mutual

/-- Passing a depth downward adds it to what is found below. -/
theorem deepest_eq_add (kind : Growth) (depth : Nat) (tree : Tree) :
    tree.deepest kind depth = depth + tree.deepest kind 0 := by
  match tree with
  | blank | simple _ => rfl
  | block statements | bodied _ statements => exact deepestOf_eq_add kind depth statements
  | branch body => exact deepest_eq_add kind depth body
  | choice body otherwise =>
    simp only [deepest]
    rw [deepest_eq_add kind depth body, deepest_eq_add kind depth otherwise, Nat.add_max_add_left]
  | loop head body =>
    simp only [deepest]
    split
    · rw [deepest_eq_add kind (depth + 1) body, deepest_eq_add kind (0 + 1) body]
      omega
    · exact deepest_eq_add kind depth body
termination_by structural tree

theorem deepestOf_eq_add (kind : Growth) (depth : Nat) (trees : List Tree) :
    deepestOf kind depth trees = depth + deepestOf kind 0 trees := by
  match trees with
  | [] => rfl
  | tree :: trees =>
    simp only [deepestOf]
    rw [deepest_eq_add kind depth tree, deepestOf_eq_add kind depth trees, Nat.add_max_add_left]
termination_by structural trees

end

theorem count_append_singleton (above : List Growth) (growth kind : Growth) :
    (above ++ [growth]).count kind = if growth = kind then above.count kind + 1 else above.count kind := by
  rw [List.count_append, List.count_singleton]
  split <;> simp_all

mutual

theorem count_le_deepest (kind : Growth) (above : List Growth) (tree : Tree) :
    above.count kind ≤ tree.deepest kind (above.count kind) ∧
      ∀ path ∈ tree.paths above, path.count kind ≤ tree.deepest kind (above.count kind) := by
  match tree with
  | blank | simple _ => simp [paths, deepest]
  | block statements | bodied _ statements =>
    have below := count_le_deepestOf kind above statements
    simpa [paths, deepest, below.1] using below.2
  | branch body =>
    have below := count_le_deepest kind above body
    simpa [paths, deepest, below.1] using below.2
  | choice body otherwise =>
    have first := count_le_deepest kind above body
    have second := count_le_deepest kind above otherwise
    simp only [paths, deepest, List.mem_cons, List.mem_append]
    refine ⟨by omega, ?_⟩
    rintro path (rfl | member | member)
    · omega
    · exact Nat.le_trans (first.2 path member) (Nat.le_max_left _ _)
    · exact Nat.le_trans (second.2 path member) (Nat.le_max_right _ _)
  | loop head body =>
    have below := count_le_deepest kind (above ++ [head.growth body.own]) body
    have grows : above.count kind ≤ (above ++ [head.growth body.own]).count kind := by simp [List.count_append]
    rw [count_append_singleton] at below grows
    simp only [paths, deepest, List.mem_cons]
    refine ⟨Nat.le_trans grows below.1, ?_⟩
    rintro path (rfl | member)
    · rw [count_append_singleton]; exact below.1
    · exact below.2 path member
termination_by structural tree

theorem count_le_deepestOf (kind : Growth) (above : List Growth) (trees : List Tree) :
    above.count kind ≤ deepestOf kind (above.count kind) trees ∧
      ∀ path ∈ pathsOf above trees, path.count kind ≤ deepestOf kind (above.count kind) trees := by
  match trees with
  | [] => simp [pathsOf, deepestOf]
  | tree :: trees =>
    have first := count_le_deepest kind above tree
    have others := count_le_deepestOf kind above trees
    simp only [pathsOf, deepestOf, List.mem_append]
    refine ⟨by omega, ?_⟩
    rintro path (member | member)
    · exact Nat.le_trans (first.2 path member) (Nat.le_max_left _ _)
    · exact Nat.le_trans (others.2 path member) (Nat.le_max_right _ _)
termination_by structural trees

end

mutual

theorem exists_path_count_eq (kind : Growth) (above : List Growth) (tree : Tree) :
    ∃ path ∈ tree.paths above, path.count kind = tree.deepest kind (above.count kind) := by
  match tree with
  | blank | simple _ => exact ⟨above, by simp [paths], rfl⟩
  | block statements | bodied _ statements =>
    obtain ⟨path, member, same⟩ := exists_pathOf_count_eq kind above statements
    refine ⟨path, ?_, same⟩
    simpa [paths, or_comm] using member
  | branch body =>
    obtain ⟨path, member, same⟩ := exists_path_count_eq kind above body
    exact ⟨path, List.mem_cons_of_mem _ member, same⟩
  | choice body otherwise =>
    obtain ⟨first, firstMember, firstSame⟩ := exists_path_count_eq kind above body
    obtain ⟨second, secondMember, secondSame⟩ := exists_path_count_eq kind above otherwise
    simp only [deepest, paths, List.mem_cons, List.mem_append]
    rcases Nat.le_total (body.deepest kind (above.count kind)) (otherwise.deepest kind (above.count kind)) with
      less | more
    · exact ⟨second, .inr (.inr secondMember), by rw [secondSame, Nat.max_eq_right less]⟩
    · exact ⟨first, .inr (.inl firstMember), by rw [firstSame, Nat.max_eq_left more]⟩
  | loop head body =>
    obtain ⟨path, member, same⟩ := exists_path_count_eq kind (above ++ [head.growth body.own]) body
    rw [count_append_singleton] at same
    exact ⟨path, List.mem_cons_of_mem _ member, same⟩
termination_by structural tree

/-- A sequence may be empty, and then its depth is that of the statement around it. -/
theorem exists_pathOf_count_eq (kind : Growth) (above : List Growth) (trees : List Tree) :
    ∃ path, (path ∈ pathsOf above trees ∨ path = above) ∧
      path.count kind = deepestOf kind (above.count kind) trees := by
  match trees with
  | [] => exact ⟨above, .inr rfl, rfl⟩
  | tree :: trees =>
    obtain ⟨first, firstMember, firstSame⟩ := exists_path_count_eq kind above tree
    obtain ⟨other, otherMember, otherSame⟩ := exists_pathOf_count_eq kind above trees
    simp only [deepestOf, pathsOf, List.mem_append]
    rcases Nat.le_total (tree.deepest kind (above.count kind)) (deepestOf kind (above.count kind) trees) with
      less | more
    · refine ⟨other, ?_, by rw [otherSame, Nat.max_eq_right less]⟩
      rcases otherMember with member | same
      · exact .inl (.inr member)
      · exact .inr same
    · exact ⟨first, .inl (.inl firstMember), by rw [firstSame, Nat.max_eq_left more]⟩
termination_by structural trees

end

/-- The depth passed downward is the largest number of loops of the kind on any path from the root. -/
theorem isGreatest_deepest (kind : Growth) (tree : Tree) :
    IsGreatest {depth | ∃ path ∈ tree.paths [], path.count kind = depth} (tree.deepest kind 0) := by
  refine ⟨exists_path_count_eq kind [] tree, ?_⟩
  rintro depth ⟨path, member, rfl⟩
  exact (count_le_deepest kind [] tree).2 path member

end Tree

end LoopCost
