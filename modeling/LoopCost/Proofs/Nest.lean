import LoopCost.Proofs.ScanTree

/-! Loop nests behind the two depths of a scan. Each depth is that of some nest, but the two are looked for
separately: they belong to one nest only where some nest is deepest in both kinds at once. -/

namespace LoopCost

/-- Loops of the tree, outermost first, each of them inside the one before. -/
def Tree.Nest (tree : Tree) (chain : List Growth) : Prop := ∃ path ∈ tree.paths [], chain.Sublist path

theorem Tree.exists_nest_count_eq (tree : Tree) (kind : Growth) :
    ∃ chain, tree.Nest chain ∧ chain.count kind = tree.deepest kind 0 := by
  obtain ⟨path, member, count⟩ := (tree.isGreatest_deepest kind).1
  exact ⟨path, ⟨path, member, .refl path⟩, count⟩

theorem Tree.Nest.count_le {tree : Tree} {chain : List Growth} (nest : tree.Nest chain) (kind : Growth) :
    chain.count kind ≤ tree.deepest kind 0 := by
  obtain ⟨path, member, inside⟩ := nest
  exact Nat.le_trans (inside.count_le kind) ((tree.isGreatest_deepest kind).2 ⟨path, member, rfl⟩)

/-- Both depths of a scan are found in nests, and one nest carries both exactly if it is at least as deep as
every other nest in both kinds. -/
theorem depths_of_nests (text : List Char) :
    let tree := Tree.ofText text
    let metrics := (scan text).metrics
    (∃ chain, tree.Nest chain ∧ chain.count .linear = metrics.linear) ∧
    (∃ chain, tree.Nest chain ∧ chain.count .logarithmic = metrics.log) ∧
    ((∃ chain, tree.Nest chain ∧ metrics.linear ≤ chain.count .linear ∧ metrics.log ≤ chain.count .logarithmic) ↔
      ∃ chain, tree.Nest chain ∧ ∀ other, tree.Nest other →
        other.count .linear ≤ chain.count .linear ∧ other.count .logarithmic ≤ chain.count .logarithmic) := by
  intro tree metrics
  have linear : metrics.linear = tree.deepest .linear 0 := congrArg Metrics.linear (metrics_scan text)
  have log : metrics.log = tree.deepest .logarithmic 0 := congrArg Metrics.log (metrics_scan text)
  rw [linear, log]
  obtain ⟨first, firstNest, firstCount⟩ := tree.exists_nest_count_eq .linear
  obtain ⟨second, secondNest, secondCount⟩ := tree.exists_nest_count_eq .logarithmic
  refine ⟨⟨first, firstNest, firstCount⟩, ⟨second, secondNest, secondCount⟩, ?_, ?_⟩
  · intro ⟨chain, nest, deepLinear, deepLog⟩
    refine ⟨chain, nest, ?_⟩
    intro other otherNest
    constructor
    · exact Nat.le_trans (otherNest.count_le .linear) deepLinear
    · exact Nat.le_trans (otherNest.count_le .logarithmic) deepLog
  · intro ⟨chain, nest, deepest⟩
    refine ⟨chain, nest, ?_, ?_⟩
    · exact firstCount ▸ (deepest first firstNest).1
    · exact secondCount ▸ (deepest second secondNest).2

/-- A linear loop and a logarithmic one side by side give both depths, but no nest has both loops. -/
theorem depths_of_siblings : ¬ ∃ chain, (Tree.ofText "for(;i<n;);for(;i<n;i*=2);".toList).Nest chain ∧
    (scan "for(;i<n;);for(;i<n;i*=2);".toList).metrics.linear ≤ chain.count .linear ∧
    (scan "for(;i<n;);for(;i<n;i*=2);".toList).metrics.log ≤ chain.count .logarithmic := by
  rw [metrics_scan]
  have paths : (Tree.ofText "for(;i<n;);for(;i<n;i*=2);".toList).paths [] =
      [[], [.linear], [.linear], [.logarithmic], [.logarithmic]] := by decide +kernel
  have linear : (Tree.ofText "for(;i<n;);for(;i<n;i*=2);".toList).deepest .linear 0 = 1 := by decide +kernel
  have log : (Tree.ofText "for(;i<n;);for(;i<n;i*=2);".toList).deepest .logarithmic 0 = 1 := by decide +kernel
  intro ⟨chain, ⟨path, member, inside⟩, deepLinear, deepLog⟩
  have deepLinear := Nat.le_trans deepLinear (inside.count_le .linear)
  have deepLog := Nat.le_trans deepLog (inside.count_le .logarithmic)
  simp only [linear, log] at deepLinear deepLog
  rw [paths] at member
  have apart : ∀ path ∈ [[], [.linear], [.linear], [.logarithmic], [.logarithmic]],
      ¬ (1 ≤ path.count Growth.linear ∧ 1 ≤ path.count Growth.logarithmic) := by decide
  exact apart path member ⟨deepLinear, deepLog⟩

end LoopCost
