/-! Tables of code points. A table lists inclusive ranges in ascending order, so that a lookup can
stop at the first range above the code point it looks for. -/

namespace LoopCost.Unicode

/-- Inclusive ranges of code points, disjoint and in ascending order. -/
abbrev Ranges := List (Nat × Nat)

def Ranges.contains : Ranges → Nat → Bool
  | [], _ => false
  | (low, high) :: above, point =>
    if point < low then false else decide (point ≤ high) || Ranges.contains above point

/-- Nothing of a table is missed by stopping early: every point found lies in one of its ranges. -/
theorem Ranges.exists_of_contains {table : Ranges} {point : Nat} (found : table.contains point = true) :
    ∃ range ∈ table, range.1 ≤ point ∧ point ≤ range.2 := by
  induction table with
  | nil => simp [Ranges.contains] at found
  | cons range above ih =>
    obtain ⟨low, high⟩ := range
    unfold Ranges.contains at found
    split at found
    · simp at found
    · next lower =>
      rcases (Bool.or_eq_true _ _).mp found with inside | later
      · exact ⟨(low, high), by simp, by simpa using lower, by simpa using inside⟩
      · obtain ⟨range, member, bounds⟩ := ih later
        exact ⟨range, List.mem_cons_of_mem _ member, bounds⟩

end LoopCost.Unicode
