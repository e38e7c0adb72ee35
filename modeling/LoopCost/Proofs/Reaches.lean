import LoopCost.Scan.State
import Mathlib.Logic.Relation

/-! Runs of the scan as sequences of steps. -/

namespace LoopCost.State

def Goes (state next : State) : Prop := state.advance = .running next

abbrev Reaches : State → State → Prop := Relation.ReflTransGen Goes

theorem run_of_goes {state next : State} (goes : state.Goes next) : state.run = next.run := by
  rw [run]
  split
  · next same => cases goes.symm.trans same; rfl
  · next ends => cases goes.symm.trans ends

theorem run_of_done {state : State} {outcome : Outcome} (ends : state.advance = .done outcome) :
    state.run = outcome := by
  rw [run]
  split
  · next goes => cases ends.symm.trans goes
  · next same => cases ends.symm.trans same; rfl

theorem Reaches.run_eq {state later : State} (reached : state.Reaches later) : state.run = later.run := by
  induction reached with
  | refl => rfl
  | tail _ goes ih => exact ih.trans (run_of_goes goes)

theorem Goes.unique {state next other : State} (goes : state.Goes next) (goes' : state.Goes other) : next = other := by
  cases goes.symm.trans goes'
  rfl

theorem Reaches.eq_or {state next later : State} (reached : state.Reaches later) (goes : state.Goes next) :
    later = state ∨ next.Reaches later := by
  rcases Relation.ReflTransGen.cases_head reached with rfl | ⟨other, first, others⟩
  · exact .inl rfl
  · exact .inr (first.unique goes ▸ others)

theorem Reaches.remaining_le {state later : State} (reached : state.Reaches later) : later.remaining ≤ state.remaining := by
  induction reached with
  | refl => exact Nat.le_refl _
  | tail _ goes ih => exact Nat.le_trans (Nat.le_of_lt (remaining_advance goes)) ih

/-- The scan never comes back to where it was. -/
theorem Goes.not_reaches {state next : State} (goes : state.Goes next) : ¬ next.Reaches state :=
  fun back => Nat.lt_irrefl _ (Nat.lt_of_le_of_lt back.remaining_le (remaining_advance goes))

/-- Where the scan stands once the innermost construct is taken in by the one around it. -/
def returned (state : State) (outer : Frame) (around : List Frame) (place : Place) (notes : List Note) : State where
  place
  frame := outer.absorbFrame (state.frame.deepen state.frame.growth?)
  around
  loops := state.loops + state.frame.growth?.toList.length
  notes

theorem goes_of_finish (state : State) {outer : Frame} {around : List Frame} {place : Place}
    (ends : state.frame.resume state.place = .finish place) (enclosed : state.around = outer :: around) :
    ∃ notes, state.Goes (state.returned outer around place notes) := by
  refine ⟨(state.frame.growth?.bind (state.frame.deepen state.frame.growth?).note?).toList ++ state.notes, ?_⟩
  simp only [Goes, advance, ends, endFrame, enclosed, returned]

theorem goes_of_start {state : State} {frame : Frame} {place : Place}
    (starts : state.frame.resume state.place = .start frame place) :
    state.Goes (state.beginInside frame place) := by
  simp only [Goes, advance, starts]

end LoopCost.State
