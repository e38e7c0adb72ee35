import LoopCost.Proofs.Reaches

/-! The end of the text. Every scan comes back to the program and ends there. Where no text is left, all that is still
open ends without another statement, innermost first. -/

namespace LoopCost

/-- What a construct of that growth makes of the loops and depths found inside of it. -/
def Metrics.enclose (inside : Metrics) (frame : Frame) (growth : Option Growth) : Metrics where
  loops := inside.loops + growth.toList.length
  linear := max frame.linear inside.linear + if growth = some .linear then 1 else 0
  log := max frame.log inside.log + if growth = some .logarithmic then 1 else 0

def Metrics.settle (inside : Metrics) : List Frame → List (Option Growth) → Metrics
  | frame :: frames, growth :: growths => settle (inside.enclose frame growth) frames growths
  | _, _ => inside

namespace Frame

def growths (frame : Frame) : List Frame → List (Option Growth)
  | [] => [frame.growth?]
  | outer :: around => frame.growth? :: growths (outer.absorbFrame (frame.deepen frame.growth?)) around

theorem growths_eq_cons (frame : Frame) (around : List Frame) :
    ∃ growths, frame.growths around = frame.growth? :: growths := by
  cases around <;> exact ⟨_, rfl⟩

theorem construct_deepen (frame : Frame) (growth : Option Growth) : (frame.deepen growth).construct = frame.construct := by
  unfold deepen
  split <;> rfl

theorem watch_deepen (frame : Frame) (growth : Option Growth) : (frame.deepen growth).watch = frame.watch := by
  unfold deepen
  split <;> rfl

theorem linear_deepen (frame : Frame) (growth : Option Growth) :
    (frame.deepen growth).linear = frame.linear + if growth = some .linear then 1 else 0 := by
  unfold deepen
  split <;> simp_all

theorem log_deepen (frame : Frame) (growth : Option Growth) :
    (frame.deepen growth).log = frame.log + if growth = some .logarithmic then 1 else 0 := by
  unfold deepen
  split <;> simp_all

theorem linear_absorbFrame (outer inner : Frame) : (outer.absorbFrame inner).linear = max outer.linear inner.linear := by
  unfold absorbFrame
  dsimp only
  split <;> rfl

theorem log_absorbFrame (outer inner : Frame) : (outer.absorbFrame inner).log = max outer.log inner.log := by
  unfold absorbFrame
  dsimp only
  split <;> rfl

theorem watch_absorbFrame (outer inner : Frame) :
    (outer.absorbFrame inner).watch = if inner.construct.isLoop then outer.watch else inner.watch := by
  unfold absorbFrame
  dsimp only
  split <;> rfl

/-- A statement without loops that ends inside changes nothing that matters at the end. -/
theorem growths_absorb_zero (frame : Frame) (around : List Frame) : (frame.absorb 0 0).growths around = frame.growths around := by
  have same (growth : Option Growth) (outer : Frame) :
      outer.absorbFrame ((frame.absorb 0 0).deepen growth) = outer.absorbFrame (frame.deepen growth) := by
    unfold deepen
    split <;> simp only [absorb, absorbFrame, Nat.max_zero]
  cases around with
  | nil => rfl
  | cons outer around => exact congrArg (frame.growth? :: ·) (congrArg (growths · around) (same frame.growth? outer))

/-- Without text a construct ends, if need be after an empty statement. -/
theorem resume_nil (frame : Frame) : frame.resume [] = .finish [] ∨ frame.fresh = true ∧ frame.resume [] = .start frame [] := by
  obtain ⟨construct, fresh, linear, log, watch⟩ := frame
  cases fresh with
  | false => left; cases construct <;> rfl
  | true =>
    cases construct with
    | program | block => exact .inl rfl
    | _ => exact .inr ⟨rfl, rfl⟩

end Frame

/-- What ends first ends around what was found in it so far. -/
theorem Metrics.settle_cons (loops : Nat) (frame : Frame) (frames : List Frame) (growth : Option Growth)
    (growths : List (Option Growth)) :
    settle ⟨loops, 0, 0⟩ (frame :: frames) (growth :: growths) =
      settle ⟨loops + growth.toList.length, (frame.deepen growth).linear, (frame.deepen growth).log⟩ frames growths := by
  simp only [settle, enclose, Frame.linear_deepen, Frame.log_deepen, Nat.max_zero]

/-- A construct that has taken in another one ends around what was found in both. -/
theorem Metrics.settle_absorbFrame (loops : Nat) (outer inner : Frame) (frames : List Frame) (growth : Option Growth)
    (growths : List (Option Growth)) :
    settle ⟨loops, 0, 0⟩ (outer.absorbFrame inner :: frames) (growth :: growths) =
      settle ⟨loops, inner.linear, inner.log⟩ (outer :: frames) (growth :: growths) := by
  simp only [settle, enclose, Frame.linear_absorbFrame, Frame.log_absorbFrame, Nat.max_zero]

namespace State

/-- Every scan comes to an end. -/
theorem exists_last (state : State) : ∃ last, state.Reaches last ∧ last.advance = .done state.run := by
  induction state using State.run.induct with
  | case1 state next goes ih =>
    obtain ⟨last, reached, ends⟩ := ih
    refine ⟨last, .head goes reached, ?_⟩
    rw [run_of_goes goes, ends]
  | case2 state outcome ends => exact ⟨state, .refl, by rw [ends, run_of_done ends]⟩

/-- Where the scan ends, it is at top level and at the end of the text. -/
theorem advance_done {state : State} {outcome : Outcome} (ends : state.advance = .done outcome) :
    state.around = [] ∧ (∃ place, state.frame.resume state.place = .finish place) ∧
      outcome.metrics = Metrics.enclose ⟨state.loops, 0, 0⟩ state.frame state.frame.growth? := by
  unfold advance at ends
  split at ends
  · cases ends
  · next place finishes =>
    unfold endFrame at ends
    dsimp only at ends
    split at ends
    · next top =>
      cases ends
      refine ⟨top, ⟨place, finishes⟩, ?_⟩
      simp only [Metrics.enclose, Frame.linear_deepen, Frame.log_deepen, Nat.max_zero]
    · cases ends

def settled (state : State) : Metrics :=
  Metrics.settle ⟨state.loops, 0, 0⟩ (state.frame :: state.around) (state.frame.growths state.around)

private theorem settled_absorb_zero (state : State) :
    settled { state with frame := state.frame.absorb 0 0 } = state.settled := by
  unfold settled
  rw [Frame.growths_absorb_zero]
  cases state.frame.growths state.around with
  | nil => rfl
  | cons growth growths => simp only [Metrics.settle, Metrics.enclose, Frame.absorb, Nat.max_zero]

/-- It makes no difference at the end whether the innermost construct has been taken in before. -/
theorem settled_returned {state : State} {outer : Frame} {around : List Frame}
    (enclosed : state.around = outer :: around) (place : Place) (notes : List Note) :
    (state.returned outer around place notes).settled = state.settled := by
  obtain ⟨growths, here⟩ := (outer.absorbFrame (state.frame.deepen state.frame.growth?)).growths_eq_cons around
  unfold settled returned
  dsimp only
  rw [enclosed, Frame.growths, here, Metrics.settle_absorbFrame, Metrics.settle_cons]

theorem metrics_run_nil {state : State} (ends : state.place = []) : state.run.metrics = state.settled := by
  induction state using State.run.induct with
  | case2 state outcome last =>
    rw [run_of_done last, (advance_done last).2.2, settled, (advance_done last).1]
    rfl
  | case1 state next goes ih =>
    have goes : state.Goes next := goes
    have resumes := state.frame.resume_nil
    rw [← ends] at resumes
    rw [run_of_goes goes]
    rcases resumes with finishes | ⟨-, starts⟩
    · cases enclosed : state.around with
      | nil => 
        simp only [Goes, advance, finishes, endFrame, enclosed, reduceCtorEq] at goes
      | cons outer around =>
        obtain ⟨notes, returns⟩ := goes_of_finish state finishes enclosed
        cases goes.unique returns
        rw [ih ends, settled_returned enclosed]
    · cases goes.unique (goes_of_start starts)
      rw [ends] at ih ⊢
      rw [ih rfl]
      exact state.settled_absorb_zero

end State

end LoopCost
