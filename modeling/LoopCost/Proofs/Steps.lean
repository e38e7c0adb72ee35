import LoopCost.Proofs.Reaches
import LoopCost.Proofs.Showing

/-! One step of the scan: a statement is read inside of the innermost construct, or a construct is entered, or the
innermost one is left. The place moves on in each case, and it never stops inside of a word. -/

namespace LoopCost

namespace Frame

theorem observe_construct (frame : Frame) (statement : Option (List Char)) :
    (frame.observe statement).construct = frame.construct := by
  cases statement <;> rfl

theorem absorbFrame_construct (outer inner : Frame) : (outer.absorbFrame inner).construct = outer.construct := by
  unfold absorbFrame
  dsimp only
  split <;> rfl

/-- An `if` turns into a branch where its `else` comes; no other construct changes. -/
structure Turns (frame inner : Frame) : Prop where
  watch_eq : inner.watch = frame.watch
  construct : inner.construct = frame.construct ∨ frame.construct = .conditional ∧ inner.construct = .branch
  linear_eq : inner.linear = frame.linear
  log_eq : inner.log = frame.log

theorem resume_start {frame inner : Frame} {place start : Place} (starts : frame.resume place = .start inner start) :
    frame.Turns inner ∧ place.Leads start := by
  unfold resume at starts
  split at starts
  · split at starts
    · cases starts
    · cases starts
      exact ⟨⟨rfl, .inl rfl, rfl, rfl⟩, place.leads_skipClosers⟩
  · split at starts
    · cases starts
    · next glyph rest here =>
      split at starts
      · cases starts
      · cases starts
        exact ⟨⟨rfl, .inl rfl, rfl, rfl⟩, here ▸ place.leads_skipBlanks⟩
  · split at starts
    · cases starts
      exact ⟨⟨rfl, .inl rfl, rfl, rfl⟩, .refl _⟩
    · cases starts
  · next conditional =>
    split at starts
    · cases starts
      exact ⟨⟨rfl, .inl rfl, rfl, rfl⟩, .refl _⟩
    · split at starts
      · next found =>
        cases starts
        exact ⟨⟨rfl, .inr ⟨conditional, rfl⟩, rfl, rfl⟩, Place.leads_afterElse? found⟩
      · cases starts
  all_goals
    split at starts
    · cases starts
      exact ⟨⟨rfl, .inl rfl, rfl, rfl⟩, .refl _⟩
    · cases starts

theorem resume_finish {frame : Frame} {place rest : Place} (paired : place.Paired)
    (ends : frame.resume place = .finish rest) : place.Leads rest := by
  unfold resume at ends
  split at ends
  · split at ends
    · cases ends
      exact place.leads_nil
    · cases ends
  · split at ends
    · cases ends
      exact place.leads_nil
    · next glyph after here =>
      split at ends
      · next closes =>
        cases ends
        have unlettered : isWordChar glyph.char = false := isWordChar_sign (by simp [closes])
        have blanks := place.leads_skipBlanks
        rw [here] at blanks
        exact blanks.trans (Place.leads_cons unlettered _)
      · cases ends
  · split at ends
    · cases ends
    · cases ends
      exact Place.leads_afterDo paired
  · split at ends
    · cases ends
    · split at ends
      · cases ends
      · cases ends
        exact .refl _
  all_goals
    split at ends
    · cases ends
    · cases ends
      exact .refl _

end Frame

inductive State.Step (state next : State) : Prop
  | stays {frame : Frame} {start : Place} (starts : state.frame.resume state.place = .start frame start)
      (opens : start.begin.opens = none) (place_eq : next.place = start.begin.place)
      (frame_eq : next.frame = (frame.observe start.begin.simple).absorb 0 0) (around_eq : next.around = state.around)
      (loops_eq : next.loops = state.loops)
  | enters {frame : Frame} {start : Place} {construct : Construct}
      (starts : state.frame.resume state.place = .start frame start) (opens : start.begin.opens = some construct)
      (place_eq : next.place = start.begin.place)
      (frame_eq : next.frame = .enter construct (frame.observe start.begin.simple).watch)
      (around_eq : next.around = frame.observe start.begin.simple :: state.around)
      (loops_eq : next.loops = state.loops)
  | leaves {outer : Frame} (ends : state.frame.resume state.place = .finish next.place)
      (enclosed : state.around = outer :: next.around)
      (frame_eq : next.frame = outer.absorbFrame (state.frame.deepen state.frame.growth?))
      (loops_eq : next.loops = state.loops + state.frame.growth?.toList.length)

namespace State

theorem Goes.step {state next : State} (goes : state.Goes next) : state.Step next := by
  unfold Goes advance at goes
  split at goes
  · next frame start starts =>
    cases goes
    unfold beginInside
    dsimp only
    split
    · next opens => exact .stays starts opens rfl rfl rfl rfl
    · next construct opens => exact .enters starts opens rfl rfl rfl rfl
  · next place ends =>
    unfold endFrame at goes
    dsimp only at goes
    split at goes
    · cases goes
    · next outer around enclosed =>
      cases goes
      exact .leaves ends enclosed rfl rfl

theorem Step.leads {state next : State} (step : state.Step next) (paired : state.place.Paired) :
    state.place.Leads next.place := by
  cases step with
  | stays starts _ place_eq | enters starts _ place_eq =>
    have first := (Frame.resume_start starts).2
    rw [place_eq]
    exact first.trans (Place.begins_begin (first.paired paired)).leads
  | leaves ends => exact Frame.resume_finish paired ends

theorem Reaches.leads {state later : State} (reached : state.Reaches later) (paired : state.place.Paired) :
    state.place.Leads later.place := by
  induction reached with
  | refl => exact .refl _
  | tail _ goes ih => exact ih.trans (goes.step.leads (ih.paired paired))

end State

end LoopCost
