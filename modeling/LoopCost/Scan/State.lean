import LoopCost.Scan.Frame

/-! The scan of a text for loops. The constructs that are open at a place form a stack, innermost first, so
that no depth of nesting is too much. Each step either begins a statement inside the innermost construct or
ends that construct; malformed text ends the scan early and never fails. -/

namespace LoopCost

/-- Loops found, and how deeply the linear and the logarithmic ones nest. -/
structure Metrics where
  loops : Nat
  linear : Nat
  log : Nat
  deriving DecidableEq

structure Outcome where
  metrics : Metrics
  notes : List Note

structure State where
  place : Place
  frame : Frame
  /-- The constructs around the innermost one. -/
  around : List Frame := []
  loops : Nat := 0
  /-- Latest first. -/
  notes : List Note := []

inductive Progress
  | running (state : State)
  | done (outcome : Outcome)

namespace State

def initial (text : List Char) : State := { place := glyphs text, frame := .enter .program none }

/-- Begins a statement inside the frame. -/
def beginInside (state : State) (frame : Frame) (place : Place) : State :=
  let beginning := place.begin
  let frame := frame.observe beginning.simple
  let notes := beginning.note.toList ++ state.notes
  match beginning.opens with
  | none => { state with place := beginning.place, frame := frame.absorb 0 0, notes }
  | some construct =>
    { state with
      place := beginning.place
      frame := .enter construct frame.watch
      around := frame :: state.around
      notes }

/-- Ends the innermost construct. -/
def endFrame (state : State) (place : Place) : Progress :=
  let growth := state.frame.growth?
  let inner := state.frame.deepen growth
  let loops := state.loops + growth.toList.length
  let notes := (growth.bind inner.note?).toList ++ state.notes
  match state.around with
  | [] => .done { metrics := { loops, linear := inner.linear, log := inner.log }, notes := notes.reverse }
  | outer :: around => .running { place, frame := outer.absorbFrame inner, around, loops, notes }

def advance (state : State) : Progress :=
  match state.frame.resume state.place with
  | .start frame place => .running (state.beginInside frame place)
  | .finish place => state.endFrame place

/-- A frame that waits for its first statement has one step more before it. -/
def weight (frame : Frame) : Nat := if frame.fresh then 2 else 1

def weights : List Frame → Nat
  | [] => 0
  | frame :: frames => weight frame + weights frames

/-- A bound on the steps that are left. -/
def remaining (state : State) : Nat :=
  4 * state.place.length + weight state.frame + weights state.around

private theorem weight_bounds (frame : Frame) : 1 ≤ weight frame ∧ weight frame ≤ 2 := by
  unfold weight
  split <;> omega

private theorem weight_absorb (frame : Frame) (linear log : Nat) : weight (frame.absorb linear log) = 1 := rfl

private theorem weight_enter (construct : Construct) (around : Option Watch) :
    weight (.enter construct around) = 2 := rfl

/-- Beginning a statement uses up text, or else the first turn of its frame. -/
private theorem remaining_beginInside {state : State} {frame : Frame} {place : Place}
    (ahead : place.begin.place.length < state.place.length ∨
      state.frame.fresh = true ∧ place.begin.opens = none ∧ place.begin.place.length ≤ state.place.length) :
    (state.beginInside frame place).remaining < state.remaining := by
  have old := weight_bounds state.frame
  have inside := weight_bounds (frame.observe place.begin.simple)
  unfold beginInside
  dsimp only
  split
  · simp only [remaining, weight_absorb]
    rcases ahead with shorter | ⟨fresh, _, notLonger⟩
    · omega
    · have double : weight state.frame = 2 := by simp [weight, fresh]
      omega
  · next opened =>
    rcases ahead with shorter | ⟨_, closed, _⟩
    · simp only [remaining, weights, weight_enter]
      omega
    · simp_all

theorem skipClosers_head {place rest : Place} {first : Glyph} (here : place.skipClosers = first :: rest) :
    first.char ≠ '}' ∧ Place.skipBlanks (first :: rest) = first :: rest := by
  have stops := List.head?_dropWhile_not
    (fun glyph : Glyph => Unicode.isBlank glyph.char || glyph.char == ')' || glyph.char == '}') place
  rw [Place.skipClosers] at here
  simp [here] at stops
  simp [Place.skipBlanks, stops]

theorem skipBlanks_head {place rest : Place} {first : Glyph} (here : place.skipBlanks = first :: rest) :
    Place.skipBlanks (first :: rest) = first :: rest := by
  have stops := List.head?_dropWhile_not (fun glyph : Glyph => Unicode.isBlank glyph.char) place
  rw [Place.skipBlanks] at here
  simp [here] at stops
  simp [Place.skipBlanks, stops]

private theorem resume_ahead {frame inner : Frame} {place start : Place}
    (starts : frame.resume place = .start inner start) :
    start.begin.place.length < place.length ∨
      frame.fresh = true ∧ start.begin.opens = none ∧ start.begin.place.length ≤ place.length := by
  have same (fresh : frame.fresh = true) (eq : place = start) :
      start.begin.place.length < place.length ∨
        frame.fresh = true ∧ start.begin.opens = none ∧ start.begin.place.length ≤ place.length := by
    subst eq
    obtain ⟨notLonger, shorter⟩ := Place.length_begin_le place
    cases opens : place.begin.opens with
    | none => exact .inr ⟨fresh, rfl, notLonger⟩
    | some construct => exact .inl (shorter (by simp [opens]))
  unfold Frame.resume at starts
  split at starts
  · split at starts
    · simp at starts
    · next here =>
      cases starts
      cases found : place.skipClosers with
      | nil => exact absurd found here
      | cons first rest =>
        obtain ⟨unclosed, blank⟩ := skipClosers_head found
        have shorter := Place.length_begin_lt blank unclosed
        have bound := Place.length_skipClosers_le place
        rw [found] at bound
        exact .inl (by omega)
  · split at starts
    · simp at starts
    · next glyph rest here =>
      split at starts
      · simp at starts
      · next unclosed =>
        cases starts
        have shorter := Place.length_begin_lt (skipBlanks_head here) unclosed
        have bound := Place.length_skipBlanks_le place
        rw [here] at bound
        exact .inl (by omega)
  · split at starts
    · next fresh => cases starts; exact same fresh rfl
    · simp at starts
  · split at starts
    · next fresh => cases starts; exact same fresh rfl
    · split at starts
      · next found =>
        cases starts
        have shorter := Place.length_afterElse?_lt found
        have := (Place.length_begin_le start).1
        exact .inl (by omega)
      · simp at starts
  all_goals
    split at starts
    · next fresh => cases starts; exact same fresh rfl
    · simp at starts

private theorem resume_finish {frame : Frame} {place rest : Place} (ends : frame.resume place = .finish rest) :
    rest.length ≤ place.length := by
  unfold Frame.resume at ends
  split at ends
  · split at ends
    · cases ends; simp
    · simp at ends
  · split at ends
    · cases ends; simp
    · next glyph after here =>
      have bound := Place.length_skipBlanks_le place
      rw [here] at bound
      split at ends
      · cases ends; simp only [List.length_cons] at bound; omega
      · simp at ends
  · split at ends
    · simp at ends
    · cases ends; exact Place.length_afterDo_le place
  · split at ends
    · simp at ends
    · split at ends
      · simp at ends
      · cases ends; exact Nat.le_refl _
  all_goals
    split at ends
    · simp at ends
    · cases ends; exact Nat.le_refl _

private theorem remaining_endFrame {state next : State} {place : Place}
    (shorter : place.length ≤ state.place.length) (goes : state.endFrame place = .running next) :
    next.remaining < state.remaining := by
  unfold endFrame at goes
  dsimp only at goes
  split at goes
  · simp at goes
  · next outer around here =>
    cases goes
    simp only [remaining, here, weights]
    have old := weight_bounds state.frame
    have fresh : weight (outer.absorbFrame (state.frame.deepen state.frame.growth?)) = 1 := by
      unfold Frame.absorbFrame
      dsimp only
      split <;> rfl
    have := weight_bounds outer
    omega

/-- Every step leaves fewer steps to go. -/
theorem remaining_advance {state next : State} (goes : state.advance = .running next) :
    next.remaining < state.remaining := by
  unfold advance at goes
  split at goes
  · next starts => cases goes; exact remaining_beginInside (resume_ahead starts)
  · next ends => exact remaining_endFrame (resume_finish ends) goes

/-- Runs the scan to its end. -/
def run (state : State) : Outcome :=
  match _ : state.advance with
  | .running next => run next
  | .done outcome => outcome
termination_by state.remaining
decreasing_by exact remaining_advance ‹_›

end State

def scan (text : List Char) : Outcome := (State.initial text).run

end LoopCost
