import LoopCost.Proofs.Balance
import LoopCost.Proofs.Ending
import LoopCost.Proofs.Entry

/-! The states of a scan in order, from the first to the one it ends in. They only ever stand further on in the text,
and each simple statement that is looked at for evidence lies behind those looked at before it. -/

namespace LoopCost

open Relation

structure Place.Stands (text : List Char) (offset : Nat) (place : Place) : Prop where
  inside : offset ≤ text.length
  place_eq : place = (glyphs text).drop offset

def Place.offset (size : Nat) (place : Place) : Nat := size - place.length

theorem Place.stands_of_suffix {text : List Char} {place : Place} (within : place <:+ glyphs text) :
    place.Stands text (place.offset text.length) := by
  have same := List.suffix_iff_eq_drop.mp within
  rw [length_glyphs] at same
  exact ⟨Nat.sub_le _ _, same⟩

theorem Place.Leads.offset_le {place rest : Place} (leads : place.Leads rest) (size : Nat) :
    place.offset size ≤ rest.offset size :=
  Nat.sub_le_sub_left leads.length_le size

def Move.place : Move → Place
  | start _ place => place
  | finish place => place

structure Inspection where
  start : Nat
  stop : Nat
  statement : List Char

/-- A brace that turns a statement into a block is read, but belongs to no simple statement. -/
def Beginning.inspection (beginning : Beginning) (size : Nat) (statement : List Char) : Inspection :=
  let stop := beginning.place.offset size - if beginning.opens.isSome then 1 else 0
  { start := stop - statement.length, stop, statement }

namespace State

def answer (state : State) : Place := (state.frame.resume state.place).place

def inspection? (size : Nat) (state : State) : Option Inspection :=
  match state.frame.resume state.place with
  | .start frame place =>
    if frame.watch.any (!·.rescaled) then place.begin.simple.map (place.begin.inspection size) else none
  | .finish _ => none

def trail (state : State) : List State :=
  match _ : state.advance with
  | .running next => state :: trail next
  | .done _ => [state]
termination_by state.remaining
decreasing_by exact remaining_advance ‹_›

theorem trail_of_goes {state next : State} (goes : state.Goes next) : state.trail = state :: next.trail := by
  rw [trail]
  split
  · next same => cases goes.symm.trans same; rfl
  · next ends => cases goes.symm.trans ends

theorem trail_of_done {state : State} {outcome : Outcome} (ends : state.advance = .done outcome) :
    state.trail = [state] := by
  rw [trail]
  split
  · next goes => cases ends.symm.trans goes
  · rfl

theorem reaches_of_mem_trail {state later : State} (member : later ∈ state.trail) : state.Reaches later := by
  induction state using State.run.induct with
  | case1 state next goes ih =>
    rw [trail_of_goes goes] at member
    rcases List.mem_cons.mp member with rfl | member
    · exact .refl
    · exact .head goes (ih member)
  | case2 state outcome ends =>
    rw [trail_of_done ends, List.mem_singleton] at member
    subst member
    exact .refl

theorem exists_last_trail (state : State) : ∃ last ∈ state.trail.getLast?, last.advance = .done state.run := by
  induction state using State.run.induct with
  | case1 state next goes ih =>
    obtain ⟨last, member, ends⟩ := ih
    refine ⟨last, ?_, by rw [ends, run_of_goes goes]⟩
    rw [trail_of_goes goes, List.getLast?_cons, Option.mem_def.mp member]
    rfl
  | case2 state outcome ends =>
    refine ⟨state, ?_, by rw [ends, run_of_done ends]⟩
    rw [trail_of_done ends]
    rfl

/-- No more states than steps are left. -/
theorem length_trail_le (state : State) : state.trail.length ≤ state.remaining := by
  induction state using State.run.induct with
  | case1 state next goes ih =>
    have fewer := remaining_advance goes
    rw [trail_of_goes goes, List.length_cons]
    omega
  | case2 state outcome ends =>
    have positive : 0 < weight state.frame := by
      unfold weight
      split <;> omega
    rw [trail_of_done ends, List.length_singleton, remaining]
    omega

/-- What each step establishes for all that comes after it holds along the trail. -/
theorem pairwise_trail {related : State → State → Prop} {state : State}
    (ahead : ∀ now next later, state.Reaches now → now.Goes next → next.Reaches later → related now later) :
    state.trail.Pairwise related := by
  induction state using State.run.induct with
  | case1 state next goes ih =>
    rw [trail_of_goes goes, List.pairwise_cons]
    constructor
    · intro later member
      exact ahead state next later .refl goes (reaches_of_mem_trail member)
    · exact ih fun now following later reached => ahead now following later (.head goes reached)
  | case2 state outcome ends =>
    rw [trail_of_done ends]
    exact List.pairwise_singleton _ _

theorem leads_answer {state : State} (paired : state.place.Paired) : state.place.Leads state.answer := by
  unfold answer
  cases moves : state.frame.resume state.place with
  | start frame place => exact (Frame.resume_start moves).2
  | finish place => exact Frame.resume_finish paired moves

theorem Goes.answer_leads {state next : State} (paired : state.place.Paired) (goes : state.Goes next) :
    state.answer.Leads next.place := by
  unfold answer
  cases goes.step with
  | stays starts _ place_eq | enters starts _ place_eq =>
    rw [starts, place_eq]
    exact (Place.begins_begin ((Frame.resume_start starts).2.paired paired)).leads
  | leaves ends =>
    rw [ends]
    exact .refl _

end State

namespace Place

/-- A simple statement ends in front of a brace, behind a semicolon or at the end of the text. -/
theorem beginSimple_stops (start : Place) :
    ∃ read stop, start = read ++ stop ∧ start.beginSimple.simple = some (plain read) ∧
      stop.length = start.beginSimple.place.length + if start.beginSimple.opens.isSome then 1 else 0 := by
  obtain ⟨read, whole, text_eq, -⟩ := start.takeSimple_eq 0
  rw [beginSimple, readSimple_eq, List.reverse_nil, List.nil_append, text_eq]
  generalize (start.takeSimple 0).2 = stop at whole
  subst whole
  cases stop with
  | nil => exact ⟨read, [], rfl, rfl, rfl⟩
  | cons stop rest =>
    rw [endSimple]
    split
    · next semicolon => exact ⟨read ++ [stop], rest, by simp, by simp [plain, semicolon], rfl⟩
    split
    · exact ⟨read, stop :: rest, rfl, rfl, rfl⟩
    · exact ⟨read, stop :: rest, rfl, rfl, rfl⟩

/-- Behind a simple statement without any text no other one starts, unless the brace that ended it was read. -/
theorem beginSimple_empty {start : Place} (empty : start.beginSimple.simple = some [])
    (closed : start.beginSimple.opens = none) : start.beginSimple.place.begin.simple = none := by
  obtain ⟨read, -, text_eq, ends⟩ := start.takeSimple_eq 0
  rw [beginSimple, readSimple_eq, List.reverse_nil, List.nil_append, text_eq] at empty closed ⊢
  generalize (start.takeSimple 0).2 = stop at ends empty closed
  cases stop with
  | nil => rfl
  | cons stop rest =>
    rcases ends stop rfl with semicolon | opening | closing
    · simp [endSimple, semicolon] at empty
    · simp [endSimple, opening] at closed
    · have stands : skipBlanks (stop :: rest) = stop :: rest :=
        List.dropWhile_cons_of_neg (by rw [closing]; decide)
      simp [endSimple, begin, stands, closing]

/-- Every simple statement is read on from somewhere in the text. -/
theorem exists_beginSimple {place : Place} {statement : List Char} (simple : place.begin.simple = some statement) :
    ∃ start : Place, start <:+ place ∧ ∃ note, place.begin = { start.beginSimple with note } := by
  have plainly (start : Place) : ∃ note, start.beginSimple = { start.beginSimple with note } := ⟨_, rfl⟩
  have headed {after : Place} {construct : List Char → Construct} {note : Option Note}
      (simple : (after.beginHeaded construct note).simple = some statement) :
      after.beginHeaded construct note = { after.beginSimple with note } := by
    unfold beginHeaded at simple ⊢
    split at simple
    · cases simple
    · rfl
  have blanks : place.skipBlanks <:+ place := List.dropWhile_suffix _
  unfold begin at simple ⊢
  split at simple
  · cases simple
  · next first rest here =>
    rw [here] at blanks
    split at simple
    · cases simple
    split at simple
    · cases simple
    split at simple
    · cases simple
    split at simple
    · cases simple
    split at simple
    · next closing opening semicolon hash letter =>
      simp only [closing, opening, semicolon, hash, letter, if_true, if_false]
      have word : (readWord (first :: rest)).2 <:+ place := (List.dropWhile_suffix _).trans blanks
      unfold beginWord at simple ⊢
      dsimp only at simple ⊢
      split at simple
      · exact ⟨_, word, _, headed simple⟩
      · exact ⟨_, word, _, headed simple⟩
      · exact ⟨_, word, _, headed simple⟩
      · exact ⟨_, word, _, headed simple⟩
      · cases simple
      · cases simple
      all_goals
        split at simple
        · cases simple
        · exact ⟨_, blanks, plainly _⟩
    · next closing opening semicolon hash letter =>
      simp only [closing, opening, semicolon, hash, letter, if_false]
      exact ⟨_, blanks, plainly _⟩

/-- A simple statement is inspected where it stands. One without any text leaves nothing to inspect at its end. -/
theorem exists_inspection {place : Place} {statement : List Char} (simple : place.begin.simple = some statement)
    (size : Nat) : ∃ read stop : Place, read ++ stop <:+ place ∧ plain read = statement ∧
      place.begin.inspection size statement = ⟨offset size (read ++ stop), stop.offset size, statement⟩ ∧
      place.begin.place.length ≤ stop.length ∧
      (read = [] → stop.length = place.begin.place.length → place.begin.place.begin.simple = none) := by
  obtain ⟨start, within, note, same⟩ := exists_beginSimple simple
  obtain ⟨read, stop, rfl, text_eq, length⟩ := start.beginSimple_stops
  rw [same] at simple ⊢
  obtain rfl : plain read = statement := Option.some.inj (text_eq.symm.trans simple)
  refine ⟨read, stop, within, rfl, ?_, by simp only [length]; omega, ?_⟩
  · have read_length : (plain read).length = read.length := by rw [plain, List.length_map]
    simp only [Beginning.inspection, offset, List.length_append, read_length, length, Inspection.mk.injEq, and_true]
    omega
  · rintro rfl ends
    apply beginSimple_empty simple
    cases opens : (beginSimple ([] ++ stop)).opens with
    | none => rfl
    | some construct =>
      simp only [opens, Option.isSome_some, if_true] at length
      simp only at ends
      omega

end Place

namespace State

theorem Goes.place_eq {state next : State} (goes : state.Goes next) {frame : Frame} {place : Place}
    (starts : state.frame.resume state.place = .start frame place) : next.place = place.begin.place := by
  cases goes.step with
  | stays started _ place_eq | enters started _ place_eq =>
    cases starts.symm.trans started
    exact place_eq
  | leaves ends => cases starts.symm.trans ends

theorem inspection?_eq_some {size : Nat} {state : State} {inspection : Inspection}
    (found : state.inspection? size = some inspection) :
    ∃ frame place, state.frame.resume state.place = .start frame place ∧
      ∃ statement, place.begin.simple = some statement ∧ place.begin.inspection size statement = inspection := by
  unfold inspection? at found
  split at found
  · next frame place starts =>
    rw [Option.ite_none_right_eq_some] at found
    exact ⟨frame, place, starts, Option.map_eq_some_iff.mp found.2⟩
  · cases found

/-- Nothing else is shown to a watch that could still change it. -/
theorem observe_of_not_inspected {size : Nat} {state : State} {frame : Frame} {place : Place}
    (starts : state.frame.resume state.place = .start frame place) (unseen : state.inspection? size = none) :
    frame.observe place.begin.simple = frame := by
  simp only [inspection?, starts] at unseen
  split at unseen
  · rw [Option.map_eq_none_iff.mp unseen]
    rfl
  · next known =>
    obtain ⟨construct, fresh, linear, log, watch⟩ := frame
    cases watch with
    | none => cases place.begin.simple <;> rfl
    | some watch =>
      have rescaled : watch.rescaled = true := by simpa using known
      cases place.begin.simple with
      | none => rfl
      | some statement => simp only [Frame.observe, Option.map_some, Watch.observe, rescaled, if_true]

/-- What is inspected is the text between the two offsets. -/
theorem slice_inspection {text : List Char} {state : State} (reached : (initial text).Reaches state)
    {inspection : Inspection} (found : state.inspection? text.length = some inspection) :
    inspection.start ≤ inspection.stop ∧ inspection.stop ≤ text.length ∧
      (text.take inspection.stop).drop inspection.start = inspection.statement := by
  obtain ⟨frame, place, starts, statement, simple, rfl⟩ := inspection?_eq_some found
  obtain ⟨read, stop, ⟨front, whole⟩, rfl, same, -⟩ := Place.exists_inspection simple text.length
  obtain ⟨before, ahead⟩ := ((initial_leads reached).trans (Frame.resume_start starts).2).suffix
  have spelled : text = plain (before ++ front) ++ (plain read ++ plain stop) := by
    rw [← plain_append, ← plain_append, List.append_assoc, whole, ahead, plain_glyphs]
  have length : text.length = (plain (before ++ front)).length + (read.length + stop.length) := by
    have lengths := congrArg List.length spelled
    simpa only [List.length_append, plain, List.length_map] using lengths
  have start_eq : Place.offset text.length (read ++ stop) = (plain (before ++ front)).length := by
    rw [Place.offset, List.length_append, length, Nat.add_sub_cancel]
  have stop_eq : stop.offset text.length = (plain (before ++ front)).length + (plain read).length := by
    rw [Place.offset, length, plain, plain, List.length_map, List.length_map]
    omega
  simp only [same, start_eq, stop_eq]
  refine ⟨Nat.le_add_right _ _, ?_, ?_⟩
  · rw [← stop_eq]
    exact Nat.sub_le _ _
  · conv_lhs => rw [spelled, ← List.append_assoc, ← List.length_append, List.take_left, List.drop_left]

/-- One inspection is behind the other, and not both are without text at one place. -/
theorem inspections_apart {text : List Char} {now next later : State} (reached : (initial text).Reaches now)
    (goes : now.Goes next) (onward : next.Reaches later) {first second : Inspection}
    (found : now.inspection? text.length = some first) (found' : later.inspection? text.length = some second) :
    first.stop ≤ second.start ∧ first.start < second.start := by
  obtain ⟨frame, place, starts, statement, simple, rfl⟩ := inspection?_eq_some found
  obtain ⟨frame', place', starts', statement', simple', rfl⟩ := inspection?_eq_some found'
  have paired := paired_of_reaches reached
  have leads : place.begin.place.Leads place' := by
    have behind := (onward.leads (paired_of_reaches (reached.tail goes))).trans (Frame.resume_start starts').2
    rwa [goes.place_eq starts] at behind
  obtain ⟨read, stop, within, rfl, same, ends, empty⟩ := Place.exists_inspection simple text.length
  obtain ⟨read', stop', within', rfl, same', -⟩ := Place.exists_inspection simple' text.length
  have shorter : read'.length + stop'.length < read.length + stop.length := by
    have bound := List.length_append ▸ within'.length_le
    have ahead := leads.length_le
    by_contra longer
    -- Then nothing was read and nothing skipped: the second statement would start where the first one ended.
    have nothing : read = [] := List.length_eq_zero_iff.mp (by omega)
    have stopped := empty nothing (by omega)
    rw [leads.suffix.eq_of_length_le (by omega)] at simple'
    cases simple'.symm.trans stopped
  have inside : read.length + stop.length ≤ text.length := by
    have bound := (within.trans ((initial_leads reached).trans (Frame.resume_start starts).2).suffix).length_le
    rwa [List.length_append, length_glyphs] at bound
  have behind := leads.length_le
  have bound := within'.length_le
  rw [List.length_append] at bound
  simp only [same, same', Place.offset, List.length_append]
  omega

end State

/-- The scan of a text ends after a number of steps that its length bounds. Each of its states stands in the text, with
all parentheses that know their partner, and goes on there at an offset that is not in front of an earlier one. What it
looks at for evidence are pieces of the text one behind the other. -/
theorem scan_moves_on (text : List Char) :
    let states := (State.initial text).trail
    let inspections := states.filterMap (State.inspection? text.length)
    (∃ last ∈ states.getLast?, last.advance = .done (scan text)) ∧
    states.length ≤ 4 * text.length + 2 ∧
    (∀ state ∈ states, state.place.Paired ∧ state.place.Stands text (state.place.offset text.length) ∧
      state.answer.Stands text (state.answer.offset text.length)) ∧
    (states.map fun state => state.answer.offset text.length).Pairwise (· ≤ ·) ∧
    (∀ state ∈ states, state.inspection? text.length = none → ∀ frame place,
      state.frame.resume state.place = .start frame place → frame.observe place.begin.simple = frame) ∧
    (∀ inspection ∈ inspections, inspection.start ≤ inspection.stop ∧ inspection.stop ≤ text.length ∧
      (text.take inspection.stop).drop inspection.start = inspection.statement) ∧
    inspections.Pairwise fun first second => first.stop ≤ second.start ∧ first.start < second.start := by
  intro states inspections
  have reached {state : State} (member : state ∈ states) := State.reaches_of_mem_trail member
  refine ⟨State.exists_last_trail _, ?_, ?_, ?_, ?_, ?_, ?_⟩
  · have bound := State.length_trail_le (.initial text)
    rwa [State.remaining, State.initial, length_glyphs] at bound
  · intro state member
    have paired := State.paired_of_reaches (reached member)
    have leads := State.initial_leads (reached member)
    exact ⟨paired, Place.stands_of_suffix leads.suffix, Place.stands_of_suffix (leads.trans (State.leads_answer paired)).suffix⟩
  · rw [List.pairwise_map]
    apply State.pairwise_trail
    intro now next later before goes onward
    have paired := State.paired_of_reaches before
    have paired' := State.paired_of_reaches (before.tail goes)
    have leads := (goes.answer_leads paired).trans (onward.leads paired')
    exact (leads.trans (State.leads_answer (State.paired_of_reaches ((before.tail goes).trans onward)))).offset_le _
  · intro state _ unseen frame place starts
    exact State.observe_of_not_inspected starts unseen
  · intro inspection member
    obtain ⟨state, listed, found⟩ := List.mem_filterMap.mp member
    exact State.slice_inspection (reached listed) found
  · rw [List.pairwise_filterMap]
    apply State.pairwise_trail
    intro now next later before goes onward first found second found'
    exact State.inspections_apart before goes onward found found'

end LoopCost
