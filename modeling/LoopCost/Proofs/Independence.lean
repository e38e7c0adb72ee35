import LoopCost.Proofs.Balance
import LoopCost.Proofs.Entry

/-! Statements at top level are independent. Wherever the scan comes back to the top level it goes on as a scan of the
rest alone would: no parenthesis that is still open in front of the place, no watch and no line that was carried on
reaches behind it. -/

namespace LoopCost

namespace State

/-- The program is around everything else. -/
theorem outermost_program {text : List Char} {state : State} (reached : (initial text).Reaches state) :
    ∃ frame ∈ (state.frame :: state.around).getLast?, frame.construct = .program := by
  induction reached with
  | refl => exact ⟨.enter .program none, rfl, rfl⟩
  | @tail state next _ goes ih =>
    have kept {inner : Frame} {around : List Frame} (same : around = state.around)
        (turns : inner.construct = state.frame.construct ∨
          state.frame.construct = .conditional ∧ inner.construct = .branch) :
        ∃ frame ∈ (inner :: around).getLast?, frame.construct = .program := by
      obtain ⟨frame, last, program⟩ := ih
      subst same
      cases around : state.around with
      | nil =>
        rw [around, List.getLast?_singleton, Option.mem_some_iff] at last
        subst last
        refine ⟨inner, rfl, ?_⟩
        rcases turns with same | ⟨conditional, -⟩
        · rw [same, program]
        · rw [program] at conditional
          cases conditional
      | cons outer others =>
        rw [around, List.getLast?_cons_cons] at last
        exact ⟨frame, by rwa [List.getLast?_cons_cons], program⟩
    cases goes.step with
    | @stays turned start starts opens place_eq frame_eq around_eq =>
      rw [frame_eq]
      apply kept around_eq
      have turns := (Frame.resume_start starts).1.construct
      rwa [← turned.observe_construct start.begin.simple] at turns
    | @enters turned start construct starts opens place_eq frame_eq around_eq =>
      rw [around_eq, List.getLast?_cons_cons]
      apply kept rfl
      rw [turned.observe_construct]
      exact (Frame.resume_start starts).1.construct
    | @leaves outer ends enclosed frame_eq =>
      obtain ⟨frame, last, program⟩ := ih
      rw [enclosed, List.getLast?_cons_cons] at last
      rw [frame_eq]
      cases around : next.around with
      | nil =>
        rw [around, List.getLast?_singleton, Option.mem_some_iff] at last
        subst last
        exact ⟨_, rfl, (Frame.absorbFrame_construct _ _).trans program⟩
      | cons other others =>
        rw [around, List.getLast?_cons_cons] at last
        exact ⟨frame, by rwa [List.getLast?_cons_cons], program⟩

theorem program_of_top {text : List Char} {state : State} (reached : (initial text).Reaches state)
    (top : state.around = []) : state.frame.construct = .program := by
  obtain ⟨frame, last, program⟩ := outermost_program reached
  rw [top, List.getLast?_singleton, Option.mem_some_iff] at last
  rw [last, program]

/-- The scan stands at the text from its place on, whatever is in front of it. -/
theorem place_eq_glyphs {front back : List Char} {state : State} (reached : (initial (front ++ back)).Reaches state)
    (here : state.place.length = back.length) : state.place = glyphs back := by
  obtain ⟨read, whole, -⟩ := initial_leads reached
  have spelled := congrArg plain whole
  rw [plain_glyphs, plain_append] at spelled
  have length : (plain state.place).length = back.length := by rw [plain, List.length_map, here]
  obtain ⟨-, same⟩ := List.append_inj' spelled length.symm
  rw [same]
  exact eq_glyphs_of_suffix ⟨read, whole.symm⟩

/-- A statement at the head of a text is the first to be read. -/
theorem resume_initial {text : List Char} (starts : ∃ c tail, text = c :: tail ∧ Unicode.isBlank c = false ∧ c ≠ ')' ∧ c ≠ '}') :
    (initial text).frame.resume (initial text).place = .start (.enter .program none) (glyphs text) := by
  obtain ⟨c, tail, rfl, visible, closing, brace⟩ := starts
  obtain ⟨span, here⟩ := exists_glyphs_cons c tail
  simp [initial, Frame.enter, Frame.resume, here, Place.skipClosers, visible, closing, brace]

end State

/-- Where nothing but the program is open, the rest of the text adds its own loops and its own depths. -/
theorem metrics_of_top {front back : List Char} {state : State}
    (reached : (State.initial (front ++ back)).Reaches state) (top : state.around = [])
    (here : state.place.length = back.length) :
    (scan (front ++ back)).metrics = {
      loops := state.loops + (scan back).metrics.loops
      linear := max state.frame.linear (scan back).metrics.linear
      log := max state.frame.log (scan back).metrics.log } := by
  have program := State.program_of_top reached top
  have place := State.place_eq_glyphs reached here
  have rest := Place.run_program (glyphs back) state place top program
  rw [metrics_scan back, scan, State.Reaches.run_eq reached, rest]
  rfl

/-- The open parenthesis of a directive is closed in the rest, and a loop of each kind is on either side. -/
theorem metrics_of_top_behind_directive :
    ∃ state : State, (State.initial ("for(;i<n;);#(\n".toList ++ ")for(;i<n;i*=2);".toList)).Reaches state ∧
      state.around = [] ∧ state.place.length = ")for(;i<n;i*=2);".toList.length ∧ state.loops = 1 ∧
      (scan ("for(;i<n;);#(\n".toList ++ ")for(;i<n;i*=2);".toList)).metrics = { loops := 2, linear := 1, log := 1 } := by
  let start := State.initial ("for(;i<n;);#(\n".toList ++ ")for(;i<n;i*=2);".toList)
  let loop := start.beginInside start.frame start.place
  let body := loop.beginInside loop.frame loop.place
  have first : start.Goes loop := rfl
  have second : loop.Goes body := rfl
  obtain ⟨notes, third⟩ : ∃ notes, body.Goes (body.returned start.frame [] body.place notes) :=
    State.goes_of_finish body rfl rfl
  let top := body.returned start.frame [] body.place notes
  have fourth : top.Goes (top.beginInside top.frame top.place) := rfl
  have reached : start.Reaches (top.beginInside top.frame top.place) :=
    .tail (.tail (.tail (.single first) second) third) fourth
  refine ⟨_, reached, rfl, rfl, rfl, ?_⟩
  rw [metrics_of_top reached rfl rfl]
  have rest : (scan ")for(;i<n;i*=2);".toList).metrics = { loops := 1, linear := 0, log := 1 } := by
    rw [metrics_scan]
    decide +kernel
  rw [rest]
  rfl

end LoopCost
