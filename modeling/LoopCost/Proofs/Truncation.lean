import LoopCost.Proofs.Cutting
import Mathlib.Data.List.Forall2

/-! What a truncated text lacks is more statements, more loops and more evidence. Statements and loops can only add to
the depths. Evidence can make a `while` loop logarithmic that is linear as far as the text goes, so each such loop may
take one level from the linear depth. -/

namespace LoopCost

inductive Sharpens : Option Growth → Option Growth → Prop
  | same (growth : Option Growth) : Sharpens growth growth
  | evidence : Sharpens (some .linear) (some .logarithmic)

theorem Sharpens.trans {now later final : Option Growth} (first : Sharpens now later) (second : Sharpens later final) :
    Sharpens now final := by
  cases first with
  | same => exact second
  | evidence => cases second; exact .evidence

theorem Sharpens.trans_all {now later final : List (Option Growth)} (first : List.Forall₂ Sharpens now later)
    (second : List.Forall₂ Sharpens later final) : List.Forall₂ Sharpens now final := by
  induction first generalizing final with
  | nil => exact second
  | cons head _ ih =>
    cases second with
    | cons head' tail => exact .cons (head.trans head') (ih tail)

theorem Growth.sharpens_ofWhile (condition : List Char) {now later : Bool} (kept : now = true → later = true) :
    Sharpens (some (ofWhile condition [] now)) (some (ofWhile condition [] later)) := by
  cases now with
  | true => rw [kept rfl]; exact .same _
  | false =>
    cases later with
    | false => exact .same _
    | true =>
      unfold ofWhile
      dsimp only
      split
      · exact .same _
      split
      · exact .same _
      · cases rescales [] (freeNames condition) with
        | false => exact .evidence
        | true => exact .same _

namespace Frame

/-- Evidence for the loop around is kept, and an `if` may have got to its `else`. -/
structure Keeps (frame later : Frame) : Prop where
  construct : later.construct = frame.construct ∨ frame.construct = .conditional ∧ later.construct = .branch
  rescaled : frame.watch.any Watch.rescaled = true → later.watch.any Watch.rescaled = true

namespace Keeps

variable {frame later : Frame} (keeps : frame.Keeps later)
include keeps

theorem isLoop_eq : later.construct.isLoop = frame.construct.isLoop := by
  rcases keeps.construct with same | ⟨conditional, branch⟩
  · rw [same]
  · rw [conditional, branch]
    rfl

theorem growth? : Sharpens frame.growth? later.growth? := by
  unfold Frame.growth?
  rcases keeps.construct with same | ⟨conditional, branch⟩
  · rw [same]
    cases frame.construct with
    | whileLoop condition => exact Growth.sharpens_ofWhile condition keeps.rescaled
    | _ => exact .same _
  · rw [conditional, branch]
    exact .same _

theorem deepen (growth growth' : Option Growth) : (frame.deepen growth).Keeps (later.deepen growth') := by
  refine ⟨?_, ?_⟩
  · rw [construct_deepen, construct_deepen]
    exact keeps.construct
  · rw [watch_deepen, watch_deepen]
    exact keeps.rescaled

theorem absorbed (outer : Frame) : (outer.absorbFrame frame).Keeps (outer.absorbFrame later) := by
  refine ⟨?_, ?_⟩
  · rw [absorbFrame_construct, absorbFrame_construct]
    exact .inl rfl
  · rw [watch_absorbFrame, watch_absorbFrame, keeps.isLoop_eq]
    split
    · exact id
    · exact keeps.rescaled

theorem growths (around : List Frame) : List.Forall₂ Sharpens (frame.growths around) (later.growths around) := by
  induction around generalizing frame later with
  | nil => exact .cons keeps.growth? .nil
  | cons outer around ih => exact .cons keeps.growth? (ih ((keeps.deepen _ _).absorbed outer))

end Keeps

theorem Turns.keeps {frame inner : Frame} (turns : frame.Turns inner) (statement : Option (List Char)) :
    frame.Keeps (inner.observe statement) := by
  refine ⟨?_, ?_⟩
  · rw [observe_construct]
    exact turns.construct
  · rw [← turns.watch_eq]
    cases statement with
    | none => exact id
    | some text =>
      unfold observe
      cases inner.watch with
      | none => exact id
      | some watch =>
        intro rescaled
        have rescaled : watch.rescaled = true := rescaled
        simp [Watch.observe, rescaled]

/-- Without more evidence inside, what a new construct hands back is what it was given. -/
theorem watch_absorbFrame_enter (outer : Frame) (construct : Construct) (growth : Option Growth) :
    (outer.absorbFrame ((Frame.enter construct outer.watch).deepen growth)).watch = outer.watch := by
  rw [watch_absorbFrame, construct_deepen, watch_deepen]
  cases construct <;> rfl

theorem Keeps.entered {frame later : Frame} (keeps : frame.Keeps later) (construct : Construct) (growth : Option Growth) :
    frame.Keeps (later.absorbFrame ((Frame.enter construct later.watch).deepen growth)) := by
  refine ⟨?_, ?_⟩
  · rw [absorbFrame_construct]
    exact keeps.construct
  · rw [watch_absorbFrame_enter]
    exact keeps.rescaled

end Frame

namespace State

def endGrowths (state : State) : List (Option Growth) :=
  match _ : state.advance with
  | .done _ => [state.frame.growth?]
  | .running next =>
    if next.around.length < state.around.length then state.frame.growth? :: next.endGrowths
    else if state.around.length < next.around.length then next.endGrowths.tail
    else next.endGrowths
termination_by state.remaining
decreasing_by all_goals exact remaining_advance ‹_›

theorem endGrowths_of_done {state : State} {outcome : Outcome} (ends : state.advance = .done outcome) :
    state.endGrowths = [state.frame.growth?] := by
  rw [endGrowths]
  split
  · rfl
  · next goes => cases ends.symm.trans goes

section

variable {state next : State} (goes : state.Goes next)
include goes

theorem endGrowths_of_goes :
    state.endGrowths =
      if next.around.length < state.around.length then state.frame.growth? :: next.endGrowths
      else if state.around.length < next.around.length then next.endGrowths.tail
      else next.endGrowths := by
  rw [endGrowths]
  split
  · next ends => cases goes.symm.trans ends
  · next same => cases goes.symm.trans same; rfl

theorem endGrowths_stays (around_eq : next.around = state.around) : state.endGrowths = next.endGrowths := by
  rw [endGrowths_of_goes goes, around_eq, if_neg (Nat.lt_irrefl _), if_neg (Nat.lt_irrefl _)]

theorem endGrowths_enters {outer : Frame} (around_eq : next.around = outer :: state.around) :
    state.endGrowths = next.endGrowths.tail := by
  rw [endGrowths_of_goes goes, around_eq, List.length_cons, if_neg (Nat.not_lt_of_le (Nat.le_succ _)),
    if_pos (Nat.lt_succ_self _)]

theorem endGrowths_leaves {outer : Frame} (enclosed : state.around = outer :: next.around) :
    state.endGrowths = state.frame.growth? :: next.endGrowths := by
  rw [endGrowths_of_goes goes, enclosed, List.length_cons, if_pos (Nat.lt_succ_self _)]

end

/-- What comes later can only be evidence. -/
theorem sharpens_endGrowths (state : State) :
    List.Forall₂ Sharpens (state.frame.growths state.around) state.endGrowths := by
  induction state using State.run.induct with
  | case2 state outcome ends =>
    rw [endGrowths_of_done ends, (advance_done ends).1]
    exact .cons (.same _) .nil
  | case1 state next goes later =>
    have goes : state.Goes next := goes
    cases goes.step with
    | @stays frame start starts opens place_eq frame_eq around_eq =>
      have keeps := (Frame.resume_start starts).1.keeps start.begin.simple
      rw [frame_eq, around_eq, Frame.growths_absorb_zero] at later
      rw [endGrowths_stays goes around_eq]
      exact Sharpens.trans_all (keeps.growths state.around) later
    | @enters frame start construct starts opens place_eq frame_eq around_eq =>
      have keeps := (Frame.resume_start starts).1.keeps start.begin.simple
      rw [frame_eq, around_eq, Frame.growths] at later
      rw [endGrowths_enters goes around_eq]
      generalize next.endGrowths = finals at later
      -- What the new construct itself comes to does not matter here, only what it hands back to those around it.
      cases later with
      | cons _ later => exact Sharpens.trans_all ((keeps.entered construct _).growths state.around) later
    | leaves _ enclosed frame_eq =>
      rw [frame_eq] at later
      rw [endGrowths_leaves goes enclosed, enclosed, Frame.growths]
      exact .cons (.same _) later

end State

structure Metrics.Within (cost other : Metrics) (slack : Nat) : Prop where
  loops : cost.loops ≤ other.loops
  linear : cost.linear ≤ other.linear + slack
  log : cost.log ≤ other.log

namespace Metrics

theorem Within.refl (cost : Metrics) : cost.Within cost 0 := ⟨Nat.le_refl _, Nat.le_refl _, Nat.le_refl _⟩

theorem Within.trans {cost middle other : Metrics} {slack : Nat} (first : cost.Within middle slack)
    (second : middle.Within other 0) : cost.Within other slack :=
  ⟨Nat.le_trans first.loops second.loops, Nat.le_trans first.linear (Nat.add_le_add_right second.linear slack),
    Nat.le_trans first.log second.log⟩

theorem within_enclose (cost : Metrics) (frame : Frame) (growth : Option Growth) :
    cost.Within (cost.enclose frame growth) 0 := by
  refine ⟨?_, ?_, ?_⟩ <;> simp only [enclose] <;> omega

/-- Each growth that sharpens takes at most one linear level. -/
theorem Within.enclose {cost other : Metrics} {slack : Nat} (within : cost.Within other slack) (frame : Frame)
    {now final : Option Growth} (sharpens : Sharpens now final) :
    (cost.enclose frame now).Within (other.enclose frame final) (slack + if now = final then 0 else 1) := by
  obtain ⟨loops, linear, log⟩ := within
  cases sharpens with
  | same => refine ⟨?_, ?_, ?_⟩ <;> simp only [Metrics.enclose, if_true] <;> omega
  | evidence => refine ⟨?_, ?_, ?_⟩ <;> simp [Metrics.enclose] <;> omega

def changes (now final : List (Option Growth)) : Nat := (now.zip final).countP fun (early, late) => early ≠ late

theorem changes_cons (early late : Option Growth) (now final : List (Option Growth)) :
    changes (early :: now) (late :: final) = changes now final + if early = late then 0 else 1 := by
  simp only [changes, List.zip_cons_cons, List.countP_cons]
  split <;> simp_all

theorem changes_self (growths : List (Option Growth)) : changes growths growths = 0 := by
  induction growths with
  | nil => rfl
  | cons growth growths ih => rw [changes_cons, ih, if_pos rfl]

theorem Within.settle {now final : List (Option Growth)} (sharpens : List.Forall₂ Sharpens now final)
    {cost other : Metrics} {slack : Nat} (within : cost.Within other slack) (frames : List Frame) :
    (cost.settle frames now).Within (other.settle frames final) (slack + changes now final) := by
  induction sharpens generalizing cost other slack frames with
  | nil => cases frames <;> exact within
  | @cons early late now final head _ ih =>
    cases frames with
    | nil =>
      refine ⟨within.loops, Nat.le_trans within.linear ?_, within.log⟩
      exact Nat.add_le_add_left (Nat.le_add_right slack _) other.linear
    | cons frame frames =>
      rw [changes_cons, Nat.add_comm (changes now final), ← Nat.add_assoc]
      exact ih (within.enclose frame head) frames

/-- What is settled on top adds to what is settled below. -/
theorem Within.settle_same {cost other : Metrics} (within : cost.Within other 0) (frames : List Frame)
    (growths : List (Option Growth)) : (cost.settle frames growths).Within (other.settle frames growths) 0 := by
  have same : List.Forall₂ Sharpens growths growths := List.forall₂_same.mpr fun growth _ => .same growth
  have settled := within.settle same frames
  rwa [changes_self] at settled

theorem settle_congr_head {frame other : Frame} (linear : frame.linear = other.linear) (log : frame.log = other.log)
    (inside : Metrics) (frames : List Frame) (growths : List (Option Growth)) :
    inside.settle (frame :: frames) growths = inside.settle (other :: frames) growths := by
  cases growths with
  | nil => rfl
  | cons growth growths => simp only [settle, enclose, linear, log]

end Metrics

namespace State

/-- How many open `while` loops are linear if the text ends here, and turn out logarithmic in the text as it goes on. -/
def lateEvidence (state : State) : Nat := Metrics.changes (state.frame.growths state.around) state.endGrowths

theorem depths_observe {frame inner : Frame} (turns : frame.Turns inner) (statement : Option (List Char)) :
    (inner.observe statement).linear = frame.linear ∧ (inner.observe statement).log = frame.log := by
  rw [← turns.linear_eq, ← turns.log_eq]
  cases statement <;> exact ⟨rfl, rfl⟩

/-- What the rest of the text adds does not make less of what has been found. -/
theorem settle_within_run (state : State) :
    (Metrics.settle ⟨state.loops, 0, 0⟩ (state.frame :: state.around) state.endGrowths).Within state.run.metrics 0 := by
  induction state using State.run.induct with
  | case2 state outcome ends =>
    obtain ⟨top, -, metrics⟩ := advance_done ends
    rw [endGrowths_of_done ends, run_of_done ends, metrics, top]
    exact .refl _
  | case1 state next goes later =>
    have goes : state.Goes next := goes
    rw [run_of_goes goes]
    cases goes.step with
    | @stays frame start starts opens place_eq frame_eq around_eq loops_eq =>
      obtain ⟨linear, log⟩ := depths_observe (Frame.resume_start starts).1 start.begin.simple
      rw [frame_eq, around_eq, loops_eq, Metrics.settle_congr_head (Nat.max_zero _) (Nat.max_zero _),
        Metrics.settle_congr_head linear log] at later
      rwa [endGrowths_stays goes around_eq]
    | @enters frame start construct starts opens place_eq frame_eq around_eq loops_eq =>
      obtain ⟨linear, log⟩ := depths_observe (Frame.resume_start starts).1 start.begin.simple
      rw [endGrowths_enters goes around_eq, ← Metrics.settle_congr_head linear log]
      rw [around_eq, loops_eq] at later
      generalize next.endGrowths = finals at later ⊢
      cases finals with
      | nil => exact later
      | cons growth growths =>
        have inner := Metrics.within_enclose ⟨state.loops, 0, 0⟩ next.frame growth
        exact (inner.settle_same _ growths).trans later
    | @leaves outer _ enclosed frame_eq loops_eq =>
      have sharpens := next.sharpens_endGrowths
      obtain ⟨growths, here⟩ := next.frame.growths_eq_cons next.around
      rw [endGrowths_leaves goes enclosed, enclosed, Metrics.settle_cons, ← loops_eq]
      rw [here] at sharpens
      rw [frame_eq] at later
      generalize next.endGrowths = finals at sharpens later ⊢
      -- There is a growth for the construct that takes in the one that ends, so it makes no difference which comes first.
      cases sharpens with
      | cons => rwa [Metrics.settle_absorbFrame] at later

end State

/-- A text that is cut where a statement ends has no more loops and no deeper logarithmic nesting than the whole text.
Its linear nesting is deeper by at most one level for each `while` loop whose evidence is cut off. -/
theorem metrics_truncated {front back : List Char} (ends : EndsStatement front) {before state : State}
    (reached : (State.initial (front ++ back)).Reaches before) (goes : before.Goes state)
    (inside : back.length < before.place.length) (here : state.place.length = back.length) :
    (scan front).metrics.loops ≤ (scan (front ++ back)).metrics.loops ∧
      (scan front).metrics.log ≤ (scan (front ++ back)).metrics.log ∧
      (scan front).metrics.linear ≤ (scan (front ++ back)).metrics.linear + state.lateEvidence := by
  have reached' : (State.initial (front ++ back)).Reaches state := reached.tail goes
  have late := (Metrics.Within.refl ⟨state.loops, 0, 0⟩).settle state.sharpens_endGrowths (state.frame :: state.around)
  have within := late.trans state.settle_within_run
  rw [Nat.zero_add] at within
  rw [State.metrics_scan_front ends reached goes inside here, scan, reached'.run_eq]
  exact ⟨within.loops, within.log, within.linear⟩

/-- The halving behind the cut is the only evidence of the loop. -/
theorem metrics_truncated_halving :
    ∃ before state : State, (State.initial ("while(n)\x7ba;".toList ++ "n/=2;\x7d".toList)).Reaches before ∧ before.Goes state ∧
      state.place.length = "n/=2;\x7d".toList.length ∧ state.lateEvidence ≠ 0 := by
  let start := State.initial ("while(n)\x7ba;".toList ++ "n/=2;\x7d".toList)
  let loop := start.beginInside start.frame start.place
  let block := loop.beginInside loop.frame loop.place
  let cut := block.beginInside block.frame block.place
  have first : start.Goes loop := rfl
  have second : loop.Goes block := rfl
  have third : block.Goes cut := rfl
  have reached : start.Reaches block := .tail (.single first) second
  have ends : EndsStatement "while(n)\x7ba;".toList := by
    intro last here
    cases here
    exact .inl rfl
  have bound := (metrics_truncated ends reached third (by decide) rfl).2.2
  have front : (scan "while(n)\x7ba;".toList).metrics.linear = 1 := by
    rw [metrics_scan]
    decide +kernel
  have whole : (scan ("while(n)\x7ba;".toList ++ "n/=2;\x7d".toList)).metrics.linear = 0 := by
    rw [metrics_scan]
    decide +kernel
  rw [front, whole, Nat.zero_add] at bound
  exact ⟨block, cut, reached, third, rfl, Nat.ne_of_gt bound⟩

/-- Behind the simple statement at the cut the text is nested properly, and its front has the deeper linear nesting. -/
theorem linear_of_front_deeper :
    ∃ (before : State) (frame : Frame) (start : Place),
      (State.initial ("while(n)\x7ba;".toList ++ "n/=2;\x7d".toList)).Reaches before ∧
      before.frame.resume before.place = .start frame start ∧ start.begin.simple = some "a;".toList ∧
      start.begin.place.length = "n/=2;\x7d".toList.length ∧
      ¬ (scan "while(n)\x7ba;".toList).metrics.linear ≤ (scan ("while(n)\x7ba;".toList ++ "n/=2;\x7d".toList)).metrics.linear := by
  let start := State.initial ("while(n)\x7ba;".toList ++ "n/=2;\x7d".toList)
  let loop := start.beginInside start.frame start.place
  let block := loop.beginInside loop.frame loop.place
  have reached : start.Reaches block := .tail (.single rfl) rfl
  refine ⟨block, block.frame, block.place, reached, rfl, rfl, rfl, ?_⟩
  rw [metrics_scan, metrics_scan]
  decide +kernel

end LoopCost
