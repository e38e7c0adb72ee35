import LoopCost.Proofs.Steps
import Mathlib.Data.Option.Basic

/-! Two scans side by side. They read different texts, but at places that are alike for every reader; so they open the
same kinds of constructs and collect the same depths. The second scan may have further constructs around it. -/

namespace LoopCost

def SameEvidence (text other : List Char) : Prop := ∀ names, rescales text names = rescales other names

theorem SameEvidence.refl (text : List Char) : SameEvidence text text := fun _ => rfl

theorem SameEvidence.semicolon {text other : List Char} (same : SameEvidence text other) :
    SameEvidence (text ++ [';']) (other ++ [';']) := by
  intro names
  rw [rescales_append_stop (by simp), rescales_append_stop (by simp), same names]

structure SameHeader (header other : List Char) : Prop where
  for_eq : Growth.ofFor header = Growth.ofFor other
  names_eq : freeNames header = freeNames other
  while_eq : ∀ shrinks, Growth.ofWhile header [] shrinks = Growth.ofWhile other [] shrinks

theorem SameHeader.refl (header : List Char) : SameHeader header header := ⟨rfl, rfl, fun _ => rfl⟩

/-- What is inside of the two constructs counts alike. Where the second text encloses the first one, the program of the
first is a block of the second. -/
inductive Construct.Alike (enclosed : Prop) : Construct → Construct → Prop
  | same {construct : Construct} (inner : enclosed → construct ≠ .program) : Alike enclosed construct construct
  | top (outer : enclosed) : Alike enclosed .program .block
  | forLoop {header other : List Char} (same : SameHeader header other) :
      Alike enclosed (.forLoop header) (.forLoop other)
  | whileLoop {condition other : List Char} (same : SameHeader condition other) :
      Alike enclosed (.whileLoop condition) (.whileLoop other)

namespace Construct.Alike

variable {enclosed : Prop} {construct other : Construct}

theorem isLoop_eq (alike : construct.Alike enclosed other) : construct.isLoop = other.isLoop := by
  cases alike <;> rfl

theorem watch_eq (alike : construct.Alike enclosed other) (around : Option Watch) :
    construct.watch around = other.watch around := by
  cases alike with
  | same | top | forLoop => rfl
  | whileLoop same => simp only [Construct.watch, same.names_eq]

end Construct.Alike

structure Frame.Alike (enclosed : Prop) (frame other : Frame) : Prop where
  construct : frame.construct.Alike enclosed other.construct
  fresh_eq : frame.fresh = other.fresh
  linear_eq : frame.linear = other.linear
  log_eq : frame.log = other.log
  watch_eq : frame.watch = other.watch

namespace Frame.Alike

variable {enclosed : Prop} {frame other inner within : Frame}

theorem enter {construct construct' : Construct} (alike : construct.Alike enclosed construct')
    {around around' : Option Watch} (same : around = around') :
    (Frame.enter construct around).Alike enclosed (Frame.enter construct' around') :=
  ⟨alike, rfl, rfl, rfl, same ▸ alike.watch_eq around⟩

theorem observe (alike : frame.Alike enclosed other) {statement statement' : Option (List Char)}
    (same : Option.Rel SameEvidence statement statement') :
    (frame.observe statement).Alike enclosed (other.observe statement') := by
  cases same with
  | none => exact alike
  | some same =>
    refine ⟨alike.construct, alike.fresh_eq, alike.linear_eq, alike.log_eq, ?_⟩
    simp only [Frame.observe, alike.watch_eq]
    congr 1
    funext watch
    simp only [Watch.observe, same watch.names]

theorem absorb (alike : frame.Alike enclosed other) (linear log : Nat) :
    (frame.absorb linear log).Alike enclosed (other.absorb linear log) :=
  ⟨alike.construct, rfl, congrArg (max · linear) alike.linear_eq, congrArg (max · log) alike.log_eq, alike.watch_eq⟩

theorem growth?_eq (alike : frame.Alike enclosed other) : frame.growth? = other.growth? := by
  obtain ⟨construct, fresh, linear, log, watch⟩ := frame
  obtain ⟨construct', fresh', linear', log', watch'⟩ := other
  obtain ⟨same, -, -, -, watch_eq⟩ := alike
  subst watch_eq
  cases same with
  | same | top => rfl
  | forLoop same => simp only [Frame.growth?, same.for_eq]
  | whileLoop same => simp only [Frame.growth?, same.while_eq]

theorem deepen (alike : frame.Alike enclosed other) (growth : Option Growth) :
    (frame.deepen growth).Alike enclosed (other.deepen growth) := by
  unfold Frame.deepen
  split
  · exact ⟨alike.construct, alike.fresh_eq, congrArg (· + 1) alike.linear_eq, alike.log_eq, alike.watch_eq⟩
  · exact ⟨alike.construct, alike.fresh_eq, alike.linear_eq, congrArg (· + 1) alike.log_eq, alike.watch_eq⟩
  · exact alike

theorem absorbFrame (alike : frame.Alike enclosed other) (inside : inner.Alike enclosed within) :
    (frame.absorbFrame inner).Alike enclosed (other.absorbFrame within) := by
  have outer := alike.absorb inner.linear inner.log
  rw [inside.linear_eq, inside.log_eq] at outer
  unfold Frame.absorbFrame
  dsimp only
  rw [inside.linear_eq, inside.log_eq, inside.construct.isLoop_eq, inside.watch_eq]
  split
  · exact outer
  · exact ⟨outer.construct, outer.fresh_eq, outer.linear_eq, outer.log_eq, rfl⟩

end Frame.Alike

/-- A way in which places of two texts are alike. At a place `inside` the readers find the same on both sides, except
where the first of them runs `beyond` the part of the text that the two have in common. -/
structure Reading where
  places : Place → Place → Prop
  enclosed : Prop := False
  inside : Place → Prop := fun _ => True
  beyond : Place → Prop := fun _ => False
  further {place rest : Place} : beyond place → rest.length ≤ place.length → beyond rest
  nil : enclosed → places [] []
  /-- At the end of the first text the brace that encloses it may still be there. -/
  head {place other} : places place other → inside place →
    place = [] ∧ (other = [] ∨ enclosed ∧ ∃ brace, brace.char = '}' ∧ other = [brace]) ∨
    ∃ first rest first' rest', place = first :: rest ∧ other = first' :: rest' ∧ first'.char = first.char ∧
      (Unicode.isBlank first.char = false → places rest rest')
  blanks {place other} : places place other → inside place →
    places place.skipBlanks other.skipBlanks ∧ inside place.skipBlanks
  closers {place other} : ¬ enclosed → places place other → inside place →
    places place.skipClosers other.skipClosers ∧ inside place.skipClosers
  word {place other} : places place other → inside place →
    other.readWord.1 = place.readWord.1 ∧ places place.readWord.2 other.readWord.2 ∧ inside place.readWord.2
  header {place other} : places place other → inside place →
    place.readHeader? = none ∧ other.readHeader? = none ∨
    (∃ header after header' after', place.readHeader? = some (header, after) ∧
      other.readHeader? = some (header', after') ∧ SameHeader header header' ∧ places after after' ∧ inside after) ∨
    ∃ header after, place.readHeader? = some (header, after) ∧ beyond after
  directive {first other rest rest'} : first.char = '#' → places (first :: rest) (other :: rest') → inside (first :: rest) →
    places (Place.afterDirective .other rest) (Place.afterDirective .other rest') ∨
      beyond (Place.afterDirective .other rest)
  caseLabel {place other} : places place other → inside place →
    Option.Rel places place.afterCase? other.afterCase?
  label {place other} : places place other → inside place →
    Option.Rel places place.afterLabel? other.afterLabel?
  simple {place other} : places place other → inside place →
    SameEvidence (place.takeSimple 0).1 (other.takeSimple 0).1 ∧
        places (place.takeSimple 0).2 (other.takeSimple 0).2 ∧ inside (place.takeSimple 0).2 ∨
      beyond (place.takeSimple 0).2

namespace Reading

/-- Where the whole text is common to both sides, nothing runs beyond it. -/
theorem never_further {place rest : Place} (never : False) (_ : rest.length ≤ place.length) : False := never

variable (reading : Reading)

structure Begins (beginning other : Beginning) : Prop where
  places : reading.places beginning.place other.place
  opens : Option.Rel (Construct.Alike reading.enclosed) beginning.opens other.opens
  simple : Option.Rel SameEvidence beginning.simple other.simple

inductive Moves : Move → Move → Prop
  | start {frame other : Frame} {place place' : Place} (alike : frame.Alike reading.enclosed other)
      (places : reading.places place place') (inside : reading.inside place) :
      Moves (.start frame place) (.start other place')
  | finish {place place' : Place} (places : reading.places place place') : Moves (.finish place) (.finish place')

variable {reading} {place other : Place}

private theorem begins_at {place other : Place} (places : reading.places place other) :
    reading.Begins { place } { place := other } := ⟨places, .none, .none⟩

private theorem begins_with {place other : Place} (places : reading.places place other) {construct : Construct}
    (inner : construct ≠ .program) :
    reading.Begins { place, opens := some construct } { place := other, opens := some construct } :=
  ⟨places, .some (.same fun _ => inner), .none⟩

theorem beginSimple (places : reading.places place other) (inside : reading.inside place) :
    reading.Begins place.beginSimple other.beginSimple ∨ reading.beyond place.beginSimple.place := by
  simp only [Place.beginSimple, Place.readSimple_eq, List.reverse_nil, List.nil_append]
  rcases reading.simple places inside with ⟨evidence, behind, within⟩ | beyond
  · left
    rcases reading.head behind within with ⟨ends, ends'⟩ | ⟨first, rest, first', rest', here, here', same, behind'⟩
    · rw [ends] at behind ⊢
      rcases ends' with ends' | ⟨-, brace, closes, ends'⟩
      · rw [ends'] at behind ⊢
        exact ⟨behind, .none, .some evidence⟩
      · rw [ends'] at behind ⊢
        simp only [Place.endSimple, closes]
        exact ⟨behind, .none, .some evidence⟩
    · rw [here, here'] at behind ⊢
      unfold Place.endSimple
      dsimp only
      rw [same]
      split
      · next stops => exact ⟨behind' (by rw [stops]; decide), .none, .some evidence.semicolon⟩
      split
      · next stops => exact ⟨behind' (by rw [stops]; decide), .some (.same fun _ => by simp), .some evidence⟩
      · exact ⟨behind, .none, .some evidence⟩
  · right
    apply reading.further beyond
    cases (place.takeSimple 0).2 with
    | nil => exact Nat.le_refl _
    | cons stop rest =>
      unfold Place.endSimple
      dsimp only
      split
      · exact Nat.le_succ _
      split
      · exact Nat.le_succ _
      · exact Nat.le_refl _

theorem beginHeaded (places : reading.places place other) (inside : reading.inside place)
    {construct : List Char → Construct} (note note' : Option Note)
    (alike : ∀ {header header'}, SameHeader header header' →
      (construct header).Alike reading.enclosed (construct header')) :
    reading.Begins (place.beginHeaded construct note) (other.beginHeaded construct note') ∨
      reading.beyond (place.beginHeaded construct note).place := by
  unfold Place.beginHeaded
  rcases reading.header places inside with ⟨without, without'⟩ |
    ⟨header, after, header', after', found, found', same, places, -⟩ | ⟨header, after, found, beyond⟩
  · rw [without, without']
    refine (beginSimple places inside).imp_left ?_
    intro begins
    exact ⟨begins.places, begins.opens, begins.simple⟩
  · rw [found, found']
    exact .inl ⟨places, .some (alike same), .none⟩
  · rw [found]
    exact .inr beyond

private def beginLabelled (place : Place) : Option Place → Beginning
  | some after => { place := after }
  | none => place.beginSimple

theorem beginWord (places : reading.places place other) (inside : reading.inside place) :
    reading.Begins place.beginWord other.beginWord ∨ reading.beyond place.beginWord.place := by
  obtain ⟨word, behind, within⟩ := reading.word places inside
  have ordinary {label label' : Option Place} (labels : Option.Rel reading.places label label') :
      reading.Begins (beginLabelled place label) (beginLabelled other label') ∨
        reading.beyond (beginLabelled place label).place := by
    cases labels with
    | none => exact beginSimple places inside
    | some places => exact .inl (begins_at places)
  unfold Place.beginWord
  dsimp only
  rw [word]
  split
  · exact beginHeaded behind within _ _ .forLoop
  · exact beginHeaded behind within _ _ .whileLoop
  · exact beginHeaded behind within _ _ fun _ => .same fun _ => by simp
  · exact beginHeaded behind within _ _ fun _ => .same fun _ => by simp
  · exact .inl (begins_with behind (by simp))
  · exact .inl (begins_with behind (by simp))
  · obtain ⟨behind, within⟩ := reading.blanks behind within
    exact ordinary (reading.caseLabel behind within)
  · exact ordinary (reading.label behind within)

theorem begin (places : reading.places place other) (inside : reading.inside place) :
    reading.Begins place.begin other.begin ∨ reading.beyond place.begin.place := by
  obtain ⟨places, inside⟩ := reading.blanks places inside
  unfold Place.begin
  rcases reading.head places inside with ⟨ends, ends'⟩ | ⟨first, rest, first', rest', here, here', same, behind⟩
  · rw [ends] at places ⊢
    rcases ends' with ends' | ⟨-, brace, closes, ends'⟩
    · rw [ends'] at places ⊢
      exact .inl (begins_at places)
    · rw [ends'] at places ⊢
      simp only [closes, if_true]
      exact .inl (begins_at places)
  · rw [here] at places inside ⊢
    rw [here']
    rw [here'] at places
    dsimp only
    rw [same]
    split
    · exact .inl (begins_at places)
    split
    · next stops => exact .inl (begins_with (behind (by rw [stops]; decide)) (by simp))
    split
    · next stops => exact .inl (begins_at (behind (by rw [stops]; decide)))
    split
    · next hash => exact (reading.directive hash places inside).imp_left begins_at
    split
    · exact beginWord places inside
    · exact beginSimple places inside

theorem afterElse? (places : reading.places place other) (inside : reading.inside place) :
    place.afterElse? = none ∧ other.afterElse? = none ∨
      ∃ body body', place.afterElse? = some body ∧ other.afterElse? = some body' ∧ reading.places body body' ∧
        reading.inside body := by
  obtain ⟨places, inside⟩ := reading.blanks places inside
  obtain ⟨word, behind, within⟩ := reading.word places inside
  unfold Place.afterElse?
  dsimp only
  rw [word]
  split
  · exact .inr ⟨_, _, rfl, rfl, behind, within⟩
  · exact .inl ⟨rfl, rfl⟩

theorem afterDo (places : reading.places place other) (inside : reading.inside place) :
    reading.places place.afterDo other.afterDo ∨ reading.beyond place.afterDo := by
  obtain ⟨start, inside'⟩ := reading.blanks places inside
  obtain ⟨word, behind, within⟩ := reading.word start inside'
  unfold Place.afterDo
  dsimp only
  rw [word]
  split
  · rcases reading.header behind within with ⟨without, without'⟩ |
      ⟨header, after, header', after', found, found', same, behind, within⟩ | ⟨header, after, found, beyond⟩
    · rw [without, without']
      exact .inl behind
    · rw [found, found']
      dsimp only
      obtain ⟨behind, within⟩ := reading.blanks behind within
      rcases reading.head behind within with ⟨ends, ends'⟩ | ⟨first, rest, first', rest', here, here', same, behind'⟩
      · rcases ends' with ends' | ⟨-, brace, closes, ends'⟩
        · rw [ends, ends'] at behind ⊢
          exact .inl behind
        · rw [ends, ends'] at behind ⊢
          obtain ⟨c, span⟩ := brace
          cases closes
          exact .inl behind
      · rw [here, here'] at behind ⊢
        obtain ⟨c, span⟩ := first
        obtain ⟨c', span'⟩ := first'
        cases same
        by_cases semicolon : c = ';'
        · subst semicolon
          exact .inl (behind' (show Unicode.isBlank ';' = false by decide))
        · left
          split
          · next same => cases same; exact absurd rfl semicolon
          · split
            · next same => cases same; exact absurd rfl semicolon
            · exact behind
    · rw [found]
      right
      apply reading.further beyond
      have shorter := Place.length_skipBlanks_le after
      dsimp only
      split
      · next here => rw [here] at shorter; exact Nat.le_of_succ_le shorter
      · exact shorter
  · exact .inl places

variable {frame frame' : Frame}

private theorem moves_once (alike : frame.Alike reading.enclosed frame') (places : reading.places place other)
    (inside : reading.inside place) :
    reading.Moves (if frame.fresh then .start frame place else .finish place)
      (if frame'.fresh then .start frame' other else .finish other) := by
  rw [← alike.fresh_eq]
  split
  · exact .start alike places inside
  · exact .finish places

private def blockMove (frame : Frame) : Place → Move
  | [] => .finish []
  | glyph :: rest => if glyph.char = '}' then .finish rest else .start frame (glyph :: rest)

private theorem moves_block (alike : frame.Alike reading.enclosed frame') (places : reading.places place other)
    (inside : reading.inside place) : reading.Moves (blockMove frame place) (blockMove frame' other) := by
  rcases reading.head places inside with ⟨ends, ends'⟩ | ⟨first, rest, first', rest', here, here', same, behind⟩
  · rcases ends' with ends' | ⟨enclosed, brace, closes, ends'⟩
    · rw [ends, ends'] at places ⊢
      exact .finish places
    · rw [ends, ends', blockMove, blockMove, if_pos closes]
      exact .finish (reading.nil enclosed)
  · rw [here, here'] at places ⊢
    rw [here] at inside
    unfold blockMove
    dsimp only
    rw [same]
    split
    · next stops => exact .finish (behind (by rw [stops]; decide))
    · exact .start alike places inside

private def programMove (frame : Frame) : Place → Move
  | [] => .finish []
  | here => .start frame here

private theorem moves_program (top : ¬ reading.enclosed) (alike : frame.Alike reading.enclosed frame')
    (places : reading.places place other) (inside : reading.inside place) :
    reading.Moves (programMove frame place) (programMove frame' other) := by
  rcases reading.head places inside with ⟨ends, ends'⟩ | ⟨first, rest, first', rest', here, here', -⟩
  · rcases ends' with ends' | ⟨enclosed, -⟩
    · rw [ends, ends'] at places ⊢
      exact .finish places
    · exact absurd enclosed top
  · rw [here, here'] at places ⊢
    rw [here] at inside
    exact .start alike places inside

/-- Where no closer comes next, the program does what a block does. -/
private theorem programMove_skipClosers (frame : Frame) {place : Place} (same : place.skipClosers = place.skipBlanks) :
    programMove frame place.skipClosers = blockMove frame place.skipBlanks := by
  rw [← same]
  cases here : place.skipClosers with
  | nil => rfl
  | cons first rest => rw [programMove, blockMove, if_neg (State.skipClosers_head here).1]; simp

private theorem moves_do (alike : frame.Alike reading.enclosed frame') (places : reading.places place other)
    (inside : reading.inside place) :
    reading.Moves (if frame.fresh then .start frame place else .finish place.afterDo)
        (if frame'.fresh then .start frame' other else .finish other.afterDo) ∨
      ∃ rest, (if frame.fresh then .start frame place else .finish place.afterDo) = Move.finish rest ∧
        reading.beyond rest := by
  rw [← alike.fresh_eq]
  split
  · exact .inl (.start alike places inside)
  · rcases afterDo places inside with behind | beyond
    · exact .inl (.finish behind)
    · exact .inr ⟨_, rfl, beyond⟩

private theorem moves_conditional (alike : frame.Alike reading.enclosed frame') (places : reading.places place other)
    (inside : reading.inside place) :
    reading.Moves
      (if frame.fresh then .start frame place
        else match place.afterElse? with
          | some body => .start { frame with construct := .branch, fresh := true } body
          | none => .finish place)
      (if frame'.fresh then .start frame' other
        else match other.afterElse? with
          | some body => .start { frame' with construct := .branch, fresh := true } body
          | none => .finish other) := by
  rw [← alike.fresh_eq]
  split
  · exact .start alike places inside
  · rcases afterElse? places inside with ⟨without, without'⟩ | ⟨body, body', found, found', behind, within⟩
    · rw [without, without']
      exact .finish places
    · rw [found, found']
      exact .start ⟨.same fun _ => by simp, rfl, alike.linear_eq, alike.log_eq, alike.watch_eq⟩ behind within

/-- The frames move on alike. Where the second text encloses the first one, that must have no closers at top level. -/
theorem resume (alike : frame.Alike reading.enclosed frame') (places : reading.places place other)
    (inside : reading.inside place)
    (strays : reading.enclosed → frame.construct = .program → place.skipClosers = place.skipBlanks) :
    reading.Moves (frame.resume place) (frame'.resume other) ∨
      ∃ rest, frame.resume place = .finish rest ∧ reading.beyond rest := by
  obtain ⟨blanks, within⟩ := reading.blanks places inside
  have once := moves_once alike places inside
  have block := moves_block alike blanks within
  obtain ⟨construct, fresh, linear, log, watch⟩ := frame
  obtain ⟨construct', fresh', linear', log', watch'⟩ := frame'
  cases alike.construct with
  | forLoop | whileLoop => exact .inl once
  | top outer =>
    left
    rw [← programMove_skipClosers _ (strays outer rfl)] at block
    exact block
  | same inner =>
    cases construct with
    | forLoop | whileLoop | branch => exact .inl once
    | block =>
      left
      exact block
    | program =>
      have top : ¬ reading.enclosed := fun enclosed => inner enclosed rfl
      obtain ⟨closers, within⟩ := reading.closers top places inside
      exact .inl (moves_program top alike closers within)
    | doLoop => exact moves_do alike places inside
    | conditional => exact .inl (moves_conditional alike places inside)

end Reading

namespace State

variable {reading : Reading}

/-- The second scan stands at an alike place inside of alike constructs, which are inside of those `below`. -/
structure Mirrors (reading : Reading) (below : List Frame) (state other : State) : Prop where
  places : reading.places state.place other.place
  frame : state.frame.Alike reading.enclosed other.frame
  around : ∃ within, other.around = within ++ below ∧ List.Forall₂ (Frame.Alike reading.enclosed) state.around within
  loops_eq : state.loops = other.loops

namespace Mirrors

variable {below : List Frame} {state other next later : State}

private theorem beginInside (mirrors : Mirrors reading below state other) {frame frame' : Frame} {place place' : Place}
    (alike : frame.Alike reading.enclosed frame') (begins : reading.Begins place.begin place'.begin) :
    Mirrors reading below (state.beginInside frame place) (other.beginInside frame' place') := by
  obtain ⟨within, around_eq, around⟩ := mirrors.around
  have observed := alike.observe begins.simple
  have opens := begins.opens
  unfold State.beginInside
  dsimp only
  generalize place.begin.opens = construct, place'.begin.opens = construct' at opens
  cases opens with
  | none => exact ⟨begins.places, observed.absorb 0 0, ⟨within, around_eq, around⟩, mirrors.loops_eq⟩
  | some same =>
    refine ⟨begins.places, .enter same observed.watch_eq, ⟨_ :: within, ?_, .cons observed around⟩, mirrors.loops_eq⟩
    rw [around_eq, List.cons_append]

/-- The second scan goes along with the first one. -/
theorem step (mirrors : Mirrors reading below state other) (goes : state.Goes next) (inside : reading.inside state.place)
    (short : ¬ reading.beyond next.place)
    (strays : reading.enclosed → state.frame.construct = .program → state.place.skipClosers = state.place.skipBlanks) :
    ∃ after, other.Goes after ∧ Mirrors reading below next after := by
  have moves := Reading.resume mirrors.frame mirrors.places inside strays
  unfold Goes advance at goes
  generalize resumes : state.frame.resume state.place = move at goes moves
  generalize resumes' : other.frame.resume other.place = move' at moves
  rcases moves with moves | ⟨rest, rfl, beyond⟩
  · cases moves with
    | @start frame frame' place place' alike places within =>
      cases goes
      have starts := Reading.begin places within
      have place_eq : (state.beginInside frame place).place = place.begin.place := by
        unfold State.beginInside
        dsimp only
        split <;> rfl
      rw [← place_eq] at starts
      exact ⟨_, goes_of_start resumes', mirrors.beginInside alike (starts.resolve_right short)⟩
    | @finish place place' places =>
      obtain ⟨within, around_eq, around⟩ := mirrors.around
      unfold endFrame at goes
      dsimp only at goes
      cases enclosed : state.around with
      | nil => simp [enclosed] at goes
      | cons outer others =>
        rw [enclosed] at goes around
        cases goes
        cases around with
        | @cons _ outer' _ others' alike around =>
          obtain ⟨notes, goes'⟩ := goes_of_finish other resumes' around_eq
          refine ⟨_, goes', places, ?_, ⟨others', rfl, around⟩, ?_⟩
          · rw [State.returned, mirrors.frame.growth?_eq]
            exact alike.absorbFrame (mirrors.frame.deepen _)
          · rw [State.returned, mirrors.frame.growth?_eq, mirrors.loops_eq]
  · unfold endFrame at goes
    dsimp only at goes
    split at goes
    · cases goes
    · cases goes
      exact absurd beyond short

/-- Along a run on which the places stay inside, the second scan goes along with the first one. -/
theorem reaches (mirrors : Mirrors reading below state other) (reached : state.Reaches later)
    (common : ∀ before after, state.Reaches before → before.Goes after → after.Reaches later →
      reading.inside before.place ∧ ¬ reading.beyond after.place)
    (strays : reading.enclosed → ∀ before, state.Reaches before → before.frame.construct = .program →
      before.place.skipClosers = before.place.skipBlanks) :
    ∃ after, other.Reaches after ∧ Mirrors reading below later after := by
  induction reached with
  | refl => exact ⟨other, .refl, mirrors⟩
  | @tail before later reached goes ih =>
    have earlier := ih fun first second reached' goes' reaches' => common first second reached' goes' (reaches'.tail goes)
    obtain ⟨behind, reached', mirrors'⟩ := earlier
    obtain ⟨inside, short⟩ := common before later reached goes .refl
    obtain ⟨after, goes', mirrors''⟩ := mirrors'.step goes inside short fun enclosed => strays enclosed before reached
    exact ⟨after, reached'.tail goes', mirrors''⟩

end Mirrors

end State

end LoopCost
