import LoopCost.Proofs.Entry
import LoopCost.Proofs.Descent

/-! What the watch of a `while` loop sees, statement by statement, is what the body of the loop shows as a whole. It
sees nothing that the body does not show, and if there is no control flow in the body it misses nothing. -/

namespace LoopCost

open Relation

variable {condition : List Char} {below frames : List Frame} {frame inner outer : Frame}

/-- The open constructs down to a `while` loop. The ones that are not inside of another loop share its watch. -/
inductive Sharing (condition : List Char) (below : List Frame) (sound : Bool → Prop) : Bool → List Frame → Prop
  | loop {frame : Frame} {rescaled : Bool} (construct_eq : frame.construct = .whileLoop condition)
      (watch_eq : frame.watch = some { names := freeNames condition, rescaled }) (holds : sound rescaled) :
      Sharing condition below sound true (frame :: below)
  | shared {frame : Frame} {frames : List Frame} {rescaled : Bool} (branch : frame.construct.isLoop = false)
      (watch_eq : frame.watch = some { names := freeNames condition, rescaled }) (holds : sound rescaled)
      (outer : Sharing condition below sound true frames) : Sharing condition below sound true (frame :: frames)
  | hidden {frame : Frame} {frames : List Frame} {shares : Bool} (apart : shares = true → frame.construct.isLoop = true)
      (outer : Sharing condition below sound shares frames) : Sharing condition below sound false (frame :: frames)

namespace Sharing

variable {sound later : Bool → Prop} {shares : Bool}

theorem mono (implies : ∀ rescaled, sound rescaled → later rescaled) (sharing : Sharing condition below sound shares frames) :
    Sharing condition below later shares frames := by
  induction sharing with
  | loop construct_eq watch_eq holds => exact .loop construct_eq watch_eq (implies _ holds)
  | shared branch watch_eq holds _ ih => exact .shared branch watch_eq (implies _ holds) ih
  | hidden apart _ ih => exact .hidden apart ih

theorem deep (sharing : Sharing condition below sound shares frames) : below.length < frames.length := by
  induction sharing with
  | loop => exact Nat.lt_succ_self _
  | shared _ _ _ _ ih | hidden _ _ ih => exact Nat.lt_succ_of_lt ih

theorem watch_eq (sharing : Sharing condition below sound true (frame :: frames)) :
    ∃ rescaled, frame.watch = some { names := freeNames condition, rescaled } ∧ sound rescaled := by
  cases sharing with
  | loop _ watch_eq holds | shared _ watch_eq holds => exact ⟨_, watch_eq, holds⟩

theorem outermost (sharing : Sharing condition below sound shares (frame :: below)) :
    ∃ rescaled, frame.watch = some { names := freeNames condition, rescaled } ∧ sound rescaled := by
  cases sharing with
  | loop _ watch_eq holds => exact ⟨_, watch_eq, holds⟩
  | shared _ _ _ outer | hidden _ outer => exact absurd outer.deep (Nat.lt_irrefl _)

/-- The innermost construct goes on, with what its watch has seen by now. -/
theorem go (sharing : Sharing condition below sound shares (frame :: frames))
    (same : inner.construct = frame.construct ∨ frame.construct.isLoop = false ∧ inner.construct.isLoop = false)
    (sees : shares = true → ∃ rescaled, inner.watch = some { names := freeNames condition, rescaled } ∧ sound rescaled) :
    Sharing condition below sound shares (inner :: frames) := by
  have kind : inner.construct.isLoop = frame.construct.isLoop := by
    rcases same with same | ⟨old, new⟩
    · rw [same]
    · rw [old, new]
  cases sharing with
  | loop construct_eq =>
    obtain ⟨rescaled, watch_eq, holds⟩ := sees rfl
    refine .loop ?_ watch_eq holds
    rcases same with same | ⟨noLoop, -⟩
    · rw [same, construct_eq]
    · rw [construct_eq] at noLoop
      cases noLoop
  | shared branch _ _ outer =>
    obtain ⟨rescaled, watch_eq, holds⟩ := sees rfl
    exact .shared (kind.trans branch) watch_eq holds outer
  | hidden apart outer => exact .hidden (fun shared => kind.trans (apart shared)) outer

theorem enter (construct : Construct) (sharing : Sharing condition below sound shares (frame :: frames)) :
    ∃ shares, Sharing condition below sound shares (.enter construct frame.watch :: frame :: frames) := by
  by_cases loop : construct.isLoop = true
  · exact ⟨false, .hidden (fun _ => loop) sharing⟩
  · cases shares with
    | false => exact ⟨false, .hidden (by simp) sharing⟩
    | true =>
      obtain ⟨rescaled, watch_eq, holds⟩ := sharing.watch_eq
      have passed : (Frame.enter construct frame.watch).watch = frame.watch := by
        cases construct with
        | forLoop _ | whileLoop _ | doLoop => exact absurd rfl loop
        | _ => rfl
      exact ⟨true, .shared (Bool.eq_false_iff.mpr loop) (passed.trans watch_eq) holds sharing⟩

end Sharing

theorem Frame.absorbFrame_watch (outer inner : Frame) (growth : Option Growth) :
    (outer.absorbFrame (inner.deepen growth)).watch = if inner.construct.isLoop then outer.watch else inner.watch := by
  have kept : (inner.deepen growth).construct = inner.construct ∧ (inner.deepen growth).watch = inner.watch := by
    unfold deepen
    split <;> exact ⟨rfl, rfl⟩
  unfold absorbFrame
  dsimp only
  rw [kept.1]
  split
  · rfl
  · exact kept.2

theorem Sharing.leave {sound : Bool → Prop} {shares : Bool} (growth : Option Growth)
    (sharing : Sharing condition below sound shares (inner :: outer :: frames)) (inside : below.length ≤ frames.length) :
    ∃ shares, Sharing condition below sound shares (outer.absorbFrame (inner.deepen growth) :: frames) := by
  have construct_eq := outer.absorbFrame_construct (inner.deepen growth)
  have watch_eq := outer.absorbFrame_watch inner growth
  cases sharing with
  | loop => exact absurd inside (by simp)
  | shared branch seen holds around =>
    rw [branch] at watch_eq
    -- The construct around gets the watch back with what it has seen inside.
    refine ⟨true, around.go (.inl construct_eq) ?_⟩
    intro _
    exact ⟨_, watch_eq.trans seen, holds⟩
  | @hidden _ _ shares apart around =>
    refine ⟨shares, around.go (.inl construct_eq) ?_⟩
    rintro rfl
    obtain ⟨rescaled, seen, holds⟩ := around.watch_eq
    rw [apart rfl] at watch_eq
    exact ⟨rescaled, watch_eq.trans seen, holds⟩

/-- A watch that is shown a statement has seen what it saw before and what the statement shows. -/
theorem Frame.observe_watch {names : List Name} {rescaled : Bool} (watch_eq : frame.watch = some { names, rescaled })
    (statement : Option (List Char)) :
    (frame.observe statement).watch =
      some { names, rescaled := rescaled || statement.any (rescales · names) } := by
  cases statement with
  | none =>
    rw [Option.any_none, Bool.or_false]
    exact watch_eq
  | some text =>
    simp only [observe, watch_eq, Option.map_some, Option.any_some, Watch.observe]
    cases rescaled <;> rfl

namespace State

/-- What the watch of the loop knows is shown by the text that was read since the loop was entered. -/
def Follows (condition : List Char) (entry state : State) : Prop :=
  entry.place.Leads state.place ∧ ∃ shares,
    Sharing condition entry.around (fun rescaled => rescaled = true →
      Place.Shows (freeNames condition) entry.place state.place) shares (state.frame :: state.around)

theorem Follows.observed {entry state : State} {start : Place} (follows : Follows condition entry state)
    (paired : state.place.Paired) (starts : state.frame.resume state.place = .start frame start) :
    entry.place.Leads start.begin.place ∧ ∃ shares,
      Sharing condition entry.around (fun rescaled => rescaled = true →
        Place.Shows (freeNames condition) entry.place start.begin.place) shares
        (frame.observe start.begin.simple :: state.around) := by
  obtain ⟨leads, shares, sharing⟩ := follows
  obtain ⟨⟨watch_eq, turns, -, -⟩, ahead⟩ := Frame.resume_start starts
  have begins := Place.begins_begin (ahead.paired paired)
  have read := leads.trans ahead
  have still := sharing.mono fun rescaled known seen => (known seen).before leads (ahead.trans begins.leads)
  refine ⟨read.trans begins.leads, shares, still.go ?_ ?_⟩
  · rw [frame.observe_construct]
    refine turns.imp_right ?_
    intro ⟨conditional, branch⟩
    rw [conditional, branch]
    exact ⟨rfl, rfl⟩
  · rintro rfl
    obtain ⟨rescaled, seen, holds⟩ := still.watch_eq
    refine ⟨_, Frame.observe_watch (watch_eq.trans seen) _, ?_⟩
    intro shown
    rcases (Bool.or_eq_true _ _).mp shown with known | now
    · exact holds known
    · obtain ⟨text, simple, found⟩ := (Option.any_eq_true _ _).mp now
      exact read.shows (begins.shows simple found)

theorem Follows.next {entry state next : State} (follows : Follows condition entry state)
    (paired : state.place.Paired) (goes : state.Goes next) (inside : entry.around.length ≤ next.around.length) :
    Follows condition entry next := by
  cases goes.step with
  | stays starts opens place_eq frame_eq around_eq =>
    obtain ⟨leads, shares, sharing⟩ := follows.observed paired starts
    rw [← place_eq] at leads sharing
    refine ⟨leads, shares, ?_⟩
    rw [frame_eq, around_eq]
    refine sharing.go (.inl rfl) ?_
    rintro rfl
    exact sharing.watch_eq
  | enters starts opens place_eq frame_eq around_eq =>
    obtain ⟨leads, shares, sharing⟩ := follows.observed paired starts
    rw [← place_eq] at leads sharing
    rw [Follows, frame_eq, around_eq]
    exact ⟨leads, sharing.enter _⟩
  | leaves ends enclosed frame_eq =>
    obtain ⟨leads, shares, sharing⟩ := follows
    have ahead := Frame.resume_finish paired ends
    rw [enclosed] at sharing
    have still := sharing.mono fun rescaled known seen => (known seen).before leads ahead
    rw [Follows, frame_eq]
    exact ⟨leads.trans ahead, still.leave _ inside⟩

theorem follows_of_within {text : List Char} {entry state : State} (entered : Entered text entry (.whileLoop condition))
    (within : entry.Within state) : Follows condition entry state := by
  induction within with
  | refl =>
    obtain ⟨watch, frame_eq⟩ := entered.frame_eq
    refine ⟨.refl _, true, ?_⟩
    rw [frame_eq]
    exact .loop rfl rfl (by simp)
  | @tail state next reached goes ih =>
    exact ih.next (paired_of_reaches (entered.reached.trans (Within.reaches reached))) goes.1 goes.2

end State

inductive OnlyBlocks (condition : List Char) (below : List Frame) : List Frame → Prop
  | loop {frame : Frame} (construct_eq : frame.construct = .whileLoop condition) :
      OnlyBlocks condition below (frame :: below)
  | block {frame : Frame} {frames : List Frame} (construct_eq : frame.construct = .block)
      (outer : OnlyBlocks condition below frames) : OnlyBlocks condition below (frame :: frames)

theorem OnlyBlocks.go (blocks : OnlyBlocks condition below (frame :: frames)) (same : inner.construct = frame.construct) :
    OnlyBlocks condition below (inner :: frames) := by
  cases blocks with
  | loop construct_eq => exact .loop (same.trans construct_eq)
  | block construct_eq outer => exact .block (same.trans construct_eq) outer

theorem OnlyBlocks.innermost (blocks : OnlyBlocks condition below (frame :: frames)) :
    frame.construct = .block ∧ OnlyBlocks condition below frames ∨
      frame.construct = .whileLoop condition ∧ frames = below := by
  cases blocks with
  | loop construct_eq => exact .inr ⟨construct_eq, rfl⟩
  | block construct_eq outer => exact .inl ⟨construct_eq, outer⟩

namespace Frame

variable {names : List Name} {place start rest : Place}

theorem tells_of_start (plain : frame.construct = .block ∨ frame.construct = .whileLoop condition)
    (starts : frame.resume place = .start inner start) : inner = frame ∧ Place.Tells names false place start := by
  unfold resume at starts
  rcases plain with kind | kind
  · simp only [kind] at starts
    split at starts
    · cases starts
    · next glyph rest here =>
      split at starts
      · cases starts
      · cases starts
        exact ⟨rfl, here ▸ place.tells_skipBlanks⟩
  · simp only [kind] at starts
    split at starts
    · cases starts
      exact ⟨rfl, .refl _⟩
    · cases starts

theorem tells_of_finish (block : frame.construct = .block) (ends : frame.resume place = .finish rest) :
    Place.Tells names false place rest := by
  unfold resume at ends
  simp only [block] at ends
  have blanks := @Place.tells_skipBlanks names place
  split at ends
  · next here =>
    cases ends
    exact here ▸ blanks
  · next glyph after here =>
    split at ends
    · next closes =>
      cases ends
      rw [here] at blanks
      exact blanks.trans (Place.tells_cons (by simp [closes]) _)
    · cases ends

end Frame

namespace State

/-- There is no control flow in what was read since the loop was entered, and its watch knows all that was shown. -/
def Knows (condition : List Char) (entry state : State) : Prop :=
  OnlyBlocks condition entry.around (state.frame :: state.around) ∧ ∃ rescaled,
    state.frame.watch = some { names := freeNames condition, rescaled } ∧
      Place.Tells (freeNames condition) rescaled entry.place state.place

def Free (state : State) : Prop :=
  ∀ frame start, state.frame.resume state.place = .start frame start → ¬ start.Controls

theorem Knows.observed {entry state : State} {start : Place} (knows : Knows condition entry state)
    (free : state.Free) (starts : state.frame.resume state.place = .start frame start) :
    frame = state.frame ∧ (start.begin.opens = none ∨ start.begin.opens = some .block) ∧ ∃ rescaled,
      (frame.observe start.begin.simple).watch = some { names := freeNames condition, rescaled } ∧
        Place.Tells (freeNames condition) rescaled entry.place start.begin.place := by
  obtain ⟨blocks, rescaled, seen, told⟩ := knows
  have kind := blocks.innermost.imp And.left And.left
  obtain ⟨rfl, ahead⟩ := @Frame.tells_of_start condition state.frame frame (freeNames condition) _ _ kind starts
  have plainly := @Place.plainly_begin (freeNames condition) start (free state.frame start starts)
  have read := (told.trans ahead).trans plainly.tells
  rw [Bool.or_false] at read
  exact ⟨rfl, plainly.opens, _, Frame.observe_watch seen _, read⟩

theorem Knows.next {entry state next : State} (knows : Knows condition entry state) (free : state.Free)
    (goes : state.Goes next) (inside : entry.around.length ≤ next.around.length) : Knows condition entry next := by
  have blocks := knows.1
  cases goes.step with
  | stays starts opens place_eq frame_eq around_eq =>
    obtain ⟨rfl, -, rescaled, seen, told⟩ := knows.observed free starts
    rw [Knows, place_eq, frame_eq, around_eq]
    exact ⟨blocks.go (state.frame.observe_construct _), rescaled, seen, told⟩
  | enters starts opens place_eq frame_eq around_eq =>
    obtain ⟨rfl, kinds, rescaled, seen, told⟩ := knows.observed free starts
    rw [opens] at kinds
    rcases kinds with none | block
    · cases none
    · cases block
      rw [Knows, place_eq, frame_eq, around_eq]
      exact ⟨.block rfl (blocks.go (state.frame.observe_construct _)), rescaled, seen, told⟩
  | leaves ends enclosed frame_eq =>
    obtain ⟨-, rescaled, seen, told⟩ := knows
    rw [enclosed] at blocks
    rcases blocks.innermost with ⟨block, outer⟩ | ⟨-, same⟩
    · have read := told.trans (Frame.tells_of_finish block ends)
      rw [Bool.or_false] at read
      rw [Knows, frame_eq]
      refine ⟨outer.go (Frame.absorbFrame_construct _ _), rescaled, ?_, read⟩
      rw [Frame.absorbFrame_watch, block]
      exact seen
    · -- A step that leaves the loop itself is not within it.
      rw [← same, List.length_cons] at inside
      exact absurd inside (Nat.not_succ_le_self _)

theorem knows_of_within {text : List Char} {entry state exit : State}
    (entered : Entered text entry (.whileLoop condition)) (within : entry.Within state) (ahead : state.Reaches exit)
    (free : ∀ middle, entry.Within middle → middle.Reaches exit → middle.Free) : Knows condition entry state := by
  induction within with
  | refl =>
    obtain ⟨watch, frame_eq⟩ := entered.frame_eq
    rw [Knows, frame_eq]
    exact ⟨.loop rfl, false, rfl, .refl _⟩
  | @tail middle next reached goes ih =>
    have ahead := ReflTransGen.head goes.1 ahead
    exact (ih ahead).next (free middle reached ahead) goes.1 goes.2

end State

theorem Growth.ofWhile_of_rescales {code : List Char} {rescaled : Bool}
    (same : rescaled = rescales code (freeNames condition)) :
    Growth.ofWhile condition [] rescaled = Growth.ofWhile condition code false := by
  simp only [Growth.ofWhile, rescales_nil, Bool.or_false, Bool.false_or, same]

/-- A `while` loop is only ever taken to rescale a name of its condition if its body as a whole does. If no statement
of the body is one of control flow, this is the same, and so is the growth that the body as a whole would give. -/
theorem while_sees_body {text condition : List Char} {exit : State} {rest : Place}
    (reached : (State.initial text).Reaches exit) (loop : exit.frame.construct = .whileLoop condition)
    (ends : exit.frame.resume exit.place = .finish rest) :
    ∃ entry front blanks body rescaled,
      (State.initial text).Reaches entry ∧ entry.Within exit ∧ entry.around = exit.around ∧
      (∃ watch, entry.frame = .enter (.whileLoop condition) watch) ∧
      (∀ c ∈ blanks, Unicode.isBlank c = true) ∧
      text = front ++ ("while".toList ++ (blanks ++ '(' :: (condition ++ ')' :: plain entry.place))) ∧
      plain entry.place = body ++ plain rest ∧
      exit.frame.watch = some { names := freeNames condition, rescaled } ∧
      (rescaled = true → rescales body (freeNames condition) = true) ∧
      ((∀ middle, entry.Within middle → middle.Reaches exit → middle.Free) →
        (rescales body (freeNames condition) = true → rescaled = true) ∧
        exit.frame.growth? = some (.ofWhile condition body false)) := by
  obtain ⟨entry, construct, entered, within, enclosed, same⟩ :=
    State.opened_of_reaches reached exit.frame exit.around (List.suffix_refl _)
  obtain rfl : construct = .whileLoop condition := by
    rcases same with same | ⟨-, branch⟩
    · exact same.symm.trans loop
    · rw [loop] at branch
      cases branch
  obtain rfl : rest = exit.place := by
    unfold Frame.resume at ends
    simp only [loop] at ends
    split at ends
    · cases ends
    · cases ends
      rfl
  obtain ⟨leads, shares, sharing⟩ := State.follows_of_within entered within
  obtain ⟨front, blanks, blank, whole⟩ := entered.behind condition rfl
  obtain ⟨body, split, -⟩ := leads
  rw [enclosed] at sharing
  obtain ⟨rescaled, seen, shown⟩ := sharing.outermost
  have sound : rescaled = true → rescales (plain body) (freeNames condition) = true := by
    intro known
    obtain ⟨read, again, found⟩ := shown known
    rw [split] at again
    rwa [List.append_cancel_right again]
  refine ⟨entry, front, blanks, plain body, rescaled, entered.reached, within, enclosed, entered.frame_eq, blank, whole,
    by rw [split, plain_append], seen, sound, ?_⟩
  intro free
  obtain ⟨-, rescaled', seen', read, again, told⟩ := State.knows_of_within entered within .refl free
  obtain rfl : rescaled = rescaled' := by simpa [seen] using seen'
  rw [split] at again
  obtain rfl := List.append_cancel_right again
  have complete : rescales (plain body) (freeNames condition) = true → rescaled = true := by
    intro found
    rcases told [] List.nil_prefix (by rwa [List.append_nil]) with known | nothing
    · exact known
    · rw [plain, List.map_nil, rescales_nil] at nothing
      cases nothing
  refine ⟨complete, ?_⟩
  simp only [Frame.growth?, loop, seen, Option.any_some]
  rw [Growth.ofWhile_of_rescales (Bool.eq_iff_iff.mpr ⟨sound, complete⟩)]

theorem while_sees_body_halving :
    ∃ exit : State, (State.initial "while(n)n/=2;".toList).Reaches exit ∧ exit.frame.construct = .whileLoop ['n'] ∧
      exit.frame.resume exit.place = .finish [] ∧
      ∃ (entry : State) (body : List Char), entry.Within exit ∧ plain entry.place = body ∧
        (∀ middle, entry.Within middle → middle.Reaches exit → middle.Free) ∧
        exit.frame.growth? = some (.ofWhile ['n'] body false) := by
  let start := State.initial "while(n)n/=2;".toList
  let entered := start.beginInside start.frame start.place
  let exit : State :=
    { place := []
      frame :=
        { construct := .whileLoop ['n'], fresh := false, watch := some { names := freeNames ['n'], rescaled := true } }
      around := [start.frame] }
  have enters : start.Goes entered := rfl
  have exits : entered.Goes exit := rfl
  have reached : start.Reaches exit := .tail (.single enters) exits
  obtain ⟨entry, front, blanks, body, rescaled, before, within, enclosed, -, -, -, whole, -, -, complete⟩ :=
    while_sees_body reached rfl rfl
  have free : ∀ middle, entry.Within middle → middle.Reaches exit → middle.Free := by
    intro middle inside ahead
    have deep := inside.deep
    rw [enclosed] at deep
    rcases State.Reaches.eq_or (before.trans inside.reaches) enters with rfl | later
    · exact absurd deep (by decide)
    rcases State.Reaches.eq_or later exits with rfl | last
    · intro frame place starts
      have here : entered.frame.resume entered.place = .start entered.frame (glyphs "n/=2;".toList) := rfl
      cases here.symm.trans starts
      unfold Place.Controls
      decide +kernel
    · rcases ReflTransGen.cases_head last with rfl | ⟨next, goes, back⟩
      · intro frame place starts
        cases starts
      · exact absurd (back.trans ahead) goes.not_reaches
  exact ⟨exit, reached, rfl, rfl, entry, body, within, whole.trans (List.append_nil body), free, (complete free).2⟩
end LoopCost
