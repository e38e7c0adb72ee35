import LoopCost.Proofs.Parser
import LoopCost.Proofs.Reaches

/-! What the scan does with a piece of text is told by the tree of that piece, whatever constructs are open around it.
A construct that has been read inside of a frame leaves its depths and its own simple statements there. -/

namespace LoopCost

theorem Watch.observe_rescaled (watch : Watch) (statement : List Char) :
    (watch.observe statement).rescaled = (watch.rescaled || rescales statement watch.names) ∧
      (watch.observe statement).names = watch.names := by
  unfold Watch.observe
  split <;> simp_all

def Watch.observeAll (watch : Watch) (statements : List (List Char)) : Watch := statements.foldl observe watch

theorem Watch.observeAll_eq (watch : Watch) (statements : List (List Char)) :
    watch.observeAll statements =
      { watch with rescaled := watch.rescaled || statements.any fun statement => rescales statement watch.names } := by
  induction statements generalizing watch with
  | nil => simp [observeAll]
  | cons statement statements ih =>
    obtain ⟨seen, names⟩ := watch.observe_rescaled statement
    have rest := ih (watch.observe statement)
    simp only [observeAll, List.foldl_cons] at rest ⊢
    rw [rest, seen, names, List.any_cons, Bool.or_assoc]

/-- What a construct has after statements inside it, given their deepest nesting and the simple ones among them. -/
def Frame.gather (frame : Frame) (linear log : Nat) (own : List (List Char)) : Frame :=
  { frame.absorb linear log with watch := frame.watch.map (·.observeAll own) }

def Frame.take (frame : Frame) (tree : Tree) : Frame :=
  frame.gather (tree.deepest .linear 0) (tree.deepest .logarithmic 0) tree.own

def LoopHead.construct : LoopHead → Construct
  | forHead header => .forLoop header
  | whileHead condition => .whileLoop condition
  | doHead => .doLoop

def Frame.gatherAll (frame : Frame) (trees : List Tree) : Frame :=
  frame.gather (Tree.deepestOf .linear 0 trees) (Tree.deepestOf .logarithmic 0 trees) (Tree.ownOf trees)

namespace Frame

theorem gather_gather (frame : Frame) (linear log linear' log' : Nat) (own own' : List (List Char)) :
    (frame.gather linear log own).gather linear' log' own' =
      frame.gather (max linear linear') (max log log') (own ++ own') := by
  simp [gather, absorb, Watch.observeAll, Function.comp_def, Nat.max_assoc]

theorem growth?_take (head : LoopHead) (around : Option Watch) (body : Tree) :
    ((enter head.construct around).take body).growth? = some (head.growth body.own) := by
  cases head with
  | forHead header | doHead => rfl
  | whileHead condition =>
    simp [growth?, take, gather, absorb, enter, LoopHead.construct, LoopHead.growth, Construct.watch,
      Watch.observeAll_eq]

theorem absorbFrame_loop (frame : Frame) (head : LoopHead) (around : Option Watch) (body : Tree) :
    frame.absorbFrame (((enter head.construct around).take body).deepen (some (head.growth body.own))) =
      frame.take (.loop head body) := by
  have linear := body.deepest_eq_add .linear 1
  have log := body.deepest_eq_add .logarithmic 1
  cases head <;> cases growth : LoopHead.growth _ body.own <;>
    simp_all [deepen, absorbFrame, take, gather, absorb, enter, Tree.own, Tree.deepest, Watch.observeAll,
      Construct.isLoop, LoopHead.construct, Nat.add_comm]

/-- What is found under an `if` or `switch` belongs to the statement around it. -/
theorem absorbFrame_branch (frame : Frame) (construct : Construct) (branch : construct = .branch ∨ construct = .conditional)
    (body : Tree) : frame.absorbFrame ((enter construct frame.watch).take body) = frame.take (.branch body) := by
  rcases branch with rfl | rfl <;>
    simp [absorbFrame, take, gather, absorb, enter, Construct.isLoop, Construct.watch, Tree.own, Tree.deepest]

theorem absorbFrame_choice (frame : Frame) (body otherwise : Tree) :
    let under := (enter .conditional frame.watch).take body
    frame.absorbFrame (take { under with construct := .branch, fresh := true } otherwise) =
      frame.take (.choice body otherwise) := by
  simp [absorbFrame, take, gather, absorb, enter, Construct.isLoop, Construct.watch, Tree.own, Tree.deepest,
    Watch.observeAll, Function.comp_def]

theorem absorbFrame_block (frame : Frame) (trees : List Tree) :
    frame.absorbFrame ((enter .block frame.watch).gatherAll trees) = frame.take (.block trees) := by
  simp [absorbFrame, take, gather, gatherAll, absorb, enter, Construct.isLoop, Construct.watch, Tree.own, Tree.deepest]

theorem take_bodied (frame : Frame) (text : List Char) (trees : List Tree) :
    (frame.observe (some text)).take (.block trees) = frame.take (.bodied text trees) := by
  simp [take, gather, absorb, observe, Tree.own, Tree.deepest, Watch.observeAll, Function.comp_def]

end Frame

namespace State

def follow (state : State) (frame : Frame) (beginning : Beginning) : State :=
  let frame := frame.observe beginning.simple
  let notes := beginning.note.toList ++ state.notes
  match beginning.opens with
  | none => { state with place := beginning.place, frame := frame.absorb 0 0, notes }
  | some construct =>
    { state with
      place := beginning.place
      frame := .enter construct frame.watch
      around := frame :: state.around
      notes }

def after (state : State) (frame : Frame) (tree : Tree) (rest : Place) (notes : List Note) : State :=
  { state with place := rest, frame := frame.take tree, loops := state.loops + tree.loops, notes }

def entering (state : State) (frame : Frame) (construct : Construct) (start : Place) : State :=
  { state with place := start, frame := .enter construct frame.watch, around := frame :: state.around }

/-- Where the scan stands once it has read the rest of the innermost block and left it. -/
def afterBlock (state : State) (outer : Frame) (around : List Frame) (trees : List Tree) (rest : Place)
    (notes : List Note) : State where
  place := rest
  frame := outer.absorbFrame (state.frame.gatherAll trees)
  around
  loops := state.loops + Tree.loopsOf trees
  notes

end State

/-- From this beginning on the scan reads the tree and leaves the rest, inside whatever is open. -/
def Reads (beginning : Beginning) (tree : Tree) (rest : Place) : Prop :=
  ∀ (state : State) (frame : Frame), ∃ notes,
    (state.follow frame beginning).Reaches (state.after frame tree rest notes)

open State Relation

theorem reads_blank (place : Place) : Reads { place } .blank place := by
  intro state frame
  refine ⟨state.notes, ?_⟩
  have same : frame.absorb 0 0 = frame.take .blank := by
    simp [Frame.take, Frame.gather, Frame.absorb, Tree.own, Tree.deepest, Watch.observeAll]
  simp only [follow, after, Frame.observe, Option.toList_none, List.nil_append, Tree.loops, same]
  exact .refl

theorem reads_simple (text : List Char) (place : Place) : Reads { place, simple := some text } (.simple text) place := by
  intro state frame
  refine ⟨state.notes, ?_⟩
  have same : (frame.observe (some text)).absorb 0 0 = frame.take (.simple text) := by
    simp [Frame.take, Frame.gather, Frame.observe, Frame.absorb, Tree.own, Tree.deepest, Watch.observeAll]
  simp only [follow, after, Option.toList_none, List.nil_append, Tree.loops, same]
  exact .refl

/-- The note on a missing header changes nothing else. -/
theorem Reads.note {beginning : Beginning} {tree : Tree} {rest : Place} (reads : Reads beginning tree rest)
    (quiet : beginning.note = none) (note : Option Note) : Reads { beginning with note } tree rest := by
  intro state frame
  have same : state.follow frame { beginning with note } =
      State.follow { state with notes := note.toList ++ state.notes } frame beginning := by
    simp [follow, quiet]
  rw [same]
  exact reads { state with notes := note.toList ++ state.notes } frame

/-- A loop is read if its body is: the scan enters the body, and counts the loop where the body ends. -/
theorem reads_loop (head : LoopHead) {start rest finish : Place} {body : Tree} (inner : Reads start.begin body rest)
    (ends : finish = match head with | .doHead => rest.afterDo | _ => rest) :
    Reads { place := start, opens := some head.construct } (.loop head body) finish := by
  intro state frame
  let entered := state.entering frame head.construct start
  obtain ⟨notes, reached⟩ := inner entered entered.frame
  have starts : (state.follow frame { place := start, opens := some head.construct }).Goes
      (entered.follow entered.frame start.begin) := by
    cases head <;> rfl
  have finishes : (entered.frame.take body).resume rest = .finish finish := by
    subst ends
    cases head <;> rfl
  obtain ⟨later, taken⟩ := goes_of_finish (entered.after entered.frame body rest notes) finishes rfl
  have same : (entered.after entered.frame body rest notes).returned frame state.around finish later =
      state.after frame (.loop head body) finish later := by
    simp only [returned, after, entering, entered, Frame.growth?_take, Frame.absorbFrame_loop]
    rfl
  exact ⟨later, (ReflTransGen.head starts reached).tail (same ▸ taken)⟩

theorem reads_branch {construct : Construct} (branch : construct = .branch ∨ construct = .conditional)
    {start rest : Place} {body : Tree} (inner : Reads start.begin body rest)
    (ends : construct = .conditional → rest.afterElse? = none) :
    Reads { place := start, opens := some construct } (.branch body) rest := by
  intro state frame
  let entered := state.entering frame construct start
  obtain ⟨notes, reached⟩ := inner entered entered.frame
  have starts : (state.follow frame { place := start, opens := some construct }).Goes
      (entered.follow entered.frame start.begin) := by
    rcases branch with rfl | rfl <;> rfl
  have finishes : (entered.frame.take body).resume rest = .finish rest := by
    rcases branch with rfl | rfl
    · rfl
    · simp [Frame.resume, Frame.take, Frame.gather, Frame.absorb, Frame.enter, entering, entered, ends rfl]
  obtain ⟨later, taken⟩ := goes_of_finish (entered.after entered.frame body rest notes) finishes rfl
  have growth : ((Frame.enter construct frame.watch).take body).growth? = none := by
    rcases branch with rfl | rfl <;> rfl
  have same : (entered.after entered.frame body rest notes).returned frame state.around rest later =
      state.after frame (.branch body) rest later := by
    simp only [returned, after, entering, entered, growth, Frame.deepen, frame.absorbFrame_branch construct branch body]
    rfl
  exact ⟨later, (ReflTransGen.head starts reached).tail (same ▸ taken)⟩

theorem reads_choice {start middle other rest : Place} {body otherwise : Tree} (inner : Reads start.begin body middle)
    (found : middle.afterElse? = some other) (second : Reads other.begin otherwise rest) :
    Reads { place := start, opens := some .conditional } (.choice body otherwise) rest := by
  intro state frame
  let entered := state.entering frame .conditional start
  obtain ⟨notes, reached⟩ := inner entered entered.frame
  have starts : (state.follow frame { place := start, opens := some .conditional }).Goes
      (entered.follow entered.frame start.begin) := rfl
  let between := entered.after entered.frame body middle notes
  let again : Frame := { between.frame with construct := .branch, fresh := true }
  obtain ⟨notes, continued⟩ := second between again
  have continues : between.Goes (between.follow again other.begin) := by
    apply goes_of_start
    simp [Frame.resume, Frame.take, Frame.gather, Frame.absorb, Frame.enter, after, between, again, entering, entered,
      found]
  have finishes : (again.take otherwise).resume rest = .finish rest := rfl
  obtain ⟨later, taken⟩ := goes_of_finish (between.after again otherwise rest notes) finishes rfl
  have growth : (again.take otherwise).growth? = none := rfl
  have absorbed : frame.absorbFrame (again.take otherwise) = frame.take (.choice body otherwise) :=
    frame.absorbFrame_choice body otherwise
  have same : (between.after again otherwise rest notes).returned frame state.around rest later =
      state.after frame (.choice body otherwise) rest later := by
    simp [returned, after, growth, Frame.deepen, absorbed, between, entered, entering, Tree.loops, Nat.add_assoc]
  exact ⟨later, ((ReflTransGen.head starts reached).trans (.head continues continued)).tail (same ▸ taken)⟩

def ReadsBlock (place : Place) (trees : List Tree) (rest : Place) : Prop :=
  ∀ (state : State) (outer : Frame) (around : List Frame), state.place = place → state.frame.construct = .block →
    state.around = outer :: around → ∃ notes, state.Reaches (state.afterBlock outer around trees rest notes)

theorem readsBlock_nil {place rest : Place}
    (ends : ∀ frame : Frame, frame.construct = .block → frame.resume place = .finish rest) :
    ReadsBlock place [] rest := by
  intro state outer around here block enclosed
  obtain ⟨notes, taken⟩ := goes_of_finish state (here ▸ ends state.frame block) enclosed
  refine ⟨notes, .single ?_⟩
  have growth : state.frame.growth? = none := by simp [Frame.growth?, block]
  have same : state.returned outer around rest notes = state.afterBlock outer around [] rest notes := by
    simp [returned, afterBlock, growth, Frame.deepen, Frame.absorbFrame, Frame.gatherAll, Frame.gather, Frame.absorb,
      block, Construct.isLoop, Tree.deepestOf, Tree.ownOf, Tree.loopsOf, Watch.observeAll]
  exact same ▸ taken

theorem readsBlock_cons {place start middle rest : Place} {tree : Tree} {trees : List Tree}
    (starts : ∀ frame : Frame, frame.construct = .block → frame.resume place = .start frame start)
    (first : Reads start.begin tree middle) (others : ReadsBlock middle trees rest) :
    ReadsBlock place (tree :: trees) rest := by
  intro state outer around here block enclosed
  obtain ⟨notes, reached⟩ := first state state.frame
  have goes : state.Goes (state.follow state.frame start.begin) := goes_of_start (here ▸ starts state.frame block)
  obtain ⟨later, left⟩ := others (state.after state.frame tree middle notes) outer around rfl block enclosed
  have same : (state.after state.frame tree middle notes).afterBlock outer around trees rest later =
      state.afterBlock outer around (tree :: trees) rest later := by
    simp [after, afterBlock, Frame.take, Frame.gatherAll, Frame.gather_gather, Tree.deepestOf, Tree.ownOf, Tree.loopsOf,
      Nat.add_assoc]
  exact ⟨later, (ReflTransGen.head goes reached).trans (same ▸ left)⟩

theorem ReadsBlock.enters {start rest : Place} {trees : List Tree} (inside : ReadsBlock start trees rest)
    (state : State) (frame : Frame) :
    ∃ notes, (state.entering frame .block start).Reaches (state.after frame (.block trees) rest notes) := by
  obtain ⟨notes, reached⟩ := inside (state.entering frame .block start) frame state.around rfl rfl rfl
  have same : (state.entering frame .block start).afterBlock frame state.around trees rest notes =
      state.after frame (.block trees) rest notes := by
    simp only [entering, afterBlock, after, Frame.absorbFrame_block]
    rfl
  exact ⟨notes, same ▸ reached⟩

theorem reads_block {start rest : Place} {trees : List Tree} (inside : ReadsBlock start trees rest) :
    Reads { place := start, opens := some .block } (.block trees) rest :=
  fun state frame => inside.enters state frame

theorem reads_bodied {start rest : Place} {trees : List Tree} (inside : ReadsBlock start trees rest) (text : List Char) :
    Reads { place := start, opens := some .block, simple := some text } (.bodied text trees) rest := by
  intro state frame
  obtain ⟨notes, reached⟩ := inside.enters state (frame.observe (some text))
  have same : state.after (frame.observe (some text)) (.block trees) rest notes =
      state.after frame (.bodied text trees) rest notes := by
    simp only [after, Frame.take_bodied]
    rfl
  exact ⟨notes, same ▸ reached⟩

end LoopCost
